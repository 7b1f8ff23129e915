import WireSchema.Items.Basic
import WireSchema.Items.Code
import WireSchema.Text.Quoted

/-! The text of generated items, each a fixed pattern of words around its names and types. -/

namespace WireSchema

open Code (words round square curly commaSeparated)

namespace BaseType

def codeName : BaseType → String
  | .scalar .bool => "bool"
  | .scalar .char | .scalar .uint8 => "u8"
  | .scalar .int8 => "i8"
  | .scalar .int16 => "i16"
  | .scalar .uint16 => "u16"
  | .scalar .int32 => "i32"
  | .scalar .uint32 => "u32"
  | .scalar .int64 => "i64"
  | .scalar .uint64 => "u64"
  | .scalar .float32 => "f32"
  | .scalar .float64 => "f64"
  | .string => "&'a str"

def descriptorName : BaseType → String
  | .scalar .bool => "BOOL"
  | .scalar .char => "CHAR"
  | .scalar .int8 => "INT8"
  | .scalar .uint8 => "UINT8"
  | .scalar .int16 => "INT16"
  | .scalar .uint16 => "UINT16"
  | .scalar .int32 => "INT32"
  | .scalar .uint32 => "UINT32"
  | .scalar .int64 => "INT64"
  | .scalar .uint64 => "UINT64"
  | .scalar .float32 => "FLOAT32"
  | .scalar .float64 => "FLOAT64"
  | .string => "STRING"

def code : BaseType → List Code
  | .string => words "& 'a str"
  | .scalar kind => [.word (codeName (.scalar kind))]

end BaseType

def literalCode (text : String) : Code := .word (Text.Quoted.literal text)

def lifetimeCode (lifetime : Bool) : List Code :=
  if lifetime then words "< 'a >" else []

/-- The lifetime of the input in a decoder: the item's own, or any other. -/
def inputLifetime (lifetime : Bool) : String := if lifetime then "'a" else "'de"

def selfCode (name : String) (lifetime : Bool) : List Code :=
  .word name :: lifetimeCode lifetime

def docsCode (docs : List String) : List Code :=
  docs.flatMap fun line =>
    [.word "#", square (words "doc =" ++ [literalCode (" " ++ line)])]

def deriveCode (names : String) : List Code :=
  [.word "#", square [.word "derive", round (words names)]]

def implCode (name : String) (lifetime : Bool) (interface : String) (body : List Code) :
    List Code :=
  [.word "impl"] ++ lifetimeCode lifetime ++ words interface ++ [.word "for"] ++
    selfCode name lifetime ++ [curly body]

def decodeImplCode (name : String) (lifetime : Bool) (body : List Code) : List Code :=
  let input := inputLifetime lifetime
  words ("impl < " ++ input ++ " > :: hdds_cdr :: CdrDecode < " ++ input ++ " > for") ++
    selfCode name lifetime ++ [curly body]

def resultCode : List Code :=
  words "-> :: hdds_cdr :: Result <" ++ [round [], .word ">"]

def okCode : List Code := words ":: core :: result :: Result :: Ok" ++ [round [round []]]

def encodeCode (writer : String) (body : List Code) : List Code :=
  words "fn encode" ++
    [round (words ("& self , " ++ writer ++ " : & mut :: hdds_cdr :: CdrWriter < '_ >"))] ++
    resultCode ++ [curly body]

def decodeCode (input reader : String) (body : List Code) : List Code :=
  words "fn decode_into" ++
    [round (words ("& mut self , " ++ reader ++ " : & mut :: hdds_cdr :: CdrReader < " ++ input ++
      " >"))] ++
    resultCode ++ [curly body]

def sealedCode (name : String) (lifetime : Bool) : List Code :=
  implCode name lifetime ":: hdds_cdr :: __private :: Sealed" [] ++
    implCode name lifetime ":: hdds_cdr :: Serdes" []

def minimumCode (type : List Code) (input : String) : List Code :=
  [.word "<"] ++ type ++
    words ("as :: hdds_cdr :: CdrDecode < " ++ input ++ " >> :: MIN_WIRE_SIZE")

namespace ElementItem

def code : ElementItem → List Code
  | .base type => type.code
  | .named name lifetime => selfCode name lifetime

def descriptorCode : ElementItem → List Code
  | .base type => words (":: hdds_cdr :: descriptor :: " ++ type.descriptorName)
  | .named name lifetime =>
    [.word "<"] ++ selfCode name lifetime ++ words "as :: hdds_cdr :: Describe > :: DESCRIPTOR"

end ElementItem

namespace FieldItem

def typeCode (field : FieldItem) : List Code :=
  match field.cardinality with
  | .one => field.element.code
  | .array length => [square (field.element.code ++ words ("; " ++ toString length))]
  | .sequence => words ":: hdds_cdr :: Sequence < 'a ," ++ field.element.code ++ [.word ">"]

def declarationCode (field : FieldItem) : List Code :=
  docsCode field.docs ++ words ("pub " ++ field.name ++ " :") ++ field.typeCode ++ [.word ","]

def defaultCode (field : FieldItem) : List Code :=
  words (field.name ++ " :") ++
    (match field.cardinality with
      | .one => words ":: core :: default :: Default :: default" ++ [round []]
      | .array _ =>
        words ":: core :: array :: from_fn" ++
          [round (words "| _ | :: core :: default :: Default :: default" ++ [round []])]
      | .sequence => words ":: hdds_cdr :: Sequence :: empty" ++ [round []]) ++
    [.word ","]

def encodeCode (field : FieldItem) : List Code :=
  words ":: hdds_cdr :: CdrEncode :: encode" ++
    [round (words ("& self . " ++ field.name ++ " , w"))] ++ words "? ;"

def decodeCode (field : FieldItem) : List Code :=
  words ":: hdds_cdr :: CdrDecode :: decode_into" ++
    [round (words ("& mut self . " ++ field.name ++ " , r"))] ++ words "? ;"

def cardinalityCode : Cardinality → List Code
  | .one => words ":: hdds_cdr :: Cardinality :: Scalar"
  | .array length =>
    words ":: hdds_cdr :: Cardinality :: FixedArray" ++ [round [.word (toString length)]]
  | .sequence => words ":: hdds_cdr :: Cardinality :: Sequence"

def descriptorCode (field : FieldItem) : List Code :=
  words ":: hdds_cdr :: FieldDescriptor" ++
    [curly (words "name :" ++ [literalCode field.name] ++ words ", element :" ++
      field.element.descriptorCode ++ words ", cardinality :" ++
      cardinalityCode field.cardinality ++ [.word ","])]

end FieldItem

def roleCode (role : Role) (fields : List FieldItem) : List Code :=
  let list := words "fields : &" ++
    [square (commaSeparated (fields.map FieldItem.descriptorCode))]
  match role with
  | .message => words ":: hdds_cdr :: TypeKind :: Compound" ++ [curly list]
  | .request service =>
    words ":: hdds_cdr :: TypeKind :: ServiceRequest" ++
      [curly (words "service :" ++ [literalCode service, .word ","] ++ list)]
  | .reply service =>
    words ":: hdds_cdr :: TypeKind :: ServiceReply" ++
      [curly (words "service :" ++ [literalCode service, .word ","] ++ list)]

def recordCode (name : String) (role : Role) (docs : List String) (lifetime copied : Bool)
    (fields : List FieldItem) : List Code :=
  let input := inputLifetime lifetime
  -- A record without fields uses neither writer nor reader.
  let (writer, reader) := if fields.isEmpty then ("_w", "_r") else ("w", "r")
  docsCode docs ++
    deriveCode (if copied then "Debug , Clone , Copy , PartialEq" else "Debug , PartialEq") ++
    words "pub struct" ++ selfCode name lifetime ++
    [curly (fields.flatMap FieldItem.declarationCode)] ++
    implCode name lifetime ":: core :: default :: Default"
      (words "fn default" ++ [round []] ++ words "-> Self" ++
        [curly [.word "Self", curly (fields.flatMap FieldItem.defaultCode)]]) ++
    implCode name lifetime ":: hdds_cdr :: CdrEncode"
      (encodeCode writer (fields.flatMap FieldItem.encodeCode ++ okCode)) ++
    decodeImplCode name lifetime
      (words "const MIN_WIRE_SIZE : usize = 0" ++
        (fields.flatMap fun field => .word "+" :: minimumCode field.typeCode input) ++
        [.word ";"] ++
        decodeCode input reader (fields.flatMap FieldItem.decodeCode ++ okCode)) ++
    implCode name lifetime ":: hdds_cdr :: Describe"
      (words "const DESCRIPTOR : & 'static :: hdds_cdr :: TypeDescriptor =" ++
        words "& :: hdds_cdr :: TypeDescriptor" ++
        [curly (words "name :" ++ [literalCode name] ++ words ", kind :" ++
          roleCode role fields ++ [.word ","]), .word ";"]) ++
    sealedCode name lifetime

def aliasCode (name : String) (docs : List String) (lifetime copied : Bool)
    (target : ElementItem) : List Code :=
  let input := inputLifetime lifetime
  docsCode docs ++
    deriveCode (if copied then "Debug , Default , Clone , Copy , PartialEq"
      else "Debug , Default , PartialEq") ++
    [.word "#", square [.word "repr", round [.word "transparent"]]] ++
    words "pub struct" ++ selfCode name lifetime ++
    [round (.word "pub" :: target.code), .word ";"] ++
    [.word "impl"] ++ lifetimeCode lifetime ++ words ":: core :: convert :: From <" ++
    target.code ++ words "> for" ++ selfCode name lifetime ++
    [curly (words "fn from" ++ [round (words "value :" ++ target.code)] ++ words "-> Self" ++
      [curly [.word "Self", round [.word "value"]]])] ++
    implCode name lifetime ":: hdds_cdr :: CdrEncode"
      (encodeCode "w" (words ":: hdds_cdr :: CdrEncode :: encode" ++
        [round (words "& self . 0 , w")])) ++
    decodeImplCode name lifetime
      (words "const MIN_WIRE_SIZE : usize =" ++ minimumCode target.code input ++ [.word ";"] ++
        decodeCode input "r" (words ":: hdds_cdr :: CdrDecode :: decode_into" ++
          [round (words "& mut self . 0 , r")])) ++
    implCode name lifetime ":: hdds_cdr :: Describe"
      (words "const DESCRIPTOR : & 'static :: hdds_cdr :: TypeDescriptor =" ++
        words "& :: hdds_cdr :: TypeDescriptor :: alias" ++
        [round ([literalCode name, .word ","] ++ target.descriptorCode), .word ";"]) ++
    sealedCode name lifetime

def serviceCode (name : String) (docs : List String) (request reply : ElementItem) : List Code :=
  docsCode docs ++ deriveCode "Debug , Clone , Copy , PartialEq , Eq , Default" ++
    words ("pub struct " ++ name ++ " ; impl :: hdds_cdr :: ServiceType for " ++ name) ++
    [curly (words "type Request < 'a > =" ++ request.code ++ words "; type Reply < 'a > =" ++
      reply.code ++ [.word ";"])]

def identityCode (name : String) (lifetime : Bool) (identity : TypeIdentity) : List Code :=
  implCode name lifetime ":: hdds_cdr :: NamedType"
    (words "const TYPE_NAME : & 'static str =" ++ [literalCode identity.name, .word ";"] ++
      words "const TYPE_HASH : & 'static str =" ++ [literalCode identity.hash, .word ";"])

namespace Item

def code : Item → List Code
  | .record name role docs lifetime copied fields =>
    recordCode name role docs lifetime copied fields
  | .alias name docs lifetime copied target => aliasCode name docs lifetime copied target
  | .service name docs request reply => serviceCode name docs request reply
  | .identity name lifetime known => identityCode name lifetime known

end Item

def CompiledSchema.expand (compiled : CompiledSchema) : String :=
  Code.listText (compiled.items.flatMap Item.code)

namespace SchemaError

/-- A call that stops the compiler of the generated code with the error's message. -/
def code (error : SchemaError) : List Code :=
  words ":: core :: compile_error !" ++ [curly [literalCode error.message]]

end SchemaError

namespace Schema

def expand (schema : Schema) : String :=
  match schema.compile with
  | .ok compiled => compiled.expand
  | .error _ => Code.listText (schema.diagnostics.flatMap SchemaError.code)

end Schema

end WireSchema
