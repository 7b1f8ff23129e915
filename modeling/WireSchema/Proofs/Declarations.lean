import WireSchema.Proofs.CodeWords

/-! Structs and references to them, read back from the words of generated code. -/

namespace WireSchema

namespace Code

structure Declaration where
  derived : List String
  name : String
  lifetime : Bool
  body : List Code

def startsParameter : List String → Bool
  | "<" :: "'a" :: ">" :: _ => true
  | _ => false

def derivedBy : List Code → List String
  | [.word "derive", .group _ names] => listLeaves names
  | _ => []

def frontWords : List Code → List String
  | .word text :: rest => text :: frontWords rest
  | _ => []

def firstGroup : List Code → List Code
  | .group _ body :: _ => body
  | .word ";" :: _ => []
  | .word _ :: rest => firstGroup rest
  | [] => []

/-- The struct that the code begins with, behind its attributes. -/
def declaration? (derived : List String) : List Code → Option Declaration
  | .word "#" :: .group _ inner :: rest => declaration? (derived ++ derivedBy inner) rest
  | .word "pub" :: .word "struct" :: .word name :: rest =>
    some ⟨derived, name, startsParameter (frontWords rest), firstGroup rest⟩
  | _ => none

/-- For each place among the words where the name stands and is no part of a path, whether the
lifetime parameter follows. -/
def parameters (name : String) : List String → List Bool
  | [] => []
  | "::" :: _ :: rest => parameters name rest
  | first :: rest =>
    (if first = name then [startsParameter rest] else []) ++ parameters name rest

/-- The words of one piece of code stand one behind the other among those of another. -/
def Within (inner outer : List Code) : Prop := listLeaves inner <:+: listLeaves outer

end Code

open Code

namespace Item

def declaration? (item : Item) : Option Declaration := Code.declaration? [] item.code

def fields : Item → List FieldItem
  | .record _ _ _ _ _ fields => fields
  | .alias _ _ _ _ target => [⟨"0", [], target, .one⟩]
  | .service .. | .identity .. => []

def isValue : Item → Bool
  | .record .. | .alias .. => true
  | .service .. | .identity .. => false

/-- The places where the item refers to types: the types of its fields, the descriptions of their
elements, and the two halves of a service. -/
def references : Item → List (ElementItem × List Code)
  | .service _ _ request reply => [(request, request.code), (reply, reply.code)]
  | .identity name lifetime _ => [(.named name lifetime, selfCode name lifetime)]
  | item => item.fields.flatMap fun field =>
    [(field.element, field.typeCode), (field.element, field.element.descriptorCode)]

end Item

def CompiledSchema.declarations (compiled : CompiledSchema) : List Declaration :=
  compiled.items.filterMap Item.declaration?

namespace Code

section Reading

variable {derived : List String} {text name : String} {lifetime : Bool}
  {code rest body : List Code}

theorem words_append (front back : String) :
    words (front ++ " " ++ back) = words front ++ words back := by
  have cut : (front ++ " " ++ back).toList = front.toList ++ ' ' :: back.toList := by simp
  rw [words, cut, List.splitOn_append_cons_self, List.map_append]
  rfl

theorem words_of_not_mem (unbroken : ' ' ∉ text.toList) : words text = [.word text] := by
  rw [words, List.splitOn_eq_singleton unbroken]
  simp

theorem declaration?_attribute {bracket : Bracket} (inner : List Code) :
    declaration? derived (.word "#" :: .group bracket inner :: rest) =
      declaration? (derived ++ derivedBy inner) rest := by
  rw [declaration?]

theorem declaration?_docsCode (docs : List String) :
    declaration? derived (docsCode docs ++ rest) = declaration? derived rest := by
  induction docs with
  | nil => rfl
  | cons line docs ih =>
    have split : words "doc =" = [.word "doc", .word "="] := by cbv
    have first : docsCode (line :: docs) =
      .word "#" :: square (words "doc =" ++ [literalCode (" " ++ line)]) :: docsCode docs := rfl
    rw [first, List.cons_append, List.cons_append, square, declaration?_attribute, split]
    simpa [derivedBy] using ih

theorem declaration?_deriveCode : declaration? derived (deriveCode text ++ rest) =
    declaration? (derived ++ listLeaves (words text)) rest := by
  rw [deriveCode, List.cons_append, List.cons_append, square, declaration?_attribute]
  rfl

theorem declaration?_struct : declaration? derived (words "pub struct" ++ .word name :: rest) =
    some ⟨derived, name, startsParameter (frontWords rest), firstGroup rest⟩ := by
  have split : words "pub struct" = [.word "pub", .word "struct"] := by cbv
  rw [split]
  rfl

theorem listLeaves_lifetimeCode (lifetime : Bool) :
    listLeaves (lifetimeCode lifetime) = if lifetime then ["<", "'a", ">"] else [] := by
  cases lifetime <;> decide +kernel

theorem startsParameter_lifetimeCode {leaves : List String} (behind : leaves.head? ≠ some "<") :
    startsParameter (listLeaves (lifetimeCode lifetime) ++ leaves) = lifetime := by
  rw [listLeaves_lifetimeCode]
  cases lifetime with
  | true => rfl
  | false =>
    rw [if_neg Bool.false_ne_true, List.nil_append, startsParameter]
    · exact fun _ shape => behind (by rw [shape]; rfl)

theorem declaration?_selfCode {bracket : Bracket} : declaration? derived
    (words "pub struct" ++ (selfCode name lifetime ++ .group bracket body :: rest)) =
      some ⟨derived, name, lifetime, body⟩ := by
  rw [selfCode, List.cons_append, declaration?_struct]
  cases lifetime with
  | true =>
    have split : lifetimeCode true = [.word "<", .word "'a", .word ">"] := by cbv
    rw [split]
    rfl
  | false => rfl

end Reading

end Code

theorem plain_of_isIdentifier {name : String} (valid : isIdentifier name = true) : Plain name := by
  obtain ⟨c, cs, shape, start, rest⟩ := Token.exists_of_isIdentifier valid
  apply plain_of_parts
  rw [shape]
  exact List.forall_mem_cons.mpr
    ⟨Token.isIdentifierRest_iff.mpr (.inl start), List.all_eq_true.mp rest⟩

/-- What a struct may be called: a word that is neither a base type nor part of the words around a
type. -/
structure StructName (name : String) : Prop where
  start : ∃ c cs, name.toList = c :: cs ∧ isIdentifierStart c = true
  parts : ∀ c ∈ name.toList, isIdentifierRest c = true
  not_as : name ≠ "as"
  unreserved : ∀ base : BaseType, name ∉ base.spellings

namespace StructName

variable {name text : String}

theorem plain (named : StructName name) : Plain name := plain_of_parts named.parts

theorem not_space (named : StructName name) : ' ' ∉ name.toList := fun space =>
  absurd (named.parts _ space) (by decide)

theorem ne_mark (named : StructName name)
    (mark : (text.toList.any fun c => !isIdentifierRest c) = true) : text ≠ name := by
  rintro rfl
  obtain ⟨c, member, other⟩ := List.any_eq_true.mp mark
  rw [named.parts c member] at other
  cases other

theorem ne_number (named : StructName name) (n : Nat) : toString n ≠ name := by
  rintro rfl
  obtain ⟨c, cs, shape, start⟩ := named.start
  have digit : c.isDigit = true := Token.isDigit_toDigits n c (by
    rw [Nat.toString_eq_ofList_toDigits, String.toList_ofList] at shape
    rw [shape]
    exact List.mem_cons_self)
  have low : c.toNat ≤ 57 :=
    UInt32.le_iff_toNat_le.mp (of_decide_eq_true (Bool.and_eq_true_iff.mp digit).2)
  rcases Token.isIdentifierStart_iff.mp start with underscore | upper | lower <;> omega

theorem ne_scalar (named : StructName name) (kind : Scalar) :
    (BaseType.scalar kind).codeName ≠ name := by
  obtain ⟨base, -, spelled⟩ :
      ∃ base ∈ BaseType.all, (BaseType.scalar kind).codeName ∈ base.spellings := by
    cases kind <;> decide
  rintro rfl
  exact named.unreserved base spelled

theorem ne_str (named : StructName name) : "str" ≠ name := by
  rintro rfl
  exact named.unreserved .string (by decide)

end StructName

section Parameters

variable {name own first : String} {lifetime : Bool} {front rest : List String}

theorem parameters_path (part : String) :
    parameters name ("::" :: part :: rest) = parameters name rest := rfl

theorem parameters_cons (mark : first ≠ "::") : parameters name (first :: rest) =
    (if first = name then [startsParameter rest] else []) ++ parameters name rest := by
  rw [parameters]
  exact fun _ _ same _ => absurd same mark

/-- Words apart from the name and from paths. -/
theorem parameters_append (apart : ∀ word ∈ front, word ≠ "::" ∧ word ≠ name) :
    parameters name (front ++ rest) = parameters name rest := by
  induction front with
  | nil => rfl
  | cons word front ih =>
    obtain ⟨mark, other⟩ := apart word List.mem_cons_self
    rw [List.cons_append, parameters_cons mark, if_neg other, List.nil_append]
    exact ih fun next member => apart next (List.mem_cons_of_mem _ member)

theorem StructName.apart (named : StructName name)
    (marks : (front.all fun word => word != "::" &&
      word.toList.any fun c => !isIdentifierRest c) = true) :
    ∀ word ∈ front, word ≠ "::" ∧ word ≠ name := by
  intro word member
  have mark := List.all_eq_true.mp marks word member
  rw [Bool.and_eq_true, bne_iff_ne] at mark
  exact ⟨mark.1, named.ne_mark mark.2⟩

theorem parameters_selfCode (named : StructName name) (owned : StructName own)
    (behind : rest.head? ≠ some "<") :
    parameters name (listLeaves (selfCode own lifetime) ++ rest) =
      (if own = name then [lifetime] else []) ++ parameters name rest := by
  have marks : ∀ word ∈ listLeaves (lifetimeCode lifetime), word ≠ "::" ∧ word ≠ name := by
    rw [listLeaves_lifetimeCode]
    cases lifetime with
    | true => exact named.apart (by decide)
    | false => exact fun _ member => absurd member List.not_mem_nil
  rw [selfCode, listLeaves_word, List.cons_append,
    parameters_cons (owned.ne_mark (by decide)).symm, startsParameter_lifetimeCode behind,
    parameters_append marks]

end Parameters

namespace ElementItem

def Named (element : ElementItem) : Prop :=
  ∀ name flag, element = .named name flag → StructName name

def parameters (name : String) : ElementItem → List Bool
  | .named own lifetime => if own = name then [lifetime] else []
  | .base _ => []

variable {element : ElementItem} {name : String} {rest : List String}

theorem Named.plain (named : element.Named) : element.Plain := fun name flag same =>
  (named name flag same).plain

theorem parameters_code (named : StructName name) (owned : element.Named)
    (behind : rest.head? ≠ some "<") : Code.parameters name (listLeaves element.code ++ rest) =
      element.parameters name ++ Code.parameters name rest := by
  cases element with
  | named own lifetime => exact parameters_selfCode named (owned own lifetime rfl) behind
  | base type =>
    cases type with
    | string =>
      have leaves : listLeaves (ElementItem.base .string).code = ["&", "'a"] ++ ["str"] := by
        decide +kernel
      rw [leaves, List.append_assoc, parameters_append (named.apart (by decide))]
      exact parameters_append fun word member => by
        rw [List.mem_singleton.mp member]
        exact ⟨by decide, named.ne_str⟩
    | scalar kind =>
      have leaves : listLeaves (ElementItem.base (.scalar kind)).code =
        [(BaseType.scalar kind).codeName] := rfl
      rw [leaves]
      exact parameters_append fun word member => by
        rw [List.mem_singleton.mp member]
        exact ⟨by cases kind <;> decide, named.ne_scalar kind⟩

theorem parameters_descriptorCode (named : StructName name) (owned : element.Named) :
    Code.parameters name (listLeaves element.descriptorCode) = element.parameters name := by
  cases element with
  | base type =>
    have leaves : listLeaves (ElementItem.base type).descriptorCode =
        ["::", "hdds_cdr", "::", "descriptor", "::", type.descriptorName] := by
      have unbroken : ' ' ∉ type.descriptorName.toList := by
        cases type with
        | string => decide
        | scalar kind => cases kind <;> decide
      have path : listLeaves (words ":: hdds_cdr :: descriptor ::") =
          ["::", "hdds_cdr", "::", "descriptor", "::"] := by
        decide +kernel
      have cut : ":: hdds_cdr :: descriptor :: " ++ type.descriptorName =
        ":: hdds_cdr :: descriptor ::" ++ " " ++ type.descriptorName := rfl
      rw [descriptorCode, cut, words_append, listLeaves_append, path, words_of_not_mem unbroken]
      rfl
    rw [leaves]
    rfl
  | named own lifetime =>
    have leaves : listLeaves (ElementItem.named own lifetime).descriptorCode = "<" ::
        (listLeaves (selfCode own lifetime) ++
          ["as", "::", "hdds_cdr", "::", "Describe", ">", "::", "DESCRIPTOR"]) := by
      have behind : listLeaves (words "as :: hdds_cdr :: Describe > :: DESCRIPTOR") =
          ["as", "::", "hdds_cdr", "::", "Describe", ">", "::", "DESCRIPTOR"] := by
        decide +kernel
      rw [descriptorCode, listLeaves_append, behind]
      rfl
    have open_ : ("<" : String) ≠ name := named.ne_mark (by decide)
    have close : (">" : String) ≠ name := named.ne_mark (by decide)
    have rest : Code.parameters name
        ["as", "::", "hdds_cdr", "::", "Describe", ">", "::", "DESCRIPTOR"] = [] := by
      rw [parameters_cons (by decide), if_neg named.not_as.symm, List.nil_append, parameters_path,
        parameters_path, parameters_cons (by decide), if_neg close]
      rfl
    rw [leaves, parameters_cons (by decide), if_neg open_, List.nil_append,
      parameters_selfCode named (owned own lifetime rfl) (by decide), rest]
    exact List.append_nil _

end ElementItem

theorem FieldItem.parameters_typeCode {field : FieldItem} {name : String} (named : StructName name)
    (owned : field.element.Named) :
    Code.parameters name (listLeaves field.typeCode) = field.element.parameters name := by
  have whole (rest : List String) (behind : rest.head? ≠ some "<") :=
    ElementItem.parameters_code named owned behind
  rw [typeCode]
  cases field.cardinality with
  | one =>
    have alone := whole [] (by decide)
    rw [List.append_nil] at alone
    exact alone.trans (List.append_nil _)
  | array length =>
    have digits : ' ' ∉ (toString length).toList := fun space =>
      absurd (Token.isDigit_toDigits length _ (by simpa using space)) (by decide)
    have leaves : listLeaves (words ("; " ++ toString length)) = [";", toString length] := by
      have cut : "; " ++ toString length = ";" ++ " " ++ toString length := rfl
      rw [cut, words_append, words_of_not_mem digits, words_of_not_mem (by decide)]
      rfl
    have number : toString length ≠ "::" ∧ toString length ≠ name := by
      refine ⟨fun same => ?_, named.ne_number length⟩
      have digit := Token.isDigit_toDigits length ':' (by
        have shape : (toString length).toList = [':', ':'] := by rw [same]; rfl
        rw [Nat.toString_eq_ofList_toDigits, String.toList_ofList] at shape
        rw [shape]
        exact List.mem_cons_self)
      cases digit
    have semicolon : (";" : String) ≠ name := named.ne_mark (by decide)
    show Code.parameters name
      (listLeaves [square (field.element.code ++ words ("; " ++ toString length))]) = _
    rw [square, listLeaves_group, listLeaves_append, leaves, listLeaves_nil, List.append_nil,
      whole _ (by simp), parameters_cons (by decide), if_neg semicolon, List.nil_append,
      parameters_cons number.1, if_neg number.2]
    exact List.append_nil _
  | sequence =>
    have leaves : listLeaves (words ":: hdds_cdr :: Sequence < 'a ,") =
        "::" :: "hdds_cdr" :: "::" :: "Sequence" :: ["<", "'a", ","] := by
      decide +kernel
    have close : (">" : String) ≠ name := named.ne_mark (by decide)
    rw [listLeaves_append, listLeaves_append, leaves, List.append_assoc, List.cons_append,
      List.cons_append, List.cons_append, List.cons_append, parameters_path, parameters_path,
      parameters_append (named.apart (by decide)), listLeaves_word, listLeaves_nil,
      whole _ (by decide), parameters_cons (by decide), if_neg close]
    exact List.append_nil _

namespace Item

section Declarations

variable {name : String} {docs : List String} {lifetime copied : Bool}

theorem declaration?_record (name : String) (role : Role) (docs : List String)
    (lifetime copied : Bool) (fields : List FieldItem) :
    (record name role docs lifetime copied fields).declaration? =
      some ⟨listLeaves (words
        (if copied then "Debug , Clone , Copy , PartialEq" else "Debug , PartialEq")),
        name, lifetime, fields.flatMap FieldItem.declarationCode⟩ := by
  obtain ⟨rest, shape⟩ : ∃ rest : List Code, (record name role docs lifetime copied fields).code =
      docsCode docs ++ (deriveCode
        (if copied then "Debug , Clone , Copy , PartialEq" else "Debug , PartialEq") ++
        (words "pub struct" ++ (selfCode name lifetime ++
          .group .curly (fields.flatMap FieldItem.declarationCode) :: rest))) := by
    rw [code, recordCode]
    simp only [List.append_assoc, List.singleton_append, curly]
    exact ⟨_, rfl⟩
  rw [declaration?, shape, declaration?_docsCode, declaration?_deriveCode, List.nil_append,
    declaration?_selfCode]

theorem declaration?_alias (name : String) (docs : List String) (lifetime copied : Bool)
    (target : ElementItem) : (Item.alias name docs lifetime copied target).declaration? =
      some ⟨listLeaves (words (if copied then "Debug , Default , Clone , Copy , PartialEq"
        else "Debug , Default , PartialEq")), name, lifetime, .word "pub" :: target.code⟩ := by
  obtain ⟨rest, shape⟩ : ∃ rest : List Code, (Item.alias name docs lifetime copied target).code =
      docsCode docs ++ (deriveCode (if copied then "Debug , Default , Clone , Copy , PartialEq"
        else "Debug , Default , PartialEq") ++
        (.word "#" :: .group .square [.word "repr", round [.word "transparent"]] ::
        (words "pub struct" ++ (selfCode name lifetime ++
          .group .round (.word "pub" :: target.code) :: rest)))) := by
    rw [code, aliasCode]
    simp only [List.append_assoc, List.cons_append, List.nil_append, square, Code.round]
    exact ⟨_, rfl⟩
  have underived : derivedBy [.word "repr", round [.word "transparent"]] = [] := rfl
  rw [declaration?, shape, declaration?_docsCode, declaration?_deriveCode, List.nil_append,
    declaration?_attribute, underived, List.append_nil, declaration?_selfCode]

theorem declaration?_service {name : String} (unbroken : ' ' ∉ name.toList) (docs : List String)
    (request reply : ElementItem) : (service name docs request reply).declaration? =
      some ⟨listLeaves (words "Debug , Clone , Copy , PartialEq , Eq , Default"), name, false,
        []⟩ := by
  have glued : "pub struct " ++ name ++ " ; impl :: hdds_cdr :: ServiceType for " ++ name =
      "pub struct" ++ " " ++ (name ++ " " ++
        (";" ++ " " ++ ("impl :: hdds_cdr :: ServiceType for" ++ " " ++ name))) := by
    apply String.toList_inj.mp
    simp
  obtain ⟨rest, shape⟩ : ∃ rest : List Code, (service name docs request reply).code =
      docsCode docs ++ (deriveCode "Debug , Clone , Copy , PartialEq , Eq , Default" ++
        (words "pub struct" ++ .word name :: .word ";" :: rest)) := by
    rw [code, serviceCode, glued, words_append, words_append name, words_append ";",
      words_of_not_mem unbroken, words_of_not_mem (show ' ' ∉ ";".toList by decide)]
    simp only [List.append_assoc, List.singleton_append]
    exact ⟨_, rfl⟩
  have ends : startsParameter (frontWords (.word ";" :: rest)) = false := rfl
  rw [declaration?, shape, declaration?_docsCode, declaration?_deriveCode, List.nil_append,
    declaration?_struct, ends]
  rfl

theorem declaration?_identity (name : String) (lifetime : Bool) (known : TypeIdentity) :
    (identity name lifetime known).declaration? = none := by
  obtain ⟨rest, shape⟩ : ∃ rest : List Code,
      (identity name lifetime known).code = .word "impl" :: rest := by
    rw [code, identityCode, implCode]
    simp only [List.append_assoc, List.singleton_append]
    exact ⟨_, rfl⟩
  rw [declaration?, shape]
  rfl

end Declarations

end Item

namespace Code

section Within

variable {inner front back body : List Code}

theorem Within.trans {inner middle outer : List Code} (first : Within inner middle)
    (second : Within middle outer) : Within inner outer := List.IsInfix.trans first second

theorem within_refl (code : List Code) : Within code code := List.infix_refl _

theorem Within.left (within : Within inner front) : Within inner (front ++ back) := by
  rw [Within, listLeaves_append]
  exact List.IsInfix.trans within (List.prefix_append _ _).isInfix

theorem Within.right (within : Within inner back) : Within inner (front ++ back) := by
  rw [Within, listLeaves_append]
  exact List.IsInfix.trans within (List.suffix_append _ _).isInfix

theorem Within.group {bracket : Bracket} (within : Within inner body) :
    Within inner (.group bracket body :: back) :=
  List.IsInfix.trans within (List.prefix_append _ _).isInfix

theorem within_flatMap {α : Type} {items : List α} {item : α} (print : α → List Code)
    (member : item ∈ items) : Within (print item) (items.flatMap print) := by
  obtain ⟨front, back, rfl⟩ := List.append_of_mem member
  rw [List.flatMap_append, List.flatMap_cons]
  exact (within_refl _).left.right

theorem within_commaSeparated {pieces : List (List Code)} {piece : List Code}
    (member : piece ∈ pieces) : Within piece (commaSeparated pieces) := by
  induction pieces with
  | nil => cases member
  | cons first rest ih =>
    cases rest with
    | nil =>
      rw [List.mem_singleton.mp member, commaSeparated, List.intercalate_singleton]
      exact within_refl _
    | cons next rest =>
      rw [commaSeparated, List.intercalate_cons_cons]
      rcases List.mem_cons.mp member with rfl | later
      · exact (within_refl _).left.left
      · exact (ih later).right

end Within
end Code

namespace FieldItem

theorem within_declarationCode (field : FieldItem) :
    Within field.typeCode field.declarationCode := (within_refl _).right.left

theorem within_descriptorCode (field : FieldItem) :
    Within field.element.descriptorCode field.descriptorCode := by
  have inner : Within field.element.descriptorCode
      (words "name :" ++ [literalCode field.name] ++ words ", element :" ++
        field.element.descriptorCode ++ words ", cardinality :" ++
        cardinalityCode field.cardinality ++ [.word ","]) := (within_refl _).right.left.left.left
  exact inner.group.right

theorem within_roleCode {role : Role} {fields : List FieldItem} {field : FieldItem}
    (member : field ∈ fields) : Within field.element.descriptorCode (roleCode role fields) := by
  have piece : Within field.descriptorCode (commaSeparated (fields.map descriptorCode)) :=
    within_commaSeparated (List.mem_map.mpr ⟨field, member, rfl⟩)
  have list : Within field.element.descriptorCode (words "fields : &" ++
      [square (commaSeparated (fields.map descriptorCode))]) :=
    (field.within_descriptorCode.trans piece).group.right
  cases role with
  | message => exact list.group.right
  | request service => exact list.right.group.right
  | reply service => exact list.right.group.right

end FieldItem

section References

variable {element : ElementItem} {code : List Code}

theorem exists_field_of_mem {fields : List FieldItem}
    (member : (element, code) ∈ fields.flatMap fun field =>
      [(field.element, field.typeCode), (field.element, field.element.descriptorCode)]) :
    ∃ field ∈ fields, field.element = element := by
  obtain ⟨field, inside, either⟩ := List.mem_flatMap.mp member
  rcases List.mem_cons.mp either with first | second
  · exact ⟨field, inside, (Prod.mk.inj first).1.symm⟩
  · exact ⟨field, inside, (Prod.mk.inj (List.mem_singleton.mp second)).1.symm⟩

/-- Wherever an item refers to a struct, it does so with the same parameter. -/
theorem Item.parameters_of_mem {item : Item} {name : String} (named : StructName name)
    (owned : ∀ element code, (element, code) ∈ item.references → element.Named)
    (member : (element, code) ∈ item.references) :
    Code.parameters name (listLeaves code) = element.parameters name := by
  have own := owned element code member
  have alone (element : ElementItem) (own : element.Named) :
      Code.parameters name (listLeaves element.code) = element.parameters name := by
    have ends : ([] : List String).head? ≠ some "<" := by decide
    have whole := ElementItem.parameters_code named own ends
    rw [List.append_nil] at whole
    exact whole.trans (List.append_nil _)
  have ofField {field : FieldItem} (inside : (element, code) ∈
      [(field.element, field.typeCode), (field.element, field.element.descriptorCode)]) :
      Code.parameters name (listLeaves code) = element.parameters name := by
    rcases List.mem_cons.mp inside with first | second
    · obtain ⟨rfl, rfl⟩ := Prod.mk.inj first
      exact FieldItem.parameters_typeCode named own
    · obtain ⟨rfl, rfl⟩ := Prod.mk.inj (List.mem_singleton.mp second)
      exact ElementItem.parameters_descriptorCode named own
  cases item with
  | record recordName role docs lifetime copied fields =>
    obtain ⟨field, -, inside⟩ := List.mem_flatMap.mp member
    exact ofField inside
  | «alias» aliasName docs lifetime copied target =>
    obtain ⟨field, -, inside⟩ := List.mem_flatMap.mp member
    exact ofField inside
  | service serviceName docs request reply =>
    rcases List.mem_cons.mp member with first | second
    · obtain ⟨rfl, rfl⟩ := Prod.mk.inj first
      exact alone _ own
    · obtain ⟨rfl, rfl⟩ := Prod.mk.inj (List.mem_singleton.mp second)
      exact alone _ own
  | identity own lifetime known =>
    obtain ⟨rfl, rfl⟩ := Prod.mk.inj (List.mem_singleton.mp member)
    exact alone _ (owned _ _ member)

theorem within_recordCode (name : String) (role : Role) (docs : List String)
    (lifetime copied : Bool) {fields : List FieldItem} {field : FieldItem}
    (member : field ∈ fields) :
    Within field.typeCode (recordCode name role docs lifetime copied fields) ∧
      Within field.element.descriptorCode
        (recordCode name role docs lifetime copied fields) := by
  have declared : Within field.typeCode (fields.flatMap FieldItem.declarationCode) :=
    field.within_declarationCode.trans (within_flatMap _ member)
  have kind : Within field.element.descriptorCode (words "name :" ++ [literalCode name] ++
      words ", kind :" ++ roleCode role fields ++ [.word ","]) :=
    (FieldItem.within_roleCode member).right.left
  have described : Within field.element.descriptorCode
      (implCode name lifetime ":: hdds_cdr :: Describe"
        (words "const DESCRIPTOR : & 'static :: hdds_cdr :: TypeDescriptor =" ++
          words "& :: hdds_cdr :: TypeDescriptor" ++
          [curly (words "name :" ++ [literalCode name] ++ words ", kind :" ++
            roleCode role fields ++ [.word ","]), .word ";"])) := kind.group.right.group.right
  exact ⟨declared.group.right.left.left.left.left.left, described.right.left⟩

theorem within_aliasCode (name : String) (docs : List String) (lifetime copied : Bool)
    (target : ElementItem) :
    Within target.code (aliasCode name docs lifetime copied target) ∧
      Within target.descriptorCode (aliasCode name docs lifetime copied target) := by
  have direct : Within target.code (aliasCode name docs lifetime copied target) :=
    (within_refl _).right.left.left.left.left.left.left.left
  have described : Within target.descriptorCode (implCode name lifetime ":: hdds_cdr :: Describe"
      (words "const DESCRIPTOR : & 'static :: hdds_cdr :: TypeDescriptor =" ++
        words "& :: hdds_cdr :: TypeDescriptor :: alias" ++
        [round ([literalCode name, .word ","] ++ target.descriptorCode), .word ";"])) :=
    (within_refl _).right.group.right.group.right
  exact ⟨direct, described.right.left⟩

theorem Item.within_of_mem {item : Item} (member : (element, code) ∈ item.references) :
    Within code item.code := by
  cases item with
  | record name role docs lifetime copied fields =>
    obtain ⟨field, inside, either⟩ := List.mem_flatMap.mp member
    have within := within_recordCode name role docs lifetime copied inside
    rcases List.mem_cons.mp either with first | second
    · obtain ⟨-, rfl⟩ := Prod.mk.inj first
      exact within.1
    · obtain ⟨-, rfl⟩ := Prod.mk.inj (List.mem_singleton.mp second)
      exact within.2
  | «alias» name docs lifetime copied target =>
    have within := within_aliasCode name docs lifetime copied target
    rcases List.mem_cons.mp member with first | second
    · obtain ⟨-, rfl⟩ := Prod.mk.inj first
      exact within.1
    · obtain ⟨-, rfl⟩ := Prod.mk.inj (List.mem_singleton.mp second)
      exact within.2
  | service name docs request reply =>
    have part {half : List Code} (inside : Within half
        (words "type Request < 'a > =" ++ request.code ++ words "; type Reply < 'a > =" ++
          reply.code ++ [.word ";"])) : Within half (serviceCode name docs request reply) :=
      inside.group.right
    rcases List.mem_cons.mp member with first | second
    · obtain ⟨-, rfl⟩ := Prod.mk.inj first
      exact part (within_refl _).right.left.left.left
    · obtain ⟨-, rfl⟩ := Prod.mk.inj (List.mem_singleton.mp second)
      exact part (within_refl _).right.left
  | identity name lifetime known =>
    obtain ⟨-, rfl⟩ := Prod.mk.inj (List.mem_singleton.mp member)
    exact (within_refl _).right.left

end References

end WireSchema
