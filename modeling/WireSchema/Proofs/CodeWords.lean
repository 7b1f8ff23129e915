import WireSchema.Items.Printer
import WireSchema.Proofs.Lexing

/-! Of the two lifetimes of generated items, the text of a struct mentions only its own. -/

namespace WireSchema

mutual

/-- The words of a piece of code, at any depth. -/
def Code.leaves : Code → List String
  | .word text => [text]
  | .group _ body => Code.listLeaves body

def Code.listLeaves : List Code → List String
  | [] => []
  | piece :: rest => piece.leaves ++ Code.listLeaves rest

end

namespace Code

section Leaves

variable {text : String} {code rest body : List Code}

@[simp] theorem listLeaves_nil : listLeaves [] = [] := rfl

@[simp] theorem listLeaves_word : listLeaves (.word text :: rest) = text :: listLeaves rest := rfl

@[simp] theorem listLeaves_group {bracket : Bracket} :
    listLeaves (.group bracket body :: rest) = listLeaves body ++ listLeaves rest := rfl

@[simp] theorem listLeaves_append :
    listLeaves (code ++ rest) = listLeaves code ++ listLeaves rest := by
  induction code with
  | nil => rfl
  | cons piece code ih => cases piece <;> simp [ih]

end Leaves

def Mentions (word : String) (code : List Code) : Prop := word ∈ listLeaves code

instance (word : String) (code : List Code) : Decidable (Mentions word code) :=
  inferInstanceAs (Decidable (_ ∈ _))

section Mentions

variable {word text : String} {code front back : List Code}

@[simp] theorem not_mentions_nil : ¬ Mentions word [] := List.not_mem_nil

@[simp] theorem mentions_word :
    Mentions word (.word text :: code) ↔ word = text ∨ Mentions word code :=
  List.mem_cons

@[simp] theorem mentions_group {bracket : Bracket} :
    Mentions word (.group bracket front :: back) ↔ Mentions word front ∨ Mentions word back :=
  List.mem_append

@[simp] theorem mentions_append :
    Mentions word (front ++ back) ↔ Mentions word front ∨ Mentions word back := by
  rw [Mentions, listLeaves_append]
  exact List.mem_append

@[simp] theorem mentions_flatMap {α : Type} {items : List α} {print : α → List Code} :
    Mentions word (items.flatMap print) ↔ ∃ item ∈ items, Mentions word (print item) := by
  induction items with
  | nil => simp
  | cons item rest ih => simp [ih]

theorem exists_of_mentions_words (mentions : Mentions word (words text)) :
    word.toList ∈ text.toList.splitOn ' ' := by
  have listed (parts : List (List Char))
      (member : Mentions word (parts.map fun part => .word (.ofList part))) :
      word.toList ∈ parts := by
    induction parts with
    | nil => cases member
    | cons part rest ih =>
      rcases mentions_word.mp member with rfl | later
      · simp
      · exact List.mem_cons_of_mem _ (ih later)
  exact listed _ mentions

theorem mem_of_mem_splitOn {cs part : List Char} {mark c : Char} (member : part ∈ cs.splitOn mark)
    (inside : c ∈ part) : c ∈ cs := by
  induction cs generalizing part with
  | nil =>
    rw [List.splitOn_nil, List.mem_singleton] at member
    rwa [member] at inside
  | cons d rest ih =>
    rw [List.splitOn_cons_eq_if_modifyHead] at member
    split at member
    · rcases List.mem_cons.mp member with rfl | later
      · cases inside
      · exact List.mem_cons_of_mem _ (ih later inside)
    · obtain ⟨first, others, parts⟩ := List.exists_cons_of_ne_nil (List.splitOn_ne_nil mark rest)
      rw [parts, List.modifyHead_cons] at member
      rcases List.mem_cons.mp member with rfl | later
      · rcases List.mem_cons.mp inside with rfl | further
        · exact List.mem_cons_self
        · exact List.mem_cons_of_mem _ (ih (parts ▸ List.mem_cons_self) further)
      · exact List.mem_cons_of_mem _ (ih (parts ▸ List.mem_cons_of_mem _ later) inside)

/-- Words apart from those that a quote begins. -/
theorem not_mentions_words (quoted : '\'' ∈ word.toList) (plain : '\'' ∉ text.toList) :
    ¬ Mentions word (words text) := fun mentions =>
  plain (mem_of_mem_splitOn (exists_of_mentions_words mentions) quoted)

end Mentions

/-- Of the two lifetimes, the code mentions none but that of an item with a parameter, or of one
without. -/
def Only (lifetime : Bool) (code : List Code) : Prop :=
  ∀ other, Mentions (inputLifetime other) code → other = lifetime

instance (lifetime : Bool) (code : List Code) : Decidable (Only lifetime code) :=
  inferInstanceAs (Decidable (∀ _, _))

def Plain (text : String) : Prop := '\'' ∉ text.toList

instance (text : String) : Decidable (Plain text) := inferInstanceAs (Decidable (_ ∉ _))

section Plain

variable {text other : String}

theorem quote_mem_inputLifetime (lifetime : Bool) : '\'' ∈ (inputLifetime lifetime).toList := by
  cases lifetime <;> decide

theorem Plain.append (front : Plain text) (back : Plain other) : Plain (text ++ other) := by
  rw [Plain, String.toList_append, List.mem_append]
  exact not_or.mpr ⟨front, back⟩

theorem plain_of_parts (parts : ∀ c ∈ text.toList, isIdentifierRest c = true) : Plain text :=
  fun quote => absurd (parts _ quote) (by decide)

theorem plain_number (n : Nat) : Plain (toString n) := by
  intro quote
  have digit : '\''.isDigit = true := Token.isDigit_toDigits n _ (by simpa using quote)
  cases digit

theorem Plain.ne_inputLifetime (plain : Plain text) (lifetime : Bool) :
    inputLifetime lifetime ≠ text := fun same =>
  plain (same ▸ quote_mem_inputLifetime lifetime)

end Plain

section Only

variable {lifetime : Bool} {text name : String} {front back body code : List Code}

theorem only_nil : Only lifetime [] := fun _ mentions => absurd mentions not_mentions_nil

theorem Only.append (first : Only lifetime front) (second : Only lifetime back) :
    Only lifetime (front ++ back) := fun other mentions =>
  (mentions_append.mp mentions).elim (first other) (second other)

theorem Only.word (plain : Plain text) (rest : Only lifetime code) :
    Only lifetime (.word text :: code) := fun other mentions =>
  (mentions_word.mp mentions).elim (fun same => absurd same (plain.ne_inputLifetime other))
    (rest other)

theorem Only.group {bracket : Bracket} (inner : Only lifetime body) (rest : Only lifetime code) :
    Only lifetime (.group bracket body :: code) := fun other mentions =>
  (mentions_group.mp mentions).elim (inner other) (rest other)

theorem only_flatMap {α : Type} {items : List α} {print : α → List Code}
    (each : ∀ item ∈ items, Only lifetime (print item)) : Only lifetime (items.flatMap print) := by
  intro other mentions
  obtain ⟨item, member, inside⟩ := mentions_flatMap.mp mentions
  exact each item member other inside

theorem not_mentions_of_only (only : ∀ lifetime, Only lifetime code) (other : Bool) :
    ¬ Mentions (inputLifetime other) code := fun mentions =>
  absurd (only (!other) other mentions) (by simp)

theorem only_words (plain : Plain text) : Only lifetime (words text) := fun other mentions =>
  absurd mentions (not_mentions_words (quote_mem_inputLifetime other) plain)

theorem only_comma : Only lifetime [.word ","] := .word (by decide) only_nil

theorem only_semicolon : Only lifetime [.word ";"] := .word (by decide) only_nil

theorem only_open : Only lifetime [.word "<"] := .word (by decide) only_nil

theorem only_impl : Only lifetime [.word "impl"] := .word (by decide) only_nil

theorem only_literal (text : String) : Only lifetime [literalCode text] := by
  intro other mentions
  rcases mentions_word.mp mentions with same | nothing
  · have first := congrArg (fun text : String => text.toList.head?) same
    cases other <;> simp [inputLifetime, Text.Quoted.literal] at first
  · cases nothing

theorem only_lifetimeCode (lifetime : Bool) : Only lifetime (lifetimeCode lifetime) := by
  cases lifetime <;> decide +kernel

theorem only_selfCode (plain : Plain name) : Only lifetime (selfCode name lifetime) :=
  .word plain (only_lifetimeCode lifetime)

theorem only_docsCode (docs : List String) : Only lifetime (docsCode docs) :=
  only_flatMap fun _ _ => .word (by decide)
    (.group ((only_words (by decide)).append (only_literal _)) only_nil)

theorem only_deriveCode (plain : Plain text) : Only lifetime (deriveCode text) :=
  .word (by decide) (.group (.word (by decide) (.group (only_words plain) only_nil)) only_nil)

theorem only_implCode (plainName : Plain name) (plain : Plain text) (inner : Only lifetime body) :
    Only lifetime (implCode name lifetime text body) := by
  have keyword : Only lifetime [.word "for"] := .word (by decide) only_nil
  exact ((((only_impl.append (only_lifetimeCode lifetime)).append (only_words plain)).append
    keyword).append (only_selfCode plainName)).append (.group inner only_nil)

theorem only_decodeImplCode (plain : Plain name) (inner : Only lifetime body) :
    Only lifetime (decodeImplCode name lifetime body) := by
  have head : Only lifetime (words ("impl < " ++ inputLifetime lifetime ++
      " > :: hdds_cdr :: CdrDecode < " ++ inputLifetime lifetime ++ " > for")) := by
    cases lifetime <;> decide +kernel
  exact (head.append (only_selfCode plain)).append (.group inner only_nil)

theorem only_resultCode : Only lifetime resultCode :=
  (only_words (by decide)).append (.group only_nil (.word (by decide) only_nil))

theorem only_okCode : Only lifetime okCode :=
  (only_words (by decide)).append (.group (.group only_nil only_nil) only_nil)

/-- The words for the writer, which is unused in a record without fields. -/
theorem only_encodeCode {writer : String} (either : writer = "w" ∨ writer = "_w")
    (inner : Only lifetime body) : Only lifetime (encodeCode writer body) := by
  have parameters : Only lifetime
      (words ("& self , " ++ writer ++ " : & mut :: hdds_cdr :: CdrWriter < '_ >")) := by
    rcases either with rfl | rfl <;> cases lifetime <;> decide +kernel
  exact (((only_words (by decide)).append (.group parameters only_nil)).append
    only_resultCode).append (.group inner only_nil)

theorem only_decodeCode {reader : String} (either : reader = "r" ∨ reader = "_r")
    (inner : Only lifetime body) :
    Only lifetime (decodeCode (inputLifetime lifetime) reader body) := by
  have parameters : Only lifetime (words ("& mut self , " ++ reader ++
      " : & mut :: hdds_cdr :: CdrReader < " ++ inputLifetime lifetime ++ " >")) := by
    rcases either with rfl | rfl <;> cases lifetime <;> decide +kernel
  exact (((only_words (by decide)).append (.group parameters only_nil)).append
    only_resultCode).append (.group inner only_nil)

theorem only_sealedCode (plain : Plain name) : Only lifetime (sealedCode name lifetime) :=
  (only_implCode plain (by decide) only_nil).append (only_implCode plain (by decide) only_nil)

theorem only_minimumCode (inner : Only lifetime code) :
    Only lifetime (minimumCode code (inputLifetime lifetime)) := by
  have tail : Only lifetime (words ("as :: hdds_cdr :: CdrDecode < " ++ inputLifetime lifetime ++
      " >> :: MIN_WIRE_SIZE")) := by
    cases lifetime <;> decide +kernel
  exact (only_open.append inner).append tail

theorem only_describe : Only lifetime
    (words "const DESCRIPTOR : & 'static :: hdds_cdr :: TypeDescriptor =") := by
  cases lifetime <;> decide +kernel

end Only

end Code

open Code

namespace ElementItem

def Plain (element : ElementItem) : Prop :=
  ∀ name flag, element = .named name flag → Code.Plain name

variable {element : ElementItem} {lifetime : Bool}

theorem mentions_code (plain : element.Plain) (other : Bool) :
    Mentions (inputLifetime other) element.code ↔
      other = true ∧ element.mentionsLifetime = true := by
  cases element with
  | base type =>
    cases type with
    | string => cases other <;> decide +kernel
    | scalar kind => cases kind <;> cases other <;> decide +kernel
  | named name flag =>
    rw [code, selfCode, mentions_word]
    have apart := (plain name flag rfl).ne_inputLifetime other
    cases flag <;> cases other <;> simp [apart, lifetimeCode, mentionsLifetime] <;> decide +kernel

theorem only_code (plain : element.Plain)
    (own : element.mentionsLifetime = true → lifetime = true) : Only lifetime element.code := by
  intro other mentions
  obtain ⟨rfl, mentioned⟩ := (mentions_code plain other).mp mentions
  exact (own mentioned).symm

theorem only_descriptorCode (plain : element.Plain)
    (own : element.mentionsLifetime = true → lifetime = true) :
    Only lifetime element.descriptorCode := by
  cases element with
  | base type =>
    have name : Code.Plain type.descriptorName := by
      cases type with
      | string => decide
      | scalar kind => cases kind <;> decide
    exact only_words (Plain.append (by decide) name)
  | named name flag =>
    exact (only_open.append (only_code plain own)).append (only_words (by decide))

end ElementItem

namespace FieldItem

structure Plain (field : FieldItem) : Prop where
  name : Code.Plain field.name
  element : field.element.Plain

variable {field : FieldItem} {lifetime : Bool}

theorem mentions_typeCode (plain : field.element.Plain) (other : Bool) :
    Mentions (inputLifetime other) field.typeCode ↔
      other = true ∧ field.mentionsLifetime = true := by
  have inner := ElementItem.mentions_code plain other
  rw [typeCode, mentionsLifetime]
  cases field.cardinality with
  | one => simpa using inner
  | array length =>
    have number : ¬ Mentions (inputLifetime other) (words ("; " ++ toString length)) :=
      not_mentions_words (quote_mem_inputLifetime other) (Plain.append (by decide) (plain_number _))
    simp only [square, mentions_group, mentions_append, inner, number, not_mentions_nil, or_false,
      Bool.or_eq_true, decide_eq_true_eq, reduceCtorEq, false_or]
  | sequence =>
    have head : Mentions (inputLifetime other) (words ":: hdds_cdr :: Sequence < 'a ,") ↔
        other = true := by
      cases other <;> decide +kernel
    have tail := Code.Plain.ne_inputLifetime (show Code.Plain ">" by decide) other
    simp only [mentions_append, mentions_word, head, inner, tail, not_mentions_nil, or_false,
      decide_true, Bool.true_or, and_true, or_iff_left_iff_imp]
    exact fun both => both.1

theorem only_typeCode (plain : field.element.Plain)
    (own : field.mentionsLifetime = true → lifetime = true) : Only lifetime field.typeCode := by
  intro other mentions
  obtain ⟨rfl, mentioned⟩ := (mentions_typeCode plain other).mp mentions
  exact (own mentioned).symm

theorem mentionsLifetime_of_element (mentions : field.element.mentionsLifetime = true) :
    field.mentionsLifetime = true := by
  rw [mentionsLifetime, mentions, Bool.or_true]

theorem mentions_declarationCode (plain : field.Plain) (other : Bool) :
    Mentions (inputLifetime other) field.declarationCode ↔
      other = true ∧ field.mentionsLifetime = true := by
  have docs := not_mentions_of_only (fun _ => only_docsCode field.docs) other
  have name : ¬ Mentions (inputLifetime other) (words ("pub " ++ field.name ++ " :")) :=
    not_mentions_words (quote_mem_inputLifetime other)
      (((show Code.Plain "pub " by decide).append plain.name).append (by decide))
  have comma := Code.Plain.ne_inputLifetime (show Code.Plain "," by decide) other
  rw [declarationCode, mentions_append, mentions_append, mentions_append,
    mentions_typeCode plain.element]
  simp [docs, name, comma]

theorem only_declarationCode (plain : field.Plain)
    (own : field.mentionsLifetime = true → lifetime = true) :
    Only lifetime field.declarationCode := by
  intro other mentions
  obtain ⟨rfl, mentioned⟩ := (mentions_declarationCode plain other).mp mentions
  exact (own mentioned).symm

theorem only_name {front back : String} (plain : field.Plain) (before : Code.Plain front)
    (behind : Code.Plain back) : Only lifetime (words (front ++ field.name ++ back)) :=
  only_words ((before.append plain.name).append behind)

theorem only_defaultCode (plain : field.Plain) : Only lifetime field.defaultCode := by
  have name : Only lifetime (words (field.name ++ " :")) :=
    only_words (plain.name.append (by decide))
  have value (path : String) (plain : Code.Plain path) (arguments : List Code)
      (inner : Only lifetime arguments) : Only lifetime (words path ++ [round arguments]) :=
    (only_words plain).append (.group inner only_nil)
  refine (name.append ?_).append only_comma
  cases field.cardinality with
  | one => exact value _ (by decide) _ only_nil
  | array length => exact value _ (by decide) _ (value _ (by decide) _ only_nil)
  | sequence => exact value _ (by decide) _ only_nil

theorem only_encodeCode (plain : field.Plain) : Only lifetime field.encodeCode :=
  ((only_words (by decide)).append
    (.group (only_name plain (by decide) (by decide)) only_nil)).append (only_words (by decide))

theorem only_decodeCode (plain : field.Plain) : Only lifetime field.decodeCode :=
  ((only_words (by decide)).append
    (.group (only_name plain (by decide) (by decide)) only_nil)).append (only_words (by decide))

theorem only_cardinalityCode (cardinality : Cardinality) :
    Only lifetime (cardinalityCode cardinality) := by
  cases cardinality with
  | one => exact only_words (by decide)
  | array length =>
    exact (only_words (by decide)).append (.group (.word (plain_number _) only_nil) only_nil)
  | sequence => exact only_words (by decide)

theorem only_descriptorCode (plain : field.Plain)
    (own : field.mentionsLifetime = true → lifetime = true) :
    Only lifetime field.descriptorCode := by
  have element := ElementItem.only_descriptorCode plain.element
    fun mentions => own (mentionsLifetime_of_element mentions)
  refine (only_words (by decide)).append (.group ?_ only_nil)
  exact ((((((only_words (by decide)).append (only_literal _)).append
    (only_words (by decide))).append element).append (only_words (by decide))).append
    (only_cardinalityCode _)).append only_comma

end FieldItem

section Items

variable {name : String} {lifetime : Bool} {fields : List FieldItem}

theorem only_commaSeparated {pieces : List (List Code)}
    (each : ∀ piece ∈ pieces, Only lifetime piece) : Only lifetime (commaSeparated pieces) := by
  induction pieces with
  | nil => exact only_nil
  | cons piece rest ih =>
    have first := each piece List.mem_cons_self
    have others := ih fun other member => each other (List.mem_cons_of_mem _ member)
    cases rest with
    | nil =>
      rw [commaSeparated, List.intercalate_singleton]
      exact first
    | cons next rest =>
      rw [commaSeparated, List.intercalate_cons_cons]
      exact (first.append only_comma).append others

theorem only_roleCode {role : Role} (plain : ∀ field ∈ fields, field.Plain)
    (own : ∀ field ∈ fields, field.mentionsLifetime = true → lifetime = true) :
    Only lifetime (roleCode role fields) := by
  have pieces : Only lifetime (commaSeparated (fields.map FieldItem.descriptorCode)) := by
    apply only_commaSeparated
    intro piece member
    obtain ⟨field, inside, rfl⟩ := List.mem_map.mp member
    exact FieldItem.only_descriptorCode (plain field inside) (own field inside)
  have list : Only lifetime (words "fields : &" ++
      [square (commaSeparated (fields.map FieldItem.descriptorCode))]) :=
    (only_words (by decide)).append (.group pieces only_nil)
  have part (service : String) : Only lifetime
      [curly (words "service :" ++ [literalCode service, .word ","] ++ (words "fields : &" ++
        [square (commaSeparated (fields.map FieldItem.descriptorCode))]))] := by
    have named : Only lifetime [literalCode service, .word ","] :=
      (only_literal service).append only_comma
    exact .group (((only_words (by decide)).append named).append list) only_nil
  cases role with
  | message => exact (only_words (by decide)).append (.group list only_nil)
  | request service => exact (only_words (by decide)).append (part service)
  | reply service => exact (only_words (by decide)).append (part service)

theorem only_recordCode {role : Role} {docs : List String} {copied : Bool} (named : Plain name)
    (plain : ∀ field ∈ fields, field.Plain)
    (own : ∀ field ∈ fields, field.mentionsLifetime = true → lifetime = true) :
    Only lifetime (recordCode name role docs lifetime copied fields) := by
  have each {print : FieldItem → List Code}
      (printed : ∀ field ∈ fields, Only lifetime (print field)) :
      Only lifetime (fields.flatMap print) := only_flatMap printed
  have derive : Only lifetime (deriveCode
      (if copied then "Debug , Clone , Copy , PartialEq" else "Debug , PartialEq")) := by
    cases copied <;> exact only_deriveCode (by decide)
  have declared := each fun field member =>
    FieldItem.only_declarationCode (plain field member) (own field member)
  have default := each fun field member => FieldItem.only_defaultCode (plain field member)
  have encode := each fun field member => FieldItem.only_encodeCode (plain field member)
  have decode := each fun field member => FieldItem.only_decodeCode (plain field member)
  have minimum : Only lifetime (fields.flatMap fun field =>
      .word "+" :: minimumCode field.typeCode (inputLifetime lifetime)) :=
    each fun field member => .word (by decide)
      (only_minimumCode (FieldItem.only_typeCode (plain field member).element (own field member)))
  obtain ⟨writer, reader, names, isWriter, isReader⟩ : ∃ writer reader,
      (if fields.isEmpty then ("_w", "_r") else ("w", "r")) = (writer, reader) ∧
        (writer = "w" ∨ writer = "_w") ∧ (reader = "r" ∨ reader = "_r") := by
    cases fields.isEmpty <;> simp
  simp only [recordCode, names]
  refine (((((((((only_docsCode docs).append derive).append (only_words (by decide))).append
    (only_selfCode named)).append (.group declared only_nil)).append
    (only_implCode named (by decide) ?_)).append (only_implCode named (by decide)
    (only_encodeCode isWriter (encode.append only_okCode)))).append
    (only_decodeImplCode named ?_)).append (only_implCode named (by decide) ?_)).append
    (only_sealedCode named)
  · exact (((only_words (by decide)).append (.group only_nil only_nil)).append
      (only_words (by decide))).append
      (.group (.word (by decide) (.group default only_nil)) only_nil)
  · exact (((only_words (by decide)).append minimum).append (.word (by decide) only_nil)).append
      (only_decodeCode isReader (decode.append only_okCode))
  · have inner : Only lifetime (words "name :" ++ [literalCode name] ++ words ", kind :" ++
        roleCode role fields ++ [.word ","]) :=
      ((((only_words (by decide)).append (only_literal name)).append
        (only_words (by decide))).append (only_roleCode plain own)).append only_comma
    exact (only_describe.append (only_words (by decide))).append
      (.group inner (.word (by decide) only_nil))

theorem only_aliasCode {docs : List String} {copied : Bool} {target : ElementItem}
    (named : Plain name) (plain : target.Plain)
    (own : target.mentionsLifetime = true → lifetime = true) :
    Only lifetime (aliasCode name docs lifetime copied target) := by
  have derive : Only lifetime (deriveCode (if copied
      then "Debug , Default , Clone , Copy , PartialEq" else "Debug , Default , PartialEq")) := by
    cases copied <;> exact only_deriveCode (by decide)
  have inner := ElementItem.only_code plain own
  have transparent : Only lifetime
      [.word "#", square [.word "repr", round [.word "transparent"]]] :=
    .word (by decide) (.group (.word (by decide)
      (.group (.word (by decide) only_nil) only_nil)) only_nil)
  have declared : Only lifetime [round (.word "pub" :: target.code), .word ";"] :=
    .group (.word (by decide) inner) only_semicolon
  have convert : Only lifetime [curly (words "fn from" ++
      [round (words "value :" ++ target.code)] ++ words "-> Self" ++
      [curly [.word "Self", round [.word "value"]]])] := by
    have argument : Only lifetime [round (words "value :" ++ target.code)] :=
      .group ((only_words (by decide)).append inner) only_nil
    have result : Only lifetime [curly [.word "Self", round [.word "value"]]] :=
      .group (.word (by decide) (.group (.word (by decide) only_nil) only_nil)) only_nil
    exact .group ((((only_words (by decide)).append argument).append
      (only_words (by decide))).append result) only_nil
  refine (((((((((((((((only_docsCode docs).append derive).append transparent).append
    (only_words (by decide))).append (only_selfCode named)).append declared).append
    only_impl).append (only_lifetimeCode lifetime)).append (only_words (by decide))).append
    inner).append (only_words (by decide))).append (only_selfCode named)).append convert).append
    (only_implCode named (by decide) (only_encodeCode (.inl rfl) ?_))).append
    (only_decodeImplCode named ?_)).append (only_implCode named (by decide) ?_) |>.append
    (only_sealedCode named)
  · exact (only_words (by decide)).append (.group (only_words (by decide)) only_nil)
  · have body : Only lifetime (words ":: hdds_cdr :: CdrDecode :: decode_into" ++
        [round (words "& mut self . 0 , r")]) :=
      (only_words (by decide)).append (.group (only_words (by decide)) only_nil)
    exact (((only_words (by decide)).append (only_minimumCode inner)).append only_semicolon).append
      (only_decodeCode (.inl rfl) body)
  · have arguments : Only lifetime ([literalCode name, .word ","] ++ target.descriptorCode) := by
      have first : Only lifetime [literalCode name, .word ","] :=
        (only_literal name).append only_comma
      exact first.append (ElementItem.only_descriptorCode plain own)
    exact (only_describe.append (only_words (by decide))).append (.group arguments only_semicolon)

/-- The implementation of decoding, which stands in every struct, mentions its own lifetime. -/
theorem mentions_of_infix {body code : List Code}
    (inside : decodeImplCode name lifetime body <:+: code) :
    Mentions (inputLifetime lifetime) code := by
  obtain ⟨front, back, rfl⟩ := inside
  have head : Mentions (inputLifetime lifetime) (words ("impl < " ++ inputLifetime lifetime ++
      " > :: hdds_cdr :: CdrDecode < " ++ inputLifetime lifetime ++ " > for")) := by
    cases lifetime <;> decide +kernel
  rw [mentions_append, mentions_append, decodeImplCode, mentions_append, mentions_append]
  exact .inl (.inr (.inl (.inl head)))

theorem decodeImplCode_infix_recordCode (name : String) (role : Role) (docs : List String)
    (lifetime copied : Bool) (fields : List FieldItem) :
    ∃ body, decodeImplCode name lifetime body <:+:
      recordCode name role docs lifetime copied fields := by
  rw [recordCode]
  split
  exact ⟨_, _, _, (List.append_assoc _ _ _).symm⟩

theorem decodeImplCode_infix_aliasCode (name : String) (docs : List String)
    (lifetime copied : Bool) (target : ElementItem) :
    ∃ body, decodeImplCode name lifetime body <:+: aliasCode name docs lifetime copied target :=
  ⟨_, _, _, (List.append_assoc _ _ _).symm⟩

end Items

end WireSchema
