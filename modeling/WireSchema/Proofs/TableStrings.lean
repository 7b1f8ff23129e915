import WireSchema.Proofs.TableDerivation

/-! The string literals of a table in the order of their reading. -/

namespace WireSchema

namespace TokenTree

mutual

/-- The values of the string literals of a token, also of those inside groups. -/
def strings : TokenTree → List String
  | .literal (.string value) => [value]
  | .group _ body => bodyStrings body
  | _ => []

def bodyStrings : List TokenTree → List String
  | [] => []
  | token :: rest => token.strings ++ bodyStrings rest

end

section Strings

@[simp] theorem strings_word (name : String) : strings (.word name) = [] := rfl

@[simp] theorem strings_mark (c : Char) (joint : Bool) : strings (.mark c joint) = [] := rfl

@[simp] theorem strings_string (value : String) :
    strings (.literal (.string value)) = [value] := rfl

@[simp] theorem strings_integer (n : Nat) (suffix : String) :
    strings (.literal (.integer n suffix)) = [] := rfl

@[simp] theorem strings_group (bracket : Bracket) (body : List TokenTree) :
    strings (.group bracket body) = bodyStrings body := by
  rw [strings]

@[simp] theorem bodyStrings_nil : bodyStrings [] = [] := rfl

@[simp] theorem bodyStrings_cons (token : TokenTree) (rest : List TokenTree) :
    bodyStrings (token :: rest) = token.strings ++ bodyStrings rest := by
  rw [bodyStrings]

@[simp] theorem bodyStrings_append (front back : List TokenTree) :
    bodyStrings (front ++ back) = bodyStrings front ++ bodyStrings back := by
  induction front with
  | nil => rfl
  | cons token rest ih => simp [ih]

end Strings

end TokenTree

open TokenTree (bodyStrings)

namespace Token

variable {outer : List (Bracket × List TokenTree)} {inner tokens : List TokenTree}
  {lexemes : List Lexeme} {g : Grouping} {cs : List Char}

def Grouping.strings (g : Grouping) : List String :=
  (g.outer.reverse.flatMap fun (_, before) => bodyStrings before.reverse) ++
    bodyStrings g.inner.reverse

@[simp] theorem Grouping.strings_push (g : Grouping) (tokens : List TokenTree) :
    (g.push tokens).strings = g.strings ++ bodyStrings tokens := by
  simp [strings, push]

/-- What has been read is not read otherwise later. -/
theorem strings_prefix_of_nest (nested : nest outer inner lexemes = some tokens) :
    Grouping.strings ⟨outer, inner⟩ <+: bodyStrings tokens := by
  induction lexemes generalizing outer inner with
  | nil =>
    rw [nest] at nested
    split at nested
    · rename_i empty
      cases nested
      rw [List.isEmpty_iff.mp empty]
      exact List.prefix_rfl
    · cases nested
  | cons lexeme rest ih =>
    cases lexeme with
    | leaf token =>
      rw [nest] at nested
      refine List.IsPrefix.trans ⟨token.strings, ?_⟩ (ih nested)
      simp [Grouping.strings]
    | opening bracket =>
      rw [nest] at nested
      refine List.IsPrefix.trans ⟨[], ?_⟩ (ih nested)
      simp [Grouping.strings]
    | closing bracket =>
      cases outer with
      | nil =>
        rw [nest] at nested
        cases nested
      | cons pair outer =>
        rw [nest] at nested
        split at nested
        · refine List.IsPrefix.trans ⟨[], ?_⟩ (ih nested)
          simp [Grouping.strings]
        · cases nested

theorem Grouping.strings_prefix (read : g.read cs = some tokens) :
    g.strings <+: bodyStrings tokens := by
  obtain ⟨lexemes, -, nested⟩ := Option.bind_eq_some_iff.mp read
  exact strings_prefix_of_nest nested

end Token

namespace Table

open Token Grammar

section Derivations

variable {tokens : List TokenTree} {lone : Prop}

theorem Grammar.Many.forall {α : Type} {item : List TokenTree → α → Prop} {values : List α}
    {p : α → Prop} (many : Many item tokens values)
    (each : ∀ {block : List TokenTree} {value : α}, item block value → p value) :
    ∀ value ∈ values, p value := by
  induction many with
  | nil => exact List.forall_mem_nil _
  | cons head _ ih => exact List.forall_mem_cons.mpr ⟨each head, ih⟩

theorem Grammar.Listed.forall {α : Type} {item : List TokenTree → α → Prop} {values : List α}
    {p : α → Prop} (listed : Listed item tokens values)
    (each : ∀ {block : List TokenTree} {value : α}, item block value → p value) :
    ∀ value ∈ values, p value := by
  induction listed with
  | nil => exact List.forall_mem_nil _
  | last only => exact List.forall_mem_singleton.mpr (each only)
  | cons head _ _ ih => exact List.forall_mem_cons.mpr ⟨each head, ih⟩

theorem strings_of_isDocs {docs : List String} (documented : IsDocs tokens docs) :
    (bodyStrings tokens).map unspaced = docs := by
  obtain ⟨lines, many, rfl⟩ := documented
  congr 1
  induction many with
  | nil => rfl
  | cons head _ ih =>
    cases head
    simp [ih]

theorem strings_of_isFieldType {type : FieldType} (typed : IsFieldType tokens type) :
    bodyStrings tokens = [] := by
  cases typed <;> simp

theorem strings_of_isField {field : Field} (fielded : IsField tokens field) :
    (bodyStrings tokens).map unspaced = field.docs := by
  cases fielded with
  | mk documented _ typed => simp [strings_of_isDocs documented, strings_of_isFieldType typed]

theorem strings_of_isFields {fields : List Field} (fielded : IsFields lone tokens fields) :
    (bodyStrings tokens).map unspaced = fields.flatMap Field.docs := by
  obtain ⟨items, comma, rfl, listed, optional, -⟩ := fielded
  have textless : bodyStrings comma = [] := by
    cases optional <;> simp
  rw [TokenTree.bodyStrings_append, textless, List.append_nil]
  induction listed with
  | nil => rfl
  | last only => simp [strings_of_isField only]
  | cons head _ _ ih => simp [strings_of_isField head, ih]

theorem strings_of_isHead {name : String} {identity : TypeIdentity}
    (headed : IsHead tokens (name, identity)) :
    bodyStrings tokens = [identity.name, identity.hash] := by
  cases headed with
  | mk _ identified =>
    cases identified with
    | mk trailing => cases trailing <;> simp

def entryStrings (entry : Entry) : List String :=
  entry.docs ++ [unspaced entry.identity.name, unspaced entry.identity.hash] ++
    entry.body.fieldLists.flatten.flatMap Field.docs

theorem strings_of_isEntry {entry : Entry} (declared : IsEntry lone tokens entry) :
    (bodyStrings tokens).map unspaced = entryStrings entry := by
  cases declared with
  | message documented headed fielded =>
    simp [entryStrings, Body.fieldLists, strings_of_isDocs documented, strings_of_isHead headed,
      strings_of_isFields fielded]
  | «alias» documented headed _ =>
    simp [entryStrings, Body.fieldLists, strings_of_isDocs documented, strings_of_isHead headed]
  | service documented headed requested replied =>
    simp [entryStrings, Body.fieldLists, strings_of_isDocs documented, strings_of_isHead headed,
      strings_of_isFields requested, strings_of_isFields replied]

theorem strings_of_isTable {schema : Schema} (table : IsTable lone tokens schema) :
    (bodyStrings tokens).map unspaced = schema.entries.flatMap entryStrings := by
  obtain ⟨entries⟩ := schema
  replace table : Many (IsEntry lone) tokens entries := table
  induction table with
  | nil => rfl
  | cons head _ ih => simp [strings_of_isEntry head, ih]

theorem lt_of_isField {field : Field} (fielded : IsField tokens field) :
    ∀ size, field.type.cardinality = .array size → size < wordLimit := by
  cases fielded with
  | mk _ _ typed =>
    rintro size same
    cases typed with
    | bracketed _ small | suffixed _ small =>
      cases same
      exact small
    | one | unbounded | sequence => cases same

theorem lt_of_isFields {fields : List Field} (fielded : IsFields lone tokens fields) :
    ∀ field ∈ fields, ∀ size, field.type.cardinality = .array size → size < wordLimit := by
  obtain ⟨items, comma, -, listed, -⟩ := fielded
  exact listed.forall lt_of_isField

/-- The lengths of a table fit into words. -/
theorem lt_of_isTable {schema : Schema} (table : IsTable lone tokens schema) :
    ∀ entry ∈ schema.entries, ∀ field ∈ entry.body.fieldLists.flatten, ∀ size,
      field.type.cardinality = .array size → size < wordLimit := by
  refine Many.forall table fun declared => ?_
  cases declared with
  | message _ _ fielded =>
    rw [Body.fieldLists, List.flatten_singleton]
    exact lt_of_isFields fielded
  | «alias» => exact List.forall_mem_nil _
  | service _ _ requested replied =>
    rw [Body.fieldLists, List.flatten_cons, List.flatten_singleton, List.forall_mem_append]
    exact ⟨lt_of_isFields requested, lt_of_isFields replied⟩

end Derivations

end Table

end WireSchema
