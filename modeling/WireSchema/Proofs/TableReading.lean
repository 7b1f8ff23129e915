import WireSchema.Proofs.TableLines
import WireSchema.Table.Parser

/-! Reading the tokens of a printed table back. -/

namespace WireSchema.Table

open Token

namespace Parse

variable {α β : Type} {rest : List TokenTree} {left : Option Bracket}

theorem run_bind_of_ok {read : Parse α} {next : α → Parse β} {s t : Remaining} {value : α}
    (done : read.run s = .ok (value, t)) : (read >>= next).run s = (next value).run t := by
  rw [StateT.run_bind, done]
  rfl

theorem run_peek (s : Remaining) : peek.run s = .ok (s.tokens, s) := rfl

theorem run_advance (tokens : List TokenTree) (s : Remaining) :
    (advance tokens).run s = .ok ((), ⟨tokens, s.leftOver⟩) := rfl

theorem isName_of_isIdentifier {name : String} (valid : isIdentifier name = true) :
    isName name = true := by
  rw [isIdentifier] at valid
  split at valid
  · cases valid
  · simp only [Bool.and_eq_true] at valid
    rw [isName, valid.1.2, valid.2]
    rfl

theorem run_identifier {name : String} (valid : isIdentifier name = true) :
    identifier.run ⟨.word name :: rest, left⟩ = .ok (name, ⟨rest, left⟩) := by
  have named := isName_of_isIdentifier valid
  rw [identifier, run_bind_of_ok (run_peek _)]
  simp only [named]
  rfl

theorem run_stringLiteral (text : String) :
    stringLiteral.run ⟨.literal (.string text) :: rest, left⟩ = .ok (text, ⟨rest, left⟩) := rfl

theorem run_mark {text : String} {c : Char} (single : text.toList = [c]) (joint : Bool) :
    (mark text).run ⟨.mark c joint :: rest, left⟩ = .ok ((), ⟨rest, left⟩) := by
  have found : (sees (atMark text)).run ⟨.mark c joint :: rest, left⟩ =
      .ok (true, ⟨.mark c joint :: rest, left⟩) := by
    rw [sees, run_bind_of_ok (run_peek _), atMark, single]
    simp [startsMarks]
    rfl
  have width : text.length = 1 := by
    rw [← String.length_toList, single]
    rfl
  rw [mark, run_bind_of_ok found, if_pos rfl, skip, run_bind_of_ok (run_peek _), width]
  rfl

theorem run_keyword (word : String) :
    (keyword word).run ⟨.word word :: rest, left⟩ = .ok ((), ⟨rest, left⟩) := by
  have found : (sees (atWord word)).run ⟨.word word :: rest, left⟩ =
      .ok (true, ⟨.word word :: rest, left⟩) := by
    rw [sees, run_bind_of_ok (run_peek _), atWord, decide_eq_true rfl]
    rfl
  rw [keyword, run_bind_of_ok found, if_pos rfl]
  rfl

theorem run_length {n : Nat} (word : n < wordLimit) :
    length.run ⟨[.literal (.integer n "")], left⟩ = .ok (n, ⟨[], left⟩) := by
  rw [length, run_bind_of_ok (run_peek _)]
  simp only [word]
  rfl

theorem run_group {bracket : Bracket} {inside : Parse α} {body : List TokenTree} {value : α}
    (done : inside.run ⟨body, none⟩ = .ok (value, ⟨[], none⟩)) :
    (group bracket inside).run ⟨.group bracket body :: rest, none⟩ = .ok (value, ⟨rest, none⟩) := by
  rw [group, run_bind_of_ok (run_peek _)]
  simp only [if_pos]
  rw [run_bind_of_ok (run_advance _ _), run_bind_of_ok done]
  rfl

theorem run_typeRef {element : TypeRef} (legible : Legible element) :
    typeRef.run ⟨.word element.text :: rest, left⟩ = .ok (element, ⟨rest, left⟩) := by
  rw [typeRef, run_bind_of_ok (run_identifier legible.valid), legible.reread]
  rfl

theorem run_fieldType {element : TypeRef} (legible : Legible element) {cardinality : Cardinality}
    (word : ∀ size, cardinality = .array size → size < wordLimit) (joint : Bool) :
    fieldType.run ⟨typeTokens ⟨element, cardinality⟩ ++ .mark ',' joint :: rest, none⟩ =
      .ok ((⟨element, cardinality⟩ : FieldType), ⟨.mark ',' joint :: rest, none⟩) := by
  rw [fieldType, run_bind_of_ok (run_peek _)]
  cases cardinality with
  | one =>
    simp only [typeTokens, List.singleton_append]
    split
    · rename_i shape
      cases shape
    · rename_i shape
      simp at shape
    · rw [run_bind_of_ok (run_typeRef legible), run_bind_of_ok (run_peek _)]
      rfl
  | array size =>
    refine run_group ?_
    rw [run_bind_of_ok (run_typeRef legible), run_bind_of_ok (run_mark rfl _),
      run_bind_of_ok (run_length (word size rfl))]
    rfl
  | sequence =>
    have tokens : typeTokens ⟨element, .sequence⟩ ++ .mark ',' joint :: rest =
        .word "sequence" :: .mark '<' false :: .word element.text :: .mark '>' true ::
          .mark ',' joint :: rest := rfl
    rw [tokens]
    simp only
    rw [run_bind_of_ok (run_advance _ _), run_bind_of_ok (run_typeRef legible),
      run_bind_of_ok (run_mark rfl _)]
    rfl

theorem run_name (tokens : List TokenTree) :
    Attribute.name.run ⟨.word "doc" :: .mark '=' false :: tokens, left⟩ =
      .ok ((false, ["doc"]), ⟨.mark '=' false :: tokens, left⟩) := by
  rfl

theorem run_content (g : Expression.Grammar) (value : String) :
    (Attribute.content g).run
      ⟨[.word "doc", .mark '=' false, .literal (.string value)], left⟩ =
      .ok (some value, ⟨[], left⟩) := by
  rw [Attribute.content, run_bind_of_ok (run_name _), run_bind_of_ok (run_peek _)]
  rfl

theorem run_text (line : List Char) :
    Attribute.text.run ⟨Grouping.documentation line ++ rest, none⟩ =
      .ok (some (.ofList line), ⟨rest, none⟩) := by
  have hash : (mark "#").run ⟨Grouping.documentation line ++ rest, none⟩ = .ok ((), ⟨_, none⟩) :=
    run_mark rfl false
  rw [Attribute.text, run_bind_of_ok hash]
  refine run_group ?_
  rw [run_bind_of_ok (run_peek _)]
  exact run_content _ _

/-- Attributes are read as long as there is a hash mark; `fuel` is enough for all of them. -/
theorem run_texts {docs : List String} {fuel : Nat} (enough : docs.length ≤ fuel)
    (stops : atMark "#" rest = false) :
    (Attribute.texts fuel).run ⟨documentationTokens docs ++ rest, none⟩ =
      .ok (docs.map fun line => some (.ofList (docLine line)), ⟨rest, none⟩) := by
  induction docs generalizing fuel with
  | nil =>
    cases fuel with
    | zero => rfl
    | succ fuel =>
      have unmarked : (sees (atMark "#")).run ⟨rest, none⟩ = .ok (false, ⟨rest, none⟩) := by
        rw [sees, run_bind_of_ok (run_peek _), stops]
        rfl
      rw [Attribute.texts]
      show StateT.run (sees (atMark "#") >>= _) ⟨rest, none⟩ = _
      rw [run_bind_of_ok unmarked]
      rfl
  | cons line docs ih =>
    cases fuel with
    | zero => simp at enough
    | succ fuel =>
      have later := ih (Nat.le_of_succ_le_succ enough)
      have shape : documentationTokens (line :: docs) ++ rest =
          Grouping.documentation (docLine line) ++ (documentationTokens docs ++ rest) := by
        simp [documentationTokens]
      have marked : (sees (atMark "#")).run
          ⟨Grouping.documentation (docLine line) ++ (documentationTokens docs ++ rest), none⟩ =
          .ok (true, ⟨_, none⟩) := rfl
      rw [shape, Attribute.texts, run_bind_of_ok marked]
      simp only [Bool.not_true]
      rw [if_neg (by decide), run_bind_of_ok (run_text _), run_bind_of_ok later]
      rfl

theorem run_mapM {next : α → Parse β} {made : β → α} {s : Remaining}
    (each : ∀ item, (next (made item)).run s = .ok (item, s)) (items : List β) :
    ((items.map made).mapM next).run s = .ok (items, s) := by
  induction items with
  | nil => rfl
  | cons item items ih =>
    rw [List.map_cons, List.mapM_cons, run_bind_of_ok (each item), run_bind_of_ok ih]
    rfl

/-- The space in front of a line is no part of it. -/
theorem dropFront_docLine (line : String) :
    String.ofList ((Text.dropFront? [' '] (docLine line)).getD (docLine line)) = line := by
  rw [docLine]
  split
  · rename_i empty
    rw [String.isEmpty_iff.mp empty]
    rfl
  · show String.ofList line.toList = line
    exact String.ofList_toList

theorem run_docs (lines : List String) (stops : atMark "#" rest = false) :
    docs.run ⟨documentationTokens lines ++ rest, none⟩ = .ok (lines, ⟨rest, none⟩) := by
  have enough : lines.length ≤ (documentationTokens lines ++ rest).length := by
    have two : (documentationTokens lines).length = 2 * lines.length := by
      simp [documentationTokens, Grouping.documentation, List.length_flatMap]
      omega
    rw [List.length_append]
    omega
  rw [docs, run_bind_of_ok (run_peek _), run_bind_of_ok (run_texts enough stops)]
  apply run_mapM
  intro line
  simp only [String.toList_ofList, dropFront_docLine]
  rfl

theorem run_fields {fields : List Field} (legible : ∀ field ∈ fields, LegibleField field)
    {fuel : Nat} (enough : fields.length ≤ fuel) :
    (Parse.fields fuel).run ⟨fieldsTokens fields, none⟩ = .ok (fields, ⟨[], none⟩) := by
  induction fields generalizing fuel with
  | nil => cases fuel <;> rfl
  | cons field rest ih =>
    cases fuel with
    | zero => simp at enough
    | succ fuel =>
      rw [List.forall_mem_cons] at legible
      obtain ⟨⟨valid, element, word, -⟩, others⟩ := legible
      have later := ih others (Nat.le_of_succ_le_succ enough)
      have shape : fieldsTokens (field :: rest) = documentationTokens field.docs ++
          (.word field.name :: .mark ':' false :: (typeTokens field.type ++
            .mark ',' false :: fieldsTokens rest)) := by
        simp [fieldsTokens, fieldTokens]
      rw [shape, Parse.fields, run_bind_of_ok (run_peek _), if_neg (by simp),
        run_bind_of_ok (run_docs _ rfl), run_bind_of_ok (run_identifier valid),
        run_bind_of_ok (run_mark rfl _), run_bind_of_ok (run_fieldType element word _),
        run_bind_of_ok (run_peek _)]
      simp only [List.isEmpty_cons, Bool.not_false, if_true]
      rw [run_bind_of_ok (run_mark rfl _), run_bind_of_ok later]
      rfl

theorem length_fieldsTokens (fields : List Field) :
    fields.length ≤ (fieldsTokens fields).length := by
  induction fields with
  | nil => exact Nat.zero_le _
  | cons field rest ih =>
    simp [fieldsTokens, fieldTokens] at ih ⊢
    omega

theorem run_fieldList {fields : List Field} (legible : ∀ field ∈ fields, LegibleField field) :
    fieldList.run ⟨.group .curly (fieldsTokens fields) :: rest, none⟩ =
      .ok (fields, ⟨rest, none⟩) := by
  refine run_group ?_
  rw [run_bind_of_ok (run_peek _)]
  exact run_fields legible (length_fieldsTokens fields)

theorem run_identity (identity : TypeIdentity) :
    Parse.identity.run ⟨.group .round (identityTokens identity) :: rest, none⟩ =
      .ok (identity, ⟨rest, none⟩) := by
  refine run_group ?_
  rw [identityTokens, run_bind_of_ok (run_stringLiteral _), run_bind_of_ok (run_mark rfl _),
    run_bind_of_ok (run_stringLiteral _), run_bind_of_ok (run_peek _)]
  rfl

theorem run_head {name : String} (valid : isIdentifier name = true) (identity : TypeIdentity) :
    head.run ⟨.word name :: .mark '=' false :: .group .round (identityTokens identity) :: rest,
      none⟩ = .ok ((name, identity), ⟨rest, none⟩) := by
  rw [head, run_bind_of_ok (run_identifier valid), run_bind_of_ok (run_mark rfl _),
    run_bind_of_ok (run_identity identity)]
  rfl

theorem run_entry {entry : Entry} (legible : LegibleEntry entry) :
    Parse.entry.run ⟨entryTokens entry ++ rest, none⟩ = .ok (entry, ⟨rest, none⟩) := by
  obtain ⟨valid, -, fields, target⟩ := legible
  obtain ⟨name, identity, documented, body⟩ := entry
  have shape : entryTokens ⟨name, identity, documented, body⟩ ++ rest =
      documentationTokens documented ++ (.word body.keyword :: .word name :: .mark '=' false ::
        .group .round (identityTokens identity) :: (bodyTokens body ++ rest)) := by
    simp [entryTokens, headTokens]
  rw [shape, Parse.entry, run_bind_of_ok (run_docs _ rfl), run_bind_of_ok (run_peek _)]
  cases body with
  | message own =>
    have inside := fields own (List.mem_singleton_self _)
    simp only [Body.keyword]
    rw [run_bind_of_ok (run_advance _ _), run_bind_of_ok (run_head valid identity)]
    exact run_bind_of_ok (run_fieldList inside)
  | «alias» aliased =>
    have legible := target aliased rfl
    simp only [Body.keyword]
    rw [run_bind_of_ok (run_advance _ _), run_bind_of_ok (run_head valid identity)]
    show StateT.run (typeRef >>= _) ⟨.word aliased.text :: .mark ';' false :: rest, none⟩ = _
    rw [run_bind_of_ok (run_typeRef legible), run_bind_of_ok (run_mark rfl _)]
    rfl
  | service request reply =>
    have first := fields request List.mem_cons_self
    have second := fields reply (List.mem_cons_of_mem _ (List.mem_singleton_self _))
    simp only [Body.keyword]
    rw [run_bind_of_ok (run_advance _ _), run_bind_of_ok (run_head valid identity)]
    refine run_group ?_
    rw [run_bind_of_ok (run_keyword _), run_bind_of_ok (run_fieldList first),
      run_bind_of_ok (run_keyword _), run_bind_of_ok (run_fieldList second)]
    rfl

theorem run_entries {entries : List Entry} (legible : ∀ entry ∈ entries, LegibleEntry entry)
    {fuel : Nat} (enough : entries.length ≤ fuel) :
    (Parse.entries fuel).run ⟨tokens ⟨entries⟩, none⟩ = .ok (entries, ⟨[], none⟩) := by
  induction entries generalizing fuel with
  | nil => cases fuel <;> rfl
  | cons entry rest ih =>
    cases fuel with
    | zero => simp at enough
    | succ fuel =>
      rw [List.forall_mem_cons] at legible
      have later := ih legible.2 (Nat.le_of_succ_le_succ enough)
      have shape : tokens ⟨entry :: rest⟩ = entryTokens entry ++ tokens ⟨rest⟩ := by
        simp [tokens]
      have nonempty : (entryTokens entry ++ tokens ⟨rest⟩).isEmpty = false := by
        simp [entryTokens, headTokens]
      rw [shape, Parse.entries, run_bind_of_ok (run_peek _), nonempty, if_neg (by decide),
        run_bind_of_ok (run_entry legible.1), run_bind_of_ok later]
      rfl

theorem length_tokens (entries : List Entry) : entries.length ≤ (tokens ⟨entries⟩).length := by
  induction entries with
  | nil => exact Nat.zero_le _
  | cons entry rest ih =>
    simp [tokens, entryTokens, headTokens] at ih ⊢
    omega

end Parse

/-- The tokens of a table whose entries are legible are read as that table. -/
theorem ofTokens_tokens {schema : Schema} (legible : ∀ entry ∈ schema.entries, LegibleEntry entry) :
    ofTokens (tokens schema) = .ok schema := by
  have read := Parse.run_entries legible (Parse.length_tokens schema.entries)
  rw [ofTokens, read]
  rfl

end WireSchema.Table
