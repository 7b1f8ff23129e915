import WireSchema.Proofs.Documentation

/-! Whatever is read as a schema derives from the grammar as that schema. -/

namespace WireSchema.Table

open Token Grammar

namespace Parse

variable {s t : Remaining}

theorem many_of_run_texts {fuel : Nat} {lines : List String}
    (done : (Attribute.texts fuel).run s = .ok (lines.map some, t)) (clean : t.leftOver = none) :
    ∃ block, s = ⟨block ++ t.tokens, none⟩ ∧ Many IsDoc block lines := by
  induction fuel generalizing s lines with
  | zero =>
    obtain ⟨empty, rfl⟩ := eq_of_run_pure done
    obtain rfl := List.map_eq_nil_iff.mp empty.symm
    exact ⟨[], by rw [← clean]; rfl, .nil⟩
  | succ fuel ih =>
    rw [Attribute.texts, run_bind_of_ok (run_sees _ _)] at done
    split at done
    · obtain ⟨empty, rfl⟩ := eq_of_run_pure done
      obtain rfl := List.map_eq_nil_iff.mp empty.symm
      exact ⟨[], by rw [← clean]; rfl, .nil⟩
    · obtain ⟨first, u, head, rest⟩ := exists_of_run_bind done
      obtain ⟨others, v, tail, last⟩ := exists_of_run_bind rest
      obtain ⟨same, rfl⟩ := eq_of_run_pure last
      obtain ⟨line, lines, rfl, rfl, rfl⟩ := List.map_eq_cons_iff.mp same.symm
      obtain ⟨back, rfl, documented⟩ := ih tail
      obtain ⟨front, rfl, doc⟩ := Attribute.isDoc_of_run_text head rfl
      exact ⟨front ++ back, by rw [List.append_assoc], .cons doc documented⟩

/-- Every attribute had a text. -/
theorem exists_of_run_mapM {texts : List (Option String)} {docs : List String}
    (done : (texts.mapM fun
      | some text => return .ofList ((Text.dropFront? [' '] text.toList).getD text.toList)
      | none => throw .notDocumentation : Parse (List String)).run s = .ok (docs, t)) :
    ∃ lines : List String, texts = lines.map some ∧ docs = lines.map unspaced ∧ s = t := by
  induction texts generalizing s docs with
  | nil =>
    obtain ⟨rfl, rfl⟩ := eq_of_run_pure done
    exact ⟨[], rfl, rfl, rfl⟩
  | cons first texts ih =>
    rw [List.mapM_cons] at done
    obtain ⟨line, u, head, rest⟩ := exists_of_run_bind done
    obtain ⟨others, v, tail, last⟩ := exists_of_run_bind rest
    obtain ⟨rfl, rfl⟩ := eq_of_run_pure last
    obtain ⟨lines, rfl, rfl, rfl⟩ := ih tail
    cases first with
    | none => exact (not_run_throw head).elim
    | some text =>
      obtain ⟨rfl, rfl⟩ := eq_of_run_pure head
      exact ⟨text :: lines, rfl, rfl, rfl⟩

theorem isDocs_of_run_docs {lines : List String} (done : docs.run s = .ok (lines, t))
    (clean : t.leftOver = none) :
    ∃ block, s = ⟨block ++ t.tokens, none⟩ ∧ IsDocs block lines := by
  rw [docs, run_bind_of_ok (run_peek _)] at done
  obtain ⟨texts, u, read, kept⟩ := exists_of_run_bind done
  obtain ⟨texts, rfl, rfl, rfl⟩ := exists_of_run_mapM kept
  obtain ⟨block, same, many⟩ := many_of_run_texts read clean
  exact ⟨block, same, texts, many, rfl⟩

theorem isFieldType_of_run_fieldType {type : FieldType} (done : fieldType.run s = .ok (type, t))
    (clean : t.leftOver = none) :
    ∃ block, s = ⟨block ++ t.tokens, none⟩ ∧ IsFieldType block type := by
  obtain ⟨tokens, left⟩ := s
  obtain ⟨rest, clear⟩ := t
  obtain rfl : clear = none := clean
  rw [fieldType, run_bind_of_ok (run_peek _)] at done
  simp only at done
  split at done
  · obtain ⟨body, shape, read⟩ := exists_of_run_group done rfl
    obtain ⟨element, u, named, next⟩ := exists_of_run_bind read
    obtain ⟨_, v, marked, next⟩ := exists_of_run_bind next
    obtain ⟨n, w, counted, last⟩ := exists_of_run_bind next
    obtain ⟨rfl, rfl⟩ := eq_of_run_pure last
    obtain ⟨suffix, small, rfl⟩ := exists_of_run_length counted
    obtain ⟨semicolon, rfl⟩ := exists_of_run_mark (c := ';') rfl marked
    obtain ⟨name, valid, rfl, same⟩ := exists_of_run_typeRef named
    cases same
    exact ⟨_, congrArg₂ Remaining.mk shape rfl, .bracketed valid small⟩
  · rw [run_bind_of_ok (run_advance _ _)] at done
    obtain ⟨element, u, named, next⟩ := exists_of_run_bind done
    obtain ⟨_, v, marked, last⟩ := exists_of_run_bind next
    obtain ⟨rfl, rfl⟩ := eq_of_run_pure last
    obtain ⟨closing, rfl⟩ := exists_of_run_mark (c := '>') rfl marked
    obtain ⟨name, valid, rfl, same⟩ := exists_of_run_typeRef named
    cases same
    exact ⟨_, rfl, .sequence valid⟩
  · obtain ⟨element, u, named, next⟩ := exists_of_run_bind done
    obtain ⟨name, valid, rfl, same⟩ := exists_of_run_typeRef named
    cases same
    obtain ⟨tokens, left⟩ := u
    rw [run_bind_of_ok (run_peek _)] at next
    simp only at next
    split at next
    · obtain ⟨body, shape, read⟩ := exists_of_run_group next rfl
      cases shape
      split at read
      · obtain ⟨rfl, same⟩ := eq_of_run_pure read
        cases same
        exact ⟨_, rfl, .unbounded valid⟩
      · obtain ⟨n, u, counted, last⟩ := exists_of_run_bind read
        obtain ⟨rfl, rfl⟩ := eq_of_run_pure last
        obtain ⟨suffix, small, same⟩ := exists_of_run_length counted
        cases same
        exact ⟨_, rfl, .suffixed valid small⟩
    · obtain ⟨rfl, same⟩ := eq_of_run_pure next
      cases same
      exact ⟨_, rfl, .one valid⟩

/-- Before what comes next there was the end of the group or a comma. -/
theorem exists_of_run_comma {α : Type} (next : Unit → Parse α) {value : α}
    (done : (peek >>= fun tokens =>
      if (!tokens.isEmpty) = true then mark "," >>= next else next ()).run s = .ok (value, t)) :
    ∃ comma rest, OptionalComma comma ∧ s.tokens = comma ++ rest ∧
      (comma = [] → rest = []) ∧ (next ()).run ⟨rest, s.leftOver⟩ = .ok (value, t) := by
  obtain ⟨tokens, left⟩ := s
  rw [run_bind_of_ok (run_peek _)] at done
  cases tokens with
  | nil => exact ⟨[], [], .absent, rfl, fun _ => rfl, done⟩
  | cons token rest =>
    obtain ⟨_, u, marked, done⟩ := exists_of_run_bind done
    obtain ⟨joint, same⟩ := exists_of_run_mark (c := ',') rfl marked
    cases same
    exact ⟨[.mark ',' joint], u.tokens, .present, rfl, nofun, done⟩

theorem isFields_of_run_fields {fuel : Nat} {fields : List Field}
    (done : (Parse.fields fuel).run s = .ok (fields, ⟨[], none⟩)) :
    ∃ tokens, s = ⟨tokens, none⟩ ∧ IsFields False tokens fields := by
  induction fuel generalizing s fields with
  | zero =>
    cases done
    exact ⟨[], rfl, isFields_nil False⟩
  | succ fuel ih =>
    rw [Parse.fields, run_bind_of_ok (run_peek _)] at done
    split at done
    · cases done
      exact ⟨[], rfl, isFields_nil False⟩
    · obtain ⟨lines, u, first, next⟩ := exists_of_run_bind done
      obtain ⟨name, v, second, next⟩ := exists_of_run_bind next
      obtain ⟨_, w, third, next⟩ := exists_of_run_bind next
      obtain ⟨type, x, fourth, next⟩ := exists_of_run_bind next
      obtain ⟨comma, rest, optional, shape, ended, next⟩ := exists_of_run_comma _ next
      obtain ⟨others, y, later, last⟩ := exists_of_run_bind next
      obtain ⟨rfl, rfl⟩ := eq_of_run_pure last
      obtain ⟨tokens, same, fielded⟩ := ih later
      obtain ⟨rfl, left⟩ := Remaining.mk.inj same
      obtain ⟨back, rfl, typed⟩ := isFieldType_of_run_fieldType fourth left
      obtain ⟨colon, rfl⟩ := exists_of_run_mark (c := ':') rfl third
      obtain ⟨named, rfl⟩ := exists_of_run_identifier second
      obtain ⟨front, rfl, documented⟩ := isDocs_of_run_docs first rfl
      have head : Grammar.IsField (front ++ .word name :: .mark ':' colon :: back)
          ⟨name, type, lines⟩ := .mk documented named typed
      refine ⟨_, rfl, ?_⟩
      have all := isFields_cons head optional ended fielded
      rw [shape]
      simpa using all

theorem isFields_of_run_fieldList {fields : List Field} (done : fieldList.run s = .ok (fields, t))
    (clean : t.leftOver = none) :
    ∃ body, s = ⟨.group .curly body :: t.tokens, none⟩ ∧ IsFields False body fields := by
  rw [fieldList] at done
  obtain ⟨body, shape, read⟩ := exists_of_run_group done clean
  rw [run_bind_of_ok (run_peek _)] at read
  obtain ⟨tokens, same, fielded⟩ := isFields_of_run_fields read
  obtain ⟨rfl, left⟩ := Remaining.mk.inj same
  exact ⟨_, congrArg₂ Remaining.mk shape left, fielded⟩

theorem isIdentity_of_run_identity {identity : TypeIdentity}
    (done : Parse.identity.run s = .ok (identity, t)) (clean : t.leftOver = none) :
    ∃ body, s = ⟨.group .round body :: t.tokens, none⟩ ∧ IsIdentity body identity := by
  rw [Parse.identity] at done
  obtain ⟨body, shape, read⟩ := exists_of_run_group done clean
  obtain ⟨name, u, first, next⟩ := exists_of_run_bind read
  obtain ⟨_, v, second, next⟩ := exists_of_run_bind next
  obtain ⟨hash, w, third, next⟩ := exists_of_run_bind next
  obtain ⟨comma, rest, optional, behind, -, last⟩ := exists_of_run_comma _ next
  obtain ⟨rfl, same⟩ := eq_of_run_pure last
  obtain ⟨rfl, left⟩ := Remaining.mk.inj same
  obtain rfl := exists_of_run_stringLiteral third
  obtain ⟨between, rfl⟩ := exists_of_run_mark (c := ',') rfl second
  have start := exists_of_run_stringLiteral first
  rw [List.append_nil] at behind
  obtain ⟨rfl, same⟩ := Remaining.mk.inj start
  refine ⟨_, congrArg₂ Remaining.mk shape (same.trans left), ?_⟩
  rw [behind]
  exact .mk optional

theorem isHead_of_run_head {named : String × TypeIdentity} (done : head.run s = .ok (named, t))
    (clean : t.leftOver = none) :
    ∃ block, s = ⟨block ++ t.tokens, none⟩ ∧ IsHead block named := by
  rw [head] at done
  obtain ⟨name, u, first, next⟩ := exists_of_run_bind done
  obtain ⟨_, v, second, next⟩ := exists_of_run_bind next
  obtain ⟨identity, w, third, last⟩ := exists_of_run_bind next
  obtain ⟨rfl, rfl⟩ := eq_of_run_pure last
  obtain ⟨body, rfl, identified⟩ := isIdentity_of_run_identity third clean
  obtain ⟨equals, rfl⟩ := exists_of_run_mark (c := '=') rfl second
  obtain ⟨valid, rfl⟩ := exists_of_run_identifier first
  exact ⟨_, rfl, .mk valid identified⟩

theorem isEntry_of_run_entry {entry : Entry} (done : Parse.entry.run s = .ok (entry, t))
    (clean : t.leftOver = none) :
    ∃ block, s = ⟨block ++ t.tokens, none⟩ ∧ IsEntry False block entry := by
  rw [Parse.entry] at done
  obtain ⟨lines, ⟨tokens, left⟩, first, next⟩ := exists_of_run_bind done
  rw [run_bind_of_ok (run_peek _)] at next
  simp only at next
  split at next
  · rw [run_bind_of_ok (run_advance _ _)] at next
    obtain ⟨⟨name, identity⟩, u, second, next⟩ := exists_of_run_bind next
    obtain ⟨fields, v, third, last⟩ := exists_of_run_bind next
    obtain ⟨rfl, rfl⟩ := eq_of_run_pure last
    obtain ⟨body, rfl, fielded⟩ := isFields_of_run_fieldList third clean
    obtain ⟨head, same, headed⟩ := isHead_of_run_head second rfl
    cases same
    obtain ⟨front, rfl, documented⟩ := isDocs_of_run_docs first rfl
    exact ⟨_, by simp, .message documented headed fielded⟩
  · rw [run_bind_of_ok (run_advance _ _)] at next
    obtain ⟨⟨name, identity⟩, u, second, next⟩ := exists_of_run_bind next
    obtain ⟨target, v, third, next⟩ := exists_of_run_bind next
    obtain ⟨_, w, fourth, last⟩ := exists_of_run_bind next
    obtain ⟨rfl, rfl⟩ := eq_of_run_pure last
    obtain ⟨semicolon, rfl⟩ := exists_of_run_mark (c := ';') rfl fourth
    obtain ⟨word, named, rfl, rfl⟩ := exists_of_run_typeRef third
    obtain ⟨head, same, headed⟩ := isHead_of_run_head second clean
    cases same
    obtain ⟨front, rfl, documented⟩ := isDocs_of_run_docs first rfl
    exact ⟨front ++ .word "alias" :: (head ++ [.word word, .mark ';' semicolon]), by simp,
      .alias documented headed named⟩
  · rw [run_bind_of_ok (run_advance _ _)] at next
    obtain ⟨⟨name, identity⟩, u, second, next⟩ := exists_of_run_bind next
    obtain ⟨body, shape, read⟩ := exists_of_run_group next clean
    obtain ⟨_, v, third, next⟩ := exists_of_run_bind read
    obtain ⟨request, w, fourth, next⟩ := exists_of_run_bind next
    obtain ⟨_, x, fifth, next⟩ := exists_of_run_bind next
    obtain ⟨reply, y, sixth, last⟩ := exists_of_run_bind next
    obtain ⟨rfl, rfl⟩ := eq_of_run_pure last
    obtain ⟨replies, rfl, replied⟩ := isFields_of_run_fieldList sixth rfl
    obtain rfl := exists_of_run_keyword fifth
    obtain ⟨requests, rfl, requested⟩ := isFields_of_run_fieldList fourth rfl
    obtain ⟨rfl, left⟩ := Remaining.mk.inj (exists_of_run_keyword third)
    obtain ⟨head, same, headed⟩ := isHead_of_run_head second left
    obtain ⟨rfl, rfl⟩ := Remaining.mk.inj same
    obtain ⟨front, rfl, documented⟩ := isDocs_of_run_docs first rfl
    rw [shape]
    exact ⟨_, by simp, .service documented headed requested replied⟩
  · exact (not_run_missing next).elim

theorem many_of_run_entries {fuel : Nat} {entries : List Entry}
    (done : (Parse.entries fuel).run s = .ok (entries, t)) (clean : t.leftOver = none) :
    ∃ block, s = ⟨block ++ t.tokens, none⟩ ∧ Many (IsEntry False) block entries ∧
      (s.tokens.length ≤ fuel → t.tokens = []) := by
  induction fuel generalizing s entries with
  | zero =>
    obtain ⟨rfl, rfl⟩ := eq_of_run_pure done
    refine ⟨[], by rw [← clean]; rfl, .nil, fun short => ?_⟩
    exact List.length_eq_zero_iff.mp (Nat.le_zero.mp short)
  | succ fuel ih =>
    rw [Parse.entries, run_bind_of_ok (run_peek _)] at done
    split at done
    · rename_i empty
      obtain ⟨rfl, rfl⟩ := eq_of_run_pure done
      exact ⟨[], by rw [← clean]; rfl, .nil, fun _ => List.isEmpty_iff.mp empty⟩
    · obtain ⟨entry, u, first, next⟩ := exists_of_run_bind done
      obtain ⟨others, v, later, last⟩ := exists_of_run_bind next
      obtain ⟨rfl, rfl⟩ := eq_of_run_pure last
      obtain ⟨back, rfl, tail, finished⟩ := ih later
      obtain ⟨front, rfl, head⟩ := isEntry_of_run_entry first rfl
      refine ⟨front ++ back, by rw [List.append_assoc], .cons head tail, fun enough => ?_⟩
      have nonempty := List.length_pos_iff.mpr (isEntry_ne_nil head)
      rw [List.length_append] at enough
      exact finished (by omega)

end Parse

/-- What is read as a schema derives from the grammar as that schema. -/
theorem isTable_of_ofTokens {tokens : List TokenTree} {schema : Schema}
    (read : ofTokens tokens = .ok schema) : IsTable False tokens schema := by
  rw [ofTokens] at read
  cases done : (Parse.entries tokens.length).run ⟨tokens, none⟩ with
  | error why =>
    rw [done] at read
    cases read
  | ok found =>
    obtain ⟨entries, rest, left⟩ := found
    rw [done] at read
    cases left with
    | some bracket => cases read
    | none =>
      cases read
      obtain ⟨block, same, many, finished⟩ := Parse.many_of_run_entries done rfl
      obtain ⟨rfl, -⟩ := Remaining.mk.inj same
      obtain rfl : rest = [] := finished (Nat.le_refl _)
      rw [List.append_nil]
      exact many

theorem exists_tokens_of_parse {text : String} {schema : Schema}
    (read : parse text = .ok schema) :
    ∃ tokens, tokens? text = some tokens ∧ IsTable False tokens schema := by
  rw [parse] at read
  split at read
  · rename_i tokens found
    exact ⟨tokens, found, isTable_of_ofTokens read⟩
  · cases read

/-- A table is read as a schema exactly if it derives from the grammar as that schema without a
comma that stands alone. -/
theorem reads_derivations (tokens : List TokenTree) (schema : Schema) :
    (ofTokens tokens = .ok schema ↔ IsTable False tokens schema) ∧
    (ofTokens tokens = .ok schema → IsTable True tokens schema) :=
  ⟨⟨isTable_of_ofTokens, ofTokens_of_isTable⟩, fun read => (isTable_of_ofTokens read).imp .imp⟩

def documentedTokens : List TokenTree :=
  [.mark '#' false, .group .square [.word "doc", .mark '=' false, .literal (.string " One.")],
    .word "message", .word "message", .mark '=' false,
    .group .round [.literal (.string "a"), .mark ',' false, .literal (.string "h")],
    .group .curly [.word "sequence", .mark ':' false, .word "sequence", .mark '<' false,
      .word "uint8", .mark '>' true, .mark ',' false]]

def documentedSchema : Schema where
  entries := [⟨"message", ⟨"a", "h"⟩, ["One."],
    .message [⟨"sequence", ⟨.base (.scalar .uint8), .sequence⟩, []⟩]⟩]

theorem reads_derivations_sample :
    ofTokens documentedTokens = .ok documentedSchema ∧
      IsTable True documentedTokens documentedSchema := by
  have read : ofTokens documentedTokens = .ok documentedSchema := by decide +kernel
  exact ⟨read, (reads_derivations documentedTokens documentedSchema).2 read⟩

def commaTokens : List TokenTree :=
  [.word "message", .word "A", .mark '=' false,
    .group .round [.literal (.string "a"), .mark ',' false, .literal (.string "h")],
    .group .curly [.mark ',' false]]

/-- A comma that may end the fields is refused where there is no field. -/
theorem lone_comma_refused :
    IsTable True commaTokens ⟨[⟨"A", ⟨"a", "h"⟩, [], .message []⟩]⟩ ∧
      ofTokens commaTokens = .error (.missing [.identifier] false) := by
  have head : IsHead [.word "A", .mark '=' false,
      .group .round [.literal (.string "a"), .mark ',' false, .literal (.string "h")]]
      ("A", ⟨"a", "h"⟩) := .mk (by decide) (.mk .absent)
  have fields : IsFields True [.mark ',' false] [] :=
    ⟨[], [.mark ',' false], rfl, .nil, .present, fun _ => .inr trivial⟩
  have entry := IsEntry.message ⟨[], .nil, rfl⟩ head fields
  exact ⟨Many.cons entry .nil, by decide +kernel⟩

end WireSchema.Table
