import WireSchema.Proofs.TableReading

/-! The grammar of tables over tokens, with the schema that a derivation declares. -/

namespace WireSchema.Table

open Token

namespace Grammar

inductive Many {α : Type} (item : List TokenTree → α → Prop) : List TokenTree → List α → Prop
  | nil : Many item [] []
  | cons {first rest : List TokenTree} {value : α} {values : List α} (head : item first value)
      (tail : Many item rest values) : Many item (first ++ rest) (value :: values)

inductive Listed {α : Type} (item : List TokenTree → α → Prop) : List TokenTree → List α → Prop
  | nil : Listed item [] []
  | last {block : List TokenTree} {value : α} (only : item block value) : Listed item block [value]
  | cons {first rest : List TokenTree} {value : α} {values : List α} {joint : Bool}
      (head : item first value) (tail : Listed item rest values) (more : values ≠ []) :
      Listed item (first ++ .mark ',' joint :: rest) (value :: values)

inductive OptionalComma : List TokenTree → Prop
  | absent : OptionalComma []
  | present {joint : Bool} : OptionalComma [.mark ',' joint]

/-- The text of a documentation attribute without one space in front. -/
def unspaced (line : String) : String :=
  .ofList ((Text.dropFront? [' '] line.toList).getD line.toList)

inductive IsDoc : List TokenTree → String → Prop
  | mk {line : String} {hash equals : Bool} :
    IsDoc [.mark '#' hash, .group .square [.word "doc", .mark '=' equals, .literal (.string line)]]
      line

def IsDocs (tokens : List TokenTree) (docs : List String) : Prop :=
  ∃ lines, Many IsDoc tokens lines ∧ docs = lines.map unspaced

inductive IsFieldType : List TokenTree → FieldType → Prop
  | one {name : String} (named : isName name = true) :
    IsFieldType [.word name] ⟨.ofName name, .one⟩
  | bracketed {name suffix : String} {n : Nat} {semicolon : Bool} (named : isName name = true)
      (small : n < wordLimit) :
    IsFieldType
      [.group .square [.word name, .mark ';' semicolon, .literal (.integer n suffix)]]
      ⟨.ofName name, .array n⟩
  | suffixed {name suffix : String} {n : Nat} (named : isName name = true)
      (small : n < wordLimit) :
    IsFieldType [.word name, .group .square [.literal (.integer n suffix)]]
      ⟨.ofName name, .array n⟩
  | unbounded {name : String} (named : isName name = true) :
    IsFieldType [.word name, .group .square []] ⟨.ofName name, .sequence⟩
  | sequence {name : String} {opening closing : Bool} (named : isName name = true) :
    IsFieldType [.word "sequence", .mark '<' opening, .word name, .mark '>' closing]
      ⟨.ofName name, .sequence⟩

inductive IsField : List TokenTree → Field → Prop
  | mk {front back : List TokenTree} {docs : List String} {name : String} {type : FieldType}
      {colon : Bool} (documented : IsDocs front docs) (named : isName name = true)
      (typed : IsFieldType back type) :
    IsField (front ++ .word name :: .mark ':' colon :: back) ⟨name, type, docs⟩

/-- Fields with a comma between two and perhaps one behind the last. `lone` says whether a comma may
also stand where there is no field. -/
def IsFields (lone : Prop) (tokens : List TokenTree) (fields : List Field) : Prop :=
  ∃ items comma, tokens = items ++ comma ∧ Listed IsField items fields ∧ OptionalComma comma ∧
    (fields = [] → comma = [] ∨ lone)

inductive IsIdentity : List TokenTree → TypeIdentity → Prop
  | mk {name hash : String} {comma : List TokenTree} {between : Bool}
      (trailing : OptionalComma comma) :
    IsIdentity (.literal (.string name) :: .mark ',' between :: .literal (.string hash) :: comma)
      ⟨name, hash⟩

inductive IsHead : List TokenTree → String × TypeIdentity → Prop
  | mk {body : List TokenTree} {name : String} {identity : TypeIdentity} {equals : Bool}
      (named : isName name = true) (identified : IsIdentity body identity) :
    IsHead [.word name, .mark '=' equals, .group .round body] (name, identity)

inductive IsEntry (lone : Prop) : List TokenTree → Entry → Prop
  | message {front head body : List TokenTree} {docs : List String} {name : String}
      {identity : TypeIdentity} {fields : List Field} (documented : IsDocs front docs)
      (headed : IsHead head (name, identity)) (fielded : IsFields lone body fields) :
    IsEntry lone (front ++ .word "message" :: (head ++ [.group .curly body]))
      ⟨name, identity, docs, .message fields⟩
  | alias {front head : List TokenTree} {docs : List String} {name target : String}
      {identity : TypeIdentity} {semicolon : Bool} (documented : IsDocs front docs)
      (headed : IsHead head (name, identity)) (named : isName target = true) :
    IsEntry lone (front ++ .word "alias" :: (head ++ [.word target, .mark ';' semicolon]))
      ⟨name, identity, docs, .alias (.ofName target)⟩
  | service {front head first second : List TokenTree} {docs : List String} {name : String}
      {identity : TypeIdentity} {request reply : List Field} (documented : IsDocs front docs)
      (headed : IsHead head (name, identity)) (requested : IsFields lone first request)
      (replied : IsFields lone second reply) :
    IsEntry lone (front ++ .word "service" :: (head ++ [.group .curly [.word "request",
        .group .curly first, .word "reply", .group .curly second]]))
      ⟨name, identity, docs, .service request reply⟩

def IsTable (lone : Prop) (tokens : List TokenTree) (schema : Schema) : Prop :=
  Many (IsEntry lone) tokens schema.entries

section Lists

variable {α : Type} {item : List TokenTree → α → Prop} {tokens : List TokenTree} {values : List α}

theorem Many.length_le (many : Many item tokens values)
    (nonempty : ∀ {block : List TokenTree} {value : α}, item block value → block ≠ []) :
    values.length ≤ tokens.length := by
  induction many with
  | nil => exact Nat.zero_le _
  | cons head tail ih =>
    have positive := List.length_pos_iff.mpr (nonempty head)
    rw [List.length_append, List.length_cons]
    omega

theorem Many.imp {other : List TokenTree → α → Prop}
    (implies : ∀ {block : List TokenTree} {value : α}, item block value → other block value)
    (many : Many item tokens values) : Many other tokens values := by
  induction many with
  | nil => exact .nil
  | cons head _ ih => exact .cons (implies head) ih

end Lists

theorem IsFields.imp {lone : Prop} {tokens : List TokenTree} {fields : List Field}
    (fielded : IsFields False tokens fields) : IsFields lone tokens fields := by
  obtain ⟨items, comma, same, listed, optional, bare⟩ := fielded
  exact ⟨items, comma, same, listed, optional, fun empty => (bare empty).imp_right False.elim⟩

theorem IsEntry.imp {lone : Prop} {tokens : List TokenTree} {entry : Entry}
    (declared : IsEntry False tokens entry) : IsEntry lone tokens entry := by
  cases declared with
  | message documented headed fielded => exact .message documented headed fielded.imp
  | «alias» documented headed named => exact .alias documented headed named
  | service documented headed requested replied =>
    exact .service documented headed requested.imp replied.imp

theorem isDoc_ne_nil {block : List TokenTree} {line : String} (doc : IsDoc block line) :
    block ≠ [] := by
  cases doc
  exact List.cons_ne_nil _ _

theorem isField_ne_nil {block : List TokenTree} {field : Field} (fielded : IsField block field) :
    block ≠ [] := by
  cases fielded
  simp

theorem isEntry_ne_nil {lone : Prop} {block : List TokenTree} {entry : Entry}
    (declared : IsEntry lone block entry) : block ≠ [] := by
  cases declared <;> simp

theorem isFields_nil (lone : Prop) : IsFields lone [] [] :=
  ⟨[], [], rfl, .nil, .absent, fun _ => .inl rfl⟩

theorem eq_nil_of_isFields {lone : Prop} {fields : List Field} (fielded : IsFields lone [] fields) :
    fields = [] := by
  obtain ⟨items, comma, empty, listed, -, -⟩ := fielded
  obtain ⟨rfl, -⟩ := List.append_eq_nil_iff.mp empty.symm
  generalize empty : ([] : List TokenTree) = tokens at listed
  cases listed with
  | nil => rfl
  | last only => exact (isField_ne_nil only empty.symm).elim
  | cons => simp at empty

theorem isFields_cases {tokens : List TokenTree} {fields : List Field}
    (fielded : IsFields False tokens fields) :
    (tokens = [] ∧ fields = []) ∨
    ∃ first field comma rest others, IsField first field ∧ OptionalComma comma ∧
      (comma = [] → rest = []) ∧ IsFields False rest others ∧
      tokens = first ++ (comma ++ rest) ∧ fields = field :: others := by
  obtain ⟨items, comma, rfl, listed, optional, bare⟩ := fielded
  cases listed with
  | nil =>
    obtain rfl := (bare rfl).resolve_right id
    exact .inl ⟨rfl, rfl⟩
  | @last _ field only =>
    exact .inr ⟨items, field, comma, [], [], only, optional, fun _ => rfl, isFields_nil False,
      by rw [List.append_nil], rfl⟩
  | @cons first rest field others joint head tail more =>
    exact .inr ⟨first, field, [.mark ',' joint], rest ++ comma, others, head, .present, nofun,
      ⟨rest, comma, rfl, tail, optional, fun empty => (more empty).elim⟩, by simp, rfl⟩

theorem isFields_cons {first comma rest : List TokenTree} {field : Field} {others : List Field}
    (head : IsField first field) (optional : OptionalComma comma) (ended : comma = [] → rest = [])
    (tail : IsFields False rest others) :
    IsFields False (first ++ (comma ++ rest)) (field :: others) := by
  cases optional with
  | absent =>
    obtain rfl := ended rfl
    obtain rfl := eq_nil_of_isFields tail
    exact ⟨first, [], rfl, .last head, .absent, nofun⟩
  | @present joint =>
    obtain ⟨items, comma, rfl, listed, optional, bare⟩ := tail
    by_cases more : others = []
    · subst more
      obtain rfl := (bare rfl).resolve_right id
      cases listed
      exact ⟨first, [.mark ',' joint], rfl, .last head, .present, nofun⟩
    · exact ⟨first ++ .mark ',' joint :: items, comma, by simp, .cons head listed more, optional,
        nofun⟩

end Grammar

namespace Parse

open Grammar

variable {block rest : List TokenTree} {left : Option Bracket}

/-- Any name is read, also one that a schema may not declare. -/
theorem run_identifier_of_isName {name : String} (named : isName name = true) :
    identifier.run ⟨.word name :: rest, left⟩ = .ok (name, ⟨rest, left⟩) := by
  rw [identifier, run_bind_of_ok (run_peek _)]
  simp only [named]
  rfl

theorem run_typeRef_of_isName {name : String} (named : isName name = true) :
    typeRef.run ⟨.word name :: rest, left⟩ = .ok (.ofName name, ⟨rest, left⟩) := by
  rw [typeRef, run_bind_of_ok (run_identifier_of_isName named)]
  rfl

theorem run_length_of_lt {n : Nat} (small : n < wordLimit) (suffix : String) :
    length.run ⟨[.literal (.integer n suffix)], left⟩ = .ok (n, ⟨[], left⟩) := by
  rw [length, run_bind_of_ok (run_peek _)]
  simp only [small]
  rfl

theorem run_text_of_isDoc {line : String} (doc : IsDoc block line) :
    Attribute.text.run ⟨block ++ rest, none⟩ = .ok (some line, ⟨rest, none⟩) := by
  cases doc with
  | @mk line hash equals =>
    rw [Attribute.text, List.cons_append, run_bind_of_ok (run_mark rfl hash)]
    refine run_group ?_
    rw [run_bind_of_ok (run_peek _)]
    cases equals <;> rfl

/-- Documentation is read as long as there is any; `fuel` is enough for all of it. -/
theorem run_texts_of_many {block : List TokenTree} {lines : List String}
    (documented : Many IsDoc block lines) {fuel : Nat} (enough : lines.length ≤ fuel)
    (stops : atMark "#" rest = false) :
    (Attribute.texts fuel).run ⟨block ++ rest, none⟩ = .ok (lines.map some, ⟨rest, none⟩) := by
  induction documented generalizing fuel with
  | nil =>
    exact run_texts (show ([] : List String).length ≤ fuel from enough) stops
  | @cons first others line lines head tail ih =>
    cases fuel with
    | zero => simp at enough
    | succ fuel =>
      have marked : (sees (atMark "#")).run ⟨first ++ (others ++ rest), none⟩ =
          .ok (true, ⟨first ++ (others ++ rest), none⟩) := by
        cases head
        rfl
      rw [List.append_assoc, Attribute.texts, run_bind_of_ok marked]
      simp only [Bool.not_true]
      rw [if_neg (by decide), run_bind_of_ok (run_text_of_isDoc head),
        run_bind_of_ok (ih (Nat.le_of_succ_le_succ enough))]
      rfl

theorem run_mapM_map {α β γ : Type} {next : α → Parse β} {given : γ → α} {made : γ → β}
    {s : Remaining} (each : ∀ item, (next (given item)).run s = .ok (made item, s))
    (items : List γ) : ((items.map given).mapM next).run s = .ok (items.map made, s) := by
  induction items with
  | nil => rfl
  | cons item items ih =>
    rw [List.map_cons, List.mapM_cons, run_bind_of_ok (each item), run_bind_of_ok ih]
    rfl

theorem run_docs_of_isDocs {lines : List String} (documented : IsDocs block lines)
    (stops : atMark "#" rest = false) :
    docs.run ⟨block ++ rest, none⟩ = .ok (lines, ⟨rest, none⟩) := by
  obtain ⟨texts, many, rfl⟩ := documented
  have enough : texts.length ≤ (block ++ rest).length := by
    have short := many.length_le isDoc_ne_nil
    rw [List.length_append]
    omega
  rw [docs, run_bind_of_ok (run_peek _), run_bind_of_ok (run_texts_of_many many enough stops)]
  exact run_mapM_map (fun _ => rfl) texts

inductive EndsField : List TokenTree → Prop
  | finished : EndsField []
  | comma {joint : Bool} {rest : List TokenTree} : EndsField (.mark ',' joint :: rest)

theorem run_fieldType_of_isFieldType {type : FieldType} (typed : IsFieldType block type)
    (ends : EndsField rest) :
    fieldType.run ⟨block ++ rest, none⟩ = .ok (type, ⟨rest, none⟩) := by
  rw [fieldType, run_bind_of_ok (run_peek _)]
  cases typed with
  | one named =>
    simp only [List.singleton_append]
    split
    · rename_i shape
      cases shape
    · rename_i shape
      cases ends <;> simp at shape
    · rw [run_bind_of_ok (run_typeRef_of_isName named), run_bind_of_ok (run_peek _)]
      cases ends <;> rfl
  | bracketed named small =>
    refine run_group ?_
    rw [run_bind_of_ok (run_typeRef_of_isName named), run_bind_of_ok (run_mark rfl _),
      run_bind_of_ok (run_length_of_lt small _)]
    rfl
  | suffixed named small =>
    simp only [List.cons_append, List.nil_append]
    rw [run_bind_of_ok (run_typeRef_of_isName named), run_bind_of_ok (run_peek _)]
    refine run_group ?_
    simp only [List.isEmpty_cons, Bool.false_eq_true, if_false]
    rw [run_bind_of_ok (run_length_of_lt small _)]
    rfl
  | unbounded named =>
    simp only [List.cons_append, List.nil_append]
    rw [run_bind_of_ok (run_typeRef_of_isName named), run_bind_of_ok (run_peek _)]
    rfl
  | sequence named =>
    simp only [List.cons_append, List.nil_append]
    rw [run_bind_of_ok (run_advance _ _), run_bind_of_ok (run_typeRef_of_isName named),
      run_bind_of_ok (run_mark rfl _)]
    rfl

theorem run_comma {α : Type} (next : Unit → Parse α) {comma : List TokenTree}
    (optional : OptionalComma comma) (ended : comma = [] → rest = []) :
    (peek >>= fun tokens =>
      if (!tokens.isEmpty) = true then mark "," >>= next else next ()).run ⟨comma ++ rest, left⟩ =
      (next ()).run ⟨rest, left⟩ := by
  rw [run_bind_of_ok (run_peek _)]
  cases optional with
  | absent =>
    rw [ended rfl]
    rfl
  | present => exact run_bind_of_ok (run_mark rfl _)

/-- Fields are read up to the end of the group. -/
theorem run_fields_of_isFields {tokens : List TokenTree} {fields : List Field}
    (fielded : IsFields False tokens fields) {fuel : Nat} (enough : tokens.length ≤ fuel) :
    (Parse.fields fuel).run ⟨tokens, none⟩ = .ok (fields, ⟨[], none⟩) := by
  induction fuel generalizing tokens fields with
  | zero =>
    rw [List.length_eq_zero_iff.mp (Nat.le_zero.mp enough)] at fielded ⊢
    rw [eq_nil_of_isFields fielded]
    rfl
  | succ fuel ih =>
    rcases isFields_cases fielded with ⟨rfl, rfl⟩ |
      ⟨first, field, comma, rest, others, head, optional, ended, tail, rfl, rfl⟩
    · rfl
    · have nonempty := List.length_pos_iff.mpr (isField_ne_nil head)
      rw [List.length_append, List.length_append] at enough
      have later := ih tail (by omega)
      have ends : EndsField (comma ++ rest) := by
        cases optional with
        | absent =>
          rw [ended rfl]
          exact .finished
        | present => exact .comma
      obtain ⟨documented, named, typed⟩ := head
      rw [Parse.fields, run_bind_of_ok (run_peek _), if_neg (by simp), List.append_assoc,
        run_bind_of_ok (run_docs_of_isDocs documented rfl)]
      simp only [List.cons_append]
      rw [run_bind_of_ok (run_identifier_of_isName named), run_bind_of_ok (run_mark rfl _),
        run_bind_of_ok (run_fieldType_of_isFieldType typed ends)]
      exact (run_comma _ optional ended).trans (run_bind_of_ok later)

theorem run_fieldList_of_isFields {fields : List Field} (fielded : IsFields False block fields) :
    fieldList.run ⟨.group .curly block :: rest, none⟩ = .ok (fields, ⟨rest, none⟩) := by
  refine run_group ?_
  rw [run_bind_of_ok (run_peek _)]
  exact run_fields_of_isFields fielded (Nat.le_refl _)

theorem run_identity_of_isIdentity {identity : TypeIdentity}
    (identified : IsIdentity block identity) :
    Parse.identity.run ⟨.group .round block :: rest, none⟩ = .ok (identity, ⟨rest, none⟩) := by
  refine run_group ?_
  cases identified with
  | @mk _ _ comma _ trailing =>
    rw [run_bind_of_ok (run_stringLiteral _), run_bind_of_ok (run_mark rfl _),
      run_bind_of_ok (run_stringLiteral _), ← List.append_nil comma]
    exact run_comma _ trailing fun _ => rfl

theorem run_head_of_isHead {name : String} {identity : TypeIdentity}
    (headed : IsHead block (name, identity)) :
    head.run ⟨block ++ rest, none⟩ = .ok ((name, identity), ⟨rest, none⟩) := by
  cases headed with
  | mk named identified =>
    simp only [List.cons_append, List.nil_append]
    rw [head, run_bind_of_ok (run_identifier_of_isName named), run_bind_of_ok (run_mark rfl _),
      run_bind_of_ok (run_identity_of_isIdentity identified)]
    rfl

theorem run_entry_of_isEntry {entry : Entry} (declared : IsEntry False block entry) :
    Parse.entry.run ⟨block ++ rest, none⟩ = .ok (entry, ⟨rest, none⟩) := by
  cases declared with
  | message documented headed fielded =>
    simp only [List.append_assoc, List.cons_append, List.nil_append]
    rw [Parse.entry, run_bind_of_ok (run_docs_of_isDocs documented rfl),
      run_bind_of_ok (run_peek _)]
    simp only
    rw [run_bind_of_ok (run_advance _ _), run_bind_of_ok (run_head_of_isHead headed)]
    exact run_bind_of_ok (run_fieldList_of_isFields fielded)
  | «alias» documented headed named =>
    simp only [List.append_assoc, List.cons_append, List.nil_append]
    rw [Parse.entry, run_bind_of_ok (run_docs_of_isDocs documented rfl),
      run_bind_of_ok (run_peek _)]
    simp only
    rw [run_bind_of_ok (run_advance _ _), run_bind_of_ok (run_head_of_isHead headed)]
    simp only
    rw [run_bind_of_ok (run_typeRef_of_isName named), run_bind_of_ok (run_mark rfl _)]
    rfl
  | service documented headed requested replied =>
    simp only [List.append_assoc, List.cons_append, List.nil_append]
    rw [Parse.entry, run_bind_of_ok (run_docs_of_isDocs documented rfl),
      run_bind_of_ok (run_peek _)]
    simp only
    rw [run_bind_of_ok (run_advance _ _), run_bind_of_ok (run_head_of_isHead headed)]
    refine run_group ?_
    rw [run_bind_of_ok (run_keyword _), run_bind_of_ok (run_fieldList_of_isFields requested),
      run_bind_of_ok (run_keyword _), run_bind_of_ok (run_fieldList_of_isFields replied)]
    rfl

theorem run_entries_of_many {tokens : List TokenTree} {entries : List Entry}
    (declared : Many (IsEntry False) tokens entries) {fuel : Nat} (enough : tokens.length ≤ fuel) :
    (Parse.entries fuel).run ⟨tokens, none⟩ = .ok (entries, ⟨[], none⟩) := by
  induction declared generalizing fuel with
  | nil => cases fuel <;> rfl
  | @cons first others entry entries head tail ih =>
    have nonempty := List.length_pos_iff.mpr (isEntry_ne_nil head)
    rw [List.length_append] at enough
    cases fuel with
    | zero => omega
    | succ fuel =>
      have more : (first ++ others).isEmpty = false :=
        List.isEmpty_eq_false_iff.mpr (List.append_ne_nil_of_left_ne_nil (isEntry_ne_nil head) _)
      rw [Parse.entries, run_bind_of_ok (run_peek _), more, if_neg (by decide),
        run_bind_of_ok (run_entry_of_isEntry head), run_bind_of_ok (ih (by omega))]
      rfl

end Parse

/-- Whatever derives from the grammar is read as what it declares. -/
theorem ofTokens_of_isTable {tokens : List TokenTree} {schema : Schema}
    (table : Grammar.IsTable False tokens schema) : ofTokens tokens = .ok schema := by
  have read := Parse.run_entries_of_many table (Nat.le_refl _)
  rw [ofTokens, read]
  rfl

end WireSchema.Table
