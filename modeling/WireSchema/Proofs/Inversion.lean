import WireSchema.Proofs.TableReading

/-! What a reader that went well has read, and what it can have answered. -/

namespace WireSchema.Table

open Token

namespace Parse

variable {α β : Type} {s t : Remaining} {value : α}

section Steps

/-- A reading of two parts went well in both. -/
theorem exists_of_run_bind {read : Parse α} {next : α → Parse β} {result : β}
    (done : (read >>= next).run s = .ok (result, t)) :
    ∃ value u, read.run s = .ok (value, u) ∧ (next value).run u = .ok (result, t) := by
  rw [StateT.run_bind] at done
  cases first : read.run s with
  | error why =>
    rw [first] at done
    cases done
  | ok found =>
    rw [first] at done
    exact ⟨found.1, found.2, rfl, done⟩

theorem eq_of_run_pure {result : α} (done : (pure value : Parse α).run s = .ok (result, t)) :
    value = result ∧ s = t := by
  cases done
  exact ⟨rfl, rfl⟩

theorem not_run_throw {why : TableError} : (throw why : Parse α).run s ≠ .ok (value, t) := nofun

theorem not_run_missing {expected : List Expected} :
    (missing expected : Parse α).run s ≠ .ok (value, t) := nofun

theorem startsMarks_singleton {c : Char} {tokens : List TokenTree}
    (starts : startsMarks [c] tokens = true) : ∃ joint rest, tokens = .mark c joint :: rest := by
  match tokens, starts with
  | .mark found joint :: rest, starts =>
    simp only [startsMarks, decide_eq_true_eq] at starts
    exact ⟨joint, rest, by rw [starts]⟩

theorem exists_of_run_mark {text : String} {c : Char} (single : text.toList = [c]) {u : Unit}
    (done : (mark text).run s = .ok (u, t)) :
    ∃ joint, s = ⟨.mark c joint :: t.tokens, t.leftOver⟩ := by
  rw [mark] at done
  obtain ⟨found, u, sees, done⟩ := exists_of_run_bind done
  cases sees
  split at done
  · rename_i starts
    rw [atMark, single] at starts
    obtain ⟨joint, rest, shape⟩ := startsMarks_singleton starts
    obtain ⟨tokens, left⟩ := s
    obtain rfl : tokens = .mark c joint :: rest := shape
    have width : text.length = 1 := by
      rw [← String.length_toList, single]
      rfl
    rw [skip, run_bind_of_ok (run_peek _), width] at done
    cases done
    exact ⟨joint, rfl⟩
  · exact (not_run_throw done).elim

theorem exists_of_run_keyword {word : String} {u : Unit}
    (done : (keyword word).run s = .ok (u, t)) : s = ⟨.word word :: t.tokens, t.leftOver⟩ := by
  rw [keyword] at done
  obtain ⟨found, u, sees, next⟩ := exists_of_run_bind done
  cases sees
  split at next
  · rename_i starts
    obtain ⟨tokens, left⟩ := s
    cases tokens with
    | nil => cases starts
    | cons token rest =>
      cases token with
      | word found =>
        obtain rfl : found = word := of_decide_eq_true starts
        cases next
        rfl
      | _ => cases starts
  · exact (not_run_missing next).elim

theorem exists_of_run_identifier {name : String} (done : identifier.run s = .ok (name, t)) :
    isName name = true ∧ s = ⟨.word name :: t.tokens, t.leftOver⟩ := by
  rw [identifier, run_bind_of_ok (run_peek _)] at done
  obtain ⟨tokens, left⟩ := s
  simp only at done
  split at done
  · rename_i word rest
    cases named : isName word with
    | false =>
      rw [named] at done
      cases done
    | true =>
      rw [named] at done
      cases done
      exact ⟨named, rfl⟩
  · exact (not_run_missing done).elim

theorem exists_of_run_typeRef {element : TypeRef} (done : typeRef.run s = .ok (element, t)) :
    ∃ name, isName name = true ∧ element = .ofName name ∧
      s = ⟨.word name :: t.tokens, t.leftOver⟩ := by
  rw [typeRef] at done
  obtain ⟨name, u, read, done⟩ := exists_of_run_bind done
  obtain ⟨rfl, rfl⟩ := eq_of_run_pure done
  obtain ⟨named, same⟩ := exists_of_run_identifier read
  exact ⟨name, named, rfl, same⟩

theorem exists_of_run_stringLiteral {text : String} (done : stringLiteral.run s = .ok (text, t)) :
    s = ⟨.literal (.string text) :: t.tokens, t.leftOver⟩ := by
  rw [stringLiteral, run_bind_of_ok (run_peek _)] at done
  obtain ⟨tokens, left⟩ := s
  simp only at done
  split at done
  · cases done
    rfl
  · exact (not_run_missing done).elim

theorem exists_of_run_length {n : Nat} (done : length.run s = .ok (n, t)) :
    ∃ suffix, n < wordLimit ∧ s = ⟨.literal (.integer n suffix) :: t.tokens, t.leftOver⟩ := by
  rw [length, run_bind_of_ok (run_peek _)] at done
  obtain ⟨tokens, left⟩ := s
  simp only at done
  split at done
  · split at done
    · rename_i small
      cases done
      exact ⟨_, small, rfl⟩
    · exact (not_run_throw done).elim
  · exact (not_run_throw done).elim
  · exact (not_run_missing done).elim

theorem atGroup_of_run_group {bracket : Bracket} {inside : Parse α}
    (done : (group bracket inside).run s = .ok (value, t)) : atGroup bracket s.tokens = true := by
  rw [group, run_bind_of_ok (run_peek _)] at done
  split at done
  · rename_i found body rest shape
    rw [shape]
    split at done
    · rename_i same
      exact decide_eq_true same
    · exact (not_run_missing done).elim
  · exact (not_run_missing done).elim

/-- A group that leaves nothing over was read to its end. -/
theorem exists_of_run_group {bracket : Bracket} {inside : Parse α}
    (done : (group bracket inside).run s = .ok (value, t)) (clean : t.leftOver = none) :
    ∃ body, s.tokens = .group bracket body :: t.tokens ∧
      inside.run ⟨body, s.leftOver⟩ = .ok (value, ⟨[], none⟩) := by
  rw [group, run_bind_of_ok (run_peek _)] at done
  split at done
  · rename_i found body rest shape
    split at done
    · rename_i same
      subst same
      rw [run_bind_of_ok (run_advance _ _)] at done
      obtain ⟨value, ⟨tokens, left⟩, read, done⟩ := exists_of_run_bind done
      cases done
      cases left with
      | some => cases clean
      | none =>
        cases tokens with
        | cons => cases clean
        | nil => exact ⟨body, shape, read⟩
    · exact (not_run_missing done).elim
  · exact (not_run_missing done).elim

end Steps

section Tests

theorem run_sees (test : List TokenTree → Bool) (s : Remaining) :
    (sees test).run s = .ok (test s.tokens, s) := rfl

theorem run_skip (n : Nat) (s : Remaining) :
    (skip n).run s = .ok ((), ⟨s.tokens.drop n, s.leftOver⟩) := rfl

/-- What is passed over only if it is there leaves everything where it is missing. -/
theorem eq_of_run_accept {test : List TokenTree → Bool} {pass : Parse Unit}
    (absent : (do
      let found ← sees test
      if found then pass
      return found : Parse Bool).run s = .ok (false, t)) : s = t := by
  rw [run_bind_of_ok (run_sees _ _)] at absent
  cases found : test s.tokens with
  | false =>
    rw [found] at absent
    cases absent
    rfl
  | true =>
    rw [found, if_pos rfl] at absent
    obtain ⟨_, u, -, last⟩ := exists_of_run_bind absent
    cases last

theorem eq_of_run_acceptMark {text : String}
    (absent : (acceptMark text).run s = .ok (false, t)) : s = t := eq_of_run_accept absent

theorem eq_of_run_acceptWord {word : String}
    (absent : (acceptWord word).run s = .ok (false, t)) : s = t := eq_of_run_accept absent

end Tests

section Answers

def Gives (good : α → Prop) (read : Parse α) : Prop :=
  ∀ s value t, read.run s = .ok (value, t) → good value

variable {good : α → Prop}

theorem gives_pure (holds : good value) : Gives good (pure value) := by
  intro s result t done
  obtain ⟨rfl, rfl⟩ := eq_of_run_pure done
  exact holds

theorem gives_bind {read : Parse β} {next : β → Parse α}
    (gives : ∀ value, Gives good (next value)) : Gives good (read >>= next) := by
  intro s result t done
  obtain ⟨value, u, -, done⟩ := exists_of_run_bind done
  exact gives value u result t done

theorem gives_throw (why : TableError) : Gives good (throw why) :=
  fun _ _ _ done => (not_run_throw done).elim

theorem gives_missing (expected : List Expected) : Gives good (missing expected) :=
  fun _ _ _ done => (not_run_missing done).elim

theorem gives_ite {condition : Prop} [Decidable condition] {first second : Parse α}
    (gives : Gives good first) (gives' : Gives good second) :
    Gives good (if condition then first else second) := by
  split
  · exact gives
  · exact gives'

def Idle (read : Parse (Option α)) : Prop :=
  ∀ s t, read.run s = .ok (none, t) → s = t

theorem idle_none : Idle (pure none : Parse (Option α)) :=
  fun _ _ done => (eq_of_run_pure done).2

theorem idle_of_gives {read : Parse (Option α)} (gives : Gives (· ≠ none) read) : Idle read :=
  fun _ _ done => absurd rfl (gives _ _ _ done)

theorem idle_some {read : Parse β} {next : β → α} :
    Idle (do return some (next (← read))) :=
  idle_of_gives (gives_bind fun _ => gives_pure nofun)

theorem idle_peek {next : List TokenTree → Parse (Option α)} (idle : ∀ tokens, Idle (next tokens)) :
    Idle (peek >>= next) := by
  intro s t done
  rw [run_bind_of_ok (run_peek _)] at done
  exact idle _ _ _ done

theorem idle_ite {condition : Prop} [Decidable condition] {first second : Parse (Option α)}
    (idle : Idle first) (idle' : Idle second) : Idle (if condition then first else second) := by
  split
  · exact idle
  · exact idle'

theorem idle_acceptMark {text : String} {next : Bool → Parse (Option α)}
    (made : Gives (· ≠ none) (next true)) (idle : Idle (next false)) :
    Idle (acceptMark text >>= next) := by
  intro s t done
  obtain ⟨found, u, accepted, done⟩ := exists_of_run_bind done
  cases found with
  | false =>
    obtain rfl := eq_of_run_acceptMark accepted
    exact idle _ _ done
  | true => exact absurd rfl (made _ _ _ done)

/-- A value that no step makes is the one there was at first, and nothing has been read. -/
theorem eq_of_run_grow {step : α → Parse (Option α)}
    (made : ∀ value, Gives (fun next => ∀ shape ∈ next, good shape) (step value))
    (idle : ∀ value, Idle (step value)) {last : α}
    (done : (grow value step).run s = .ok (last, t)) (bad : ¬ good last) :
    value = last ∧ s = t := by
  rw [grow, run_bind_of_ok (run_peek _)] at done
  generalize s.tokens.length + 1 = fuel at done
  induction fuel generalizing value s with
  | zero => exact eq_of_run_pure done
  | succ fuel ih =>
    rw [growUpTo] at done
    obtain ⟨next, u, stepped, done⟩ := exists_of_run_bind done
    cases next with
    | none =>
      obtain ⟨rfl, rfl⟩ := eq_of_run_pure done
      exact ⟨rfl, idle value _ _ stepped⟩
    | some next =>
      obtain ⟨rfl, -⟩ := ih done
      exact (bad (made value _ _ _ stepped next rfl)).elim

end Answers

end Parse

end WireSchema.Table
