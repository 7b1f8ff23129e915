import Mathlib.Tactic
import WireSchema.WireType.Codec

/-! How steps that may fail follow one another, and how a list of them is cut into parts. -/

namespace WireSchema

section Bind

variable {ε σ α β : Type} {step : EStateM ε σ α} {next : α → EStateM ε σ β} {before after : σ}

theorem bind_of_ok {value : α} (run : step before = .ok value after) :
    (step >>= next) before = next value after := by
  show EStateM.bind step next before = _
  rw [EStateM.bind, run]

theorem bind_of_error {e : ε} (run : step before = .error e after) :
    (step >>= next) before = .error e after := by
  show EStateM.bind step next before = _
  rw [EStateM.bind, run]

theorem bind_of_eq {other : EStateM ε σ α} (same : step before = other before) :
    (step >>= next) before = (other >>= next) before := by
  show EStateM.bind step next before = EStateM.bind other next before
  rw [EStateM.bind, EStateM.bind, same]

theorem bind_eq_ok {value : β} :
    (step >>= next) before = .ok value after ↔
      ∃ first middle, step before = .ok first middle ∧ next first middle = .ok value after := by
  cases run : step before with
  | ok first middle =>
    rw [bind_of_ok run]
    constructor
    · intro done
      exact ⟨first, middle, rfl, done⟩
    · intro ran
      rcases ran with ⟨_, _, same, done⟩
      cases same
      exact done
  | error e middle =>
    rw [bind_of_error run]
    constructor
    · intro bad
      cases bad
    · intro ran
      rcases ran with ⟨_, _, bad, _⟩
      cases bad

/-- Two steps fail together if the first one fails, or the second one after it. -/
theorem bind_eq_error {e : ε} :
    (step >>= next) before = .error e after ↔
      step before = .error e after ∨
        ∃ first middle, step before = .ok first middle ∧ next first middle = .error e after := by
  cases run : step before with
  | ok first middle =>
    rw [bind_of_ok run]
    constructor
    · intro failed
      exact .inr ⟨first, middle, rfl, failed⟩
    · intro ran
      rcases ran with bad | ⟨_, _, same, failed⟩
      · cases bad
      · cases same
        exact failed
  | error e' middle =>
    rw [bind_of_error run]
    constructor
    · intro failed
      cases failed
      exact .inl rfl
    · intro ran
      rcases ran with same | ⟨_, _, bad, _⟩
      · cases same
        rfl
      · cases bad

end Bind

theorem encodeEach_append {α : Type} (encode : α → Write Unit) (front back : List α) :
    encodeEach encode (front ++ back) =
      (do encodeEach encode front; encodeEach encode back) := by
  induction front with
  | nil => rfl
  | cons item rest ih =>
    simp only [List.cons_append, encodeEach, ih, bind_assoc]

theorem encodeEach_singleton {α : Type} (encode : α → Write Unit) (item : α) :
    encodeEach encode [item] = encode item := by
  simp only [encodeEach]
  exact bind_pure (encode item)

/-- A list of composite items is written as the list of all their parts. -/
theorem encodeEach_flatMap {α β : Type} (encode : α → Write Unit) (part : β → Write Unit)
    (parts : α → List β) (whole : ∀ item, encode item = encodeEach part (parts item))
    (items : List α) : encodeEach encode items = encodeEach part (items.flatMap parts) := by
  induction items with
  | nil => rfl
  | cons item rest ih =>
    rw [List.flatMap_cons, encodeEach_append, ← whole, ← ih]
    rfl

end WireSchema
