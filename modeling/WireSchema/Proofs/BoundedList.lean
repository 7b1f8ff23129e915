import WireSchema.Proofs.Slots

/-! A sequence is a bounded list, whatever run of operations it has been through. -/

namespace WireSchema

namespace Sequence

variable {α : Type} (minimumSize : Nat) (decode : α → Reader → Decoded α)

def isExclusive : Sequence α → Bool
  | .shared _ => false
  | .exclusive .. => true

theorem size_le_capacity {s : Sequence α} (exclusive : s.isExclusive = true) :
    s.size ≤ s.capacity := by
  cases s with
  | shared items => cases exclusive
  | exclusive filled spare => simp [size, toList, capacity, storage]

theorem lent_of_not_exclusive {s : Sequence α} (shared : s.isExclusive = false) :
    s.capacity = 0 ∧ s.size = s.slots.cells.length := by
  cases s with
  | shared items => exact ⟨rfl, rfl⟩
  | exclusive filled spare => cases shared

theorem push_of_lt {s : Sequence α} (room : s.size < s.capacity) (value : α) :
    ∃ next, s.push value = .ok next ∧ next.toList = s.toList ++ [value] := by
  cases s with
  | shared items => cases room
  | exclusive filled spare =>
    cases spare with
    | nil => simp [size, toList, capacity, storage] at room
    | cons slot spare => exact ⟨_, rfl, rfl⟩

theorem push_of_le {s : Sequence α} (full : s.isExclusive = true → s.capacity ≤ s.size)
    (value : α) : s.push value = .error (.sequenceCapacity (s.size + 1) s.capacity) := by
  cases s with
  | shared items => rfl
  | exclusive filled spare =>
    cases spare with
    | nil => rfl
    | cons slot spare =>
      have fits := full rfl
      simp [size, toList, capacity, storage] at fits

def Keeps (before after : Sequence α) : Prop :=
  after.isExclusive = before.isExclusive ∧ after.capacity = before.capacity

theorem Keeps.refl (s : Sequence α) : s.Keeps s := ⟨rfl, rfl⟩

theorem Keeps.trans {first second third : Sequence α} (keeps : first.Keeps second)
    (keeps' : second.Keeps third) : first.Keeps third :=
  ⟨keeps'.1.trans keeps.1, keeps'.2.trans keeps.2⟩

theorem keeps_clear (s : Sequence α) : s.Keeps s.clear := by
  cases s <;> exact ⟨rfl, rfl⟩

theorem keeps_push {s next : Sequence α} {value : α} (pushed : s.push value = .ok next) :
    s.Keeps next := by
  cases s with
  | shared items => cases pushed
  | exclusive filled spare =>
    cases spare with
    | nil => cases pushed
    | cons slot spare =>
      cases pushed
      exact ⟨rfl, by simp [capacity, storage]⟩

theorem keeps_set {s next : Sequence α} {index : Nat} {value : α}
    (changed : s.set index value = .ok next) : s.Keeps next := by
  cases s with
  | shared items => cases changed
  | exclusive filled spare =>
    rw [set] at changed
    split at changed
    · cases changed
      exact ⟨rfl, by simp [capacity, storage]⟩
    · cases changed

theorem keeps_decodeInto (s : Sequence α) (r : Reader) :
    s.Keeps (s.decodeInto minimumSize decode r).target := by
  cases counted : Reader.count minimumSize r with
  | error e middle =>
    rw [decodeInto_of_error counted]
    exact .refl s
  | ok count middle =>
    rcases Nat.eq_zero_or_pos count with rfl | positive
    · rw [decodeInto_of_zero counted]
      exact keeps_clear s
    · rcases Nat.lt_or_ge s.storage.length count with scarce | room
      · rw [decodeInto_of_scarce counted scarce]
        exact .refl s
      · rw [decodeInto_of_room counted positive room]
        obtain ⟨filled, spare, rfl⟩ := exists_exclusive_of_room positive room
        refine ⟨rfl, ?_⟩
        rw [capacity, storage, ← List.append_assoc, List.length_append, length_fillEach,
          ← List.length_append, List.take_append_drop]
        rfl

theorem keeps_perform (s : Sequence α) (operation : Operation α) :
    s.Keeps (s.perform minimumSize decode operation).2 := by
  cases operation with
  | push value =>
    rw [perform]
    cases pushed : s.push value with
    | ok next => exact keeps_push pushed
    | error e => exact .refl s
  | clear => exact keeps_clear s
  | set index value =>
    rw [perform]
    cases changed : s.set index value with
    | ok next => exact keeps_set changed
    | error why => exact .refl s
  | decode r => exact keeps_decodeInto minimumSize decode s r

theorem keeps_performAll (s : Sequence α) (operations : List (Operation α)) :
    s.Keeps (s.performAll minimumSize decode operations).2 := by
  induction operations generalizing s with
  | nil => exact .refl s
  | cons operation rest ih => exact (keeps_perform minimumSize decode s operation).trans (ih _)

def Operation.MayFill (s : Sequence α) (index : Nat) : Operation α → Prop
  | .push _ => index = s.size
  | .clear | .set .. => False
  | .decode _ => True

theorem getElem?_perform (s : Sequence α) {operation : Operation α} {index : Nat}
    (behind : s.size ≤ index) (kept : ¬ operation.MayFill s index) :
    (s.perform minimumSize decode operation).2.slots.cells[index]? = s.slots.cells[index]? := by
  cases s with
  | shared items =>
    cases operation with
    | push value => rfl
    | clear => exact (List.getElem?_eq_none behind).symm
    | set changed value => rfl
    | decode r => exact (kept trivial).elim
  | exclusive filled spare =>
    have behind : filled.length ≤ index := behind
    cases operation with
    | push value =>
      cases spare with
      | nil => rfl
      | cons slot spare =>
        have later : filled.length < index := Nat.lt_of_le_of_ne behind (Ne.symm kept)
        have skipped (first : α) : (filled ++ [first] ++ spare)[index]? =
            spare[index - (filled.length + 1)]? := by
          rw [List.getElem?_append_right (by simpa using later), List.length_append,
            List.length_singleton]
        have parts :
            (exclusive filled (slot :: spare)).slots.cells = filled ++ [slot] ++ spare := by
          simp [slots]
        rw [parts, skipped]
        exact skipped value
    | clear => rfl
    | set changed value =>
      rw [perform, set]
      by_cases inside : changed < filled.length
      · simp only [inside, if_true]
        have beyond : (filled.set changed value).length ≤ index := by
          rw [List.length_set]
          exact behind
        show (filled.set changed value ++ spare)[index]? = (filled ++ spare)[index]?
        rw [List.getElem?_append_right beyond, List.getElem?_append_right behind, List.length_set]
      · simp only [inside, if_false]
    | decode r => exact (kept trivial).elim

/-- What a sequence is that came out of `origin`: a list in as many slots as it had then. What it is
encoded to and equal to is told by its elements alone. -/
structure IsBoundedList (origin s : Sequence α) : Prop where
  keeps : origin.Keeps s
  elements : s.slots.elements? = some s.toList
  size_le : s.isExclusive = true → s.size ≤ s.capacity
  lent : s.isExclusive = false → s.capacity = 0 ∧ s.size = s.slots.cells.length
  push_room : ∀ value, s.isExclusive = true → s.size < s.capacity →
    ∃ next, s.perform minimumSize decode (.push value) = (.done, next) ∧
      next.toList = s.toList ++ [value]
  push_full : ∀ value, (s.isExclusive = true → s.capacity ≤ s.size) →
    s.perform minimumSize decode (.push value) =
      (.failed (.sequenceCapacity (s.size + 1) s.capacity), s)
  clear : s.clear.toList = [] ∧ s.clear.capacity = s.capacity
  untouched : ∀ operation index, s.size ≤ index → ¬ Operation.MayFill s index operation →
    (s.perform minimumSize decode operation).2.slots.cells[index]? = s.slots.cells[index]?
  encode : ∀ write, s.slots.encode? write = some (Sequence.encode write (.shared s.toList))
  same : ∀ eq (t : Sequence α), s.slots.same? eq t.slots = some (s.toList.isEqv t.toList eq)

theorem isBoundedList_of_keeps {origin s : Sequence α} (keeps : origin.Keeps s) :
    IsBoundedList minimumSize decode origin s where
  keeps := keeps
  elements := elements?_slots s
  size_le := size_le_capacity
  lent := lent_of_not_exclusive
  push_room value _ room := by
    obtain ⟨next, pushed, appended⟩ := push_of_lt room value
    exact ⟨next, by rw [perform, pushed], appended⟩
  push_full value full := by
    rw [perform, push_of_le full value]
  clear := ⟨toList_clear s, (keeps_clear s).2⟩
  untouched _ _ behind kept := getElem?_perform minimumSize decode s behind kept
  encode write := Slots.encode?_slots write s
  same eq t := Slots.same?_slots eq s t

/-- The second element cannot be decoded. The first one stays, and leaves room for one more. -/
example : (performAll 1 (replaceBy (Reader.scalar .bool)) (withStorage [false, false])
      [.decode ⟨0, [2, 0, 0, 0, 1, 2]⟩, .push true, .push true]).2 =
    exclusive [true, true] [] := rfl

end Sequence

end WireSchema
