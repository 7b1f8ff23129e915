import WireSchema.Proofs.Content
import WireSchema.Proofs.Reading
import WireSchema.WireType.Codec

/-! Decoding into a target accepts exactly what denotes a content the target can hold. -/

namespace WireSchema

/-- An attempt that succeeded: the target has the content `value`, the reader is `after`. -/
def Decoded.Yields {α β : Type} (decoded : Decoded α) (content : α → β) (value : β)
    (after : Reader) : Prop :=
  decoded.result = .ok () ∧ decoded.reader = after ∧ content decoded.target = value

structure Decodes {α β : Type} (decode : α → Reader → Decoded α)
    (denotes : Nat → List UInt8 → β → Prop) (canHold : α → β → Prop) (content : α → β) :
    Prop where
  yields : ∀ {target : α} {before after : Reader} {value : β},
    (decode target before).Yields content value after ↔
      before.Takes after (denotes · · value) ∧ canHold target value

theorem decodes_replaceBy {α : Type} {read : Read α} {denotes : Nat → List UInt8 → α → Prop}
    (reads : Reads read denotes) :
    Decodes (replaceBy read) denotes (fun _ _ => True) (fun value => value) := by
  constructor
  intro target before after value
  rw [and_true, ← reads.eq_ok, replaceBy]
  cases read before with
  | ok found middle =>
    constructor
    · intro yields
      rcases yields with ⟨_, rfl, rfl⟩
      rfl
    · intro same
      cases same
      exact ⟨rfl, rfl, rfl⟩
  | error e middle =>
    constructor
    · intro yields
      cases yields.1
    · intro failed
      cases failed

section FillEach

variable {α β : Type} {decode : α → Reader → Decoded α} {slot : α} {slots : List α} {r : Reader}

theorem fillEach_cons_of_ok (first : (decode slot r).result = .ok ()) :
    fillEach decode (slot :: slots) r =
      { fillEach decode slots (decode slot r).reader with
        done := (decode slot r).target ::
          (fillEach decode slots (decode slot r).reader).done } := by
  rw [fillEach]
  split
  · rename_i failed
    rw [failed] at first
    cases first
  · rename_i done
    rw [done]

theorem fillEach_cons_of_error {e : CodecError} (first : (decode slot r).result = .error e) :
    fillEach decode (slot :: slots) r =
      ⟨[], (decode slot r).target :: slots, (decode slot r).reader, .error e⟩ := by
  rw [fillEach]
  split
  · rename_i failed
    rw [failed] at first ⊢
    cases first
    rfl
  · rename_i done
    rw [done] at first
    cases first

theorem fillEach_cons_of_ne (first : (decode slot r).result ≠ .ok ()) :
    (fillEach decode (slot :: slots) r).result ≠ .ok () := by
  cases ended : (decode slot r).result with
  | ok _ => exact absurd ended first
  | error e =>
    rw [fillEach_cons_of_error ended]
    intro ok
    cases ok

theorem left_fillEach (filled : (fillEach decode slots r).result = .ok ()) :
    (fillEach decode slots r).left = [] := by
  induction slots generalizing r with
  | nil => rfl
  | cons slot rest ih =>
    by_cases first : (decode slot r).result = .ok ()
    · rw [fillEach_cons_of_ok first] at filled ⊢
      exact ih filled
    · exact absurd filled (fillEach_cons_of_ne first)

theorem length_done_fillEach (filled : (fillEach decode slots r).result = .ok ()) :
    (fillEach decode slots r).done.length = slots.length := by
  rw [← length_fillEach decode slots r, left_fillEach filled, List.append_nil]

def Filling.Yields (filling : Filling α) (content : α → β) (values : List β) (after : Reader) :
    Prop :=
  filling.result = .ok () ∧ filling.reader = after ∧ filling.done.map content = values

theorem Filling.Yields.length_eq {content : α → β} {values : List β} {after : Reader}
    (yields : (fillEach decode slots r).Yields content values after) :
    values.length = slots.length := by
  rw [← yields.2.2, List.length_map, length_done_fillEach yields.1]

theorem fillEach_yields {denotes : Nat → List UInt8 → β → Prop} {canHold : α → β → Prop}
    {content : α → β} (element : Decodes decode denotes canHold content) {before after : Reader}
    {values : List β} :
    (fillEach decode slots before).Yields content values after ↔
      values.length = slots.length ∧ before.Takes after (DenotesEach denotes · · values) ∧
        CanHoldEach canHold slots values := by
  induction slots generalizing before values with
  | nil =>
    constructor
    · intro yields
      rcases yields with ⟨_, rfl, rfl⟩
      exact ⟨rfl, ⟨[], rfl, rfl, rfl⟩, trivial⟩
    · intro filled
      rcases filled with ⟨empty, ⟨block, parts, place, each⟩, _⟩
      obtain rfl := List.eq_nil_of_length_eq_zero empty
      obtain ⟨rfl, _⟩ := Reader.takes_nil.mp ⟨block, parts, place, each, trivial⟩
      exact ⟨rfl, rfl, rfl⟩
  | cons slot slots ih =>
    constructor
    · intro yields
      have start : (decode slot before).result = .ok () :=
        not_not.mp fun failed => fillEach_cons_of_ne failed yields.1
      rw [fillEach_cons_of_ok start] at yields
      rcases yields with ⟨filled, rfl, rfl⟩
      obtain ⟨head, fits⟩ := element.yields.mp ⟨start, rfl, rfl⟩
      obtain ⟨length, tail, fitsRest⟩ := ih.mp ⟨filled, rfl, rfl⟩
      exact ⟨congrArg Nat.succ length, (Reader.takes_append _ _).mpr ⟨_, head, tail⟩,
        fits, fitsRest⟩
    · intro filled
      rcases filled with ⟨length, taken, fits⟩
      cases values with
      | nil => cases length
      | cons value values =>
        obtain ⟨middle, head, tail⟩ :=
          (Reader.takes_append (denotes · · value) (DenotesEach denotes · · values)).mp taken
        obtain ⟨start, rfl, same⟩ := element.yields.mpr ⟨head, fits.1⟩
        obtain ⟨done, stop, same'⟩ := ih.mpr ⟨Nat.succ.inj length, tail, fits.2⟩
        rw [fillEach_cons_of_ok start]
        exact ⟨done, stop, congrArg₂ _ same same'⟩

end FillEach

section Sequence

variable {α β : Type} {decode : α → Reader → Decoded α} {content : α → β}

theorem toList_decodeVectorInto {n : Nat} (slots : Vector α n) (r : Reader) :
    (decodeVectorInto decode slots r).target.toList =
      (fillEach decode slots.toList r).done ++ (fillEach decode slots.toList r).left := rfl

theorem decodeVectorInto_yields {n : Nat} {slots : Vector α n} {r after : Reader}
    {values : Vector β n} :
    (decodeVectorInto decode slots r).Yields (Vector.map content) values after ↔
      (fillEach decode slots.toList r).Yields content values.toList after := by
  have whole (filled : (fillEach decode slots.toList r).result = .ok ()) :
      (decodeVectorInto decode slots r).target.toList = (fillEach decode slots.toList r).done := by
    rw [toList_decodeVectorInto, left_fillEach filled, List.append_nil]
  apply and_congr_right
  intro filled
  apply and_congr_right
  intro _
  rw [← Vector.toList_inj, Vector.toList_map, whole filled]

theorem decodes_vector {denotes : Nat → List UInt8 → β → Prop} {canHold : α → β → Prop}
    (element : Decodes decode denotes canHold content) (n : Nat) :
    Decodes (decodeVectorInto decode)
      (fun position block (values : Vector β n) =>
        DenotesEach denotes position block values.toList)
      (fun slots values => CanHoldEach canHold slots.toList values.toList)
      (Vector.map content) := by
  constructor
  intro slots before after values
  have length : values.toList.length = slots.toList.length :=
    Vector.length_toList.trans Vector.length_toList.symm
  rw [decodeVectorInto_yields, fillEach_yields element, and_iff_right length]

section Count

variable {size n : Nat} {s : Sequence α} {r middle after : Reader} {values : List β}

theorem Sequence.decodeInto_of_error {e : CodecError}
    (failed : Reader.count size r = .error e middle) :
    s.decodeInto size decode r = ⟨s, middle, .error e⟩ := by
  rw [Sequence.decodeInto, failed]

/-- A count of zero ends before the storage is looked at, shared storage included. -/
theorem Sequence.decodeInto_of_zero (counted : Reader.count size r = .ok 0 middle) :
    s.decodeInto size decode r = ⟨s.clear, middle, .ok ()⟩ := by
  rw [Sequence.decodeInto, counted]
  rfl

theorem Sequence.decodeInto_of_scarce (counted : Reader.count size r = .ok n middle)
    (scarce : s.storage.length < n) :
    s.decodeInto size decode r = ⟨s, middle, .error (.sequenceCapacity n s.capacity)⟩ := by
  rw [Sequence.decodeInto, counted]
  cases n with
  | zero => cases scarce
  | succ n =>
    cases s with
    | shared items => rfl
    | exclusive filled spare => exact if_pos scarce

theorem Sequence.decodeInto_of_room (counted : Reader.count size r = .ok n middle)
    (positive : 0 < n) (room : n ≤ s.storage.length) :
    s.decodeInto size decode r =
      ⟨.exclusive (fillEach decode (s.storage.take n) middle).done
          ((fillEach decode (s.storage.take n) middle).left ++ s.storage.drop n),
        (fillEach decode (s.storage.take n) middle).reader,
        (fillEach decode (s.storage.take n) middle).result⟩ := by
  rw [Sequence.decodeInto, counted]
  cases n with
  | zero => cases positive
  | succ n =>
    cases s with
    | shared items => cases room
    | exclusive filled spare => exact if_neg (Nat.not_lt.mpr room)

theorem Sequence.decodeInto_of_le (counted : Reader.count size r = .ok n middle)
    (room : n ≤ s.storage.length) :
    (s.decodeInto size decode r).Yields (fun s => s.toList.map content) values after ↔
      (fillEach decode (s.storage.take n) middle).Yields content values after := by
  rcases Nat.eq_zero_or_pos n with rfl | positive
  · rw [Sequence.decodeInto_of_zero counted]
    cases s <;> exact Iff.rfl
  · rw [Sequence.decodeInto_of_room counted positive room]
    exact Iff.rfl

theorem Sequence.decodeInto_of_lt (counted : Reader.count size r = .ok n middle)
    (scarce : s.storage.length < n) : (s.decodeInto size decode r).result ≠ .ok () := by
  rw [Sequence.decodeInto_of_scarce counted scarce]
  intro ended
  cases ended

/-- A success has read the count and filled the first slots. -/
theorem Sequence.decodeInto_yields :
    (s.decodeInto size decode r).Yields (fun s => s.toList.map content) values after ↔
      ∃ middle, Reader.count size r = .ok values.length middle ∧
        values.length ≤ s.storage.length ∧
        (fillEach decode (s.storage.take values.length) middle).Yields content values after := by
  constructor
  · intro yields
    cases counted : Reader.count size r with
    | error e middle =>
      rw [Sequence.decodeInto, counted] at yields
      cases yields.1
    | ok n middle =>
      have room : n ≤ s.storage.length :=
        Nat.le_of_not_lt fun scarce => Sequence.decodeInto_of_lt counted scarce yields.1
      have filled := (Sequence.decodeInto_of_le counted room).mp yields
      have length : values.length = n := by
        rw [filled.length_eq, List.length_take, Nat.min_eq_left room]
      rw [length]
      exact ⟨middle, rfl, room, filled⟩
  · intro decoded
    rcases decoded with ⟨middle, counted, room, filled⟩
    exact (Sequence.decodeInto_of_le counted room).mpr filled

end Count

/-- The early check refuses nothing that the elements behind the count would not refuse too: they
take at least `size` bytes each. -/
theorem decodes_sequence {denotes : Nat → List UInt8 → β → Prop} {canHold : α → β → Prop}
    {size : Nat} (element : Decodes decode denotes canHold content)
    (least : ∀ {offset block value}, denotes offset block value → size ≤ block.length) :
    Decodes (Sequence.decodeInto size decode) (DenotesSequence denotes)
      (fun target values => CanHoldEach canHold target.storage values)
      (fun s => s.toList.map content) := by
  constructor
  intro target before after values
  rw [Sequence.decodeInto_yields]
  constructor
  · intro decoded
    rcases decoded with ⟨middle, counted, room, filled⟩
    have count := Reader.reads_word.eq_ok.mp (Reader.count_eq_ok.mp counted).1
    obtain ⟨_, body, fits⟩ := (fillEach_yields element).mp filled
    refine ⟨(Reader.takes_append _ _).mpr ⟨middle, count, body⟩, ?_⟩
    -- Slots behind the last element may hold anything.
    have more := canHoldEach_append (target.storage.drop values.length) fits
    rwa [List.take_append_drop] at more
  · intro held
    rcases held with ⟨taken, fits⟩
    obtain ⟨middle, count, body⟩ := (Reader.takes_append
      (DenotesNumber · · values.length) (DenotesEach denotes · · values)).mp taken
    have ⟨block, parts, _, each⟩ := body
    have room := length_le_of_canHoldEach fits
    have length : values.length = (target.storage.take values.length).length := by
      rw [List.length_take, Nat.min_eq_left room]
    have enough : min (values.length * size) (wordLimit - 1) ≤ middle.unread.length :=
      calc min (values.length * size) (wordLimit - 1)
          ≤ values.length * size := Nat.min_le_left _ _
        _ ≤ block.length := mul_le_of_denotesEach least each
        _ ≤ middle.unread.length := by simp [parts]
    exact ⟨middle, Reader.count_eq_ok.mpr ⟨Reader.reads_word.eq_ok.mpr count, enough⟩, room,
      (fillEach_yields element).mpr ⟨length, body, canHoldEach_take fits⟩⟩

end Sequence

section Fields

variable {type : WireType} {name : String} {rest : Fields} {value : type.Value}
  {values : rest.Value} {r : Reader}

theorem Fields.decodeInto_cons_of_ok (first : (type.decodeInto value r).result = .ok ()) :
    (Fields.cons name type rest).decodeInto (value, values) r =
      ⟨((type.decodeInto value r).target,
          (rest.decodeInto values (type.decodeInto value r).reader).target),
        (rest.decodeInto values (type.decodeInto value r).reader).reader,
        (rest.decodeInto values (type.decodeInto value r).reader).result⟩ := by
  rw [Fields.decodeInto]
  split
  · rename_i failed
    rw [failed] at first
    cases first
  · rename_i done
    rw [done]

theorem Fields.decodeInto_cons_of_error {e : CodecError}
    (first : (type.decodeInto value r).result = .error e) :
    (Fields.cons name type rest).decodeInto (value, values) r =
      ⟨((type.decodeInto value r).target, values), (type.decodeInto value r).reader, .error e⟩ := by
  rw [Fields.decodeInto]
  split
  · rename_i failed
    rw [failed] at first ⊢
    cases first
    rfl
  · rename_i done
    rw [done] at first
    cases first

theorem Fields.decodeInto_cons_of_ne (first : (type.decodeInto value r).result ≠ .ok ()) :
    ((Fields.cons name type rest).decodeInto (value, values) r).result ≠ .ok () := by
  cases ended : (type.decodeInto value r).result with
  | ok _ => exact absurd ended first
  | error e =>
    rw [Fields.decodeInto_cons_of_error ended]
    intro ok
    cases ok

theorem Fields.decodes_nil : Decodes Fields.nil.decodeInto Fields.nil.Denotes Fields.nil.CanHold
    Fields.nil.content := by
  constructor
  intro target before after contents
  constructor
  · intro yields
    rcases yields with ⟨_, rfl, _⟩
    exact ⟨⟨[], rfl, rfl, rfl⟩, trivial⟩
  · intro held
    rcases held with ⟨⟨block, parts, place, empty⟩, _⟩
    obtain ⟨rfl, _⟩ := Reader.takes_nil.mp ⟨block, parts, place, empty, trivial⟩
    exact ⟨rfl, rfl, rfl⟩

theorem Fields.decodes_cons
    (first : Decodes type.decodeInto type.Denotes type.CanHold type.content)
    (others : Decodes rest.decodeInto rest.Denotes rest.CanHold rest.content) :
    Decodes (Fields.cons name type rest).decodeInto (Fields.cons name type rest).Denotes
      (Fields.cons name type rest).CanHold (Fields.cons name type rest).content := by
  constructor
  intro targets before after contents
  rcases targets with ⟨target, targets⟩
  rcases contents with ⟨content, contents⟩
  constructor
  · intro yields
    have start : (type.decodeInto target before).result = .ok () :=
      not_not.mp fun failed => Fields.decodeInto_cons_of_ne failed yields.1
    rw [Fields.decodeInto_cons_of_ok start] at yields
    rcases yields with ⟨done, rfl, same⟩
    cases same
    obtain ⟨head, fits⟩ := first.yields.mp ⟨start, rfl, rfl⟩
    obtain ⟨tail, fitsRest⟩ := others.yields.mp ⟨done, rfl, rfl⟩
    exact ⟨(Reader.takes_append _ _).mpr ⟨_, head, tail⟩, fits, fitsRest⟩
  · intro held
    rcases held with ⟨taken, fits, fitsRest⟩
    obtain ⟨middle, head, tail⟩ := (Reader.takes_append
      (type.Denotes · · content) (rest.Denotes · · contents)).mp taken
    obtain ⟨start, rfl, same⟩ := first.yields.mpr ⟨head, fits⟩
    obtain ⟨done, stop, same'⟩ := others.yields.mpr ⟨tail, fitsRest⟩
    rw [Fields.decodeInto_cons_of_ok start]
    exact ⟨done, stop, congrArg₂ Prod.mk same same'⟩

end Fields

mutual

theorem WireType.decodes : (type : WireType) →
    Decodes type.decodeInto type.Denotes type.CanHold type.content
  | .scalar kind => decodes_replaceBy (Reader.reads_scalar kind)
  | .string => decodes_replaceBy Reader.reads_string
  | .array element length => decodes_vector element.decodes length
  | .sequence element => decodes_sequence element.decodes element.minimumSize_le
  | .record _ _ fields => ⟨fields.decodes.yields⟩
  | .alias _ target => ⟨target.decodes.yields⟩

theorem Fields.decodes : (fields : Fields) →
    Decodes fields.decodeInto fields.Denotes fields.CanHold fields.content
  | .nil => Fields.decodes_nil
  | .cons _ type rest => Fields.decodes_cons type.decodes rest.decodes

end

end WireSchema
