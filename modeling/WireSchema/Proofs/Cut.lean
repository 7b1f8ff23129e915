import WireSchema.Proofs.Refusal
import WireSchema.Proofs.Room

/-! What a failure leaves of a target, said without decoding it. -/

namespace WireSchema

/-- No block that begins here denotes anything. -/
def Reader.Lacks {α : Type} (r : Reader) (denotes : Nat → List UInt8 → α → Prop) : Prop :=
  ∀ after value, ¬ r.Takes after (denotes · · value)

section Definitions

variable {α β : Type}

/-- Slots cut at one of them: `done` replaces the slots before it, by what the bytes denote, and
`left` is this one, cut itself, with the untouched slots behind it. -/
def CutEach (denotes : Nat → List UInt8 → β → Prop) (content : α → β)
    (cut : α → Reader → CodecError → α → Prop) (slots : List α) (r : Reader) (e : CodecError)
    (done left : List α) : Prop :=
  ∃ before slot behind, slots = before ++ slot :: behind ∧ done.length = before.length ∧
    ∃ middle, r.Takes middle (DenotesEach denotes · · (done.map content)) ∧
      ∃ slot', cut slot middle e slot' ∧ left = slot' :: behind

/-- A sequence with elements of at least `size` bytes. Only a failure at an element changes it:
its elements are then those before the failure. -/
inductive CutSequence (size : Nat)
    (cutEach : List α → Reader → CodecError → List α → List α → Prop) (target : Sequence α)
    (r : Reader) : CodecError → Sequence α → Prop where
  | noCount {e : CodecError} (short : r.Short 4 e) : CutSequence size cutEach target r e target
  | fewBytes {n : Nat} {middle : Reader} (count : r.Takes middle (DenotesNumber · · n))
      (few : middle.unread.length < countNeeded n size) :
      CutSequence size cutEach target r
        (.decodeUnderflow r.position (countNeeded n size) middle.unread.length) target
  | fewSlots {n : Nat} {middle : Reader} (count : r.Takes middle (DenotesNumber · · n))
      (enough : countNeeded n size ≤ middle.unread.length) (few : target.capacity < n) :
      CutSequence size cutEach target r (.sequenceCapacity n target.capacity) target
  | atElement {n : Nat} {middle : Reader} {e : CodecError} {done left : List α}
      (count : r.Takes middle (DenotesNumber · · n))
      (enough : countNeeded n size ≤ middle.unread.length) (room : n ≤ target.capacity)
      (elements : cutEach (target.storage.take n) middle e done left) :
      CutSequence size cutEach target r e (.exclusive done (left ++ target.storage.drop n))

end Definitions

mutual

/-- A failure `e` of reading from `r` on leaves `left` of the target. -/
def WireType.Cut : (type : WireType) → (target : type.Value) → (r : Reader) → (e : CodecError) →
    (left : type.Value) → Prop
  | .scalar kind, target, r, e, left => left = target ∧ r.Short kind.width e
  | .string, target, r, _, left => left = target ∧ r.Lacks DenotesString
  | .array element _, slots, r, e, left => ∃ done rest, Vector.toList left = done ++ rest ∧
    CutEach element.Denotes element.content element.Cut (Vector.toList slots) r e done rest
  | .sequence element, target, r, e, left =>
    CutSequence element.minimumSize (CutEach element.Denotes element.content element.Cut)
      target r e left
  | .record _ _ fields, targets, r, e, left => fields.Cut targets r e left
  | .alias _ aliased, target, r, e, left => aliased.Cut target r e left

def Fields.Cut : (fields : Fields) → (targets : fields.Value) → (r : Reader) →
    (e : CodecError) → (left : fields.Value) → Prop
  | .nil, (), _, _, () => False
  | .cons _ type rest, (target, targets), r, e, (first, others) =>
    (type.Cut target r e first ∧ others = targets) ∨
      ∃ middle, r.Takes middle (type.Denotes · · (type.content first)) ∧
        rest.Cut targets middle e others

end

structure Cuts {α : Type} (decode : α → Reader → Decoded α)
    (cut : α → Reader → CodecError → α → Prop) : Prop where
  leaves : ∀ {target : α} {r : Reader} {e : CodecError}, (decode target r).result = .error e →
    cut target r e (decode target r).target

theorem replaceBy_eq_error {α : Type} {read : Read α} {target : α} {r : Reader} {e : CodecError}
    (failed : (replaceBy read target r).result = .error e) :
    (replaceBy read target r).target = target ∧ ∃ after, read r = .error e after := by
  rw [replaceBy] at failed ⊢
  cases ran : read r with
  | ok value after =>
    rw [ran] at failed
    cases failed
  | error e' after =>
    rw [ran] at failed
    cases failed
    exact ⟨rfl, after, rfl⟩

theorem cuts_scalar (kind : Scalar) :
    Cuts (WireType.scalar kind).decodeInto (WireType.scalar kind).Cut := by
  constructor
  intro target r e failed
  obtain ⟨same, _, ran⟩ := replaceBy_eq_error failed
  exact ⟨same, (Reader.scalar_eq_error.mp ran).1⟩

theorem cuts_string : Cuts WireType.string.decodeInto WireType.string.Cut := by
  constructor
  intro target r e failed
  obtain ⟨same, _, ran⟩ := replaceBy_eq_error failed
  refine ⟨same, fun after text taken => ?_⟩
  rw [Reader.reads_string.eq_ok.mpr taken] at ran
  cases ran

section FillEach

variable {α β : Type} {decode : α → Reader → Decoded α} {content : α → β}
  {denotes : Nat → List UInt8 → β → Prop} {canHold : α → β → Prop}
  {cut : α → Reader → CodecError → α → Prop}

theorem fillEach_cuts (element : Decodes decode denotes canHold content) (cuts : Cuts decode cut)
    {slots : List α} {r : Reader} {e : CodecError}
    (failed : (fillEach decode slots r).result = .error e) :
    CutEach denotes content cut slots r e (fillEach decode slots r).done
      (fillEach decode slots r).left := by
  induction slots generalizing r with
  | nil => cases failed
  | cons slot slots ih =>
    cases first : (decode slot r).result with
    | error e' =>
      rw [fillEach_cons_of_error first] at failed ⊢
      cases failed
      exact ⟨[], slot, slots, rfl, rfl, r, ⟨[], rfl, rfl, rfl⟩, _, cuts.leaves first, rfl⟩
    | ok _ =>
      rw [fillEach_cons_of_ok first] at failed ⊢
      -- The cut is in one of the later slots, and this one shows what stands in front of it.
      obtain ⟨before, failing, behind, rfl, length, middle, tail, rest⟩ := ih failed
      have head := (element.yields.mp ⟨first, rfl, rfl⟩).1
      exact ⟨slot :: before, failing, behind, rfl, congrArg Nat.succ length, middle,
        (Reader.takes_append _ _).mpr ⟨_, head, tail⟩, rest⟩

theorem cuts_vector (element : Decodes decode denotes canHold content) (cuts : Cuts decode cut)
    (n : Nat) :
    Cuts (decodeVectorInto (n := n) decode) fun slots r e left =>
      ∃ done rest, left.toList = done ++ rest ∧
        CutEach denotes content cut slots.toList r e done rest := by
  constructor
  intro slots r e failed
  exact ⟨_, _, toList_decodeVectorInto slots r, fillEach_cuts element cuts failed⟩

theorem cuts_sequence (element : Decodes decode denotes canHold content) (cuts : Cuts decode cut)
    (size : Nat) :
    Cuts (Sequence.decodeInto size decode) (CutSequence size (CutEach denotes content cut)) := by
  constructor
  intro target r e failed
  cases counted : Reader.count size r with
  | error e' after =>
    rw [Sequence.decodeInto_of_error counted] at failed ⊢
    cases failed
    rcases Reader.count_eq_error.mp counted with ⟨short, _⟩ | ⟨n, read, few, rfl⟩
    · exact .noCount short
    · exact .fewBytes (Reader.reads_word.eq_ok.mp read) few
  | ok n after =>
    obtain ⟨read, enough⟩ := Reader.count_eq_ok.mp counted
    have count := Reader.reads_word.eq_ok.mp read
    rcases Nat.eq_zero_or_pos n with rfl | positive
    · rw [Sequence.decodeInto_of_zero counted] at failed
      cases failed
    · rcases Nat.lt_or_ge target.storage.length n with few | room
      · rw [Sequence.decodeInto_of_scarce counted few] at failed ⊢
        cases failed
        exact .fewSlots count enough few
      · rw [Sequence.decodeInto_of_room counted positive room] at failed ⊢
        exact .atElement count enough room (fillEach_cuts element cuts failed)

end FillEach

theorem Fields.cuts_cons {type : WireType} {name : String} {rest : Fields}
    (first : Cuts type.decodeInto type.Cut) (others : Cuts rest.decodeInto rest.Cut) :
    Cuts (Fields.cons name type rest).decodeInto (Fields.cons name type rest).Cut := by
  constructor
  intro targets r e failed
  rcases targets with ⟨target, targets⟩
  cases ended : (type.decodeInto target r).result with
  | error e' =>
    rw [Fields.decodeInto_cons_of_error ended] at failed ⊢
    cases failed
    exact .inl ⟨first.leaves ended, rfl⟩
  | ok _ =>
    rw [Fields.decodeInto_cons_of_ok ended] at failed ⊢
    have taken := (type.decodes.yields.mp ⟨ended, rfl, rfl⟩).1
    exact .inr ⟨_, taken, others.leaves failed⟩

mutual

theorem WireType.cuts : (type : WireType) → Cuts type.decodeInto type.Cut
  | .scalar kind => cuts_scalar kind
  | .string => cuts_string
  | .array element length => ⟨(cuts_vector element.decodes element.cuts length).leaves⟩
  | .sequence element => ⟨(cuts_sequence element.decodes element.cuts element.minimumSize).leaves⟩
  | .record _ _ fields => ⟨fields.cuts.leaves⟩
  | .alias _ target => ⟨target.cuts.leaves⟩

theorem Fields.cuts : (fields : Fields) → Cuts fields.decodeInto fields.Cut
  | .nil => ⟨fun failed => by cases failed⟩
  | .cons _ type rest => Fields.cuts_cons type.cuts rest.cuts

end

namespace Envelope

/-- A failure behind the header cuts the target and keeps its room; a failure at the header leaves
the target as it is. -/
theorem failure_cuts_target (type : WireType) (target : type.Value) :
    (∀ (r : Reader) (e : CodecError), (type.decodeInto target r).result = .error e →
      type.Cut target r e (type.decodeInto target r).target ∧
      type.room (type.decodeInto target r).target = type.room target) ∧
    (∀ bytes : List UInt8, bytes.take 4 ≠ header →
      (deserialize type bytes target).target = target ∧
      (deserialize type bytes target).result =
        .error (.headerMismatch (bytes.take 4 ++ zeros (4 - bytes.length)))) := by
  constructor
  · intro r e failed
    exact ⟨type.cuts.leaves failed, type.usesRoom.room_target target r⟩
  · intro bytes differs
    rw [deserialize, payload_of_take_ne differs]
    exact ⟨rfl, rfl⟩

def longRows : Reader :=
  .ofBytes [1, 0, 0, 0, 3, 0, 0, 0, 111, 107, 0, 0, 2, 0, 0, 0, 2, 0, 0, 0, 7, 0, 8, 0,
    1, 0, 0, 0, 9, 0]

/-- The flag, the name and the first row are new, and the second row is as it was. -/
theorem failure_cuts_sampleTarget :
    (sampleType.decodeInto sampleTarget longRows).result = .error (.sequenceCapacity 1 0) ∧
    sampleType.Cut sampleTarget longRows (.sequenceCapacity 1 0)
      (true, "ok", .exclusive [.exclusive [(7 : UInt16), (8 : UInt16)] []] [.shared []], ()) ∧
    List.take 4 [9] ≠ header ∧ (deserialize sampleType [9] sampleTarget).target = sampleTarget := by
  have failed :
      (sampleType.decodeInto sampleTarget longRows).result = .error (.sequenceCapacity 1 0) := by
    decide +kernel
  have differs : List.take 4 [9] ≠ header := by
    decide
  obtain ⟨behindHeader, atHeader⟩ := failure_cuts_target sampleType sampleTarget
  exact ⟨failed, (behindHeader longRows _ failed).1, differs, (atHeader [9] differs).1⟩

end Envelope

end WireSchema
