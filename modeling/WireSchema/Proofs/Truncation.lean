import WireSchema.Proofs.Refusal
import WireSchema.Proofs.RoundTrip

/-! Every proper part of a block is refused for want of bytes. -/

namespace WireSchema

section Cuts

variable {head tail unread missing : List UInt8}

/-- Where two blocks in a row are cut: inside the first one, or else behind it. -/
theorem cut_append (cut : unread ++ missing = head ++ tail) :
    (∃ lost, lost ≠ [] ∧ head = unread ++ lost) ∨
      ∃ more, unread = head ++ more ∧ tail = more ++ missing := by
  rcases List.append_eq_append_iff.mp cut with ⟨lost, inside, rest⟩ | behind
  · by_cases complete : lost = []
    · refine .inr ⟨[], ?_, ?_⟩ <;> simp_all
    · exact .inl ⟨lost, complete, inside⟩
  · exact .inr behind

variable {position : Nat} {r : Reader}

theorem short_of_padded {width : Nat} {word : List UInt8}
    (padded : Padded width position (unread ++ missing) word) (proper : missing ≠ []) :
    ∃ e, (Reader.mk position unread).Short width e := by
  have length := length_of_padded padded
  have positive := List.length_pos_of_ne_nil proper
  rw [List.length_append] at length
  have few : unread.length < gap position width + width := by omega
  exact ⟨_, few, rfl⟩

theorem word_of_cut {n : Nat} (number : DenotesNumber position (unread ++ missing) n)
    (proper : missing ≠ []) :
    ∃ e, Reader.word ⟨position, unread⟩ = .error e ⟨position, unread⟩ ∧ e.IsUnderflow := by
  rcases number with ⟨word, padded, _⟩
  obtain ⟨e, short⟩ := short_of_padded padded proper
  exact ⟨e, Reader.word_eq_error.mpr ⟨short, rfl⟩, short.isUnderflow⟩

theorem string_of_cut {text : String} (denotes : DenotesString position (unread ++ missing) text)
    (proper : missing ≠ []) :
    ∃ e after, Reader.string ⟨position, unread⟩ = .error e after ∧ e.IsUnderflow := by
  rcases denotes with ⟨length, body, parts, cases⟩
  have number : ∃ n, DenotesNumber position length n := by
    rcases cases with ⟨number, _⟩ | ⟨number, _⟩ <;> exact ⟨_, number⟩
  rw [Reader.string_eq]
  rcases cut_append parts with ⟨lost, short, rfl⟩ | ⟨more, rfl, rfl⟩
  · obtain ⟨_, number⟩ := number
    obtain ⟨e, failed, underflow⟩ := word_of_cut number short
    exact ⟨e, _, bind_of_error failed, underflow⟩
  · rcases cases with ⟨_, empty, _⟩ | ⟨number, body⟩
    · exact (proper (List.append_eq_nil_iff.mp empty).2).elim
    · -- The length has been read, so what is cut off is missing in front of the NUL or is the NUL.
      have small := lt_of_denotesNumber number
      have limit : 1 + halfWordLimit < wordLimit := by decide
      have positive := List.length_pos_of_ne_nil proper
      have counted := congrArg List.length body
      simp only [List.length_append, List.length_singleton] at counted
      have read : Reader.word ⟨position, length ++ more⟩ =
          .ok (text.toUTF8.toList.length + 1) ⟨position + length.length, more⟩ :=
        Reader.reads_word.eq_ok.mpr ⟨length, rfl, rfl, number⟩
      have few : more.length <
          gap (position + length.length) 1 + (text.toUTF8.toList.length + 1) := by
        rw [gap_one]
        omega
      have failed : Reader.take 1 _ ⟨_, more⟩ = .error _ _ :=
        (Reader.take_eq_error ⟨0, rfl⟩ (by omega)).mpr ⟨few, rfl, rfl⟩
      rw [bind_of_ok read, if_neg (Nat.succ_ne_zero _), bind_of_error failed]
      exact ⟨_, _, rfl, _, _, _, rfl, few⟩

end Cuts

/-- Decoding the front part of a block that denotes something the target can hold fails for want
of bytes. -/
structure NeedsWhole {α β : Type} (decode : α → Reader → Decoded α)
    (denotes : Nat → List UInt8 → β → Prop) (canHold : α → β → Prop) : Prop where
  underflows : ∀ {target : α} {position : Nat} {unread missing : List UInt8} {value : β},
    denotes position (unread ++ missing) value → missing ≠ [] → canHold target value →
    ∃ e, (decode target ⟨position, unread⟩).result = .error e ∧ e.IsUnderflow

theorem replaceBy_of_error {α : Type} {read : Read α} {target : α} {r after : Reader}
    {e : CodecError} (failed : read r = .error e after) :
    (replaceBy read target r).result = .error e := by
  rw [replaceBy, failed]

theorem needsWhole_scalar (kind : Scalar) :
    NeedsWhole (replaceBy (Reader.scalar kind)) (DenotesScalar kind) (fun _ _ => True) := by
  constructor
  intro target position unread missing value denotes proper _
  rcases denotes with ⟨word, padded, _⟩
  obtain ⟨e, short⟩ := short_of_padded padded proper
  exact ⟨e, replaceBy_of_error (Reader.scalar_eq_error.mpr ⟨short, rfl⟩), short.isUnderflow⟩

theorem needsWhole_string :
    NeedsWhole (replaceBy Reader.string) DenotesString (fun _ _ => True) := by
  constructor
  intro target position unread missing text denotes proper _
  obtain ⟨e, after, failed, underflow⟩ := string_of_cut denotes proper
  exact ⟨e, replaceBy_of_error failed, underflow⟩

section FillEach

variable {α β : Type} {decode : α → Reader → Decoded α} {content : α → β}
  {denotes : Nat → List UInt8 → β → Prop} {canHold : α → β → Prop}

theorem fillEach_of_cut (element : Decodes decode denotes canHold content)
    (whole : NeedsWhole decode denotes canHold) {slots : List α} {values : List β}
    {position : Nat} {unread missing : List UInt8} (length : values.length = slots.length)
    (each : DenotesEach denotes position (unread ++ missing) values) (proper : missing ≠ [])
    (fits : CanHoldEach canHold slots values) :
    ∃ e, (fillEach decode slots ⟨position, unread⟩).result = .error e ∧ e.IsUnderflow := by
  induction slots generalizing values position unread with
  | nil =>
    obtain rfl := List.eq_nil_of_length_eq_zero length
    exact (proper (List.append_eq_nil_iff.mp each).2).elim
  | cons slot slots ih =>
    cases values with
    | nil => cases length
    | cons value values =>
      rcases each with ⟨head, tail, parts, denotesHead, denotesTail⟩
      rcases cut_append parts with ⟨lost, short, rfl⟩ | ⟨more, rfl, rfl⟩
      · obtain ⟨e, failed, underflow⟩ := whole.underflows denotesHead short fits.1
        rw [fillEach_cons_of_error failed]
        exact ⟨e, rfl, underflow⟩
      · have taken : (Reader.mk position (head ++ more)).Takes ⟨position + head.length, more⟩
            (denotes · · value) := ⟨head, rfl, rfl, denotesHead⟩
        obtain ⟨done, stop, _⟩ := element.yields.mpr ⟨taken, fits.1⟩
        rw [fillEach_cons_of_ok done, stop]
        exact ih (Nat.succ.inj length) denotesTail fits.2

theorem needsWhole_vector (element : Decodes decode denotes canHold content)
    (whole : NeedsWhole decode denotes canHold) (n : Nat) :
    NeedsWhole (decodeVectorInto (n := n) decode)
      (fun position block (values : Vector β n) =>
        DenotesEach denotes position block values.toList)
      (fun slots values => CanHoldEach canHold slots.toList values.toList) := by
  constructor
  intro slots position unread missing values each proper fits
  have length : values.toList.length = slots.toList.length :=
    Vector.length_toList.trans Vector.length_toList.symm
  exact fillEach_of_cut element whole length each proper fits

theorem needsWhole_sequence (element : Decodes decode denotes canHold content)
    (whole : NeedsWhole decode denotes canHold) (size : Nat) :
    NeedsWhole (Sequence.decodeInto size decode) (DenotesSequence denotes)
      (fun target values => CanHoldEach canHold target.storage values) := by
  constructor
  intro target position unread missing values denoted proper fits
  rcases denoted with ⟨count, body, parts, number, each⟩
  rcases cut_append parts with ⟨lost, short, rfl⟩ | ⟨more, rfl, rfl⟩
  · obtain ⟨e, failed, underflow⟩ := word_of_cut number short
    have short := (Reader.word_eq_error.mp failed).1
    rw [Sequence.decodeInto_of_error (Reader.count_eq_error.mpr (.inl ⟨short, rfl⟩))]
    exact ⟨e, rfl, underflow⟩
  · have read : Reader.word ⟨position, count ++ more⟩ =
        .ok values.length ⟨position + count.length, more⟩ :=
      Reader.reads_word.eq_ok.mpr ⟨count, rfl, rfl, number⟩
    rcases Nat.lt_or_ge more.length (countNeeded values.length size) with few | enough
    · -- The early check may notice before any element does.
      have refused := Reader.count_eq_error.mpr (.inr ⟨_, read, few, rfl⟩)
      rw [Sequence.decodeInto_of_error refused]
      exact ⟨_, rfl, _, _, _, rfl, few⟩
    · have counted := Reader.count_eq_ok.mpr ⟨read, enough⟩
      have room := length_le_of_canHoldEach fits
      have length : values.length = (target.storage.take values.length).length := by
        rw [List.length_take, Nat.min_eq_left room]
      rcases Nat.eq_zero_or_pos values.length with zero | occupied
      · -- An empty sequence ends with its count, so nothing can be missing behind that.
        obtain rfl := List.eq_nil_of_length_eq_zero zero
        exact (proper (List.append_eq_nil_iff.mp each).2).elim
      · rw [Sequence.decodeInto_of_room counted occupied room]
        exact fillEach_of_cut element whole length each proper (canHoldEach_take fits)

end FillEach

theorem Fields.needsWhole_cons {type : WireType} {name : String} {rest : Fields}
    (first : NeedsWhole type.decodeInto type.Denotes type.CanHold)
    (others : NeedsWhole rest.decodeInto rest.Denotes rest.CanHold) :
    NeedsWhole (Fields.cons name type rest).decodeInto (Fields.cons name type rest).Denotes
      (Fields.cons name type rest).CanHold := by
  constructor
  intro targets position unread missing contents denoted proper fits
  rcases targets with ⟨target, targets⟩
  rcases contents with ⟨content, contents⟩
  rcases denoted with ⟨head, tail, parts, denotesHead, denotesTail⟩
  rcases cut_append parts with ⟨lost, short, rfl⟩ | ⟨more, rfl, rfl⟩
  · obtain ⟨e, failed, underflow⟩ := first.underflows denotesHead short fits.1
    rw [Fields.decodeInto_cons_of_error failed]
    exact ⟨e, rfl, underflow⟩
  · have taken : (Reader.mk position (head ++ more)).Takes ⟨position + head.length, more⟩
        (type.Denotes · · content) := ⟨head, rfl, rfl, denotesHead⟩
    obtain ⟨done, stop, _⟩ := type.decodes.yields.mpr ⟨taken, fits.1⟩
    rw [Fields.decodeInto_cons_of_ok done, stop]
    exact others.underflows denotesTail proper fits.2

mutual

theorem WireType.needsWhole : (type : WireType) →
    NeedsWhole type.decodeInto type.Denotes type.CanHold
  | .scalar kind => needsWhole_scalar kind
  | .string => needsWhole_string
  | .array element length => needsWhole_vector element.decodes element.needsWhole length
  | .sequence element =>
    needsWhole_sequence element.decodes element.needsWhole element.minimumSize
  | .record _ _ fields => ⟨fields.needsWhole.underflows⟩
  | .alias _ target => ⟨target.needsWhole.underflows⟩

theorem Fields.needsWhole : (fields : Fields) →
    NeedsWhole fields.decodeInto fields.Denotes fields.CanHold
  | .nil => ⟨fun empty proper _ => (proper (List.append_eq_nil_iff.mp empty).2).elim⟩
  | .cons _ type rest => Fields.needsWhole_cons type.needsWhole rest.needsWhole

end

namespace Envelope

theorem deserialize_of_short_header {type : WireType} {bytes : List UInt8} {target : type.Value}
    (short : bytes.length < 4) : (deserialize type bytes target).result =
      .error (.headerMismatch (bytes ++ zeros (4 - bytes.length))) := by
  have whole : bytes.take 4 = bytes := List.take_of_length_le short.le
  have differs : bytes.take 4 ≠ header := by
    intro same
    have length : (bytes.take 4).length = 4 := congrArg List.length same
    rw [whole] at length
    omega
  rw [deserialize, payload_of_take_ne differs, whole]

/-- A proper part of an encoding, in front of the place where it is cut off, is refused by every
target that can hold the value: at the header if that is not complete, and otherwise for want of
bytes. -/
theorem deserialize_truncated (type : WireType) (value target : type.Value)
    (buffer written part : List UInt8) (n : Nat)
    (serialized : serialize type value buffer = (.ok n, written))
    (fits : type.CanHold target (type.content value))
    (initial : part <+: written.take n) (proper : part ≠ written.take n) :
    (part.length < 4 → (deserialize type part target).result =
      .error (.headerMismatch (part ++ zeros (4 - part.length)))) ∧
    (4 ≤ part.length → ∃ offset needed remaining, (deserialize type part target).result =
      .error (.decodeUnderflow offset needed remaining) ∧ remaining < needed) := by
  refine ⟨deserialize_of_short_header, fun hasHeader => ?_⟩
  obtain ⟨encodable, room⟩ := encodable_of_serialize (congrArg Prod.fst serialized)
  rw [serialize_of_le encodable room] at serialized
  cases serialized
  rw [List.take_left' rfl] at initial proper
  have whole : header <+: type.encoding value := List.prefix_append _ _
  obtain ⟨unread, rfl⟩ := List.prefix_of_prefix_length_le whole initial hasHeader
  rcases initial with ⟨missing, parts⟩
  have cut : missing ≠ [] := by
    rintro rfl
    exact proper (List.append_nil (header ++ unread) ▸ parts)
  rw [WireType.encoding, List.append_assoc] at parts
  have denotes : type.Denotes 0 (unread ++ missing) (type.content value) := by
    rw [List.append_cancel_left parts]
    exact type.denotes_layout 0 (type.content value) encodable
  obtain ⟨e, failed, offset, needed, remaining, rfl, few⟩ :=
    type.needsWhole.underflows denotes cut fits
  refine ⟨offset, needed, remaining, ?_, few⟩
  rw [deserialize, payload_eq_ok.mpr rfl]
  exact failed

/-- The sample cut off behind 25 bytes, inside its first row. -/
theorem deserialize_truncated_sample :
    serialize sampleType sample (List.replicate 40 255) =
      (.ok 32, sampleType.encoding sample ++ List.replicate 8 255) ∧
    sampleType.CanHold sampleTarget (sampleType.content sample) ∧
    (sampleType.encoding sample).take 25 <+:
      (sampleType.encoding sample ++ List.replicate 8 255).take 32 ∧
    (sampleType.encoding sample).take 25 ≠
      (sampleType.encoding sample ++ List.replicate 8 255).take 32 ∧
    ((sampleType.encoding sample).take 25).length = 25 ∧
    ∃ offset needed remaining,
      (deserialize sampleType ((sampleType.encoding sample).take 25) sampleTarget).result =
        .error (.decodeUnderflow offset needed remaining) ∧ remaining < needed := by
  have length : (sampleType.encoding sample).length = 32 := congrArg List.length encoding_sample
  have room : (sampleType.encoding sample).length ≤ (List.replicate 40 (255 : UInt8)).length := by
    rw [length]
    decide
  have serialized := serialize_of_le encodable_sample room
  rw [length] at serialized
  have fits : sampleType.CanHold sampleTarget (sampleType.content sample) := by
    decide
  have whole : (sampleType.encoding sample ++ List.replicate 8 255).take 32 =
      sampleType.encoding sample := List.take_left' length
  have initial : (sampleType.encoding sample).take 25 <+:
      (sampleType.encoding sample ++ List.replicate 8 255).take 32 := by
    rw [whole]
    exact List.take_prefix 25 _
  have size : ((sampleType.encoding sample).take 25).length = 25 := by
    rw [List.length_take, length]
    rfl
  have proper : (sampleType.encoding sample).take 25 ≠
      (sampleType.encoding sample ++ List.replicate 8 255).take 32 := by
    intro same
    rw [whole] at same
    rw [same, length] at size
    cases size
  obtain ⟨_, underflows⟩ := deserialize_truncated sampleType sample sampleTarget
    (List.replicate 40 255) _ _ 32 serialized fits initial proper
  exact ⟨serialized, fits, initial, proper, size, underflows (by rw [size]; decide)⟩

end Envelope

end WireSchema
