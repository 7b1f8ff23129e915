import WireSchema.Envelope
import WireSchema.Proofs.Decoding

/-! Deserializing accepts the wire grammar. -/

namespace WireSchema

/-- The early check makes no difference to what is accepted: asking nothing of the bytes behind
the count leaves the same successes. -/
theorem Sequence.decodeInto_yields_unchecked (element : WireType)
    (target : Sequence element.Value) (r after : Reader) (values : List element.Content) :
    (target.decodeInto element.minimumSize element.decodeInto r).Yields
        (fun s => s.toList.map element.content) values after ↔
      (target.decodeInto 0 element.decodeInto r).Yields
        (fun s => s.toList.map element.content) values after :=
  (decodes_sequence element.decodes element.minimumSize_le).yields.trans
    (decodes_sequence element.decodes fun _ => Nat.zero_le _).yields.symm

namespace Envelope

/-- `bytes` are the header, a block that denotes `content` at offset zero, and `rest`. -/
structure Frames (type : WireType) (bytes block rest : List UInt8) (content : type.Content) :
    Prop where
  parts : bytes = header ++ (block ++ rest)
  denotes : type.Denotes 0 block content

theorem payload_of_take_ne {bytes : List UInt8} (differs : bytes.take 4 ≠ header) :
    payload bytes = .error (.headerMismatch (bytes.take 4 ++ zeros (4 - bytes.length))) :=
  if_neg differs

theorem payload_eq_ok {bytes unread : List UInt8} :
    payload bytes = .ok unread ↔ bytes = header ++ unread := by
  rw [payload]
  constructor
  · intro found
    split at found
    · rename_i starts
      cases found
      rw [← starts, List.take_append_drop]
    · cases found
  · intro starts
    rw [starts]
    rfl

section Frames

variable {type : WireType} {bytes block block' rest rest' : List UInt8}
  {content content' : type.Content}

theorem Frames.unique (left : Frames type bytes block rest content)
    (right : Frames type bytes block' rest' content') :
    block' = block ∧ rest' = rest ∧ content' = content := by
  have same := right.parts.symm.trans left.parts
  have same := List.append_cancel_left same
  obtain ⟨rfl, rfl⟩ := type.denotes_unambiguous.unique right.denotes left.denotes same
  exact ⟨rfl, List.append_cancel_left same, rfl⟩

theorem deserialize_yields {target : type.Value} {after : Reader} :
    (deserialize type bytes target).Yields type.content content after ↔
      ∃ block, Frames type bytes block after.unread content ∧ after.position = block.length ∧
        type.CanHold target content := by
  rw [deserialize]
  cases found : payload bytes with
  | error e =>
    constructor
    · intro yields
      cases yields.1
    · intro held
      rcases held with ⟨block, framed, _⟩
      rw [payload_eq_ok.mpr framed.parts] at found
      cases found
  | ok unread =>
    obtain rfl := payload_eq_ok.mp found
    apply type.decodes.yields.trans
    constructor
    · intro held
      rcases held with ⟨⟨block, parts, place, denotes⟩, fits⟩
      exact ⟨block, ⟨congrArg _ parts, denotes⟩, place.trans (Nat.zero_add _), fits⟩
    · intro held
      rcases held with ⟨block, framed, place, fits⟩
      exact ⟨⟨block, List.append_cancel_left framed.parts, place.trans (Nat.zero_add _).symm,
        framed.denotes⟩, fits⟩

end Frames

/-- Success means that the bytes are framed and the target can hold their content. Framing is
unique, and after a success the target has that content and the reader has taken the block. In
every sequence the early check of the count refuses only what the plain loop would refuse. -/
theorem deserialize_accepts_grammar (type : WireType) (bytes : List UInt8)
    (target : type.Value) :
    ((deserialize type bytes target).result = .ok () ↔
      ∃ block rest content, Frames type bytes block rest content ∧
        type.CanHold target content) ∧
    (∀ block rest content, Frames type bytes block rest content →
      (∀ block' rest' content', Frames type bytes block' rest' content' →
        block' = block ∧ rest' = rest ∧ content' = content) ∧
      (type.CanHold target content →
        type.content (deserialize type bytes target).target = content ∧
        (deserialize type bytes target).reader = ⟨block.length, rest⟩)) ∧
    (∀ (element : WireType) (items : Sequence element.Value) (r after : Reader)
      (values : List element.Content),
      (items.decodeInto element.minimumSize element.decodeInto r).Yields
          (fun s => s.toList.map element.content) values after ↔
        (items.decodeInto 0 element.decodeInto r).Yields
          (fun s => s.toList.map element.content) values after) := by
  have yields (block rest : List UInt8) (content : type.Content)
      (framed : Frames type bytes block rest content) (fits : type.CanHold target content) :
      (deserialize type bytes target).Yields type.content content ⟨block.length, rest⟩ :=
    deserialize_yields.mpr ⟨block, framed, rfl, fits⟩
  refine ⟨⟨?_, ?_⟩, ?_, Sequence.decodeInto_yields_unchecked⟩
  · intro accepted
    obtain ⟨block, framed, _, fits⟩ := deserialize_yields.mp ⟨accepted, rfl, rfl⟩
    exact ⟨block, _, _, framed, fits⟩
  · intro acceptable
    rcases acceptable with ⟨block, rest, content, framed, fits⟩
    exact (yields block rest content framed fits).1
  · intro block rest content framed
    constructor
    · intro block' rest' content' other
      exact framed.unique other
    · intro fits
      obtain ⟨_, stop, same⟩ := yields block rest content framed fits
      exact ⟨same, stop⟩

/-- A truth value, three bytes of padding, a number of four bytes, and a byte left over. -/
example :
    deserialize (.record "Flagged" .message
        (.cons "flag" (.scalar .bool) (.cons "number" (.scalar .uint32) .nil)))
      [0, 1, 0, 0, 1, 0, 0, 0, 0x44, 0x33, 0x22, 0x11, 9] (false, (0 : UInt32), ()) =
      ⟨(true, (0x11223344 : UInt32), ()), ⟨8, [9]⟩, .ok ()⟩ :=
  rfl

end Envelope

end WireSchema
