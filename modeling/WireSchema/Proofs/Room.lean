import WireSchema.Proofs.RoundTrip

/-! How an attempt to decode ends depends on nothing of the target but its room. -/

namespace WireSchema

mutual

/-- The slots of a target: where a sequence has storage, one room for each slot. -/
def WireType.Room : WireType → Type
  | .scalar _ => Unit
  | .string => Unit
  | .array element length => Vector element.Room length
  | .sequence element => List element.Room
  | .record _ _ fields => fields.Room
  | .alias _ target => target.Room

def Fields.Room : Fields → Type
  | .nil => Unit
  | .cons _ type rest => type.Room × rest.Room

end

mutual

def WireType.room : (type : WireType) → type.Value → type.Room
  | .scalar _, _ => ()
  | .string, _ => ()
  | .array element _, slots => Vector.map element.room slots
  | .sequence element, target => (Sequence.storage target).map element.room
  | .record _ _ fields, targets => fields.room targets
  | .alias _ aliased, target => aliased.room target

def Fields.room : (fields : Fields) → fields.Value → fields.Room
  | .nil, () => ()
  | .cons _ type rest, (target, targets) => (type.room target, rest.room targets)

end

/-- Two attempts that cannot be told apart by their outcome: they end alike, stop at the same place
and, if they succeed, show the same content. -/
structure Decoded.Agrees {α β : Type} (content : α → β) (left right : Decoded α) : Prop where
  result_eq : left.result = right.result
  reader_eq : left.reader = right.reader
  content_eq : left.result = .ok () → content left.target = content right.target

/-- Decoding that keeps the room of its target and depends on nothing else of it. -/
structure UsesRoom {α β ρ : Type} (decode : α → Reader → Decoded α) (room : α → ρ)
    (content : α → β) : Prop where
  room_target : ∀ target r, room (decode target r).target = room target
  agrees : ∀ {left right}, room left = room right → ∀ r,
    (decode left r).Agrees content (decode right r)

theorem usesRoom_replaceBy {α : Type} (read : Read α) :
    UsesRoom (replaceBy read) (fun _ => ()) (fun value => value) := by
  constructor
  · intro target r
    rfl
  · intro left right _ r
    rw [replaceBy, replaceBy]
    cases read r with
    | ok value after => exact ⟨rfl, rfl, fun _ => rfl⟩
    | error e after => exact ⟨rfl, rfl, fun ended => by cases ended⟩

section FillEach

variable {α β ρ : Type} {decode : α → Reader → Decoded α} {room : α → ρ} {content : α → β}

theorem map_room_fillEach (uses : UsesRoom decode room content) (slots : List α) (r : Reader) :
    ((fillEach decode slots r).done ++ (fillEach decode slots r).left).map room =
      slots.map room := by
  induction slots generalizing r with
  | nil => rfl
  | cons slot slots ih =>
    have same := uses.room_target slot r
    cases first : (decode slot r).result with
    | error e => simp [fillEach_cons_of_error first, same]
    | ok _ => simpa [fillEach_cons_of_ok first, same] using ih (decode slot r).reader

structure Filling.Agrees (content : α → β) (left right : Filling α) : Prop where
  result_eq : left.result = right.result
  reader_eq : left.reader = right.reader
  content_eq : left.done.map content = right.done.map content

theorem fillEach_agrees (uses : UsesRoom decode room content) {slots slots' : List α}
    (same : slots.map room = slots'.map room) (r : Reader) :
    (fillEach decode slots r).Agrees content (fillEach decode slots' r) := by
  induction slots generalizing slots' r with
  | nil =>
    obtain rfl := List.map_eq_nil_iff.mp same.symm
    exact ⟨rfl, rfl, rfl⟩
  | cons slot slots ih =>
    cases slots' with
    | nil => cases same
    | cons slot' slots' =>
      rw [List.map_cons, List.map_cons, List.cons.injEq] at same
      have heads := uses.agrees same.1 r
      cases first : (decode slot r).result with
      | error e =>
        rw [fillEach_cons_of_error first, fillEach_cons_of_error (heads.result_eq ▸ first)]
        exact ⟨rfl, heads.reader_eq, rfl⟩
      | ok _ =>
        have tails := ih same.2 (decode slot r).reader
        rw [fillEach_cons_of_ok first, fillEach_cons_of_ok (heads.result_eq ▸ first),
          ← heads.reader_eq]
        exact ⟨tails.result_eq, tails.reader_eq,
          congrArg₂ List.cons (heads.content_eq first) tails.content_eq⟩

end FillEach

section Sequence

variable {α β ρ : Type} {decode : α → Reader → Decoded α} {room : α → ρ} {content : α → β}

theorem usesRoom_vector (uses : UsesRoom decode room content) (n : Nat) :
    UsesRoom (decodeVectorInto (n := n) decode) (Vector.map room) (Vector.map content) := by
  constructor
  · intro slots r
    rw [← Vector.toList_inj, Vector.toList_map, Vector.toList_map, toList_decodeVectorInto]
    exact map_room_fillEach uses slots.toList r
  · intro left right same r
    rw [← Vector.toList_inj, Vector.toList_map, Vector.toList_map] at same
    have filled := fillEach_agrees uses same r
    refine ⟨filled.result_eq, filled.reader_eq, ?_⟩
    intro ended
    have ended' : (fillEach decode right.toList r).result = .ok () :=
      filled.result_eq.symm.trans ended
    rw [← Vector.toList_inj, Vector.toList_map, Vector.toList_map, toList_decodeVectorInto,
      toList_decodeVectorInto, left_fillEach ended, left_fillEach ended', List.append_nil,
      List.append_nil]
    exact filled.content_eq

theorem usesRoom_sequence (uses : UsesRoom decode room content) (size : Nat) :
    UsesRoom (Sequence.decodeInto size decode) (fun s => s.storage.map room)
      (fun s => s.toList.map content) := by
  constructor
  · intro target r
    cases counted : Reader.count size r with
    | error e after => rw [Sequence.decodeInto_of_error counted]
    | ok n after =>
      rcases Nat.eq_zero_or_pos n with rfl | positive
      · rw [Sequence.decodeInto_of_zero counted, Sequence.storage_clear]
      · rcases Nat.lt_or_ge target.storage.length n with scarce | enough
        · rw [Sequence.decodeInto_of_scarce counted scarce]
        · rw [Sequence.decodeInto_of_room counted positive enough]
          -- The slots behind the count are not even looked at.
          have first := map_room_fillEach uses (target.storage.take n) after
          simp only [Sequence.storage, ← List.append_assoc, List.map_append] at first ⊢
          rw [first, ← List.map_append, List.take_append_drop]
  · intro left right same r
    -- Of the storage only its length decides how far the attempt gets, until an element is decoded.
    have slots : left.storage.length = right.storage.length := by
      simpa using congrArg List.length same
    cases counted : Reader.count size r with
    | error e after =>
      rw [Sequence.decodeInto_of_error counted, Sequence.decodeInto_of_error counted]
      exact ⟨rfl, rfl, fun ended => by cases ended⟩
    | ok n after =>
      rcases Nat.eq_zero_or_pos n with rfl | positive
      · rw [Sequence.decodeInto_of_zero counted, Sequence.decodeInto_of_zero counted]
        exact ⟨rfl, rfl, fun _ => by
          rw [Sequence.toList_clear, Sequence.toList_clear]⟩
      · rcases Nat.lt_or_ge left.storage.length n with scarce | enough
        · rw [Sequence.decodeInto_of_scarce counted scarce,
            Sequence.decodeInto_of_scarce counted (slots ▸ scarce), Sequence.capacity,
            Sequence.capacity, slots]
          exact ⟨rfl, rfl, fun ended => by cases ended⟩
        · rw [Sequence.decodeInto_of_room counted positive enough,
            Sequence.decodeInto_of_room counted positive (slots ▸ enough)]
          have taken : (left.storage.take n).map room = (right.storage.take n).map room := by
            rw [List.map_take, List.map_take, same]
          have filled := fillEach_agrees uses taken after
          exact ⟨filled.result_eq, filled.reader_eq, fun _ => filled.content_eq⟩

end Sequence

section Fields

variable {type : WireType} {name : String} {rest : Fields}

theorem Fields.usesRoom_cons (first : UsesRoom type.decodeInto type.room type.content)
    (others : UsesRoom rest.decodeInto rest.room rest.content) :
    UsesRoom (Fields.cons name type rest).decodeInto (Fields.cons name type rest).room
      (Fields.cons name type rest).content := by
  constructor
  · intro targets r
    rcases targets with ⟨target, targets⟩
    have head := first.room_target target r
    cases ended : (type.decodeInto target r).result with
    | error e =>
      rw [Fields.decodeInto_cons_of_error ended]
      exact congrArg (·, rest.room targets) head
    | ok _ =>
      rw [Fields.decodeInto_cons_of_ok ended]
      exact congrArg₂ Prod.mk head (others.room_target _ _)
  · intro left right same r
    rcases left with ⟨value, values⟩
    rcases right with ⟨value', values'⟩
    obtain ⟨sameFirst, sameRest⟩ := Prod.mk.inj same
    have heads := first.agrees sameFirst r
    cases ended : (type.decodeInto value r).result with
    | error e =>
      rw [Fields.decodeInto_cons_of_error ended,
        Fields.decodeInto_cons_of_error (heads.result_eq ▸ ended)]
      exact ⟨rfl, heads.reader_eq, fun ok => by cases ok⟩
    | ok _ =>
      have tails := others.agrees sameRest (type.decodeInto value r).reader
      rw [Fields.decodeInto_cons_of_ok ended,
        Fields.decodeInto_cons_of_ok (heads.result_eq ▸ ended), ← heads.reader_eq]
      exact ⟨tails.result_eq, tails.reader_eq,
        fun ok => congrArg₂ Prod.mk (heads.content_eq ended) (tails.content_eq ok)⟩

end Fields

mutual

theorem WireType.usesRoom : (type : WireType) →
    UsesRoom type.decodeInto type.room type.content
  | .scalar kind => usesRoom_replaceBy (Reader.scalar kind)
  | .string => usesRoom_replaceBy Reader.string
  | .array element length => usesRoom_vector element.usesRoom length
  | .sequence element => usesRoom_sequence element.usesRoom element.minimumSize
  | .record _ _ fields => ⟨fields.usesRoom.room_target, fields.usesRoom.agrees⟩
  | .alias _ target => ⟨target.usesRoom.room_target, target.usesRoom.agrees⟩

theorem Fields.usesRoom : (fields : Fields) →
    UsesRoom fields.decodeInto fields.room fields.content
  | .nil => ⟨fun _ _ => rfl, fun _ _ => ⟨rfl, rfl, fun _ => rfl⟩⟩
  | .cons _ type rest => Fields.usesRoom_cons type.usesRoom rest.usesRoom

end

namespace Envelope

theorem deserialize_usesRoom (type : WireType) (bytes : List UInt8) :
    UsesRoom (fun target _ => deserialize type bytes target) type.room type.content := by
  constructor
  · intro target _
    rw [deserialize]
    cases payload bytes with
    | error e => rfl
    | ok unread => exact type.usesRoom.room_target target _
  · intro left right same _
    rw [deserialize, deserialize]
    cases payload bytes with
    | error e => exact ⟨rfl, rfl, fun ended => by cases ended⟩
    | ok unread => exact type.usesRoom.agrees same _

/-- Messages deserialized one after the other into one target, each into what the one before it,
successful or not, has left. -/
def receive (type : WireType) (target : type.Value) : List (List UInt8) → List (Decoded type.Value)
  | [] => []
  | bytes :: rest =>
    let received := deserialize type bytes target
    received :: receive type received.target rest

theorem receive_agrees {type : WireType} {start target : type.Value}
    (same : type.room target = type.room start) (messages : List (List UInt8)) :
    List.Forall₂ (fun bytes received =>
        received.Agrees type.content (deserialize type bytes start) ∧
          type.room received.target = type.room start)
      messages (receive type target messages) := by
  induction messages generalizing target with
  | nil => exact .nil
  | cons bytes rest ih =>
    -- The target drifts away from `start` with each message, but its room does not.
    have uses := deserialize_usesRoom type bytes
    have kept := (uses.room_target target (.ofBytes [])).trans same
    exact .cons ⟨uses.agrees same (.ofBytes []), kept⟩ (ih kept)

/-- Whatever a target has been used for, each message ends as it would in the target as it was at
the start: with the same result, and after a success with the same content. The room never
changes, and it is all that counts: any other target with this room would do as well. -/
theorem receive_reuses_target (type : WireType) (start : type.Value)
    (messages : List (List UInt8)) :
    List.Forall₂ (fun bytes received =>
        received.Agrees type.content (deserialize type bytes start) ∧
          type.room received.target = type.room start)
      messages (receive type start messages) ∧
    ∀ other : type.Value, type.room other = type.room start → ∀ bytes : List UInt8,
      (deserialize type bytes other).Agrees type.content (deserialize type bytes start) :=
  ⟨receive_agrees rfl messages,
    fun _ same bytes => (deserialize_usesRoom type bytes).agrees same (.ofBytes [])⟩

def usedTarget : sampleType.Value :=
  (true, "used", .exclusive [.exclusive [] [(5 : UInt16), (6 : UInt16)], .shared [(9 : UInt16)]] [],
    ())

/-- First the sample without its end, then the whole of it. -/
theorem receive_reuses_sampleTarget :
    sampleType.room usedTarget = sampleType.room sampleTarget ∧
    (deserialize sampleType (sampleType.encoding sample) usedTarget).Agrees sampleType.content
      (deserialize sampleType (sampleType.encoding sample) sampleTarget) ∧
    List.Forall₂ (fun bytes received =>
        received.Agrees sampleType.content (deserialize sampleType bytes sampleTarget) ∧
          sampleType.room received.target = sampleType.room sampleTarget)
      [(sampleType.encoding sample).take 25, sampleType.encoding sample]
      (receive sampleType sampleTarget
        [(sampleType.encoding sample).take 25, sampleType.encoding sample]) := by
  have same : sampleType.room usedTarget = sampleType.room sampleTarget := rfl
  obtain ⟨received, others⟩ := receive_reuses_target sampleType sampleTarget
    [(sampleType.encoding sample).take 25, sampleType.encoding sample]
  exact ⟨same, others usedTarget same _, received⟩

end Envelope

end WireSchema
