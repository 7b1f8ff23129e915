import WireSchema.Proofs.Encoding
import WireSchema.Proofs.Measuring

/-! Sequences whose count is left open and filled in at the end. -/

namespace WireSchema

open EStateM (Result)

namespace Writer

def fillIn (mark : SequenceMark) (count : Nat) (w : Writer) : Writer :=
  w.store mark.offset (littleEndian 4 count)

def Covers (w : Writer) (mark : SequenceMark) : Prop :=
  match w.sink with
  | .measure => True
  | .buffer bytes => mark.offset + 4 ≤ w.position ∧ mark.offset + 4 ≤ bytes.length

end Writer

section Steady

variable {α β : Type}

def onWriter (change : Writer → Writer) :
    Result Halt Writer α → Result Halt Writer α
  | .ok value w => .ok value (change w)
  | .error halt w => .error halt (change w)

def finalWriter : Result Halt Writer α → Writer
  | .ok _ w => w
  | .error _ w => w

/-- Neither looks at nor changes what is written already: a count there may be filled in before or
after. -/
def Steady (write : Write α) : Prop :=
  ∀ (mark : SequenceMark) (count : Nat) (w : Writer), w.Covers mark →
    (finalWriter (write w)).Covers mark ∧
      write (w.fillIn mark count) = onWriter (Writer.fillIn mark count) (write w)

theorem steady_pure (value : α) : Steady (pure value) := by
  intro mark count w covers
  exact ⟨covers, rfl⟩

theorem steady_fail (e : CodecError) : Steady (Writer.fail e : Write α) := by
  intro mark count w covers
  exact ⟨covers, rfl⟩

theorem Steady.bind {write : Write α} {next : α → Write β} (first : Steady write)
    (others : ∀ value, Steady (next value)) : Steady (write >>= next) := by
  intro mark count w covers
  obtain ⟨kept, same⟩ := first mark count w covers
  cases run : write w with
  | ok value middle =>
    rw [run] at kept same
    rw [bind_of_ok run, bind_of_ok same]
    exact others value mark count middle kept
  | error halt middle =>
    rw [run] at kept same
    rw [bind_of_error run, bind_of_error same]
    exact ⟨kept, rfl⟩

theorem length_overwrite_le (bytes piece : List UInt8) (start : Nat) :
    bytes.length ≤ (overwrite bytes start piece).length := by
  simp only [overwrite, List.length_append, List.length_take, List.length_drop]
  omega

theorem steady_append (alignment : Nat) (piece : List UInt8) :
    Steady (Writer.append alignment piece) := by
  intro mark count w covers
  obtain ⟨sink, position⟩ := w
  cases sink with
  | measure =>
    show _ ∧ Writer.append alignment piece ⟨.measure, position⟩ = _
    rcases Writer.append_measuring_cases alignment piece position with ⟨next, ran⟩ | ⟨halt, ran⟩
    all_goals
      rw [ran]
      exact ⟨trivial, rfl⟩
  | buffer bytes =>
    have word : mark.offset + (littleEndian 4 count).length ≤ bytes.length := by
      rw [length_littleEndian]
      exact covers.2
    have below : mark.offset + (littleEndian 4 count).length ≤ position := by
      rw [length_littleEndian]
      exact covers.1
    have length := length_overwrite bytes (littleEndian 4 count) word
    rw [Writer.fillIn, Writer.store, Writer.append_buffer, Writer.append_buffer, length]
    split
    · exact ⟨covers, rfl⟩
    split
    · exact ⟨covers, rfl⟩
    have padded := length_overwrite_le bytes (zeros (paddingAt position alignment)) position
    have start := below.trans (Nat.le_add_right position (paddingAt position alignment))
    refine ⟨⟨?_, ?_⟩, ?_⟩
    · show mark.offset + 4 ≤ position + paddingAt position alignment + piece.length
      rw [length_littleEndian] at start
      exact start.trans (Nat.le_add_right _ _)
    · exact covers.2.trans (padded.trans (length_overwrite_le _ _ _))
    · rw [overwrite_comm below word, overwrite_comm start (word.trans padded)]
      rfl

theorem steady_each {encode : α → Write Unit} {items : List α}
    (each : ∀ item ∈ items, Steady (encode item)) : Steady (encodeEach encode items) := by
  induction items with
  | nil => exact steady_pure ()
  | cons item rest ih =>
    refine (each item List.mem_cons_self).bind fun _ => ih fun other member => ?_
    exact each other (List.mem_cons_of_mem _ member)

theorem steady_item (item : WireItem) : Steady item.write := by
  cases item with
  | scalar kind value => exact steady_append _ _
  | count n =>
    refine Steady.bind ?_ fun word => steady_append 4 word
    rw [Writer.countWord]
    split
    · exact steady_pure _
    · exact steady_fail _
  | text string =>
    rw [WireItem.write, Writer.string]
    split
    · exact steady_append _ _
    · exact steady_fail _

theorem WireType.steady_encode (type : WireType) (value : type.Value) :
    Steady (type.encode value) := by
  rw [type.encode_eq_items]
  exact steady_each fun item _ => steady_item item

end Steady

section Outside

/-- Two writers that differ at most in the four bytes at some marks. -/
structure SameOutside (marks : List SequenceMark) (a b : Writer) : Prop where
  measuring : a.isMeasuring = b.isMeasuring
  position : a.position = b.position
  length : a.buffer.length = b.buffer.length
  bytes : ∀ place, (∀ mark ∈ marks, place < mark.offset ∨ mark.offset + 4 ≤ place) →
    a.buffer[place]? = b.buffer[place]?

variable {marks others : List SequenceMark} {mark : SequenceMark} {a b c w : Writer}

theorem SameOutside.refl (marks : List SequenceMark) (w : Writer) : SameOutside marks w w :=
  ⟨rfl, rfl, rfl, fun _ _ => rfl⟩

theorem SameOutside.trans (first : SameOutside marks a b) (second : SameOutside others b c) :
    SameOutside (marks ++ others) a c where
  measuring := first.measuring.trans second.measuring
  position := first.position.trans second.position
  length := first.length.trans second.length
  bytes place outside := by
    rw [first.bytes place fun mark member => outside mark (List.mem_append_left _ member),
      second.bytes place fun mark member => outside mark (List.mem_append_right _ member)]

theorem sameOutside_fillIn (covers : w.Covers mark) (count : Nat) :
    SameOutside [mark] w (w.fillIn mark count) := by
  obtain ⟨sink, position⟩ := w
  cases sink with
  | measure => exact .refl _ _
  | buffer bytes =>
    have word : mark.offset + (littleEndian 4 count).length ≤ bytes.length := by
      rw [length_littleEndian]
      exact covers.2
    refine ⟨rfl, rfl, (length_overwrite bytes _ word).symm, fun place outside => ?_⟩
    have apart := outside mark (List.mem_singleton_self mark)
    refine (getElem?_overwrite_of_outside word ?_).symm
    rwa [length_littleEndian]

end Outside

section Open

open Writer

variable {count : Nat}

/-- A count that is left open fails where the count itself fails, and leaves the writer that has
the count when it is filled in. -/
theorem beginSequence_fillIn (small : count < halfWordLimit) (w : Writer) :
    (∃ halt, beginSequence w = .error halt w ∧ Writer.count count w = .error halt w) ∨
    ∃ mark after, beginSequence w = .ok mark after ∧ after.Covers mark ∧
      Writer.count count w = .ok () (after.fillIn mark count) := by
  have counted : Writer.count count w = append 4 (littleEndian 4 count) w :=
    bind_of_ok (countWord_of_lt small w)
  obtain ⟨sink, position⟩ := w
  rw [counted]
  cases sink with
  | measure =>
    rcases reserve_measuring_cases 4 4 position with ⟨start, room⟩ | ⟨halt, failed⟩
    · have same : place start (littleEndian 4 count) ⟨.measure, position⟩ =
          place start (zeros 4) ⟨.measure, position⟩ := by
        simp only [place, length_littleEndian, length_zeros]
      have written : append 4 (littleEndian 4 count) ⟨.measure, position⟩ =
          place start (zeros 4) ⟨.measure, position⟩ := (bind_of_ok room).trans same
      rcases place_measuring_cases start (zeros 4) position with ⟨next, placed⟩ | placed
      · refine .inr ⟨⟨start⟩, ⟨.measure, next⟩, ?_, trivial, written.trans placed⟩
        exact (bind_of_ok room).trans (bind_of_ok placed)
      · refine .inl ⟨_, ?_, written.trans placed⟩
        exact (bind_of_ok room).trans (bind_of_error placed)
    · exact .inl ⟨halt, bind_of_error failed, bind_of_error failed⟩
  | buffer bytes =>
    rw [append_buffer, length_littleEndian]
    by_cases long : wordLimit ≤ paddingAt position 4 + 4
    · refine .inl ⟨_, bind_of_error ?_, if_pos long⟩
      exact if_pos long
    by_cases full : bytes.length - position < paddingAt position 4 + 4
    · rw [if_neg long, if_pos full]
      refine .inl ⟨_, bind_of_error ?_, rfl⟩
      exact (if_neg long).trans (if_pos full)
    · have room : reserve 4 4 ⟨.buffer bytes, position⟩ =
          .ok (position + paddingAt position 4)
            ⟨.buffer (overwrite bytes position (zeros (paddingAt position 4))), position⟩ :=
        (if_neg long).trans (if_neg full)
      have padded := length_overwrite_le bytes (zeros (paddingAt position 4)) position
      have inside : position + paddingAt position 4 + (zeros 4).length ≤
          (overwrite bytes position (zeros (paddingAt position 4))).length := by
        rw [length_zeros]
        omega
      refine .inr ⟨_, _, bind_of_ok room, ⟨Nat.le_refl _, ?_⟩, ?_⟩
      · exact inside.trans (length_overwrite_le _ _ _)
      · rw [if_neg long, if_neg full]
        show Result.ok () _ = Result.ok () (Writer.mk (.buffer (overwrite (overwrite _ _ _) _ _)) _)
        rw [overwrite_again _ inside]
        · rfl
        · rw [length_littleEndian, length_zeros]

/-- A finished sequence: the count is filled in where it was left open. -/
theorem finishSequence_of_covers {mark : SequenceMark} {w : Writer}
    (small : count < halfWordLimit) (covers : w.Covers mark) :
    finishSequence mark count w = .ok () (w.fillIn mark count) := by
  obtain ⟨sink, position⟩ := w
  cases sink with
  | measure => exact finishSequence_measuring small mark position
  | buffer bytes => exact finishSequence_of_le small covers.1

/-- What follows a count may be written before it. -/
theorem count_bind {write : Write Unit} (small : count < halfWordLimit) (steady : Steady write)
    (w : Writer) :
    (∃ halt, beginSequence w = .error halt w ∧ (do Writer.count count; write) w = .error halt w) ∨
    ∃ mark after, beginSequence w = .ok mark after ∧ (finalWriter (write after)).Covers mark ∧
      (do Writer.count count; write) w = onWriter (fillIn mark count) (write after) := by
  rcases beginSequence_fillIn small w with
    ⟨halt, failed, counted⟩ | ⟨mark, after, opened, covers, counted⟩
  · exact .inl ⟨halt, failed, bind_of_error counted⟩
  · obtain ⟨kept, same⟩ := steady mark count after covers
    exact .inr ⟨mark, after, opened, kept, (bind_of_ok counted).trans same⟩

end Open

/-- A writer and the marks whose counts are still open, the innermost first. -/
structure Streamer where
  writer : Writer
  marks : List SequenceMark

abbrev Stream := EStateM Halt Streamer

namespace Stream

variable {α β : Type}

def lift (write : Write α) : Stream α := fun s =>
  match write s.writer with
  | .ok value w => .ok value { s with writer := w }
  | .error halt w => .error halt { s with writer := w }

def beginSequence : Stream SequenceMark := do
  let mark ← lift Writer.beginSequence
  modify fun s => { s with marks := mark :: s.marks }
  return mark

def finishSequence (mark : SequenceMark) (count : Nat) : Stream Unit := do
  lift (Writer.finishSequence mark count)
  modify fun s => { s with marks := s.marks.erase mark }

def each : List (Stream Unit) → Stream Unit
  | [] => pure ()
  | element :: rest => do
    element
    each rest

def sequence (elements : List (Stream Unit)) : Stream Unit := do
  let mark ← beginSequence
  each elements
  finishSequence mark elements.length

def counted (elements : List (Stream Unit)) : Stream Unit := do
  lift (Writer.count elements.length)
  each elements

end Stream

mutual

/-- The program writes the value, and with every sequence in it, at any depth, it either begins
with the count or leaves it open to the end. -/
def WireType.Streams : (type : WireType) → type.Value → Stream Unit → Prop
  | .scalar kind, value, program => program = .lift (Writer.scalar kind value)
  | .string, text, program => program = .lift (Writer.string text)
  | .array element _, items, program =>
    ∃ parts, List.Forall₂ element.Streams (Vector.toList items) parts ∧ program = .each parts
  | .sequence element, items, program =>
    ∃ parts, List.Forall₂ element.Streams (Sequence.toList items) parts ∧
      (program = .counted parts ∨ program = .sequence parts)
  | .record _ _ fields, values, program => fields.Streams values program
  | .alias _ target, value, program => target.Streams value program

def Fields.Streams : (fields : Fields) → fields.Value → Stream Unit → Prop
  | .nil, (), program => program = pure ()
  | .cons _ type rest, (value, values), program =>
    ∃ first others, type.Streams value first ∧ rest.Streams values others ∧
      program = (do first; others)

end

/-- How a streamed run ends beside a plain one when `marks` were open before it: as well and with
the same writer, or as badly and with writers that differ only at the marks left open since. -/
def EndsAlike (marks : List SequenceMark) :
    Result Halt Streamer Unit → Result Halt Writer Unit → Prop
  | .ok () s, .ok () w => s = ⟨w, marks⟩
  | .error halt s, .error other w =>
    halt = other ∧ ∃ opened, s.marks = opened ++ marks ∧ SameOutside opened s.writer w
  | _, _ => False

section Ends

variable {marks : List SequenceMark} {streamed : Result Halt Streamer Unit} {w : Writer}

theorem EndsAlike.of_ok (ends : EndsAlike marks streamed (.ok () w)) :
    streamed = .ok () ⟨w, marks⟩ := by
  cases streamed with
  | ok value s => exact congrArg (Result.ok ()) (show s = ⟨w, marks⟩ from ends)
  | error halt s => exact ends.elim

theorem EndsAlike.of_error {halt : Halt} (ends : EndsAlike marks streamed (.error halt w)) :
    ∃ s opened, streamed = .error halt s ∧ s.marks = opened ++ marks ∧
      SameOutside opened s.writer w := by
  cases streamed with
  | ok value s => exact ends.elim
  | error f s =>
    obtain ⟨rfl, opened, left, apart⟩ := ends
    exact ⟨s, opened, rfl, left, apart⟩

end Ends

def Stream.Follows (program : Stream Unit) (plain : Write Unit) : Prop :=
  ∀ marks w, EndsAlike marks (program ⟨w, marks⟩) (plain w)

namespace Stream

variable {program other : Stream Unit} {plain next : Write Unit}

theorem follows_lift (plain : Write Unit) : (lift plain).Follows plain := by
  intro marks w
  rw [lift]
  cases plain w with
  | ok value after => rfl
  | error halt after => exact ⟨rfl, [], rfl, .refl _ _⟩

theorem Follows.bind (first : program.Follows plain) (others : other.Follows next) :
    Follows (do program; other) (do plain; next) := by
  intro marks w
  have ends := first marks w
  cases written : plain w with
  | ok value after =>
    rw [written] at ends
    rw [bind_of_ok written, bind_of_ok ends.of_ok]
    exact others marks after
  | error halt after =>
    rw [written] at ends
    obtain ⟨s, opened, ran, left, apart⟩ := ends.of_error
    rw [bind_of_error written, bind_of_error ran]
    exact ⟨rfl, opened, left, apart⟩

theorem follows_each {α : Type} {encode : α → Write Unit} {streams : α → Stream Unit → Prop}
    {items : List α} {parts : List (Stream Unit)} (written : List.Forall₂ streams items parts)
    (follow : ∀ item ∈ items, ∀ part, streams item part → Follows part (encode item)) :
    (each parts).Follows (encodeEach encode items) := by
  induction written with
  | nil => exact follows_lift (pure ())
  | cons first _ ih =>
    refine (follow _ List.mem_cons_self _ first).bind (ih fun item member => ?_)
    exact follow item (List.mem_cons_of_mem _ member)

theorem beginSequence_of_ok {w after : Writer} {mark : SequenceMark}
    (opened : Writer.beginSequence w = .ok mark after) (marks : List SequenceMark) :
    beginSequence ⟨w, marks⟩ = .ok mark ⟨after, mark :: marks⟩ := by
  have lifted : lift Writer.beginSequence ⟨w, marks⟩ = .ok mark ⟨after, marks⟩ := by
    rw [lift, opened]
  exact bind_of_ok lifted

theorem beginSequence_of_error {w after : Writer} {halt : Halt}
    (failed : Writer.beginSequence w = .error halt after) (marks : List SequenceMark) :
    beginSequence ⟨w, marks⟩ = .error halt ⟨after, marks⟩ := by
  have lifted : lift Writer.beginSequence ⟨w, marks⟩ = .error halt ⟨after, marks⟩ := by
    rw [lift, failed]
  exact bind_of_error lifted

theorem finishSequence_of_covers {count : Nat} {mark : SequenceMark} {w : Writer}
    (small : count < halfWordLimit) (covers : w.Covers mark) (marks : List SequenceMark) :
    finishSequence mark count ⟨w, mark :: marks⟩ = .ok () ⟨w.fillIn mark count, marks⟩ := by
  have lifted : lift (Writer.finishSequence mark count) ⟨w, mark :: marks⟩ =
      .ok () ⟨w.fillIn mark count, mark :: marks⟩ := by
    rw [lift, WireSchema.finishSequence_of_covers small covers]
  have run : finishSequence mark count ⟨w, mark :: marks⟩ =
      .ok () ⟨w.fillIn mark count, (mark :: marks).erase mark⟩ := bind_of_ok lifted
  rw [run, List.erase_cons_head]

/-- A count filled in at the end is as good as one written at the beginning. -/
theorem follows_sequence {parts : List (Stream Unit)} {body : Write Unit}
    (small : parts.length < halfWordLimit) (steady : Steady body)
    (follow : (each parts).Follows body) :
    (sequence parts).Follows (do Writer.count parts.length; body) := by
  intro marks w
  rcases count_bind small steady w with
    ⟨halt, failed, counted⟩ | ⟨mark, after, opened, covers, counted⟩
  · rw [counted, sequence, bind_of_error (beginSequence_of_error failed marks)]
    exact ⟨rfl, [], rfl, .refl _ _⟩
  have ends := follow (mark :: marks) after
  rw [counted, sequence, bind_of_ok (beginSequence_of_ok opened marks)]
  cases written : body after with
  | ok value last =>
    rw [written] at ends covers
    have reached : last.Covers mark := covers
    rw [bind_of_ok ends.of_ok, finishSequence_of_covers small reached]
    rfl
  | error halt last =>
    rw [written] at ends covers
    obtain ⟨s, inner, ran, left, apart⟩ := ends.of_error
    have whole : s.marks = (inner ++ [mark]) ++ marks := by
      rw [left, List.append_assoc, List.singleton_append]
    rw [bind_of_error ran]
    exact ⟨rfl, inner ++ [mark], whole, apart.trans (sameOutside_fillIn covers _)⟩

end Stream

section Encodable

variable {element : WireType} {values : List element.Value}

theorem length_lt_of_encodable
    (encodable : (WireType.sequence element).Encodable (values.map element.content)) :
    values.length < halfWordLimit := by
  have counted := encodable (.count _) List.mem_cons_self
  rwa [WireItem.Encodable, List.length_map] at counted

theorem encodable_of_mem {value : element.Value}
    (encodable : ∀ item ∈ (values.map element.content).flatMap element.items, item.Encodable)
    (member : value ∈ values) : element.Encodable (element.content value) := by
  intro item inside
  exact encodable item (List.mem_flatMap.mpr ⟨_, List.mem_map_of_mem member, inside⟩)

theorem encodable_of_mem_toList {n : Nat} {slots : Vector element.Value n} {value : element.Value}
    (encodable : (WireType.array element n).Encodable (slots.map element.content))
    (member : value ∈ slots.toList) : element.Encodable (element.content value) := by
  refine encodable_of_mem (fun item inside => encodable item ?_) member
  rw [← Vector.toList_map] at inside
  exact inside

end Encodable

mutual

/-- A program that streams a value ends as its encoder does. -/
theorem WireType.follows : (type : WireType) → (value : type.Value) → (program : Stream Unit) →
    type.Streams value program → type.Encodable (type.content value) →
    program.Follows (type.encode value)
  | .scalar _, _, _, streams, _ => by
    rw [show _ = _ from streams]
    exact Stream.follows_lift _
  | .string, _, _, streams, _ => by
    rw [show _ = _ from streams]
    exact Stream.follows_lift _
  | .array element _, items, _, streams, encodable => by
    obtain ⟨parts, written, rfl⟩ := streams
    exact Stream.follows_each written fun item member part streamed =>
      element.follows item part streamed (encodable_of_mem_toList encodable member)
  | .sequence element, items, _, streams, encodable => by
    obtain ⟨parts, written, streamed⟩ := streams
    have small := length_lt_of_encodable encodable
    have same := written.length_eq
    have body : (Stream.each parts).Follows (encodeEach element.encode (Sequence.toList items)) :=
      Stream.follows_each written fun item member part streamed =>
        element.follows item part streamed (encodable_of_mem
          (fun other inside => encodable other (List.mem_cons_of_mem _ inside)) member)
    show Stream.Follows _ (do Writer.count (Sequence.toList items).length; _)
    rw [same] at small ⊢
    rcases streamed with rfl | rfl
    · exact (Stream.follows_lift _).bind body
    · exact Stream.follows_sequence small
        (steady_each fun item _ => element.steady_encode item) body
  | .record _ _ fields, values, program, streams, encodable =>
    fields.follows values program streams encodable
  | .alias _ target, value, program, streams, encodable =>
    target.follows value program streams encodable

theorem Fields.follows : (fields : Fields) → (values : fields.Value) → (program : Stream Unit) →
    fields.Streams values program →
    (∀ item ∈ fields.items (fields.content values), item.Encodable) →
    program.Follows (fields.encode values)
  | .nil, (), _, streams, _ => by
    rw [show _ = _ from streams]
    exact Stream.follows_lift (pure ())
  | .cons _ type rest, (value, values), _, streams, encodable => by
    obtain ⟨first, others, here, there, rfl⟩ := streams
    refine (type.follows value first here fun item member => ?_).bind
      (rest.follows values others there fun item member => ?_)
    · exact encodable item (List.mem_append_left _ member)
    · exact encodable item (List.mem_append_right _ member)

end

def streamSequence {α : Type} (encode : α → Write Unit) (items : List α) : Write Unit := do
  let mark ← Writer.beginSequence
  encodeEach encode items
  Writer.finishSequence mark items.length

def Writer.nextMark (w : Writer) : List SequenceMark :=
  match w.beginSequence with
  | .ok mark _ => [mark]
  | .error _ _ => []

/-- Two runs of a writer that end with the same result, and leave the same writer behind, or after
an error writers that differ only at some marks. -/
def EndsSame (marks : List SequenceMark) (a b : Result Halt Writer Unit) : Prop :=
  match a, b with
  | .ok () w, .ok () v => w = v
  | .error halt w, .error other v => halt = other ∧ SameOutside marks w v
  | _, _ => False

theorem streamSequence_endsSame {α : Type} {encode : α → Write Unit} {items : List α}
    (small : items.length < halfWordLimit) (steady : Steady (encodeEach encode items))
    (w : Writer) :
    EndsSame w.nextMark (streamSequence encode items w)
      (Sequence.encode encode (.shared items) w) := by
  show EndsSame _ _ ((do Writer.count items.length; encodeEach encode items) w)
  rw [Writer.nextMark, streamSequence]
  rcases count_bind small steady w with
    ⟨halt, failed, counted⟩ | ⟨mark, after, opened, covers, counted⟩
  · rw [failed, counted, bind_of_error failed]
    exact ⟨rfl, .refl _ _⟩
  · rw [opened, counted, bind_of_ok opened]
    cases written : encodeEach encode items after with
    | ok value last =>
      rw [written] at covers
      have reached : last.Covers mark := covers
      rw [bind_of_ok written, finishSequence_of_covers small reached]
      rfl
    | error halt last =>
      rw [written] at covers
      rw [bind_of_error written]
      exact ⟨rfl, sameOutside_fillIn covers _⟩

/-- Between a mark and its count, elements are written as the encoder of a sequence writes them
behind their count: with the same result and, if there is no error, the same bytes. The elements
may be streamed themselves; after an error the bytes differ only at marks that were left open. -/
theorem streamed_as_encoded (element : WireType) (items : List element.Value)
    (few : items.length < halfWordLimit)
    (encodable : ∀ item ∈ items, element.Encodable (element.content item)) :
    (∀ w : Writer, EndsSame w.nextMark (streamSequence element.encode items w)
      (Sequence.encode element.encode (.shared items) w)) ∧
    ∀ elements, List.Forall₂ element.Streams items elements → ∀ (w : Writer) (marks),
      EndsAlike marks (Stream.sequence elements ⟨w, marks⟩)
        (Sequence.encode element.encode (.shared items) w) := by
  have steady : Steady (encodeEach element.encode items) :=
    steady_each fun item _ => element.steady_encode item
  refine ⟨streamSequence_endsSame few steady, fun elements streams w marks => ?_⟩
  have body : (Stream.each elements).Follows (encodeEach element.encode items) :=
    Stream.follows_each streams fun item member part streamed =>
      element.follows item part streamed (encodable item member)
  rw [streams.length_eq] at few
  have ends := Stream.follows_sequence few steady body marks w
  rw [← streams.length_eq] at ends
  exact ends

def streamedPair : List (Stream Unit) :=
  [.sequence [.lift (Writer.scalar .uint16 (7 : UInt16)),
    .lift (Writer.scalar .uint16 (8 : UInt16))], .sequence []]

def pairValues : List (WireType.sequence (.scalar .uint16)).Value :=
  [Sequence.shared [(7 : UInt16), (8 : UInt16)], Sequence.shared []]

/-- The second number does not fit any more; both marks are open then. -/
theorem streamed_as_encoded_pair :
    (pairValues.length < halfWordLimit ∧ (∀ item ∈ pairValues,
      WireType.Encodable (.sequence (.scalar .uint16))
        (WireType.content (.sequence (.scalar .uint16)) item)) ∧
      List.Forall₂ (WireType.sequence (.scalar .uint16)).Streams pairValues streamedPair) ∧
    EndsAlike [] (Stream.sequence streamedPair ⟨⟨.buffer (.replicate 15 255), 1⟩, []⟩)
      (Sequence.encode (WireType.encode (.sequence (.scalar .uint16))) (.shared pairValues)
        ⟨.buffer (.replicate 15 255), 1⟩) ∧
    ∃ s, Stream.sequence streamedPair ⟨⟨.buffer (.replicate 15 255), 1⟩, []⟩ =
      .error (.answered (.encodeOverflow 14 2 15)) s ∧ s.marks = [⟨8⟩, ⟨4⟩] := by
  have few : pairValues.length < halfWordLimit := by decide
  have encodable : ∀ item ∈ pairValues, WireType.Encodable (.sequence (.scalar .uint16))
      (WireType.content (.sequence (.scalar .uint16)) item) := by
    decide
  have streams : List.Forall₂ (WireType.sequence (.scalar .uint16)).Streams pairValues
      streamedPair := by
    refine .cons ⟨_, .cons rfl (.cons rfl .nil), .inr rfl⟩ (.cons ⟨_, .nil, .inr rfl⟩ .nil)
  have ends := (streamed_as_encoded _ pairValues few encodable).2 streamedPair streams
    ⟨.buffer (.replicate 15 255), 1⟩ []
  exact ⟨⟨few, encodable, streams⟩, ends, _, rfl, rfl⟩

end WireSchema
