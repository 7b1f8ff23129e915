import WireSchema.Proofs.Layout
import WireSchema.Proofs.Step
import WireSchema.Proofs.Word

/-! What the writer does with a piece of bytes and with an item. -/

namespace WireSchema

theorem length_overwrite (bytes piece : List UInt8) {start : Nat}
    (fits : start + piece.length ≤ bytes.length) :
    (overwrite bytes start piece).length = bytes.length := by
  simp only [overwrite, List.length_append, List.length_take, List.length_drop]
  omega

theorem overwrite_nil (bytes : List UInt8) (start : Nat) : overwrite bytes start [] = bytes := by
  simp [overwrite]

/-- Two pieces written one behind the other are one piece. -/
theorem overwrite_overwrite (bytes front back : List UInt8) {start : Nat}
    (inside : start ≤ bytes.length) :
    overwrite (overwrite bytes start front) (start + front.length) back =
      overwrite bytes start (front ++ back) := by
  have head : (bytes.take start ++ front).length = start + front.length := by
    rw [List.length_append, List.length_take, Nat.min_eq_left inside]
  have kept : (overwrite bytes start front).take (start + front.length) =
      bytes.take start ++ front := by
    rw [overwrite, List.take_left' head]
  have rest : (overwrite bytes start front).drop (start + front.length + back.length) =
      bytes.drop (start + (front ++ back).length) := by
    rw [overwrite, ← List.drop_drop, List.drop_left' head, List.drop_drop, List.length_append,
      Nat.add_assoc]
  rw [overwrite, kept, rest, overwrite]
  simp only [List.append_assoc]

section Overwrite

variable {bytes front middle back piece other : List UInt8} {start place : Nat}

theorem overwrite_append (front back piece : List UInt8) (start : Nat) :
    overwrite (front ++ back) (front.length + start) piece =
      front ++ overwrite back start piece := by
  have taken : (front ++ back).take (front.length + start) = front ++ back.take start := by
    simp [List.take_append]
  have dropped : (front ++ back).drop (front.length + start + piece.length) =
      back.drop (start + piece.length) := by
    rw [Nat.add_assoc, ← List.drop_drop, List.drop_left]
  rw [overwrite, taken, dropped, overwrite]
  simp only [List.append_assoc]

theorem overwrite_middle (same : middle.length = piece.length) :
    overwrite (front ++ (middle ++ back)) front.length piece = front ++ (piece ++ back) := by
  have whole := overwrite_append front (middle ++ back) piece 0
  rw [Nat.add_zero] at whole
  rw [whole, overwrite, List.take_zero, List.nil_append, Nat.zero_add, ← same, List.drop_left]

theorem exists_parts (inside : place + piece.length ≤ bytes.length) :
    ∃ front middle back, bytes = front ++ (middle ++ back) ∧ front.length = place ∧
      middle.length = piece.length := by
  refine ⟨bytes.take place, (bytes.drop place).take piece.length,
    (bytes.drop place).drop piece.length, ?_, ?_, ?_⟩
  · rw [List.take_append_drop, List.take_append_drop]
  · rw [List.length_take]
    omega
  · rw [List.length_take, List.length_drop]
    omega

/-- A piece is gone when another of its length is written in its place. -/
theorem overwrite_again (same : other.length = piece.length)
    (inside : place + piece.length ≤ bytes.length) :
    overwrite (overwrite bytes place piece) place other = overwrite bytes place other := by
  obtain ⟨front, middle, back, rfl, rfl, length⟩ := exists_parts inside
  rw [overwrite_middle length, overwrite_middle same.symm,
    overwrite_middle (length.trans same.symm)]

/-- A piece that lies before another can be written before or after it. -/
theorem overwrite_comm (below : place + other.length ≤ start)
    (inside : place + other.length ≤ bytes.length) :
    overwrite (overwrite bytes place other) start piece =
      overwrite (overwrite bytes start piece) place other := by
  obtain ⟨rest, rfl⟩ := Nat.exists_eq_add_of_le below
  obtain ⟨front, middle, back, rfl, rfl, length⟩ := exists_parts inside
  have after (word : List UInt8) (same : word.length = other.length) :
      overwrite (front ++ (word ++ back)) (front.length + other.length + rest) piece =
        front ++ (word ++ overwrite back rest piece) := by
    rw [Nat.add_assoc, overwrite_append, ← same, overwrite_append]
  rw [overwrite_middle length, after other rfl, after middle length, overwrite_middle length]

theorem getElem?_overwrite_of_outside (inside : start + piece.length ≤ bytes.length)
    (outside : place < start ∨ start + piece.length ≤ place) :
    (overwrite bytes start piece)[place]? = bytes[place]? := by
  obtain ⟨front, middle, back, rfl, rfl, length⟩ := exists_parts inside
  rw [overwrite_middle length]
  rcases outside with before | after
  · rw [List.getElem?_append_left before, List.getElem?_append_left before]
  · have behind : front.length ≤ place := (Nat.le_add_right _ _).trans after
    rw [List.getElem?_append_right behind, List.getElem?_append_right behind,
      List.getElem?_append_right (by omega), List.getElem?_append_right (by omega), length]

theorem getElem?_overwrite_of_lt (inside : start + piece.length ≤ bytes.length)
    (within : place < piece.length) :
    (overwrite bytes start piece)[start + place]? = piece[place]? := by
  obtain ⟨front, middle, back, rfl, rfl, length⟩ := exists_parts inside
  rw [overwrite_middle length, List.getElem?_append_right (Nat.le_add_right _ _),
    Nat.add_sub_cancel_left, List.getElem?_append_left within]

end Overwrite

namespace Writer

variable {alignment size : Nat} {piece bytes : List UInt8} {position : Nat}

/-- A measuring writer only ever changes its position. -/
theorem reserve_measuring_cases (alignment size position : Nat) :
    (∃ start, reserve alignment size ⟨.measure, position⟩ = .ok start ⟨.measure, position⟩) ∨
      ∃ halt, reserve alignment size ⟨.measure, position⟩ = .error halt ⟨.measure, position⟩ := by
  rw [reserve]
  cases padding (.ofNat position) (.ofNat alignment) with
  | none => exact .inr ⟨_, rfl⟩
  | some pad =>
    dsimp only
    split
    · exact .inr ⟨_, rfl⟩
    · exact .inl ⟨_, rfl⟩

theorem place_measuring_cases (start : Nat) (piece : List UInt8) (position : Nat) :
    (∃ next, place start piece ⟨.measure, position⟩ = .ok () ⟨.measure, next⟩) ∨
      place start piece ⟨.measure, position⟩ = .error .panic ⟨.measure, position⟩ := by
  rw [place]
  dsimp only
  split
  · exact .inl ⟨_, rfl⟩
  · exact .inr rfl

theorem append_measuring_cases (alignment : Nat) (piece : List UInt8) (position : Nat) :
    (∃ next, append alignment piece ⟨.measure, position⟩ = .ok () ⟨.measure, next⟩) ∨
      ∃ halt, append alignment piece ⟨.measure, position⟩ = .error halt ⟨.measure, position⟩ := by
  rcases reserve_measuring_cases alignment piece.length position with ⟨start, room⟩ | ⟨halt, failed⟩
  · rw [append, bind_of_ok room]
    exact (place_measuring_cases start piece position).imp_right fun placed => ⟨_, placed⟩
  · exact .inr ⟨halt, bind_of_error failed⟩

theorem append_buffer (alignment : Nat) (piece bytes : List UInt8) (position : Nat) :
    append alignment piece ⟨.buffer bytes, position⟩ =
      if wordLimit ≤ paddingAt position alignment + piece.length then
        .error (.answered (.invalidData .lengthOverflow)) ⟨.buffer bytes, position⟩
      else if bytes.length - position < paddingAt position alignment + piece.length then
        .error (.answered (.encodeOverflow position (paddingAt position alignment + piece.length)
          bytes.length)) ⟨.buffer bytes, position⟩
      else .ok () ⟨.buffer (overwrite
          (overwrite bytes position (zeros (paddingAt position alignment)))
          (position + paddingAt position alignment) piece),
        position + paddingAt position alignment + piece.length⟩ := by
  show EStateM.bind (reserve alignment piece.length) _ _ = _
  rw [EStateM.bind, reserve]
  by_cases long : wordLimit ≤ paddingAt position alignment + piece.length
  · simp only [if_pos long]
  · by_cases full : bytes.length - position < paddingAt position alignment + piece.length
    · simp only [if_neg long, if_pos full]
    · simp only [if_neg long, if_neg full]
      rfl

theorem reserve_measuring_of_lt (power : alignment.isPowerOfTwo) (small : alignment < wordLimit)
    (start : position + gap position alignment < wordLimit)
    (short : gap position alignment + size < wordLimit) :
    reserve alignment size ⟨.measure, position⟩ =
      .ok (position + gap position alignment) ⟨.measure, position⟩ := by
  obtain ⟨pad, found, least⟩ := padding_eq_some power small (raised_lt power small start)
  simp only [reserve, found, least, if_neg (Nat.not_le_of_lt short)]

/-- The one sum that is checked is that of the padding and the size. -/
theorem reserve_measuring_of_overflow (power : alignment.isPowerOfTwo)
    (small : alignment < wordLimit) (start : position + gap position alignment < wordLimit)
    (long : wordLimit ≤ gap position alignment + size) :
    reserve alignment size ⟨.measure, position⟩ =
      .error (.answered (.invalidData .lengthOverflow)) ⟨.measure, position⟩ := by
  obtain ⟨pad, found, least⟩ := padding_eq_some power small (raised_lt power small start)
  simp only [reserve, found, least, if_pos long]

theorem reserve_measuring_of_le (power : alignment.isPowerOfTwo) (small : alignment < wordLimit)
    (inside : position < wordLimit) (passed : wordLimit ≤ position + gap position alignment)
    (size : Nat) :
    reserve alignment size ⟨.measure, position⟩ = .error .panic ⟨.measure, position⟩ := by
  have below := gap_lt position (Nat.pos_of_isPowerOfTwo power)
  have raised := padding_eq_none small inside (show wordLimit ≤ position + (alignment - 1) by omega)
  simp only [reserve, raised]

theorem reserve_of_overflow (power : alignment.isPowerOfTwo)
    (long : wordLimit ≤ gap position alignment + size) :
    reserve alignment size ⟨.buffer bytes, position⟩ =
      .error (.answered (.invalidData .lengthOverflow)) ⟨.buffer bytes, position⟩ := by
  simp only [reserve, paddingAt_eq_gap _ power, if_pos long]

theorem reserve_of_le (power : alignment.isPowerOfTwo)
    (short : gap position alignment + size < wordLimit)
    (fits : position + (gap position alignment + size) ≤ bytes.length) :
    reserve alignment size ⟨.buffer bytes, position⟩ =
      .ok (position + gap position alignment)
        ⟨.buffer (overwrite bytes position (zeros (gap position alignment))), position⟩ := by
  simp only [reserve, paddingAt_eq_gap _ power]
  rw [if_neg (Nat.not_le_of_lt short), if_neg (by omega)]

theorem reserve_of_lt (power : alignment.isPowerOfTwo)
    (short : gap position alignment + size < wordLimit) (inside : position ≤ bytes.length)
    (exceeds : bytes.length < position + (gap position alignment + size)) :
    reserve alignment size ⟨.buffer bytes, position⟩ =
      .error (.answered (.encodeOverflow position (gap position alignment + size) bytes.length))
        ⟨.buffer bytes, position⟩ := by
  simp only [reserve, paddingAt_eq_gap _ power]
  rw [if_neg (Nat.not_le_of_lt short), if_pos (by omega)]

theorem append_measuring_of_lt (power : alignment.isPowerOfTwo) (small : alignment < wordLimit)
    (short : position + (aligned alignment position piece).length < wordLimit) :
    append alignment piece ⟨.measure, position⟩ =
      .ok () ⟨.measure, position + (aligned alignment position piece).length⟩ := by
  rw [length_aligned] at short ⊢
  have placed : place (position + gap position alignment) piece ⟨.measure, position⟩ =
      .ok () ⟨.measure, position + gap position alignment + piece.length⟩ := if_pos (by omega)
  rw [append, bind_of_ok (reserve_measuring_of_lt power small (by omega) (by omega)), placed,
    Nat.add_assoc]

/-- The end of the word is passed by the padding or by the piece. -/
theorem append_measuring_of_le (power : alignment.isPowerOfTwo) (small : alignment < wordLimit)
    (inside : position < wordLimit) (short : (aligned alignment position piece).length < wordLimit)
    (passed : wordLimit ≤ position + (aligned alignment position piece).length) :
    append alignment piece ⟨.measure, position⟩ = .error .panic ⟨.measure, position⟩ := by
  rw [length_aligned] at short passed
  by_cases start : position + gap position alignment < wordLimit
  · have placed : place (position + gap position alignment) piece ⟨.measure, position⟩ =
        .error .panic ⟨.measure, position⟩ := if_neg (by omega)
    rw [append, bind_of_ok (reserve_measuring_of_lt power small start short), placed]
  · have stopped := reserve_measuring_of_le power small inside (Nat.le_of_not_lt start)
    rw [append, bind_of_error (stopped _)]

theorem align_of_lt (power : alignment.isPowerOfTwo) (small : alignment < wordLimit) {w : Writer}
    (short : w.position + (alignment - 1) < wordLimit) :
    align alignment w = append alignment [] w := by
  obtain ⟨pad, found, -⟩ := padding_eq_some power small short
  simp [align, found]

/-- The check of `reserve` is the same. -/
theorem align_measuring (alignment position : Nat) :
    align alignment ⟨.measure, position⟩ = append alignment [] ⟨.measure, position⟩ := by
  rw [align]
  cases checked : padding (.ofNat position) (.ofNat alignment) with
  | some pad => simp
  | none =>
    have stopped :
        reserve alignment 0 ⟨.measure, position⟩ = .error .panic ⟨.measure, position⟩ := by
      simp only [reserve, checked]
    exact (bind_of_error stopped).symm

theorem append_of_le (power : alignment.isPowerOfTwo)
    (short : (aligned alignment position piece).length < wordLimit)
    (fits : position + (aligned alignment position piece).length ≤ bytes.length) :
    append alignment piece ⟨.buffer bytes, position⟩ =
      .ok () ⟨.buffer (overwrite bytes position (aligned alignment position piece)),
        position + (aligned alignment position piece).length⟩ := by
  rw [length_aligned] at short fits
  have inside : position ≤ bytes.length := by omega
  have joined := overwrite_overwrite bytes (zeros (gap position alignment)) piece inside
  rw [length_zeros] at joined
  rw [append, bind_of_ok (reserve_of_le power short fits)]
  simp only [place]
  rw [length_aligned, aligned, ← joined, Nat.add_assoc]

theorem append_of_lt (power : alignment.isPowerOfTwo)
    (short : (aligned alignment position piece).length < wordLimit)
    (inside : position ≤ bytes.length)
    (exceeds : bytes.length < position + (aligned alignment position piece).length) :
    append alignment piece ⟨.buffer bytes, position⟩ =
      .error (.answered (.encodeOverflow position (aligned alignment position piece).length
        bytes.length)) ⟨.buffer bytes, position⟩ := by
  rw [length_aligned] at short exceeds ⊢
  rw [append, bind_of_error (reserve_of_lt power short inside exceeds)]

end Writer

namespace WireItem

def write : WireItem → Write Unit
  | .scalar kind value => Writer.scalar kind value
  | .count n => Writer.count n
  | .text string => Writer.string string

theorem width_isPowerOfTwo (item : WireItem) : item.width.isPowerOfTwo := by
  cases item with
  | scalar kind value => exact kind.width_isPowerOfTwo
  | count n => exact ⟨2, rfl⟩
  | text string => exact ⟨2, rfl⟩

theorem width_le (item : WireItem) : item.width ≤ 8 := by
  cases item with
  | scalar kind value => exact kind.width_le
  | count n => exact (by decide : 4 ≤ 8)
  | text string => exact (by decide : 4 ≤ 8)

theorem width_pos (item : WireItem) : 0 < item.width :=
  Nat.pos_of_isPowerOfTwo item.width_isPowerOfTwo

theorem width_lt (item : WireItem) : item.width < wordLimit :=
  Nat.lt_of_le_of_lt item.width_le (by decide)

theorem length_bytes_lt {item : WireItem} (encodable : item.Encodable) :
    item.bytes.length < halfWordLimit + 4 := by
  cases item with
  | scalar kind value =>
    have := kind.width_le
    rw [bytes, Scalar.length_bytes]
    have : 8 < halfWordLimit := by decide
    omega
  | count n =>
    rw [bytes, length_littleEndian]
    decide
  | text string =>
    rw [bytes, length_stringBytes]
    have : string.toUTF8.toList.length + 1 < halfWordLimit := encodable
    omega

theorem length_layout_lt (offset : Nat) {item : WireItem} (encodable : item.Encodable) :
    (item.layout offset).length < wordLimit := by
  have size := length_bytes_lt encodable
  have pad := gap_lt offset item.width_pos
  have width := item.width_le
  rw [layout, length_aligned]
  have : halfWordLimit + 4 + 8 < wordLimit := by decide
  omega

/-- The three kinds of item differ in what they check; what they append has one form. -/
theorem write_eq_append {item : WireItem} (encodable : item.Encodable) :
    item.write = Writer.append item.width item.bytes := by
  cases item with
  | scalar kind value => rfl
  | count n =>
    have small : n < halfWordLimit := encodable
    rw [write, Writer.count, Writer.countWord, if_pos small, pure_bind]
    rfl
  | text string =>
    have small : string.toUTF8.toList.length + 1 < halfWordLimit := encodable
    rw [write, Writer.string]
    exact if_pos small

theorem write_of_not_encodable {item : WireItem} (excess : ¬ item.Encodable) :
    ∃ fault, ∀ w, item.write w = .error (.answered (.invalidData fault)) w := by
  cases item with
  | scalar kind value => exact (excess trivial).elim
  | count n =>
    have large : ¬ n < halfWordLimit := excess
    refine ⟨.countTooLarge, fun w => ?_⟩
    rw [write, Writer.count, Writer.countWord, if_neg large]
    rfl
  | text string =>
    have large : ¬ string.toUTF8.toList.length + 1 < halfWordLimit := excess
    refine ⟨.stringTooLong, fun w => ?_⟩
    rw [write, Writer.string]
    simp only [if_neg large]
    rfl

/-- Only a measuring writer panics. -/
theorem write_buffer_cases (item : WireItem) (bytes : List UInt8) (position : Nat) :
    (∃ after next, item.write ⟨.buffer bytes, position⟩ = .ok () ⟨.buffer after, next⟩) ∨
      ∃ e, item.write ⟨.buffer bytes, position⟩ =
        .error (.answered e) ⟨.buffer bytes, position⟩ := by
  by_cases encodable : item.Encodable
  · rw [write_eq_append encodable, Writer.append_buffer]
    split
    · exact .inr ⟨_, rfl⟩
    · split
      · exact .inr ⟨_, rfl⟩
      · exact .inl ⟨_, _, rfl⟩
  · obtain ⟨fault, failed⟩ := write_of_not_encodable encodable
    exact .inr ⟨_, failed _⟩

end WireItem

end WireSchema
