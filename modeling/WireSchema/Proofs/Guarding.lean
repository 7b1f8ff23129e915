import WireSchema.Proofs.Measuring

/-! The writer with a check before every sum, every difference and every range of its buffer. -/

namespace WireSchema

open EStateM (Result)

namespace Guarded

def sum (a b : Nat) : Write Nat := if a + b < wordLimit then pure (a + b) else throw .panic

def difference (a b : Nat) : Write Nat := if b ≤ a then pure (a - b) else throw .panic

def copy (start stop : Nat) (piece : List UInt8) : Write Unit := do
  let w ← get
  if start ≤ stop ∧ stop ≤ w.buffer.length ∧ piece.length = stop - start then
    set (w.store start piece)
  else throw .panic

def moveTo (position : Nat) : Write Unit := modify fun w => { w with position }

def unlessMeasuring (step : Write Unit) : Write Unit := do
  if (← get).isMeasuring then pure () else step

def padding (offset alignment : Nat) : Write Nat :=
  if alignment ≤ 1 then pure 0
  else do
    let mask ← difference alignment 1
    let raised ← sum offset mask
    difference (UInt64.ofNat raised &&& ~~~UInt64.ofNat mask).toNat offset

def reserve (alignment size : Nat) : Write Nat := do
  let w ← get
  let pad ← padding w.position alignment
  let needed := pad + size
  if wordLimit ≤ needed then Writer.fail (.invalidData .lengthOverflow)
  else if w.isMeasuring then sum w.position pad
  else do
    let free ← difference w.buffer.length w.position
    if free < needed then
      Writer.fail (.encodeOverflow w.position needed w.buffer.length)
    else do
      let start ← sum w.position pad
      copy w.position start (zeros pad)
      return start

def place (start : Nat) (piece : List UInt8) : Write Unit := do
  let stop ← sum start piece.length
  unlessMeasuring (copy start stop piece)
  moveTo stop

def append (alignment : Nat) (piece : List UInt8) : Write Unit := do
  let start ← reserve alignment piece.length
  place start piece

def align (alignment : Nat) : Write Unit := do
  let start ← reserve alignment 0
  moveTo start

def count (n : Nat) : Write Unit := do
  append 4 (← Writer.countWord n)

def string (text : String) : Write Unit := do
  let bytes := text.toUTF8.toList
  if bytes.length + 1 < halfWordLimit then do
    let start ← reserve 4 (← sum (← sum 4 bytes.length) 1)
    let body ← sum start 4
    let stop ← sum body bytes.length
    let behind ← sum stop 1
    unlessMeasuring do
      copy start body (littleEndian 4 (bytes.length + 1))
      copy body stop bytes
      copy stop behind [0]
    moveTo behind
  else Writer.fail (.invalidData .stringTooLong)

def beginSequence : Write SequenceMark := do
  let start ← reserve 4 4
  place start (zeros 4)
  return ⟨start⟩

def finishSequence (mark : SequenceMark) (count : Nat) : Write Unit := do
  let word ← Writer.countWord count
  let w ← get
  if w.isMeasuring then pure ()
  else if mark.offset + 4 ≤ w.position then copy mark.offset (mark.offset + 4) word
  else Writer.fail (.invalidData .foreignMark)

end Guarded

section Agrees

variable {α β : Type} {bytes : List UInt8} {position alignment size : Nat} {w : Writer}

theorem bind_guarded {guarded write : Write α} {next others : α → Write β}
    (first : guarded w = write w)
    (rest : ∀ value after, write w = .ok value after → next value after = others value after) :
    (guarded >>= next) w = (write >>= others) w := by
  rw [bind_of_eq first]
  cases run : write w with
  | ok value after =>
    rw [bind_of_ok run, bind_of_ok run]
    exact rest value after run
  | error halt after => rw [bind_of_error run, bind_of_error run]

theorem sum_of_lt {a b : Nat} (short : a + b < wordLimit) (w : Writer) :
    Guarded.sum a b w = .ok (a + b) w := by
  rw [Guarded.sum, if_pos short]
  rfl

theorem difference_of_le {a b : Nat} (less : b ≤ a) (w : Writer) :
    Guarded.difference a b w = .ok (a - b) w := by
  rw [Guarded.difference, if_pos less]
  rfl

theorem copy_of_le {start stop : Nat} {piece : List UInt8} (ends : start + piece.length = stop)
    (fits : stop ≤ bytes.length) :
    Guarded.copy start stop piece ⟨.buffer bytes, position⟩ =
      .ok () ⟨.buffer (overwrite bytes start piece), position⟩ := by
  show (if start ≤ stop ∧ stop ≤ bytes.length ∧ piece.length = stop - start then
    set (Writer.mk (.buffer (overwrite bytes start piece)) position)
    else throw Halt.panic : Write Unit) _ = _
  rw [if_pos (by omega)]
  rfl

theorem unlessMeasuring_of_ok {step : Write Unit} {after : Writer}
    (ran : step ⟨.buffer bytes, position⟩ = .ok () after) :
    Guarded.unlessMeasuring step ⟨.buffer bytes, position⟩ = .ok () after := ran

theorem padding_of_lt (power : alignment.isPowerOfTwo) (small : alignment < wordLimit)
    (short : position < 2 ^ 63) (w : Writer) :
    Guarded.padding position alignment w = .ok (gap position alignment) w := by
  have positive := Nat.pos_of_isPowerOfTwo power
  by_cases trivial : alignment ≤ 1
  · have one : alignment = 1 := by omega
    rw [Guarded.padding, if_pos trivial, one, gap_one]
    rfl
  · have large : 1 < alignment := by omega
    have raised := raised_lt_of_lt power small short
    have next := raised_and_not_mask power large raised
    rw [Guarded.padding, if_neg trivial, bind_of_ok (difference_of_le positive w),
      bind_of_ok (sum_of_lt raised w), next, difference_of_le (Nat.le_add_right _ _),
      Nat.add_sub_cancel_left]

theorem room_of_reserve {start : Nat} {after : Writer} (power : alignment.isPowerOfTwo)
    (inside : position ≤ bytes.length)
    (ran : Writer.reserve alignment size ⟨.buffer bytes, position⟩ = .ok start after) :
    ∃ padded, after = ⟨.buffer padded, position⟩ ∧ padded.length = bytes.length ∧
      start + size ≤ bytes.length := by
  by_cases long : wordLimit ≤ gap position alignment + size
  · rw [Writer.reserve_of_overflow power long] at ran
    cases ran
  have short := Nat.lt_of_not_le long
  by_cases fits : position + (gap position alignment + size) ≤ bytes.length
  · rw [Writer.reserve_of_le power short fits] at ran
    cases ran
    have room : position + (zeros (gap position alignment)).length ≤ bytes.length := by
      rw [length_zeros]
      omega
    exact ⟨_, rfl, length_overwrite bytes _ room, by omega⟩
  · rw [Writer.reserve_of_lt power short inside (Nat.lt_of_not_le fits)] at ran
    cases ran

theorem reserve_guarded (power : alignment.isPowerOfTwo) (small : alignment < wordLimit)
    (inside : position ≤ bytes.length) (short : bytes.length < 2 ^ 63) :
    Guarded.reserve alignment size ⟨.buffer bytes, position⟩ =
      Writer.reserve alignment size ⟨.buffer bytes, position⟩ := by
  have padded := padding_of_lt power small (inside.trans_lt short) ⟨.buffer bytes, position⟩
  have free := difference_of_le inside ⟨.buffer bytes, position⟩
  show (Guarded.padding position alignment >>= _) (Writer.mk (.buffer bytes) position) = _
  rw [bind_of_ok padded]
  -- The same three ends as in `Writer.reserve`, each behind the checks that it needs.
  by_cases long : wordLimit ≤ gap position alignment + size
  · rw [if_pos long, Writer.reserve_of_overflow power long]
    rfl
  have counted := Nat.lt_of_not_le long
  rw [if_neg long]
  show (Guarded.difference bytes.length position >>= _) (Writer.mk (.buffer bytes) position) = _
  rw [bind_of_ok free]
  by_cases fits : position + (gap position alignment + size) ≤ bytes.length
  · have stop : position + gap position alignment < wordLimit := by
      have : 2 ^ 63 < wordLimit := by decide
      omega
    have ends : position + (zeros (gap position alignment)).length =
        position + gap position alignment := by
      rw [length_zeros]
    rw [if_neg (by omega), bind_of_ok (sum_of_lt stop _), bind_of_ok (copy_of_le ends (by omega)),
      Writer.reserve_of_le power counted fits]
    rfl
  · have exceeds := Nat.lt_of_not_le fits
    rw [if_pos (by omega), Writer.reserve_of_lt power counted inside exceeds]
    rfl

theorem place_of_le {start : Nat} {piece : List UInt8}
    (room : start + piece.length ≤ bytes.length) (short : bytes.length < 2 ^ 63) :
    Guarded.place start piece ⟨.buffer bytes, position⟩ =
      Writer.place start piece ⟨.buffer bytes, position⟩ := by
  have stop : start + piece.length < wordLimit := room.trans_lt (short.trans (by decide))
  rw [Guarded.place, bind_of_ok (sum_of_lt stop _),
    bind_of_ok (unlessMeasuring_of_ok (copy_of_le rfl room))]
  rfl

theorem reserved_guarded {next : Nat → Write α} {others : Nat → Write α}
    (power : alignment.isPowerOfTwo) (small : alignment < wordLimit)
    (inside : position ≤ bytes.length) (short : bytes.length < 2 ^ 63)
    (rest : ∀ start padded, padded.length = bytes.length → start + size ≤ padded.length →
      next start ⟨.buffer padded, position⟩ = others start ⟨.buffer padded, position⟩) :
    (Guarded.reserve alignment size >>= next) ⟨.buffer bytes, position⟩ =
      (Writer.reserve alignment size >>= others) ⟨.buffer bytes, position⟩ := by
  apply bind_guarded (reserve_guarded power small inside short)
  intro start after ran
  obtain ⟨padded, rfl, same, room⟩ := room_of_reserve power inside ran
  exact rest start padded same (by omega)

theorem append_guarded (power : alignment.isPowerOfTwo) (small : alignment < wordLimit)
    (inside : position ≤ bytes.length) (short : bytes.length < 2 ^ 63) (piece : List UInt8) :
    Guarded.append alignment piece ⟨.buffer bytes, position⟩ =
      Writer.append alignment piece ⟨.buffer bytes, position⟩ := by
  apply reserved_guarded power small inside short
  intro start padded same room
  exact place_of_le room (by omega)

theorem align_guarded (power : alignment.isPowerOfTwo) (small : alignment < wordLimit)
    (inside : position ≤ bytes.length) (short : bytes.length < 2 ^ 63) :
    Guarded.align alignment ⟨.buffer bytes, position⟩ =
      Writer.align alignment ⟨.buffer bytes, position⟩ := by
  rw [Writer.align_of_lt power small (raised_lt_of_lt power small (inside.trans_lt short))]
  apply reserved_guarded power small inside short
  intro start padded same room
  have placed : Writer.place start [] ⟨.buffer padded, position⟩ =
      .ok () ⟨.buffer padded, start⟩ := by
    simp only [Writer.place, overwrite_nil, List.length_nil, Nat.add_zero]
  rw [placed]
  rfl

theorem beginSequence_guarded (inside : position ≤ bytes.length) (short : bytes.length < 2 ^ 63) :
    Guarded.beginSequence ⟨.buffer bytes, position⟩ =
      Writer.beginSequence ⟨.buffer bytes, position⟩ := by
  apply reserved_guarded ⟨2, rfl⟩ (by decide) inside short
  intro start padded same room
  have placed : Guarded.place start (zeros 4) ⟨.buffer padded, position⟩ = .ok () _ :=
    place_of_le room (by omega)
  rw [bind_of_ok placed]
  rfl

/-- Three pieces stored one behind the other are one piece. -/
theorem copies_of_le {front middle back : List UInt8} {start body stop behind : Nat}
    (first : start + front.length = body) (second : body + middle.length = stop)
    (third : stop + back.length = behind) (room : behind ≤ bytes.length) :
    (do Guarded.copy start body front
        Guarded.copy body stop middle
        Guarded.copy stop behind back) ⟨.buffer bytes, position⟩ =
      .ok () ⟨.buffer (overwrite bytes start (front ++ middle ++ back)), position⟩ := by
  have once : (overwrite bytes start front).length = bytes.length :=
    length_overwrite _ _ (by omega)
  have twice : overwrite (overwrite bytes start front) body middle =
      overwrite bytes start (front ++ middle) := by
    rw [← first, overwrite_overwrite _ _ _ (by omega)]
  have both : start + (front ++ middle).length = stop := by
    rw [List.length_append]
    omega
  have joined : (overwrite bytes start (front ++ middle)).length = bytes.length :=
    length_overwrite _ _ (by omega)
  rw [bind_of_ok (copy_of_le first (by omega)), bind_of_ok (copy_of_le second (by omega)), twice,
    copy_of_le third (by omega), ← both, overwrite_overwrite _ _ _ (by omega)]

theorem string_guarded (inside : position ≤ bytes.length) (short : bytes.length < 2 ^ 63)
    (text : String) :
    Guarded.string text ⟨.buffer bytes, position⟩ =
      Writer.string text ⟨.buffer bytes, position⟩ := by
  rw [Guarded.string, Writer.string]
  by_cases fits : text.toUTF8.toList.length + 1 < halfWordLimit
  · simp only [if_pos fits]
    generalize text.toUTF8.toList = body at fits
    have half : 2 ^ 63 < wordLimit ∧ halfWordLimit + 4 < wordLimit := by decide
    have size : (littleEndian 4 (body.length + 1) ++ body ++ [0]).length = 4 + body.length + 1 := by
      rw [List.length_append, List.length_append, length_littleEndian, List.length_singleton]
    rw [bind_of_ok (sum_of_lt (show 4 + body.length < wordLimit by omega) _),
      bind_of_ok (sum_of_lt (show 4 + body.length + 1 < wordLimit by omega) _), Writer.append, size]
    apply reserved_guarded ⟨2, rfl⟩ (by decide) inside short
    intro start padded same room
    -- The room is for all three pieces, so no copy can leave the buffer.
    have first : start + (littleEndian 4 (body.length + 1)).length = start + 4 := by
      rw [length_littleEndian]
    have third : start + 4 + body.length + [(0 : UInt8)].length = start + 4 + body.length + 1 := rfl
    have stop : start + 4 + body.length + 1 ≤ padded.length := by omega
    rw [bind_of_ok (sum_of_lt (show start + 4 < wordLimit by omega) _),
      bind_of_ok (sum_of_lt (show start + 4 + body.length < wordLimit by omega) _),
      bind_of_ok (sum_of_lt (show start + 4 + body.length + 1 < wordLimit by omega) _),
      bind_of_ok (unlessMeasuring_of_ok (copies_of_le first rfl third stop))]
    have ends : start + 4 + body.length + 1 =
        start + (littleEndian 4 (body.length + 1) ++ body ++ [0]).length := by
      rw [size]
      omega
    rw [ends]
    rfl
  · simp only [if_neg fits]

theorem countWord_eq_ok {count : Nat} {word : List UInt8} {after : Writer}
    (ran : Writer.countWord count w = .ok word after) :
    word = littleEndian 4 count ∧ after = w := by
  rw [Writer.countWord] at ran
  split at ran <;> cases ran
  exact ⟨rfl, rfl⟩

theorem count_guarded (inside : position ≤ bytes.length) (short : bytes.length < 2 ^ 63)
    (n : Nat) : Guarded.count n ⟨.buffer bytes, position⟩ =
      Writer.count n ⟨.buffer bytes, position⟩ := by
  apply bind_guarded rfl
  intro word after ran
  rw [(countWord_eq_ok ran).2]
  exact append_guarded ⟨2, rfl⟩ (by decide) inside short word

theorem finishSequence_guarded (inside : position ≤ bytes.length) (mark : SequenceMark)
    (elements : Nat) :
    Guarded.finishSequence mark elements ⟨.buffer bytes, position⟩ =
      Writer.finishSequence mark elements ⟨.buffer bytes, position⟩ := by
  apply bind_guarded rfl
  intro word after ran
  obtain ⟨rfl, rfl⟩ := countWord_eq_ok ran
  show (if mark.offset + 4 ≤ position then Guarded.copy mark.offset (mark.offset + 4) _
      else Writer.fail (.invalidData .foreignMark) : Write Unit) _ =
    (if mark.offset + 4 ≤ position then set (Writer.store mark.offset _ _)
      else Writer.fail (.invalidData .foreignMark) : Write Unit) _
  by_cases below : mark.offset + 4 ≤ position
  · have ends : mark.offset + (littleEndian 4 elements).length = mark.offset + 4 := by
      rw [length_littleEndian]
    rw [if_pos below, if_pos below, copy_of_le ends (below.trans inside)]
    rfl
  · rw [if_neg below, if_neg below]

end Agrees

namespace WriterOperation

variable {operation : WriterOperation} {marks : List SequenceMark} {bytes : List UInt8}
  {position : Nat}

/-- The call with its checks. -/
def guarded (marks : List SequenceMark) : WriterOperation → Write (List SequenceMark)
  | .scalar kind value => do
    Guarded.append kind.width (kind.bytes value)
    return marks
  | .string text => do
    Guarded.string text
    return marks
  | .raw bytes => do
    Guarded.append 1 bytes
    return marks
  | .count n => do
    Guarded.count n
    return marks
  | .align alignment => do
    Guarded.align alignment
    return marks
  | .beginSequence => do
    return marks ++ [← Guarded.beginSequence]
  | .finishSequence mark elements =>
    match marks[mark]? with
    | some mark => do
      Guarded.finishSequence mark elements
      return marks
    | none => return marks

/-- Inside a buffer no check fails. -/
theorem guarded_eq_perform (regular : operation.Aligned) (inside : position ≤ bytes.length)
    (short : bytes.length < 2 ^ 63) (marks : List SequenceMark) :
    operation.guarded marks ⟨.buffer bytes, position⟩ =
      operation.perform marks ⟨.buffer bytes, position⟩ := by
  cases operation with
  | scalar kind value =>
    have small : kind.width < wordLimit := Nat.lt_of_le_of_lt kind.width_le (by decide)
    have written := append_guarded kind.width_isPowerOfTwo small inside short (kind.bytes value)
    exact bind_guarded written fun _ _ _ => rfl
  | string text => exact bind_guarded (string_guarded inside short text) fun _ _ _ => rfl
  | raw piece =>
    have written := append_guarded ⟨0, rfl⟩ (by decide) inside short piece
    exact bind_guarded written fun _ _ _ => rfl
  | count n => exact bind_guarded (count_guarded inside short n) fun _ _ _ => rfl
  | align alignment =>
    have moved := align_guarded regular.1 regular.2 inside short
    exact bind_guarded moved fun _ _ _ => rfl
  | beginSequence =>
    exact bind_guarded (beginSequence_guarded inside short) fun _ _ _ => rfl
  | finishSequence mark elements =>
    rw [guarded, perform]
    cases known : marks[mark]? with
    | none => rfl
    | some found =>
      exact bind_guarded (finishSequence_guarded inside found elements) fun _ _ _ => rfl

end WriterOperation

end WireSchema
