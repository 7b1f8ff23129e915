import WireSchema.Proofs.Guarding
import WireSchema.Proofs.Reading

/-! Reading by ranges of the whole input, with a check before every sum, difference and range. -/

namespace WireSchema

open EStateM (Result)

def slice (input : List UInt8) (start size : Nat) : List UInt8 := (input.drop start).take size

def saturated (n : Nat) : Nat := min n (wordLimit - 1)

def Reader.within (input : List UInt8) (position : Nat) : Reader := ⟨position, input.drop position⟩

/-- A step of reading that knows its position alone. -/
abbrev Sliced := EStateM Halt Nat

namespace Sliced

def sum (a b : Nat) : Sliced Nat := if a + b < wordLimit then pure (a + b) else throw .panic

def difference (a b : Nat) : Sliced Nat := if b ≤ a then pure (a - b) else throw .panic

def range (input : List UInt8) (start stop : Nat) : Sliced (List UInt8) :=
  if start ≤ stop ∧ stop ≤ input.length then pure (slice input start (stop - start))
  else throw .panic

def padding (offset alignment : Nat) : Sliced Nat :=
  if alignment ≤ 1 then pure 0
  else do
    let mask ← difference alignment 1
    let raised ← sum offset mask
    difference (UInt64.ofNat raised &&& ~~~UInt64.ofNat mask).toNat offset

def take (input : List UInt8) (alignment size : Nat) : Sliced (List UInt8) := do
  let position ← get
  let pad ← padding position alignment
  let needed := saturated (pad + size)
  let left ← difference input.length position
  if left < needed then throw (.answered (.decodeUnderflow position needed left))
  else do
    let start ← sum position pad
    let stop ← sum start size
    set stop
    range input start stop

def exactly (input : List UInt8) (width : Nat) : Sliced (List UInt8) := do
  let bytes ← take input width width
  if bytes.length = width then pure bytes else throw .panic

def scalar (input : List UInt8) (kind : Scalar) : Sliced kind.Carrier := do
  let bytes ← exactly input kind.width
  pure (kind.ofBytes bytes)

def raw (input : List UInt8) (size : Nat) : Sliced (List UInt8) := take input 1 size

def align (input : List UInt8) (alignment : Nat) : Sliced Unit := do
  let _ ← take input alignment 0

def word (input : List UInt8) : Sliced Nat := do
  let bytes ← exactly input 4
  pure (ofLittleEndian bytes)

def count (input : List UInt8) (minSize : Nat) : Sliced Nat := do
  let offset ← get
  let n ← word input
  let needed := saturated (n * minSize)
  let left ← difference input.length (← get)
  if left < needed then throw (.answered (.decodeUnderflow offset needed left))
  pure n

def terminated (bytes : List UInt8) : Sliced String := do
  let cut ← difference bytes.length 1
  if bytes.drop cut = [0] then
    match utf8? (bytes.take cut) with
    | some text => pure text
    | none => throw (.answered (.invalidData .invalidUtf8))
  else throw (.answered (.invalidData .unterminatedString))

def string (input : List UInt8) : Sliced String := do
  let length ← word input
  if length = 0 then pure "" else take input 1 length >>= terminated

end Sliced

theorem signed_lt_word : 2 ^ 63 < wordLimit - 1 := by decide

section Take

variable {input : List UInt8} {position alignment size : Nat}

theorem length_slice (fits : position + size ≤ input.length) :
    (slice input position size).length = size := by
  rw [slice, List.length_take, List.length_drop]
  omega

namespace Reader

theorem take_of_few (power : alignment.isPowerOfTwo)
    (few : input.length - position < saturated (gap position alignment + size)) :
    take alignment size (within input position) =
      .error (.decodeUnderflow position (saturated (gap position alignment + size))
        (input.length - position)) (within input position) := by
  rw [saturated] at few
  simp only [take, within, remaining, List.length_drop, paddingAt_eq_gap _ power, saturated,
    if_pos few]

/-- More than a word can say never fits. -/
theorem fits_of_enough (inside : position ≤ input.length) (short : input.length < wordLimit - 1)
    {n : Nat} (enough : saturated n ≤ input.length - position) : position + n ≤ input.length := by
  rw [saturated] at enough
  omega

theorem take_of_fits (power : alignment.isPowerOfTwo)
    (fits : position + (gap position alignment + size) ≤ input.length) :
    take alignment size (within input position) =
      .ok (slice input (position + gap position alignment) size)
        (within input (position + gap position alignment + size)) := by
  have enough : ¬ input.length - position <
      min (gap position alignment + size) (wordLimit - 1) := by
    omega
  simp only [take, within, remaining, List.length_drop, paddingAt_eq_gap _ power,
    if_neg enough, List.drop_drop, slice, Nat.add_assoc]

/-- Either too few bytes are left for the padding and what is asked for, or all are there. -/
theorem take_cases (power : alignment.isPowerOfTwo) (inside : position ≤ input.length)
    (short : input.length < wordLimit - 1) (size : Nat) :
    (input.length - position < saturated (gap position alignment + size) ∧
      take alignment size (within input position) =
        .error (.decodeUnderflow position (saturated (gap position alignment + size))
          (input.length - position)) (within input position)) ∨
    (position + gap position alignment + size ≤ input.length ∧
      take alignment size (within input position) =
        .ok (slice input (position + gap position alignment) size)
          (within input (position + gap position alignment + size))) := by
  by_cases few : input.length - position < saturated (gap position alignment + size)
  · exact .inl ⟨few, take_of_few power few⟩
  · have fits := fits_of_enough inside short (Nat.le_of_not_lt few)
    exact .inr ⟨by omega, take_of_fits power fits⟩

theorem length_of_take {bytes : List UInt8} {after : Reader} (power : alignment.isPowerOfTwo)
    (inside : position ≤ input.length) (short : input.length < wordLimit - 1)
    (ran : take alignment size (within input position) = .ok bytes after) :
    bytes.length = size := by
  rcases take_cases power inside short size with ⟨-, failed⟩ | ⟨fits, taken⟩
  · rw [failed] at ran
    cases ran
  · rw [taken] at ran
    cases ran
    exact length_slice fits

end Reader

end Take

section Keeps

variable {α β : Type} {input : List UInt8} {position alignment size : Nat}

def reached : Result Halt Reader α → Result Halt Nat α
  | .ok value r => .ok value r.position
  | .error halt r => .error halt r.position

/-- From `position` a read moves on inside the input, if at all, and with its checks it ends as it
does without them. -/
def Keeps (input : List UInt8) (position : Nat) (sliced : Sliced α) (read : Read α) : Prop :=
  ∃ next, position ≤ next ∧ next ≤ input.length ∧
    ((∃ value, read (.within input position) = .ok value (.within input next) ∧
        sliced position = .ok value next) ∨
      ∃ e, read (.within input position) = .error e (.within input next) ∧
        sliced position = .error (.answered e) next)

theorem Keeps.reached {sliced : Sliced α} {read : Read α}
    (keeps : Keeps input position sliced read) :
    sliced position = WireSchema.reached (answered (read (.within input position))) := by
  obtain ⟨next, -, -, ⟨value, ran, checked⟩ | ⟨e, ran, checked⟩⟩ := keeps
  all_goals
    rw [ran, checked]
    rfl

theorem keeps_pure (inside : position ≤ input.length) (value : α) :
    Keeps input position (pure value) (pure value) :=
  ⟨position, Nat.le_refl _, inside, .inl ⟨value, rfl, rfl⟩⟩

theorem keeps_throw (inside : position ≤ input.length) (e : CodecError) :
    Keeps input position (throw (.answered e) : Sliced α) (throw e) :=
  ⟨position, Nat.le_refl _, inside, .inr ⟨e, rfl, rfl⟩⟩

theorem Keeps.congr {sliced sliced' : Sliced α} {read read' : Read α}
    (keeps : Keeps input position sliced read) (same : sliced' position = sliced position)
    (same' : read' (.within input position) = read (.within input position)) :
    Keeps input position sliced' read' := by
  rw [Keeps, same, same']
  exact keeps

/-- The second read begins where the first one ends, which is inside the input. -/
theorem Keeps.bind {sliced : Sliced α} {read : Read α} {next : α → Sliced β} {others : α → Read β}
    (first : Keeps input position sliced read)
    (rest : ∀ value middle, middle ≤ input.length →
      read (.within input position) = .ok value (.within input middle) →
      Keeps input middle (next value) (others value)) :
    Keeps input position (sliced >>= next) (read >>= others) := by
  obtain ⟨middle, forward, within, ⟨value, ran, checked⟩ | ⟨e, ran, checked⟩⟩ := first
  · obtain ⟨last, further, inside, ended⟩ := rest value middle within ran
    refine ⟨last, forward.trans further, inside, ?_⟩
    rw [bind_of_ok ran, bind_of_ok checked]
    exact ended
  · exact ⟨middle, forward, within, .inr ⟨e, bind_of_error ran, bind_of_error checked⟩⟩

namespace Sliced

theorem sum_of_lt {a b : Nat} (short : a + b < wordLimit) (position : Nat) :
    sum a b position = .ok (a + b) position := by
  rw [sum, if_pos short]
  rfl

theorem difference_of_le {a b : Nat} (less : b ≤ a) (position : Nat) :
    difference a b position = .ok (a - b) position := by
  rw [difference, if_pos less]
  rfl

theorem padding_of_lt {offset : Nat} (power : alignment.isPowerOfTwo)
    (small : alignment < wordLimit) (short : offset < 2 ^ 63) (position : Nat) :
    padding offset alignment position = .ok (gap offset alignment) position := by
  have positive := Nat.pos_of_isPowerOfTwo power
  by_cases trivial : alignment ≤ 1
  · have one : alignment = 1 := by omega
    rw [padding, if_pos trivial, one, gap_one]
    rfl
  · have large : 1 < alignment := by omega
    have raised := raised_lt_of_lt power small short
    have next := raised_and_not_mask power large raised
    rw [padding, if_neg trivial, bind_of_ok (difference_of_le positive _),
      bind_of_ok (sum_of_lt raised _), next, difference_of_le (Nat.le_add_right _ _),
      Nat.add_sub_cancel_left]

theorem range_of_le {start : Nat} (fits : start + size ≤ input.length) (position : Nat) :
    range input start (start + size) position = .ok (slice input start size) position := by
  rw [range, if_pos ⟨Nat.le_add_right _ _, fits⟩, Nat.add_sub_cancel_left]
  rfl

section Reads

variable (short : input.length < 2 ^ 63) (inside : position ≤ input.length)
include short inside

theorem keeps_take (power : alignment.isPowerOfTwo) (small : alignment < wordLimit) (size : Nat) :
    Keeps input position (take input alignment size) (Reader.take alignment size) := by
  have padded := padding_of_lt power small (inside.trans_lt short) position
  have left := difference_of_le inside position
  rcases Reader.take_cases power inside (short.trans signed_lt_word) size with
    ⟨few, failed⟩ | ⟨fits, taken⟩
  · refine ⟨position, Nat.le_refl _, inside, .inr ⟨_, failed, ?_⟩⟩
    show (padding position alignment >>= _) position = _
    rw [bind_of_ok padded, bind_of_ok left, if_pos few]
    rfl
  · have limit : 2 ^ 63 < wordLimit := by decide
    have start : position + gap position alignment < wordLimit := by omega
    have stop : position + gap position alignment + size < wordLimit := by omega
    have enough : ¬ input.length - position < saturated (gap position alignment + size) := by
      rw [saturated]
      omega
    refine ⟨_, by omega, fits, .inl ⟨_, taken, ?_⟩⟩
    show (padding position alignment >>= _) position = _
    rw [bind_of_ok padded, bind_of_ok left, if_neg enough, bind_of_ok (sum_of_lt start _),
      bind_of_ok (sum_of_lt stop _)]
    exact range_of_le fits _

/-- As many bytes are taken as are asked for. -/
theorem keeps_exactly {width : Nat} (power : width.isPowerOfTwo) (small : width < wordLimit) :
    Keeps input position (exactly input width) (Reader.take width width) := by
  obtain ⟨next, forward, within, ⟨bytes, ran, checked⟩ | ⟨e, ran, checked⟩⟩ :=
    keeps_take short inside power small width
  · have whole := Reader.length_of_take power inside (short.trans signed_lt_word) ran
    refine ⟨next, forward, within, .inl ⟨bytes, ran, ?_⟩⟩
    rw [exactly, bind_of_ok checked, if_pos whole]
    rfl
  · exact ⟨next, forward, within, .inr ⟨e, ran, bind_of_error checked⟩⟩

theorem keeps_scalar (kind : Scalar) :
    Keeps input position (scalar input kind) (Reader.scalar kind) := by
  have small : kind.width < wordLimit := Nat.lt_of_le_of_lt kind.width_le (by decide)
  have bytes := keeps_exactly short inside kind.width_isPowerOfTwo small
  exact bytes.bind fun _ _ within _ => keeps_pure within _

theorem keeps_word : Keeps input position (word input) Reader.word := by
  have bytes : Keeps input position (exactly input 4) (Reader.take 4 4) :=
    keeps_exactly short inside ⟨2, rfl⟩ (by decide)
  exact bytes.bind fun _ _ within _ => keeps_pure within _

theorem keeps_raw (size : Nat) : Keeps input position (raw input size) (Reader.raw size) :=
  keeps_take short inside ⟨0, rfl⟩ (by decide) size

theorem keeps_align (power : alignment.isPowerOfTwo) (small : alignment < wordLimit) :
    Keeps input position (align input alignment) (Reader.skip alignment) :=
  (keeps_take short inside power small 0).bind fun _ _ within _ => keeps_pure within _

theorem keeps_count (minSize : Nat) :
    Keeps input position (count input minSize) (Reader.count minSize) := by
  refine Keeps.congr ((keeps_word short inside).bind fun n middle within _ => ?_) rfl rfl
  have left : (Reader.within input middle).remaining = input.length - middle := List.length_drop
  have checked : (do
      let left ← difference input.length middle
      if left < saturated (n * minSize) then
        throw (.answered (.decodeUnderflow position (saturated (n * minSize)) left))
      pure n : Sliced Nat) middle = (do
      if input.length - middle < saturated (n * minSize) then
        throw (.answered (.decodeUnderflow position (saturated (n * minSize))
          (input.length - middle)))
      pure n : Sliced Nat) middle := by
    rw [bind_of_ok (difference_of_le within middle)]
  suffices same : Keeps input middle (do
      if input.length - middle < saturated (n * minSize) then
        throw (.answered (.decodeUnderflow position (saturated (n * minSize))
          (input.length - middle)))
      pure n : Sliced Nat) (do
      if (Reader.within input middle).remaining < saturated (n * minSize) then
        throw (.decodeUnderflow position (saturated (n * minSize))
          (Reader.within input middle).remaining)
      pure n : Read Nat) from same.congr checked rfl
  rw [left]
  split
  · exact (keeps_throw within _).bind nofun
  · exact keeps_pure within n

end Reads

theorem keeps_terminated (inside : position ≤ input.length) {bytes : List UInt8}
    (nonempty : bytes ≠ []) :
    Keeps input position (terminated bytes) (Reader.terminated bytes) := by
  have positive := List.length_pos_of_ne_nil nonempty
  have front : bytes.take (bytes.length - 1) = bytes.dropLast := List.dropLast_eq_take.symm
  have back : bytes.drop (bytes.length - 1) = [bytes.getLast nonempty] :=
    List.drop_length_sub_one nonempty
  have ends : bytes.drop (bytes.length - 1) = [0] ↔ bytes.getLast? = some 0 := by
    rw [back, List.getLast?_eq_some_getLast nonempty, List.singleton_inj, Option.some_inj]
  have checked : terminated bytes position = (if bytes.drop (bytes.length - 1) = [0] then
      match utf8? bytes.dropLast with
      | some text => pure text
      | none => throw (.answered (.invalidData .invalidUtf8))
    else throw (.answered (.invalidData .unterminatedString)) : Sliced String) position := by
    rw [terminated, bind_of_ok (difference_of_le positive _), front]
  rw [Reader.terminated]
  by_cases last : bytes.getLast? = some 0
  · rw [if_pos (ends.mpr last)] at checked
    rw [if_pos last]
    cases found : utf8? bytes.dropLast with
    | some text =>
      rw [found] at checked
      exact (keeps_pure inside text).congr checked rfl
    | none =>
      rw [found] at checked
      exact (keeps_throw inside _).congr checked rfl
  · rw [if_neg (mt ends.mp last)] at checked
    rw [if_neg last]
    exact (keeps_throw inside _).congr checked rfl

theorem keeps_string (short : input.length < 2 ^ 63) (inside : position ≤ input.length) :
    Keeps input position (string input) Reader.string := by
  rw [string, Reader.string_eq]
  refine (keeps_word short inside).bind fun length middle within _ => ?_
  by_cases zero : length = 0
  · rw [if_pos zero, if_pos zero]
    exact keeps_pure within ""
  · rw [if_neg zero, if_neg zero]
    refine (keeps_raw short within length).bind fun bytes last inside ran => ?_
    -- As many bytes are taken as are asked for, so there is a last one.
    have whole := Reader.length_of_take ⟨0, rfl⟩ within (short.trans signed_lt_word) ran
    exact keeps_terminated inside (List.ne_nil_of_length_pos (by omega))

end Sliced

end Keeps

end WireSchema
