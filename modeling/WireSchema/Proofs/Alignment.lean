import Mathlib.Data.Nat.Bitwise
import Mathlib.Tactic
import WireSchema.Scalar

/-! The bit mask of `padding` computes the least step to the next multiple of a width. -/

namespace WireSchema

def gap (offset width : Nat) : Nat := (width - offset % width) % width

theorem gap_lt (offset : Nat) {width : Nat} (positive : 0 < width) : gap offset width < width :=
  Nat.mod_lt _ positive

theorem dvd_add_gap (offset : Nat) {width : Nat} (positive : 0 < width) :
    width ∣ offset + gap offset width := by
  have low := Nat.mod_lt offset positive
  have parts := Nat.div_add_mod offset width
  have whole : offset + (width - offset % width) = width * (offset / width + 1) := by
    rw [Nat.mul_add, Nat.mul_one]
    omega
  apply Nat.dvd_of_mod_eq_zero
  rw [gap, Nat.add_mod, Nat.mod_mod, ← Nat.add_mod, whole, Nat.mul_mod_right]

theorem gap_le (offset n : Nat) {width : Nat} (positive : 0 < width)
    (aligned : width ∣ offset + n) : gap offset width ≤ n := by
  by_contra shorter
  have below := gap_lt offset positive
  have both : width ∣ gap offset width - n := by
    have := Nat.dvd_sub (dvd_add_gap offset positive) aligned
    rwa [Nat.add_sub_add_left] at this
  have := Nat.le_of_dvd (by omega) both
  omega

theorem isLeast_gap (offset : Nat) {width : Nat} (positive : 0 < width) :
    IsLeast {n | width ∣ offset + n} (gap offset width) :=
  ⟨dvd_add_gap offset positive, fun n aligned => gap_le offset n positive aligned⟩

@[simp] theorem gap_one (offset : Nat) : gap offset 1 = 0 := Nat.mod_one _

theorem exponent_lt {k : Nat} (small : 2 ^ k < wordLimit) : k < 64 :=
  (Nat.pow_lt_pow_iff_right Nat.one_lt_two).mp (show 2 ^ k < 2 ^ 64 from small)

theorem dvd_wordLimit {alignment : Nat} (power : alignment.isPowerOfTwo)
    (small : alignment < wordLimit) : alignment ∣ wordLimit := by
  rcases power with ⟨k, rfl⟩
  exact Nat.pow_dvd_pow 2 (exponent_lt small).le

theorem le_half_of_isPowerOfTwo {alignment : Nat} (power : alignment.isPowerOfTwo)
    (small : alignment < wordLimit) : alignment ≤ 2 ^ 63 := by
  rcases power with ⟨k, rfl⟩
  exact Nat.pow_le_pow_right Nat.two_pos (Nat.le_of_lt_succ (exponent_lt small))

/-- An alignment carries no offset of the lower half out of the word. -/
theorem raised_lt_of_lt {offset alignment : Nat} (power : alignment.isPowerOfTwo)
    (small : alignment < wordLimit) (short : offset < 2 ^ 63) :
    offset + (alignment - 1) < wordLimit := by
  have half := le_half_of_isPowerOfTwo power small
  have limit : 2 ^ 63 + 2 ^ 63 = wordLimit := rfl
  omega

theorem and_not_add_and (word mask : UInt64) : (word &&& ~~~mask) + (word &&& mask) = word := by
  apply UInt64.toBitVec_inj.mp
  show (word.toBitVec &&& ~~~mask.toBitVec) + (word.toBitVec &&& mask.toBitVec) = word.toBitVec
  rw [BitVec.add_eq_or_of_and_eq_zero]
  · ext i
    simp only [BitVec.getElem_or, BitVec.getElem_and, BitVec.getElem_not]
    cases word.toBitVec[i] <;> cases mask.toBitVec[i] <;> rfl
  · ext i
    simp only [BitVec.getElem_and, BitVec.getElem_not]
    cases word.toBitVec[i] <;> cases mask.toBitVec[i] <;> simp

theorem and_not_eq_sub (word mask : UInt64) : word &&& ~~~mask = word - (word &&& mask) := by
  have parts := and_not_add_and word mask
  grind

theorem and_mask_eq_mod (n : Nat) {alignment : Nat} (power : alignment.isPowerOfTwo) :
    n &&& (alignment - 1) = n % alignment := by
  rcases power with ⟨k, rfl⟩
  exact Nat.and_two_pow_sub_one_eq_mod n k

theorem mask_sub_low (offset : Nat) {alignment : Nat} (large : 1 < alignment) :
    alignment - 1 - (offset + (alignment - 1)) % alignment = gap offset alignment := by
  have low := Nat.mod_lt offset (Nat.zero_lt_of_lt large)
  rw [gap, Nat.add_mod, Nat.mod_eq_of_lt (show alignment - 1 < alignment by omega)]
  by_cases aligned : offset % alignment = 0
  · rw [aligned, Nat.zero_add, Nat.mod_eq_of_lt (by omega), Nat.sub_zero, Nat.mod_self]
    omega
  · rw [Nat.mod_eq_of_lt (show alignment - offset % alignment < alignment by omega),
      Nat.mod_eq_sub_mod (by omega), Nat.mod_eq_of_lt (by omega)]
    omega

/-- Cutting the low bits off leaves the next multiple. -/
theorem raised_and_not_mask {offset alignment : Nat} (power : alignment.isPowerOfTwo)
    (large : 1 < alignment) (short : offset + (alignment - 1) < wordLimit) :
    (UInt64.ofNat (offset + (alignment - 1)) &&& ~~~UInt64.ofNat (alignment - 1)).toNat =
      offset + gap offset alignment := by
  have raised : (UInt64.ofNat (offset + (alignment - 1))).toNat = offset + (alignment - 1) := by
    rw [UInt64.toNat_ofNat']
    exact Nat.mod_eq_of_lt short
  have mask : (UInt64.ofNat (alignment - 1)).toNat = alignment - 1 := by
    rw [UInt64.toNat_ofNat']
    exact Nat.mod_eq_of_lt ((Nat.le_add_left _ offset).trans_lt short)
  have low : (UInt64.ofNat (offset + (alignment - 1)) &&& UInt64.ofNat (alignment - 1)).toNat =
      (offset + (alignment - 1)) % alignment := by
    rw [UInt64.toNat_and, raised, mask, and_mask_eq_mod _ power]
  have missing := mask_sub_low offset large
  have below := Nat.mod_lt (offset + (alignment - 1)) (Nat.zero_lt_of_lt large)
  rw [and_not_eq_sub, UInt64.toNat_sub_of_le, raised, low]
  · omega
  · rw [UInt64.le_iff_toNat_le, raised, low]
    exact Nat.mod_le _ _

theorem paddingAt_eq_gap (offset : Nat) {alignment : Nat} (power : alignment.isPowerOfTwo) :
    paddingAt offset alignment = gap offset alignment := by
  have positive := Nat.pos_of_isPowerOfTwo power
  rw [paddingAt, and_mask_eq_mod _ power]
  by_cases large : 1 < alignment
  · have missing := mask_sub_low offset large
    have below := Nat.mod_lt (offset + (alignment - 1)) positive
    omega
  · obtain rfl : alignment = 1 := by omega
    rw [gap_one]
    omega

/-- The sum in `padding` leaves the word only if the next multiple does. -/
theorem raised_lt {offset alignment : Nat} (power : alignment.isPowerOfTwo)
    (small : alignment < wordLimit) (short : offset + gap offset alignment < wordLimit) :
    offset + (alignment - 1) < wordLimit := by
  have positive := Nat.pos_of_isPowerOfTwo power
  obtain ⟨next, multiple⟩ := dvd_add_gap offset positive
  obtain ⟨words, whole⟩ := dvd_wordLimit power small
  rw [multiple, whole] at short
  have later : next + 1 ≤ words := Nat.lt_of_mul_lt_mul_left short
  have room := Nat.mul_le_mul_left alignment later
  rw [Nat.mul_add, Nat.mul_one, ← multiple, ← whole] at room
  omega

section Word

variable {offset alignment : Nat}

theorem padding_eq_ite (small : alignment < wordLimit) (inside : offset < wordLimit)
    (large : 1 < alignment) :
    padding (.ofNat offset) (.ofNat alignment) =
      if offset + (alignment - 1) < wordLimit then
        some ((.ofNat (offset + (alignment - 1)) &&& ~~~.ofNat (alignment - 1)) - .ofNat offset)
      else none := by
  have word : (UInt64.ofNat alignment).toNat = alignment := UInt64.toNat_ofNat_of_lt small
  have place : (UInt64.ofNat offset).toNat = offset := UInt64.toNat_ofNat_of_lt inside
  have above : ¬ UInt64.ofNat alignment ≤ 1 := by
    rw [UInt64.le_iff_toNat_le, word, UInt64.toNat_one]
    exact Nat.not_le_of_lt large
  have mask : UInt64.ofNat alignment - 1 = .ofNat (alignment - 1) :=
    (UInt64.ofNat_sub large.le).symm
  have low : (UInt64.ofNat (alignment - 1)).toNat = alignment - 1 :=
    UInt64.toNat_ofNat_of_lt ((Nat.sub_le _ _).trans_lt small)
  simp only [padding, if_neg above, mask, place, low, UInt64.ofNat_add]

theorem padding_eq_some (power : alignment.isPowerOfTwo) (small : alignment < wordLimit)
    (short : offset + (alignment - 1) < wordLimit) :
    ∃ pad, padding (.ofNat offset) (.ofNat alignment) = some pad ∧
      pad.toNat = gap offset alignment := by
  have inside : offset < wordLimit := (Nat.le_add_right _ _).trans_lt short
  have place : (UInt64.ofNat offset).toNat = offset := UInt64.toNat_ofNat_of_lt inside
  by_cases large : 1 < alignment
  · have next := raised_and_not_mask power large short
    refine ⟨_, (padding_eq_ite small inside large).trans (if_pos short), ?_⟩
    rw [UInt64.toNat_sub_of_le, next, place, Nat.add_sub_cancel_left]
    rw [UInt64.le_iff_toNat_le, next, place]
    exact Nat.le_add_right _ _
  · obtain rfl : alignment = 1 := by
      have := Nat.pos_of_isPowerOfTwo power
      omega
    exact ⟨0, rfl, (gap_one offset).symm⟩

theorem padding_eq_none (small : alignment < wordLimit) (inside : offset < wordLimit)
    (long : wordLimit ≤ offset + (alignment - 1)) :
    padding (.ofNat offset) (.ofNat alignment) = none := by
  rw [padding_eq_ite small inside (by omega), if_neg (Nat.not_lt_of_le long)]

end Word

end WireSchema
