import WireSchema.Proofs.Alignment

/-! The bit mask of `padding` for every alignment, power of two or not. -/

namespace WireSchema

section Mask

variable {offset alignment mask : UInt64}

theorem toNat_mask (positive : 1 ≤ alignment) : (alignment - 1).toNat = alignment.toNat - 1 := by
  rw [UInt64.toNat_sub_of_le _ _ positive, UInt64.toNat_one]

theorem toNat_raised (short : offset.toNat + mask.toNat < wordLimit) :
    (offset + mask).toNat = offset.toNat + mask.toNat := by
  rw [UInt64.toNat_add]
  exact Nat.mod_eq_of_lt short

theorem toNat_and_le (word mask : UInt64) : (word &&& mask).toNat ≤ mask.toNat := by
  rw [UInt64.toNat_and]
  exact Nat.and_le_right

theorem and_not_and (word mask : UInt64) : word &&& ~~~mask &&& mask = 0 := by
  rw [UInt64.and_assoc, UInt64.not_and_self, UInt64.and_zero]

/-- The bits that the mask clears are no more than the mask, which was added before. -/
theorem toNat_cleared (short : offset.toNat + mask.toNat < wordLimit) :
    (offset + mask &&& ~~~mask).toNat + (offset + mask &&& mask).toNat =
      offset.toNat + mask.toNat := by
  have raised := toNat_raised short
  have low := toNat_and_le (offset + mask) mask
  have less : offset + mask &&& mask ≤ offset + mask := by
    rw [UInt64.le_iff_toNat_le, raised]
    omega
  rw [and_not_eq_sub, UInt64.toNat_sub_of_le _ _ less, raised]
  omega

theorem le_cleared (short : offset.toNat + mask.toNat < wordLimit) :
    offset ≤ offset + mask &&& ~~~mask := by
  have parts := toNat_cleared short
  have low := toNat_and_le (offset + mask) mask
  rw [UInt64.le_iff_toNat_le]
  omega

theorem padding_eq_cleared (positive : 1 ≤ alignment)
    (short : offset.toNat + (alignment - 1).toNat < wordLimit) :
    padding offset alignment =
      some ((offset + (alignment - 1) &&& ~~~(alignment - 1)) - offset) := by
  by_cases trivial : alignment ≤ 1
  · obtain rfl : alignment = 1 := UInt64.le_antisymm trivial positive
    simp [padding]
  · simp only [padding, if_neg trivial, if_pos short]

end Mask

theorem gap_eq_zero {offset width : Nat} (aligned : width ∣ offset) : gap offset width = 0 := by
  rw [gap, Nat.mod_eq_zero_of_dvd aligned, Nat.sub_zero, Nat.mod_self]

theorem dvd_of_isPowerOfTwo {small large : Nat} (one : small.isPowerOfTwo)
    (other : large.isPowerOfTwo) (below : small ≤ large) : small ∣ large := by
  obtain ⟨k, rfl⟩ := one
  obtain ⟨l, rfl⟩ := other
  exact Nat.pow_dvd_pow 2 ((Nat.pow_le_pow_iff_right Nat.one_lt_two).mp below)

theorem exists_padding {offset alignment : UInt64} (power : alignment.toNat.isPowerOfTwo)
    (short : offset.toNat + (alignment.toNat - 1) < wordLimit) :
    ∃ pad, padding offset alignment = some pad ∧ pad.toNat = gap offset.toNat alignment.toNat := by
  have found := padding_eq_some power alignment.toNat_lt short
  rwa [UInt64.ofNat_toNat, UInt64.ofNat_toNat] at found

theorem padding_eq_zero {offset alignment : UInt64} (power : alignment.toNat.isPowerOfTwo)
    (aligned : alignment.toNat ∣ offset.toNat) : padding offset alignment = some 0 := by
  have none_missing := gap_eq_zero aligned
  have next : offset.toNat + gap offset.toNat alignment.toNat < wordLimit := by
    rw [none_missing]
    exact offset.toNat_lt
  obtain ⟨pad, found, least⟩ := exists_padding power (raised_lt power alignment.toNat_lt next)
  rw [none_missing] at least
  rw [found, UInt64.toNat_inj.mp (least.trans UInt64.toNat_zero.symm)]

/-- The sum with the mask fits, nothing in the formula of `padding` wraps around, its answer is at
most the mask, and behind it the bits of the mask are zero. For a power of two it is the least step
to a multiple, and a second one, also for a smaller power of two, is empty. -/
theorem padding_clears_mask (offset alignment : UInt64) (positive : 1 ≤ alignment)
    (short : offset.toNat + alignment.toNat - 1 < wordLimit) :
    ∃ pad, padding offset alignment = some pad ∧
      ((alignment - 1).toNat = alignment.toNat - 1 ∧
        (offset + (alignment - 1)).toNat = offset.toNat + (alignment - 1).toNat ∧
        offset ≤ offset + (alignment - 1) &&& ~~~(alignment - 1) ∧
        pad.toNat = (offset + (alignment - 1) &&& ~~~(alignment - 1)).toNat - offset.toNat) ∧
      pad ≤ alignment - 1 ∧
      (offset + pad).toNat = offset.toNat + pad.toNat ∧
      offset + pad &&& alignment - 1 = 0 ∧
      (alignment.toNat.isPowerOfTwo →
        IsLeast {n | alignment.toNat ∣ offset.toNat + n} pad.toNat ∧
        ∀ smaller : UInt64, smaller.toNat.isPowerOfTwo → smaller ≤ alignment →
          padding (offset + pad) smaller = some 0) := by
  have mask := toNat_mask positive
  have sum : offset.toNat + (alignment.toNat - 1) < wordLimit := by
    rw [UInt64.le_iff_toNat_le, UInt64.toNat_one] at positive
    omega
  have room := sum
  rw [← mask] at room
  have raised := toNat_raised room
  have above := le_cleared room
  have parts := toNat_cleared room
  have found := padding_eq_cleared positive room
  have apart := and_not_and (offset + (alignment - 1)) (alignment - 1)
  generalize offset + (alignment - 1) &&& ~~~(alignment - 1) = next at above parts found apart ⊢
  have step := UInt64.toNat_sub_of_le _ _ above
  have reached : offset + (next - offset) = next := by
    rw [UInt64.add_comm, UInt64.sub_add_cancel]
  have moved : (offset + (next - offset)).toNat = offset.toNat + (next - offset).toNat := by
    rw [UInt64.le_iff_toNat_le] at above
    rw [reached, step]
    omega
  refine ⟨next - offset, found, ⟨mask, raised, above, step⟩, ?_, moved, ?_, fun power => ?_⟩
  · rw [UInt64.le_iff_toNat_le, step]
    omega
  · rw [reached, apart]
  · have positive := Nat.pos_of_isPowerOfTwo power
    obtain ⟨pad, same, least⟩ := exists_padding power sum
    obtain rfl := Option.some_inj.mp (found.symm.trans same)
    refine ⟨least ▸ isLeast_gap offset.toNat positive, fun smaller other below => ?_⟩
    apply padding_eq_zero other
    rw [moved, least]
    exact (dvd_of_isPowerOfTwo other power (UInt64.le_iff_toNat_le.mp below)).trans
      (dvd_add_gap offset.toNat positive)

/-- A mask with a gap in it, and a step up to the last multiple of eight. -/
theorem padding_clears_mask_edges :
    (1 : UInt64) ≤ 6 ∧ (5 : UInt64).toNat + (6 : UInt64).toNat - 1 < wordLimit ∧
    padding 5 6 = some 5 ∧ (5 : UInt64) + 5 &&& 6 - 1 = 0 ∧
    (1 : UInt64) ≤ 8 ∧ (18446744073709551601 : UInt64).toNat + (8 : UInt64).toNat - 1 < wordLimit ∧
    (8 : UInt64).toNat.isPowerOfTwo ∧ padding 18446744073709551601 8 = some 7 ∧
    IsLeast {n | (8 : UInt64).toNat ∣ (18446744073709551601 : UInt64).toNat + n}
      (7 : UInt64).toNat := by
  have power : (8 : UInt64).toNat.isPowerOfTwo := ⟨3, rfl⟩
  have five : padding 5 6 = some 5 := by decide
  have seven : padding 18446744073709551601 8 = some 7 := by decide
  obtain ⟨first, found, -, -, -, apart, -⟩ := padding_clears_mask 5 6 (by decide) (by decide)
  obtain ⟨last, reached, -, -, -, -, least⟩ :=
    padding_clears_mask 18446744073709551601 8 (by decide) (by decide)
  obtain rfl := Option.some_inj.mp (five.symm.trans found)
  obtain rfl := Option.some_inj.mp (seven.symm.trans reached)
  exact ⟨by decide, by decide, five, apart, by decide, by decide, power, seven, (least power).1⟩

end WireSchema
