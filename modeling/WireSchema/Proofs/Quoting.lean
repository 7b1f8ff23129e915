import Mathlib.Data.Nat.Digits.Defs
import Mathlib.Tactic.Common
import WireSchema.Text.Quoted
import WireSchema.Token.Quote

/-! A text that is shown between quotes is a literal with that value. -/

namespace WireSchema

namespace Token

theorem hexValue?_digitChar {d : Nat} (digit : d < 16) : Text.hexValue? d.digitChar = some d := by
  have all : ∀ d < 16, Text.hexValue? d.digitChar = some d := by
    decide
  exact all d digit

theorem digitChar_ne {d : Nat} (digit : d < 16) : d.digitChar ≠ '\x7d' ∧ d.digitChar ≠ '_' := by
  have all : ∀ d < 16, d.digitChar ≠ '\x7d' ∧ d.digitChar ≠ '_' := by
    decide
  exact all d digit

theorem codePoint?_digit {d value digits : Nat} (digit : d < 16) (few : digits < 6)
    (rest : List Char) :
    codePoint? value digits (d.digitChar :: rest) =
      codePoint? (16 * value + d) (digits + 1) rest := by
  obtain ⟨brace, underscore⟩ := digitChar_ne digit
  rw [codePoint?, hexValue?_digitChar digit]
  · simp [Nat.ne_of_lt few]
  · exact fun same => brace same
  · exact fun same => underscore same

theorem codePoint?_toDigits (n : Nat) (short : (Nat.toDigits 16 n).length ≤ 6)
    (rest : List Char) :
    codePoint? 0 0 (Nat.toDigits 16 n ++ rest) =
      codePoint? n (Nat.toDigits 16 n).length rest := by
  induction n using Nat.strong_induction_on generalizing rest with
  | _ n ih =>
    rcases Nat.lt_or_ge n 16 with small | large
    · rw [Nat.toDigits_of_lt_base small, List.singleton_append, codePoint?_digit small (by omega)]
      simp
    · have split := Nat.toDigits_of_base_le (by omega : 1 < 16) large
      have digit : n % 16 < 16 := Nat.mod_lt n (by omega)
      rw [split, List.length_append, List.length_singleton] at short
      rw [split, List.append_assoc, List.singleton_append,
        ih (n / 16) (by omega) (by omega), codePoint?_digit digit (by omega), List.length_append,
        List.length_singleton, Nat.div_add_mod]

theorem codePoint?_hexNumber (c : Char) (rest : List Char) :
    codePoint? 0 0 ((Text.hexNumber c.toNat).toList ++ '\x7d' :: rest) = some (c, rest) := by
  have bound : c.toNat < 16 ^ 6 := by
    have := c.valid
    rw [UInt32.isValidChar, Nat.isValidChar] at this
    show c.val.toNat < _
    omega
  have short := Nat.toDigits_length 16 c.toNat 6 (by omega) bound
  have nonempty : (Nat.toDigits 16 c.toNat).length ≠ 0 :=
    Nat.pos_iff_ne_zero.mp Nat.length_toDigits_pos
  have valid : c.toNat.isValidChar := c.valid
  rw [Text.hexNumber, String.toList_ofList, codePoint?_toDigits _ short, codePoint?,
    if_neg nonempty, if_pos valid, Char.ofNat_toNat]

theorem quoted?_byCodePoint (c : Char) (rest : List Char) :
    quoted? .text (Text.Quoted.byCodePoint c ++ rest) = prepend c (quoted? .text rest) := by
  have shape : Text.Quoted.byCodePoint c ++ rest =
      '\\' :: 'u' :: '\x7b' :: ((Text.hexNumber c.toNat).toList ++ '\x7d' :: rest) := by
    rw [Text.Quoted.byCodePoint]
    simp
  rw [shape, quoted?, if_neg (by decide)]
  split
  · rename_i found
    rw [codePoint?_hexNumber] at found
    obtain ⟨rfl, rfl⟩ := Prod.mk.inj (Option.some.inj found)
    simp
  · rename_i missing
    rw [codePoint?_hexNumber] at missing
    cases missing

/-- What stands for itself between quotes. -/
theorem quoted?_self {c : Char} (quote : c ≠ '"') (backslash : c ≠ '\\') (ret : c ≠ '\r')
    (rest : List Char) : quoted? .text (c :: rest) = prepend c (quoted? .text rest) := by
  rw [quoted?]
  · rfl
  all_goals simp_all

theorem quoted?_letter {c letter : Char} (stands : QuoteKind.text.letter? letter = some c)
    (x : letter ≠ 'x') (u : letter ≠ 'u') (feed : letter ≠ '\n') (ret : letter ≠ '\r')
    (rest : List Char) :
    quoted? .text ('\\' :: letter :: rest) = prepend c (quoted? .text rest) := by
  rw [quoted?, stands]
  all_goals simp_all

theorem quoted?_escape (c : Char) (rest : List Char) :
    quoted? .text (Text.Quoted.escape c ++ rest) = prepend c (quoted? .text rest) := by
  by_cases special : c ∈ ['\x00', '\t', '\r', '\n', '\\', '"']
  · simp only [List.mem_cons, List.not_mem_nil, or_false] at special
    rcases special with rfl | rfl | rfl | rfl | rfl | rfl
    all_goals exact quoted?_letter rfl (by decide) (by decide) (by decide) (by decide) rest
  · simp only [List.mem_cons, List.not_mem_nil, or_false, not_or] at special
    obtain ⟨nul, tab, ret, feed, backslash, quote⟩ := special
    rw [Text.Quoted.escape, if_neg nul, if_neg tab, if_neg ret, if_neg feed,
      if_neg (by simp [backslash, quote])]
    split
    · exact quoted?_byCodePoint c rest
    · exact quoted?_self quote backslash ret rest

/-- The closing quote is the first one that no backslash stands before. -/
theorem quoted?_encode (cs rest : List Char) :
    quoted? .text (Text.Quoted.encode .short cs ++ '"' :: rest) = some (cs, rest) := by
  induction cs with
  | nil => simp [Text.Quoted.encode, quoted?]
  | cons c cs ih =>
    have escaped : Text.Quoted.encode .short (c :: cs) =
        Text.Quoted.escape c ++ Text.Quoted.encode .short cs := by
      simp [Text.Quoted.encode]
    rw [escaped, List.append_assoc, quoted?_escape, ih]
    rfl

end Token

end WireSchema
