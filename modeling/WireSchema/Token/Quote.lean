import WireSchema.Text

/-! Texts, byte strings and C strings, with escapes or raw. -/

namespace WireSchema.Token

inductive QuoteKind where
  | text
  | bytes
  | cString
  deriving DecidableEq, Repr

def QuoteKind.allows (kind : QuoteKind) (c : Char) : Bool :=
  match kind with
  | .text => true
  | .bytes => c.toNat < 128
  | .cString => c != '\x00'

/-- The number of a two-digit escape, if the kind allows it: texts have ASCII, C strings no NUL. -/
def QuoteKind.twoDigits? (kind : QuoteKind) (high low : Char) : Option Char := do
  let a ← Text.hexValue? high
  let b ← Text.hexValue? low
  let n := 16 * a + b
  match kind with
  | .text => if n < 128 then some (.ofNat n) else none
  | .bytes => some (.ofNat n)
  | .cString => if n = 0 then none else some (.ofNat n)

def QuoteKind.letter? (kind : QuoteKind) (c : Char) : Option Char :=
  if c = 'n' then some '\n'
  else if c = 'r' then some '\r'
  else if c = 't' then some '\t'
  else if c = '\\' || c = '\'' || c = '"' then some c
  else if c = '0' && kind != .cString then some '\x00'
  else none

/-- A code point: at most six hexadecimal digits, underscores between them, and a brace. -/
def codePoint? (value digits : Nat) : List Char → Option (Char × List Char)
  | [] => none
  | '\x7d' :: rest =>
    if digits = 0 then none
    else if value.isValidChar then some (.ofNat value, rest) else none
  | '_' :: rest => if digits = 0 then none else codePoint? value digits rest
  | c :: rest =>
    match Text.hexValue? c with
    | some d => if digits = 6 then none else codePoint? (16 * value + d) (digits + 1) rest
    | none => none

def skipLineBreak? : List Char → Option (List Char)
  | [] => none
  | ' ' :: rest | '\t' :: rest | '\n' :: rest | '\r' :: '\n' :: rest => skipLineBreak? rest
  | '\r' :: _ => none
  | c :: rest => some (c :: rest)

theorem length_codePoint? {value digits : Nat} {cs rest : List Char} {c : Char}
    (h : codePoint? value digits cs = some (c, rest)) : rest.length < cs.length := by
  induction cs generalizing value digits with
  | nil => simp [codePoint?] at h
  | cons a cs ih =>
    unfold codePoint? at h
    split at h
    · contradiction
    · rename_i heq
      cases heq
      split at h
      · contradiction
      · split at h
        · cases h; simp
        · contradiction
    · rename_i heq
      cases heq
      split at h
      · contradiction
      · exact Nat.lt_succ_of_lt (ih h)
    · rename_i heq
      cases heq
      split at h
      · split at h
        · contradiction
        · exact Nat.lt_succ_of_lt (ih h)
      · contradiction

theorem length_skipLineBreak? {cs rest : List Char} (h : skipLineBreak? cs = some rest) :
    rest.length ≤ cs.length := by
  fun_induction skipLineBreak? cs with
  | case1 => contradiction
  | case2 cs ih => exact Nat.le_succ_of_le (ih h)
  | case3 cs ih => exact Nat.le_succ_of_le (ih h)
  | case4 cs ih => exact Nat.le_succ_of_le (ih h)
  | case5 cs ih => exact Nat.le_succ_of_le (Nat.le_succ_of_le (ih h))
  | case6 => contradiction
  | case7 => cases h; exact Nat.le_refl _

def prepend (c : Char) : Option (List Char × List Char) → Option (List Char × List Char) :=
  Option.map fun (value, rest) => (c :: value, rest)

/-- The value up to the closing quote, and what follows. A carriage return has to stand before a
line feed, and both are read as one line feed. -/
def quoted? (kind : QuoteKind) (cs : List Char) : Option (List Char × List Char) :=
  match cs with
  | [] => none
  | '"' :: rest => some ([], rest)
  | '\r' :: '\n' :: rest => prepend '\n' (quoted? kind rest)
  | '\r' :: _ => none
  | '\\' :: 'x' :: high :: low :: rest =>
    match kind.twoDigits? high low with
    | some c => prepend c (quoted? kind rest)
    | none => none
  | '\\' :: 'u' :: '\x7b' :: rest =>
    if kind = .bytes then none
    else
      match _h : codePoint? 0 0 rest with
      | some (c, rest) =>
        if c = '\x00' && kind = .cString then none else prepend c (quoted? kind rest)
      | none => none
  | '\\' :: '\n' :: rest | '\\' :: '\r' :: '\n' :: rest =>
    match _h : skipLineBreak? rest with
    | some rest => quoted? kind rest
    | none => none
  | '\\' :: c :: rest =>
    match kind.letter? c with
    | some c => prepend c (quoted? kind rest)
    | none => none
  | c :: rest => if kind.allows c then prepend c (quoted? kind rest) else none
termination_by cs.length
decreasing_by
  · simp only [List.length_cons]; omega
  · simp only [List.length_cons]; omega
  · have shorter := length_codePoint? _h
    simp only [List.length_cons]; omega
  · have shorter := length_skipLineBreak? _h
    simp only [List.length_cons]; omega
  · have shorter := length_skipLineBreak? _h
    simp only [List.length_cons]; omega
  · simp only [List.length_cons]; omega
  · simp only [List.length_cons]; omega

def rawQuoted? (kind : QuoteKind) (hashes : Nat) : List Char → Option (List Char × List Char)
  | [] => none
  | '\r' :: '\n' :: rest =>
    (rawQuoted? kind hashes rest).map fun (value, rest) => ('\r' :: '\n' :: value, rest)
  | '\r' :: _ => none
  | c :: rest =>
    if c = '"' && rest.take hashes = List.replicate hashes '#' then some ([], rest.drop hashes)
    else if kind.allows c then prepend c (rawQuoted? kind hashes rest)
    else none

def raw? (kind : QuoteKind) (cs : List Char) : Option (List Char × List Char) :=
  let hashes := (cs.takeWhile (· == '#')).length
  match cs.dropWhile (· == '#') with
  | '"' :: rest => if hashes ≤ 255 then rawQuoted? kind hashes rest else none
  | _ => none

def singleQuoted? (kind : QuoteKind) (cs : List Char) : Option (List Char) := do
  let rest ← match cs with
    | '\\' :: 'x' :: high :: low :: rest => (kind.twoDigits? high low).map fun _ => rest
    | '\\' :: 'u' :: '\x7b' :: rest =>
      if kind = .bytes then none else (codePoint? 0 0 rest).map Prod.snd
    | '\\' :: c :: rest => (kind.letter? c).map fun _ => rest
    | c :: rest => if kind.allows c then some rest else none
    | [] => none
  match rest with
  | '\'' :: rest => some rest
  | _ => none

end WireSchema.Token
