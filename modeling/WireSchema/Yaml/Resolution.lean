import WireSchema.Text

/-! Which plain scalars are not simply text: nulls, truth values and numbers. -/

namespace WireSchema.Yaml

def isNull (text : String) : Bool := ["null", "Null", "NULL", "~"].contains text

def isTruthValue (text : String) : Bool :=
  ["true", "True", "TRUE", "false", "False", "FALSE"].contains text

def unsigned : List Char → List Char
  | '+' :: rest | '-' :: rest => rest
  | cs => cs

/-- Several digits that begin with zero; they are an old spelling of octal numbers. -/
def isZeroPadded (cs : List Char) : Bool :=
  match unsigned cs with
  | '0' :: rest => !rest.isEmpty && rest.all Char.isDigit
  | _ => false

def digitsIn? (radix : Nat) (cs : List Char) : Option Nat :=
  if cs.isEmpty then none
  else cs.foldlM (fun n c => do
    let d ← Text.hexValue? c
    if d < radix then some (radix * n + d) else none) 0

def radix? : Char → Option Nat
  | 'x' => some 16
  | 'o' => some 8
  | 'b' => some 2
  | _ => none

def isRadixInteger (cs : List Char) : Bool :=
  let limit := if cs.head? = some '-' then 1 <<< 127 else (1 <<< 128) - 1
  match unsigned cs with
  | '0' :: letter :: digits =>
    match radix? letter with
    | some radix => ((digitsIn? radix digits).map fun n => decide (n ≤ limit)).getD false
    | none => false
  | _ => false

def decimal? (cs : List Char) : Option (Nat × Int) := do
  let cs := unsigned cs
  let whole := cs.takeWhile Char.isDigit
  let (fraction, rest) := match cs.dropWhile Char.isDigit with
    | '.' :: rest => (rest.takeWhile Char.isDigit, rest.dropWhile Char.isDigit)
    | rest => ([], rest)
  let digits ← Text.decimal? (whole ++ fraction)
  let exponent : Int ← match rest with
    | [] => some 0
    | 'e' :: '-' :: rest | 'E' :: '-' :: rest => (Text.decimal? rest).map fun n => -(n : Int)
    | 'e' :: '+' :: rest | 'E' :: '+' :: rest => (Text.decimal? rest).map Int.ofNat
    | 'e' :: rest | 'E' :: rest => (Text.decimal? rest).map Int.ofNat
    | _ => none
  return (digits, exponent - fraction.length)

def doubleLimit : Nat := (1 <<< 1024) - (1 <<< 970)

def isFinite (digits : Nat) (exponent : Int) : Bool :=
  let magnitude : Int := (Nat.toDigits 10 digits).length + exponent
  if digits = 0 || magnitude < 309 then true
  else if 309 < magnitude then false
  else if exponent < 0 then digits < doubleLimit * Nat.pow 10 (-exponent).toNat
  else digits * Nat.pow 10 exponent.toNat < doubleLimit

def isFloat (cs : List Char) : Bool :=
  [".inf", ".Inf", ".INF"].contains (String.ofList (unsigned cs)) ||
    [".nan", ".NaN", ".NAN"].contains (String.ofList cs) ||
    ((decimal? cs).map fun (digits, exponent) => isFinite digits exponent).getD false

/-- Whether a plain scalar is read, or was once read, as anything but its text. -/
def isSpecial (text : String) : Bool :=
  let cs := text.toList
  text.isEmpty || isNull text || isTruthValue text || isZeroPadded cs || isRadixInteger cs ||
    isFloat cs

end WireSchema.Yaml
