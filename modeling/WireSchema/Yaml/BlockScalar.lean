import WireSchema.Yaml.Cursor

/-! Scalars written as indented lines: literal ones and folded ones. -/

namespace WireSchema.Yaml.BlockScalar

inductive Chomping where
  | strip
  | clip
  | keep
  deriving DecidableEq, Repr

def chomping? : Char → Option Chomping
  | '-' => some .strip
  | '+' => some .keep
  | _ => none

def depth? (c : Char) : Option Nat :=
  if '1' ≤ c && c ≤ '9' then some (c.toNat - 48) else none

/-- What stands behind the indicator, in either order, and how long it is. -/
def header : List Char → Chomping × Option Nat × Nat
  | [] => (.clip, none, 0)
  | a :: rest =>
    let next := rest.head?
    match chomping? a, depth? a with
    | some chomping, _ =>
      match next.bind depth? with
      | some depth => (chomping, some depth, 2)
      | none => (chomping, none, 1)
    | none, some depth =>
      match next.bind chomping? with
      | some chomping => (chomping, some depth, 2)
      | none => (.clip, some depth, 1)
    | none, none => (.clip, none, 0)

def endLine? (cursor : Cursor) : Option Cursor :=
  let cursor := cursor.skipWhile isGap
  let cursor := if cursor.rest.head? = some '#' then cursor.skipWhile (!isBreak ·) else cursor
  match cursor.rest with
  | [] => some cursor
  | c :: _ => if isBreak c then some (cursor.skip 1) else none

/-- Passes over empty lines and indentation. Returns the greatest column reached and the line
breaks. Where the indentation is not known yet, all spaces belong to it; a tab never does. -/
def emptyLines (indent? : Option Nat) (greatest : Nat) (breaks : List Char) (here : Position) :
    List Char → Option (Nat × List Char × Cursor)
  | [] => some (max greatest here.column, breaks, ⟨[], here⟩)
  | c :: rest =>
    let inside := (indent?.map fun indent => decide (here.column < indent)).getD true
    if inside && c == ' ' then emptyLines indent? greatest breaks (here.next c) rest
    else if inside && c == '\t' then none
    else if isBreak c then
      emptyLines indent? (max greatest here.column) (breaks ++ [c]) (here.next c) rest
    else some (max greatest here.column, breaks, ⟨c :: rest, here⟩)

/-- A scalar so far, its characters last first; the break that ended its last line; the breaks of
the empty lines behind it; and whether its last line began with white space. -/
structure Partial where
  value : List Char
  lineBreak : List Char
  others : List Char
  indented : Bool

namespace Partial

def joined (part : Partial) (folded indented : Bool) : List Char :=
  let between :=
    if folded && part.lineBreak == ['\n'] && !part.indented && !indented then
      if part.others.isEmpty then [' '] else part.others
    else part.lineBreak ++ part.others
  between.reverse ++ part.value

def text (part : Partial) (chomping : Chomping) : String :=
  let ending := match chomping with
    | .strip => []
    | .clip => part.lineBreak
    | .keep => part.lineBreak ++ part.others
  .ofList (part.value.reverse ++ ending)

end Partial

def lines (folded : Bool) (indent : Nat) : Nat → Partial → Cursor → Option (Partial × Cursor)
  | 0, part, cursor => some (part, cursor)
  | fuel + 1, part, cursor =>
    match cursor.rest with
    | [] => some (part, cursor)
    | c :: _ =>
      if cursor.here.column != indent then some (part, cursor)
      else do
        let line := cursor.rest.takeWhile (!isBreak ·)
        let behind := cursor.skip line.length
        let next := behind.skip 1
        let (_, others, next) ← emptyLines (some indent) 0 [] next.here next.rest
        lines folded indent fuel
          ⟨line.reverse ++ part.joined folded (isGap c), behind.rest.take 1, others, isGap c⟩ next

/-- The scalar behind its indicator. Its lines stand further in than those of the collection that
holds it, which have `outer` spaces if there is one. -/
def scan? (folded : Bool) (outer? : Option Nat) (cursor : Cursor) : Option (String × Cursor) := do
  let (chomping, depth?, length) := header cursor.rest
  let cursor ← endLine? (cursor.skip length)
  let indent? := depth?.map (outer?.getD 0 + ·)
  let (greatest, others, cursor) ← emptyLines indent? 0 [] cursor.here cursor.rest
  let indent := indent?.getD (max greatest (max 1 ((outer?.map (· + 1)).getD 0)))
  let (part, cursor) ←
    lines folded indent cursor.rest.length ⟨[], [], others, false⟩ cursor
  return (part.text chomping, cursor)

end WireSchema.Yaml.BlockScalar
