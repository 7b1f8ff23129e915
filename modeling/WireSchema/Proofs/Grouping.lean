import WireSchema.Proofs.Lexing

/-! Reading tokens into groups while a text is scanned, line after line. -/

namespace WireSchema.Token

/-- The brackets that are open, each with the tokens in front of it, and the tokens since the last,
all of them backwards. -/
structure Grouping where
  outer : List (Bracket × List TokenTree)
  inner : List TokenTree

namespace Grouping

variable {g h k : Grouping} {cs rest : List Char}

def empty : Grouping := ⟨[], []⟩

def push (g : Grouping) (tokens : List TokenTree) : Grouping :=
  ⟨g.outer, tokens.reverse ++ g.inner⟩

def enter (g : Grouping) (bracket : Bracket) : Grouping :=
  ⟨(bracket, g.inner) :: g.outer, []⟩

def read (g : Grouping) (cs : List Char) : Option (List TokenTree) :=
  (scan cs).bind (nest g.outer g.inner)

@[simp] theorem push_nil : g.push [] = g := rfl

@[simp] theorem push_push (a b : List TokenTree) : (g.push a).push b = g.push (a ++ b) := by
  simp [push]

theorem read_nil (tokens : List TokenTree) : (empty.push tokens).read [] = some tokens := by
  have scanned : scan [] = some [] := by
    rw [scan]
    rfl
  simp [read, scanned, empty, push, nest]

theorem tokens?_eq_read {text : String} (front : text.toList.head? ≠ some '\ufeff') :
    tokens? text = empty.read text.toList := by
  have unmarked : Text.dropFront? ['\ufeff'] text.toList = none := by
    cases shape : text.toList with
    | nil => rfl
    | cons c cs =>
      rw [shape] at front
      exact if_neg fun same => front (congrArg some same.symm)
  rw [tokens?, unmarked]
  rfl

theorem scan_of_next {lexemes : List Lexeme} (found : next? cs = some (lexemes, rest))
    (shorter : rest.length < cs.length) : scan cs = (scan rest).map (lexemes ++ ·) := by
  rw [scan, if_neg (by cases cs <;> simp_all), found]
  exact dif_pos shorter

theorem read_of_next {lexemes : List Lexeme} (found : next? cs = some (lexemes, rest))
    (shorter : rest.length < cs.length)
    (moves : ∀ more, nest g.outer g.inner (lexemes ++ more) = nest h.outer h.inner more) :
    g.read cs = h.read rest := by
  rw [read, scan_of_next found shorter, read]
  cases scan rest with
  | none => rfl
  | some more => exact moves more

theorem length_lt_append {front : List Char} (nonempty : front ≠ []) (rest : List Char) :
    rest.length < (front ++ rest).length := by
  have positive := List.length_pos_iff.mpr nonempty
  rw [List.length_append]
  omega

theorem read_leaf {token : TokenTree} (found : next? cs = some ([.leaf token], rest))
    (shorter : rest.length < cs.length) : g.read cs = (g.push [token]).read rest :=
  read_of_next found shorter fun _ => rfl

theorem read_space (rest : List Char) : g.read (' ' :: rest) = g.read rest :=
  read_of_next rfl (by simp) fun _ => rfl

theorem read_feed (rest : List Char) : g.read ('\n' :: rest) = g.read rest :=
  read_of_next rfl (by simp) fun _ => rfl

theorem read_mark {c : Char} (mark : c ∈ marks) (rest : List Char) :
    g.read (c :: rest) = (g.push [.mark c (startsMark rest)]).read rest :=
  read_leaf (next?_mark mark rest) (by simp)

theorem read_word {name : String} (valid : isIdentifier name = true)
    (separated : Separated rest) :
    g.read (name.toList ++ rest) = (g.push [.word name]).read rest := by
  obtain ⟨c, cs, shape, -⟩ := exists_of_isIdentifier valid
  exact read_leaf (next?_word valid separated) (length_lt_append (by simp [shape]) rest)

theorem read_number (separated : Separated rest) (n : Nat) :
    g.read ((toString n).toList ++ rest) = (g.push [.literal (.integer n "")]).read rest := by
  refine read_leaf (next?_number separated n) (length_lt_append ?_ rest)
  rw [Nat.toString_eq_ofList_toDigits, String.toList_ofList]
  exact Nat.toDigits_ne_nil

theorem read_shown (separated : Separated rest) (text : String) :
    g.read ((Text.Quoted.shown text).toList ++ rest) =
      (g.push [.literal (.string text)]).read rest := by
  refine read_leaf (next?_shown separated text) (length_lt_append ?_ rest)
  simp [Text.Quoted.shown]

def documentation (text : List Char) : List TokenTree :=
  [.mark '#' false,
    .group .square [.word "doc", .mark '=' false, .literal (.string (.ofList text))]]

theorem read_documentation {line : List Char} (slash : line.head? ≠ some '/')
    (feed : '\n' ∉ line) (ret : '\r' ∉ line) (ends : EndsLine rest) :
    g.read ("///".toList ++ line ++ rest) = (g.push (documentation line)).read rest :=
  read_of_next (next?_documentation slash feed ret ends) (length_lt_append (by simp) rest)
    fun _ => rfl

theorem read_comment {line : List Char} (feed : '\n' ∉ line) (ends : EndsLine rest) :
    g.read ("// ".toList ++ line ++ rest) = g.read rest :=
  read_of_next (next?_comment feed ends) (length_lt_append (by simp) rest) fun _ => rfl

theorem read_enter_curly (rest : List Char) :
    g.read ('\x7b' :: rest) = (g.enter .curly).read rest :=
  read_of_next rfl (by simp) fun _ => rfl

theorem read_enter_square (rest : List Char) :
    g.read ('[' :: rest) = (g.enter .square).read rest :=
  read_of_next rfl (by simp) fun _ => rfl

/-- No literal that could not be built stands behind the bracket. -/
theorem read_enter_round (text : String) (rest : List Char) :
    g.read ('(' :: ((Text.Quoted.shown text).toList ++ rest)) =
      (g.enter .round).read ((Text.Quoted.shown text).toList ++ rest) := by
  have quote : (Text.Quoted.shown text).toList ++ rest =
      '"' :: (Text.Quoted.encode .short text.toList ++ '"' :: rest) := by
    simp [Text.Quoted.shown]
  rw [quote]
  exact read_of_next rfl (by simp) fun _ => rfl

theorem nest_leave (bracket : Bracket) (tokens : List TokenTree) (more : List Lexeme) :
    nest ((g.enter bracket).push tokens).outer ((g.enter bracket).push tokens).inner
        (.closing bracket :: more) =
      nest (g.push [.group bracket tokens]).outer (g.push [.group bracket tokens]).inner more := by
  simp [enter, push, nest]

theorem read_leave_curly (tokens : List TokenTree) (rest : List Char) :
    ((g.enter .curly).push tokens).read ('\x7d' :: rest) =
      (g.push [.group .curly tokens]).read rest :=
  read_of_next rfl (by simp) (nest_leave .curly tokens)

theorem read_leave_square (tokens : List TokenTree) (rest : List Char) :
    ((g.enter .square).push tokens).read (']' :: rest) =
      (g.push [.group .square tokens]).read rest :=
  read_of_next rfl (by simp) (nest_leave .square tokens)

theorem read_leave_round (tokens : List TokenTree) (rest : List Char) :
    ((g.enter .round).push tokens).read (')' :: rest) =
      (g.push [.group .round tokens]).read rest :=
  read_of_next rfl (by simp) (nest_leave .round tokens)

theorem read_spaces {spaces : List Char} (blank : spaces.all (· == ' ')) (rest : List Char) :
    g.read (spaces ++ rest) = g.read rest := by
  induction spaces with
  | nil => rfl
  | cons c spaces ih =>
    rw [List.all_cons, Bool.and_eq_true, beq_iff_eq] at blank
    rw [blank.1, List.cons_append, read_space, ih blank.2]

def Moves (line : List Char) (g h : Grouping) : Prop :=
  ∀ rest, EndsLine rest → g.read (line ++ rest) = h.read rest

inductive Reads : List (List Char) → Grouping → Grouping → Prop
  | nil {g : Grouping} : Reads [] g g
  | cons {line : List Char} {lines : List (List Char)} {g h k : Grouping} :
    Moves line g h → Reads lines h k → Reads (line :: lines) g k

theorem moves_nil (g : Grouping) : Moves [] g g := fun _ _ => rfl

theorem Reads.append {front back : List (List Char)} (first : Reads front g h)
    (second : Reads back h k) : Reads (front ++ back) g k := by
  induction first with
  | nil => exact second
  | cons moves _ ih => exact .cons moves (ih second)

theorem Reads.single {line : List Char} (moves : Moves line g h) : Reads [line] g h :=
  .cons moves .nil

theorem Reads.read_intercalate {lines : List (List Char)} (reads : Reads lines g h) :
    g.read (['\n'].intercalate lines) = h.read [] := by
  induction reads with
  | nil => rfl
  | @cons line lines g h k moves reads ih =>
    cases lines with
    | nil =>
      cases reads
      have last := moves [] (by simp [EndsLine])
      rw [List.append_nil] at last
      simpa using last
    | cons next lines =>
      rw [List.intercalate_cons_cons, List.append_assoc, List.singleton_append,
        moves _ (by simp [EndsLine]), read_feed, ih]

/-- Lines with a line feed behind each, all but the empty ones indented. -/
def indented (lines : List (List Char)) : List Char :=
  lines.flatMap fun line => (if line.isEmpty then [] else "    ".toList ++ line) ++ ['\n']

theorem Reads.read_indented {lines : List (List Char)} (reads : Reads lines g h)
    (rest : List Char) : g.read (indented lines ++ rest) = h.read rest := by
  induction reads with
  | nil => rfl
  | @cons line lines g h k moves reads ih =>
    have feed : EndsLine ('\n' :: (indented lines ++ rest)) := by
      simp [EndsLine]
    have padded : g.read ((if line.isEmpty then [] else "    ".toList ++ line) ++
        '\n' :: (indented lines ++ rest)) = h.read ('\n' :: (indented lines ++ rest)) := by
      split
      · rename_i empty
        rw [← moves _ feed, List.isEmpty_iff.mp empty]
      · rw [List.append_assoc, read_spaces (by decide), moves _ feed]
    have shape : indented (line :: lines) ++ rest =
        (if line.isEmpty then [] else "    ".toList ++ line) ++
          '\n' :: (indented lines ++ rest) := by
      simp [indented]
    rw [shape, padded, read_feed, ih]

end Grouping

end WireSchema.Token
