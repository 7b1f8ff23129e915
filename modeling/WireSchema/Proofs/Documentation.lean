import WireSchema.Proofs.Inversion
import WireSchema.Proofs.TableGrammar

/-! An attribute has a text exactly if it is written as documentation. -/

namespace WireSchema.Table

open Token Parse

namespace Expression

variable {g : Grammar} {braces : Bool} {s t : Remaining} {shape : Shape}

def Shape.Composed (shape : Shape) : Prop := ∀ value, shape.kind ≠ .literal value

theorem composed_other (closed : Bool) : Gives Shape.Composed (pure ⟨.other, closed⟩) :=
  gives_pure fun _ => nofun

theorem composed_plain : Gives Shape.Composed (pure .plain) := composed_other false

theorem composed_optionalValue : Gives Shape.Composed (optionalValue g braces) :=
  gives_bind fun _ => gives_ite (gives_bind fun _ => composed_other _) composed_plain

theorem composed_closure : Gives Shape.Composed (closure g braces) := by
  refine gives_bind fun _ => gives_bind fun _ => gives_bind fun _ => gives_bind fun _ =>
    gives_bind fun _ => gives_bind fun _ => gives_ite ?_ ?_
  · exact gives_bind fun _ => gives_bind fun _ => composed_other true
  · exact gives_bind fun _ => composed_other _

theorem composed_builtIn : Gives Shape.Composed builtIn :=
  gives_bind fun _ => gives_bind fun _ => gives_bind fun _ => gives_bind fun _ => composed_plain

theorem composed_named : Gives Shape.Composed (named g braces) := by
  refine gives_bind fun _ => gives_bind fun _ => gives_ite ?_ (gives_ite ?_ composed_plain)
  · exact gives_bind fun _ => gives_bind fun _ => gives_pure fun _ => nofun
  · exact gives_bind fun _ => composed_other true

theorem composed_leaving : Gives Shape.Composed (leaving g braces) := by
  refine gives_bind fun _ => gives_ite ?_ ?_
  · exact gives_bind fun _ => gives_bind fun _ => gives_bind fun _ => composed_optionalValue
  · exact gives_bind fun _ => composed_optionalValue

theorem composed_binding : Gives Shape.Composed (binding g braces) :=
  gives_bind fun _ => gives_bind fun _ => gives_bind fun _ => gives_bind fun _ => composed_other _

theorem composed_range : Gives Shape.Composed (range g braces) := by
  refine gives_bind fun _ => gives_bind fun _ => gives_ite ?_ ?_
  · exact gives_pure fun _ => nofun
  · exact gives_bind fun _ => gives_pure fun _ => nofun

/-- An expression without operators is a literal only if one is at the front. -/
theorem run_literal_of_atom {value : Literal} (done : (atom g braces).run s = .ok (shape, t))
    (kind : shape.kind = .literal value) :
    atLiteral s.tokens = true ∧ literal.run s = .ok (value, t) := by
  rw [atom, run_bind_of_ok (run_peek _)] at done
  by_cases front : atLiteral s.tokens = true
  · change StateT.run (if atLiteral s.tokens = true then _ else _) s = _ at done
    rw [if_pos front] at done
    obtain ⟨found, u, read, done⟩ := exists_of_run_bind done
    obtain ⟨rfl, rfl⟩ := eq_of_run_pure done
    cases kind
    exact ⟨front, read⟩
  · change StateT.run (if atLiteral s.tokens = true then _ else _) s = _ at done
    rw [if_neg front] at done
    refine (absurd kind ((?_ : Gives Shape.Composed _) _ _ _ done value))
    refine gives_ite ?_ (gives_ite composed_closure (gives_ite composed_builtIn
      (gives_ite composed_named (gives_ite ?_ (gives_ite ?_ ?_)))))
    · exact gives_bind fun _ => gives_bind fun _ => gives_bind fun _ => composed_other true
    · exact gives_bind fun _ => composed_plain
    · exact gives_bind fun _ => composed_plain
    · refine gives_bind fun _ => gives_ite composed_leaving ?_
      refine gives_bind fun _ => gives_ite (gives_bind fun _ => composed_plain) ?_
      refine gives_bind fun _ => gives_bind fun _ => gives_ite composed_optionalValue ?_
      refine gives_bind fun _ => gives_ite (gives_bind fun _ => composed_other _) ?_
      refine gives_bind fun _ => gives_ite composed_binding ?_
      refine gives_bind fun _ => gives_ite (gives_pure fun _ => nofun) ?_
      refine gives_ite composed_range ?_
      exact gives_bind fun _ => gives_ite composed_plain (gives_missing _)

/-- Answers that make an expression of parts, or nothing. -/
theorem gives_some {next : Shape} (composed : next.Composed) :
    Gives (fun next => ∀ shape ∈ next, Shape.Composed shape) (pure (some next)) :=
  gives_pure (by rintro shape ⟨⟩; exact composed)

theorem gives_none : Gives (fun next => ∀ shape ∈ next, Shape.Composed shape) (pure none) :=
  gives_pure nofun

theorem gives_some_of {read : Parse Shape} (gives : Gives Shape.Composed read) :
    Gives (fun next => ∀ shape ∈ next, Shape.Composed shape) (do return some (← read)) := by
  intro s next t done
  obtain ⟨shape, u, made, done⟩ := exists_of_run_bind done
  exact gives_some (gives _ _ _ made) _ _ _ done

theorem composed_cast : Gives Shape.Composed (Expression.cast g) := by
  refine gives_bind fun _ => gives_bind fun _ => gives_bind fun _ => ?_
  split
  · exact gives_throw _
  · exact composed_plain

theorem plain_composed : Shape.plain.Composed := fun _ => nofun

/-- What follows a literal is made a part of an expression, unless nothing is read. -/
theorem eq_of_run_trailers {value : Shape} (done : (trailers g value).run s = .ok (shape, t))
    (single : ¬ shape.Composed) : value = shape ∧ s = t := by
  refine eq_of_run_grow (fun value => ?_) ?_ done single
  · refine gives_bind fun _ => gives_ite (gives_bind fun _ => gives_some plain_composed) ?_
    refine gives_ite (gives_bind fun _ => gives_some plain_composed) (gives_ite gives_none ?_)
    refine gives_ite (gives_bind fun _ => gives_bind fun _ => gives_some plain_composed) ?_
    exact gives_bind fun _ => gives_ite (gives_some plain_composed) gives_none
  · intro value
    have made (next : Shape) : Gives (· ≠ none) (pure (some next)) := gives_pure nofun
    refine idle_peek fun tokens => idle_ite (idle_of_gives (gives_bind fun _ => made _)) ?_
    refine idle_ite (idle_of_gives (gives_bind fun _ => made _)) (idle_ite idle_none ?_)
    refine idle_ite (idle_of_gives (gives_bind fun _ => gives_bind fun _ => made _)) ?_
    exact idle_acceptMark (made _) idle_none

/-- So is the operand of an operator. -/
theorem eq_of_run_operators {least : Precedence} {left : Shape}
    (done : (operators g braces least left).run s = .ok (shape, t)) (single : ¬ shape.Composed) :
    left = shape ∧ s = t := by
  refine eq_of_run_grow (fun value => ?_) (fun value => ?_) done single
  · have binary (precedence : Precedence) (closed : Bool) : Shape.Composed
        ⟨if precedence = .compare then .comparison else .other, closed⟩ := by
      intro value
      dsimp only
      split <;> nofun
    refine gives_ite gives_none (gives_bind fun tokens => ?_)
    split
    · refine gives_ite gives_none (gives_ite (gives_bind fun _ => ?_) ?_)
      · exact gives_bind fun _ => gives_bind fun _ => gives_some (binary _ _)
      · exact gives_bind fun _ => gives_bind fun _ => gives_some (binary _ _)
    · refine gives_ite ?_ (gives_ite (gives_some_of composed_range)
        (gives_ite (gives_some_of composed_cast) gives_none))
      exact gives_bind fun _ => gives_bind fun _ => gives_some fun _ => nofun
  · refine idle_ite idle_none (idle_peek fun tokens => ?_)
    split
    · refine idle_ite idle_none (idle_ite (idle_of_gives ?_) (idle_of_gives ?_))
      · exact gives_bind fun _ => gives_bind fun _ => gives_bind fun _ => gives_pure nofun
      · exact gives_bind fun _ => gives_bind fun _ => gives_pure nofun
    · refine idle_ite (idle_of_gives ?_) (idle_ite idle_some (idle_ite idle_some idle_none))
      exact gives_bind fun _ => gives_bind fun _ => gives_pure nofun

/-- A sign in front makes an expression of parts as well. -/
theorem run_literal_of_unary {value : Literal}
    (bare : ∀ {any u}, g.attributes.run s = .ok (any, u) → s = u)
    (done : (unary g braces).run s = .ok (shape, t)) (kind : shape.kind = .literal value) :
    atLiteral s.tokens = true ∧ literal.run s = .ok (value, t) := by
  have single : ¬ shape.Composed := fun composed => composed value kind
  rw [unary] at done
  obtain ⟨attributed, u, read, done⟩ := exists_of_run_bind done
  obtain rfl := bare read
  obtain ⟨reference, u, read, done⟩ := exists_of_run_bind done
  split at done
  · refine (single ((?_ : Gives Shape.Composed _) _ _ _ done)).elim
    refine gives_bind fun _ => gives_ite (gives_bind fun _ => ?_) (gives_bind fun _ => ?_)
    · exact gives_bind fun _ => composed_other _
    · exact gives_bind fun _ => composed_other _
  · rename_i absent
    rw [Bool.not_eq_true] at absent
    subst absent
    obtain rfl := eq_of_run_acceptMark read
    rw [run_bind_of_ok (run_peek _)] at done
    split at done
    · exact (single ((gives_bind fun _ => gives_bind fun _ => composed_other _ :
        Gives Shape.Composed _) _ _ _ done)).elim
    · obtain ⟨first, u, read, done⟩ := exists_of_run_bind done
      obtain ⟨last, v, trailed, done⟩ := exists_of_run_bind done
      split at done
      · obtain ⟨_, _, thrown, -⟩ := exists_of_run_bind done
        exact (not_run_throw thrown).elim
      · obtain ⟨rfl, rfl⟩ := eq_of_run_pure done
        obtain ⟨rfl, rfl⟩ := eq_of_run_trailers trailed single
        exact run_literal_of_atom read kind

/-- A text in the place of an expression is the one that comes next. -/
theorem eq_of_run_literal {text : String} (front : atLiteral s.tokens = true)
    (done : literal.run s = .ok (.string text, t)) :
    s = ⟨.literal (.string text) :: t.tokens, t.leftOver⟩ := by
  rw [literal, run_bind_of_ok (run_peek _)] at done
  obtain ⟨tokens, left⟩ := s
  simp only at done front
  split at done
  · cases done
    rfl
  · cases done
  · cases done

theorem eq_of_run_expression {text : String}
    (bare : ∀ {any u}, g.attributes.run s = .ok (any, u) → s = u)
    (done : (expression g braces).run s = .ok (shape, t))
    (kind : shape.kind = .literal (.string text)) :
    s = ⟨.literal (.string text) :: t.tokens, t.leftOver⟩ := by
  rw [expression] at done
  obtain ⟨first, u, read, done⟩ := exists_of_run_bind done
  obtain ⟨rfl, rfl⟩ := eq_of_run_operators done fun composed => composed _ kind
  obtain ⟨front, single⟩ := run_literal_of_unary bare read kind
  exact eq_of_run_literal front single

end Expression

namespace Attribute

variable {g : Expression.Grammar} {s t : Remaining} {text : String}

/-- Where no attribute begins, none is read. -/
theorem eq_of_run_outers {any : Bool}
    (apart : (atMark "#" s.tokens && atGroup .square (s.tokens.drop 1)) = false)
    (done : (outers g).run s = .ok (any, t)) : s = t := by
  rw [outers, run_bind_of_ok (run_sees _ _)] at done
  obtain ⟨_, u, repeated, done⟩ := exists_of_run_bind done
  obtain ⟨-, rfl⟩ := eq_of_run_pure done
  rw [repeatWhile, run_bind_of_ok (run_peek _), repeatUpTo] at repeated
  obtain ⟨more, v, stepped, repeated⟩ := exists_of_run_bind repeated
  rw [run_bind_of_ok (run_sees _ _)] at stepped
  cases hash : atMark "#" s.tokens with
  | false =>
    rw [hash] at stepped
    cases stepped
    cases repeated
    rfl
  | true =>
    rw [hash] at stepped apart
    obtain ⟨_, w, read, -⟩ := exists_of_run_bind stepped
    rw [outer] at read
    obtain ⟨_, x, marked, read⟩ := exists_of_run_bind read
    obtain ⟨joint, rfl⟩ := exists_of_run_mark rfl marked
    have grouped : atGroup .square x.tokens = true := atGroup_of_run_group read
    rw [List.drop_one, List.tail_cons, grouped] at apart
    cases apart

theorem eq_of_run_expression {n : Nat} {shape : Expression.Shape}
    (apart : (atMark "#" s.tokens && atGroup .square (s.tokens.drop 1)) = false)
    (done : ((Nat.repeat deeper n Expression.Grammar.empty).expression true).run s = .ok (shape, t))
    (kind : shape.kind = .literal (.string text)) :
    s = ⟨.literal (.string text) :: t.tokens, t.leftOver⟩ := by
  cases n with
  | zero => exact (not_run_missing done).elim
  | succ n =>
    refine Expression.eq_of_run_expression ?_ done kind
    intro any u read
    cases n with
    | zero => exact (not_run_missing read).elim
    | succ n => exact eq_of_run_outers apart read

/-- A text that an attribute is set to is the last token. -/
theorem eq_of_run_value {n : Nat} {left : Option Bracket}
    (done : (value (Nat.repeat deeper n .empty)).run s = .ok (some (.string text), ⟨[], left⟩)) :
    s = ⟨[.literal (.string text)], left⟩ := by
  obtain ⟨tokens, first⟩ := s
  rw [value, run_bind_of_ok (run_peek _)] at done
  simp only at done
  split at done
  · cases done
    rfl
  · rename_i more
    split at done
    · obtain ⟨_, _, thrown, -⟩ := exists_of_run_bind done
      exact (not_run_throw thrown).elim
    · rename_i apart
      rw [Bool.not_eq_true] at apart
      obtain ⟨shape, u, read, done⟩ := exists_of_run_bind done
      have kind : shape.kind = .literal (.string text) ∧ u = ⟨[], left⟩ := by
        split at done
        · rename_i kind
          cases done
          exact ⟨kind, rfl⟩
        · cases done
      obtain ⟨kind, rfl⟩ := kind
      exact eq_of_run_expression apart read kind

theorem gives_words (fuel : Nat) : Gives (· ≠ []) (Expression.words fuel) := by
  cases fuel with
  | zero => exact gives_missing _
  | succ fuel =>
    refine gives_bind fun tokens => ?_
    split
    · refine gives_ite (gives_bind fun _ => ?_) ?_ <;>
        refine gives_bind fun _ => gives_bind fun _ => gives_ite (gives_pure nofun)
          (gives_bind fun next => ?_)
      all_goals
        split
        · exact gives_ite (gives_bind fun _ => gives_pure nofun) (gives_missing _)
        · exact gives_missing _
    · exact gives_missing _

/-- A path of one word has nothing but that word. -/
theorem eq_of_run_words {fuel : Nat} {word : String}
    (done : (Expression.words fuel).run s = .ok ([word], t)) :
    s = ⟨.word word :: t.tokens, t.leftOver⟩ := by
  cases fuel with
  | zero => exact (not_run_missing done).elim
  | succ fuel =>
    obtain ⟨tokens, left⟩ := s
    rw [Expression.words, run_bind_of_ok (run_peek _)] at done
    simp only at done
    split at done
    · split at done
      · obtain ⟨_, _, thrown, -⟩ := exists_of_run_bind done
        exact (not_run_throw thrown).elim
      · rw [run_bind_of_ok (run_advance _ _)] at done
        obtain ⟨colons, u, accepted, done⟩ := exists_of_run_bind done
        cases colons with
        | false =>
          obtain rfl := eq_of_run_acceptMark accepted
          cases done
          rfl
        | true =>
          rw [if_neg (by decide), run_bind_of_ok (run_peek _)] at done
          split at done
          · split at done
            · obtain ⟨others, v, read, done⟩ := exists_of_run_bind done
              obtain ⟨same, -⟩ := eq_of_run_pure done
              exact (gives_words fuel _ _ _ read (List.cons.inj same).2).elim
            · exact (not_run_missing done).elim
          · exact (not_run_missing done).elim
    · exact (not_run_missing done).elim

/-- Only one word without a double colon in front is a name of one word. -/
theorem eq_of_run_name {word : String} (reserved : word ≠ "unsafe")
    (done : name.run s = .ok ((false, [word]), t)) : s = ⟨.word word :: t.tokens, t.leftOver⟩ := by
  rw [name] at done
  obtain ⟨found, u, accepted, done⟩ := exists_of_run_bind done
  split at done
  · cases done
    exact (reserved rfl).elim
  · rename_i absent
    rw [Bool.not_eq_true] at absent
    subst absent
    obtain rfl := eq_of_run_acceptWord accepted
    rw [Expression.plainPath] at done
    obtain ⟨rooted, u, accepted, done⟩ := exists_of_run_bind done
    rw [run_bind_of_ok (run_peek _)] at done
    obtain ⟨words, v, read, done⟩ := exists_of_run_bind done
    cases done
    obtain rfl := eq_of_run_acceptMark accepted
    exact eq_of_run_words read

/-- What has a text is the word `doc`, an equals sign and that text. -/
theorem eq_of_run_content {n : Nat} {left : Option Bracket}
    (done : (content (Nat.repeat deeper n .empty)).run s = .ok (some text, ⟨[], left⟩)) :
    ∃ equals, s = ⟨[.word "doc", .mark '=' equals, .literal (.string text)], left⟩ := by
  rw [content] at done
  obtain ⟨name, u, named, done⟩ := exists_of_run_bind done
  rw [run_bind_of_ok (run_peek _)] at done
  split at done
  · rename_i assigned
    rw [run_bind_of_ok (run_skip _ _)] at done
    obtain ⟨value, v, read, done⟩ := exists_of_run_bind done
    split at done
    · obtain ⟨same, rfl⟩ := eq_of_run_pure done
      rw [Option.ite_none_right_eq_some, Option.some.injEq] at same
      obtain ⟨rfl, rfl⟩ := same
      obtain rfl := eq_of_run_name (by decide) named
      have last := eq_of_run_value read
      simp only [Bool.and_eq_true] at assigned
      rw [Expression.atAssignment, Bool.and_eq_true] at assigned
      obtain ⟨equals, rest, shape⟩ := startsMarks_singleton assigned.1.1
      obtain ⟨tokens, first⟩ := u
      obtain rfl : tokens = _ := shape
      cases last
      exact ⟨equals, rfl⟩
    · cases done
  · split at done
    · cases done
    · cases done

/-- An attribute that has a text is documentation. -/
theorem isDoc_of_run_text (done : Attribute.text.run s = .ok (some text, t))
    (clean : t.leftOver = none) :
    ∃ block, s = ⟨block ++ t.tokens, none⟩ ∧ Grammar.IsDoc block text := by
  rw [Attribute.text] at done
  obtain ⟨_, u, marked, grouped⟩ := exists_of_run_bind done
  obtain ⟨hash, rfl⟩ := exists_of_run_mark (c := '#') rfl marked
  obtain ⟨body, shape, read⟩ := exists_of_run_group grouped clean
  rw [run_bind_of_ok (run_peek _)] at read
  obtain ⟨equals, same⟩ := eq_of_run_content read
  obtain ⟨rfl, left⟩ := Remaining.mk.inj same
  rw [shape, left]
  exact ⟨_, rfl, .mk⟩

end Attribute

end WireSchema.Table
