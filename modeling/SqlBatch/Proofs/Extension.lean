import SqlBatch.Proofs.Yields

/-!
# How an expression goes on

What may be read behind an operand depends on the current token and, at a `NOT`, on the next one:
`Cursor.onward?` is the level of what goes on there. One step of an expression either stops, because
nothing of enough power goes on, or reads one more form behind the operand (`extension_cases`).

## One account of the step

The rule of the step tests its tokens in an order that is convenient to run: subscripts and casts
first, then a `NOT` by what stands behind it, then the continuation and its level. What is proved of
expressions elsewhere does not follow these tests. It uses the outcome of a step as it is told here:
what was read (`Expr.Extends`), that it was of enough power, and that the step moved forward. So the
order of the tests is looked at in this module only.

## What a `NOT` belongs to

Only `IN`, `BETWEEN` and `LIKE` can be negated behind an operand. In front of anything else a `NOT`
is no part of the expression, and the step stops there (`continuation?_eq_none_of_not`).
-/

namespace SqlBatch

/-- Only `LIKE` is an operator that can be negated. -/
theorem Continuation.eq_like {op : BinaryOp} (h : (Continuation.binary op).isNegatable) :
    op = .like := by
  cases op <;> first | rfl | cases h

namespace Cursor

/-- The form that goes on at the cursor between two operands, and whether it is negated. -/
def continuation? (c : Cursor) : Option (Bool × Continuation) :=
  let negated := c.current.isKeyword .NOT &&
    ((Continuation.ofKind? c.following.kind).any (·.isNegatable))
  (Continuation.ofKind? (if negated then c.following else c.current).kind).map (negated, ·)

/-- The level of what goes on at the cursor behind an operand. -/
def onward? (c : Cursor) : Option Precedence :=
  if c.current.isSymbol .leftBracket || c.current.isSymbol .doubleColon then some .trailing
  else c.continuation?.map (·.2.precedence)

/-- No more of an expression of a given power can be read at the cursor. -/
def Stops (power : Nat) (c : Cursor) : Prop :=
  ∀ level ∈ c.onward?, level.left < power

/-- A form without a `NOT` is that of the current token. -/
theorem ofKind?_of_continuation? {c : Cursor} {form : Continuation}
    (h : c.continuation? = some (false, form)) :
    Continuation.ofKind? c.current.kind = some form := by
  obtain ⟨_, hform, heq⟩ := Option.map_eq_some_iff.1 h
  obtain ⟨hnegated, rfl⟩ := Prod.mk.inj heq
  rwa [hnegated, if_neg Bool.false_ne_true] at hform

/-- A negated form is one that can be negated, of the token behind a `NOT`. -/
theorem following_of_continuation? {c : Cursor} {form : Continuation}
    (h : c.continuation? = some (true, form)) : c.current.isKeyword .NOT ∧
      Continuation.ofKind? c.following.kind = some form ∧ form.isNegatable := by
  obtain ⟨_, hform, heq⟩ := Option.map_eq_some_iff.1 h
  obtain ⟨hnegated, rfl⟩ := Prod.mk.inj heq
  obtain ⟨hnot, hany⟩ := (Bool.and_eq_true _ _).mp hnegated
  rw [hnegated, if_pos rfl] at hform
  rw [hform, Option.any_some] at hany
  exact ⟨hnot, hform, hany⟩

/-- In front of what can be negated, `NOT` belongs to the expression. -/
theorem continuation?_of_not {c : Cursor} {form : Continuation} (hnot : c.current.isKeyword .NOT)
    (hform : Continuation.ofKind? c.following.kind = some form) (hnegatable : form.isNegatable) :
    c.continuation? = some (true, form) := by
  rw [continuation?, hnot, hform, Option.any_some, hnegatable]
  simp only [Bool.and_self, if_true, hform, Option.map_some]

/-- Where no form stands behind it, a `NOT` is not read as part of the expression. -/
theorem continuation?_eq_none_of_not {c : Cursor} (hnot : c.current.isKeyword .NOT)
    (hform : Continuation.ofKind? c.following.kind = none) : c.continuation? = none := by
  rw [continuation?, hform, Option.any_none, Bool.and_false]
  simp only [Bool.false_eq_true, if_false, beq_iff_eq.1 hnot]
  rfl

end Cursor

/-- A symbol other than the semicolon can be passed. -/
theorem Token.isOpen_of_isSymbol {token : Token} {symbol : Symbol} (h : token.isSymbol symbol)
    (hs : symbol ≠ .semicolon) : token.isOpen := by
  rw [isSymbol, beq_iff_eq] at h
  simp [isOpen, endsStatement, isSymbol, isEof, isError, h, hs]

/-- What goes on behind an operand is a word or a symbol, and ends no statement. -/
theorem Token.isOpen_of_continuation {token : Token} {form : Continuation}
    (h : Continuation.ofKind? token.kind = some form) : token.isOpen := by
  obtain ⟨kind, text, span⟩ := token
  cases kind with
  | keyword word => rfl
  | symbol symbol => cases symbol <;> first | rfl | cases h
  | _ => cases h

namespace Rule

/-- What one more step reads behind an operand, by its level. -/
inductive Extends (inner : Nested) (operand : Expr) : Precedence → Expr → Cursor → Prop
  | subscript {index : Expr} {start after : Cursor} (stop : Cursor) :
    inner.expression.run start = .done index after →
    Extends inner operand .trailing (.subscript operand index) stop
  | cast {type : DataType} {start after : Cursor} :
    (dataType inner).run start = .done type after →
    Extends inner operand .trailing (.cast operand type) after
  | isNull (negated : Bool) (stop : Cursor) :
    Extends inner operand .comparison (.isNull operand negated) stop
  | isIn {list : List Expr} {start after : Cursor} (negated : Bool) :
    (inList inner).run start = .done list after →
    Extends inner operand .comparison (.isIn operand list negated) after
  | between {low high : Expr} {start mid start' after : Cursor} (negated : Bool) :
    (inner.expressionFrom Precedence.comparison.right).run start = .done low mid →
    (inner.expressionFrom Precedence.comparison.right).run start' = .done high after →
    Extends inner operand .comparison (.between operand low high negated) after
  | binary {op : BinaryOp} {right : Expr} {start after : Cursor} :
    (inner.expressionFrom op.precedence.right).run start = .done right after →
    Extends inner operand op.precedence (.binary op operand right) after
  | notLike {right : Expr} {start after : Cursor} :
    (inner.expressionFrom Precedence.comparison.right).run start = .done right after →
    Extends inner operand .comparison (.unary .not (.binary .like operand right)) after

/-- A rule that goes on behind an open token moves forward. -/
theorem position_lt_run_of_isOpen {α : Type} (r : Rule α) {c : Cursor} (hopen : c.current.isOpen) :
    c.position < (r.run c.advance).cursor.position := by
  have hle := (r.forward c.advance).position_le
  rwa [Cursor.position_advance_of_isOpen hopen] at hle

/-- What is read behind a token that has been passed ends behind it. -/
theorem position_lt_of_isOpen {α : Type} {r : Rule α} {c after : Cursor} {a : α}
    (hopen : c.current.isOpen) (h : r.run c.advance = .done a after) :
    c.position < after.position := by
  have hlt := position_lt_run_of_isOpen r hopen
  rwa [h] at hlt

/-- What a continuation reads is put behind the operand as its form says. -/
theorem extends_of_continuation {inner : Nested} {operand e : Expr} {negated : Bool}
    {form : Continuation} {c after : Cursor}
    (hnegated : ∀ op, negated → form = .binary op → op = .like)
    (h : (continuation inner operand negated form).run c = .done e after) :
    Extends inner operand form.precedence e after := by
  cases form with
  | isNull =>
    obtain ⟨notNull, _, -, h⟩ := exists_of_run_bind h
    obtain ⟨_, _, -, h⟩ := exists_of_run_bind h
    cases h
    exact .isNull notNull after
  | isIn =>
    obtain ⟨list, _, hlist, h⟩ := exists_of_run_bind h
    cases h
    exact .isIn negated hlist
  | between =>
    obtain ⟨low, _, hlow, h⟩ := exists_of_run_bind h
    obtain ⟨_, _, -, h⟩ := exists_of_run_bind h
    obtain ⟨high, _, hhigh, h⟩ := exists_of_run_bind h
    cases h
    exact .between negated hlow hhigh
  | binary op =>
    obtain ⟨right, _, hright, h⟩ := exists_of_run_bind h
    cases negated with
    | false =>
      cases h
      exact .binary hright
    | true =>
      obtain rfl := hnegated op rfl rfl
      cases h
      exact .notLike hright

/-- What a subscript or a cast reads is put behind the operand, behind a token that was passed. -/
theorem extends_of_subscriptOrCast {inner : Nested} {operand e : Expr} {c after : Cursor}
    (htrailing : c.current.isSymbol .leftBracket || c.current.isSymbol .doubleColon)
    (h : (subscriptOrCast inner operand).run c = .done e after) :
    c.position < after.position ∧ Extends inner operand .trailing e after := by
  rw [subscriptOrCast, run_bind, run_accept] at h
  by_cases hbracket : c.current.isSymbol .leftBracket
  · simp only [hbracket, if_true] at h
    refine ⟨position_lt_of_isOpen (Token.isOpen_of_isSymbol hbracket (by decide)) h, ?_⟩
    obtain ⟨index, _, hindex, h⟩ := exists_of_run_bind h
    obtain ⟨_, _, -, h⟩ := exists_of_run_bind h
    cases h
    exact .subscript after hindex
  · rw [Bool.eq_false_iff.2 hbracket, Bool.false_or] at htrailing
    simp only [Bool.eq_false_iff.2 hbracket, Bool.false_eq_true, if_false] at h
    rw [run_bind, run_advance] at h
    refine ⟨position_lt_of_isOpen (Token.isOpen_of_isSymbol htrailing (by decide)) h, ?_⟩
    obtain ⟨type, _, htype, h⟩ := exists_of_run_bind h
    cases h
    exact .cast htype

/-- The words in front of a continuation are passed. -/
theorem position_lt_run_continued (inner : Nested) (operand : Expr) (negated : Bool)
    (form : Continuation) {c : Cursor} (hopen : c.current.isOpen) :
    c.position < ((continued inner operand negated form).run c).cursor.position :=
  match negated with
  | true =>
    position_lt_run_of_isOpen (do advance; some <$> continuation inner operand true form) hopen
  | false => position_lt_run_of_isOpen (some <$> continuation inner operand false form) hopen

/-- A continuation that is read starts behind its first tokens, which are one or two. -/
theorem exists_of_run_continued {inner : Nested} {operand : Expr} {e? : Option Expr}
    {negated : Bool} {form : Continuation} {c after : Cursor}
    (h : (continued inner operand negated form).run c = .done e? after) :
    ∃ e start, e? = some e ∧
      (continuation inner operand negated form).run start = .done e after := by
  cases negated with
  | true =>
    obtain ⟨_, _, -, h⟩ := exists_of_run_bind h
    obtain ⟨_, start, -, h⟩ := exists_of_run_bind h
    obtain ⟨e, hrun, rfl⟩ := exists_of_run_map h
    exact ⟨e, start, rfl, hrun⟩
  | false =>
    obtain ⟨_, start, -, h⟩ := exists_of_run_bind h
    obtain ⟨e, hrun, rfl⟩ := exists_of_run_map h
    exact ⟨e, start, rfl, hrun⟩

/-- What one step of an expression does, by what goes on at the cursor. -/
theorem run_extension (inner : Nested) (power : Nat) (operand : Expr) (c : Cursor) :
    (extension inner power operand).run c =
      if c.current.isSymbol .leftBracket || c.current.isSymbol .doubleColon then
        (if Precedence.trailing.left < power then return none
          else some <$> subscriptOrCast inner operand : Rule (Option Expr)).run c
      else match c.continuation? with
        | none => .done none c
        | some (negated, form) =>
          if form.precedence.left < power then .done none c
          else (continued inner operand negated form).run c := by
  rw [extension, run_bind, run_current]
  simp only
  split
  · rfl
  · rw [run_bind, run_following, Cursor.continuation?]
    simp only
    generalize (c.current.isKeyword .NOT &&
      (Continuation.ofKind? c.following.kind).any (·.isNegatable)) = negated
    cases Continuation.ofKind? (if negated then c.following else c.current).kind with
    | none => rfl
    | some form =>
      show Rule.run (if form.precedence.left < power then _ else _) c = _
      simp only [Option.map_some]
      split <;> rfl

/-- What goes on between two operands starts with an open token. -/
theorem isOpen_of_continuation? {c : Cursor} {negated : Bool} {form : Continuation}
    (h : c.continuation? = some (negated, form)) : c.current.isOpen := by
  cases negated with
  | true => exact Token.isOpen_of_isKeyword (Cursor.following_of_continuation? h).1
  | false => exact Token.isOpen_of_continuation (Cursor.ofKind?_of_continuation? h)

/-- **One step of an expression** stops where nothing goes on, or else moves forward and reads one
form of the level that goes on. -/
theorem extension_cases {inner : Nested} {power : Nat} {operand : Expr} {e? : Option Expr}
    {c after : Cursor} (h : (extension inner power operand).run c = .done e? after) :
    (e? = none ∧ after = c ∧ c.Stops power) ∨
      ∃ level e, e? = some e ∧ c.onward? = some level ∧ power ≤ level.left ∧
        c.position < after.position ∧ Extends inner operand level e after := by
  have hstops {level : Precedence} (honward : c.onward? = some level)
      (hlt : level.left < power) : c.Stops power := by
    intro level' hlevel'
    rw [honward] at hlevel'
    exact Option.some.inj hlevel' ▸ hlt
  rw [run_extension] at h
  -- Brackets and colons go on by themselves; all else is told by one token or two.
  by_cases htrailing : c.current.isSymbol .leftBracket || c.current.isSymbol .doubleColon
  · have honward : c.onward? = some .trailing := by rw [Cursor.onward?, if_pos htrailing]
    rw [if_pos htrailing] at h
    split at h
    · rename_i hlt
      cases h
      exact .inl ⟨rfl, rfl, hstops honward hlt⟩
    · rename_i hle
      obtain ⟨e, hrun, rfl⟩ := exists_of_run_map h
      obtain ⟨hposition, hextends⟩ := extends_of_subscriptOrCast htrailing hrun
      exact .inr ⟨_, e, rfl, honward, Nat.le_of_not_lt hle, hposition, hextends⟩
  · have honward : c.onward? = c.continuation?.map (·.2.precedence) := by
      rw [Cursor.onward?, if_neg htrailing]
    rw [if_neg htrailing] at h
    cases hcontinuation : c.continuation? with
    | none =>
      rw [hcontinuation] at h honward
      cases h
      refine .inl ⟨rfl, rfl, fun level hlevel ↦ ?_⟩
      rw [honward] at hlevel
      cases hlevel
    | some found =>
      obtain ⟨negated, form⟩ := found
      rw [hcontinuation] at h honward
      simp only at h
      split at h
      · rename_i hlt
        cases h
        exact .inl ⟨rfl, rfl, hstops honward hlt⟩
      · rename_i hle
        -- Only `LIKE` can have a `NOT` in front of it among the operators.
        have hlike : ∀ op, negated → form = .binary op → op = .like := by
          rintro op rfl rfl
          exact Continuation.eq_like (Cursor.following_of_continuation? hcontinuation).2.2
        have hposition := position_lt_run_continued inner operand negated form
          (isOpen_of_continuation? hcontinuation)
        rw [h] at hposition
        obtain ⟨e, start, rfl, hrun⟩ := exists_of_run_continued h
        exact .inr ⟨_, e, rfl, honward, Nat.le_of_not_lt hle, hposition,
          extends_of_continuation hlike hrun⟩

end Rule

end SqlBatch
