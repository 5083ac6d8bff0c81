import SqlBatch.Grammar.Expression
import SqlBatch.Proofs.Variation.DataType

/-!
# Expressions tell names and values apart

Each form of an expression answers with a constructor of its own, and keeps all that it has read in
the fields of it: where the answers are equal, so are the fields, by injectivity of the constructor.

## What is owed

What stands behind an operand goes on with that operand, which is owed to it (`extension`). A step
that finds nothing to go on with answers with nothing, and then the operand itself is the answer; so
what a step has to tell is about its answer or else the operand (`KeepsOperand`). With that the loop
over the steps is one law.

## What is not told apart

Whether something goes on behind an operand is decided by words and symbols, and a token that varies
is neither (`ofKind?_eq_none`). The position of a parameter is the number of placeholders read until
then. It is the same in both readings (`placeholders`), for a placeholder carries no value that
could differ.
-/

namespace SqlBatch.Variation

variable {V : Variation} {inner : Nested}

namespace Tells

/-! ### Operands -/

/-- What a function is called with. -/
theorem arguments (h : V.Inside inner) :
    V.Reveals (Prod.map id (List.map (Expr.relabel .forgetPlaces))) (.arguments inner) := by
  refine parenthesized ((acceptKeyword .DISTINCT).bind_silent fun distinct ↦ ?_)
  refine (sees .rightParen).bind_silent fun _ ↦ .ite (.pure trivial fun _ ↦ trivial) ?_
  refine (accept .star).bind_silent fun _ ↦ .ite (.pure trivial fun _ ↦ trivial) ?_
  refine h.expressions.bind_any fun as bs ↦ .pure trivial fun heq ↦ ⟨trivial, ?_⟩
  exact (Prod.mk.inj heq).2

/-- What stands behind a name keeps the name. -/
theorem behindName (h : V.Inside inner) (name name' : String) (span span' : Span) :
    V.Keeps (Expr.relabel .forgetPlaces) (name = name') (.behindName inner name span)
      (.behindName inner name' span') := by
  refine (sees .leftParen).bind_silent fun _ ↦ .ite ?_ ?_
  · refine (arguments h).bind_any fun ⟨distinct, as⟩ ⟨distinct', bs⟩ ↦ .pure trivial fun heq ↦ ?_
    obtain ⟨hname, hdistinct, hexprs⟩ := Expr.call.inj heq
    rw [relabelExprs_eq_map, relabelExprs_eq_map] at hexprs
    exact ⟨hname, Prod.ext hdistinct hexprs⟩
  · refine (accept .dot).bind_silent fun _ ↦ .ite ?_ (.pure trivial fun heq ↦ ?_)
    · refine (accept .star).bind_silent fun _ ↦ .ite (.pure trivial fun heq ↦ ?_) ?_
      · exact Option.some.inj (Expr.wildcard.inj heq)
      · refine .bind_current fun _ _ _ ↦ identifier.bind_any fun a b ↦ .pure trivial fun heq ↦ ?_
        obtain ⟨htable, hcolumn, -⟩ := Expr.column.inj heq
        exact ⟨Option.some.inj htable, hcolumn⟩
    · exact (Expr.column.inj heq).2.1

/-- The end of an array, which keeps the elements. -/
theorem closedArray (as bs : List Expr) :
    V.Keeps (Expr.relabel .forgetPlaces)
      (True ∧ Same (List.map (Expr.relabel .forgetPlaces)) as bs) (.closedArray as)
      (.closedArray bs) := by
  refine (symbol .rightBracket).bind_silent fun _ ↦ .pure trivial fun heq ↦ ⟨trivial, ?_⟩
  have hexprs := Expr.array.inj heq
  rwa [relabelExprs_eq_map, relabelExprs_eq_map] at hexprs

theorem arrayLiteral (h : V.Inside inner) :
    V.Reveals (Expr.relabel .forgetPlaces) (.arrayLiteral inner) := by
  refine (symbol .leftBracket).bind_silent fun _ ↦ ?_
  refine (sees .rightBracket).bind_silent fun _ ↦ .ite ?_ ?_
  · exact (closedArray [] []).mono fun _ ↦ trivial
  · exact h.expressions.bind_any closedArray

theorem branch (h : V.Inside inner) :
    V.Reveals? (Branch.relabel .forgetPlaces) (.branch inner) := by
  refine clause .WHEN (h.expression.bind_any fun a b ↦ (keyword .THEN).bind_silent fun _ ↦ ?_)
  refine h.expression.bind_any fun a' b' ↦ .pure trivial fun heq ↦ ?_
  obtain ⟨hcondition, hresult⟩ := Branch.mk.inj heq
  exact ⟨⟨trivial, hcondition⟩, hresult⟩

/-- The end of a `CASE`, which keeps the operand and the arms. -/
theorem caseEnding (h : V.Inside inner) (a b : Option Expr) (as bs : List Branch) :
    V.Keeps (Expr.relabel .forgetPlaces)
      ((True ∧ Same (Option.map (Expr.relabel .forgetPlaces)) a b) ∧
        Same (List.map (Branch.relabel .forgetPlaces)) as bs)
      (.caseEnding inner a as) (.caseEnding inner b bs) := by
  refine (clause .ELSE h.expression).bind fun x y _ ↦ (keyword .END).bind_silent fun _ ↦ ?_
  refine .pure trivial fun heq ↦ ?_
  obtain ⟨hoperand, hbranches, hotherwise⟩ := Expr.case.inj heq
  rw [relabelExpr?_eq_map, relabelExpr?_eq_map] at hoperand hotherwise
  rw [relabelBranches_eq_map, relabelBranches_eq_map] at hbranches
  exact ⟨⟨⟨trivial, hoperand⟩, hbranches⟩, hotherwise⟩

/-- The arms of a `CASE`, at least one, which keep the operand. -/
theorem arms (h : V.Inside inner) (a b : Option Expr) :
    V.Keeps (Expr.relabel .forgetPlaces)
      (True ∧ Same (Option.map (Expr.relabel .forgetPlaces)) a b) (.arms inner a)
      (.arms inner b) :=
  (many (branch h)).bind_any fun as bs ↦ .unless_fail (caseEnding h a b as bs)

/-- A `CASE` with or without an operand. -/
theorem caseExpression (h : V.Inside inner) :
    V.Reveals (Expr.relabel .forgetPlaces) (.caseExpression inner) := by
  refine (keyword .CASE).bind_silent fun _ ↦ (seesKeyword .WHEN).bind_silent fun _ ↦ .ite ?_ ?_
  · exact (arms h none none).mono fun _ ↦ trivial
  · exact h.expression.some.bind fun x y _ ↦ arms h x y

/-- A subquery or an expression in parentheses. -/
theorem parenthesizedOperand (h : V.Inside inner) :
    V.Reveals (Expr.relabel .forgetPlaces) (.parenthesizedOperand inner) := by
  refine parenthesized ((seesKeyword .SELECT).bind_silent fun _ ↦ .ite ?_ ?_)
  · exact h.query.bind_any fun a b ↦ .pure trivial fun heq ↦ ⟨trivial, Expr.subquery.inj heq⟩
  · exact h.expression.bind_any fun a b ↦ .pure trivial fun heq ↦ ⟨trivial, Expr.paren.inj heq⟩

/-- A conversion in the form of a call. -/
theorem cast (h : V.Inside inner) : V.Reveals (Expr.relabel .forgetPlaces)
    (.parenthesized do
      let operand ← inner.expression
      Rule.keyword .AS
      let type ← .dataType inner
      return .cast operand type) := by
  refine parenthesized (h.expression.bind_any fun a b ↦ (keyword .AS).bind_silent fun _ ↦ ?_)
  refine (dataType h).bind_any fun type type' ↦ .pure trivial fun heq ↦ ?_
  obtain ⟨hoperand, htype⟩ := Expr.cast.inj heq
  exact ⟨⟨trivial, hoperand⟩, htype⟩

/-- The number of placeholders is the same in both readings. -/
theorem placeholders : V.Silent .placeholders := by
  rintro c d _ _ _ _ hcd - ⟨⟩ ⟨⟩
  exact ⟨hcd, hcd.placeholders.symm, fun _ ↦ ⟨trivial, fun h ↦ (not_passes_self _ h).elim⟩⟩

/-- An operand by how it begins, behind a first token which is not the one that differs. -/
theorem opened (h : V.Inside inner) (opening : Opening) :
    V.Tells (· ≠ V.index) Any (Same (Expr.relabel .forgetPlaces)) True (.opened inner opening)
      (.opened inner opening) := by
  cases opening with
  | literal | positional | wildcard => exact .advance_of_ne (.pure trivial fun _ ↦ trivial)
  | placeholder =>
    exact .advance_of_ne (placeholders.bind_silent fun _ ↦ .pure trivial fun _ ↦ trivial)
  | named =>
    refine .advance_of_ne (identifier.bind_any fun a b ↦ .pure trivial fun heq ↦ ⟨trivial, ?_⟩)
    exact Parameter.named.inj (Expr.parameter.inj heq)
  | parenthesized => exact (parenthesizedOperand h).weaken
  | array => exact (arrayLiteral h).weaken
  | cast => exact .advance_of_ne (cast h)
  | case => exact (caseExpression h).weaken
  | «exists» =>
    refine .advance_of_ne ((parenthesized h.query).bind_any fun a b ↦ .pure trivial fun heq ↦ ?_)
    exact ⟨trivial, Expr.exists.inj heq⟩

/-- An array, or a name and what stands behind it. -/
theorem arrayOrNamed (h : V.Inside inner) :
    V.Reveals (Expr.relabel .forgetPlaces) (.arrayOrNamed inner) := by
  refine lookahead (fun _ _ hnext ↦ hnext.isSymbol .leftBracket) (arrayLiteral h) ?_
  refine .bind_current_cases (fun t ↦ ?_) fun t u hvaries ↦ ?_
  · split
    · rename_i name _
      exact .advance_of_ne ((behindName h name name t.span t.span).mono fun _ ↦ trivial)
    · exact .fail
  · rcases hvaries.name?_cases with ht | ⟨a, b, ht, hu, hne⟩
    · rw [ht]
      exact .fail
    · rw [ht, hu]
      exact .advance_of_eq ((behindName h a b t.span u.span).mono hne)

/-- **Operands.** -/
theorem operand (h : V.Inside inner) :
    V.Reveals (Expr.relabel .forgetPlaces) (.operand inner) := by
  refine .bind_current_cases (fun t ↦ ?_) fun t u hvaries ↦ ?_
  · split
    · exact opened h _
    · exact (arrayOrNamed h).weaken
  · have literal {a b : Literal} (hne : a ≠ b) :
        V.Tells (· = V.index) Any (Same (Expr.relabel .forgetPlaces)) True
          (.opened inner (.literal a)) (.opened inner (.literal b)) :=
      .advance_of_eq (.pure trivial fun heq ↦ hne (Expr.literal.inj heq))
    generalize t.kind = k at hvaries
    generalize u.kind = l at hvaries
    cases hvaries with
    | integer hne => exact literal fun heq ↦ hne (Literal.integer.inj heq)
    | float hne => exact literal fun heq ↦ hne (Literal.float.inj heq)
    | numeric hne => exact literal fun heq ↦ hne (Literal.numeric.inj heq)
    | string hne => exact literal fun heq ↦ hne (Literal.string.inj heq)
    | blob hne => exact literal fun heq ↦ hne (Literal.blob.inj heq)
    | identifier => exact (arrayOrNamed h).weaken
    | parameter hne =>
      refine .advance_of_eq (.pure trivial fun heq ↦ hne ?_)
      exact Parameter.positional.inj (Expr.parameter.inj heq)

/-! ### What goes on behind an operand -/

/-- An index or a conversion behind an operand, which it keeps. -/
theorem subscriptOrCast (h : V.Inside inner) (operand operand' : Expr) :
    V.Tells (· ≠ V.index) Any (Same (Expr.relabel .forgetPlaces))
      (Same (Expr.relabel .forgetPlaces) operand operand') (.subscriptOrCast inner operand)
      (.subscriptOrCast inner operand') := by
  refine bind_accept ?_ ?_
  · refine h.expression.bind_any fun a b ↦ (symbol .rightBracket).bind_silent fun _ ↦ ?_
    refine .pure trivial fun heq ↦ ?_
    obtain ⟨hbase, hindex⟩ := Expr.subscript.inj heq
    exact ⟨hbase, hindex⟩
  · refine .advance_of_ne ((dataType h).bind_any fun a b ↦ .pure trivial fun heq ↦ ?_)
    obtain ⟨hoperand, htype⟩ := Expr.cast.inj heq
    exact ⟨hoperand, htype⟩

/-- What stands in the parentheses of an `IN`. -/
theorem inList (h : V.Inside inner) :
    V.Reveals (List.map (Expr.relabel .forgetPlaces)) (.inList inner) := by
  refine parenthesized ((seesKeyword .SELECT).bind_silent fun _ ↦ .ite ?_ h.expressions)
  refine h.query.bind_any fun a b ↦ .pure trivial fun heq ↦ ⟨trivial, ?_⟩
  exact Expr.subquery.inj (List.cons.inj heq).1

/-- What goes on behind an operand with words, and keeps the operand. -/
theorem continuation (h : V.Inside inner) (operand operand' : Expr) (negated : Bool)
    (form : Continuation) :
    V.Keeps (Expr.relabel .forgetPlaces) (Same (Expr.relabel .forgetPlaces) operand operand')
      (.continuation inner operand negated form)
      (.continuation inner operand' negated form) := by
  cases form with
  | isNull =>
    refine (acceptKeyword .NOT).bind_silent fun _ ↦ (keyword .NULL).bind_silent fun _ ↦ ?_
    exact .pure trivial fun heq ↦ (Expr.isNull.inj heq).1
  | isIn =>
    refine (inList h).bind_any fun as bs ↦ .pure trivial fun heq ↦ ?_
    obtain ⟨hoperand, hlist, -⟩ := Expr.isIn.inj heq
    rw [relabelExprs_eq_map, relabelExprs_eq_map] at hlist
    exact ⟨hoperand, hlist⟩
  | between =>
    refine (h.expressionFrom _).bind_any fun a b ↦ (keyword .AND).bind_silent fun _ ↦ ?_
    refine (h.expressionFrom _).bind_any fun a' b' ↦ .pure trivial fun heq ↦ ?_
    obtain ⟨hoperand, hlow, hhigh, -⟩ := Expr.between.inj heq
    exact ⟨⟨hoperand, hlow⟩, hhigh⟩
  | binary op =>
    refine (h.expressionFrom _).bind_any fun a b ↦ ?_
    cases negated with
    | false =>
      refine .pure trivial fun heq ↦ ?_
      obtain ⟨-, hleft, hright⟩ := Expr.binary.inj heq
      exact ⟨hleft, hright⟩
    | true =>
      refine .pure trivial fun heq ↦ ?_
      obtain ⟨-, hleft, hright⟩ := Expr.binary.inj (Expr.unary.inj heq).2
      exact ⟨hleft, hright⟩

/-- No form goes on with a token that varies. -/
theorem ofKind?_eq_none {k l : Token.Kind} (h : k.Varies l) : Continuation.ofKind? k = none := by
  cases h <;> rfl

/-- What a step behind an operand has to tell: a new expression, or else the operand. -/
abbrev KeepsOperand (V : Variation) (A : Nat → Prop) (operand operand' : Expr)
    (r s : Rule (Option Expr)) : Prop :=
  V.Tells A (Both Any)
    (fun x y ↦ Same (Expr.relabel .forgetPlaces) (x.getD operand) (y.getD operand'))
    (Same (Expr.relabel .forgetPlaces) operand operand') r s

/-- Where nothing goes on, the operand is the answer. -/
theorem keepsOperand_none (A : Nat → Prop) (operand operand' : Expr) :
    KeepsOperand V A operand operand' (pure none) (pure none) :=
  .pure .none fun heq ↦ heq

/-- What goes on behind an operand keeps it. -/
theorem keepsOperand_some {A : Nat → Prop} {operand operand' : Expr} {r s : Rule Expr}
    (h : V.Tells A Any (Same (Expr.relabel .forgetPlaces))
      (Same (Expr.relabel .forgetPlaces) operand operand') r s) :
    KeepsOperand V A operand operand' (some <$> r) (some <$> s) :=
  h.map_owed (fun _ _ _ ↦ .some trivial) fun _ _ heq ↦ heq

/-- What a step does once the form of the continuation is known. -/
theorem onward (h : V.Inside inner) (power : Nat) (operand operand' : Expr) (negated : Bool)
    (form? : Option Continuation) {A : Nat → Prop} (hA : ∀ p, A p → p ≠ V.index)
    (hnext : negated → ∀ p, A p → p + 1 ≠ V.index) :
    KeepsOperand V A operand operand' (.onward inner power operand negated form?)
      (.onward inner power operand' negated form?) := by
  cases form? with
  | none => exact keepsOperand_none A operand operand'
  | some form =>
    have behind := keepsOperand_some (continuation h operand operand' negated form)
    refine .ite (keepsOperand_none A operand operand') ?_
    cases negated with
    | true =>
      have hword : ∀ p, A p → p ≠ V.index ∧ p + 1 ≠ V.index := fun p hp ↦ ⟨hA p hp, hnext rfl p hp⟩
      exact .advance_to hA hword (.advance_of_ne behind)
    | false => exact .advance_to hA (fun _ _ ↦ ⟨trivial, trivial⟩) behind

/-- A step behind an operand keeps the operand. -/
theorem extension (h : V.Inside inner) (power : Nat) (operand operand' : Expr) :
    KeepsOperand V (fun _ ↦ True) operand operand' (.extension inner power operand)
      (.extension inner power operand') := by
  refine .bind_current_cases (fun t ↦ ?_) fun t u hvaries ↦ ?_
  · refine .ite (.ite (keepsOperand_none _ operand operand')
      (keepsOperand_some (subscriptOrCast h operand operand'))) ?_
    refine .bind_following_cases (fun next ↦ ?_) fun next next' hnext ↦ ?_
    · exact onward h power operand operand' _ _ (fun _ hp ↦ hp.1) fun _ _ hp ↦ hp.2
    · -- No continuation has a name or a value behind its `NOT`.
      rw [ofKind?_eq_none hnext, ofKind?_eq_none hnext.symm, Option.any_none, Bool.and_false]
      exact onward h power operand operand' false _ (fun _ hp ↦ hp) nofun
  · rw [hvaries.isSymbol_eq_false, hvaries.isSymbol_eq_false, hvaries.symm.isSymbol_eq_false,
      hvaries.symm.isSymbol_eq_false]
    refine .bind_following fun next next' _ ↦ ?_
    rw [hvaries.isKeyword_eq_false, hvaries.symm.isKeyword_eq_false, Bool.false_and, Bool.false_and]
    simp only [Bool.false_eq_true, if_false, ofKind?_eq_none hvaries, ofKind?_eq_none hvaries.symm]
    exact keepsOperand_none _ operand operand'

/-- An operand or a prefix operator with one. -/
theorem firstOperand (h : V.Inside inner) :
    V.Reveals (Expr.relabel .forgetPlaces) (.firstOperand inner) := by
  refine .bind_current_cases (fun t ↦ ?_) fun t u hvaries ↦ ?_
  · split
    · refine .advance_of_ne ((h.expressionFrom _).bind_any fun a b ↦ .pure trivial fun heq ↦ ?_)
      exact ⟨trivial, (Expr.unary.inj heq).2⟩
    · exact (operand h).weaken
  · have hnone {k l : Token.Kind} (h : k.Varies l) : UnaryOp.ofKind? k = none := by
      cases h <;> rfl
    rw [hnone hvaries, hnone hvaries.symm]
    exact (operand h).weaken

/-- **Expressions**, from a binding power on. -/
theorem expressionFrom (h : V.Inside inner) (power : Nat) :
    V.Reveals (Expr.relabel .forgetPlaces) (.expressionFrom inner power) := by
  refine (firstOperand h).bind_any fun a b ↦ ?_
  exact (Tells.iterate (fun a b _ ↦ extension h power a b) trivial).mono fun heq ↦ ⟨trivial, heq⟩

end Tells

end SqlBatch.Variation
