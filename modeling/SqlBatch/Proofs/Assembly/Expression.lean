import SqlBatch.Proofs.Assembly
import SqlBatch.Proofs.Extension

/-!
# How types and expressions are put together

Each rule of a level answers with one of the forms. The proofs follow the rules, and at the end of
each branch stands the constructor of `Expr.Made` that the branch builds.

## The loop behind an operand

An expression is read as an operand and then, in a loop, as what goes on behind it. The loop keeps
that the operand has the shape of the level itself (`expressionOf`), for a form that goes on behind
an operand of that shape makes one of the same shape (`extension`). No other expression of the level
is put inside an expression: what stands in brackets, on the right of an operator or behind a prefix
operator comes from the level inside.

## What is asked of the tokens

Nothing but where a literal is read: its token has to be accounted for by `T`. So the token is
remembered only where an operand is told by it (`operand`, `opened`), and all other laws hold
whatever is read.
-/

namespace SqlBatch

/-- A type that is a single word has no type inside. -/
theorem DataType.isLeaf_of_ofKeyword? {keyword : Keyword} {type : DataType}
    (h : DataType.ofKeyword? keyword = some type) : type.IsLeaf := by
  unfold DataType.ofKeyword? at h
  split at h <;> cases h <;> trivial

/-- An operand that begins as a literal is the literal of its token. -/
theorem Literal.ofKind?_of_opening {kind : Token.Kind} {value : Literal}
    (h : Opening.ofKind? kind = some (.literal value)) : Literal.ofKind? kind = some value := by
  have literal {found : Option Literal}
      (hfound : found.map Opening.literal = some (.literal value)) : found = some value := by
    obtain ⟨value', hvalue, heq⟩ := Option.map_eq_some_iff.1 hfound
    rw [hvalue, Opening.literal.inj heq]
  -- The words and symbols that open other operands are taken one by one.
  cases kind with
  | symbol symbol => cases symbol <;> cases h
  | keyword keyword => cases keyword <;> first | exact literal h | cases h
  | parameter => cases h
  | _ => exact literal h

namespace Nested.Reads

open Rule

variable {T : Token → Prop} {inner : Nested} {I O : Shape} (h : inner.Reads T I)

include h

/-! ### Types -/

theorem made_dataType : (Rule.dataType inner).YieldsOn T (DataType.Made I) := by
  refine .bind_any fun token ↦ ?_
  split
  · exact .bind_any fun _ ↦ .pure (.leaf trivial)
  · split
    · rename_i keyword type htype
      have answer : (pure type : Rule DataType).YieldsOn T (DataType.Made I) :=
        .pure (.leaf (DataType.isLeaf_of_ofKeyword? htype))
      exact .bind_any fun _ ↦ .ite (.bind_any fun _ ↦ answer) answer
    · split
      case h_5 => exact .bind_any fun _ ↦ h.objectType.mono fun _ ↦ .object
      case h_6 =>
        exact .bind_any fun _ ↦ h.elementType.bind fun element helement ↦ .pure (.array helement)
      case h_7 => exact .fail
      all_goals exact .bind_any fun _ ↦ .bind_any fun _ ↦ .pure (.leaf trivial)
  · exact .fail

/-- **Types.** -/
theorem dataType (hO : I.Closed T O) : (Rule.dataType inner).YieldsOn T O.type :=
  h.made_dataType.mono hO.type

/-- A constraint keeps what holds of a definition, and a primary key is not nullable. -/
theorem columnConstraint {column : ColumnDef} (hcolumn : column.Made I O) :
    (Rule.columnConstraint inner column).YieldsOn T fun column? ↦
      ∀ column ∈ column?, column.Made I O := by
  have made {column : ColumnDef} (h : column.Made I O) : ∀ c ∈ some column, c.Made I O :=
    fun c hc ↦ Option.some.inj hc ▸ h
  have value {e : Expr} (he : I.expr e) : ∀ e' ∈ some e, I.expr e' :=
    fun e' he' ↦ Option.some.inj he' ▸ he
  obtain ⟨htype, hdefault, hgenerated, hnullable⟩ := hcolumn
  have generated : (Rule.generatedAs inner column).YieldsOn T
      fun column? ↦ ∀ column ∈ column?, column.Made I O :=
    h.expression.bind fun e he ↦ .pure (made ⟨htype, hdefault, value he, hnullable⟩)
  refine .bind_any fun token ↦ ?_
  split
  · exact .bind_any fun _ ↦ .bind_any fun _ ↦
      .pure (made ⟨htype, hdefault, hgenerated, fun _ ↦ rfl⟩)
  · exact .bind_any fun _ ↦ .pure (made ⟨htype, hdefault, hgenerated, hnullable⟩)
  · exact .bind_any fun _ ↦ .bind_any fun _ ↦
      .pure (made ⟨htype, hdefault, hgenerated, fun _ ↦ rfl⟩)
  · exact .bind_any fun _ ↦ h.expression.bind fun e he ↦
      .pure (made ⟨htype, value he, hgenerated, hnullable⟩)
  · exact .bind_any fun _ ↦ .bind_any fun _ ↦ .bind_any fun _ ↦ generated
  · exact .bind_any fun _ ↦ generated
  · exact .pure nofun

/-- A column with constraints in any order. -/
theorem columnDef (hO : I.Closed T O) : (Rule.columnDef inner).YieldsOn T O.column := by
  refine .bind_any fun name ↦ (h.dataType hO).bind fun type htype ↦ ?_
  have hcolumn : (ColumnDef.mk name type true none false none).Made I O :=
    ⟨htype, nofun, nofun, nofun⟩
  exact (YieldsOn.iterate hcolumn fun column hcolumn ↦ h.columnConstraint hcolumn).mono hO.column

/-- The columns of an object, in parentheses. -/
theorem objectColumns (hO : I.Closed T O) (policy : Option ObjectPolicy) :
    (Rule.objectColumns inner policy).YieldsOn T O.bracketed := by
  refine .bind_any fun _ ↦ .bind_any fun _ ↦ .ite ?_ (.pure (hO.bracketed _ (.object nofun)))
  have columnDefs := YieldsOn.parenthesized (.commaSeparated (h.columnDef hO))
  exact .bind_any fun _ ↦ columnDefs.bind fun columns hcolumns ↦
    .pure (hO.bracketed _ (.object hcolumns.2))

/-- An object with its policy and its columns. -/
theorem object (hO : I.Closed T O) : (Rule.objectType inner).YieldsOn T O.bracketed :=
  .bind_any fun _ ↦ .ite (.bind_any (h.objectColumns hO)) (h.objectColumns hO none)

/-- The type of an array's elements, in parentheses. -/
theorem element (hO : I.Closed T O) : (Rule.elementType inner).YieldsOn T O.bracketed :=
  .parenthesized ((h.dataType hO).mono fun _ htype ↦ hO.bracketed _ (.element htype))

/-! ### Operands -/

/-- What a name can begin: a call, a column, or all columns of a table. -/
theorem named (name : String) (span : Span) :
    (Rule.named inner name span).YieldsOn T (Expr.Made T I O) := by
  have call {distinct : Bool} {arguments : List Expr}
      (harguments : arguments = [.wildcard none] ∨ ∀ e ∈ arguments, I.expr e) :
      (Expr.call name distinct arguments).Made T I O := by
    rcases harguments with rfl | harguments
    · exact .callAll name distinct
    · exact .call harguments
  have arguments : (Rule.arguments inner).YieldsOn T fun result ↦
      result.2 = [.wildcard none] ∨ ∀ e ∈ result.2, I.expr e := by
    refine .parenthesized (.bind_any fun distinct ↦ .bind_any fun _ ↦ .ite (.pure (.inr nofun)) ?_)
    refine .bind_any fun _ ↦ .ite (.pure (.inl rfl)) ?_
    exact h.expressions.bind fun es hes ↦ .pure (.inr hes.2)
  refine .bind_any fun _ ↦ .bind_any fun _ ↦ .ite ?_ ?_
  · exact arguments.bind fun ⟨distinct, es⟩ hes ↦ .pure (call hes)
  · refine .bind_any fun _ ↦ .ite ?_ (.pure (.column _ _ _))
    refine .bind_any fun _ ↦ .ite (.pure (.wildcard _)) ?_
    exact .bind_any fun _ ↦ .bind_any fun _ ↦ .pure (.column _ _ _)

omit h in
/-- The end of an array with its items. -/
theorem closedArray {items : List Expr} (hitems : ∀ e ∈ items, I.expr e) :
    (Rule.closedArray items).YieldsOn T (Expr.Made T I O) :=
  .bind_any fun _ ↦ .pure (.array hitems)

theorem arrayLiteral : (Rule.arrayLiteral inner).YieldsOn T (Expr.Made T I O) :=
  .bind_any fun _ ↦ .bind_any fun _ ↦
    .ite (closedArray nofun) (h.expressions.bind fun _ hitems ↦ closedArray hitems.2)

theorem branch : (Rule.branch inner).YieldsOn T fun branch? ↦
    ∀ branch ∈ branch?, I.expr branch.condition ∧ I.expr branch.result := by
  refine .clause .WHEN (h.expression.bind fun condition hcondition ↦ .bind_any fun _ ↦ ?_)
  exact h.expression.bind fun result hresult ↦ .pure ⟨hcondition, hresult⟩

/-- The end of a `CASE` with at least one arm. -/
theorem caseEnding {operand : Option Expr} (hoperand : ∀ e ∈ operand, I.expr e)
    {branches : List Branch} (hne : branches ≠ [])
    (hbranches : ∀ branch ∈ branches, I.expr branch.condition ∧ I.expr branch.result) :
    (Rule.caseEnding inner operand branches).YieldsOn T (Expr.Made T I O) := by
  refine (YieldsOn.clause .ELSE h.expression).bind fun otherwise hotherwise ↦ ?_
  exact .bind_any fun _ ↦ .pure (.case hne hoperand hbranches hotherwise)

/-- The arms are read only where there is one. -/
theorem arms (operand : Option Expr) (hoperand : ∀ e ∈ operand, I.expr e) :
    (Rule.arms inner operand).YieldsOn T (Expr.Made T I O) := by
  refine (YieldsOn.many h.branch).bind fun branches hbranches ↦ ?_
  rcases branches with _ | ⟨first, others⟩
  · have failed : (Rule.fail (.mismatched [Keyword.WHEN.quoted]) : Rule PUnit).YieldsOn T
        fun _ ↦ False := .fail
    exact failed.bind fun _ hfalse ↦ hfalse.elim
  · exact h.caseEnding hoperand (List.cons_ne_nil _ _) hbranches

/-- A `CASE` with or without an operand. -/
theorem caseExpression : (Rule.caseExpression inner).YieldsOn T (Expr.Made T I O) :=
  .bind_any fun _ ↦ .bind_any fun _ ↦ .ite (h.arms none nofun) (h.expression.some.bind h.arms)

/-- A subquery or an expression in parentheses. -/
theorem parenthesizedOperand :
    (Rule.parenthesizedOperand inner).YieldsOn T (Expr.Made T I O) := by
  refine .parenthesized (.bind_any fun _ ↦ .ite ?_ ?_)
  · exact h.query.bind fun query hquery ↦ .pure (.subquery hquery)
  · exact h.expression.bind fun e he ↦ .pure (.paren he)

/-- A conversion in the form of a call. -/
theorem castCall (hO : I.Closed T O) :
    (Rule.castCall inner).YieldsOn T (Expr.Made T I O) := by
  refine .bind_any fun _ ↦ .parenthesized (h.expression.bind fun operand hoperand ↦ ?_)
  exact .bind_any fun _ ↦ (h.dataType hO).bind fun type htype ↦ .pure (.castCall hoperand htype)

/-- Operands by how they begin; for a literal, the token has to be accounted for. -/
theorem opened (hO : I.Closed T O) {opening : Opening}
    (hliteral : ∀ value, opening = .literal value → (Expr.literal value).Made T I O) :
    (Rule.opened inner opening).YieldsOn T (Expr.Made T I O) := by
  rcases opening with value | _ | number | _ | _ | _ | _ | _ | _ | _
  case literal => exact .bind_any fun _ ↦ .pure (hliteral value rfl)
  case placeholder => exact .bind_any fun _ ↦ .bind_any fun _ ↦ .pure (.parameter _)
  case positional => exact .bind_any fun _ ↦ .pure (.parameter _)
  case named => exact .bind_any fun _ ↦ .bind_any fun _ ↦ .pure (.parameter _)
  case wildcard => exact .bind_any fun _ ↦ .pure (.wildcard none)
  case parenthesized => exact h.parenthesizedOperand
  case array => exact h.arrayLiteral
  case cast => exact h.castCall hO
  case case => exact h.caseExpression
  case «exists» =>
    exact .bind_any fun _ ↦ h.query.parenthesized.bind fun query hquery ↦ .pure (.exists hquery)

/-- An array, or what a name can begin. -/
theorem arrayOrNamed : (Rule.arrayOrNamed inner).YieldsOn T (Expr.Made T I O) := by
  refine .bind_any fun _ ↦ .bind_any fun _ ↦ .ite (.bind_any fun _ ↦ h.arrayLiteral) ?_
  refine .bind_any fun token ↦ ?_
  split
  · exact h.named _ _
  · exact .fail

/-- **Operands.** -/
theorem operand (hO : I.Closed T O) : (Rule.operand inner).YieldsOn T (Expr.Made T I O) := by
  refine .bind_current fun token htoken ↦ ?_
  split
  · rename_i opening hopening
    refine h.opened hO ?_
    rintro value rfl
    have hvalue := Literal.ofKind?_of_opening hopening
    refine .literal (htoken (Bool.eq_false_iff.2 fun heof ↦ ?_)) hvalue
    rw [beq_iff_eq.1 heof] at hvalue
    cases hvalue
  · exact h.arrayOrNamed

/-! ### What goes on behind an operand -/

/-- An index or a type behind an operand. -/
theorem subscriptOrCast (hO : I.Closed T O) {operand : Expr} (hoperand : O.expr operand) :
    (Rule.subscriptOrCast inner operand).YieldsOn T (Expr.Made T I O) := by
  refine .bind_any fun _ ↦ .ite ?_ ?_
  · exact h.expression.bind fun index hindex ↦ .bind_any fun _ ↦ .pure (.subscript hoperand hindex)
  · exact .bind_any fun _ ↦ (h.dataType hO).bind fun type htype ↦ .pure (.cast hoperand htype)

/-- A list or a subquery behind `IN`. -/
theorem isIn {operand : Expr} (hoperand : O.expr operand) (negated : Bool) :
    (Rule.continuation inner operand negated .isIn).YieldsOn T (Expr.Made T I O) := by
  have list : (Rule.inList inner).YieldsOn T
      fun es ↦ (Expr.isIn operand es negated).Made T I O := by
    refine .parenthesized (.bind_any fun _ ↦ .ite ?_ ?_)
    · exact h.query.bind fun query hquery ↦ .pure (.isInQuery hoperand hquery)
    · exact h.expressions.mono fun es hes ↦ .isIn hoperand hes.1 hes.2
  exact list.bind fun es hes ↦ .pure hes

/-- What goes on behind an operand with words. Only some of the forms can be negated. -/
theorem continuation {operand : Expr} (hoperand : O.expr operand) {negated : Bool}
    {form : Continuation} (hnegated : negated → form.isNegatable) :
    (Rule.continuation inner operand negated form).YieldsOn T (Expr.Made T I O) := by
  rcases form with op | _ | _ | _
  case binary =>
    refine (h.expressionFrom _).bind fun right hright ↦ ?_
    rcases negated with _ | _
    · exact .pure (.binary hoperand hright)
    · obtain rfl := Continuation.eq_like (hnegated rfl)
      exact .pure (.notLike hoperand hright)
  case isNull => exact .bind_any fun _ ↦ .bind_any fun _ ↦ .pure (.isNull hoperand)
  case isIn => exact h.isIn hoperand negated
  case between =>
    refine (h.expressionFrom _).bind fun low hlow ↦ .bind_any fun _ ↦ ?_
    exact (h.expressionFrom _).bind fun high hhigh ↦ .pure (.between hoperand hlow hhigh)

/-- The same where nothing need follow. -/
theorem continued {operand : Expr} (hoperand : O.expr operand) {negated : Bool}
    {form : Continuation} (hnegated : negated → form.isNegatable) :
    (Rule.continued inner operand negated form).YieldsOn T
      fun e? ↦ ∀ e ∈ e?, e.Made T I O := by
  have onward : (Rule.advance >>= fun _ ↦
      some <$> Rule.continuation inner operand negated form).YieldsOn T
        fun e? ↦ ∀ e ∈ e?, e.Made T I O :=
    .bind_any fun _ ↦ (h.continuation hoperand hnegated).some
  exact .ite (.bind_any fun _ ↦ onward) onward

/-- **One step behind an operand** makes an expression around it. -/
theorem extension (hO : I.Closed T O) (power : Nat) {operand : Expr} (hoperand : O.expr operand) :
    (Rule.extension inner power operand).YieldsOn T fun e? ↦ ∀ e ∈ e?, O.expr e := by
  refine .bind_any fun token ↦ .ite (.ite (.pure nofun) ?_) (.bind_any fun next ↦ ?_)
  · exact ((h.subscriptOrCast hO hoperand).mono hO.expr).some
  · dsimp only
    generalize hnegated : (token.isKeyword .NOT &&
      (Continuation.ofKind? next.kind).any (·.isNegatable)) = negated
    split
    · exact .pure nofun
    · rename_i form hform
      have hnegatable : negated → form.isNegatable := by
        rintro rfl
        obtain ⟨-, hany⟩ := (Bool.and_eq_true _ _).mp hnegated
        rwa [show Continuation.ofKind? next.kind = some form from hform] at hany
      exact .ite (.pure nofun) ((h.continued hoperand hnegatable).mono fun e? hmade e he ↦
        hO.expr e (hmade e he))

/-- An operand, or a prefix operator with one. -/
theorem firstOperand (hO : I.Closed T O) : (Rule.firstOperand inner).YieldsOn T O.expr := by
  have made : (Rule.firstOperand inner).YieldsOn T (Expr.Made T I O) := by
    refine .bind_any fun token ↦ ?_
    split
    · exact .bind_any fun _ ↦ (h.expressionFrom _).bind fun operand hoperand ↦
        .pure (.unary hoperand)
    · exact h.operand hO
  exact made.mono hO.expr

/-- **An expression is put together** from those of the level inside, one after the other. -/
theorem expressionOf (hO : I.Closed T O) (power : Nat) :
    (Rule.expressionFrom inner power).YieldsOn T O.expr :=
  (h.firstOperand hO).bind fun _ hfirst ↦
    .iterate hfirst fun _ hoperand ↦ h.extension hO power hoperand

end Nested.Reads

end SqlBatch
