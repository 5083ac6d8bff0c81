import SqlBatch.Proofs.Grouping
import SqlBatch.Proofs.Stages

/-!
# Types and expressions are grouped

The rules for operands and types put expressions into trees without operators around them, so what
they read is grouped if the expressions inside are. Operands are more: nothing of any level stands
outside their brackets (`Expr.IsOperand`).

## Where operators are put

The rules that do put operators around what they read are those for the first operand of an
expression and for a step behind it. Each is given the power that was asked for, and with the
invariant of `Expr.Reading` the power tells what the operands can be:

* On the left of a new operator stands what has been read so far. Where the last operand of that
  ended, nothing of the power went on with which it was read, and the new operator does go on there:
  so it is looser, and stands outside.
* On the right stands what was read with the right power of the operator, which is one more than the
  left one; so it binds more tightly (`reading_of_extends`).

At the end of the loop nothing of the power goes on, which is what the expression has to add to the
invariant where it is the operand of an operator further out (`read_expressionFrom`).
-/

namespace SqlBatch

/-! ### Types -/

/-- Types of one keyword have no expressions in them. -/
theorem DataType.allGrouped_of_ofKeyword? {keyword : Keyword} {type : DataType}
    (h : DataType.ofKeyword? keyword = some type) : AllGrouped type.nodes := by
  unfold DataType.ofKeyword? at h
  split at h <;> cases h <;> exact .node trivial .nil

/-- An expression with nothing around its operand. -/
structure Expr.IsOperand (expr : Expr) : Prop where
  allGrouped : AllGrouped expr.nodes
  level?_eq_none : expr.level? = none
  ne_unary : ∀ op operand, expr ≠ .unary op operand

/-- What a prefix operator stands before is no looser operator. -/
theorem Expr.Read.isGrouped_unary {op : UnaryOp} {expr : Expr} {c : Cursor}
    (h : expr.Read op.precedence.right c) : (Expr.unary op expr).IsGrouped := by
  have htighter := h.bindsTighter
  cases op with
  | neg | bitNot =>
    rw [IsGrouped, Option.eq_none_iff_forall_not_mem]
    intro own hown
    have := htighter own hown
    exact absurd (rank_lt_of_level? hown) (Nat.lt_asymm this)
  | not =>
    intro left right
    refine ⟨?_, ?_⟩ <;> rintro rfl
    · exact absurd (htighter _ rfl) (by decide)
    · exact absurd (htighter _ rfl) (by decide)

namespace Nested.Groups

open Rule

variable {inner : Nested} (h : inner.Groups)

include h

/-- **Types.** Expressions occur in the columns of an object type alone. -/
theorem dataType : (Rule.dataType inner).Yields fun type ↦ AllGrouped type.nodes := by
  refine .bind_any fun token ↦ ?_
  split
  · exact .bind_any fun _ ↦ .pure (.node trivial .nil)
  · split
    · rename_i keyword type htype
      have answer : (pure type : Rule DataType).Yields fun type ↦ AllGrouped type.nodes :=
        .pure (DataType.allGrouped_of_ofKeyword? htype)
      exact .bind_any fun _ ↦ .ite (.bind_any fun _ ↦ answer) answer
    · split
      case h_5 => exact .bind_any fun _ ↦ h.objectType
      case h_6 =>
        exact .bind_any fun _ ↦ h.elementType.bind fun element helement ↦
          .pure (.node trivial helement)
      case h_7 => exact .fail
      all_goals
        exact .bind_any fun _ ↦ .bind_any fun _ ↦ .pure (.node trivial .nil)
  · exact .fail

/-- A constraint adds a default or a generating expression, or none. -/
theorem columnConstraint {column : ColumnDef} (hcolumn : AllGrouped column.nodes) :
    (Rule.columnConstraint inner column).Yields fun column? ↦
      ∀ column ∈ column?, AllGrouped column.nodes := by
  obtain ⟨name, type, nullable, default, primaryKey, generated⟩ := column
  obtain ⟨-, hcolumn⟩ := List.forall_mem_cons.1 hcolumn
  obtain ⟨hdefault, hgenerated⟩ := List.forall_mem_append.1 hcolumn
  obtain ⟨htype, hdefault⟩ := List.forall_mem_append.1 hdefault
  have made {nullable primaryKey : Bool} {default generated : Option Expr}
      (hdefault : AllGrouped (nodesOfExpr? default))
      (hgenerated : AllGrouped (nodesOfExpr? generated)) :
      ∀ column ∈ some (ColumnDef.mk name type nullable default primaryKey generated),
        AllGrouped column.nodes := by
    rintro column ⟨⟩
    exact .node trivial ((AllGrouped.append htype hdefault).append hgenerated)
  refine .bind_any fun token ↦ ?_
  split
  · exact .bind_any fun _ ↦ .bind_any fun _ ↦ .pure (made hdefault hgenerated)
  · exact .bind_any fun _ ↦ .pure (made hdefault hgenerated)
  · exact .bind_any fun _ ↦ .bind_any fun _ ↦ .pure (made hdefault hgenerated)
  · exact .bind_any fun _ ↦ h.expression.bind fun value hvalue ↦ .pure (made hvalue hgenerated)
  · refine .bind_any fun _ ↦ .bind_any fun _ ↦ .bind_any fun _ ↦ ?_
    exact h.expression.bind fun value hvalue ↦ .pure (made hdefault hvalue)
  · exact .bind_any fun _ ↦ h.expression.bind fun value hvalue ↦ .pure (made hdefault hvalue)
  · exact .pure nofun

/-- A column keeps what its constraints have added. -/
theorem columnDef : (Rule.columnDef inner).Yields fun column ↦ AllGrouped column.nodes := by
  refine .bind_any fun name ↦ h.dataType.bind fun type htype ↦ ?_
  have hcolumn : AllGrouped (ColumnDef.mk name type true none false none).nodes :=
    .node trivial ((htype.append .nil).append .nil)
  exact .iterate hcolumn fun column hcolumn ↦ h.columnConstraint hcolumn

/-- The columns of an object type, if there are any. -/
theorem objectColumns (policy : Option ObjectPolicy) :
    (Rule.objectColumns inner policy).Yields fun type ↦ AllGrouped type.nodes := by
  have made (columns : List ColumnDef) (hcolumns : ∀ column ∈ columns, AllGrouped column.nodes) :
      AllGrouped (DataType.object policy columns).nodes :=
    .node trivial (.columns hcolumns)
  refine .bind_any fun _ ↦ .bind_any fun _ ↦ .ite (.bind_any fun _ ↦ ?_) (.pure (made [] nofun))
  exact (Yields.parenthesized (.commaSeparated h.columnDef)).bind fun columns hcolumns ↦
    .pure (made columns hcolumns)

/-- A policy has no nodes, so the columns are all there is. -/
theorem object : (Rule.objectType inner).Yields fun type ↦ AllGrouped type.nodes :=
  .bind_any fun _ ↦ .ite (.bind_any h.objectColumns) (h.objectColumns none)

/-! ### Operands -/

/-- The arguments of a call, of which a star is one. -/
theorem arguments : (Rule.arguments inner).Yields fun result ↦
    ∀ expr ∈ result.2, AllGrouped expr.nodes := by
  refine .parenthesized (.bind_any fun distinct ↦ .bind_any fun _ ↦ .ite (.pure nofun) ?_)
  have hwildcard : ∀ expr ∈ [Expr.wildcard none], AllGrouped expr.nodes :=
    List.forall_mem_singleton.2 (.leaf rfl trivial)
  refine .bind_any fun _ ↦ .ite (.pure hwildcard) ?_
  exact h.expressions.bind fun exprs hexprs ↦ .pure hexprs

/-- A name with or without arguments is an operand, whatever the arguments. -/
theorem named (name : String) (span : Span) :
    (Rule.named inner name span).Yields Expr.IsOperand := by
  refine .bind_any fun _ ↦ .bind_any fun _ ↦ .ite ?_ ?_
  · exact h.arguments.bind fun ⟨distinct, exprs⟩ hexprs ↦
      .pure ⟨.node trivial (.exprs hexprs), rfl, nofun⟩
  · refine .bind_any fun _ ↦ .ite ?_ (.pure ⟨.leaf rfl trivial, rfl, nofun⟩)
    refine .bind_any fun _ ↦ .ite (.pure ⟨.leaf rfl trivial, rfl, nofun⟩) ?_
    exact .bind_any fun _ ↦ .bind_any fun _ ↦ .pure ⟨.leaf rfl trivial, rfl, nofun⟩

omit h in
/-- The items of an array that has been closed. -/
theorem closedArray (exprs : List Expr) (hexprs : ∀ expr ∈ exprs, AllGrouped expr.nodes) :
    (Rule.closedArray exprs).Yields Expr.IsOperand :=
  .bind_any fun _ ↦ .pure ⟨.node trivial (.exprs hexprs), rfl, nofun⟩

/-- What stands in brackets is an operand, with items that are grouped. -/
theorem arrayLiteral : (Rule.arrayLiteral inner).Yields Expr.IsOperand :=
  .bind_any fun _ ↦ .bind_any fun _ ↦
    .ite (closedArray [] nofun) (h.expressions.bind closedArray)

/-- An arm has two expressions. -/
theorem branch : (Rule.branch inner).Yields fun branch? ↦ ∀ branch ∈ branch?,
    AllGrouped branch.condition.nodes ∧ AllGrouped branch.result.nodes := by
  refine .clause .WHEN (h.expression.bind fun condition hcondition ↦ .bind_any fun _ ↦ ?_)
  exact h.expression.bind fun result hresult ↦ .pure ⟨hcondition, hresult⟩

/-- The arms, the operand and the expression behind `ELSE` are grouped each by itself. -/
theorem caseEnding {operand : Option Expr} (hoperand : ∀ expr ∈ operand, AllGrouped expr.nodes)
    {branches : List Branch} (hbranches : ∀ branch ∈ branches,
      AllGrouped branch.condition.nodes ∧ AllGrouped branch.result.nodes) :
    (Rule.caseEnding inner operand branches).Yields Expr.IsOperand := by
  refine (Yields.clause .ELSE h.expression).bind fun otherwise hotherwise ↦ .bind_any fun _ ↦ ?_
  have hparts := (AllGrouped.expr? hoperand).append (.branches hbranches)
  exact .pure ⟨.node trivial (hparts.append (.expr? hotherwise)), rfl, nofun⟩

/-- Arms are collected until there is no `WHEN`. -/
theorem arms (operand : Option Expr) (hoperand : ∀ expr ∈ operand, AllGrouped expr.nodes) :
    (Rule.arms inner operand).Yields Expr.IsOperand := by
  refine (Yields.many h.branch).bind fun branches hbranches ↦ ?_
  have onward := h.caseEnding hoperand hbranches
  exact .ite (.bind_any fun _ ↦ onward) onward

/-- What stands between `CASE` and `END` is an operand. -/
theorem caseExpression : (Rule.caseExpression inner).Yields Expr.IsOperand :=
  .bind_any fun _ ↦ .bind_any fun _ ↦ .ite (h.arms none nofun) (h.expression.some.bind h.arms)

/-- Parentheses make an operand of any expression, and keep it grouped. -/
theorem parenthesizedOperand : (Rule.parenthesizedOperand inner).Yields Expr.IsOperand := by
  refine .parenthesized (.bind_any fun _ ↦ .ite ?_ ?_)
  · exact h.query.bind fun query hquery ↦ .pure ⟨.node trivial hquery, rfl, nofun⟩
  · exact h.expression.bind fun expr hexpr ↦ .pure ⟨.node trivial hexpr, rfl, nofun⟩

/-- A cast that is written as a call is an operand, whatever it casts. -/
theorem castCall : (Rule.castCall inner).Yields Expr.IsOperand := by
  refine .bind_any fun _ ↦ .parenthesized (h.expression.bind fun operand hoperand ↦ ?_)
  exact .bind_any fun _ ↦ h.dataType.bind fun type htype ↦
    .pure ⟨.node trivial (hoperand.append htype), rfl, nofun⟩

/-- An operand that its first token shows. -/
theorem opened (opening : Opening) : (Rule.opened inner opening).Yields Expr.IsOperand := by
  cases opening with
  | literal | positional | wildcard =>
    exact .bind_any fun _ ↦ .pure ⟨.leaf rfl trivial, rfl, nofun⟩
  | placeholder | named =>
    exact .bind_any fun _ ↦ .bind_any fun _ ↦ .pure ⟨.leaf rfl trivial, rfl, nofun⟩
  | parenthesized => exact h.parenthesizedOperand
  | array => exact h.arrayLiteral
  | cast => exact h.castCall
  | case => exact h.caseExpression
  | «exists» =>
    exact .bind_any fun _ ↦ h.query.parenthesized.bind fun query hquery ↦
      .pure ⟨.node trivial hquery, rfl, nofun⟩

/-- An array or what starts with a name. -/
theorem arrayOrNamed : (Rule.arrayOrNamed inner).Yields Expr.IsOperand := by
  refine .bind_any fun _ ↦ .bind_any fun _ ↦ .ite (.bind_any fun _ ↦ h.arrayLiteral) ?_
  refine .bind_any fun token ↦ ?_
  split
  · exact h.named _ _
  · exact .fail

/-- **Operands.** Nothing stands outside their brackets. -/
theorem operand : (Rule.operand inner).Yields Expr.IsOperand := by
  refine .bind_any fun token ↦ ?_
  split
  · exact h.opened _
  · exact h.arrayOrNamed

/-! ### Operators -/

/-- The items behind `IN`; a query is one of them. -/
theorem inList : (Rule.inList inner).Yields fun exprs ↦ ∀ expr ∈ exprs, AllGrouped expr.nodes := by
  refine .parenthesized (.bind_any fun _ ↦ .ite ?_ h.expressions)
  refine h.query.bind fun query hquery ↦ .pure ?_
  exact List.forall_mem_singleton.2 (.node trivial hquery)

/-- **One step behind an operand** reads it into an expression that is grouped if the operand is. -/
theorem reading_of_extends {power : Nat} {operand e : Expr} {level : Precedence} {c after : Cursor}
    (hoperand : operand.Reading power c) (honward : c.onward? = some level)
    (hle : power ≤ level.left) (hextends : Extends inner operand level e after) :
    e.Reading power after := by
  have hleads := hoperand.leads honward
  have hgrouped := hoperand.allGrouped
  -- What is read on the right was read with the right power, so it binds more tightly.
  cases hextends with
  | @subscript index _ _ _ hindex =>
    have hbase : (Expr.subscript operand index).IsGrouped :=
      ⟨hoperand.openLevel?_eq_none honward, hoperand.ne_unary honward⟩
    exact ⟨.node hbase (hgrouped.append (h.expression hindex)), nofun, nofun, nofun⟩
  | cast htype =>
    exact ⟨.node trivial (hgrouped.append (h.dataType htype)), nofun, nofun, nofun⟩
  | isNull negated =>
    exact ⟨.node hleads hgrouped, fun own hown ↦ Option.some.inj hown ▸ hle, nofun, nofun⟩
  | isIn negated hlist =>
    exact ⟨.node hleads (hgrouped.append (.exprs (h.inList hlist))),
      fun own hown ↦ Option.some.inj hown ▸ hle, nofun, nofun⟩
  | between negated hlow hhigh =>
    have hlow := h.read hlow
    have hhigh := h.read hhigh
    have hoperands := (hgrouped.append hlow.allGrouped).append hhigh.allGrouped
    exact ⟨.node ⟨hleads, hlow.bindsTighter, hhigh.bindsTighter⟩ hoperands,
      fun own hown ↦ Option.some.inj hown ▸ hle,
      fun own hown ↦ Option.some.inj hown ▸ hhigh.stops, nofun⟩
  | binary hright =>
    have hright := h.read hright
    exact ⟨.node ⟨hleads, hright.bindsTighter⟩ (hgrouped.append hright.allGrouped),
      fun own hown ↦ Option.some.inj hown ▸ hle,
      fun own hown ↦ Option.some.inj hown ▸ hright.stops, nofun⟩
  | @notLike right _ _ hright =>
    have hright := h.read hright
    have hlike := hgrouped.append hright.allGrouped
    have hnot : (Expr.unary .not (.binary .like operand right)).IsGrouped :=
      fun _ _ ↦ ⟨nofun, nofun⟩
    refine ⟨.node hnot (.node ⟨hleads, hright.bindsTighter⟩ hlike), nofun, nofun, ?_⟩
    rintro op like ⟨⟩
    exact .inr ⟨rfl, trivial, hright.stops⟩

/-- **The first operand.** A prefix operator asks for its own power, so what it stands in front of
is no looser, and where its operand ends nothing of that power goes on. -/
theorem reading_firstOperand (power : Nat) {expr : Expr} {c after : Cursor}
    (hrun : (firstOperand inner).run c = .done expr after) : expr.Reading power after := by
  rw [firstOperand, run_bind, run_current] at hrun
  simp only at hrun
  split at hrun
  · rename_i op _
    obtain ⟨_, mid, -, hrun⟩ := exists_of_run_bind hrun
    obtain ⟨operand, _, hoperand, hrun⟩ := exists_of_run_bind hrun
    cases hrun
    have hread := h.read hoperand
    refine ⟨.node hread.isGrouped_unary hread.allGrouped, nofun, nofun, ?_⟩
    rintro op operand ⟨⟩
    exact .inl hread.stops
  · obtain ⟨hgrouped, hlevel, hunary⟩ := h.operand hrun
    refine ⟨hgrouped, ?_, fun own hown ↦ ?_, fun op operand heq ↦ absurd heq (hunary op operand)⟩
    · rw [hlevel]
      exact nofun
    · have hmem := Expr.mem_level?_of_mem_openLevel? hown
      rw [hlevel] at hmem
      cases hmem

/-- **An expression is grouped**, and nothing of its power goes on behind it. -/
theorem read_expressionFrom {power : Nat} {expr : Expr} {c after : Cursor}
    (hrun : (Rule.expressionFrom inner power).run c = .done expr after) :
    expr.Read power after := by
  obtain ⟨first, mid, hfirst, hloop⟩ := exists_of_run_bind hrun
  have hstep ⦃operand c e after⦄ (hoperand : operand.Reading power c)
      (h' : (extension inner power operand).run c = .done (some e) after) :
      e.Reading power after ∧ c.position < after.position := by
    rcases extension_cases h' with ⟨hnone, -, -⟩ | ⟨level, e, heq, honward, hle, hlt, hextends⟩
    · cases hnone
    · cases heq
      exact ⟨h.reading_of_extends hoperand honward hle hextends, hlt⟩
  obtain ⟨c, hreading, hlast⟩ := of_run_iterate hstep (h.reading_firstOperand power hfirst) hloop
  rcases extension_cases hlast with ⟨-, rfl, hstops⟩ | ⟨_, _, hsome, -⟩
  · exact ⟨hreading.allGrouped, hreading.level, hstops⟩
  · cases hsome

end Nested.Groups

end SqlBatch
