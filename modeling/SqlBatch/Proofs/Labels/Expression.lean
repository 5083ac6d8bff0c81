import SqlBatch.Proofs.Labels
import SqlBatch.Proofs.Stages

/-!
# The labels of types and expressions

Labels come into a tree in two places only: where an operand that starts with a name turns out to be
a column, and where it is a placeholder. Everything else puts nodes without a label over others.

For the first, the name, the dot and the second name have to be the tokens at which the column is
written (`qualifiedColumn`). For the second, the number of the parameter is one more than the
placeholders passed so far, and it is drawn at the placeholder itself (`placeholder`).

A column of a table is the one construct that can lose what was read: a default that is given again
replaces the first one. Less is kept then, which the law allows.
-/

namespace SqlBatch

/-- The rules of a level of nesting take the labels of their trees from the supply. -/
structure Nested.Draws (x : Label) (inner : Nested) : Prop where
  statement : inner.statement.Draws x (·.nodes) []
  query : inner.query.Draws x (·.nodes) []
  fromItem : inner.fromItem.Draws x (·.nodes) []
  expressionFrom (power : Nat) : (inner.expressionFrom power).Draws x (·.nodes) []
  objectType : inner.objectType.Draws x (·.nodes) []
  elementType : inner.elementType.Draws x (·.nodes) []

/-- A type that is a single word is a single node. -/
theorem DataType.nodes_of_ofKeyword? {keyword : Keyword} {type : DataType}
    (h : DataType.ofKeyword? keyword = some type) : type.nodes = [.type type] := by
  unfold DataType.ofKeyword? at h
  split at h <;> cases h <;> rfl

/-- The labels of a column definition are those of its type and of its values. -/
theorem ColumnDef.count_labels (column : ColumnDef) (x : Label) :
    (labels column.nodes).count x = (labels column.type.nodes).count x +
      (labels (nodesOfExpr? column.default)).count x +
      (labels (nodesOfExpr? column.generated)).count x := by
  obtain ⟨name, type, nullable, default, primaryKey, generated⟩ := column
  simp [nodes, Nat.add_assoc]

namespace Nested.Draws

open Rule

variable {x : Label} {inner : Nested} (h : inner.Draws x)

include h

theorem expression : inner.expression.Draws x (·.nodes) [] :=
  h.expressionFrom 0

/-- Expressions at the level, with commas between them. -/
theorem expressions : inner.expressions.Draws x (·.flatMap (·.nodes)) [] :=
  .commaSeparated h.expression

/-! ### Types -/

/-- **Types** have labels where they are objects, in the expressions of the columns. -/
theorem dataType : (Rule.dataType inner).Draws x (·.nodes) [] := by
  refine .bind_any fun token ↦ ?_
  split
  · exact .bind_any fun _ ↦ .node rfl rfl
  · split
    · rename_i keyword type htype
      have answer : (pure type : Rule DataType).Draws x (·.nodes) [] :=
        .node (DataType.nodes_of_ofKeyword? htype) rfl
      exact .bind_any fun _ ↦ .ite (.bind_any fun _ ↦ answer) answer
    · split
      case h_5 => exact .bind_any fun _ ↦ h.objectType
      case h_6 => exact .bind_any fun _ ↦ h.elementType.bind fun element ↦ .node rfl rfl
      case h_7 => exact .fail
      all_goals exact .bind_any fun _ ↦ .bind_any fun _ ↦ .node rfl rfl
  · exact .fail

/-- A generated expression, behind the column that has been read so far. -/
theorem generatedAs (column : ColumnDef) :
    (Rule.generatedAs inner column).Draws x (·.toList.flatMap (·.nodes)) column.nodes := by
  refine h.expression.bind fun value ↦ .pure ?_
  simp only [Option.toList_some, List.flatMap_singleton, labels_append, List.count_append,
    ColumnDef.count_labels, nodesOfExpr?]
  omega

/-- A constraint adds a value to a column, perhaps in place of another one. -/
theorem columnConstraint (column : ColumnDef) :
    (Rule.columnConstraint inner column).Draws x (·.toList.flatMap (·.nodes)) column.nodes := by
  have same {changed : ColumnDef} (htype : changed.type = column.type)
      (hdefault : changed.default = column.default)
      (hgenerated : changed.generated = column.generated) :
      (pure (some changed) : Rule (Option ColumnDef)).Draws x (·.toList.flatMap (·.nodes))
        column.nodes := by
    refine .pure ?_
    simp only [Option.toList_some, List.flatMap_singleton, ColumnDef.count_labels, htype, hdefault,
      hgenerated]
    exact Nat.le_refl _
  refine .bind_any fun token ↦ ?_
  split
  · exact .bind_any fun _ ↦ .bind_any fun _ ↦ same rfl rfl rfl
  · exact .bind_any fun _ ↦ same rfl rfl rfl
  · exact .bind_any fun _ ↦ .bind_any fun _ ↦ same rfl rfl rfl
  · refine .bind_any fun _ ↦ h.expression.bind fun value ↦ .pure ?_
    simp only [Option.toList_some, List.flatMap_singleton, labels_append, List.count_append,
      ColumnDef.count_labels, nodesOfExpr?]
    omega
  · exact .bind_any fun _ ↦ .bind_any fun _ ↦ .bind_any fun _ ↦ h.generatedAs column
  · exact .bind_any fun _ ↦ h.generatedAs column
  · exact .none

theorem columnDef : (Rule.columnDef inner).Draws x (·.nodes) [] := by
  refine .bind_any fun name ↦ h.dataType.bind fun type ↦ ?_
  exact (Draws.iterate h.columnConstraint _).mono (by simp [ColumnDef.count_labels, nodesOfExpr?])

theorem objectColumns (policy : Option ObjectPolicy) :
    (Rule.objectColumns inner policy).Draws x (·.nodes) [] := by
  refine .bind_any fun _ ↦ .bind_any fun _ ↦ .ite (.bind_any fun _ ↦ ?_) (.node rfl rfl)
  exact (Draws.parenthesized (.commaSeparated h.columnDef)).bind fun columns ↦
    .node (congrArg (_ :: ·) (nodesOfColumns_eq columns)) rfl

/-- An object with its policy and its columns. -/
theorem object : (Rule.objectType inner).Draws x (·.nodes) [] :=
  .bind_any fun _ ↦ .ite (.bind_any h.objectColumns) (h.objectColumns none)

/-- The type of an array's elements. -/
theorem element : (Rule.elementType inner).Draws x (·.nodes) [] :=
  .parenthesized h.dataType

/-! ### Operands -/

omit h in
/-- A column behind its table is written from the name of the table on. -/
theorem qualifiedColumn {c after : Cursor} {table : String} {e : Expr}
    (htable : c.current.name? = some table) (hdot : c.advance.current.isSymbol .dot)
    (hrun : (Rule.qualifiedColumn table c.current.span).run c.advance.advance = .done e after) :
    (labels e.nodes).count x + after.supply x ≤ c.supply x := by
  obtain ⟨_, _, hcurrent, hrun⟩ := exists_of_run_bind hrun
  cases hcurrent
  obtain ⟨column, _, hidentifier, hpure⟩ := exists_of_run_bind hrun
  obtain ⟨hcolumn, rfl⟩ := of_run_identifier hidentifier
  cases hpure
  have hspells : c.Spells (.column (some table) column
      (c.current.span.through c.advance.advance.current.span)) := ⟨htable, hdot, hcolumn, rfl⟩
  have hle := Cursor.count_add_supply_le (x := x)
    (Token.isOpen_of_isSpoken (Token.isSpoken_of_name? htable)) hspells
  have := Cursor.supply_advance_le x c.advance
  have := Cursor.supply_advance_le x c.advance.advance
  exact Nat.le_trans (Nat.add_le_add_left (by omega) _) hle

/-- What a function is called with. -/
theorem arguments : (Rule.arguments inner).Draws x (·.2.flatMap (·.nodes)) [] := by
  refine .parenthesized (.bind_any fun distinct ↦ .bind_any fun _ ↦ .ite (.pure (by simp)) ?_)
  refine .bind_any fun _ ↦ .ite (.pure (by simp [Expr.nodes])) ?_
  exact h.expressions.bind fun exprs ↦ .pure (Nat.le_refl _)

/-- **An operand that starts with a name** is a column of that name, or has no label of its own. -/
theorem named {c : Cursor} {name : String} (hname : c.current.name? = some name) :
    (Rule.named inner name c.current.span).DrawsAt x (·.nodes) [] c := by
  have hopen := Token.isOpen_of_isSpoken (Token.isSpoken_of_name? hname)
  have hadvance := Cursor.supply_advance_le x c
  intro e after hrun
  simp only [labels_nil, List.count_nil, Nat.zero_add]
  obtain ⟨_, _, hfirst, hrun⟩ := exists_of_run_bind hrun
  cases hfirst
  obtain ⟨_, _, hsees, hrun⟩ := exists_of_run_bind hrun
  cases hsees
  -- What stands behind the name decides: a call, a star, or a column.
  by_cases hcall : c.advance.current.isSymbol .leftParen
  · have call : (do
        let found ← Rule.arguments inner
        return .call name found.1 found.2 : Rule Expr).Draws x (·.nodes) [] :=
      h.arguments.bind fun found ↦ .node (congrArg (_ :: ·) (nodesOfExprs_eq found.2)) rfl
    rw [if_pos hcall] at hrun
    have hle := call hrun
    simp only [labels_nil, List.count_nil, Nat.zero_add] at hle
    exact Nat.le_trans hle hadvance
  rw [if_neg hcall] at hrun
  obtain ⟨_, _, hdot?, hrun⟩ := exists_of_run_bind hrun
  rw [run_accept] at hdot?
  cases hdot?
  by_cases hdot : c.advance.current.isSymbol .dot
  · simp only [if_pos hdot] at hrun
    obtain ⟨_, _, hstar?, hrun⟩ := exists_of_run_bind hrun
    rw [run_accept] at hstar?
    cases hstar?
    by_cases hstar : c.advance.advance.current.isSymbol .star
    · rw [if_pos hstar, if_pos hstar] at hrun
      cases hrun
      have := Cursor.supply_advance_le x c.advance
      have := Cursor.supply_advance_le x c.advance.advance
      simp only [Expr.nodes, labels_cons, Node.label?, Option.toList_none, labels_nil,
        List.nil_append, List.count_nil]
      omega
    · rw [if_neg hstar, if_neg hstar] at hrun
      exact qualifiedColumn hname hdot hrun
  · rw [if_neg hdot, if_neg hdot] at hrun
    cases hrun
    exact Cursor.count_add_supply_le hopen (y := .column none name c.current.span) ⟨hname, rfl⟩

omit h in
/-- The end of an array adds nothing to its elements. -/
theorem closedArray (exprs : List Expr) :
    (Rule.closedArray exprs).Draws x (·.nodes) (exprs.flatMap (·.nodes)) :=
  .bind_any fun _ ↦ .node (congrArg (_ :: ·) (nodesOfExprs_eq exprs)) rfl

theorem arrayLiteral : (Rule.arrayLiteral inner).Draws x (·.nodes) [] :=
  .bind_any fun _ ↦ .bind_any fun _ ↦ .ite (closedArray []) (h.expressions.bind closedArray)

/-- One arm of a `CASE`, condition and result. -/
theorem branch : (Rule.branch inner).Draws x
    (·.toList.flatMap fun b ↦ b.condition.nodes ++ b.result.nodes) [] := by
  refine .clause .WHEN (h.expression.bind fun condition ↦ .bind_any fun _ ↦ ?_)
  exact h.expression.bind fun result ↦ .pure (Nat.le_refl _)

/-- The end of a `CASE` adds the labels of what stands behind `ELSE`. -/
theorem caseEnding (operand : Option Expr) (branches : List Branch) :
    (Rule.caseEnding inner operand branches).Draws x (·.nodes)
      (operand.toList.flatMap (·.nodes) ++
        branches.flatMap fun b ↦ b.condition.nodes ++ b.result.nodes) := by
  refine (Draws.clause .ELSE h.expression).bind fun otherwise ↦ .bind_any fun _ ↦ ?_
  have hnodes : (Expr.case operand branches otherwise).nodes =
      .expr (.case operand branches otherwise) :: (operand.toList.flatMap (·.nodes) ++
        (branches.flatMap fun b ↦ b.condition.nodes ++ b.result.nodes) ++
          otherwise.toList.flatMap (·.nodes)) := by
    simp only [Expr.nodes, nodesOfExpr?_eq, nodesOfBranches_eq]
  exact .node hnodes rfl

/-- The arms of a `CASE`, behind its operand. -/
theorem arms (operand : Option Expr) :
    (Rule.arms inner operand).Draws x (·.nodes) (operand.toList.flatMap (·.nodes)) := by
  refine (Draws.many h.branch).bind fun branches ↦ ?_
  exact .ite (.bind_any fun _ ↦ h.caseEnding operand branches) (h.caseEnding operand branches)

/-- A `CASE` with or without an operand. -/
theorem caseExpression : (Rule.caseExpression inner).Draws x (·.nodes) [] :=
  .bind_any fun _ ↦ .bind_any fun _ ↦ .ite (h.arms none) (h.expression.some.bind h.arms)

/-- A subquery or an expression in parentheses. -/
theorem parenthesizedOperand : (Rule.parenthesizedOperand inner).Draws x (·.nodes) [] := by
  refine .parenthesized (.bind_any fun _ ↦ .ite ?_ ?_)
  · exact h.query.bind fun query ↦ .node rfl rfl
  · exact h.expression.bind fun expr ↦ .node rfl rfl

/-- A conversion in the form of a call. -/
theorem castCall : (Rule.castCall inner).Draws x (·.nodes) [] := by
  refine .bind_any fun _ ↦ .parenthesized (h.expression.bind fun operand ↦ .bind_any fun _ ↦ ?_)
  exact h.dataType.bind fun type ↦ .node rfl rfl

omit h in
/-- **A placeholder has the number that is written where it stands.** -/
theorem placeholder {c : Cursor} (hquestion : c.current.isSymbol .question) :
    (Rule.opened inner .placeholder).DrawsAt x (·.nodes) [] c := by
  have hopen := Token.isOpen_of_isSpoken (Token.isSpoken_of_isSymbol hquestion rfl)
  have hnumber : c.advance.placeholders = c.placeholders + 1 := by
    rw [Cursor.placeholders_advance_of_isOpen hopen, if_pos hquestion]
  rintro e after ⟨⟩
  rw [hnumber, labels_nil, List.count_nil, Nat.zero_add]
  exact Cursor.count_add_supply_le hopen (y := .placeholder (c.placeholders + 1)) ⟨hquestion, rfl⟩

/-- The other operands by how they begin; none of them is a placeholder. -/
theorem opened {opening : Opening} (hplaceholder : opening ≠ .placeholder) :
    (Rule.opened inner opening).Draws x (·.nodes) [] := by
  cases opening with
  | placeholder => exact absurd rfl hplaceholder
  | literal | positional | wildcard => exact .bind_any fun _ ↦ .node rfl rfl
  | named => exact .bind_any fun _ ↦ .bind_any fun _ ↦ .node rfl rfl
  | parenthesized => exact h.parenthesizedOperand
  | array => exact h.arrayLiteral
  | cast => exact h.castCall
  | case => exact h.caseExpression
  | «exists» => exact .bind_any fun _ ↦ h.query.parenthesized.bind fun query ↦ .node rfl rfl

/-- An array, or a name and what stands behind it. -/
theorem arrayOrNamed : (Rule.arrayOrNamed inner).Draws x (·.nodes) [] := by
  refine .bind_any fun _ ↦ .bind_any fun _ ↦ .ite (.bind_any fun _ ↦ h.arrayLiteral) ?_
  refine .bind_current fun c ↦ ?_
  split
  · rename_i hname
    exact h.named hname
  · exact Draws.fail (c := c)

/-- **Operands.** -/
theorem operand : (Rule.operand inner).Draws x (·.nodes) [] := by
  refine .bind_current fun c ↦ ?_
  split
  · rename_i opening hopening
    by_cases hplaceholder : opening = .placeholder
    · subst hplaceholder
      exact placeholder (beq_iff_eq.2 (Opening.eq_question_of_placeholder hopening))
    · exact h.opened hplaceholder (c := c)
  · exact h.arrayOrNamed (c := c)

/-! ### What goes on behind an operand -/

/-- An index or a type behind an operand. -/
theorem subscriptOrCast (operand : Expr) :
    (Rule.subscriptOrCast inner operand).Draws x (·.nodes) operand.nodes := by
  refine .bind_any fun _ ↦ .ite ?_ (.bind_any fun _ ↦ h.dataType.bind fun type ↦ .node rfl rfl)
  exact h.expression.bind fun index ↦ .bind_any fun _ ↦ .node rfl rfl

/-- What stands in the parentheses of an `IN`. -/
theorem inList : (Rule.inList inner).Draws x (·.flatMap (·.nodes)) [] := by
  refine .parenthesized (.bind_any fun _ ↦ .ite ?_ h.expressions)
  exact h.query.bind fun query ↦ .node (List.flatMap_singleton _ _) rfl

/-- What goes on behind an operand with words. -/
theorem continuation (operand : Expr) (negated : Bool) (form : Continuation) :
    (Rule.continuation inner operand negated form).Draws x (·.nodes) operand.nodes := by
  cases form with
  | isNull => exact .bind_any fun _ ↦ .bind_any fun _ ↦ .node rfl rfl
  | isIn =>
    refine h.inList.bind fun exprs ↦ ?_
    have hnodes : (Expr.isIn operand exprs negated).nodes =
        .expr (.isIn operand exprs negated) :: (operand.nodes ++ exprs.flatMap (·.nodes)) := by
      rw [Expr.nodes, nodesOfExprs_eq]
    exact .node hnodes rfl
  | between =>
    refine (h.expressionFrom _).bind fun low ↦ .bind_any fun _ ↦ ?_
    exact (h.expressionFrom _).bind fun high ↦ .node rfl rfl
  | binary op =>
    refine (h.expressionFrom _).bind fun right ↦ .pure (Nat.le_of_eq ?_)
    cases negated <;> simp [Expr.nodes]

/-- The same where nothing need follow. -/
theorem continued (operand : Expr) (negated : Bool) (form : Continuation) :
    (Rule.continued inner operand negated form).Draws x (·.toList.flatMap (·.nodes))
      operand.nodes := by
  have onward : (Rule.advance >>= fun _ ↦
      some <$> Rule.continuation inner operand negated form).Draws x
        (·.toList.flatMap (·.nodes)) operand.nodes :=
    .bind_any fun _ ↦ (h.continuation operand negated form).some
  exact .ite (.bind_any fun _ ↦ onward) onward

/-- One more operator behind what has been read. -/
theorem extension (power : Nat) (operand : Expr) :
    (Rule.extension inner power operand).Draws x (·.toList.flatMap (·.nodes)) operand.nodes := by
  refine .bind_any fun token ↦ .ite (.ite .none (h.subscriptOrCast operand).some) ?_
  refine .bind_any fun next ↦ ?_
  dsimp only
  generalize (token.isKeyword .NOT &&
    (Continuation.ofKind? next.kind).any (·.isNegatable)) = negated
  split
  · exact .none
  · exact .ite .none (h.continued operand negated _)

/-- An operand, or a prefix operator with one. -/
theorem firstOperand : (Rule.firstOperand inner).Draws x (·.nodes) [] := by
  refine .bind_any fun token ↦ ?_
  split
  · exact .bind_any fun _ ↦ (h.expressionFrom _).bind fun operand ↦ .node rfl rfl
  · exact h.operand

/-- **Expressions**, from a binding power on. -/
theorem expressionOf (power : Nat) : (Rule.expressionFrom inner power).Draws x (·.nodes) [] :=
  h.firstOperand.bind fun first ↦ .iterate (h.extension power) first

end Nested.Draws

end SqlBatch
