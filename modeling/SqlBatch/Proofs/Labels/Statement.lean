import SqlBatch.Proofs.Allowance
import SqlBatch.Proofs.Labels.Expression

/-!
# The labels of statements

From `FROM` items to whole statements, and from one level of nesting to all of them: a statement
takes the labels of its tree from the tokens that it passes. So every label of a tree is written at
one of them (`Request.exists_spells_of_mem_labels`).

## The steps of the grammar

Where a rule ends a construct that it has begun to read, like `ordered` or `inserted`, it is given
what was read before; where it starts one, nothing stands before. Statements that hold no expression
have no labels at all, and neither have the names of tables, schemas and settings.

The definition of a table is not built in the order of its tokens: its elements are read as a list,
and its columns are then taken from them. These have all the nodes of the elements
(`TableElement.nodesOfColumns_columnDefs`), and counting does not care for the order.
-/

namespace SqlBatch

/-- The nodes of an element of a table definition. -/
def TableElement.nodes : TableElement → List Node
  | .column definition => definition.nodes
  | .primaryKey _ => []

/-- The columns of a table have the nodes of its elements; a primary key has none. -/
theorem TableElement.nodesOfColumns_columnDefs (elements : List TableElement) :
    nodesOfColumns (columnDefs elements) = elements.flatMap (·.nodes) := by
  induction elements with
  | nil => rfl
  | cons element elements ih =>
    cases element with
    | column definition => rw [columnDefs, nodesOfColumns, ih, List.flatMap_cons, nodes]
    | primaryKey columns => rw [columnDefs, ih, List.flatMap_cons, nodes, List.nil_append]

/-- Tables that a statement names carry no labels. -/
@[simp] theorem labels_map_table (tables : List TableName) : labels (tables.map .table) = [] := by
  induction tables with
  | nil => rfl
  | cons table tables ih => exact ih

namespace Rule.Draws

variable {α : Type} {x : Label} {μ : α → List Node} {before : List Node} {r : Rule α}

/-- A rule whose values have no labels. -/
protected theorem any (h : ∀ a, labels (μ a) = []) : r.Draws x μ before := by
  intro c a after hrun
  rw [h, List.count_nil, Nat.zero_add]
  exact Nat.le_trans (reaches_of_run hrun).supply_le (Nat.le_add_left _ _)

end Rule.Draws

namespace Nested.Draws

open Rule

variable {x : Label} {inner : Nested}

/-! ### From items -/

/-- A table has no label. -/
theorem tableItem : Rule.tableItem.Draws x (·.nodes) [] :=
  .bind_any fun _ ↦ .bind_any fun _ ↦ .node rfl rfl

variable (h : inner.Draws x)

include h

/-- A table, a subquery, or an item in parentheses. -/
theorem fromPrimary : (Rule.fromPrimary inner).Draws x (·.nodes) [] := by
  refine .bind_any fun _ ↦ .ite (.bind_any fun _ ↦ .ite ?_ ?_) tableItem
  · exact h.query.bind fun query ↦ .bind_any fun _ ↦ .bind_any fun _ ↦ .node rfl rfl
  · exact h.fromItem.bind fun item ↦ .bind_any fun _ ↦ .pure (Nat.le_refl _)

theorem joinCondition : (Rule.joinCondition inner).Draws x (·.nodes) [] := by
  refine .bind_any fun _ ↦ .ite ?_ (.bind_any fun _ ↦ .ite ?_ .fail)
  · exact h.expression.bind fun condition ↦ .pure (Nat.le_refl _)
  · exact .bind_any fun columns ↦ .pure (Nat.le_refl _)

/-- A join adds the item on the right and the condition. -/
theorem join (left : FromItem) :
    (Rule.join inner left).Draws x (·.toList.flatMap (·.nodes)) left.nodes := by
  have joined (kind : JoinKind) (right : FromItem) (condition : JoinCondition) :
      (pure (some (.join left kind right condition)) : Rule (Option FromItem)).Draws x
        (·.toList.flatMap (·.nodes)) (left.nodes ++ right.nodes ++ condition.nodes) :=
    .pure (by simp [FromItem.nodes])
  have crossed (kind : JoinKind) (right : FromItem) :
      (pure (some (.join left kind right .none)) : Rule (Option FromItem)).Draws x
        (·.toList.flatMap (·.nodes)) (left.nodes ++ right.nodes) :=
    (joined kind right .none).mono (by simp [JoinCondition.nodes])
  refine .bind_any fun _ ↦ .ite (tableItem.bind (crossed .cross)) (.bind_any fun kind? ↦ ?_)
  rcases kind? with _ | kind
  · exact .none
  · exact tableItem.bind fun right ↦
      .ite (crossed kind right) (h.joinCondition.bind fun condition ↦ joined kind right condition)

/-- Items joined from left to right. -/
theorem source : (Rule.fromItem inner).Draws x (·.nodes) [] :=
  h.fromPrimary.bind fun first ↦ .iterate h.join first

/-! ### Queries -/

theorem selectItem : (Rule.selectItem inner).Draws x (·.expr.nodes) [] :=
  h.expression.bind fun _ ↦ .bind_any fun _ ↦ .pure (Nat.le_refl _)

omit h in
/-- The end of an order item, behind its expression. -/
theorem ordered (expr : Expr) (descending : Bool) :
    (Rule.ordered expr descending).Draws x (·.expr.nodes) expr.nodes :=
  .bind_any fun _ ↦ .pure (Nat.le_refl _)

/-- What a query is ordered by. -/
theorem orderItem : (Rule.orderItem inner).Draws x (·.expr.nodes) [] :=
  h.expression.bind fun expr ↦ .bind_any fun descending ↦
    .ite (ordered expr descending) (.bind_any fun _ ↦ ordered expr descending)

/-- A further query behind a set operation. -/
theorem combined (op : SetOp) (all : Bool) :
    (Rule.combined inner op all).Draws x (·.toList.flatMap (·.right.nodes)) [] :=
  h.query.bind fun right ↦ .pure (by simp)

/-- A set operation and its query, or none. -/
theorem compound : (Rule.compound inner).Draws x (·.toList.flatMap (·.right.nodes)) [] := by
  refine .bind_any fun token ↦ ?_
  split
  · exact .none
  · rename_i op _
    exact .bind_any fun _ ↦ .bind_any fun all ↦
      .ite (h.combined op all) (.bind_any fun _ ↦ h.combined op all)

theorem queryBody (distinct : Bool) : (Rule.queryBody inner distinct).Draws x (·.nodes) [] := by
  refine (Draws.commaSeparated h.selectItem).bind fun items ↦ ?_
  refine (Draws.clause .FROM h.source).bind fun source ↦ ?_
  refine (Draws.clause .WHERE h.expression).bind fun filter ↦ ?_
  refine (Draws.listClause .GROUP (.bind_any fun _ ↦ h.expressions)).bind fun grouping ↦ ?_
  refine (Draws.clause .HAVING h.expression).bind fun having ↦ ?_
  refine h.compound.bind fun compound? ↦ ?_
  rcases compound? with _ | compound
  · have ordered := Draws.commaSeparated h.orderItem
    refine (Draws.listClause .ORDER (.bind_any fun _ ↦ ordered)).bind fun ordering ↦ ?_
    refine (Draws.clause .LIMIT h.expression).bind fun limit ↦ ?_
    refine (Draws.clause .OFFSET h.expression).bind fun offset ↦ .pure (Nat.le_of_eq ?_)
    simp [Query.nodes, nodesOfItems_eq, nodesOfFrom?_eq, nodesOfExpr?_eq, nodesOfExprs_eq,
      nodesOfCompound?_eq, nodesOfOrdering_eq]
  · refine .pure (Nat.le_of_eq ?_)
    simp [Query.nodes, nodesOfItems_eq, nodesOfFrom?_eq, nodesOfExpr?_eq, nodesOfExprs_eq,
      nodesOfCompound?_eq, nodesOfOrdering_eq]

/-- **Queries.** -/
theorem select : (Rule.query inner).Draws x (·.nodes) [] :=
  .bind_any fun _ ↦ .bind_any fun distinct ↦
    .ite (h.queryBody distinct) (.bind_any fun _ ↦ h.queryBody distinct)

/-! ### Statements -/

theorem insertSource : (Rule.insertSource inner).Draws x (·.nodes) [] := by
  refine .bind_any fun token ↦ ?_
  split
  · have rows := Draws.commaSeparated (Draws.parenthesized h.expressions)
    refine .bind_any fun _ ↦ rows.bind fun rows ↦ .pure (Nat.le_of_eq ?_)
    rw [InsertSource.nodes, funext nodesOfExprs_eq]
    rfl
  · exact h.query.bind fun query ↦ .pure (Nat.le_refl _)
  · exact .bind_any fun _ ↦ .bind_any fun _ ↦ .pure (Nat.le_refl _)
  · exact .fail

/-- The end of an `INSERT`; table and columns have no labels. -/
theorem inserted (table : TableName) (columns : List String) :
    (Rule.inserted inner table columns).Draws x (fun i ↦ (Command.insert i).nodes) [] :=
  h.insertSource.bind fun _ ↦ .node rfl rfl

/-- `INSERT` takes the labels of its source. -/
theorem insert : (Rule.insert inner).Draws x (fun i ↦ (Command.insert i).nodes) [] :=
  .bind_any fun _ ↦ .bind_any fun _ ↦ .bind_any fun table ↦ .bind_any fun _ ↦
    .ite (.bind_any (h.inserted table)) (h.inserted table [])

theorem assignment : (Rule.assignment inner).Draws x (·.value.nodes) [] :=
  .bind_any fun _ ↦ .bind_any fun _ ↦ h.expression.bind fun _ ↦ .pure (Nat.le_refl _)

/-- `UPDATE` takes the labels of its assignments and its condition. -/
theorem update : (Rule.update inner).Draws x (fun u ↦ (Command.update u).nodes) [] := by
  refine .bind_any fun _ ↦ .bind_any fun table ↦ .bind_any fun alias? ↦ .bind_any fun _ ↦ ?_
  refine (Draws.commaSeparated h.assignment).bind fun assignments ↦ ?_
  refine (Draws.clause .FROM h.source).bind fun source ↦ ?_
  refine (Draws.clause .WHERE h.expression).bind fun filter ↦ .pure (Nat.le_of_eq ?_)
  simp [Command.nodes, nodesOfFrom?_eq, nodesOfExpr?_eq]

/-- `DELETE` takes the labels of its condition. -/
theorem delete : (Rule.delete inner).Draws x (fun d ↦ (Command.delete d).nodes) [] := by
  refine .bind_any fun _ ↦ .bind_any fun _ ↦ .bind_any fun table ↦ .bind_any fun alias? ↦ ?_
  refine (Draws.clause .WHERE h.expression).bind fun filter ↦ .pure (Nat.le_of_eq ?_)
  simp [Command.nodes, nodesOfExpr?_eq]

theorem property : (Rule.property inner).Draws x (·.value.nodes) [] :=
  .bind_any fun _ ↦ .bind_any fun _ ↦ h.expression.bind fun _ ↦ .pure (Nat.le_refl _)

theorem properties : (Rule.properties inner).Draws x nodesOfProperties [] :=
  .listClause .WITH (.parenthesized (.commaSeparated h.property))

/-- A column of a table, or its primary key. -/
theorem tableElement : (Rule.tableElement inner).Draws x (·.nodes) [] := by
  refine .bind_any fun _ ↦ .ite ?_ ?_
  · exact .bind_any fun _ ↦ .bind_any fun _ ↦ .pure (Nat.le_refl _)
  · exact h.columnDef.bind fun definition ↦ .pure (Nat.le_refl _)

/-- The table behind `CREATE TABLE`. -/
theorem tableDefinition (ifNotExists : Bool) :
    (Rule.tableDefinition inner ifNotExists).Draws x (fun c ↦ (Command.createTable c).nodes)
      [] := by
  have elements := Draws.parenthesized (.commaSeparated h.tableElement)
  refine .bind_any fun table ↦ elements.bind fun elements ↦ ?_
  refine h.properties.bind fun properties ↦ .pure (Nat.le_of_eq ?_)
  simp [Command.nodes, TableElement.nodesOfColumns_columnDefs]

/-- `CREATE TABLE` takes the labels of its columns and its properties. -/
theorem createTable :
    (Rule.createTable inner).Draws x (fun c ↦ (Command.createTable c).nodes) [] := by
  refine .bind_any fun _ ↦ .bind_any fun _ ↦ .bind_any fun ifNotExists ↦ .ite ?_ ?_
  · exact .bind_any fun _ ↦ .bind_any fun _ ↦ h.tableDefinition ifNotExists
  · exact h.tableDefinition ifNotExists

omit h in
/-- The table behind `DROP TABLE` has no labels. -/
theorem dropped (ifExists : Bool) : (Rule.dropped ifExists).Draws x (·.nodes) [] :=
  .bind_any fun _ ↦ .node rfl rfl

omit h in
/-- `DROP TABLE` has no labels. -/
theorem dropTable : Rule.dropTable.Draws x (·.nodes) [] :=
  .bind_any fun _ ↦ .bind_any fun _ ↦ .bind_any fun ifExists ↦
    .ite (.bind_any fun _ ↦ dropped ifExists) (dropped ifExists)

omit h in
/-- `REFRESH TABLE` has no labels. -/
theorem refresh : Rule.refresh.Draws x (·.nodes) [] :=
  .bind_any fun _ ↦ .bind_any fun _ ↦ .bind_any fun _ ↦ .pure (by simp [Command.nodes])

/-- `OPTIMIZE TABLE` takes the labels of its properties. -/
theorem optimize : (Rule.optimize inner).Draws x (·.nodes) [] := by
  refine .bind_any fun _ ↦ .bind_any fun _ ↦ .bind_any fun tables ↦ ?_
  exact h.properties.bind fun properties ↦ .pure (by simp [Command.nodes])

theorem explaining (analyze : Bool) : (Rule.explaining inner analyze).Draws x (·.nodes) [] :=
  h.statement.bind fun _ ↦ .pure (Nat.le_refl _)

/-- `EXPLAIN` takes the labels of its statement. -/
theorem explain : (Rule.explain inner).Draws x (·.nodes) [] := by
  refine .bind_any fun _ ↦ .bind_any fun token ↦ .bind_any fun next ↦ .ite ?_ ?_
  · exact .bind_any fun _ ↦ h.explaining _
  · exact h.explaining _

omit h in
/-- `SHOW` has no labels. -/
theorem «show» : (Command.show <$> Rule.show).Draws x (·.nodes) [] := by
  have target : Rule.show.Draws x (fun target ↦ (Command.show target).nodes) [] := by
    refine .any fun target ↦ ?_
    cases target <;> rfl
  exact target.map fun _ ↦ Nat.le_refl _

/-- The value of a setting; its name is no label. -/
theorem settingValue (scope : SettingScope) (name : String) :
    (Rule.settingValue inner scope name).Draws x (·.nodes) [] := by
  refine .bind_any fun _ ↦ .ite (.pure (Nat.le_refl _)) ?_
  refine h.expressions.bind fun exprs ↦ .pure (Nat.le_of_eq ?_)
  simp [Command.nodes, SettingValue.nodes, nodesOfExprs_eq]

/-- `SET` takes the labels of its value. -/
theorem set : (Rule.set inner).Draws x (·.nodes) [] := by
  refine .bind_any fun _ ↦ .bind_any fun scope ↦ .bind_any fun name ↦ .bind_any fun _ ↦ ?_
  have value := h.settingValue scope name
  exact .ite value (.bind_any fun _ ↦ .ite value (.bind_any fun _ ↦ value))

omit h in
/-- `RESET` has no labels. -/
theorem reset : Rule.reset.Draws x (·.nodes) [] :=
  .bind_any fun _ ↦ .bind_any fun _ ↦
    .ite (.pure (Nat.le_refl _)) (.bind_any fun _ ↦ .pure (Nat.le_refl _))

omit h in
/-- `DISCARD` has no labels. -/
theorem discard : Rule.discard.Draws x (·.nodes) [] := by
  refine .bind_any fun _ ↦ .bind_any fun token ↦ ?_
  split
  · exact .bind_any fun _ ↦ .pure (Nat.le_refl _)
  · exact .fail

/-- `KILL` takes the labels of its expression. -/
theorem kill : (Rule.kill inner).Draws x (·.nodes) [] := by
  refine .bind_any fun _ ↦ .bind_any fun _ ↦ .ite (.pure (Nat.le_refl _)) ?_
  refine h.expression.bind fun job ↦ .pure (Nat.le_refl _)

/-- **Statements.** -/
theorem command : (Rule.statement inner).Draws x (·.nodes) [] := by
  refine .bind_any fun token ↦ ?_
  split
  · exact h.query.map fun _ ↦ Nat.le_refl _
  · exact h.insert.map fun _ ↦ Nat.le_refl _
  · exact h.update.map fun _ ↦ Nat.le_refl _
  · exact h.delete.map fun _ ↦ Nat.le_refl _
  · exact h.createTable.map fun _ ↦ Nat.le_refl _
  · exact dropTable
  · exact h.explain
  · exact «show»
  · exact h.set
  · exact discard
  · exact refresh
  · exact h.optimize
  · exact reset
  · exact .bind_any fun _ ↦ .bind_any fun _ ↦ .pure (Nat.le_refl _)
  · exact .bind_any fun _ ↦ .bind_any fun _ ↦ .pure (Nat.le_refl _)
  · exact .bind_any fun _ ↦ .bind_any fun _ ↦ .pure (Nat.le_refl _)
  · exact .bind_any fun _ ↦ .bind_any fun _ ↦ .pure (Nat.le_refl _)
  · exact h.kill
  · exact .bind_any fun _ ↦ .pure (Nat.le_refl _)
  · exact .bind_any fun _ ↦ .bind_any fun _ ↦ .bind_any fun _ ↦ .pure (Nat.le_refl _)
  · exact .bind_any fun _ ↦ .bind_any fun _ ↦ .pure (Nat.le_refl _)
  · exact .bind_any fun _ ↦ .ite .fail .fail

/-! ### The whole grammar -/

/-- **One level of nesting.** -/
theorem around : inner.around.Draws x where
  statement := h.command
  query := h.select
  fromItem := h.source
  expressionFrom power := h.expressionOf power
  objectType := h.object
  elementType := h.element

omit h in
/-- **All levels**, by induction on how many are left. -/
theorem ofAllowance (allowance : Nat) : (Nested.ofAllowance allowance).Draws x := by
  induction allowance with
  | zero => exact ⟨.fail, .fail, .fail, fun _ ↦ .fail, .fail, .fail⟩
  | succ allowance ih => exact ih.around

end Nested.Draws

/-- **All levels of nesting.** What answers a request takes the labels of its tree from the tokens
that it passes, however many levels are left. -/
theorem Request.draws_ruleWithin (x : Label) (request : Request) (allowance : Nat) :
    (request.ruleWithin allowance).Draws x (·.nodes) [] := by
  have hstatement : (Rule.statementWithin allowance).Draws x (·.nodes) [] :=
    (Nested.Draws.ofAllowance allowance).command
  rcases request with _ | _
  · exact hstatement
  · refine hstatement.bind fun tree ↦ .bind_any fun token ↦ .ite (.pure (Nat.le_refl _)) ?_
    exact .bind_any fun _ ↦ .pure (Nat.le_refl _)

/-- A tree carries a label no more often than it is written in the tokens ahead. -/
theorem Request.count_labels_le (request : Request) {allowance : Nat} {c after : Cursor}
    {tree : Command} (hrun : (request.ruleWithin allowance).run c = .done tree after) (x : Label) :
    (labels tree.nodes).count x + after.supply x ≤ c.supply x := by
  have hle := request.draws_ruleWithin x allowance hrun
  rwa [labels_nil, List.count_nil, Nat.zero_add] at hle

/-- **Every label of a tree is written** at a token that was passed for it. -/
theorem Request.exists_spells_of_mem_labels (request : Request) {allowance : Nat}
    {c after : Cursor} {tree : Command}
    (hrun : (request.ruleWithin allowance).run c = .done tree after) {x : Label}
    (hx : x ∈ labels tree.nodes) :
    ∃ mid, c.Reaches mid ∧ mid.current.isOpen ∧ mid.Spells x ∧ mid.advance.Reaches after := by
  have hle := request.count_labels_le hrun x
  have hpos := List.count_pos_iff.2 hx
  exact (Rule.reaches_of_run hrun).exists_spells (show after.supply x < c.supply x by omega)

end SqlBatch
