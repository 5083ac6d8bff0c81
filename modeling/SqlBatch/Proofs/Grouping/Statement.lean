import SqlBatch.Lexer
import SqlBatch.Proofs.Depth
import SqlBatch.Proofs.Grouping.Expression

/-!
# Statements are grouped

From the rules for expressions to whole statements, level by level: no rule adds operators of its
own around the expressions that it reads. So a statement is grouped if the expressions inside it
are, and each law below says of one rule which expressions these are.

## What is counted as inside

The nodes of a construct are those of its expressions, one part after the other, and parts without
expressions add nothing: names, aliases, directions and policies have no nodes. Where a rule is
given what was read before it, as the rule for a join is given the item on its left, that part is
assumed to be grouped, and the loop over the joins keeps it so.

## The whole grammar

By induction on the levels that are left, the rules of every level read grouped trees
(`Nested.Groups.ofAllowance`). What answers a request is made of these, whatever the cursor has left
(`Request.yields_allGrouped`).
-/

namespace SqlBatch

namespace Nested.Groups

open Rule

variable {inner : Nested} (h : inner.Groups)

/-! ### From items -/

/-- A table has no expressions. -/
theorem tableItem : Rule.tableItem.Yields fun item ↦ AllGrouped item.nodes :=
  .bind_any fun _ ↦ .bind_any fun _ ↦ .pure (.node trivial .nil)

include h

/-- A query in parentheses, or a `FROM` item in parentheses. -/
theorem fromPrimary : (Rule.fromPrimary inner).Yields fun item ↦ AllGrouped item.nodes := by
  refine .bind_any fun _ ↦ .ite (.bind_any fun _ ↦ .ite ?_ ?_) tableItem
  · exact h.query.bind fun query hquery ↦ .bind_any fun _ ↦ .bind_any fun _ ↦
      .pure (.node trivial hquery)
  · exact h.fromItem.bind fun item hitem ↦ .bind_any fun _ ↦ .pure hitem

/-- `ON` has one expression, `USING` has names. -/
theorem joinCondition :
    (Rule.joinCondition inner).Yields fun condition ↦ AllGrouped condition.nodes := by
  refine .bind_any fun _ ↦ .ite ?_ (.bind_any fun _ ↦ .ite (.bind_any fun _ ↦ ?_) .fail)
  · exact h.expression.bind fun condition hcondition ↦ .pure hcondition
  · exact .pure .nil

/-- A join has the expressions of both sides and of its condition. -/
theorem join {left : FromItem} (hleft : AllGrouped left.nodes) :
    (Rule.join inner left).Yields fun item? ↦ ∀ item ∈ item?, AllGrouped item.nodes := by
  have joined (kind : JoinKind) (right : FromItem) (hright : AllGrouped right.nodes)
      (condition : JoinCondition) (hcondition : AllGrouped condition.nodes) :
      (pure (Option.some (.join left kind right condition)) : Rule (Option FromItem)).Yields
        fun item? ↦ ∀ item ∈ item?, AllGrouped item.nodes := by
    refine .pure fun item hitem ↦ ?_
    obtain rfl := Option.some.inj hitem
    exact .node trivial ((hleft.append hright).append hcondition)
  refine .bind_any fun _ ↦ .ite ?_ (.bind_any fun kind? ↦ ?_)
  · exact tableItem.bind fun right hright ↦ joined .cross right hright .none .nil
  · cases kind? with
    | none => exact .pure nofun
    | some kind =>
      refine tableItem.bind fun right hright ↦ .ite (joined kind right hright _ .nil) ?_
      exact h.joinCondition.bind (joined kind right hright)

/-- As many joins as follow, the invariant being that the left side is grouped. -/
theorem source : (Rule.fromItem inner).Yields fun item ↦ AllGrouped item.nodes :=
  h.fromPrimary.bind fun _ hitem ↦ .iterate hitem fun _ hleft ↦ h.join hleft

/-! ### Queries -/

/-- An item is an expression with an alias. -/
theorem selectItem : (Rule.selectItem inner).Yields fun item ↦ AllGrouped item.expr.nodes :=
  h.expression.bind fun _ hexpr ↦ .bind_any fun _ ↦ .pure hexpr

omit h in
/-- An item of an ordering is its expression, with a direction. -/
theorem ordered {expr : Expr} (hexpr : AllGrouped expr.nodes) (descending : Bool) :
    (Rule.ordered expr descending).Yields fun item ↦ AllGrouped item.expr.nodes :=
  .bind_any fun _ ↦ .pure hexpr

/-- The expression of an item of an ordering. -/
theorem orderItem : (Rule.orderItem inner).Yields fun item ↦ AllGrouped item.expr.nodes :=
  h.expression.bind fun _ hexpr ↦ .bind_any fun descending ↦
    .ite (ordered hexpr descending) (.bind_any fun _ ↦ ordered hexpr descending)

/-- What is combined is the query on the right. -/
theorem combined (op : SetOp) (all : Bool) : (Rule.combined inner op all).Yields fun compound? ↦
    ∀ compound ∈ compound?, AllGrouped compound.right.nodes :=
  h.query.bind fun _ hright ↦ .pure fun _ hcompound ↦ Option.some.inj hcompound ▸ hright

/-- There may be no query on the right. -/
theorem compound : (Rule.compound inner).Yields fun compound? ↦
    ∀ compound ∈ compound?, AllGrouped compound.right.nodes := by
  refine .bind_any fun token ↦ ?_
  split
  · exact .pure nofun
  · rename_i op _
    exact .bind_any fun _ ↦ .bind_any fun all ↦
      .ite (h.combined op all) (.bind_any fun _ ↦ h.combined op all)

/-- **Queries.** The expressions are those of the clauses, one after the other. -/
theorem queryBody (distinct : Bool) :
    (Rule.queryBody inner distinct).Yields fun query ↦ AllGrouped query.nodes := by
  refine (Yields.commaSeparated h.selectItem).bind fun items hitems ↦ ?_
  refine (Yields.clause .FROM h.source).bind fun source hsource ↦ ?_
  refine (Yields.clause .WHERE h.expression).bind fun filter hfilter ↦ ?_
  refine (Yields.listClause .GROUP (.bind_any fun _ ↦ h.expressions)).bind
    fun grouping hgrouping ↦ ?_
  refine (Yields.clause .HAVING h.expression).bind fun having hhaving ↦ ?_
  refine h.compound.bind fun compound? hcompound ↦ ?_
  have hfront := ((((AllGrouped.items hitems).append (.from? hsource)).append
    (.expr? hfilter)).append (.exprs hgrouping)).append (.expr? hhaving)
  have hcombined := hfront.append (.compound? hcompound)
  cases compound? with
  | some compound =>
    exact .pure (.node trivial (((hcombined.append .nil).append .nil).append .nil))
  | none =>
    refine (Yields.listClause .ORDER (.bind_any fun _ ↦ .commaSeparated h.orderItem)).bind
      fun ordering hordering ↦ ?_
    refine (Yields.clause .LIMIT h.expression).bind fun limit hlimit ↦ ?_
    refine (Yields.clause .OFFSET h.expression).bind fun offset hoffset ↦ .pure (.node trivial ?_)
    exact ((hcombined.append (.ordering hordering)).append (.expr? hlimit)).append
      (.expr? hoffset)

/-- `DISTINCT` has no nodes. -/
theorem select : (Rule.query inner).Yields fun query ↦ AllGrouped query.nodes :=
  .bind_any fun _ ↦ .bind_any fun distinct ↦
    .ite (h.queryBody distinct) (.bind_any fun _ ↦ h.queryBody distinct)

/-! ### Statements -/

/-- The rows have expressions, a query has those of its own, defaults have none. -/
theorem insertSource : (Rule.insertSource inner).Yields fun source ↦ AllGrouped source.nodes := by
  refine .bind_any fun token ↦ ?_
  split
  · have rows := Yields.commaSeparated (Yields.parenthesized h.expressions)
    refine .bind_any fun _ ↦ rows.bind fun rows hrows ↦ .pure ?_
    exact .flatMap fun row hrow ↦ .exprs (hrows row hrow)
  · exact h.query.bind fun query hquery ↦ .pure hquery
  · exact .bind_any fun _ ↦ .bind_any fun _ ↦ .pure .nil
  · exact .fail

/-- A table and its columns have no expressions. -/
theorem inserted (table : TableName) (columns : List String) :
    (Rule.inserted inner table columns).Yields fun insert ↦ AllGrouped insert.source.nodes :=
  h.insertSource.bind fun _ hsource ↦ .pure hsource

/-- What is put in. -/
theorem insert : (Rule.insert inner).Yields fun insert ↦ AllGrouped insert.source.nodes :=
  .bind_any fun _ ↦ .bind_any fun _ ↦ .bind_any fun table ↦ .bind_any fun _ ↦
    .ite (.bind_any (h.inserted table)) (h.inserted table [])

/-- The value that a column is set to. -/
theorem assignment : (Rule.assignment inner).Yields fun assignment ↦
    AllGrouped assignment.value.nodes :=
  .bind_any fun _ ↦ .bind_any fun _ ↦ h.expression.bind fun _ hvalue ↦ .pure hvalue

/-- The values of the assignments, the `FROM` item and the condition. -/
theorem update : (Rule.update inner).Yields fun update ↦
    AllGrouped (Command.update update).nodes := by
  refine .bind_any fun _ ↦ .bind_any fun table ↦ .bind_any fun alias? ↦ .bind_any fun _ ↦ ?_
  refine (Yields.commaSeparated h.assignment).bind fun assignments hassignments ↦ ?_
  refine (Yields.clause .FROM h.source).bind fun source hsource ↦ ?_
  refine (Yields.clause .WHERE h.expression).bind fun filter hfilter ↦ .pure ?_
  have hvalues := AllGrouped.flatMap hassignments
  exact .node trivial ((hvalues.append (.from? hsource)).append (.expr? hfilter))

/-- The condition, if there is one. -/
theorem delete : (Rule.delete inner).Yields fun delete ↦
    AllGrouped (Command.delete delete).nodes := by
  refine .bind_any fun _ ↦ .bind_any fun _ ↦ .bind_any fun table ↦ .bind_any fun alias? ↦ ?_
  exact (Yields.clause .WHERE h.expression).bind fun filter hfilter ↦
    .pure (.node trivial (.expr? hfilter))

theorem property : (Rule.property inner).Yields fun property ↦ AllGrouped property.value.nodes :=
  .bind_any fun _ ↦ .bind_any fun _ ↦ h.expression.bind fun _ hvalue ↦ .pure hvalue

theorem properties : (Rule.properties inner).Yields fun properties ↦
    ∀ property ∈ properties, AllGrouped property.value.nodes :=
  .listClause .WITH (.parenthesized (.commaSeparated h.property))

omit h in
/-- The columns among the elements; a primary key has no expressions. -/
theorem allGrouped_columnDefs {elements : List TableElement}
    (h : ∀ element ∈ elements, ∀ column, element = .column column → AllGrouped column.nodes) :
    ∀ column ∈ TableElement.columnDefs elements, AllGrouped column.nodes := by
  induction elements with
  | nil => exact nofun
  | cons element elements ih =>
    obtain ⟨helement, helements⟩ := List.forall_mem_cons.1 h
    cases element with
    | column definition => exact List.forall_mem_cons.2 ⟨helement _ rfl, ih helements⟩
    | primaryKey => exact ih helements

/-- An element is a column or has no expressions. -/
theorem tableElement : (Rule.tableElement inner).Yields fun element ↦
    ∀ column, element = .column column → AllGrouped column.nodes := by
  refine .bind_any fun _ ↦ .ite ?_ ?_
  · exact .bind_any fun _ ↦ .bind_any fun _ ↦ .pure nofun
  · exact h.columnDef.bind fun definition hdefinition ↦ .pure fun column hcolumn ↦
      TableElement.column.inj hcolumn ▸ hdefinition

/-- The columns and the values of the properties. -/
theorem tableDefinition (ifNotExists : Bool) :
    (Rule.tableDefinition inner ifNotExists).Yields fun create ↦
      AllGrouped (Command.createTable create).nodes := by
  refine .bind_any fun table ↦ ?_
  refine (Yields.parenthesized (.commaSeparated h.tableElement)).bind fun elements helements ↦ ?_
  refine h.properties.bind fun properties hproperties ↦ .pure ?_
  have hcolumns := AllGrouped.columns (allGrouped_columnDefs helements)
  exact .node trivial (hcolumns.append (.flatMap hproperties))

/-- `IF NOT EXISTS` has no nodes. -/
theorem createTable : (Rule.createTable inner).Yields fun create ↦
    AllGrouped (Command.createTable create).nodes := by
  refine .bind_any fun _ ↦ .bind_any fun _ ↦ .bind_any fun ifNotExists ↦ .ite ?_ ?_
  · exact .bind_any fun _ ↦ .bind_any fun _ ↦ h.tableDefinition ifNotExists
  · exact h.tableDefinition ifNotExists

omit h in
/-- Tables have no expressions. -/
theorem allGrouped_tables (tables : List TableName) : AllGrouped (tables.map .table) := by
  intro node hnode
  obtain ⟨table, -, rfl⟩ := List.mem_map.1 hnode
  trivial

theorem optimize : (Rule.optimize inner).Yields fun command ↦ AllGrouped command.nodes := by
  refine .bind_any fun _ ↦ .bind_any fun _ ↦ .bind_any fun tables ↦ ?_
  refine h.properties.bind fun properties hproperties ↦ .pure ?_
  exact (allGrouped_tables tables).append (.flatMap hproperties)

/-- The statement that is explained. -/
theorem explaining (analyze : Bool) :
    (Rule.explaining inner analyze).Yields fun command ↦ AllGrouped command.nodes :=
  h.statement.bind fun _ hcommand ↦ .pure hcommand

/-- `ANALYZE` has no nodes. -/
theorem explain : (Rule.explain inner).Yields fun command ↦ AllGrouped command.nodes := by
  refine .bind_any fun _ ↦ .bind_any fun token ↦ .bind_any fun next ↦ .ite ?_ ?_
  · exact .bind_any fun _ ↦ h.explaining _
  · exact h.explaining _

theorem settingValue (scope : SettingScope) (name : String) :
    (Rule.settingValue inner scope name).Yields fun command ↦ AllGrouped command.nodes := by
  refine .bind_any fun _ ↦ .ite (.pure .nil) ?_
  exact h.expressions.bind fun exprs hexprs ↦ .pure (.exprs hexprs)

/-- The scope and the name of a setting have no nodes. -/
theorem set : (Rule.set inner).Yields fun command ↦ AllGrouped command.nodes := by
  refine .bind_any fun _ ↦ .bind_any fun scope ↦ .bind_any fun name ↦ .bind_any fun _ ↦ ?_
  have value := h.settingValue scope name
  exact .ite value (.bind_any fun _ ↦ .ite value (.bind_any fun _ ↦ value))

/-- The expression for the job, if it is not `ALL`. -/
theorem kill : (Rule.kill inner).Yields fun command ↦ AllGrouped command.nodes := by
  refine .bind_any fun _ ↦ .bind_any fun _ ↦ .ite (.pure .nil) ?_
  exact h.expression.bind fun job hjob ↦ .pure hjob

omit h in
theorem dropped (ifExists : Bool) :
    (Rule.dropped ifExists).Yields fun command ↦ AllGrouped command.nodes :=
  .bind_any fun table ↦ .pure (allGrouped_tables [table])

omit h in
/-- The table that is dropped. -/
theorem dropTable : Rule.dropTable.Yields fun command ↦ AllGrouped command.nodes :=
  .bind_any fun _ ↦ .bind_any fun _ ↦ .bind_any fun ifExists ↦
    .ite (.bind_any fun _ ↦ dropped ifExists) (dropped ifExists)

omit h in
theorem refresh : Rule.refresh.Yields fun command ↦ AllGrouped command.nodes :=
  .bind_any fun _ ↦ .bind_any fun _ ↦ .bind_any fun tables ↦ .pure (allGrouped_tables tables)

omit h in
theorem reset : Rule.reset.Yields fun command ↦ AllGrouped command.nodes :=
  .bind_any fun _ ↦ .bind_any fun _ ↦
    .ite (.pure .nil) (.bind_any fun _ ↦ .pure .nil)

omit h in
theorem discard : Rule.discard.Yields fun command ↦ AllGrouped command.nodes := by
  refine .bind_any fun _ ↦ .bind_any fun token ↦ ?_
  split
  · exact .bind_any fun _ ↦ .pure .nil
  · exact .fail

omit h in
/-- What is shown has at most a table. -/
theorem «show» : (Command.show <$> Rule.show).Yields fun command ↦ AllGrouped command.nodes := by
  refine (Yields.any Rule.show).map fun target _ ↦ ?_
  cases target with
  | createTable table => exact allGrouped_tables [table]
  | _ => exact .nil

/-- **Statements.** For each first keyword the law of its rule. -/
theorem command : (Rule.statement inner).Yields fun command ↦ AllGrouped command.nodes := by
  refine .bind_any fun token ↦ ?_
  split
  · exact h.query.map fun _ hquery ↦ hquery
  · exact h.insert.map fun _ hinsert ↦ .node trivial hinsert
  · exact h.update.map fun _ hupdate ↦ hupdate
  · exact h.delete.map fun _ hdelete ↦ hdelete
  · exact h.createTable.map fun _ hcreate ↦ hcreate
  · exact dropTable
  · exact h.explain
  · exact «show»
  · exact h.set
  · exact discard
  · exact refresh
  · exact h.optimize
  · exact reset
  · exact .bind_any fun _ ↦ .bind_any fun _ ↦ .pure .nil
  · exact .bind_any fun _ ↦ .bind_any fun _ ↦ .pure .nil
  · exact .bind_any fun _ ↦ .bind_any fun _ ↦ .pure .nil
  · exact .bind_any fun _ ↦ .bind_any fun _ ↦ .pure .nil
  · exact h.kill
  · exact .bind_any fun _ ↦ .pure .nil
  · exact .bind_any fun _ ↦ .bind_any fun _ ↦ .bind_any fun _ ↦ .pure .nil
  · exact .bind_any fun _ ↦ .bind_any fun _ ↦ .pure .nil
  · exact .bind_any fun _ ↦ .ite .fail .fail

/-! ### The whole grammar -/

/-- **One level**, from the level inside. -/
theorem around : inner.around.Groups where
  statement := h.command
  query := h.select
  fromItem := h.source
  read _ _ _ _ hrun := h.read_expressionFrom hrun
  objectType := h.object
  elementType := .parenthesized h.dataType

omit h in
/-- With no level left, nothing is read. -/
theorem exhausted : Nested.exhausted.Groups where
  statement := .fail
  query := .fail
  fromItem := .fail
  read _ _ _ _ hrun := nomatch hrun
  objectType := .fail
  elementType := .fail

omit h in
/-- **All levels.** By induction on the levels that are left. -/
theorem ofAllowance (allowance : Nat) : (Nested.ofAllowance allowance).Groups := by
  induction allowance with
  | zero => exact exhausted
  | succ allowance ih => exact ih.around

end Nested.Groups

/-- The trees that a request is answered with are grouped, however many levels are left. -/
theorem Request.yields_allGrouped (request : Request) (allowance : Nat) :
    (request.ruleWithin allowance).Yields fun tree ↦ AllGrouped tree.nodes := by
  have hstatement : (Rule.statementWithin allowance).Yields fun tree ↦ AllGrouped tree.nodes :=
    (Nested.Groups.ofAllowance allowance).command
  cases request with
  | statement => exact hstatement
  | terminated =>
    refine hstatement.bind fun tree htree ↦ .bind_any fun token ↦ .ite (.pure htree) ?_
    exact .bind_any fun _ ↦ .pure htree

/-- **Expressions are grouped by precedence.** In every tree that is read from any place of any list
of tokens, with or without an end behind it, the operands of every expression are grouped as the
levels of the operators say. -/
theorem isGrouped_of_parse {request : Request} {tokens : List Token} {start : Nat} {tree : Command}
    (h : (request.rule.parse (.ofTokens tokens start)).1 = .ok tree) {expr : Expr}
    (hexpr : .expr expr ∈ tree.nodes) : expr.IsGrouped := by
  rw [Request.parse_ofTokens, Rule.parse] at h
  split at h
  · rename_i tree' after hrun
    obtain rfl := Except.ok.inj h
    exact request.yields_allGrouped _ hrun _ hexpr
  · cases h

/-- Whether the node is the difference of two operands. -/
def Node.isDifference : Node → Bool
  | .expr (.binary .sub _ _) => true
  | _ => false

/-- What the test finds is a difference of two operands. -/
theorem Node.exists_of_isDifference {node : Node} (h : node.isDifference) :
    ∃ left right, node = .expr (.binary .sub left right) := by
  unfold isDifference at h
  split at h
  · exact ⟨_, _, rfl⟩
  · cases h

/-- A difference whose right operand is a product, behind a `NOT`. -/
theorem isGrouped_of_parse_select : ∃ tree left right,
    (Request.terminated.rule.parse (.ofTokens (tokenize "SELECT NOT a - b * c[1]") 0)).1 =
      .ok tree ∧ .expr (.binary .sub left right) ∈ tree.nodes ∧
      (Expr.binary .sub left right).IsGrouped := by
  have hread : (Request.terminated.rule.parse
      (.ofTokens (tokenize "SELECT NOT a - b * c[1]") 0)).1.toOption.any fun tree ↦
        tree.nodes.any Node.isDifference := by
    decide +kernel
  cases htree : (Request.terminated.rule.parse
      (.ofTokens (tokenize "SELECT NOT a - b * c[1]") 0)).1 with
  | error => simp [htree, Except.toOption] at hread
  | ok tree =>
    rw [htree] at hread
    obtain ⟨node, hnode, hdifference⟩ := List.any_eq_true.1 hread
    obtain ⟨left, right, rfl⟩ := Node.exists_of_isDifference hdifference
    exact ⟨tree, left, right, rfl, hnode, isGrouped_of_parse htree hnode⟩

end SqlBatch
