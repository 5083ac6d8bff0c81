import SqlBatch.Proofs.Assembly.Expression
import SqlBatch.Proofs.ParseBatch
import SqlBatch.Proofs.Progress

/-!
# How statements are put together

From `FROM` items to whole statements, from one level of nesting to all of them, and from what is
read of the tokens to the statements of a batch.

## From a level to the batch

The levels are counted down by an allowance; for each number of levels the shape is one of a family,
and each member is made of the one before (`ofAllowance`). Since the grammar that is run agrees with
the one for its full allowance, the statements of a batch have the shape of that
(`forall_tree_of_yieldsOn`).
-/

namespace SqlBatch

/-- What holds of the columns among the elements of a table definition. -/
theorem TableElement.forall_columnDefs {P : ColumnDef → Prop} {elements : List TableElement}
    (h : ∀ element ∈ elements, ∀ column, element = .column column → P column) :
    ∀ column ∈ columnDefs elements, P column := by
  induction elements with
  | nil => exact nofun
  | cons element elements ih =>
    obtain ⟨helement, helements⟩ := List.forall_mem_cons.1 h
    rcases element with definition | _
    · exact List.forall_mem_cons.2 ⟨helement _ rfl, ih helements⟩
    · exact ih helements

namespace Nested.Reads

open Rule

variable {T : Token → Prop} {inner : Nested} {I O : Shape}

/-! ### From items -/

/-- The item is a plain table, perhaps under another name. -/
theorem tableItem :
    Rule.tableItem.YieldsOn T fun item ↦ ∃ table alias?, item = .table table alias? :=
  .bind_any fun table ↦ .bind_any fun alias? ↦ .pure ⟨table, alias?, rfl⟩

/-- A list of names is not empty. -/
theorem identifiers :
    Rule.identifiers.YieldsOn T (· ≠ []) :=
  (YieldsOn.commaSeparated (.any _)).mono fun _ hnames ↦ hnames.1

variable (h : inner.Reads T I)

include h

/-- A table, a subquery, or an item in parentheses. -/
theorem fromPrimary : (Rule.fromPrimary inner).YieldsOn T (FromItem.Made I O) := by
  refine .bind_any fun _ ↦ .ite (.bind_any fun _ ↦ .ite ?_ ?_) ?_
  · exact h.query.bind fun query hquery ↦ .bind_any fun _ ↦ .bind_any fun _ ↦
      .pure (.subquery hquery)
  · exact h.fromItem.bind fun item hitem ↦ .bind_any fun _ ↦ .pure (.paren hitem)
  · refine tableItem.mono ?_
    rintro _ ⟨table, alias?, rfl⟩
    exact .table table alias?

/-- Tables that are not crossed are joined by a condition. -/
theorem joinCondition {left : FromItem} (hleft : O.source left) {kind : JoinKind}
    (hkind : kind ≠ .cross) (table : TableName) (alias? : Option String) :
    (Rule.joinCondition inner).YieldsOn T fun condition ↦
      (FromItem.join left kind (.table table alias?) condition).Made I O := by
  refine .bind_any fun _ ↦ .ite ?_ (.bind_any fun _ ↦ .ite ?_ .fail)
  · exact h.expression.bind fun condition hcondition ↦ .pure (.on hleft hkind hcondition)
  · exact identifiers.parenthesized.bind fun columns hcolumns ↦
      .pure (.using hleft hkind hcolumns)

/-- One more table to the right of what was read. -/
theorem join {left : FromItem} (hleft : O.source left) :
    (Rule.join inner left).YieldsOn T fun item? ↦ ∀ item ∈ item?, item.Made I O := by
  have joined {item : FromItem} (hitem : item.Made I O) :
      (pure (some item) : Rule (Option FromItem)).YieldsOn T
        fun item? ↦ ∀ item ∈ item?, item.Made I O :=
    .pure fun _ hsome ↦ Option.some.inj hsome ▸ hitem
  refine .bind_any fun _ ↦ .ite ?_ (.bind_any fun kind? ↦ ?_)
  · refine tableItem.bind ?_
    rintro _ ⟨table, alias?, rfl⟩
    exact joined (.cross hleft)
  · rcases kind? with _ | kind
    · exact .pure nofun
    · refine tableItem.bind ?_
      rintro _ ⟨table, alias?, rfl⟩
      dsimp only
      split
      · rename_i hcross
        obtain rfl := hcross
        exact joined (.cross hleft)
      · exact (h.joinCondition hleft ‹_› table alias?).bind fun _ hmade ↦ joined hmade

/-- Items joined from left to right. -/
theorem source (hO : I.Closed T O) : (Rule.fromItem inner).YieldsOn T O.source := by
  have onward (left : FromItem) (hleft : O.source left) :
      (Rule.join inner left).YieldsOn T fun item? ↦ ∀ item ∈ item?, O.source item :=
    (h.join hleft).mono fun _ hmade item hitem ↦ hO.source item (hmade item hitem)
  exact (h.fromPrimary.mono hO.source).bind fun _ hitem ↦ .iterate hitem onward

/-! ### Queries -/

theorem selectItem : (Rule.selectItem inner).YieldsOn T fun item ↦ I.expr item.expr :=
  h.expression.bind fun _ hexpr ↦ .bind_any fun _ ↦ .pure hexpr

omit h in
/-- The end of an order item. -/
theorem ordered {expr : Expr} (hexpr : I.expr expr) (descending : Bool) :
    (Rule.ordered expr descending).YieldsOn T fun item ↦ I.expr item.expr :=
  .bind_any fun _ ↦ .pure hexpr

/-- What a query is ordered by. -/
theorem orderItem : (Rule.orderItem inner).YieldsOn T fun item ↦ I.expr item.expr :=
  h.expression.bind fun _ hexpr ↦ .bind_any fun descending ↦
    .ite (ordered hexpr descending) (.bind_any fun _ ↦ ordered hexpr descending)

/-- A further query behind a set operation. -/
theorem combined (op : SetOp) (all : Bool) :
    (Rule.combined inner op all).YieldsOn T fun compound? ↦
      ∀ compound ∈ compound?, I.query compound.right :=
  h.query.bind fun _ hright ↦ .pure fun _ hcompound ↦ Option.some.inj hcompound ▸ hright

/-- A set operation and its query, or none. -/
theorem compound : (Rule.compound inner).YieldsOn T fun compound? ↦
    ∀ compound ∈ compound?, I.query compound.right := by
  refine .bind_any fun token ↦ ?_
  split
  · exact .pure nofun
  · rename_i op _
    exact .bind_any fun _ ↦ .bind_any fun all ↦
      .ite (h.combined op all) (.bind_any fun _ ↦ h.combined op all)

theorem queryBody (hO : I.Closed T O) (distinct : Bool) :
    (Rule.queryBody inner distinct).YieldsOn T (Query.Made I O) := by
  refine (YieldsOn.commaSeparated h.selectItem).bind fun items hitems ↦ ?_
  refine (YieldsOn.clause .FROM (h.source hO)).bind fun source hsource ↦ ?_
  refine (YieldsOn.clause .WHERE h.expression).bind fun filter hfilter ↦ ?_
  have grouped := h.expressions.mono fun _ hexprs ↦ hexprs.2
  refine (YieldsOn.listClause .GROUP (.bind_any fun _ ↦ grouped)).bind fun grouping hgrouping ↦ ?_
  refine (YieldsOn.clause .HAVING h.expression).bind fun having hhaving ↦ ?_
  refine h.compound.bind fun compound? hcompound ↦ ?_
  rcases compound? with _ | compound
  · have ordered := (YieldsOn.commaSeparated h.orderItem).mono fun _ hordering ↦ hordering.2
    refine (YieldsOn.listClause .ORDER (.bind_any fun _ ↦ ordered)).bind
      fun ordering hordering ↦ ?_
    refine (YieldsOn.clause .LIMIT h.expression).bind fun limit hlimit ↦ ?_
    refine (YieldsOn.clause .OFFSET h.expression).bind fun offset hoffset ↦ .pure ?_
    exact ⟨hitems.1, hitems.2, hsource, hfilter, hgrouping, hhaving, nofun, hordering, hlimit,
      hoffset⟩
  · have hlast : ∀ c ∈ some compound, I.query c.right ∧ ([] : List OrderItem) = [] ∧
        (none : Option Expr) = none ∧ (none : Option Expr) = none :=
      fun c hc ↦ ⟨hcompound c hc, rfl, rfl, rfl⟩
    exact .pure ⟨hitems.1, hitems.2, hsource, hfilter, hgrouping, hhaving, hlast, nofun, nofun,
      nofun⟩

/-- **Queries.** -/
theorem select (hO : I.Closed T O) : (Rule.query inner).YieldsOn T O.query := by
  have body (distinct : Bool) : (Rule.queryBody inner distinct).YieldsOn T O.query :=
    (h.queryBody hO distinct).mono hO.query
  exact .bind_any fun _ ↦ .bind_any fun distinct ↦
    .ite (body distinct) (.bind_any fun _ ↦ body distinct)

/-! ### Statements -/

/-- The rows to insert, at least one and none of them empty, or a query. -/
theorem insertSource : (Rule.insertSource inner).YieldsOn T (InsertSource.Made I) := by
  refine .bind_any fun token ↦ ?_
  split
  · have rows := YieldsOn.commaSeparated (YieldsOn.parenthesized h.expressions)
    exact .bind_any fun _ ↦ rows.bind fun rows hrows ↦ .pure (.rows hrows.1 hrows.2)
  · exact h.query.bind fun query hquery ↦ .pure (.query hquery)
  · exact .bind_any fun _ ↦ .bind_any fun _ ↦ .pure .defaults
  · exact .fail

/-- The end of an `INSERT`. -/
theorem inserted (table : TableName) (columns : List String) :
    (Rule.inserted inner table columns).YieldsOn T
      fun insert ↦ (Command.insert insert).Made I O :=
  h.insertSource.bind fun _ hsource ↦ .pure (.insert hsource)

theorem insert :
    (Rule.insert inner).YieldsOn T fun insert ↦ (Command.insert insert).Made I O :=
  .bind_any fun _ ↦ .bind_any fun _ ↦ .bind_any fun table ↦ .bind_any fun _ ↦
    .ite (.bind_any (h.inserted table)) (h.inserted table [])

theorem assignment : (Rule.assignment inner).YieldsOn T fun assignment ↦
    I.expr assignment.value :=
  .bind_any fun _ ↦ .bind_any fun _ ↦ h.expression.bind fun _ hvalue ↦ .pure hvalue

/-- `UPDATE`, with at least one assignment. -/
theorem update (hO : I.Closed T O) :
    (Rule.update inner).YieldsOn T fun update ↦ (Command.update update).Made I O := by
  refine .bind_any fun _ ↦ .bind_any fun table ↦ .bind_any fun alias? ↦ .bind_any fun _ ↦ ?_
  refine (YieldsOn.commaSeparated h.assignment).bind fun assignments hassignments ↦ ?_
  refine (YieldsOn.clause .FROM (h.source hO)).bind fun source hsource ↦ ?_
  refine (YieldsOn.clause .WHERE h.expression).bind fun filter hfilter ↦ .pure ?_
  exact .update hassignments.1 hassignments.2 hsource hfilter

theorem delete :
    (Rule.delete inner).YieldsOn T fun delete ↦ (Command.delete delete).Made I O := by
  refine .bind_any fun _ ↦ .bind_any fun _ ↦ .bind_any fun table ↦ .bind_any fun alias? ↦ ?_
  exact (YieldsOn.clause .WHERE h.expression).bind fun filter hfilter ↦ .pure (.delete hfilter)

theorem property : (Rule.property inner).YieldsOn T fun property ↦ I.expr property.value :=
  .bind_any fun _ ↦ .bind_any fun _ ↦ h.expression.bind fun _ hvalue ↦ .pure hvalue

theorem properties : (Rule.properties inner).YieldsOn T fun properties ↦
    ∀ property ∈ properties, I.expr property.value :=
  .listClause .WITH (.parenthesized ((YieldsOn.commaSeparated h.property).mono fun _ hlist ↦
    hlist.2))

/-- A column of a table, or its primary key. -/
theorem tableElement (hO : I.Closed T O) : (Rule.tableElement inner).YieldsOn T fun element ↦
    ∀ column, element = .column column → O.column column := by
  refine .bind_any fun _ ↦ .ite ?_ ?_
  · exact .bind_any fun _ ↦ .bind_any fun _ ↦ .pure nofun
  · exact (h.columnDef hO).bind fun definition hdefinition ↦ .pure fun column hcolumn ↦
      TableElement.column.inj hcolumn ▸ hdefinition

/-- The table behind `CREATE TABLE`. -/
theorem tableDefinition (hO : I.Closed T O) (ifNotExists : Bool) :
    (Rule.tableDefinition inner ifNotExists).YieldsOn T
      fun create ↦ (Command.createTable create).Made I O := by
  have elements := YieldsOn.parenthesized (.commaSeparated (h.tableElement hO))
  refine .bind_any fun table ↦ elements.bind fun elements helements ↦ ?_
  refine h.properties.bind fun properties hproperties ↦ .pure ?_
  exact .createTable (TableElement.forall_columnDefs helements.2) hproperties

theorem createTable (hO : I.Closed T O) :
    (Rule.createTable inner).YieldsOn T fun create ↦ (Command.createTable create).Made I O := by
  refine .bind_any fun _ ↦ .bind_any fun _ ↦ .bind_any fun ifNotExists ↦ .ite ?_ ?_
  · exact .bind_any fun _ ↦ .bind_any fun _ ↦ h.tableDefinition hO ifNotExists
  · exact h.tableDefinition hO ifNotExists

omit h in
theorem dropped (ifExists : Bool) : (Rule.dropped ifExists).YieldsOn T (Command.Made I O) :=
  .bind_any fun _ ↦ .pure (.plain trivial)

omit h in
theorem dropTable : Rule.dropTable.YieldsOn T (Command.Made I O) :=
  .bind_any fun _ ↦ .bind_any fun _ ↦ .bind_any fun ifExists ↦
    .ite (.bind_any fun _ ↦ dropped ifExists) (dropped ifExists)

omit h in
/-- A list of tables is not empty. -/
theorem tables : (commaSeparated Rule.tableName).YieldsOn T (· ≠ []) :=
  (YieldsOn.commaSeparated (.any _)).mono fun _ htables ↦ htables.1

omit h in
theorem refresh : Rule.refresh.YieldsOn T (Command.Made I O) :=
  .bind_any fun _ ↦ .bind_any fun _ ↦ tables.bind fun _ htables ↦ .pure (.refresh htables)

/-- `OPTIMIZE TABLE`, with properties. -/
theorem optimize : (Rule.optimize inner).YieldsOn T (Command.Made I O) := by
  refine .bind_any fun _ ↦ .bind_any fun _ ↦ tables.bind fun tables htables ↦ ?_
  exact h.properties.bind fun properties hproperties ↦ .pure (.optimize htables hproperties)

theorem explaining (analyze : Bool) :
    (Rule.explaining inner analyze).YieldsOn T (Command.Made I O) :=
  h.statement.bind fun _ hcommand ↦ .pure (.explain hcommand)

/-- `EXPLAIN`, over a statement of the level inside. -/
theorem explain : (Rule.explain inner).YieldsOn T (Command.Made I O) :=
  .bind_any fun _ ↦ .bind_any fun _ ↦ .bind_any fun _ ↦
    .ite (.bind_any fun _ ↦ h.explaining _) (h.explaining _)

theorem settingValue (scope : SettingScope) (name : String) :
    (Rule.settingValue inner scope name).YieldsOn T (Command.Made I O) := by
  refine .bind_any fun _ ↦ .ite (.pure (.plain trivial)) ?_
  exact h.expressions.bind fun exprs hexprs ↦ .pure (.set hexprs.1 hexprs.2)

theorem set : (Rule.set inner).YieldsOn T (Command.Made I O) := by
  refine .bind_any fun _ ↦ .bind_any fun scope ↦ .bind_any fun name ↦ .bind_any fun _ ↦ ?_
  have value : (Rule.settingValue inner scope name).YieldsOn T (Command.Made I O) :=
    h.settingValue scope name
  exact .ite value (.bind_any fun _ ↦ .ite value (.bind_any fun _ ↦ value))

omit h in
theorem reset : Rule.reset.YieldsOn T (Command.Made I O) :=
  .bind_any fun _ ↦ .bind_any fun _ ↦
    .ite (.pure (.plain trivial)) (.bind_any fun _ ↦ .pure (.plain trivial))

omit h in
theorem discard : Rule.discard.YieldsOn T (Command.Made I O) := by
  refine .bind_any fun _ ↦ .bind_any fun token ↦ ?_
  split
  · exact .bind_any fun _ ↦ .pure (.plain trivial)
  · exact .fail

/-- `KILL`, with or without an expression. -/
theorem kill : (Rule.kill inner).YieldsOn T (Command.Made I O) := by
  refine .bind_any fun _ ↦ .bind_any fun _ ↦ .ite (.pure (.plain trivial)) ?_
  exact h.expression.bind fun job hjob ↦ .pure (.kill hjob)

theorem made_statement (hO : I.Closed T O) :
    (Rule.statement inner).YieldsOn T (Command.Made I O) := by
  refine .bind_any fun token ↦ ?_
  split
  · exact h.query.map fun _ hquery ↦ .select hquery
  · exact h.insert.map fun _ hinsert ↦ hinsert
  · exact (h.update hO).map fun _ hupdate ↦ hupdate
  · exact h.delete.map fun _ hdelete ↦ hdelete
  · exact (h.createTable hO).map fun _ hcreate ↦ hcreate
  · exact dropTable
  · exact h.explain
  · exact (YieldsOn.any _).map fun _ _ ↦ .plain trivial
  · exact h.set
  · exact discard
  · exact refresh
  · exact h.optimize
  · exact reset
  · exact .bind_any fun _ ↦ .bind_any fun _ ↦ .pure (.plain trivial)
  · exact .bind_any fun _ ↦ .bind_any fun _ ↦ .pure (.plain trivial)
  · exact .bind_any fun _ ↦ .bind_any fun _ ↦ .pure (.plain trivial)
  · exact .bind_any fun _ ↦ .bind_any fun _ ↦ .pure (.plain trivial)
  · exact h.kill
  · exact .bind_any fun _ ↦ .pure (.plain trivial)
  · exact .bind_any fun _ ↦ .bind_any fun _ ↦ .bind_any fun _ ↦ .pure (.plain trivial)
  · exact .bind_any fun _ ↦ .bind_any fun _ ↦ .pure (.plain trivial)
  · exact .bind_any fun _ ↦ .ite .fail .fail

/-! ### The whole grammar -/

/-- **Statements.** -/
theorem command (hO : I.Closed T O) : (Rule.statement inner).YieldsOn T O.command :=
  (h.made_statement hO).mono hO.command

/-- **One level of nesting.** A level reads trees of the shape that is made of the trees inside. -/
theorem around (hO : I.Closed T O) : inner.around.Reads T O where
  statement := h.command hO
  query := h.select hO
  fromItem := h.source hO
  expressionFrom power := h.expressionOf hO power
  objectType := h.object hO
  elementType := h.element hO

omit h in
/-- Where each level makes the trees of its own shape, every level reads trees of its shape. -/
theorem ofAllowance {S : Nat → Shape} (hS : ∀ n, (S n).Closed T (S (n + 1))) (allowance : Nat) :
    (Nested.ofAllowance allowance).Reads T (S allowance) := by
  induction allowance with
  | zero => exact exhausted (S 0)
  | succ allowance ih => exact ih.around (hS allowance)

end Nested.Reads

/-- **All levels of nesting.** What answers a request is of the shape of the outermost level. -/
theorem Request.yieldsOn_ruleWithin {T : Token → Prop} {S : Nat → Shape}
    (hS : ∀ n, (S n).Closed T (S (n + 1))) (request : Request) (allowance : Nat) :
    (request.ruleWithin allowance).YieldsOn T (S (allowance + 1)).command := by
  have hstatement : (Rule.statementWithin allowance).YieldsOn T (S (allowance + 1)).command :=
    (Nested.Reads.ofAllowance hS allowance).command (hS allowance)
  rcases request with _ | _
  · exact hstatement
  · refine hstatement.bind fun tree htree ↦ .bind_any fun token ↦ .ite (.pure htree) ?_
    exact .bind_any fun _ ↦ .pure htree

/-! ### Batches -/

/-- What the tree of a statement of a batch is, from what its tokens are. -/
theorem forall_tree_of_yieldsOn {T : Token → Prop} {P : Command → Prop}
    (hrule : Rule.terminatedStatement.YieldsOn T P) {source : String}
    (hT : ∀ t ∈ tokenize source, T t) {raise : Bool} {statements : List Statement}
    (h : parseBatch source raise = .ok statements) :
    ∀ s ∈ statements, ∀ tree, s.tree? = some tree → P tree := by
  intro s hs tree htree
  obtain ⟨batch, hopen, hclosed, -⟩ | ⟨_, _, hviolation⟩ := Batch.open?_cases .crateDb source
  case inr => cases (open?_crateDb source).symm.trans hviolation
  obtain rfl := Except.ok.inj ((open?_crateDb source).symm.trans hopen)
  obtain ⟨calls, hrun⟩ := hclosed.exists_run raise hclosed.length_pos
  rw [parseBatch, Configuration.parse, open?_crateDb] at h
  obtain ⟨i, -, hanswers⟩ := hrun.exists_answers_of_mem hclosed h hs
  have hattempt : (parseFrom (tokenize source) i).tree = some tree := (hanswers.tree tree htree).2
  rw [parseFrom_eq] at hattempt
  split at hattempt
  · rename_i tree' after hparse
    obtain rfl := Option.some.inj hattempt
    exact hrule.of_parse hT (congrArg Prod.fst hparse)
  · cases hattempt

end SqlBatch
