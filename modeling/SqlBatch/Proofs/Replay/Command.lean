import SqlBatch.Proofs.Allowance
import SqlBatch.Proofs.Replay.Query

/-!
# Statements replay

The whole grammar replays: level by level, and with fewer levels at hand in the first reading than
in the second wherever failing for want of levels is exempt.

The first keyword of a statement is the same in both lists, so both readings are made by the same
rule. Most of the statements about the session have no labels, and their rules replay with nothing
to change.

## All levels

One level of nesting is read by rules that replay where those of the level inside do
(`Inside.around`). The induction from there is made twice: with as many levels in both readings
(`Inside.ofAllowance`), and with fewer in the first one (`Inside.ofAllowance_of_le`), which rests on
what happens where the first reading has none left (`Inside.exhausted`).
-/

namespace SqlBatch

namespace Replay

variable {R : Replay} {inner inner' : Nested}

namespace Replays

/-! ### Changing rows -/

/-- Rows, a query or defaults, told apart by a keyword. -/
theorem insertSource (h : R.Inside inner inner') :
    R.Replays (InsertSource.relabel R.labels) (.insertSource inner) (.insertSource inner') := by
  refine bind_current fun t u htu ↦ ?_
  rw [htu.keyword?]
  split
  · refine advance.bind_id fun _ ↦ (commaSeparated (parenthesized h.expressions)).bind fun rows ↦ ?_
    exact .pure_of_eq (by simp [InsertSource.relabel])
  · exact h.query.bind fun query ↦ .pure (InsertSource.query query)
  · exact advance.bind_id fun _ ↦ (keyword .VALUES).bind_id fun _ ↦ .pure InsertSource.defaults
  · exact .fail trivial

/-- The table and its columns have been read. -/
theorem inserted (h : R.Inside inner inner') (table : TableName) (columns : List String) :
    R.Replays (fun i ↦ { i with source := i.source.relabel R.labels })
      (.inserted inner table columns) (.inserted inner' table columns) :=
  (insertSource h).bind fun source ↦ .pure (Insert.mk table columns source)

/-- Only what is put in has labels. -/
theorem insert (h : R.Inside inner inner') :
    R.Replays (fun i ↦ { i with source := i.source.relabel R.labels }) (.insert inner)
      (.insert inner') := by
  refine (keyword .INSERT).bind_id fun _ ↦ (keyword .INTO).bind_id fun _ ↦ ?_
  refine tableName.bind_id fun table ↦ (sees (by decide)).bind_id fun _ ↦ ?_
  exact .ite ((parenthesized identifiers).bind_id (inserted h table)) (inserted h table [])

theorem assignment (h : R.Inside inner inner') :
    R.Replays (Assignment.relabel R.labels) (.assignment inner) (.assignment inner') := by
  refine identifier.bind_id fun column ↦ (symbol (by decide)).bind_id fun _ ↦ ?_
  exact h.expression.bind fun value ↦ .pure (Assignment.mk column value)

/-- The values of the assignments, the `FROM` item and the condition have labels. -/
theorem update (h : R.Inside inner inner') :
    R.Replays
      (fun u ↦ { u with
        assignments := u.assignments.map (·.relabel R.labels)
        source := relabelFrom? R.labels u.source
        filter := relabelExpr? R.labels u.filter })
      (.update inner) (.update inner') := by
  refine (keyword .UPDATE).bind_id fun _ ↦ tableName.bind_id fun table ↦ ?_
  refine alias?.bind_id fun alias? ↦ (keyword .SET).bind_id fun _ ↦ ?_
  refine (commaSeparated (assignment h)).bind fun assignments ↦ ?_
  refine (clause .FROM (fromItem h)).bind fun source ↦ ?_
  exact (clause .WHERE h.expression).bind fun filter ↦ .pure_of_eq (by simp)

/-- The condition has labels. -/
theorem delete (h : R.Inside inner inner') :
    R.Replays (fun d ↦ { d with filter := relabelExpr? R.labels d.filter }) (.delete inner)
      (.delete inner') := by
  refine (keyword .DELETE).bind_id fun _ ↦ (keyword .FROM).bind_id fun _ ↦ ?_
  refine tableName.bind_id fun table ↦ alias?.bind_id fun alias? ↦ ?_
  exact (clause .WHERE h.expression).bind fun filter ↦ .pure_of_eq (by simp)

/-! ### Tables -/

theorem property (h : R.Inside inner inner') :
    R.Replays (Property.relabel R.labels) (.property inner) (.property inner') := by
  refine dottedName.bind_id fun name ↦ (symbol (by decide)).bind_id fun _ ↦ ?_
  exact h.expression.bind fun value ↦ .pure (Property.mk name value)

/-- The values of properties, one by one. -/
theorem properties (h : R.Inside inner inner') :
    R.Replays (List.map (Property.relabel R.labels)) (.properties inner) (.properties inner') :=
  listClause .WITH (parenthesized (commaSeparated (property h)))

/-- The element of a table definition with its labels changed. -/
def relabelElement (f : Relabeling) : TableElement → TableElement
  | .column definition => .column (definition.relabel f)
  | .primaryKey columns => .primaryKey columns

/-- Changing the labels of elements is changing those of the columns among them. -/
theorem columnDefs_map (f : Relabeling) (elements : List TableElement) :
    TableElement.columnDefs (elements.map (relabelElement f)) =
      (TableElement.columnDefs elements).map (·.relabel f) := by
  induction elements with
  | nil => rfl
  | cons element elements ih => cases element <;> simp [relabelElement, TableElement.columnDefs, ih]

/-- The primary key of a table has no labels. -/
theorem lastPrimaryKey_map (f : Relabeling) (key : List String) (elements : List TableElement) :
    TableElement.lastPrimaryKey key (elements.map (relabelElement f)) =
      TableElement.lastPrimaryKey key elements := by
  induction elements generalizing key with
  | nil => rfl
  | cons element elements ih => cases element <;> exact ih _

/-- The column that an element is, if it is one. -/
theorem tableElement (h : R.Inside inner inner') :
    R.Replays (relabelElement R.labels) (.tableElement inner) (.tableElement inner') := by
  refine (acceptKeyword .PRIMARY).bind_id fun _ ↦ .ite ?_ ?_
  · refine (keyword .KEY).bind_id fun _ ↦ (parenthesized identifiers).bind_id fun columns ↦ ?_
    exact .pure (TableElement.primaryKey columns)
  · exact (columnDef h).bind fun definition ↦ .pure (TableElement.column definition)

/-- The columns and the values of the properties have labels. -/
theorem tableDefinition (h : R.Inside inner inner') (ifNotExists : Bool) :
    R.Replays
      (fun c ↦ { c with
        columns := relabelColumns R.labels c.columns
        properties := c.properties.map (·.relabel R.labels) })
      (.tableDefinition inner ifNotExists) (.tableDefinition inner' ifNotExists) := by
  refine tableName.bind_id fun table ↦ ?_
  refine (parenthesized (commaSeparated (tableElement h))).bind fun elements ↦ ?_
  refine (properties h).bind fun properties ↦ .pure_of_eq ?_
  simp [columnDefs_map, lastPrimaryKey_map]

/-- `IF NOT EXISTS` is there in both lists or in neither. -/
theorem createTable (h : R.Inside inner inner') :
    R.Replays
      (fun c ↦ { c with
        columns := relabelColumns R.labels c.columns
        properties := c.properties.map (·.relabel R.labels) })
      (.createTable inner) (.createTable inner') := by
  refine (keyword .CREATE).bind_id fun _ ↦ (keyword .TABLE).bind_id fun _ ↦ ?_
  refine (acceptKeyword .IF).bind_id fun ifNotExists ↦ .ite ?_ (tableDefinition h ifNotExists)
  exact (keyword .NOT).bind_id fun _ ↦ (keyword .EXISTS).bind_id fun _ ↦
    tableDefinition h ifNotExists

/-- The table that is dropped has no label. -/
theorem dropped (ifExists : Bool) :
    R.Replays (Command.relabel R.labels) (.dropped ifExists) (.dropped ifExists) :=
  tableName.bind_id fun table ↦ .pure (Command.dropTable ifExists table)

/-- `IF EXISTS` is there in both lists or in neither. -/
theorem dropTable : R.Replays (Command.relabel R.labels) .dropTable .dropTable := by
  refine (keyword .DROP).bind_id fun _ ↦ (keyword .TABLE).bind_id fun _ ↦ ?_
  refine (acceptKeyword .IF).bind_id fun ifExists ↦ .ite ?_ (dropped ifExists)
  exact (keyword .EXISTS).bind_id fun _ ↦ dropped ifExists

theorem refresh : R.Replays (Command.relabel R.labels) .refresh .refresh := by
  refine (keyword .REFRESH).bind_id fun _ ↦ (keyword .TABLE).bind_id fun _ ↦ ?_
  exact tableNames.bind_id fun tables ↦ .pure (Command.refresh tables)

/-- The values of the properties have labels. -/
theorem optimize (h : R.Inside inner inner') :
    R.Replays (Command.relabel R.labels) (.optimize inner) (.optimize inner') := by
  refine (keyword .OPTIMIZE).bind_id fun _ ↦ (keyword .TABLE).bind_id fun _ ↦ ?_
  refine tableNames.bind_id fun tables ↦ (properties h).bind fun properties ↦ ?_
  exact .pure (Command.optimize tables properties)

/-! ### The session -/

/-- The statement that is explained. -/
theorem explaining (h : R.Inside inner inner') (analyze : Bool) :
    R.Replays (Command.relabel R.labels) (.explaining inner analyze)
      (.explaining inner' analyze) :=
  h.statement.bind fun command ↦ .pure (Command.explain analyze command)

/-- `ANALYZE` in front of a statement is found in both lists or in neither. -/
theorem explain (h : R.Inside inner inner') :
    R.Replays (Command.relabel R.labels) (.explain inner) (.explain inner') := by
  have choice : R.Replays (Command.relabel R.labels)
      (.lookahead .ANALYZE (·.startsStatement) (.explaining inner true) (.explaining inner false))
      (.lookahead .ANALYZE (·.startsStatement) (.explaining inner' true)
        (.explaining inner' false)) := by
    refine lookahead (fun _ _ htu ↦ htu.startsStatement) ?_ (explaining h true) (explaining h false)
    intro t ht
    rcases Token.endsStatement_iff.1 ht with ht | ht <;>
      simp [Token.startsStatement, Token.keyword?, ht]
  refine (keyword .EXPLAIN).bind_id fun _ c d hcd ↦ ?_
  have hchoice := choice hcd
  simp only [Rule.run_lookahead] at hchoice
  simp only [Rule.run_bind, Rule.run_current, Rule.run_following]
  revert hchoice
  generalize (c.current.isKeyword .ANALYZE && c.following.startsStatement) = analyzed
  generalize (d.current.isKeyword .ANALYZE && d.following.startsStatement) = analyzed'
  cases analyzed <;> cases analyzed' <;> exact id

/-- The schema has no label. -/
theorem shownTables (qualified : Bool) :
    R.Replays id (.shownTables qualified) (.shownTables qualified) :=
  .ite (identifier.bind_id fun _ ↦ .pure _) (.pure _)

/-- The word behind `SHOW` is the same in both lists, or no keyword in either. -/
theorem «show» : R.Replays id .show .show := by
  refine (keyword .SHOW).bind_id fun _ ↦ bind_current fun t u htu ↦ ?_
  rw [htu.keyword?]
  split
  · refine advance.bind_id fun _ ↦ (acceptKeyword .FROM).bind_id fun _ ↦ ?_
    exact .ite (shownTables true) ((acceptKeyword .IN).bind_id shownTables)
  · exact advance.bind_id fun _ ↦ .pure _
  · exact advance.bind_id fun _ ↦ (keyword .TABLE).bind_id fun _ ↦ tableName.bind_id fun _ ↦ .pure _
  · exact advance.bind_id fun _ ↦ .pure _
  · exact dottedName.bind_id fun _ ↦ .pure _

theorem settingScope : R.Replays id .settingScope .settingScope := by
  refine (acceptKeyword .LOCAL).bind_id fun _ ↦ .ite (.pure _) ?_
  exact (acceptKeyword .SESSION).bind_id fun _ ↦ .pure _

/-- The values of a setting have labels. -/
theorem settingValue (h : R.Inside inner inner') (scope : SettingScope) (name : String) :
    R.Replays (Command.relabel R.labels) (.settingValue inner scope name)
      (.settingValue inner' scope name) := by
  refine (acceptKeyword .DEFAULT).bind_id fun _ ↦ ?_
  refine .ite (.pure (Command.set scope name .default)) ?_
  refine h.expressions.bind fun exprs ↦ .pure_of_eq ?_
  simp [Command.relabel, SettingValue.relabel]

theorem set (h : R.Inside inner inner') :
    R.Replays (Command.relabel R.labels) (.set inner) (.set inner') := by
  refine (keyword .SET).bind_id fun _ ↦ settingScope.bind_id fun scope ↦ ?_
  refine dottedName.bind_id fun name ↦ (accept (by decide)).bind_id fun _ ↦ ?_
  have value : R.Replays (Command.relabel R.labels) (.settingValue inner scope name)
      (.settingValue inner' scope name) := settingValue h scope name
  exact .ite value ((acceptKeyword .TO).bind_id fun _ ↦
    .ite value (bind_id (fail (by trivial)) fun _ ↦ value))

/-- `ALL` or the name of a setting. -/
theorem reset : R.Replays (Command.relabel R.labels) .reset .reset := by
  refine (keyword .RESET).bind_id fun _ ↦ (acceptKeyword .ALL).bind_id fun _ ↦ ?_
  exact .ite (.pure (Command.reset none)) (dottedName.bind_id fun name ↦ .pure (Command.reset name))

/-- What is discarded is the same keyword in both lists. -/
theorem discard : R.Replays (Command.relabel R.labels) .discard .discard := by
  refine (keyword .DISCARD).bind_id fun _ ↦ bind_current fun t u htu ↦ ?_
  rw [htu.keyword?]
  split
  · exact advance.bind_id fun _ ↦ .pure (Command.discard _)
  · exact .fail trivial

theorem transactionWords : R.Replays id .transactionWords .transactionWords := by
  refine (acceptKeyword .WORK).bind_id fun _ ↦ .ite (.pure _) ?_
  exact (acceptKeyword .TRANSACTION).bind_id fun _ ↦ .pure _

theorem begin : R.Replays (Command.relabel R.labels) .begin .begin :=
  (keyword .BEGIN).bind_id fun _ ↦ transactionWords.bind_id fun _ ↦ .pure Command.begin

theorem startTransaction :
    R.Replays (Command.relabel R.labels) .startTransaction .startTransaction :=
  (keyword .START).bind_id fun _ ↦ (keyword .TRANSACTION).bind_id fun _ ↦ .pure Command.begin

theorem commit (first : Keyword) :
    R.Replays (Command.relabel R.labels) (.commit first) (.commit first) :=
  (keyword first).bind_id fun _ ↦ transactionWords.bind_id fun _ ↦ .pure Command.commit

/-- The expression for the job has labels. -/
theorem kill (h : R.Inside inner inner') :
    R.Replays (Command.relabel R.labels) (.kill inner) (.kill inner') := by
  refine (keyword .KILL).bind_id fun _ ↦ (acceptKeyword .ALL).bind_id fun _ ↦ ?_
  refine .ite (.pure (Command.kill none)) (h.expression.bind fun job ↦ ?_)
  exact .pure (Command.kill (some job))

theorem analyze : R.Replays (Command.relabel R.labels) .analyze .analyze :=
  (keyword .ANALYZE).bind_id fun _ ↦ .pure Command.analyze

/-- A string is the same in both lists. -/
theorem allOrName : R.Replays id .allOrName .allOrName := by
  refine (acceptKeyword .ALL).bind_id fun _ ↦ .ite (.pure _) (bind_current fun t u htu ↦ ?_)
  have named : R.Replays id (some <$> Rule.identifier) (some <$> Rule.identifier) :=
    identifier.map fun _ ↦ rfl
  rcases htu.eq_or_kind with rfl | ⟨ht, n, hu⟩ | ⟨ht | ht, hu | hu⟩
  · rw [token_kind]
    split
    · exact advance.bind_id fun _ ↦ .pure _
    · exact named
  all_goals
    simp only [ht, hu]
    exact named

theorem deallocate : R.Replays (Command.relabel R.labels) .deallocate .deallocate := by
  refine (keyword .DEALLOCATE).bind_id fun _ ↦ (acceptKeyword .PREPARE).bind_id fun _ ↦ ?_
  exact allOrName.bind_id fun name ↦ .pure (Command.deallocate name)

theorem close : R.Replays (Command.relabel R.labels) .close .close :=
  (keyword .CLOSE).bind_id fun _ ↦ allOrName.bind_id fun name ↦ .pure (Command.close name)

/-! ### Any statement -/

/-- Where no statement starts, none starts in the other list. -/
theorem noStatement : R.Replays (Command.relabel R.labels) .noStatement .noStatement := by
  refine bind_current fun t u htu ↦ ?_
  rw [htu.startsStatement]
  exact .ite (.fail trivial) (.fail trivial)

/-- **Statements.** The first keyword is the same, and so is the rule that it chooses. -/
theorem statement (h : R.Inside inner inner') :
    R.Replays (Command.relabel R.labels) (.statement inner) (.statement inner') := by
  refine bind_current fun t u htu ↦ ?_
  rw [htu.keyword?]
  split
  · exact h.query.map fun _ ↦ rfl
  · exact (insert h).map fun _ ↦ rfl
  · exact (update h).map fun _ ↦ rfl
  · exact (delete h).map fun _ ↦ rfl
  · exact (createTable h).map fun _ ↦ rfl
  · exact dropTable
  · exact explain h
  · exact «show».map fun _ ↦ rfl
  · exact set h
  · exact discard
  · exact refresh
  · exact optimize h
  · exact reset
  · exact begin
  · exact startTransaction
  · exact commit .COMMIT
  · exact commit .END
  · exact kill h
  · exact analyze
  · exact deallocate
  · exact close
  · exact noStatement

end Replays

/-! ### The whole grammar -/

/-- **One level**, from the level inside. -/
theorem Inside.around (h : R.Inside inner inner') : R.Inside inner.around inner'.around where
  statement := .statement h
  query := .query h
  fromItem := .fromItem h
  expressionFrom := .expressionFrom h
  objectType := .objectType h
  elementType := .elementType h

/-- Where there is no level left, failing for that reason is all that can happen. -/
theorem Inside.exhausted (h : R.exempts (.tooDeep Nested.maxDepth)) (inner : Nested) :
    R.Inside .exhausted inner where
  statement _ d hcd _ := .exempt h hcd (inner.statement.forward d)
  query _ d hcd _ := .exempt h hcd (inner.query.forward d)
  fromItem _ d hcd _ := .exempt h hcd (inner.fromItem.forward d)
  expressionFrom power _ d hcd _ := .exempt h hcd ((inner.expressionFrom power).forward d)
  objectType _ d hcd _ := .exempt h hcd (inner.objectType.forward d)
  elementType _ d hcd _ := .exempt h hcd (inner.elementType.forward d)

/-- **The grammar replays itself**, with as many levels of nesting. -/
theorem Inside.ofAllowance (allowance : Nat) :
    R.Inside (.ofAllowance allowance) (.ofAllowance allowance) := by
  induction allowance with
  | zero =>
    exact {
      statement := .fail trivial
      query := .fail trivial
      fromItem := .fail trivial
      expressionFrom := fun _ ↦ .fail trivial
      objectType := .fail trivial
      elementType := .fail trivial }
  | succ allowance ih => exact ih.around

/-- More levels of nesting change nothing that fewer have read. -/
theorem Inside.ofAllowance_of_le (h : R.exempts (.tooDeep Nested.maxDepth)) {fewer more : Nat}
    (hle : fewer ≤ more) : R.Inside (.ofAllowance fewer) (.ofAllowance more) := by
  induction fewer generalizing more with
  | zero => exact .exhausted h _
  | succ fewer ih =>
    obtain ⟨more, rfl⟩ : ∃ n, more = n + 1 := ⟨more - 1, by omega⟩
    exact (ih (Nat.le_of_succ_le_succ hle)).around

namespace Replays

/-- A statement, with as many levels in both readings. -/
theorem statementWithin (allowance : Nat) : R.Replays (Command.relabel R.labels)
    (.statementWithin allowance) (.statementWithin allowance) :=
  .statement (.ofAllowance allowance)

/-- The end of a statement is its end in both lists, whichever token it is. -/
theorem terminated {r s : Rule Command} (h : R.Replays (Command.relabel R.labels) r s) :
    R.Replays (Command.relabel R.labels) (.terminated r) (.terminated s) := by
  refine h.bind fun command ↦ bind_current fun t u htu ↦ ?_
  rw [htu.endsStatement]
  exact .ite (.pure command) (bind_id (fail (by trivial)) fun _ ↦ .pure command)

/-- A statement with its end, with all levels in both readings. -/
theorem terminatedStatement : R.Replays (Command.relabel R.labels)
    .terminatedStatement .terminatedStatement :=
  .terminated (.statementWithin Nested.maxDepth)

end Replays
end Replay
end SqlBatch
