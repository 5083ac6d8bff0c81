import SqlBatch.Grammar.Query

/-!
# Statements

One rule for each kind of statement. The first keyword of a statement decides which rule reads it,
and behind it every rule goes by the next token; only behind `EXPLAIN` two of them are looked at.

A rule keeps what it reads as it goes, and answers with it at the end. A statement that fails has no
tree, however much of it was read.

## Table definitions

The elements of a table definition are read as a list of columns and primary keys, in any order. The
definition takes the columns from the list and, of several primary keys, the last one
(`TableElement.lastPrimaryKey`).

## Where no statement starts

Some keywords may start a statement, but have no rule here. A statement that starts with one of
these fails for want of an alternative, and one that starts with anything else fails with the list
of the keywords that are expected (`noStatement`).
-/

namespace SqlBatch

/-- What `DISCARD` can drop, by keyword. -/
def DiscardTarget.ofKeyword? : Keyword → Option DiscardTarget
  | .ALL => some .all
  | .PLANS => some .plans
  | .SEQUENCES => some .sequences
  | .TEMP | .TEMPORARY => some .temporary
  | _ => none

/-- An element of a table definition: a column, or the primary key of the table. -/
inductive TableElement where
  | column (definition : ColumnDef)
  | primaryKey (columns : List String)

namespace TableElement

/-- The columns among the elements of a table definition. -/
def columnDefs : List TableElement → List ColumnDef
  | [] => []
  | .column definition :: elements => definition :: columnDefs elements
  | .primaryKey _ :: elements => columnDefs elements

/-- The primary key among the elements of a table definition: the last one given, and `key` if
there is none. -/
def lastPrimaryKey (key : List String) : List TableElement → List String
  | [] => key
  | .column _ :: elements => lastPrimaryKey key elements
  | .primaryKey columns :: elements => lastPrimaryKey columns elements

end TableElement

namespace Rule

/-! ### Changing rows -/

/-- What an `INSERT` puts into its table. -/
def insertSource (inner : Nested) : Rule InsertSource := do
  match (← current).keyword? with
  | some .VALUES =>
    advance
    return .rows (← commaSeparated (parenthesized inner.expressions))
  | some .SELECT => return .query (← inner.query)
  | some .DEFAULT =>
    advance
    keyword .VALUES
    return .defaults
  | _ => fail (.mismatched [Keyword.SELECT.quoted, Keyword.VALUES.quoted, Keyword.DEFAULT.quoted])

/-- An `INSERT` statement. -/
def insert (inner : Nested) : Rule Insert := do
  keyword .INSERT
  keyword .INTO
  let table ← tableName
  let columns ← if ← sees .leftParen then parenthesized identifiers else pure []
  return { table, columns, source := ← insertSource inner }

/-- An assignment of an `UPDATE`. -/
def assignment (inner : Nested) : Rule Assignment := do
  let column ← identifier
  symbol .eq
  return { column, value := ← inner.expression }

/-- An `UPDATE` statement. -/
def update (inner : Nested) : Rule Update := do
  keyword .UPDATE
  let table ← tableName
  let alias? ← alias?
  keyword .SET
  let assignments ← commaSeparated (assignment inner)
  let source ← clause .FROM (fromItem inner)
  let filter ← clause .WHERE inner.expression
  return { table, alias?, assignments, source, filter }

/-- A `DELETE` statement. -/
def delete (inner : Nested) : Rule Delete := do
  keyword .DELETE
  keyword .FROM
  let table ← tableName
  let alias? ← alias?
  let filter ← clause .WHERE inner.expression
  return { table, alias?, filter }

/-! ### Tables -/

/-- A property of a table. -/
def property (inner : Nested) : Rule Property := do
  let name ← dottedName
  symbol .eq
  return { name, value := ← inner.expression }

/-- The properties behind `WITH`, if there are any. -/
def properties (inner : Nested) : Rule (List Property) :=
  listClause .WITH (parenthesized (commaSeparated (property inner)))

/-- An element of a table definition. -/
def tableElement (inner : Nested) : Rule TableElement := do
  if ← acceptKeyword .PRIMARY then
    keyword .KEY
    return .primaryKey (← parenthesized identifiers)
  else return .column (← columnDef inner)

/-- A `CREATE TABLE` statement. -/
def createTable (inner : Nested) : Rule CreateTable := do
  keyword .CREATE
  keyword .TABLE
  let ifNotExists ← acceptKeyword .IF
  if ifNotExists then
    keyword .NOT
    keyword .EXISTS
  let table ← tableName
  let elements ← parenthesized (commaSeparated (tableElement inner))
  let properties ← properties inner
  return { ifNotExists, table, columns := TableElement.columnDefs elements,
           primaryKey := TableElement.lastPrimaryKey [] elements, properties }

/-- A `DROP TABLE` statement. -/
def dropTable : Rule Command := do
  keyword .DROP
  keyword .TABLE
  let ifExists ← acceptKeyword .IF
  if ifExists then keyword .EXISTS
  return .dropTable ifExists (← tableName)

/-- A `REFRESH TABLE` statement. -/
def refresh : Rule Command := do
  keyword .REFRESH
  keyword .TABLE
  return .refresh (← commaSeparated tableName)

/-- An `OPTIMIZE TABLE` statement. -/
def optimize (inner : Nested) : Rule Command := do
  keyword .OPTIMIZE
  keyword .TABLE
  let tables ← commaSeparated tableName
  return .optimize tables (← properties inner)

/-! ### The session -/

/-- An `EXPLAIN` statement. `ANALYZE` belongs to it only in front of another statement. -/
def explain (inner : Nested) : Rule Command := do
  keyword .EXPLAIN
  -- Before anything else, `ANALYZE` is itself the statement to explain.
  let analyze := (← current).isKeyword .ANALYZE && (← following).startsStatement
  if analyze then advance
  return .explain analyze (← inner.statement)

/-- A `SHOW` statement. -/
def «show» : Rule ShowTarget := do
  keyword .SHOW
  match (← current).keyword? with
  | some .TABLES =>
    advance
    let qualified ← if ← acceptKeyword .FROM then pure true else acceptKeyword .IN
    if qualified then return .tables (some (← identifier)) else return .tables none
  | some .SCHEMAS =>
    advance
    return .schemas
  | some .CREATE =>
    advance
    keyword .TABLE
    return .createTable (← tableName)
  | some .ALL =>
    advance
    return .all
  | _ => return .setting (← dottedName)

/-- The scope of a setting; the session unless `LOCAL` is written. -/
def settingScope : Rule SettingScope := do
  if ← acceptKeyword .LOCAL then return .transaction
  else
    let _ ← acceptKeyword .SESSION
    return .session

/-- A `SET` statement. -/
def set (inner : Nested) : Rule Command := do
  keyword .SET
  let scope ← settingScope
  let name ← dottedName
  let assigned ← if ← accept .eq then pure true else acceptKeyword .TO
  unless assigned do
    fail (.mismatched [Symbol.eq.quoted, Keyword.TO.quoted])
  if ← acceptKeyword .DEFAULT then return .set scope name .default
  else return .set scope name (.values (← inner.expressions))

/-- A `RESET` statement. -/
def reset : Rule Command := do
  keyword .RESET
  if ← acceptKeyword .ALL then return .reset none
  else return .reset (some (← dottedName))

/-- A `DISCARD` statement. -/
def discard : Rule Command := do
  keyword .DISCARD
  match (← current).keyword?.bind DiscardTarget.ofKeyword? with
  | some target =>
    advance
    return .discard target
  | none => fail (.mismatched ["'ALL'", "'PLANS'", "'SEQUENCES'", "'TEMPORARY'", "'TEMP'"])

/-- The words that may follow the start or the end of a transaction. -/
def transactionWords : Rule Unit := do
  unless ← acceptKeyword .WORK do
    let _ ← acceptKeyword .TRANSACTION

/-- The start of a transaction by `BEGIN`. -/
def begin : Rule Command := do
  keyword .BEGIN
  transactionWords
  return .begin

/-- The start of a transaction by `START TRANSACTION`. -/
def startTransaction : Rule Command := do
  keyword .START
  keyword .TRANSACTION
  return .begin

/-- The end of a transaction, by `COMMIT` or `END`. -/
def commit (first : Keyword) : Rule Command := do
  keyword first
  transactionWords
  return .commit

/-- A `KILL` statement. -/
def kill (inner : Nested) : Rule Command := do
  keyword .KILL
  if ← acceptKeyword .ALL then return .kill none
  else return .kill (some (← inner.expression))

/-- An `ANALYZE` statement. -/
def analyze : Rule Command := do
  keyword .ANALYZE
  return .analyze

/-- The word `ALL`, for which there is no name, or a name given as a name or a string. -/
def allOrName : Rule (Option String) := do
  if ← acceptKeyword .ALL then return none
  else
    match (← current).kind with
    | .string name =>
      advance
      return some name
    | _ => some <$> identifier

/-- A `DEALLOCATE` statement. -/
def deallocate : Rule Command := do
  keyword .DEALLOCATE
  let _ ← acceptKeyword .PREPARE
  return .deallocate (← allOrName)

/-- A `CLOSE` statement. -/
def close : Rule Command := do
  keyword .CLOSE
  return .close (← allOrName)

/-! ### Any statement -/

/-- Fail where a statement should start. A keyword that can start a statement, but has no rule
here, leaves no alternative; any other token is one of those not expected. -/
def noStatement : Rule Command := do
  if (← current).startsStatement then fail .noViableAlternative
  else fail (.mismatched (Keyword.statementStarts.map Keyword.quoted))

/-- A statement. -/
def statement (inner : Nested) : Rule Command := do
  match (← current).keyword? with
  | some .SELECT => .select <$> inner.query
  | some .INSERT => .insert <$> insert inner
  | some .UPDATE => .update <$> update inner
  | some .DELETE => .delete <$> delete inner
  | some .CREATE => .createTable <$> createTable inner
  | some .DROP => dropTable
  | some .EXPLAIN => explain inner
  | some .SHOW => .show <$> «show»
  | some .SET => set inner
  | some .DISCARD => discard
  | some .REFRESH => refresh
  | some .OPTIMIZE => optimize inner
  | some .RESET => reset
  | some .BEGIN => begin
  | some .START => startTransaction
  | some .COMMIT => commit .COMMIT
  | some .END => commit .END
  | some .KILL => kill inner
  | some .ANALYZE => analyze
  | some .DEALLOCATE => deallocate
  | some .CLOSE => close
  | _ => noStatement

end Rule

end SqlBatch
