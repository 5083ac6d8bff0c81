import SqlBatch.Grammar.Command

/-!
# Stages of rules

Many rules read something that may be left out, and go on in one way whether it was there or not.
What such a rule goes on with is named here, so that a property of the rule is proved of the stage
once, and not for each branch that leads to it. A rule is made of its stages by definition: where it
is unfolded, a law of a stage applies.

## Two forms that rules share

* `Rule.lookahead` is the choice of a rule that looks one token further: it moves past a word if
  what it looks for stands behind it. `ARRAY [`, `AS (` and `EXPLAIN ANALYZE` are cases of it.
* `Rule.another` is an item behind a comma, the round of every list (`commaSeparated_eq`).

The other stages are parts of single rules, in the order of the grammar: what is left to read behind
a first number, a first word or a first clause. Their parameters are what has been read before.
-/

namespace SqlBatch.Rule

/-- Go on past a keyword with a certain token behind it, or else in another way. -/
def lookahead {α : Type} (word : Keyword) (wanted : Token → Bool) (taken other : Rule α) :
    Rule α := do
  if (← seesKeyword word) && wanted (← following) then
    advance
    taken
  else other

/-- Either the word has been passed, with what was looked for behind it, or nothing has. -/
theorem run_lookahead {α : Type} (word : Keyword) (wanted : Token → Bool) (taken other : Rule α)
    (c : Cursor) : (lookahead word wanted taken other).run c =
      if c.current.isKeyword word && wanted c.following then taken.run c.advance
      else other.run c := by
  rw [lookahead, run_bind, run_seesKeyword]
  simp only
  rw [run_bind, run_following]
  simp only
  split <;> rfl

/-- One more item of a list, behind a comma. -/
def another {α : Type} (item : Rule α) : Rule (Option α) := do
  if ← accept .comma then some <$> item else return none

/-- A list is its first item and what stands behind each of its commas. -/
theorem commaSeparated_eq {α : Type} (item : Rule α) : commaSeparated item =
    item >>= fun first ↦ many (another item) >>= fun others ↦ return first :: others :=
  rfl

/-! ### Types -/

/-- The precision and scale of a decimal type. -/
def decimalSizes : Rule DecimalSize := do
  let precision ← size 65535
  if ← accept .comma then
    let scale ← size 65535
    return ⟨UInt16.ofNat precision, some (UInt16.ofNat scale)⟩
  else return ⟨UInt16.ofNat precision, none⟩

/-- The columns of an object type, if there are any, behind its policy. -/
def objectColumns (inner : Nested) (policy : Option ObjectPolicy) : Rule DataType :=
  lookahead .AS (·.isSymbol .leftParen)
    (do return .object policy (← parenthesized (commaSeparated (columnDef inner))))
    (return .object policy [])

/-- The value that a column is generated from. -/
def generatedAs (inner : Nested) (column : ColumnDef) : Rule (Option ColumnDef) := do
  return some { column with generated := some (← inner.expression) }

/-! ### Operands -/

/-- The column of a table that is named. -/
def qualifiedColumn (table : String) (span : Span) : Rule Expr := do
  let columnSpan := (← current).span
  let column ← identifier
  return .column (some table) column (span.through columnSpan)

/-- What stands behind the name that an operand starts with. -/
def behindName (inner : Nested) (name : String) (span : Span) : Rule Expr := do
  if ← sees .leftParen then
    let (distinct, arguments) ← arguments inner
    return .call name distinct arguments
  else if ← accept .dot then
    if ← accept .star then return .wildcard (some name) else qualifiedColumn name span
  else return .column none name span

/-- The end of an array, behind its items. -/
def closedArray (items : List Expr) : Rule Expr := do
  symbol .rightBracket
  return .array items

/-- What stands behind the arms of a case expression. -/
def caseEnding (inner : Nested) (operand : Option Expr) (branches : List Branch) : Rule Expr := do
  let otherwise ← clause .ELSE inner.expression
  keyword .END
  return .case operand branches otherwise

/-- What stands behind the operand of a case expression. -/
def arms (inner : Nested) (operand : Option Expr) : Rule Expr := do
  let branches ← many (branch inner)
  if branches.isEmpty then fail (.mismatched [Keyword.WHEN.quoted])
  caseEnding inner operand branches

/-- The index of an element of the operand, behind the bracket. -/
def subscripted (inner : Nested) (operand : Expr) : Rule Expr := do
  let index ← inner.expression
  symbol .rightBracket
  return .subscript operand index

/-- The type that the operand is cast to, with the symbol in front of it. -/
def castTo (inner : Nested) (operand : Expr) : Rule Expr := do
  advance
  return .cast operand (← dataType inner)

/-- A form that goes on behind an operand, with the words in front of it. -/
def continued (inner : Nested) (operand : Expr) (negated : Bool) (form : Continuation) :
    Rule (Option Expr) := do
  if negated then advance
  advance
  some <$> continuation inner operand negated form

/-- A form that goes on behind an operand, if there is one of enough power. -/
def onward (inner : Nested) (power : Nat) (operand : Expr) (negated : Bool) :
    Option Continuation → Rule (Option Expr)
  | none => return none
  | some form => do
    if form.precedence.left < power then return none else continued inner operand negated form

/-! ### Queries -/

/-- The last word of a join, behind those for its kind. -/
def joinedBy (kind : JoinKind) : Rule (Option JoinKind) := do
  keyword .JOIN
  return some kind

/-- Where an ordering puts missing values, behind its direction. -/
def ordered (expr : Expr) (descending : Bool) : Rule OrderItem := do
  return { expr, descending, nulls := ← clause .NULLS nullOrder }

/-- The query that another one is combined with. -/
def combined (inner : Nested) (op : SetOp) (all : Bool) : Rule (Option Compound) := do
  return some { op, all, right := ← inner.query }

/-! ### Statements -/

/-- What is put into the columns of a table. -/
def inserted (inner : Nested) (table : TableName) (columns : List String) : Rule Insert := do
  return { table, columns, source := ← insertSource inner }

/-- The primary key among the elements of a table, behind its first word. -/
def primaryKeyElement : Rule TableElement := do
  keyword .KEY
  return .primaryKey (← parenthesized identifiers)

/-- A table with its elements and its properties. -/
def tableDefinition (inner : Nested) (ifNotExists : Bool) : Rule CreateTable := do
  let table ← tableName
  let elements ← parenthesized (commaSeparated (tableElement inner))
  let properties ← properties inner
  return { ifNotExists, table, columns := TableElement.columnDefs elements,
           primaryKey := TableElement.lastPrimaryKey [] elements, properties }

/-- The table that is dropped. -/
def dropped (ifExists : Bool) : Rule Command := do
  return .dropTable ifExists (← tableName)

/-- The statement that is explained. -/
def explaining (inner : Nested) (analyze : Bool) : Rule Command := do
  return .explain analyze (← inner.statement)

/-- The tables that are shown, of a schema if one is named. -/
def shownTables (qualified : Bool) : Rule ShowTarget := do
  if qualified then return .tables (some (← identifier)) else return .tables none

/-- The value of a setting. -/
def settingValue (inner : Nested) (scope : SettingScope) (name : String) : Rule Command := do
  if ← acceptKeyword .DEFAULT then return .set scope name .default
  else return .set scope name (.values (← inner.expressions))

end SqlBatch.Rule
