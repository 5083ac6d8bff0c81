import SqlBatch.Tree.Query

/-!
# Commands

The tree of one SQL statement: a query or a command around queries, expressions and names.

`EXPLAIN` holds another statement, and so a command is the one tree here that holds its own kind.
All else that a command holds is a query, an expression or a name, or a list of these. Where a
clause may be left out, the field is an option or a list that may be empty; a list of rows, of
assignments or of set values is never empty in what is read, though nothing in the types says so.
-/

namespace SqlBatch

/-- What an `INSERT` puts into its table. -/
inductive InsertSource where
  | rows (rows : List (List Expr))
  | query (query : Query)
  | defaults

/-- `column = value` in an `UPDATE`. -/
structure Assignment where
  column : String
  value : Expr

/-- `name = value` in a `WITH` clause; a dotted name is one name. -/
structure Property where
  name : String
  value : Expr

/-- What a `SHOW` asks for. -/
inductive ShowTarget where
  /-- The tables of a schema, or of all. -/
  | tables (schema : Option String)
  | schemas
  /-- The statement that creates a table. -/
  | createTable (table : TableName)
  | all
  | setting (name : String)
deriving DecidableEq, Repr

/-- How long a setting lasts. -/
inductive SettingScope where
  | session | transaction
deriving DecidableEq, Repr

/-- What a setting is set to. -/
inductive SettingValue where
  | default
  | values (values : List Expr)

/-- What a `DISCARD` drops. -/
inductive DiscardTarget where
  | all | plans | sequences | temporary
deriving DecidableEq, Repr

/-- `INSERT INTO table (columns) source`; without a column list the columns are empty. -/
structure Insert where
  table : TableName
  columns : List String
  source : InsertSource

/-- `UPDATE table alias SET assignments FROM source WHERE filter`. -/
structure Update where
  table : TableName
  alias? : Option String
  assignments : List Assignment
  source : Option FromItem
  filter : Option Expr

/-- `DELETE FROM table alias WHERE filter`. -/
structure Delete where
  table : TableName
  alias? : Option String
  filter : Option Expr

/-- `CREATE TABLE table (columns, PRIMARY KEY (primaryKey)) WITH (properties)`. -/
structure CreateTable where
  ifNotExists : Bool
  table : TableName
  columns : List ColumnDef
  primaryKey : List String
  properties : List Property

/-- A statement. -/
inductive Command where
  | select (query : Query)
  | insert (insert : Insert)
  | update (update : Update)
  | delete (delete : Delete)
  | createTable (create : CreateTable)
  | dropTable (ifExists : Bool) (table : TableName)
  | explain (analyze : Bool) (command : Command)
  | refresh (tables : List TableName)
  | optimize (tables : List TableName) (properties : List Property)
  | show (target : ShowTarget)
  | set (scope : SettingScope) (name : String) (value : SettingValue)
  /-- Resets one setting, or all without a name. -/
  | reset (name : Option String)
  | begin
  | commit
  /-- Ends the job that an expression names, or all without one. -/
  | kill (job : Option Expr)
  | analyze
  | discard (target : DiscardTarget)
  /-- Drops one prepared statement, or all without a name. -/
  | deallocate (name : Option String)
  /-- Closes one cursor, or all without a name. -/
  | close (name : Option String)

end SqlBatch
