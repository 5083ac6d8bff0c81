/-!
# Table names

A table is known by whatever name the statement spells out; nothing is looked up. A name without a
schema and the same name with one are two names.
-/

namespace SqlBatch

/-- A table name, with its schema if it is qualified. -/
structure TableName where
  schema : Option String
  name : String
deriving DecidableEq, Repr

/-- The name in double quotes, behind its schema in double quotes. What stands between the quotes
is the name as it is: quotes inside it are not doubled. -/
def TableName.quoted (table : TableName) : String :=
  match table.schema with
  | some schema => s!"\"{schema}\".\"{table.name}\""
  | none => s!"\"{table.name}\""

end SqlBatch
