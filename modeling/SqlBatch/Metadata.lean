import SqlBatch.Tree.Command

/-!
# Metadata

Facts read off the tree of a statement: the tables it refers to, in the order in which it names
them, and the properties of a table definition.

## Tables

The tables of a query are those of its select list, its `FROM` and `WHERE` clauses, its grouping and
the query combined with it. The clauses that order and cut the result (`ORDER BY`, `LIMIT` and
`OFFSET`) are not searched, and neither are the expressions of a table definition or a setting. A
table that is named twice is listed twice.

## Properties

Properties are kept by name, each with one text; a later value takes the place of an earlier one
(`TextMap`). Those given as a parameter are recorded a second time, and stay so where a later value
is none (`Metadata.addProperty`).
-/

namespace SqlBatch

/-! ### Tables -/

mutual

/-- The tables that an expression refers to. -/
def Expr.tables : Expr → List TableName
  | .literal _ => []
  | .column _ _ _ => []
  | .binary _ left right => left.tables ++ right.tables
  | .unary _ operand => operand.tables
  | .call _ _ arguments => tablesOfExprs arguments
  | .subquery query => query.tables
  | .exists query => query.tables
  | .isNull operand _ => operand.tables
  | .isIn operand list _ => operand.tables ++ tablesOfExprs list
  | .between operand low high _ => operand.tables ++ low.tables ++ high.tables
  | .case operand branches otherwise =>
    tablesOfExpr? operand ++ tablesOfBranches branches ++ tablesOfExpr? otherwise
  | .cast operand _ => operand.tables
  | .array items => tablesOfExprs items
  | .subscript base index => base.tables ++ index.tables
  | .paren inner => inner.tables
  | .parameter _ => []
  | .wildcard _ => []

/-- The tables that a query refers to. -/
def Query.tables : Query → List TableName
  | ⟨_, items, source, filter, grouping, having, compound, _, _, _⟩ =>
    tablesOfItems items ++ tablesOfFrom? source ++ tablesOfExpr? filter ++
      tablesOfExprs grouping ++ tablesOfExpr? having ++ tablesOfCompound? compound

/-- The tables that a `FROM` item refers to. -/
def FromItem.tables : FromItem → List TableName
  | .table table _ => [table]
  | .subquery query _ => query.tables
  | .join left _ right condition => left.tables ++ right.tables ++ condition.tables

/-- The tables that a join condition refers to. -/
def JoinCondition.tables : JoinCondition → List TableName
  | .none => []
  | .on condition => condition.tables
  | .using _ => []

/-- The tables of several expressions. -/
def tablesOfExprs : List Expr → List TableName
  | [] => []
  | expr :: exprs => expr.tables ++ tablesOfExprs exprs

/-- The tables of an expression that may be missing. -/
def tablesOfExpr? : Option Expr → List TableName
  | none => []
  | some expr => expr.tables

/-- The tables of the arms of a case expression. -/
def tablesOfBranches : List Branch → List TableName
  | [] => []
  | ⟨condition, result⟩ :: branches =>
    condition.tables ++ result.tables ++ tablesOfBranches branches

/-- The tables of a select list. -/
def tablesOfItems : List SelectItem → List TableName
  | [] => []
  | ⟨expr, _⟩ :: items => expr.tables ++ tablesOfItems items

/-- The tables of a `FROM` clause that may be missing. -/
def tablesOfFrom? : Option FromItem → List TableName
  | none => []
  | some item => item.tables

/-- The tables of a combined query that may be missing. -/
def tablesOfCompound? : Option Compound → List TableName
  | none => []
  | some ⟨_, _, right⟩ => right.tables

end

/-- The tables of what is inserted. -/
def InsertSource.tables : InsertSource → List TableName
  | .rows rs => rs.flatMap tablesOfExprs
  | .query q => q.tables
  | .defaults => []

/-- The tables that a statement refers to. -/
def Command.tables : Command → List TableName
  | .select q => q.tables
  | .insert i => i.table :: i.source.tables
  | .update u =>
    u.table :: (tablesOfExprs (u.assignments.map (·.value)) ++ tablesOfFrom? u.source ++
      tablesOfExpr? u.filter)
  | .delete d => d.table :: tablesOfExpr? d.filter
  | .createTable c => [c.table]
  | .dropTable _ table => [table]
  | .explain _ command => command.tables
  | .refresh tables => tables
  | .optimize tables _ => tables
  | .show (.createTable table) => [table]
  | _ => []

/-! ### Properties -/

/-- Texts by name, one for each name. -/
abbrev TextMap := List (String × String)

/-- The map with a name's text set, in place of an earlier one. -/
def TextMap.insert (map : TextMap) (name text : String) : TextMap :=
  (name, text) :: map.filter (·.1 ≠ name)

/-- The text of a name. -/
def TextMap.find? (map : TextMap) (name : String) : Option String :=
  map.lookup name

/-- Setting a name's text changes what is found for that name alone. -/
theorem TextMap.find?_insert (map : TextMap) (name text query : String) :
    (map.insert name text).find? query = if query = name then some text else map.find? query := by
  by_cases h : query = name
  · simp [insert, find?, h]
  · have kept : (map.filter (·.1 ≠ name)).lookup query = map.lookup query := by
      induction map with
      | nil => rfl
      | cons entry map ih =>
        by_cases he : entry.1 = name
        · have hq : (query == entry.1) = false := by simpa [he] using h
          rw [List.filter_cons_of_neg (by simpa using he), ih, List.lookup_cons, hq]
        · rw [List.filter_cons_of_pos (by simpa using he), List.lookup_cons, List.lookup_cons, ih]
    rw [if_neg h, insert, find?, List.lookup_cons, beq_false_of_ne h, kept]
    rfl

/-- Whether an expression is a parameter. -/
def Expr.isParameter : Expr → Bool
  | .parameter _ => true
  | _ => false

/-- What a statement says about tables. -/
structure Metadata where
  tables : List TableName
  /-- The properties of a table definition whose values have a plain text. -/
  properties : TextMap
  /-- Of these, the ones that were at some point given as a parameter, by the last one given. -/
  parameterized : TextMap

namespace Metadata

/-- No facts. -/
def empty : Metadata := ⟨[], [], []⟩

/-- Take in one property of a table definition. A later value of a name replaces an earlier one;
an earlier parameter stays recorded as such. -/
def addProperty (metadata : Metadata) (property : Property) : Metadata :=
  match property.value.literalText? with
  | none => metadata
  | some text =>
    { metadata with
      properties := metadata.properties.insert property.name text
      parameterized :=
        if property.value.isParameter then metadata.parameterized.insert property.name text
        else metadata.parameterized }

/-- The properties that a statement defines. -/
def propertiesOf : Command → List Property
  | .createTable create => create.properties
  | .explain _ command => propertiesOf command
  | _ => []

/-- The facts about a statement. -/
def ofCommand (command : Command) : Metadata :=
  (propertiesOf command).foldl addProperty { empty with tables := command.tables }

end Metadata

end SqlBatch
