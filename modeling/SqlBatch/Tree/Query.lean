import SqlBatch.Text.Span
import SqlBatch.Tree.Literal
import SqlBatch.Tree.Name

/-!
# Expressions, queries and types

Expressions hold subqueries, queries hold expressions, and types hold column definitions with
default expressions, so the syntax trees below a statement are one mutual family:

* `Expr`, with `Branch` for the arms of a `CASE`;
* `DataType` and `ColumnDef`;
* `Query`, with its `SelectItem`s, its `FromItem`, a `Compound` continuation and `OrderItem`s.
-/

namespace SqlBatch

/-- What a column of object type does with keys that it does not name. -/
inductive ObjectPolicy where
  | dynamic | strict | ignored
deriving DecidableEq, Repr

/-- The policy as it is written. -/
def ObjectPolicy.text : ObjectPolicy → String
  | dynamic => "DYNAMIC"
  | strict => "STRICT"
  | ignored => "IGNORED"

/-- The size of a decimal type: its number of digits, and of those behind the point. -/
structure DecimalSize where
  precision : UInt16
  scale : Option UInt16
deriving DecidableEq, Repr

/-- Kinds of joins; the left, right and full ones are outer joins. -/
inductive JoinKind where
  | inner | left | right | full | cross
deriving DecidableEq, Repr

/-- Whether a joined query adds, keeps or removes the rows of the next. -/
inductive SetOp where
  | union | intersect | except
deriving DecidableEq, Repr

/-- Where an ordering puts missing values. -/
inductive NullOrder where
  | first | last
deriving DecidableEq, Repr

mutual

/-- An expression. -/
inductive Expr where
  | literal (value : Literal)
  /-- `name` or `table.name`, and where it is written. -/
  | column (table : Option String) (name : String) (span : Span)
  | binary (op : BinaryOp) (left right : Expr)
  | unary (op : UnaryOp) (operand : Expr)
  /-- `name(arguments)` or `name(DISTINCT arguments)`. -/
  | call (name : String) (distinct : Bool) (arguments : List Expr)
  /-- A query in parentheses, as a value. -/
  | subquery (query : Query)
  /-- `EXISTS (query)`. -/
  | exists (query : Query)
  /-- `operand IS NULL` or `operand IS NOT NULL`. -/
  | isNull (operand : Expr) (negated : Bool)
  /-- `operand IN (list)`; a subquery is a list of one element. -/
  | isIn (operand : Expr) (list : List Expr) (negated : Bool)
  /-- `operand BETWEEN low AND high`. -/
  | between (operand low high : Expr) (negated : Bool)
  /-- `CASE operand WHEN … THEN … ELSE … END`. -/
  | case (operand : Option Expr) (branches : List Branch) (otherwise : Option Expr)
  /-- `CAST(operand AS type)` or `operand::type`. -/
  | cast (operand : Expr) (type : DataType)
  /-- `[items]` or `ARRAY[items]`. -/
  | array (items : List Expr)
  /-- `base[index]`. -/
  | subscript (base index : Expr)
  /-- An expression in parentheses. -/
  | paren (inner : Expr)
  | parameter (parameter : Parameter)
  /-- `*` or `table.*`. -/
  | wildcard (table : Option String)

/-- One `WHEN condition THEN result` of a case expression. -/
structure Branch where
  condition : Expr
  result : Expr

/-- The type of a column or a cast. -/
inductive DataType where
  | smallint | integer | bigint | real
  /-- `DOUBLE PRECISION`, `DOUBLE` or `FLOAT`. -/
  | double
  | decimal (size : Option DecimalSize)
  | numeric (size : Option DecimalSize)
  | char (length : Option UInt32)
  | varchar (length : Option UInt32)
  | text | date | time | timestamp | boolean
  /-- `OBJECT (policy) AS (columns)`; without columns if the list is empty. -/
  | object (policy : Option ObjectPolicy) (columns : List ColumnDef)
  /-- `ARRAY(element)`. -/
  | array (element : DataType)
  /-- Any other type, by its name. -/
  | custom (name : String)

/-- The definition of a column of a table or of an object type. -/
structure ColumnDef where
  name : String
  type : DataType
  /-- False behind `NOT NULL` and `PRIMARY KEY`. -/
  nullable : Bool
  default : Option Expr
  primaryKey : Bool
  /-- The expression that the column is computed from. -/
  generated : Option Expr

/-- A query. Only the select list is always there. -/
structure Query where
  distinct : Bool
  items : List SelectItem
  source : Option FromItem
  filter : Option Expr
  grouping : List Expr
  having : Option Expr
  /-- The query combined with this one. It owns the ordering and limits behind it. -/
  compound : Option Compound
  ordering : List OrderItem
  limit : Option Expr
  offset : Option Expr

/-- An item of a select list. -/
structure SelectItem where
  expr : Expr
  alias? : Option String

/-- An item of a `FROM` clause. Joins nest to the left. -/
inductive FromItem where
  | table (table : TableName) (alias? : Option String)
  /-- A query in parentheses under a name. -/
  | subquery (query : Query) (name : String)
  | join (left : FromItem) (kind : JoinKind) (right : FromItem) (condition : JoinCondition)

/-- On what two items are joined. -/
inductive JoinCondition where
  | none
  | on (condition : Expr)
  | using (columns : List String)

/-- The continuation of a query by `UNION`, `INTERSECT` or `EXCEPT`. -/
structure Compound where
  op : SetOp
  all : Bool
  right : Query

/-- An item of an `ORDER BY` clause. -/
structure OrderItem where
  expr : Expr
  descending : Bool
  nulls : Option NullOrder

end

/-- The plain text of a literal, a parameter or a bare name, also behind minus signs: strings
without quotes, booleans in lower case, parameters as written. Blobs and all other expressions have
none. -/
def Expr.literalText? : Expr → Option String
  | .literal (.string value) => some value
  | .literal (.boolean value) => some (if value then "true" else "false")
  | .literal (.blob _) => none
  | .literal value => some value.text
  | .parameter p => some p.text
  | .column none name _ => some name
  | .unary .neg operand => operand.literalText?.map ("-" ++ ·)
  | _ => none

end SqlBatch
