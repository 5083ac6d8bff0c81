import SqlBatch.Proofs.Allowance
import SqlBatch.Proofs.Yields

/-!
# How trees are put together

The grammar of a level is a function of the grammar of the level inside, so whatever is to be proved
of all trees is proved level by level. What a level can do is said here once: `Expr.Made` and its
companions are all forms in which the rules of a level put a node over others, with where these
others come from. They come from the level inside (`I`) or, for the operand that more is read
behind, the types of columns and the parts of a query, from the level itself (`O`).

## Shapes

A `Shape` is a kind of trees of each sort. If every form makes trees of the shape `O` out of those
of the shape `I` (`Shape.Closed`), then a level reads trees of the shape `O` where the level inside
reads those of the shape `I` (`Nested.Reads.around`); no property of trees needs the rules again.

## Where this is used

A shape that is closed under the forms is all that a property of trees has to give: trees of a
bounded height, well-formed trees, and trees whose nodes all have a property. Each is settled by a
case for each form. The tokens come in through `T` alone, which is what is known of the token that a
literal was read from.
-/

namespace SqlBatch

/-- The type has no type inside. -/
def DataType.IsLeaf : DataType → Prop
  | .object _ _ | .array _ => False
  | _ => True

/-- A kind of trees of each sort. -/
structure Shape where
  expr : Expr → Prop
  type : DataType → Prop
  /-- A type in parentheses: the element of an array type, or the columns of an object type. -/
  bracketed : DataType → Prop
  column : ColumnDef → Prop
  source : FromItem → Prop
  query : Query → Prop
  command : Command → Prop

section

variable (T : Token → Prop) (I O : Shape)

/-- The forms of expressions. -/
inductive Expr.Made : Expr → Prop
  | literal {token : Token} {value : Literal} : T token →
    Literal.ofKind? token.kind = some value → Made (.literal value)
  | parameter (p : Parameter) : Made (.parameter p)
  | wildcard (table : Option String) : Made (.wildcard table)
  | column (table : Option String) (name : String) (span : Span) : Made (.column table name span)
  | call {name : String} {distinct : Bool} {arguments : List Expr} :
    (∀ e ∈ arguments, I.expr e) → Made (.call name distinct arguments)
  | callAll (name : String) (distinct : Bool) : Made (.call name distinct [.wildcard none])
  | unary {op : UnaryOp} {operand : Expr} : I.expr operand → Made (.unary op operand)
  | paren {inner : Expr} : I.expr inner → Made (.paren inner)
  | array {items : List Expr} : (∀ e ∈ items, I.expr e) → Made (.array items)
  | subquery {query : Query} : I.query query → Made (.subquery query)
  | exists {query : Query} : I.query query → Made (.exists query)
  | case {operand otherwise : Option Expr} {branches : List Branch} : branches ≠ [] →
    (∀ e ∈ operand, I.expr e) → (∀ b ∈ branches, I.expr b.condition ∧ I.expr b.result) →
    (∀ e ∈ otherwise, I.expr e) → Made (.case operand branches otherwise)
  | castCall {operand : Expr} {type : DataType} : I.expr operand → O.type type →
    Made (.cast operand type)
  -- From here on, more goes on behind an operand that has been read.
  | cast {operand : Expr} {type : DataType} : O.expr operand → O.type type →
    Made (.cast operand type)
  | subscript {base index : Expr} : O.expr base → I.expr index → Made (.subscript base index)
  | isNull {operand : Expr} {negated : Bool} : O.expr operand → Made (.isNull operand negated)
  | isIn {operand : Expr} {list : List Expr} {negated : Bool} : O.expr operand → list ≠ [] →
    (∀ e ∈ list, I.expr e) → Made (.isIn operand list negated)
  | isInQuery {operand : Expr} {query : Query} {negated : Bool} : O.expr operand →
    I.query query → Made (.isIn operand [.subquery query] negated)
  | between {operand low high : Expr} {negated : Bool} : O.expr operand → I.expr low →
    I.expr high → Made (.between operand low high negated)
  | binary {op : BinaryOp} {left right : Expr} : O.expr left → I.expr right →
    Made (.binary op left right)
  | notLike {left right : Expr} : O.expr left → I.expr right →
    Made (.unary .not (.binary .like left right))

/-- The forms of types. -/
inductive DataType.Made : DataType → Prop
  | leaf {type : DataType} : type.IsLeaf → Made type
  | object {type : DataType} : I.bracketed type → Made type
  | array {element : DataType} : I.bracketed element → Made (.array element)

/-- The forms of types in parentheses. -/
inductive DataType.Bracketed : DataType → Prop
  | element {type : DataType} : O.type type → Bracketed type
  | object {policy : Option ObjectPolicy} {columns : List ColumnDef} :
    (∀ column ∈ columns, O.column column) → Bracketed (.object policy columns)

/-- What a column definition is made of, whatever the order of its constraints. -/
structure ColumnDef.Made (column : ColumnDef) : Prop where
  type : O.type column.type
  default : ∀ e ∈ column.default, I.expr e
  generated : ∀ e ∈ column.generated, I.expr e
  nullable : column.primaryKey → column.nullable = false

/-- The forms of `FROM` items. What is joined is a plain table. -/
inductive FromItem.Made : FromItem → Prop
  | table (table : TableName) (alias? : Option String) : Made (.table table alias?)
  | subquery {query : Query} {name : String} : I.query query → Made (.subquery query name)
  | paren {item : FromItem} : I.source item → Made item
  | cross {left : FromItem} {table : TableName} {alias? : Option String} : O.source left →
    Made (.join left .cross (.table table alias?) .none)
  | on {left : FromItem} {kind : JoinKind} {table : TableName} {alias? : Option String}
    {condition : Expr} : O.source left → kind ≠ .cross → I.expr condition →
    Made (.join left kind (.table table alias?) (.on condition))
  | using {left : FromItem} {kind : JoinKind} {table : TableName} {alias? : Option String}
    {columns : List String} : O.source left → kind ≠ .cross → columns ≠ [] →
    Made (.join left kind (.table table alias?) (.using columns))

/-- What a query is made of. What follows a combined query belongs to its last part. -/
structure Query.Made (query : Query) : Prop where
  items_ne : query.items ≠ []
  items : ∀ item ∈ query.items, I.expr item.expr
  source : ∀ item ∈ query.source, O.source item
  filter : ∀ e ∈ query.filter, I.expr e
  grouping : ∀ e ∈ query.grouping, I.expr e
  having : ∀ e ∈ query.having, I.expr e
  compound : ∀ compound ∈ query.compound, I.query compound.right ∧ query.ordering = [] ∧
    query.limit = none ∧ query.offset = none
  ordering : ∀ item ∈ query.ordering, I.expr item.expr
  limit : ∀ e ∈ query.limit, I.expr e
  offset : ∀ e ∈ query.offset, I.expr e

/-- What an `INSERT` puts into its table. -/
inductive InsertSource.Made : InsertSource → Prop
  | rows {rows : List (List Expr)} : rows ≠ [] →
    (∀ row ∈ rows, row ≠ [] ∧ ∀ e ∈ row, I.expr e) → Made (.rows rows)
  | query {query : Query} : I.query query → Made (.query query)
  | defaults : Made .defaults

/-- The statement has no expression, query or statement inside, and lists nothing. -/
def Command.IsPlain : Command → Prop
  | .dropTable _ _ | .show _ | .set _ _ .default | .reset _ | .begin | .commit | .kill none
  | .analyze | .discard _ | .deallocate _ | .close _ => True
  | _ => False

/-- The forms of statements. -/
inductive Command.Made : Command → Prop
  | select {query : Query} : I.query query → Made (.select query)
  | insert {insert : Insert} : insert.source.Made I → Made (.insert insert)
  | update {update : Update} : update.assignments ≠ [] →
    (∀ assignment ∈ update.assignments, I.expr assignment.value) →
    (∀ item ∈ update.source, O.source item) → (∀ e ∈ update.filter, I.expr e) →
    Made (.update update)
  | delete {delete : Delete} : (∀ e ∈ delete.filter, I.expr e) → Made (.delete delete)
  | createTable {create : CreateTable} : (∀ column ∈ create.columns, O.column column) →
    (∀ property ∈ create.properties, I.expr property.value) → Made (.createTable create)
  | explain {analyze : Bool} {command : Command} : I.command command →
    Made (.explain analyze command)
  | refresh {tables : List TableName} : tables ≠ [] → Made (.refresh tables)
  | optimize {tables : List TableName} {properties : List Property} : tables ≠ [] →
    (∀ property ∈ properties, I.expr property.value) → Made (.optimize tables properties)
  | set {scope : SettingScope} {name : String} {values : List Expr} : values ≠ [] →
    (∀ e ∈ values, I.expr e) → Made (.set scope name (.values values))
  | kill {job : Expr} : I.expr job → Made (.kill (some job))
  | plain {command : Command} : command.IsPlain → Made command

/-- Every form of a level makes trees of the shape `O` out of trees of the shape `I`. -/
structure Shape.Closed : Prop where
  expr : ∀ e, e.Made T I O → O.expr e
  type : ∀ type, type.Made I → O.type type
  bracketed : ∀ type, type.Bracketed O → O.bracketed type
  column : ∀ column, column.Made I O → O.column column
  source : ∀ item, item.Made I O → O.source item
  query : ∀ query, query.Made I O → O.query query
  command : ∀ command, command.Made I O → O.command command

/-- The rules inside a level of nesting read trees of a shape, from tokens of a kind. -/
structure Nested.Reads (inner : Nested) : Prop where
  statement : inner.statement.YieldsOn T I.command
  query : inner.query.YieldsOn T I.query
  fromItem : inner.fromItem.YieldsOn T I.source
  expressionFrom : ∀ power, (inner.expressionFrom power).YieldsOn T I.expr
  objectType : inner.objectType.YieldsOn T I.bracketed
  elementType : inner.elementType.YieldsOn T I.bracketed

end

namespace Nested.Reads

open Rule

variable {T : Token → Prop} {inner : Nested} {I : Shape} (h : inner.Reads T I)

/-- With no level left, nothing is read, so anything holds of it. -/
theorem exhausted (I : Shape) : Nested.exhausted.Reads T I where
  statement := .fail
  query := .fail
  fromItem := .fail
  expressionFrom _ := .fail
  objectType := .fail
  elementType := .fail

include h

/-- Any expression of the level inside. -/
theorem expression : inner.expression.YieldsOn T I.expr :=
  h.expressionFrom 0

/-- Expressions of the level inside, at least one. -/
theorem expressions : inner.expressions.YieldsOn T fun es ↦ es ≠ [] ∧ ∀ e ∈ es, I.expr e :=
  .commaSeparated h.expression

end Nested.Reads

end SqlBatch
