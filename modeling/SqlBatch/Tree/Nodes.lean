import SqlBatch.Tree.Command

/-!
# The nodes of a tree

All that a tree is made of, as one list in which every node stands before what is inside it and
siblings stand in the order in which their clauses are written. A statement about a tree as a whole
is a statement about the members of this list.

A node is an expression, a query, a `FROM` item, a type, a column definition, or a table that a
statement names itself. Statements are no nodes: there is one of them at the top, or several above
each other where one explains another.

The trees are nested, so their nodes are collected by mutual recursion with a function for each kind
of list in a tree. The lemmas behind these say that each of them goes through its list item by item.
-/

namespace SqlBatch

/-- A node of a tree. -/
inductive Node where
  | expr (expr : Expr)
  | query (query : Query)
  | source (item : FromItem)
  | type (type : DataType)
  | column (column : ColumnDef)
  /-- A table that a statement names outside a `FROM` clause. -/
  | table (table : TableName)

mutual

/-- The nodes of an expression. -/
def Expr.nodes : Expr → List Node
  | .literal value => [.expr (.literal value)]
  | .column table name span => [.expr (.column table name span)]
  | .binary op left right => .expr (.binary op left right) :: (left.nodes ++ right.nodes)
  | .unary op operand => .expr (.unary op operand) :: operand.nodes
  | .call name distinct arguments =>
    .expr (.call name distinct arguments) :: nodesOfExprs arguments
  | .subquery query => .expr (.subquery query) :: query.nodes
  | .exists query => .expr (.exists query) :: query.nodes
  | .isNull operand negated => .expr (.isNull operand negated) :: operand.nodes
  | .isIn operand list negated =>
    .expr (.isIn operand list negated) :: (operand.nodes ++ nodesOfExprs list)
  | .between operand low high negated =>
    .expr (.between operand low high negated) :: (operand.nodes ++ low.nodes ++ high.nodes)
  | .case operand branches otherwise =>
    .expr (.case operand branches otherwise) ::
      (nodesOfExpr? operand ++ nodesOfBranches branches ++ nodesOfExpr? otherwise)
  | .cast operand type => .expr (.cast operand type) :: (operand.nodes ++ type.nodes)
  | .array items => .expr (.array items) :: nodesOfExprs items
  | .subscript base index => .expr (.subscript base index) :: (base.nodes ++ index.nodes)
  | .paren inner => .expr (.paren inner) :: inner.nodes
  | .parameter p => [.expr (.parameter p)]
  | .wildcard table => [.expr (.wildcard table)]

/-- The nodes of a type. -/
def DataType.nodes : DataType → List Node
  | .object policy columns => .type (.object policy columns) :: nodesOfColumns columns
  | .array element => .type (.array element) :: element.nodes
  | type => [.type type]

/-- The nodes of a column definition. -/
def ColumnDef.nodes : ColumnDef → List Node
  | ⟨name, type, nullable, default, primaryKey, generated⟩ =>
    .column ⟨name, type, nullable, default, primaryKey, generated⟩ ::
      (type.nodes ++ nodesOfExpr? default ++ nodesOfExpr? generated)

/-- The nodes of a query. -/
def Query.nodes : Query → List Node
  | ⟨distinct, items, source, filter, grouping, having, compound, ordering, limit, offset⟩ =>
    .query ⟨distinct, items, source, filter, grouping, having, compound, ordering, limit,
      offset⟩ ::
      (nodesOfItems items ++ nodesOfFrom? source ++ nodesOfExpr? filter ++
        nodesOfExprs grouping ++ nodesOfExpr? having ++ nodesOfCompound? compound ++
        nodesOfOrdering ordering ++ nodesOfExpr? limit ++ nodesOfExpr? offset)

/-- The nodes of a `FROM` item. -/
def FromItem.nodes : FromItem → List Node
  | .table table alias? => [.source (.table table alias?)]
  | .subquery query name => .source (.subquery query name) :: query.nodes
  | .join left kind right condition =>
    .source (.join left kind right condition) ::
      (left.nodes ++ right.nodes ++ condition.nodes)

/-- The nodes of a join condition. -/
def JoinCondition.nodes : JoinCondition → List Node
  | .none => []
  | .on condition => condition.nodes
  | .using _ => []

/-- The nodes of several expressions. -/
def nodesOfExprs : List Expr → List Node
  | [] => []
  | expr :: exprs => expr.nodes ++ nodesOfExprs exprs

/-- The nodes of an expression that may be missing. -/
def nodesOfExpr? : Option Expr → List Node
  | none => []
  | some expr => expr.nodes

/-- The nodes of the arms of a case expression. -/
def nodesOfBranches : List Branch → List Node
  | [] => []
  | ⟨condition, result⟩ :: branches =>
    condition.nodes ++ result.nodes ++ nodesOfBranches branches

/-- The nodes of column definitions. -/
def nodesOfColumns : List ColumnDef → List Node
  | [] => []
  | column :: columns => column.nodes ++ nodesOfColumns columns

/-- The nodes of a select list. -/
def nodesOfItems : List SelectItem → List Node
  | [] => []
  | ⟨expr, _⟩ :: items => expr.nodes ++ nodesOfItems items

/-- The nodes of a `FROM` clause that may be missing. -/
def nodesOfFrom? : Option FromItem → List Node
  | none => []
  | some item => item.nodes

/-- The nodes of a combined query that may be missing. -/
def nodesOfCompound? : Option Compound → List Node
  | none => []
  | some ⟨_, _, right⟩ => right.nodes

/-- The nodes of an ordering. -/
def nodesOfOrdering : List OrderItem → List Node
  | [] => []
  | ⟨expr, _, _⟩ :: items => expr.nodes ++ nodesOfOrdering items

end

/-! ### The nodes of several trees -/

theorem nodesOfExprs_eq (exprs : List Expr) : nodesOfExprs exprs = exprs.flatMap (·.nodes) := by
  induction exprs with
  | nil => rfl
  | cons expr exprs ih => rw [nodesOfExprs, ih, List.flatMap_cons]

/-- An expression that may be missing. -/
theorem nodesOfExpr?_eq (expr? : Option Expr) :
    nodesOfExpr? expr? = expr?.toList.flatMap (·.nodes) := by
  rcases expr? with _ | expr
  · rfl
  · exact (List.flatMap_singleton _ _).symm

/-- Arms of a `CASE`, conditions and results. -/
theorem nodesOfBranches_eq (branches : List Branch) :
    nodesOfBranches branches = branches.flatMap fun b ↦ b.condition.nodes ++ b.result.nodes := by
  induction branches with
  | nil => rfl
  | cons branch branches ih =>
    obtain ⟨condition, result⟩ := branch
    rw [nodesOfBranches, ih, List.flatMap_cons]

theorem nodesOfColumns_eq (columns : List ColumnDef) :
    nodesOfColumns columns = columns.flatMap (·.nodes) := by
  induction columns with
  | nil => rfl
  | cons column columns ih => rw [nodesOfColumns, ih, List.flatMap_cons]

/-- What is selected, item by item. -/
theorem nodesOfItems_eq (items : List SelectItem) :
    nodesOfItems items = items.flatMap (·.expr.nodes) := by
  induction items with
  | nil => rfl
  | cons item items ih =>
    obtain ⟨expr, alias?⟩ := item
    rw [nodesOfItems, ih, List.flatMap_cons]

/-- A `FROM` clause that may be missing. -/
theorem nodesOfFrom?_eq (item? : Option FromItem) :
    nodesOfFrom? item? = item?.toList.flatMap (·.nodes) := by
  rcases item? with _ | item
  · rfl
  · exact (List.flatMap_singleton _ _).symm

/-- The query behind a set operation. -/
theorem nodesOfCompound?_eq (compound? : Option Compound) :
    nodesOfCompound? compound? = compound?.toList.flatMap (·.right.nodes) := by
  rcases compound? with _ | ⟨op, all, right⟩
  · rfl
  · exact (List.flatMap_singleton _ _).symm

/-- What is ordered by, item by item. -/
theorem nodesOfOrdering_eq (items : List OrderItem) :
    nodesOfOrdering items = items.flatMap (·.expr.nodes) := by
  induction items with
  | nil => rfl
  | cons item items ih =>
    obtain ⟨expr, descending, nulls⟩ := item
    rw [nodesOfOrdering, ih, List.flatMap_cons]

/-! ### The nodes of statements -/

/-- The nodes of what is inserted. -/
def InsertSource.nodes : InsertSource → List Node
  | .rows rs => rs.flatMap nodesOfExprs
  | .query q => q.nodes
  | .defaults => []

/-- The nodes of the values of properties. -/
def nodesOfProperties (properties : List Property) : List Node :=
  properties.flatMap (·.value.nodes)

/-- The nodes of the value of a setting. -/
def SettingValue.nodes : SettingValue → List Node
  | .default => []
  | .values es => nodesOfExprs es

/-- The nodes of a statement. -/
def Command.nodes : Command → List Node
  | .select q => q.nodes
  | .insert i => .table i.table :: i.source.nodes
  | .update u =>
    .table u.table :: (u.assignments.flatMap (·.value.nodes) ++ nodesOfFrom? u.source ++
      nodesOfExpr? u.filter)
  | .delete d => .table d.table :: nodesOfExpr? d.filter
  | .createTable c =>
    .table c.table :: (nodesOfColumns c.columns ++ nodesOfProperties c.properties)
  | .dropTable _ table => [.table table]
  | .explain _ command => command.nodes
  | .refresh tables => tables.map .table
  | .optimize tables properties => tables.map .table ++ nodesOfProperties properties
  | .show (.createTable table) => [.table table]
  | .set _ _ value => value.nodes
  | .kill job => nodesOfExpr? job
  | _ => []

/-- The table that a node refers to by itself. -/
def Node.table? : Node → Option TableName
  | .source (.table name _) => some name
  | .table name => some name
  | _ => none

end SqlBatch
