import SqlBatch.Batch
import SqlBatch.Tree.Nodes

/-!
# The tables that a statement is found to refer to

The tables of a statement are collected in the order in which its tree names them, though not from
everywhere: the clauses that order and cut the result of a query, the expressions of column
definitions, and the values of properties and settings are passed over. `unsearched` lists these
expressions.

## Accounting for every reference

The references of a tree are those that are collected, interleaved with those inside the unsearched
expressions (`Command.accounted`), and nothing else is lost or added. The statement is stronger than
a count: both parts keep their order. It is proved along the tree, with one case for each kind of
node, from the fact that two accounts put one behind the other are an account again.

So the collected tables are all references, in order, just when no unsearched expression refers to
any (`Statement.tables_metadata`).
-/

namespace SqlBatch

/-! ### Interleaving -/

/-- The third list has the items of the first two, each in their order. -/
inductive Interleave {α : Type} : List α → List α → List α → Prop
  | nil : Interleave [] [] []
  | left {x : α} {xs ys zs : List α} : Interleave xs ys zs → Interleave (x :: xs) ys (x :: zs)
  | right {y : α} {xs ys zs : List α} : Interleave xs ys zs → Interleave xs (y :: ys) (y :: zs)

namespace Interleave

variable {α : Type} {xs ys zs xs' ys' zs' : List α}

/-- A list is interleaved with nothing on the left. -/
theorem nil_left (ys : List α) : Interleave [] ys ys := by
  induction ys with
  | nil => exact .nil
  | cons y ys ih => exact .right ih

theorem append (h : Interleave xs ys zs) (h' : Interleave xs' ys' zs') :
    Interleave (xs ++ xs') (ys ++ ys') (zs ++ zs') := by
  induction h with
  | nil => exact h'
  | left _ ih => exact .left ih
  | right _ ih => exact .right ih

/-- All items of both lists are there. -/
theorem length_eq (h : Interleave xs ys zs) : zs.length = xs.length + ys.length := by
  induction h with
  | nil => rfl
  | left _ ih =>
    rw [List.length_cons, List.length_cons, ih]
    omega
  | right _ ih =>
    rw [List.length_cons, List.length_cons, ih]
    omega

/-- A list interleaved with nothing on the right stays what it is. -/
theorem eq_of_nil (h : Interleave xs [] zs) : xs = zs := by
  generalize hys : ([] : List α) = ys at h
  induction h with
  | nil => rfl
  | left _ ih => rw [ih hys]
  | right => cases hys

/-- Nothing is interleaved with a list just when the list stays what it is. -/
theorem eq_iff (h : Interleave xs ys zs) : xs = zs ↔ ys = [] := by
  constructor
  · intro heq
    have hlength := h.length_eq
    rw [heq] at hlength
    exact List.eq_nil_of_length_eq_zero (by omega)
  · rintro rfl
    exact h.eq_of_nil

end Interleave

/-! ### References -/

/-- The tables that an expression refers to, wherever inside it, in the order in which they are
written. -/
def Expr.references (expr : Expr) : List TableName :=
  expr.nodes.filterMap Node.table?

/-- The tables that a statement refers to, wherever in its tree, in the order in which they are
written. -/
def Command.references (command : Command) : List TableName :=
  command.nodes.filterMap Node.table?

/-! ### What is not searched -/

mutual

/-- The expressions inside an expression that are not searched for tables. -/
def Expr.unsearched : Expr → List Expr
  | .literal _ => []
  | .column _ _ _ => []
  | .binary _ left right => left.unsearched ++ right.unsearched
  | .unary _ operand => operand.unsearched
  | .call _ _ arguments => unsearchedOfExprs arguments
  | .subquery query => query.unsearched
  | .exists query => query.unsearched
  | .isNull operand _ => operand.unsearched
  | .isIn operand list _ => operand.unsearched ++ unsearchedOfExprs list
  | .between operand low high _ => operand.unsearched ++ low.unsearched ++ high.unsearched
  | .case operand branches otherwise =>
    unsearchedOfExpr? operand ++ unsearchedOfBranches branches ++ unsearchedOfExpr? otherwise
  | .cast operand type => operand.unsearched ++ type.unsearched
  | .array items => unsearchedOfExprs items
  | .subscript base index => base.unsearched ++ index.unsearched
  | .paren inner => inner.unsearched
  | .parameter _ => []
  | .wildcard _ => []

/-- The expressions inside a type: those of the columns of an object type. -/
def DataType.unsearched : DataType → List Expr
  | .object _ columns => unsearchedOfColumns columns
  | .array element => element.unsearched
  | _ => []

/-- The expressions inside a column definition. -/
def ColumnDef.unsearched : ColumnDef → List Expr
  | ⟨_, type, _, default, _, generated⟩ =>
    type.unsearched ++ default.toList ++ generated.toList

/-- The expressions inside a query that are not searched: those that order and cut its result, and
the unsearched ones of its other clauses. -/
def Query.unsearched : Query → List Expr
  | ⟨_, items, source, filter, grouping, having, compound, ordering, limit, offset⟩ =>
    unsearchedOfItems items ++ unsearchedOfFrom? source ++ unsearchedOfExpr? filter ++
      unsearchedOfExprs grouping ++ unsearchedOfExpr? having ++ unsearchedOfCompound? compound ++
      ordering.map (·.expr) ++ limit.toList ++ offset.toList

/-- The unsearched expressions of a `FROM` item. -/
def FromItem.unsearched : FromItem → List Expr
  | .table _ _ => []
  | .subquery query _ => query.unsearched
  | .join left _ right condition => left.unsearched ++ right.unsearched ++ condition.unsearched

/-- The unsearched expressions of a join condition. -/
def JoinCondition.unsearched : JoinCondition → List Expr
  | .none => []
  | .on condition => condition.unsearched
  | .using _ => []

/-- The unsearched expressions of several expressions. -/
def unsearchedOfExprs : List Expr → List Expr
  | [] => []
  | expr :: exprs => expr.unsearched ++ unsearchedOfExprs exprs

/-- The unsearched expressions of an expression that may be missing. -/
def unsearchedOfExpr? : Option Expr → List Expr
  | none => []
  | some expr => expr.unsearched

/-- The unsearched expressions of the arms of a case expression. -/
def unsearchedOfBranches : List Branch → List Expr
  | [] => []
  | ⟨condition, result⟩ :: branches =>
    condition.unsearched ++ result.unsearched ++ unsearchedOfBranches branches

/-- The expressions inside column definitions. -/
def unsearchedOfColumns : List ColumnDef → List Expr
  | [] => []
  | column :: columns => column.unsearched ++ unsearchedOfColumns columns

/-- The unsearched expressions of a select list. -/
def unsearchedOfItems : List SelectItem → List Expr
  | [] => []
  | ⟨expr, _⟩ :: items => expr.unsearched ++ unsearchedOfItems items

/-- The unsearched expressions of a `FROM` clause that may be missing. -/
def unsearchedOfFrom? : Option FromItem → List Expr
  | none => []
  | some item => item.unsearched

/-- The unsearched expressions of a combined query that may be missing. -/
def unsearchedOfCompound? : Option Compound → List Expr
  | none => []
  | some ⟨_, _, right⟩ => right.unsearched

end

/-- The unsearched expressions of what is inserted. -/
def InsertSource.unsearched : InsertSource → List Expr
  | .rows rs => rs.flatMap unsearchedOfExprs
  | .query q => q.unsearched
  | .defaults => []

/-- The expressions of the value of a setting. -/
def SettingValue.exprs : SettingValue → List Expr
  | .default => []
  | .values es => es

/-- The expressions of a statement that are not searched for tables. -/
def Command.unsearched : Command → List Expr
  | .select q => q.unsearched
  | .insert i => i.source.unsearched
  | .update u =>
    unsearchedOfExprs (u.assignments.map (·.value)) ++ unsearchedOfFrom? u.source ++
      unsearchedOfExpr? u.filter
  | .delete d => unsearchedOfExpr? d.filter
  | .createTable c => unsearchedOfColumns c.columns ++ c.properties.map (·.value)
  | .explain _ command => command.unsearched
  | .optimize _ properties => properties.map (·.value)
  | .set _ _ value => value.exprs
  | .kill job => job.toList
  | _ => []

/-! ### Every reference is accounted for -/

/-- The references of some nodes are the given tables, interleaved with the references of the given
expressions. -/
def Accounted (tables : List TableName) (unsearched : List Expr) (nodes : List Node) : Prop :=
  Interleave tables (unsearched.flatMap Expr.references) (nodes.filterMap Node.table?)

namespace Accounted

variable {tables tables' : List TableName} {exprs exprs' : List Expr} {nodes nodes' : List Node}

/-- Nothing is to be accounted for. -/
theorem nil : Accounted [] [] [] :=
  Interleave.nil

/-- Accounts of two parts, one behind the other. -/
theorem append (h : Accounted tables exprs nodes) (h' : Accounted tables' exprs' nodes') :
    Accounted (tables ++ tables') (exprs ++ exprs') (nodes ++ nodes') := by
  rw [Accounted, List.flatMap_append, List.filterMap_append]
  exact Interleave.append h h'

/-- A node that names no table. -/
theorem node {n : Node} (hn : n.table? = none) (h : Accounted tables exprs nodes) :
    Accounted tables exprs (n :: nodes) := by
  rw [Accounted, List.filterMap_cons_none hn]
  exact h

/-- A node that names a table. -/
theorem table {n : Node} {name : TableName} (hn : n.table? = some name)
    (h : Accounted tables exprs nodes) : Accounted (name :: tables) exprs (n :: nodes) := by
  rw [Accounted, List.filterMap_cons_some hn]
  exact .left h

/-- An expression that is not searched. -/
theorem unsearched (expr : Expr) : Accounted [] [expr] expr.nodes := by
  rw [Accounted, List.flatMap_singleton]
  exact .nil_left _

end Accounted

/-- An expression that is not searched, if it is there. -/
theorem accounted_toList (expr : Option Expr) : Accounted [] expr.toList (nodesOfExpr? expr) := by
  cases expr with
  | none => exact .nil
  | some expr => exact .unsearched expr

/-- What a query is ordered by is not searched. -/
theorem accounted_ordering (ordering : List OrderItem) :
    Accounted [] (ordering.map (·.expr)) (nodesOfOrdering ordering) := by
  induction ordering with
  | nil => exact .nil
  | cons item items ih =>
    obtain ⟨expr, descending, nulls⟩ := item
    exact (Accounted.unsearched expr).append ih

/-- The values of properties are not searched. -/
theorem accounted_properties (properties : List Property) :
    Accounted [] (properties.map (·.value)) (nodesOfProperties properties) := by
  induction properties with
  | nil => exact .nil
  | cons property properties ih => exact (Accounted.unsearched property.value).append ih

/-- The values of a setting are not searched. -/
theorem accounted_exprs (exprs : List Expr) : Accounted [] exprs (nodesOfExprs exprs) := by
  induction exprs with
  | nil => exact .nil
  | cons expr exprs ih => exact (Accounted.unsearched expr).append ih

mutual

/-- Nothing is collected from types. -/
theorem DataType.accounted : (type : DataType) → Accounted [] type.unsearched type.nodes
  | .object _ columns => (accountedOfColumns columns).node rfl
  | .array element => element.accounted.node rfl
  | .smallint | .integer | .bigint | .real | .double | .decimal _ | .numeric _ | .char _
  | .varchar _ | .text | .date | .time | .timestamp | .boolean | .custom _ => Accounted.nil.node rfl

/-- Nothing is collected from column definitions. -/
theorem ColumnDef.accounted : (column : ColumnDef) →
    Accounted [] column.unsearched column.nodes
  | ⟨_, type, _, default, _, generated⟩ =>
    ((type.accounted.append (accounted_toList default)).append
      (accounted_toList generated)).node rfl

theorem accountedOfColumns : (columns : List ColumnDef) →
    Accounted [] (unsearchedOfColumns columns) (nodesOfColumns columns)
  | [] => .nil
  | column :: columns => column.accounted.append (accountedOfColumns columns)

end

mutual

/-- **Expressions.** -/
theorem Expr.accounted : (expr : Expr) → Accounted expr.tables expr.unsearched expr.nodes
  | .literal _ | .column _ _ _ | .parameter _ | .wildcard _ => Accounted.nil.node rfl
  | .binary _ left right => (left.accounted.append right.accounted).node rfl
  | .unary _ operand => operand.accounted.node rfl
  | .call _ _ arguments => (accountedOfExprs arguments).node rfl
  | .subquery query => query.accounted.node rfl
  | .exists query => query.accounted.node rfl
  | .isNull operand _ => operand.accounted.node rfl
  | .isIn operand list _ => (operand.accounted.append (accountedOfExprs list)).node rfl
  | .between operand low high _ =>
    ((operand.accounted.append low.accounted).append high.accounted).node rfl
  | .case operand branches otherwise =>
    (((accountedOfExpr? operand).append (accountedOfBranches branches)).append
      (accountedOfExpr? otherwise)).node rfl
  | .cast operand type => by
    have h := (operand.accounted.append type.accounted).node (n := .expr (.cast operand type)) rfl
    rw [List.append_nil] at h
    exact h
  | .array items => (accountedOfExprs items).node rfl
  | .subscript base index => (base.accounted.append index.accounted).node rfl
  | .paren inner => inner.accounted.node rfl

/-- **Queries**, whose last clauses are not searched. -/
theorem Query.accounted : (query : Query) → Accounted query.tables query.unsearched query.nodes
  | ⟨distinct, items, source, filter, grouping, having, compound, ordering, limit, offset⟩ => by
    have searched := (((((accountedOfItems items).append (accountedOfFrom? source)).append
      (accountedOfExpr? filter)).append (accountedOfExprs grouping)).append
      (accountedOfExpr? having)).append (accountedOfCompound? compound)
    have all := ((searched.append (accounted_ordering ordering)).append
      (accounted_toList limit)).append (accounted_toList offset)
    simp only [List.append_nil] at all
    exact all.node (n := .query ⟨distinct, items, source, filter, grouping, having, compound,
      ordering, limit, offset⟩) rfl

/-- **`FROM` items**, which name the tables. -/
theorem FromItem.accounted : (item : FromItem) →
    Accounted item.tables item.unsearched item.nodes
  | .table _ _ => Accounted.nil.table rfl
  | .subquery query _ => query.accounted.node rfl
  | .join left _ right condition =>
    ((left.accounted.append right.accounted).append condition.accounted).node rfl

theorem JoinCondition.accounted : (condition : JoinCondition) →
    Accounted condition.tables condition.unsearched condition.nodes
  | .none | .using _ => .nil
  | .on condition => condition.accounted

theorem accountedOfExprs : (exprs : List Expr) →
    Accounted (tablesOfExprs exprs) (unsearchedOfExprs exprs) (nodesOfExprs exprs)
  | [] => .nil
  | expr :: exprs => expr.accounted.append (accountedOfExprs exprs)

/-- An expression that may be missing. -/
theorem accountedOfExpr? : (expr : Option Expr) →
    Accounted (tablesOfExpr? expr) (unsearchedOfExpr? expr) (nodesOfExpr? expr)
  | none => .nil
  | some expr => expr.accounted

theorem accountedOfBranches : (branches : List Branch) →
    Accounted (tablesOfBranches branches) (unsearchedOfBranches branches)
      (nodesOfBranches branches)
  | [] => .nil
  | ⟨condition, result⟩ :: branches =>
    (condition.accounted.append result.accounted).append (accountedOfBranches branches)

theorem accountedOfItems : (items : List SelectItem) →
    Accounted (tablesOfItems items) (unsearchedOfItems items) (nodesOfItems items)
  | [] => .nil
  | ⟨expr, _⟩ :: items => expr.accounted.append (accountedOfItems items)

theorem accountedOfFrom? : (item : Option FromItem) →
    Accounted (tablesOfFrom? item) (unsearchedOfFrom? item) (nodesOfFrom? item)
  | none => .nil
  | some item => item.accounted

/-- A further query behind a set operation. -/
theorem accountedOfCompound? : (compound : Option Compound) →
    Accounted (tablesOfCompound? compound) (unsearchedOfCompound? compound)
      (nodesOfCompound? compound)
  | none => .nil
  | some ⟨_, _, right⟩ => right.accounted

end

/-- The rows or the query that is inserted. -/
theorem InsertSource.accounted (source : InsertSource) :
    Accounted source.tables source.unsearched source.nodes := by
  cases source with
  | rows rs =>
    induction rs with
    | nil => exact .nil
    | cons row rs ih => exact (accountedOfExprs row).append ih
  | query q => exact q.accounted
  | defaults => exact .nil

theorem accountedOfAssignments (assignments : List Assignment) :
    Accounted (tablesOfExprs (assignments.map (·.value)))
      (unsearchedOfExprs (assignments.map (·.value))) (assignments.flatMap (·.value.nodes)) := by
  induction assignments with
  | nil => exact .nil
  | cons assignment assignments ih => exact assignment.value.accounted.append ih

/-- Tables that a statement names itself. -/
theorem accountedOfTables (tables : List TableName) :
    Accounted tables [] (tables.map .table) := by
  induction tables with
  | nil => exact .nil
  | cons table tables ih => exact ih.table rfl

theorem SettingValue.accounted (value : SettingValue) :
    Accounted [] value.exprs value.nodes := by
  cases value with
  | default => exact .nil
  | values es => exact accounted_exprs es

/-- **Every reference of a statement is either found or lies in an unsearched expression.** -/
theorem Command.accounted (command : Command) :
    Accounted command.tables command.unsearched command.nodes := by
  induction command with
  | select q => exact q.accounted
  | insert i => exact i.source.accounted.table rfl
  | update u =>
    exact (((accountedOfAssignments u.assignments).append (accountedOfFrom? u.source)).append
      (accountedOfExpr? u.filter)).table rfl
  | delete d => exact (accountedOfExpr? d.filter).table rfl
  | createTable c =>
    exact ((accountedOfColumns c.columns).append (accounted_properties c.properties)).table rfl
  | dropTable _ table => exact Accounted.nil.table rfl
  | explain _ command ih => exact ih
  | refresh tables => exact accountedOfTables tables
  | optimize tables properties =>
    have h := (accountedOfTables tables).append (accounted_properties properties)
    rw [List.append_nil] at h
    exact h
  | «show» target =>
    cases target with
    | createTable table => exact Accounted.nil.table rfl
    | _ => exact .nil
  | set _ _ value => exact value.accounted
  | kill job => exact accounted_toList job
  | _ => exact .nil

/-- Properties name no tables. -/
theorem Metadata.tables_foldl_addProperty (properties : List Property) (metadata : Metadata) :
    (properties.foldl addProperty metadata).tables = metadata.tables := by
  induction properties generalizing metadata with
  | nil => rfl
  | cons property properties ih =>
    rw [List.foldl_cons, ih, addProperty]
    split <;> rfl

/-- The metadata of a statement lists what is collected from it. -/
theorem Metadata.tables_ofCommand (command : Command) :
    (ofCommand command).tables = command.tables :=
  tables_foldl_addProperty _ _

/-- **The tables of a statement are its references but for those in unsearched expressions.** They
come in the order of the references, and they are all of them just when no unsearched expression
refers to a table. -/
theorem Statement.tables_metadata (batch : String) (span : Span) (tree : Command) :
    Interleave (Statement.mk batch span (.ok tree)).metadata.tables
        (tree.unsearched.flatMap Expr.references) tree.references ∧
      ((Statement.mk batch span (.ok tree)).metadata.tables = tree.references ↔
        ∀ expr ∈ tree.unsearched, expr.references = []) := by
  have htables : (Statement.mk batch span (.ok tree)).metadata.tables = tree.tables :=
    Metadata.tables_ofCommand tree
  have haccounted : Interleave tree.tables _ tree.references := tree.accounted
  rw [htables, haccounted.eq_iff, List.flatMap_eq_nil_iff]
  exact ⟨haccounted, Iff.rfl⟩

/-- A table that is referred to in an ordering alone is not found. -/
theorem tables_metadata_orderBy :
    (parseBatch "SELECT a FROM t ORDER BY (SELECT b FROM u)" false).toOption.map
        (·.map fun s ↦ (s.metadata.tables, s.tree?.map Command.references)) =
      some [([⟨none, "t"⟩], some [⟨none, "t"⟩, ⟨none, "u"⟩])] := by
  decide +kernel

end SqlBatch
