import SqlBatch.Tree.Command

/-!
# Changing the labels of a tree

Two kinds of data in a tree say where something is written rather than what it means: the places of
columns, and the numbers of `?` parameters. A `Relabeling` maps both, and `relabel` carries it
through a whole tree. Trees that agree after all places are forgotten (`Relabeling.forgetPlaces`)
are the same statement, written in different places.

## Lists in a tree

The trees are nested, so `relabel` is defined by mutual recursion with functions for each kind of
list in a tree. For the outside these are the maps of lists and options: `relabelExprs_eq_map` and
its companions are how everything else is to think of them.

Where the labels are left as they are, so is every tree (`Command.relabel_id`).
-/

namespace SqlBatch

/-- A change of the places of columns and of parameters. -/
structure Relabeling where
  span : Span → Span
  parameter : Parameter → Parameter

namespace Relabeling

/-- Leave everything as it is. -/
def id : Relabeling := ⟨fun s ↦ s, fun p ↦ p⟩

/-- Move every column by a number of bytes. -/
def shift (offset : Nat) : Relabeling :=
  ⟨Span.shift offset, fun p ↦ p⟩

/-- Forget where columns are written. -/
def forgetPlaces : Relabeling := ⟨fun _ ↦ ⟨0, 0⟩, fun p ↦ p⟩

/-- Number the `?` parameters from `start + 1` on instead of from one on. -/
def renumber (start : Nat) : Relabeling where
  span s := s
  parameter
    | .anonymous n => .anonymous (n + start)
    | p => p

end Relabeling

mutual

/-- The expression with its labels changed. -/
def Expr.relabel (f : Relabeling) : Expr → Expr
  | .literal value => .literal value
  | .column table name span => .column table name (f.span span)
  | .binary op left right => .binary op (left.relabel f) (right.relabel f)
  | .unary op operand => .unary op (operand.relabel f)
  | .call name distinct arguments => .call name distinct (relabelExprs f arguments)
  | .subquery query => .subquery (query.relabel f)
  | .exists query => .exists (query.relabel f)
  | .isNull operand negated => .isNull (operand.relabel f) negated
  | .isIn operand list negated => .isIn (operand.relabel f) (relabelExprs f list) negated
  | .between operand low high negated =>
    .between (operand.relabel f) (low.relabel f) (high.relabel f) negated
  | .case operand branches otherwise =>
    .case (relabelExpr? f operand) (relabelBranches f branches) (relabelExpr? f otherwise)
  | .cast operand type => .cast (operand.relabel f) (type.relabel f)
  | .array items => .array (relabelExprs f items)
  | .subscript base index => .subscript (base.relabel f) (index.relabel f)
  | .paren inner => .paren (inner.relabel f)
  | .parameter p => .parameter (f.parameter p)
  | .wildcard table => .wildcard table

/-- The type with the labels in its columns changed. -/
def DataType.relabel (f : Relabeling) : DataType → DataType
  | .object policy columns => .object policy (relabelColumns f columns)
  | .array element => .array (element.relabel f)
  | .smallint => .smallint
  | .integer => .integer
  | .bigint => .bigint
  | .real => .real
  | .double => .double
  | .decimal size => .decimal size
  | .numeric size => .numeric size
  | .char length => .char length
  | .varchar length => .varchar length
  | .text => .text
  | .date => .date
  | .time => .time
  | .timestamp => .timestamp
  | .boolean => .boolean
  | .custom name => .custom name

/-- The column definition with its labels changed. -/
def ColumnDef.relabel (f : Relabeling) : ColumnDef → ColumnDef
  | ⟨name, type, nullable, default, primaryKey, generated⟩ =>
    ⟨name, type.relabel f, nullable, relabelExpr? f default, primaryKey, relabelExpr? f generated⟩

/-- The query with its labels changed. -/
def Query.relabel (f : Relabeling) : Query → Query
  | ⟨distinct, items, source, filter, grouping, having, compound, ordering, limit, offset⟩ =>
    ⟨distinct, relabelItems f items, relabelFrom? f source, relabelExpr? f filter,
      relabelExprs f grouping, relabelExpr? f having, relabelCompound? f compound,
      relabelOrdering f ordering, relabelExpr? f limit, relabelExpr? f offset⟩

/-- The `FROM` item with its labels changed. -/
def FromItem.relabel (f : Relabeling) : FromItem → FromItem
  | .table table alias? => .table table alias?
  | .subquery query name => .subquery (query.relabel f) name
  | .join left kind right condition =>
    .join (left.relabel f) kind (right.relabel f) (condition.relabel f)

/-- The join condition with its labels changed. -/
def JoinCondition.relabel (f : Relabeling) : JoinCondition → JoinCondition
  | .none => .none
  | .on condition => .on (condition.relabel f)
  | .using columns => .using columns

/-- Several expressions with their labels changed. -/
def relabelExprs (f : Relabeling) : List Expr → List Expr
  | [] => []
  | expr :: exprs => expr.relabel f :: relabelExprs f exprs

/-- An expression that may be missing, with its labels changed. -/
def relabelExpr? (f : Relabeling) : Option Expr → Option Expr
  | none => none
  | some expr => some (expr.relabel f)

/-- The arms of a case expression with their labels changed. -/
def relabelBranches (f : Relabeling) : List Branch → List Branch
  | [] => []
  | ⟨condition, result⟩ :: branches =>
    ⟨condition.relabel f, result.relabel f⟩ :: relabelBranches f branches

/-- Column definitions with their labels changed. -/
def relabelColumns (f : Relabeling) : List ColumnDef → List ColumnDef
  | [] => []
  | column :: columns => column.relabel f :: relabelColumns f columns

/-- A select list with its labels changed. -/
def relabelItems (f : Relabeling) : List SelectItem → List SelectItem
  | [] => []
  | ⟨expr, alias?⟩ :: items => ⟨expr.relabel f, alias?⟩ :: relabelItems f items

/-- A `FROM` clause that may be missing, with its labels changed. -/
def relabelFrom? (f : Relabeling) : Option FromItem → Option FromItem
  | none => none
  | some item => some (item.relabel f)

/-- A combined query that may be missing, with its labels changed. -/
def relabelCompound? (f : Relabeling) : Option Compound → Option Compound
  | none => none
  | some ⟨op, all, right⟩ => some ⟨op, all, right.relabel f⟩

/-- An ordering with its labels changed. -/
def relabelOrdering (f : Relabeling) : List OrderItem → List OrderItem
  | [] => []
  | ⟨expr, descending, nulls⟩ :: items =>
    ⟨expr.relabel f, descending, nulls⟩ :: relabelOrdering f items

end

/-- The arm of a case expression with its labels changed. -/
def Branch.relabel (f : Relabeling) (branch : Branch) : Branch :=
  ⟨branch.condition.relabel f, branch.result.relabel f⟩

/-- The item of a select list with its labels changed. -/
def SelectItem.relabel (f : Relabeling) (item : SelectItem) : SelectItem :=
  { item with expr := item.expr.relabel f }

/-- The combined query with its labels changed. -/
def Compound.relabel (f : Relabeling) (compound : Compound) : Compound :=
  { compound with right := compound.right.relabel f }

/-- The item of an ordering with its labels changed. -/
def OrderItem.relabel (f : Relabeling) (item : OrderItem) : OrderItem :=
  { item with expr := item.expr.relabel f }

/-- What is inserted, with its labels changed. -/
def InsertSource.relabel (f : Relabeling) : InsertSource → InsertSource
  | .rows rs => .rows (rs.map (relabelExprs f))
  | .query q => .query (q.relabel f)
  | .defaults => .defaults

/-- The property with its labels changed. -/
def Property.relabel (f : Relabeling) (property : Property) : Property :=
  { property with value := property.value.relabel f }

/-- The assignment with its labels changed. -/
def Assignment.relabel (f : Relabeling) (assignment : Assignment) : Assignment :=
  { assignment with value := assignment.value.relabel f }

/-- The value of a setting with its labels changed. -/
def SettingValue.relabel (f : Relabeling) : SettingValue → SettingValue
  | .default => .default
  | .values es => .values (relabelExprs f es)

/-- The statement with its labels changed. -/
def Command.relabel (f : Relabeling) : Command → Command
  | .select q => .select (q.relabel f)
  | .insert i => .insert { i with source := i.source.relabel f }
  | .update u =>
    .update { u with
      assignments := u.assignments.map (·.relabel f)
      source := relabelFrom? f u.source
      filter := relabelExpr? f u.filter }
  | .delete d => .delete { d with filter := relabelExpr? f d.filter }
  | .createTable c =>
    .createTable { c with
      columns := relabelColumns f c.columns
      properties := c.properties.map (·.relabel f) }
  | .dropTable ifExists table => .dropTable ifExists table
  | .explain analyzed command => .explain analyzed (command.relabel f)
  | .refresh tables => .refresh tables
  | .optimize tables properties => .optimize tables (properties.map (·.relabel f))
  | .show target => .show target
  | .set scope name value => .set scope name (value.relabel f)
  | .reset name => .reset name
  | .begin => .begin
  | .commit => .commit
  | .kill job => .kill (relabelExpr? f job)
  | .analyze => .analyze
  | .discard target => .discard target
  | .deallocate name => .deallocate name
  | .close name => .close name

/-! ### Relabeling item by item -/

section

variable (f : Relabeling)

@[simp] theorem relabelExprs_eq_map (exprs : List Expr) :
    relabelExprs f exprs = exprs.map (·.relabel f) := by
  induction exprs with
  | nil => simp [relabelExprs]
  | cons e es ih => simp [relabelExprs, ih]

/-- An expression that may be missing. -/
@[simp] theorem relabelExpr?_eq_map (expr : Option Expr) :
    relabelExpr? f expr = expr.map (·.relabel f) := by
  cases expr <;> simp [relabelExpr?]

@[simp] theorem relabelColumns_eq_map (columns : List ColumnDef) :
    relabelColumns f columns = columns.map (·.relabel f) := by
  induction columns with
  | nil => simp [relabelColumns]
  | cons c cs ih => simp [relabelColumns, ih]

/-- A `FROM` clause that may be missing. -/
@[simp] theorem relabelFrom?_eq_map (item : Option FromItem) :
    relabelFrom? f item = item.map (·.relabel f) := by
  cases item <;> simp [relabelFrom?]

@[simp] theorem relabelBranches_eq_map (branches : List Branch) :
    relabelBranches f branches = branches.map (·.relabel f) := by
  induction branches with
  | nil => simp [relabelBranches]
  | cons b bs ih =>
    cases b
    simp [relabelBranches, Branch.relabel, ih]

/-- What is selected, item by item. -/
@[simp] theorem relabelItems_eq_map (items : List SelectItem) :
    relabelItems f items = items.map (·.relabel f) := by
  induction items with
  | nil => simp [relabelItems]
  | cons i is ih =>
    cases i
    simp [relabelItems, SelectItem.relabel, ih]

/-- The query behind a set operation. -/
@[simp] theorem relabelCompound?_eq_map (compound : Option Compound) :
    relabelCompound? f compound = compound.map (·.relabel f) := by
  rcases compound with _ | ⟨op, all, right⟩ <;> simp [relabelCompound?, Compound.relabel]

/-- What is ordered by, item by item. -/
@[simp] theorem relabelOrdering_eq_map (ordering : List OrderItem) :
    relabelOrdering f ordering = ordering.map (·.relabel f) := by
  induction ordering with
  | nil => simp [relabelOrdering]
  | cons i is ih =>
    cases i
    simp [relabelOrdering, OrderItem.relabel, ih]

end

/-! ### Leaving the labels as they are -/

mutual

/-- An expression with its labels left as they are. -/
theorem Expr.relabel_id : (expr : Expr) → expr.relabel .id = expr
  | .literal _ => rfl
  | .column _ _ _ => rfl
  | .binary _ left right => by rw [Expr.relabel, left.relabel_id, right.relabel_id]
  | .unary _ operand => by rw [Expr.relabel, operand.relabel_id]
  | .call _ _ arguments => by rw [Expr.relabel, relabelExprs_id arguments]
  | .subquery query => by rw [Expr.relabel, query.relabel_id]
  | .exists query => by rw [Expr.relabel, query.relabel_id]
  | .isNull operand _ => by rw [Expr.relabel, operand.relabel_id]
  | .isIn operand list _ => by rw [Expr.relabel, operand.relabel_id, relabelExprs_id list]
  | .between operand low high _ => by
    rw [Expr.relabel, operand.relabel_id, low.relabel_id, high.relabel_id]
  | .case operand branches otherwise => by
    rw [Expr.relabel, relabelExpr?_id operand, relabelBranches_id branches,
      relabelExpr?_id otherwise]
  | .cast operand type => by rw [Expr.relabel, operand.relabel_id, type.relabel_id]
  | .array items => by rw [Expr.relabel, relabelExprs_id items]
  | .subscript base index => by rw [Expr.relabel, base.relabel_id, index.relabel_id]
  | .paren inner => by rw [Expr.relabel, inner.relabel_id]
  | .parameter _ => rfl
  | .wildcard _ => rfl

/-- A type with its labels left as they are. -/
theorem DataType.relabel_id : (type : DataType) → type.relabel .id = type
  | .object _ columns => by rw [DataType.relabel, relabelColumns_id columns]
  | .array element => by rw [DataType.relabel, element.relabel_id]
  | .smallint | .integer | .bigint | .real | .double | .decimal _ | .numeric _ | .char _
  | .varchar _ | .text | .date | .time | .timestamp | .boolean | .custom _ => rfl

/-- A column with its labels left as they are. -/
theorem ColumnDef.relabel_id : (column : ColumnDef) → column.relabel .id = column
  | ⟨_, type, _, default, _, generated⟩ => by
    rw [ColumnDef.relabel, type.relabel_id, relabelExpr?_id default, relabelExpr?_id generated]

/-- A query with its labels left as they are. -/
theorem Query.relabel_id : (query : Query) → query.relabel .id = query
  | ⟨_, items, source, filter, grouping, having, compound, ordering, limit, offset⟩ => by
    rw [Query.relabel, relabelItems_id items, relabelFrom?_id source, relabelExpr?_id filter,
      relabelExprs_id grouping, relabelExpr?_id having, relabelCompound?_id compound,
      relabelOrdering_id ordering, relabelExpr?_id limit, relabelExpr?_id offset]

/-- A `FROM` item with its labels left as they are. -/
theorem FromItem.relabel_id : (item : FromItem) → item.relabel .id = item
  | .table _ _ => rfl
  | .subquery query _ => by rw [FromItem.relabel, query.relabel_id]
  | .join left _ right condition => by
    rw [FromItem.relabel, left.relabel_id, right.relabel_id, condition.relabel_id]

theorem JoinCondition.relabel_id : (condition : JoinCondition) → condition.relabel .id = condition
  | .none | .using _ => rfl
  | .on condition => by rw [JoinCondition.relabel, condition.relabel_id]

theorem relabelExprs_id : (exprs : List Expr) → relabelExprs .id exprs = exprs
  | [] => rfl
  | expr :: exprs => by rw [relabelExprs, expr.relabel_id, relabelExprs_id exprs]

theorem relabelExpr?_id : (expr : Option Expr) → relabelExpr? .id expr = expr
  | none => rfl
  | some expr => by rw [relabelExpr?, expr.relabel_id]

theorem relabelBranches_id : (branches : List Branch) → relabelBranches .id branches = branches
  | [] => rfl
  | ⟨condition, result⟩ :: branches => by
    rw [relabelBranches, condition.relabel_id, result.relabel_id, relabelBranches_id branches]

theorem relabelColumns_id : (columns : List ColumnDef) → relabelColumns .id columns = columns
  | [] => rfl
  | column :: columns => by rw [relabelColumns, column.relabel_id, relabelColumns_id columns]

theorem relabelItems_id : (items : List SelectItem) → relabelItems .id items = items
  | [] => rfl
  | ⟨expr, _⟩ :: items => by rw [relabelItems, expr.relabel_id, relabelItems_id items]

theorem relabelFrom?_id : (item : Option FromItem) → relabelFrom? .id item = item
  | none => rfl
  | some item => by rw [relabelFrom?, item.relabel_id]

theorem relabelCompound?_id : (compound : Option Compound) →
    relabelCompound? .id compound = compound
  | none => rfl
  | some ⟨_, _, right⟩ => by rw [relabelCompound?, right.relabel_id]

theorem relabelOrdering_id : (ordering : List OrderItem) → relabelOrdering .id ordering = ordering
  | [] => rfl
  | ⟨expr, _, _⟩ :: items => by rw [relabelOrdering, expr.relabel_id, relabelOrdering_id items]

end

/-- Leaving the labels as they are leaves the statement as it is. -/
@[simp] theorem Command.relabel_id (command : Command) : command.relabel .id = command := by
  have assignments (as : List Assignment) : as.map (·.relabel .id) = as := by
    simp [Assignment.relabel, Expr.relabel_id]
  have properties (ps : List Property) : ps.map (·.relabel .id) = ps := by
    simp [Property.relabel, Expr.relabel_id]
  induction command with
  | select query => rw [Command.relabel, query.relabel_id]
  | insert i =>
    obtain ⟨table, columns, source⟩ := i
    cases source with
    | rows rs =>
      have rows : rs.map (relabelExprs .id) = rs := by
        rw [show relabelExprs .id = fun exprs ↦ exprs from funext relabelExprs_id, List.map_id']
      simp only [Command.relabel, InsertSource.relabel, rows]
    | query q => simp only [Command.relabel, InsertSource.relabel, q.relabel_id]
    | defaults => rfl
  | update u => rw [Command.relabel, assignments, relabelFrom?_id, relabelExpr?_id]
  | delete d => rw [Command.relabel, relabelExpr?_id]
  | createTable c => rw [Command.relabel, relabelColumns_id, properties]
  | explain analyzed command ih => rw [Command.relabel, ih]
  | optimize tables ps => rw [Command.relabel, properties]
  | set scope name value =>
    cases value <;> simp only [Command.relabel, SettingValue.relabel, relabelExprs_id]
  | kill job => rw [Command.relabel, relabelExpr?_id]
  | _ => rfl

end SqlBatch
