import SqlBatch.Tree.Command

/-!
# The height of a tree

How many nodes stand above each other in a tree. A tree grows downwards where constructs are nested
in each other, and along chains: `a + b + c`, `a::t[1] IS NULL` and `a JOIN b JOIN c` each put one
node above another for every operator, subscript, predicate or join that follows.

## One measure

A `Gauge` says what a step inside and what a link of a chain count, so that one measure
(`Expr.extent` and its companions) tells the height, the nesting and the length of the chains of a
tree. It is defined along the tree once, for all gauges.

## Results

* An extent is bounded by a bound for all parts, whatever the parts are (`extentOfExprs_le` and its
  companions, one for each kind of list in a tree).
* What two gauges count together is at most the sum of what each of them counts
  (`Command.extent_add_le`). It need not be equal, for the longest way need not be the same. With
  `Gauge.nesting_add_chaining`, this bounds the height of a tree by its nesting and its chains.
-/

namespace SqlBatch

/-- What is counted on the way down a tree. -/
structure Gauge where
  /-- A step from a node to one inside, and the last node. -/
  step : Nat
  /-- A link of a chain: a step from an operator, a predicate, a subscript or a cast to the operand
  in front of it, from a `NOT` to the `LIKE` in front of which it stands, or from a join to the item
  on its left. -/
  link : Nat

namespace Gauge

/-- What one gauge counts and what another one counts. -/
instance : Add Gauge where
  add g h := ⟨g.step + h.step, g.link + h.link⟩

/-- All nodes on the way. -/
def height : Gauge := ⟨1, 1⟩

/-- All nodes but those that a link leads to. -/
def nesting : Gauge := ⟨1, 0⟩

/-- The links alone. -/
def chaining : Gauge := ⟨0, 1⟩

/-- Every node on the way is reached by a step or by a link. -/
theorem nesting_add_chaining : nesting + chaining = height := rfl

end Gauge

/-- Whether the operator and its operand are one `NOT LIKE`. -/
def UnaryOp.isNotLike : UnaryOp → Expr → Bool
  | .not, .binary .like _ _ => true
  | _, _ => false

mutual

/-- What a gauge counts on the longest way down an expression. -/
def Expr.extent (g : Gauge) : Expr → Nat
  | .binary _ left right => max (g.link + left.extent g) (g.step + right.extent g)
  | .unary op operand =>
    (if op.isNotLike operand then g.link else g.step) + operand.extent g
  | .call _ _ arguments => g.step + extentOfExprs g arguments
  | .subquery query => g.step + query.extent g
  | .exists query => g.step + query.extent g
  | .isNull operand _ => g.link + operand.extent g
  | .isIn operand list _ => max (g.link + operand.extent g) (g.step + extentOfExprs g list)
  | .between operand low high _ =>
    max (g.link + operand.extent g) (g.step + max (low.extent g) (high.extent g))
  | .case operand branches otherwise =>
    g.step + max (extentOfExpr? g operand)
      (max (extentOfBranches g branches) (extentOfExpr? g otherwise))
  | .cast operand type => max (g.link + operand.extent g) (g.step + type.extent g)
  | .array items => g.step + extentOfExprs g items
  | .subscript base index => max (g.link + base.extent g) (g.step + index.extent g)
  | .paren inner => g.step + inner.extent g
  | _ => g.step

/-- What a gauge counts on the longest way down a type. -/
def DataType.extent (g : Gauge) : DataType → Nat
  | .object _ columns => g.step + extentOfColumns g columns
  | .array element => g.step + element.extent g
  | _ => g.step

/-- What a gauge counts on the longest way down a column definition. -/
def ColumnDef.extent (g : Gauge) : ColumnDef → Nat
  | ⟨_, type, _, default, _, generated⟩ =>
    g.step + max (type.extent g) (max (extentOfExpr? g default) (extentOfExpr? g generated))

/-- What a gauge counts on the longest way down a query. -/
def Query.extent (g : Gauge) : Query → Nat
  | ⟨_, items, source, filter, grouping, having, compound, ordering, limit, offset⟩ =>
    g.step + max (max (extentOfItems g items)
        (max (extentOfFrom? g source) (extentOfExpr? g filter)))
      (max (max (extentOfExprs g grouping)
          (max (extentOfExpr? g having) (extentOfCompound? g compound)))
        (max (extentOfOrdering g ordering) (max (extentOfExpr? g limit) (extentOfExpr? g offset))))

/-- What a gauge counts on the longest way down a `FROM` item. -/
def FromItem.extent (g : Gauge) : FromItem → Nat
  | .table _ _ => g.step
  | .subquery query _ => g.step + query.extent g
  | .join left _ right condition =>
    max (g.link + left.extent g) (g.step + max (right.extent g) (condition.extent g))

/-- What a gauge counts on the longest way down a join condition. -/
def JoinCondition.extent (g : Gauge) : JoinCondition → Nat
  | .on condition => condition.extent g
  | _ => 0

/-- The greatest count among several expressions. -/
def extentOfExprs (g : Gauge) : List Expr → Nat
  | [] => 0
  | expr :: exprs => max (expr.extent g) (extentOfExprs g exprs)

/-- The count of an expression that may be missing. -/
def extentOfExpr? (g : Gauge) : Option Expr → Nat
  | none => 0
  | some expr => expr.extent g

/-- The greatest count among the arms of a case expression. -/
def extentOfBranches (g : Gauge) : List Branch → Nat
  | [] => 0
  | ⟨condition, result⟩ :: branches =>
    max (max (condition.extent g) (result.extent g)) (extentOfBranches g branches)

/-- The greatest count among column definitions. -/
def extentOfColumns (g : Gauge) : List ColumnDef → Nat
  | [] => 0
  | column :: columns => max (column.extent g) (extentOfColumns g columns)

/-- The greatest count in a select list. -/
def extentOfItems (g : Gauge) : List SelectItem → Nat
  | [] => 0
  | ⟨expr, _⟩ :: items => max (expr.extent g) (extentOfItems g items)

/-- The count of a `FROM` clause that may be missing. -/
def extentOfFrom? (g : Gauge) : Option FromItem → Nat
  | none => 0
  | some item => item.extent g

/-- The count of a combined query that may be missing. -/
def extentOfCompound? (g : Gauge) : Option Compound → Nat
  | none => 0
  | some ⟨_, _, right⟩ => right.extent g

/-- The greatest count in an ordering. -/
def extentOfOrdering (g : Gauge) : List OrderItem → Nat
  | [] => 0
  | ⟨expr, _, _⟩ :: items => max (expr.extent g) (extentOfOrdering g items)

end

/-- What a gauge counts in what is inserted. -/
def InsertSource.extent (g : Gauge) : InsertSource → Nat
  | .rows rs => extentOfExprs g rs.flatten
  | .query q => q.extent g
  | .defaults => 0

/-- What a gauge counts in the value of a setting. -/
def SettingValue.extent (g : Gauge) : SettingValue → Nat
  | .default => 0
  | .values es => extentOfExprs g es

/-- What a gauge counts on the longest way down a statement. -/
def Command.extent (g : Gauge) : Command → Nat
  | .select q => g.step + q.extent g
  | .insert i => g.step + i.source.extent g
  | .update u =>
    g.step + max (extentOfExprs g (u.assignments.map (·.value)))
      (max (extentOfFrom? g u.source) (extentOfExpr? g u.filter))
  | .delete d => g.step + extentOfExpr? g d.filter
  | .createTable c =>
    g.step + max (extentOfColumns g c.columns) (extentOfExprs g (c.properties.map (·.value)))
  | .explain _ command => g.step + command.extent g
  | .optimize _ properties => g.step + extentOfExprs g (properties.map (·.value))
  | .set _ _ value => g.step + value.extent g
  | .kill job => g.step + extentOfExpr? g job
  | _ => g.step

/-- How many nodes of the tree stand above each other. -/
def Command.height (tree : Command) : Nat :=
  tree.extent .height

/-- Every expression has a node. -/
theorem Expr.extent_pos : (e : Expr) → 0 < e.extent .nesting
  | .literal _ | .column _ _ _ | .parameter _ | .wildcard _ => Nat.one_pos
  | .unary _ operand => Nat.add_pos_right _ operand.extent_pos
  | .call _ _ _ | .subquery _ | .exists _ | .array _ | .paren _ | .case _ _ _ =>
    Nat.add_pos_left Nat.one_pos _
  | .isNull operand _ => Nat.add_pos_right _ operand.extent_pos
  | .binary _ _ _ | .isIn _ _ _ | .between _ _ _ _ | .cast _ _ | .subscript _ _ =>
    Nat.lt_of_lt_of_le (Nat.add_pos_left Nat.one_pos _) (Nat.le_max_right _ _)

/-! ### Counts of several trees -/

section

variable {g : Gauge} {b : Nat}

/-- A bound for each of several expressions bounds them all. -/
theorem extentOfExprs_le {exprs : List Expr} (h : ∀ e ∈ exprs, e.extent g ≤ b) :
    extentOfExprs g exprs ≤ b := by
  induction exprs with
  | nil => exact Nat.zero_le b
  | cons expr exprs ih =>
    obtain ⟨hexpr, hexprs⟩ := List.forall_mem_cons.1 h
    exact Nat.max_le.2 ⟨hexpr, ih hexprs⟩

/-- A bound for an expression that may be missing. -/
theorem extentOfExpr?_le {expr? : Option Expr} (h : ∀ e ∈ expr?, e.extent g ≤ b) :
    extentOfExpr? g expr? ≤ b := by
  rcases expr? with _ | expr
  · exact Nat.zero_le b
  · exact h expr rfl

/-- A bound for the arms of a `CASE`. -/
theorem extentOfBranches_le {branches : List Branch}
    (h : ∀ branch ∈ branches, branch.condition.extent g ≤ b ∧ branch.result.extent g ≤ b) :
    extentOfBranches g branches ≤ b := by
  induction branches with
  | nil => exact Nat.zero_le b
  | cons branch branches ih =>
    obtain ⟨condition, result⟩ := branch
    obtain ⟨hbranch, hbranches⟩ := List.forall_mem_cons.1 h
    exact Nat.max_le.2 ⟨Nat.max_le.2 hbranch, ih hbranches⟩

/-- A bound for the columns of a table or of an object. -/
theorem extentOfColumns_le {columns : List ColumnDef} (h : ∀ c ∈ columns, c.extent g ≤ b) :
    extentOfColumns g columns ≤ b := by
  induction columns with
  | nil => exact Nat.zero_le b
  | cons column columns ih =>
    obtain ⟨hcolumn, hcolumns⟩ := List.forall_mem_cons.1 h
    exact Nat.max_le.2 ⟨hcolumn, ih hcolumns⟩

/-- A bound for what a query selects. -/
theorem extentOfItems_le {items : List SelectItem} (h : ∀ item ∈ items, item.expr.extent g ≤ b) :
    extentOfItems g items ≤ b := by
  induction items with
  | nil => exact Nat.zero_le b
  | cons item items ih =>
    obtain ⟨expr, alias?⟩ := item
    obtain ⟨hitem, hitems⟩ := List.forall_mem_cons.1 h
    exact Nat.max_le.2 ⟨hitem, ih hitems⟩

/-- A bound for a `FROM` clause that may be missing. -/
theorem extentOfFrom?_le {item? : Option FromItem} (h : ∀ item ∈ item?, item.extent g ≤ b) :
    extentOfFrom? g item? ≤ b := by
  rcases item? with _ | item
  · exact Nat.zero_le b
  · exact h item rfl

/-- A bound for the query behind a set operation. -/
theorem extentOfCompound?_le {compound? : Option Compound}
    (h : ∀ compound ∈ compound?, compound.right.extent g ≤ b) :
    extentOfCompound? g compound? ≤ b := by
  rcases compound? with _ | ⟨op, all, right⟩
  · exact Nat.zero_le b
  · exact h _ rfl

/-- A bound for what a query is ordered by. -/
theorem extentOfOrdering_le {items : List OrderItem}
    (h : ∀ item ∈ items, item.expr.extent g ≤ b) : extentOfOrdering g items ≤ b := by
  induction items with
  | nil => exact Nat.zero_le b
  | cons item items ih =>
    obtain ⟨expr, descending, nulls⟩ := item
    obtain ⟨hitem, hitems⟩ := List.forall_mem_cons.1 h
    exact Nat.max_le.2 ⟨hitem, ih hitems⟩

end

/-! ### Counts add up -/

/-- The greater of two sums is at most the sum of the greater parts. -/
theorem max_le_max_add_max {a a' b b' x y : Nat} (hx : x ≤ a + a') (hy : y ≤ b + b') :
    max x y ≤ max a b + max a' b' :=
  Nat.max_le.2 ⟨by omega, by omega⟩

/-- What a node counts by itself adds up, where the nodes inside do. -/
theorem add_le_add_add_add {a a' s s' x : Nat} (h : x ≤ a + a') :
    s + s' + x ≤ s + a + (s' + a') := by
  omega

section

variable (g h : Gauge)

mutual

/-- **Counts add up** over an expression: for each form, over its parts. -/
theorem Expr.extent_add_le : (e : Expr) → e.extent (g + h) ≤ e.extent g + e.extent h
  | .binary _ left right =>
    max_le_max_add_max (add_le_add_add_add left.extent_add_le)
      (add_le_add_add_add right.extent_add_le)
  | .unary op operand => by
    have hoperand := operand.extent_add_le
    simp only [Expr.extent]
    split
    · exact add_le_add_add_add hoperand
    · exact add_le_add_add_add hoperand
  | .call _ _ arguments => add_le_add_add_add (extentOfExprs_add_le arguments)
  | .subquery query => add_le_add_add_add query.extent_add_le
  | .exists query => add_le_add_add_add query.extent_add_le
  | .isNull operand _ => add_le_add_add_add operand.extent_add_le
  | .isIn operand list _ =>
    max_le_max_add_max (add_le_add_add_add operand.extent_add_le)
      (add_le_add_add_add (extentOfExprs_add_le list))
  | .between operand low high _ =>
    max_le_max_add_max (add_le_add_add_add operand.extent_add_le)
      (add_le_add_add_add (max_le_max_add_max low.extent_add_le high.extent_add_le))
  | .case operand branches otherwise =>
    add_le_add_add_add (max_le_max_add_max (extentOfExpr?_add_le operand)
      (max_le_max_add_max (extentOfBranches_add_le branches) (extentOfExpr?_add_le otherwise)))
  | .cast operand type =>
    max_le_max_add_max (add_le_add_add_add operand.extent_add_le)
      (add_le_add_add_add type.extent_add_le)
  | .array items => add_le_add_add_add (extentOfExprs_add_le items)
  | .subscript base index =>
    max_le_max_add_max (add_le_add_add_add base.extent_add_le)
      (add_le_add_add_add index.extent_add_le)
  | .paren inner => add_le_add_add_add inner.extent_add_le
  | .literal _ | .column _ _ _ | .parameter _ | .wildcard _ => Nat.le_refl _

/-- Counts add up over a type. -/
theorem DataType.extent_add_le : (type : DataType) →
    type.extent (g + h) ≤ type.extent g + type.extent h
  | .object _ columns => add_le_add_add_add (extentOfColumns_add_le columns)
  | .array element => add_le_add_add_add element.extent_add_le
  | .smallint | .integer | .bigint | .real | .double | .decimal _ | .numeric _ | .char _
  | .varchar _ | .text | .date | .time | .timestamp | .boolean | .custom _ => Nat.le_refl _

/-- Counts add up over a column. -/
theorem ColumnDef.extent_add_le : (column : ColumnDef) →
    column.extent (g + h) ≤ column.extent g + column.extent h
  | ⟨_, type, _, default, _, generated⟩ =>
    add_le_add_add_add (max_le_max_add_max type.extent_add_le
      (max_le_max_add_max (extentOfExpr?_add_le default) (extentOfExpr?_add_le generated)))

/-- Counts add up over a query and all of its clauses. -/
theorem Query.extent_add_le : (query : Query) →
    query.extent (g + h) ≤ query.extent g + query.extent h
  | ⟨_, items, source, filter, grouping, having, compound, ordering, limit, offset⟩ => by
    have hfront := max_le_max_add_max (extentOfItems_add_le items)
      (max_le_max_add_max (extentOfFrom?_add_le source) (extentOfExpr?_add_le filter))
    have hmiddle := max_le_max_add_max (extentOfExprs_add_le grouping)
      (max_le_max_add_max (extentOfExpr?_add_le having) (extentOfCompound?_add_le compound))
    have hending := max_le_max_add_max (extentOfOrdering_add_le ordering)
      (max_le_max_add_max (extentOfExpr?_add_le limit) (extentOfExpr?_add_le offset))
    exact add_le_add_add_add (max_le_max_add_max hfront (max_le_max_add_max hmiddle hending))

/-- Counts add up over a `FROM` item; a join is a link to the item on its left. -/
theorem FromItem.extent_add_le : (item : FromItem) →
    item.extent (g + h) ≤ item.extent g + item.extent h
  | .table _ _ => Nat.le_refl _
  | .subquery query _ => add_le_add_add_add query.extent_add_le
  | .join left _ right condition =>
    max_le_max_add_max (add_le_add_add_add left.extent_add_le)
      (add_le_add_add_add (max_le_max_add_max right.extent_add_le condition.extent_add_le))

/-- Counts add up over what a join joins on. -/
theorem JoinCondition.extent_add_le : (condition : JoinCondition) →
    condition.extent (g + h) ≤ condition.extent g + condition.extent h
  | .none | .using _ => Nat.le_refl _
  | .on condition => condition.extent_add_le

/-- Counts add up over several expressions. -/
theorem extentOfExprs_add_le : (exprs : List Expr) →
    extentOfExprs (g + h) exprs ≤ extentOfExprs g exprs + extentOfExprs h exprs
  | [] => Nat.le_refl _
  | expr :: exprs => max_le_max_add_max expr.extent_add_le (extentOfExprs_add_le exprs)

/-- Counts add up over an expression that may be missing. -/
theorem extentOfExpr?_add_le : (expr? : Option Expr) →
    extentOfExpr? (g + h) expr? ≤ extentOfExpr? g expr? + extentOfExpr? h expr?
  | none => Nat.le_refl _
  | some expr => expr.extent_add_le

/-- Counts add up over the arms of a `CASE`. -/
theorem extentOfBranches_add_le : (branches : List Branch) →
    extentOfBranches (g + h) branches ≤ extentOfBranches g branches + extentOfBranches h branches
  | [] => Nat.le_refl _
  | ⟨condition, result⟩ :: branches =>
    max_le_max_add_max (max_le_max_add_max condition.extent_add_le result.extent_add_le)
      (extentOfBranches_add_le branches)

/-- Counts add up over columns. -/
theorem extentOfColumns_add_le : (columns : List ColumnDef) →
    extentOfColumns (g + h) columns ≤ extentOfColumns g columns + extentOfColumns h columns
  | [] => Nat.le_refl _
  | column :: columns => max_le_max_add_max column.extent_add_le (extentOfColumns_add_le columns)

/-- Counts add up over what a query selects. -/
theorem extentOfItems_add_le : (items : List SelectItem) →
    extentOfItems (g + h) items ≤ extentOfItems g items + extentOfItems h items
  | [] => Nat.le_refl _
  | ⟨expr, _⟩ :: items => max_le_max_add_max expr.extent_add_le (extentOfItems_add_le items)

theorem extentOfFrom?_add_le : (item? : Option FromItem) →
    extentOfFrom? (g + h) item? ≤ extentOfFrom? g item? + extentOfFrom? h item?
  | none => Nat.le_refl _
  | some item => item.extent_add_le

theorem extentOfCompound?_add_le : (compound? : Option Compound) →
    extentOfCompound? (g + h) compound? ≤
      extentOfCompound? g compound? + extentOfCompound? h compound?
  | none => Nat.le_refl _
  | some ⟨_, _, right⟩ => right.extent_add_le

theorem extentOfOrdering_add_le : (items : List OrderItem) →
    extentOfOrdering (g + h) items ≤ extentOfOrdering g items + extentOfOrdering h items
  | [] => Nat.le_refl _
  | ⟨expr, _, _⟩ :: items => max_le_max_add_max expr.extent_add_le (extentOfOrdering_add_le items)

end

/-- Counts add up over the rows or the query that is inserted. -/
theorem InsertSource.extent_add_le (source : InsertSource) :
    source.extent (g + h) ≤ source.extent g + source.extent h := by
  cases source with
  | rows rs => exact extentOfExprs_add_le g h rs.flatten
  | query q => exact q.extent_add_le g h
  | defaults => exact Nat.le_refl _

/-- Counts add up over the value of a setting. -/
theorem SettingValue.extent_add_le (value : SettingValue) :
    value.extent (g + h) ≤ value.extent g + value.extent h := by
  cases value with
  | default => exact Nat.le_refl _
  | values es => exact extentOfExprs_add_le g h es

/-- **What two gauges count together** is at most what each of them counts. -/
theorem Command.extent_add_le (tree : Command) :
    tree.extent (g + h) ≤ tree.extent g + tree.extent h := by
  induction tree with
  | select q => exact add_le_add_add_add (q.extent_add_le g h)
  | insert i => exact add_le_add_add_add (i.source.extent_add_le g h)
  | update u =>
    exact add_le_add_add_add (max_le_max_add_max (extentOfExprs_add_le g h _)
      (max_le_max_add_max (extentOfFrom?_add_le g h u.source) (extentOfExpr?_add_le g h u.filter)))
  | delete d => exact add_le_add_add_add (extentOfExpr?_add_le g h d.filter)
  | createTable c =>
    exact add_le_add_add_add (max_le_max_add_max (extentOfColumns_add_le g h c.columns)
      (extentOfExprs_add_le g h _))
  | explain _ command ih => exact add_le_add_add_add ih
  | optimize _ properties => exact add_le_add_add_add (extentOfExprs_add_le g h _)
  | set _ _ value => exact add_le_add_add_add (value.extent_add_le g h)
  | kill job => exact add_le_add_add_add (extentOfExpr?_add_le g h job)
  | _ => exact Nat.le_refl _

end

end SqlBatch
