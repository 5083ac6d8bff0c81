import SqlBatch.Proofs.Allowance
import SqlBatch.Proofs.Extension
import SqlBatch.Tree.Nodes

/-!
# Expressions are grouped by precedence

In every tree that is read, operators are grouped as the levels of `Precedence` say
(`Expr.IsGrouped`).

## What the levels say of operands

* On the right of an operator there stands nothing of its level or a looser one
  (`Expr.BindsTighter`): operators of one level group to the left.
* On the left there stands nothing that ends with an operand of something looser (`Expr.Leads`). The
  end is what counts: `IS NULL` has no operand at its end, so it may stand there whatever its level.
* An operator in front of an operand is no exception to the first, but it is to the second. `- a *
  b` cannot be misread, so a prefix operator may stand in front of something looser than itself only
  where nothing around it goes on.

## The invariant

It is about what may still come. Where an operand ends that was read with some power, nothing of
that power goes on (`Cursor.Stops`), so whatever goes on behind it is looser (`Expr.Reading`). A
prefix operator may be looser than what stands around it, and then nothing around it goes on behind
its operand.
-/

namespace SqlBatch

/-! ### Levels of expressions -/

namespace Expr

/-- The level of an operator between operands or of a predicate, if the expression is one that
stands outside any parentheses. -/
def level? : Expr → Option Precedence
  | .binary op _ _ => some op.precedence
  | .isNull _ _ | .isIn _ _ _ | .between _ _ _ _ => some .comparison
  | _ => none

/-- The level of an expression that ends with an operand. -/
def openLevel? : Expr → Option Precedence
  | .binary op _ _ => some op.precedence
  | .between _ _ _ _ => some .comparison
  | _ => none

/-- Whether the expression is a `LIKE`. -/
def IsLike : Expr → Prop
  | .binary .like _ _ => True
  | _ => False

/-- The expression can be an operand behind an operator of a level: it is none of that level or a
looser one. -/
def BindsTighter (level : Precedence) (expr : Expr) : Prop :=
  ∀ own ∈ expr.level?, level.rank < own.rank

/-- The expression can be the operand in front of an operator or predicate of a level: it does not
end with an operand of something looser, and it is no `NOT` in front of a comparison or something
tighter, except for `NOT LIKE`. -/
structure Leads (level : Precedence) (expr : Expr) : Prop where
  not_looser : ∀ own ∈ expr.openLevel?, level.rank ≤ own.rank
  isLike : ∀ operand, expr = .unary .not operand → Precedence.comparison.rank ≤ level.rank →
    operand.IsLike

/-- The operands of the expression are grouped as the levels say. -/
def IsGrouped : Expr → Prop
  | .binary op left right => left.Leads op.precedence ∧ right.BindsTighter op.precedence
  | .isNull operand _ => operand.Leads .comparison
  | .isIn operand _ _ => operand.Leads .comparison
  | .between operand low high _ =>
    operand.Leads .comparison ∧ low.BindsTighter .comparison ∧ high.BindsTighter .comparison
  | .unary .not operand =>
    ∀ left right, operand ≠ .binary .and left right ∧ operand ≠ .binary .or left right
  | .unary .neg operand => operand.level? = none
  | .unary .bitNot operand => operand.level? = none
  | .subscript base _ => base.openLevel? = none ∧ ∀ op operand, base ≠ .unary op operand
  | _ => True

end Expr

/-- The node is grouped, if it is an expression. -/
def Node.IsGrouped : Node → Prop
  | .expr e => e.IsGrouped
  | _ => True

/-- Every expression among the nodes is grouped. -/
def AllGrouped (nodes : List Node) : Prop :=
  ∀ node ∈ nodes, node.IsGrouped

namespace AllGrouped

/-- There is nothing to group. -/
theorem nil : AllGrouped [] :=
  fun _ hnode ↦ nomatch hnode

/-- A node in front of others. -/
theorem node {node : Node} {nodes : List Node} (hnode : node.IsGrouped) (h : AllGrouped nodes) :
    AllGrouped (node :: nodes) :=
  List.forall_mem_cons.2 ⟨hnode, h⟩

/-- Nodes behind other nodes. -/
theorem append {ns ms : List Node} (hns : AllGrouped ns) (hms : AllGrouped ms) :
    AllGrouped (ns ++ ms) :=
  List.forall_mem_append.2 ⟨hns, hms⟩

/-- The nodes of a list, item by item. -/
theorem flatMap {α : Type} {nodesOf : α → List Node} {as : List α}
    (h : ∀ a ∈ as, AllGrouped (nodesOf a)) : AllGrouped (as.flatMap nodesOf) :=
  List.forall_mem_flatMap.2 h

/-- An expression that may be missing. -/
theorem expr? {expr? : Option Expr} (h : ∀ expr ∈ expr?, AllGrouped expr.nodes) :
    AllGrouped (nodesOfExpr? expr?) := by
  cases expr? with
  | none => exact nil
  | some expr => exact h expr rfl

/-- A `FROM` item that may be missing. -/
theorem from? {item? : Option FromItem} (h : ∀ item ∈ item?, AllGrouped item.nodes) :
    AllGrouped (nodesOfFrom? item?) := by
  cases item? with
  | none => exact nil
  | some item => exact h item rfl

/-- A query on the right that may be missing. -/
theorem compound? {compound? : Option Compound}
    (h : ∀ compound ∈ compound?, AllGrouped compound.right.nodes) :
    AllGrouped (nodesOfCompound? compound?) := by
  cases compound? with
  | none => exact nil
  | some compound =>
    obtain ⟨op, all, right⟩ := compound
    exact h _ rfl

/-- The items of a list of expressions. -/
theorem exprs {exprs : List Expr} (h : ∀ expr ∈ exprs, AllGrouped expr.nodes) :
    AllGrouped (nodesOfExprs exprs) := by
  induction exprs with
  | nil => exact nil
  | cons expr exprs ih =>
    obtain ⟨hexpr, hexprs⟩ := List.forall_mem_cons.1 h
    exact hexpr.append (ih hexprs)

/-- The arms of a case expression, each with its condition and its result. -/
theorem branches {branches : List Branch} (h : ∀ branch ∈ branches,
    AllGrouped branch.condition.nodes ∧ AllGrouped branch.result.nodes) :
    AllGrouped (nodesOfBranches branches) := by
  induction branches with
  | nil => exact nil
  | cons branch branches ih =>
    obtain ⟨condition, result⟩ := branch
    obtain ⟨⟨hcondition, hresult⟩, hbranches⟩ := List.forall_mem_cons.1 h
    exact (hcondition.append hresult).append (ih hbranches)

/-- The columns of a table or of an object. -/
theorem columns {columns : List ColumnDef} (h : ∀ column ∈ columns, AllGrouped column.nodes) :
    AllGrouped (nodesOfColumns columns) := by
  induction columns with
  | nil => exact nil
  | cons column columns ih =>
    obtain ⟨hcolumn, hcolumns⟩ := List.forall_mem_cons.1 h
    exact hcolumn.append (ih hcolumns)

/-- The items of a select list; aliases have no nodes. -/
theorem items {items : List SelectItem} (h : ∀ item ∈ items, AllGrouped item.expr.nodes) :
    AllGrouped (nodesOfItems items) := by
  induction items with
  | nil => exact nil
  | cons item items ih =>
    obtain ⟨expr, alias?⟩ := item
    obtain ⟨hitem, hitems⟩ := List.forall_mem_cons.1 h
    exact hitem.append (ih hitems)

/-- The items of an ordering; directions have no nodes. -/
theorem ordering {items : List OrderItem} (h : ∀ item ∈ items, AllGrouped item.expr.nodes) :
    AllGrouped (nodesOfOrdering items) := by
  induction items with
  | nil => exact nil
  | cons item items ih =>
    obtain ⟨expr, descending, nulls⟩ := item
    obtain ⟨hitem, hitems⟩ := List.forall_mem_cons.1 h
    exact hitem.append (ih hitems)

/-- An expression with nothing inside. -/
theorem leaf {expr : Expr} (hnodes : expr.nodes = [.expr expr]) (h : expr.IsGrouped) :
    AllGrouped expr.nodes := by
  rw [hnodes]
  exact node h nil

end AllGrouped

/-! ### Expressions -/

/-- What has been read of an expression of a given power in front of a cursor: what it ends with
tells what can no more go on there. -/
structure Expr.Reading (power : Nat) (expr : Expr) (c : Cursor) : Prop where
  allGrouped : AllGrouped expr.nodes
  level : ∀ own ∈ expr.level?, power ≤ own.left
  stops : ∀ own ∈ expr.openLevel?, c.Stops own.right
  stops_unary : ∀ op operand, expr = .unary op operand →
    c.Stops op.precedence.right ∨ op = .not ∧ operand.IsLike ∧ c.Stops Precedence.comparison.right

/-- All of an expression of a given power, in front of a cursor. -/
structure Expr.Read (power : Nat) (expr : Expr) (c : Cursor) : Prop where
  allGrouped : AllGrouped expr.nodes
  level : ∀ own ∈ expr.level?, power ≤ own.left
  stops : c.Stops power

/-- The rules inside a level of nesting read expressions that are grouped. -/
structure Nested.Groups (inner : Nested) : Prop where
  statement : inner.statement.Yields fun tree ↦ AllGrouped tree.nodes
  query : inner.query.Yields fun query ↦ AllGrouped query.nodes
  fromItem : inner.fromItem.Yields fun item ↦ AllGrouped item.nodes
  read : ∀ ⦃power c expr after⦄, (inner.expressionFrom power).run c = .done expr after →
    expr.Read power after
  objectType : inner.objectType.Yields fun type ↦ AllGrouped type.nodes
  elementType : inner.elementType.Yields fun type ↦ AllGrouped type.nodes

namespace Nested.Groups

variable {inner : Nested} (h : inner.Groups)

include h

/-- Expressions inside a level are grouped, whatever their power. -/
theorem expressionFrom (power : Nat) :
    (inner.expressionFrom power).Yields fun expr ↦ AllGrouped expr.nodes :=
  fun _ _ _ hrun ↦ (h.read hrun).allGrouped

theorem expression : inner.expression.Yields fun expr ↦ AllGrouped expr.nodes :=
  h.expressionFrom 0

/-- Lists of expressions inside a level. -/
theorem expressions :
    inner.expressions.Yields fun exprs ↦ ∀ expr ∈ exprs, AllGrouped expr.nodes :=
  .commaSeparated h.expression

end Nested.Groups

namespace Expr

/-- No expression with a level is tighter than the operand of a `-` or `~`. -/
theorem rank_lt_of_level? {expr : Expr} {own : Precedence} (h : own ∈ expr.level?) :
    own.rank < Precedence.unary.rank := by
  cases expr with
  | binary op _ _ =>
    cases h
    cases op <;> decide
  | isNull | isIn | between =>
    cases h
    decide
  | _ => cases h

/-- What ends with an operand is of a level. -/
theorem mem_level?_of_mem_openLevel? {expr : Expr} {own : Precedence}
    (h : own ∈ expr.openLevel?) : own ∈ expr.level? := by
  cases expr with
  | binary | between => exact h
  | _ => cases h

namespace Reading

variable {power : Nat} {operand : Expr} {c : Cursor} {level : Precedence}

/-- Whatever goes on behind what has been read may have it as its operand. -/
theorem leads (h : operand.Reading power c) (honward : c.onward? = some level) :
    operand.Leads level := by
  have hlt {right : Nat} (hstops : c.Stops right) : level.left < right := hstops level honward
  refine ⟨fun own hown ↦ ?_, fun inner hnot hcomparison ↦ ?_⟩
  · have := hlt (h.stops own hown)
    simp only [Precedence.left, Precedence.right] at this
    omega
  · rcases h.stops_unary _ _ hnot with hstops | ⟨-, hlike, -⟩
    · have := hlt hstops
      simp only [Precedence.left, UnaryOp.precedence, Precedence.right, Precedence.rank] at this
      simp only [Precedence.rank] at hcomparison
      omega
    · exact hlike

/-- Only an operand without operators, or one that ends with a predicate, can have a subscript. -/
theorem openLevel?_eq_none (h : operand.Reading power c) (honward : c.onward? = some .trailing) :
    operand.openLevel? = none := by
  rw [Option.eq_none_iff_forall_not_mem]
  intro own hown
  have hlooser := (h.leads honward).not_looser own hown
  have hlt := rank_lt_of_level? (mem_level?_of_mem_openLevel? hown)
  simp only [Precedence.rank] at hlooser hlt
  omega

/-- Where a subscript follows, what was read is not a prefix operator with its operand: the operand
would have taken the subscript. -/
theorem ne_unary (h : operand.Reading power c) (honward : c.onward? = some .trailing)
    (op : UnaryOp) (inner : Expr) : operand ≠ .unary op inner := by
  intro hunary
  rcases h.stops_unary op inner hunary with hstops | ⟨-, -, hstops⟩
  · have := hstops _ honward
    cases op <;> simp [UnaryOp.precedence, Precedence.left, Precedence.right,
      Precedence.rank] at this
  · have := hstops _ honward
    simp [Precedence.left, Precedence.right, Precedence.rank] at this

end Reading

/-- A whole operand of the right power stands behind its operator. -/
theorem Read.bindsTighter {expr : Expr} {level : Precedence} {c : Cursor}
    (h : expr.Read level.right c) : expr.BindsTighter level := by
  intro own hown
  have := h.level own hown
  simp only [Precedence.left, Precedence.right] at this
  omega

end Expr

end SqlBatch
