import SqlBatch.Grammar.Terminal
import SqlBatch.Tree.Command

/-!
# Nesting

Expressions, queries, parenthesized `FROM` items, types and explained statements may contain each
other, each opening one more level of nesting. The rules that open a level are collected in
`Nested`; every other rule takes such a collection for the constructs inside it. The grammar of a
level is then a function of the grammar of the level inside, and no rule is recursive.

## Opening and closing a level

The levels that are open are counted by the cursor. `Rule.nested` opens one around a rule and closes
it behind the rule. It does so on both ways out: the cursor of a failure has the level closed like
that of a value. That is what its law `forward` says, since moving forward keeps the count; without
the closing on either way out there would be no such rule. With `Nested.maxDepth` levels open it
refuses to open another one and leaves the cursor as it was.
-/

namespace SqlBatch

/-- How many levels may be open at once. -/
def Nested.maxDepth : Nat := 64

/-- What came of reading inside a level, with the level closed. -/
def Outcome.closed {α : Type} : Outcome α → Outcome α
  | done a cursor => .done a cursor.closed
  | failed cause cursor => .failed cause cursor.closed

/-- A level is closed where the rule has stopped, on either way out. -/
@[simp] theorem Outcome.cursor_closed {α : Type} (outcome : Outcome α) :
    outcome.closed.cursor = outcome.cursor.closed := by
  cases outcome <;> rfl

namespace Rule

variable {α : Type}

/-- Read inside one more level of nesting. With as many open as may be, fail at the current
token. -/
def nested (r : Rule α) : Rule α where
  run cursor :=
    if cursor.depth < Nested.maxDepth then (r.run cursor.opened).closed
    else .failed (.tooDeep Nested.maxDepth) cursor
  forward cursor := by
    split
    · rw [Outcome.cursor_closed]
      exact cursor.closed_opened ▸ (r.forward cursor.opened).closed
    · exact .here cursor

/-- Where a level may be opened, the rule reads with the level open, and closes it. -/
theorem run_nested_of_lt (r : Rule α) {cursor : Cursor} (h : cursor.depth < Nested.maxDepth) :
    r.nested.run cursor = (r.run cursor.opened).closed :=
  if_pos h

/-- Where no level may be opened, nothing is read. -/
theorem run_nested_of_le (r : Rule α) {cursor : Cursor} (h : Nested.maxDepth ≤ cursor.depth) :
    r.nested.run cursor = .failed (.tooDeep Nested.maxDepth) cursor :=
  if_neg (Nat.not_lt.2 h)

end Rule

/-- The rules that open a level of nesting. -/
@[ext] structure Nested where
  statement : Rule Command
  query : Rule Query
  /-- A `FROM` item with its joins, inside parentheses. -/
  fromItem : Rule FromItem
  /-- An expression whose operators have at least the given power. -/
  expressionFrom : Nat → Rule Expr
  /-- The policy and columns of an object type. -/
  objectType : Rule DataType
  /-- The element type of an array type, in parentheses. -/
  elementType : Rule DataType

namespace Nested

/-- Each rule of the collection, called inside one more level. -/
def counted (rules : Nested) : Nested where
  statement := .nested rules.statement
  query := .nested rules.query
  fromItem := .nested rules.fromItem
  expressionFrom power := .nested (rules.expressionFrom power)
  objectType := .nested rules.objectType
  elementType := .nested rules.elementType

/-- No level may be opened any more. -/
def exhausted : Nested where
  statement := .fail (.tooDeep maxDepth)
  query := .fail (.tooDeep maxDepth)
  fromItem := .fail (.tooDeep maxDepth)
  expressionFrom _ := .fail (.tooDeep maxDepth)
  objectType := .fail (.tooDeep maxDepth)
  elementType := .fail (.tooDeep maxDepth)

/-- Any expression. -/
def expression (inner : Nested) : Rule Expr :=
  inner.expressionFrom 0

/-- Expressions separated by commas. -/
def expressions (inner : Nested) : Rule (List Expr) :=
  .commaSeparated inner.expression

end Nested

end SqlBatch
