import SqlBatch.Token
import SqlBatch.Tree.Literal

/-!
# Precedence

Every operator belongs to a level. An operator may take a left operand where its left power is at
least the power asked for, and asks for its right power on its right. Both come from the rank of the
level, the right one larger by one, so operators of one level group to the left.

## One table

The levels are the same for all forms that go on behind an operand, whether they are symbols, words
or brackets, and for the operators in front of one. `BinaryOp.precedence` and its companions assign
them. The grammar reads by this table and by no other, and what is proved of the grouping of
expressions is said in terms of it.

A negated form, like `NOT IN`, has the level of the form itself. The `NOT` of such a form has
nothing to do with the one in front of an operand, which has a level of its own.
-/

namespace SqlBatch

/-- Levels of precedence, the loosest first. -/
inductive Precedence where
  | or
  | and
  /-- `NOT` before an operand. -/
  | not
  /-- Comparisons, and the predicates `IS`, `IN`, `BETWEEN` and `LIKE`. -/
  | comparison
  | bitOr
  | bitAnd
  | shift
  /-- `+`, `-` and `||`. -/
  | additive
  | multiplicative
  /-- `-` and `~` before an operand. -/
  | unary
  /-- Subscripts and casts behind an operand. -/
  | trailing
deriving DecidableEq, Repr

namespace Precedence

/-- The place of the level, the loosest at zero. -/
def rank : Precedence → Nat
  | or => 0
  | and => 1
  | not => 2
  | comparison => 3
  | bitOr => 4
  | bitAnd => 5
  | shift => 6
  | additive => 7
  | multiplicative => 8
  | unary => 9
  | trailing => 10

/-- The power that an operator of the level needs to be allowed to take a left operand. -/
def left (level : Precedence) : Nat := 2 * level.rank

/-- The power that an operator of the level asks for in its right operand. -/
def right (level : Precedence) : Nat := 2 * level.rank + 1

end Precedence

/-- The level of an operator between two operands. -/
def BinaryOp.precedence : BinaryOp → Precedence
  | or => .or
  | and => .and
  | eq | notEq | lt | ltEq | gt | gtEq | like => .comparison
  | bitOr => .bitOr
  | bitAnd => .bitAnd
  | leftShift | rightShift => .shift
  | add | sub | concat => .additive
  | mul | div | mod => .multiplicative

/-- The level of an operator before an operand. -/
def UnaryOp.precedence : UnaryOp → Precedence
  | neg | bitNot => .unary
  | not => .not

/-- The operator that a token is before an operand. -/
def UnaryOp.ofKind? : Token.Kind → Option UnaryOp
  | .symbol .minus => some .neg
  | .symbol .bitNot => some .bitNot
  | .keyword .NOT => some .not
  | _ => none

/-- What can go on behind an operand: an operator with a second operand, or a predicate. -/
inductive Continuation where
  | binary (op : BinaryOp)
  /-- `IS NULL` and `IS NOT NULL`. -/
  | isNull
  /-- `IN (list)`. -/
  | isIn
  /-- `BETWEEN low AND high`. -/
  | between
deriving DecidableEq, Repr

namespace Continuation

/-- The continuation that a token starts behind an operand. -/
def ofKind? : Token.Kind → Option Continuation
  | .keyword .IS => some .isNull
  | .keyword .IN => some .isIn
  | .keyword .BETWEEN => some .between
  | .keyword .OR => some (.binary .or)
  | .keyword .AND => some (.binary .and)
  | .keyword .LIKE => some (.binary .like)
  | .symbol .eq => some (.binary .eq)
  | .symbol .notEq => some (.binary .notEq)
  | .symbol .lt => some (.binary .lt)
  | .symbol .ltEq => some (.binary .ltEq)
  | .symbol .gt => some (.binary .gt)
  | .symbol .gtEq => some (.binary .gtEq)
  | .symbol .bitOr => some (.binary .bitOr)
  | .symbol .bitAnd => some (.binary .bitAnd)
  | .symbol .leftShift => some (.binary .leftShift)
  | .symbol .rightShift => some (.binary .rightShift)
  | .symbol .plus => some (.binary .add)
  | .symbol .minus => some (.binary .sub)
  | .symbol .concat => some (.binary .concat)
  | .symbol .star => some (.binary .mul)
  | .symbol .slash => some (.binary .div)
  | .symbol .percent => some (.binary .mod)
  | _ => none

/-- The level of the continuation. -/
def precedence : Continuation → Precedence
  | binary op => op.precedence
  | isNull | isIn | between => .comparison

/-- Whether the continuation can have `NOT` in front of it. -/
def isNegatable : Continuation → Bool
  | isIn | between | binary .like => true
  | _ => false

end Continuation

end SqlBatch
