import SqlBatch.Grammar

/-!
# The grammar by the levels that are left

The rules that open a level of nesting ask the cursor how many are open. The same grammar can be
written without that question: the grammar in which `n` more levels may be opened reads the inside
of a level with the grammar in which `n - 1` may be, and with no level left every construct that
would open one fails.

Rules of this kind never look at the number of levels that a cursor has open, and each collection is
made from the one inside it. So they are what an induction over the levels is about, and what is
proved of all rules of the grammar is proved here of theirs. That a statement is read the same way
by both, from a cursor that has so many levels left, is `Request.run_rule`.
-/

namespace SqlBatch

/-- The rules that open a level where a given number of levels may still be opened. -/
def Nested.ofAllowance : Nat → Nested
  | 0 => exhausted
  | allowance + 1 => around (ofAllowance allowance)

namespace Rule

/-- A statement that may open a given number of levels of nesting. -/
def statementWithin (allowance : Nat) : Rule Command :=
  statement (.ofAllowance allowance)

/-- A statement outside any level of nesting. -/
def topStatement : Rule Command :=
  statementWithin Nested.maxDepth

/-- A statement outside any level of nesting, with its end. -/
def terminatedStatement : Rule Command :=
  terminated topStatement

end Rule

/-- The rule that answers a request where a given number of levels may be opened. -/
def Request.ruleWithin (allowance : Nat) : Request → Rule Command
  | statement => Rule.statementWithin allowance
  | terminated => Rule.terminated (Rule.statementWithin allowance)

end SqlBatch
