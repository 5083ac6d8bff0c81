import SqlBatch.Grammar.Command

/-!
# The grammar

The rules of the grammar, tied together: what a construct has inside it is read by the same rules,
each called inside one more level (`Nested.recursive`).

## How deep the calls go

It is the cursor that limits them. A call opens a level, and with `Nested.maxDepth` levels open it
is refused. So calls go no deeper than that, and a collection that can be called once more is never
used up. How often it could be called is then of no account: the collection calls itself, in so many
words (`Nested.recursive_eq`).

## Reading statements

`Cursor.answer` reads several statements, one after the other, each from the cursor that the one
before it has left behind, with the placeholders it passed and the levels it left open. `parseFrom`
makes one attempt at reading a statement from a place in a list of tokens.
-/

namespace SqlBatch

namespace Nested

/-- The rules that open a level, given the rules inside it. -/
def around (inner : Nested) : Nested where
  statement := Rule.statement inner
  query := Rule.query inner
  fromItem := Rule.fromItem inner
  expressionFrom := Rule.expressionFrom inner
  objectType := Rule.objectType inner
  elementType := Rule.elementType inner

/-- The rules that open a level, which call each other a given number of times inside each other
and no more. -/
def ofCalls : Nat → Nested
  | 0 => exhausted
  | calls + 1 => (ofCalls calls).around.counted

/-- The rules that open a level, which call each other as often as there are levels to open. -/
def recursive : Nested :=
  ofCalls (maxDepth + 1)

end Nested

namespace Rule

/-- A statement with its end: the rule stops at the semicolon or the end of the batch behind it,
and fails if neither is there. -/
def terminated (command : Rule Command) : Rule Command := do
  let command ← command
  unless (← current).endsStatement do
    fail (.mismatched ["<EOF>", Symbol.semicolon.quoted])
  return command

end Rule

/-! ### Reading statements -/

/-- What can be asked of a cursor: a statement, with or without its end. -/
inductive Request where
  | statement
  | terminated
deriving DecidableEq, Repr

/-- The rule that answers a request. -/
def Request.rule : Request → Rule Command
  | statement => Rule.statement .recursive
  | terminated => Rule.terminated (Rule.statement .recursive)

/-- Answer requests one after the other, each from the cursor where the one before it stopped,
whether it failed or not. -/
def Cursor.answer (cursor : Cursor) : List Request → List (Except SyntaxError Command × Cursor)
  | [] => []
  | request :: requests =>
    let (result, after) := request.rule.parse cursor
    (result, after) :: after.answer requests

/-- What came of reading one statement. -/
structure Attempt where
  /-- The tree, if the statement was read. -/
  tree : Option Command
  /-- The errors met; none if the statement was read. -/
  errors : List SyntaxError
  /-- The index of the token where reading stopped. -/
  stop : Nat

/-- Whether no error was met. -/
def Attempt.isClean (attempt : Attempt) : Bool :=
  attempt.errors.isEmpty

/-- Read one statement from an index of a list of tokens. -/
def parseFrom (tokens : List Token) (position : Nat) : Attempt :=
  match Request.terminated.rule.parse (.ofTokens tokens position) with
  | (.ok tree, after) => ⟨some tree, [], after.position⟩
  | (.error error, after) => ⟨none, [error], after.position⟩

end SqlBatch
