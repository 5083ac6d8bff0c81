import SqlBatch.Text.Blank

/-!
# Trivia

What may stand between two tokens: white space, comments from `--` to the end of the line, and
comments between `/*` and the next `*/`. A line comment ends before `\n` or `\r`, which are white
space themselves; a block comment that is not closed reaches to the end of the text.

Block comments do not nest. Trivia is only measured, as the number of characters that belong to it,
for no later stage asks what it was.
-/

namespace SqlBatch.Trivia

/-- Where in the trivia a scan stands: between its pieces, or inside a comment. -/
inductive Mode where
  | gap
  | line
  | block
deriving DecidableEq, Repr

/-- Whether a character ends a line comment. -/
def isLineEnd (c : Char) : Bool :=
  c == '\n' || c == '\r'

/-- The number of characters of trivia at the start of a text. -/
def lengthFrom : Mode → List Char → Nat
  | _, [] => 0
  | .gap, '-' :: '-' :: cs => lengthFrom .line cs + 2
  | .gap, '/' :: '*' :: cs => lengthFrom .block cs + 2
  | .gap, c :: cs => if isBlank c then lengthFrom .gap cs + 1 else 0
  | .line, c :: cs => if isLineEnd c then lengthFrom .gap cs + 1 else lengthFrom .line cs + 1
  | .block, '*' :: '/' :: cs => lengthFrom .gap cs + 2
  | .block, _ :: cs => lengthFrom .block cs + 1

/-- The number of characters of trivia at the start of a text, outside any comment. -/
def length (cs : List Char) : Nat :=
  lengthFrom .gap cs

end SqlBatch.Trivia
