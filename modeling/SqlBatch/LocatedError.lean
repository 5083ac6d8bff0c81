import SqlBatch.SyntaxError
import SqlBatch.Text.Blank
import SqlBatch.Text.Lines

/-!
# Located errors

A syntax error of one statement, placed in the batch that the statement comes from: by line and
column, by the text read up to the offending token, and by a marked copy of the batch in which a
line of carets stands under the token.

## Places

Lines and columns count from one, and columns count characters. An error at the end of the batch
lies behind the last character, and the text read up to there is cut behind what is not white space.

## The marked copy

It is put together from three parts of the batch and the carets: what stands up to the end of the
offending line, the line of carets with a line end of its own, and what stands behind. A token that
goes over several lines is marked as far as its first line goes.
-/

namespace SqlBatch

/-- A syntax error at its place in a batch. -/
structure LocatedError where
  message : String
  /-- The statement from its first token up to and including the offending one. -/
  query : String
  /-- The line of the offending token, counted from one. -/
  line : Nat
  /-- The column of the offending token in characters, counted from one. -/
  column : Nat
  span : Span
  /-- The offending token as messages show it. -/
  text : String
  /-- The whole batch. -/
  batch : String
  /-- The byte offset of the statement's first token. -/
  statementStart : Nat
deriving DecidableEq, Repr

namespace LocatedError

/-- Locate the error of a statement that starts at a byte offset. At the end of the batch, where
the offending token is empty, the white space before it is no part of the text read. -/
def ofSyntaxError (error : SyntaxError) (statementStart : Nat) (index : LineIndex) :
    LocatedError :=
  let position := index.lineCol error.span.start
  let consumed := (Span.mk statementStart error.span.stop).chars index.source
  { message := error.message
    query := String.ofList (if error.span.isEmpty then trimEnd consumed else consumed)
    line := position.line
    column := position.column
    span := error.span
    text := error.text
    batch := index.source
    statementStart }

/-- The error in one line. The second number is how many characters stand before the offending
token on its line. -/
def summary (error : LocatedError) : String :=
  s!"[line {error.line}:{error.column - 1} {error.message}]"

/-- The number of carets: the characters of the token that lie on its line, and at least one. -/
def caretCount (error : LocatedError) (line : Line) : Nat :=
  max 1 (min (error.span.chars error.batch).length (line.text.length - (error.column - 1)))

/-- The batch with a line of carets under the offending token. The line ends like the one above
it, or with `\n` behind the last line; all else stays as it is. -/
def marked (error : LocatedError) : String :=
  match (LineIndex.ofSource error.batch).line? error.line with
  | none => error.batch
  | some line =>
    let chars := error.batch.toList
    let before := (takeBytes? line.span.stop chars).getD chars
    let behind := (dropBytes? line.span.stop chars).getD []
    let separator := if line.terminator.isEmpty then ['\n'] else line.terminator.toList
    String.ofList (before ++ separator ++ List.replicate (error.column - 1) ' ' ++
      List.replicate (error.caretCount line) '^' ++ behind)

end LocatedError

end SqlBatch
