import SqlBatch.LocatedError
import SqlBatch.Metadata
import SqlBatch.Text.Letter
import SqlBatch.Text.Upper

/-!
# Statements of a batch

A statement is a span of a batch together with what came of reading it: a tree, or an error. The
terminator behind it is no part of it.

All else about a statement is read off these: its text, its type, which is the first word of it and
needs no tree, and its metadata, which are those of the tree and none without one.
-/

namespace SqlBatch

/-- A piece of a batch that was read as one statement. -/
structure Statement where
  /-- The whole batch. -/
  batch : String
  span : Span
  outcome : Except LocatedError Command

namespace Statement

/-- The text of the statement between its bounds. -/
def rawText (statement : Statement) : String :=
  statement.span.slice statement.batch

/-- The text of the statement without the white space around it. -/
def query (statement : Statement) : String :=
  String.ofList (trim (statement.span.chars statement.batch))

/-- The tree, if the statement was read. -/
def tree? (statement : Statement) : Option Command :=
  statement.outcome.toOption

/-- The error, if it was not. -/
def error? (statement : Statement) : Option LocatedError :=
  match statement.outcome with
  | .ok _ => none
  | .error error => some error

/-- Whether the statement was read. -/
def isOk (statement : Statement) : Bool :=
  statement.outcome.isOk

/-- The word at the start of the statement in upper case, if it starts with one. -/
def type? (statement : Statement) : Option String :=
  let word := statement.query.toList.takeWhile isWordChar
  if word.isEmpty then none else some (upperCase (String.ofList word))

/-- The facts about the statement; none if it was not read. -/
def metadata (statement : Statement) : Metadata :=
  (statement.tree?.map Metadata.ofCommand).getD .empty

end Statement

end SqlBatch
