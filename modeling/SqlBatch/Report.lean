import SqlBatch.Batch
import SqlBatch.Report.Json

/-!
# Reports

What is told about the statements of an input: as text, one block for each failed statement and a
summary; or as a JSON document with every statement. Inputs are checked one after the other, and the
first that cannot be checked ends the run.

In strict mode the first error of an input ends the reading of it, and there are no statements to
report but the one that failed. It is reported by what was read of it, up to the offending token
(`Report.raisedStatement`).
-/

namespace SqlBatch

/-- What is told about the error of a statement. -/
structure ErrorReport where
  message : String
  /-- The message with the line and the number of characters before the token. -/
  summary : String
  line : Nat
  column : Nat
  /-- The statement up to the offending token. -/
  query : String
  /-- The input with carets under the offending token. -/
  marked : String
deriving DecidableEq, Repr

/-- The report of an error. -/
def ErrorReport.ofError (error : LocatedError) : ErrorReport :=
  { message := error.message, summary := error.summary, line := error.line,
    column := error.column, query := error.query, marked := error.marked }

/-- What is told about a statement. -/
structure StatementReport where
  query : String
  type? : Option String
  span : Span
  error? : Option ErrorReport
deriving DecidableEq, Repr

/-- The report of a statement. -/
def StatementReport.ofStatement (statement : Statement) : StatementReport :=
  { query := statement.query, type? := statement.type?, span := statement.span,
    error? := statement.error?.map ErrorReport.ofError }

/-- What is told about an input. -/
structure Report where
  /-- The name of the input. -/
  path : String
  statements : List StatementReport
deriving DecidableEq, Repr

namespace Report

/-- The statement that stands for a batch whose first error was raised: the text read up to the
offending token. The statements before it are not reported. -/
def raisedStatement (error : LocatedError) : Statement :=
  { batch := error.batch
    span := ⟨error.statementStart, error.statementStart + byteLength error.query.toList⟩
    outcome := .error error }

/-- The report of what came of reading an input; there is none if the dialect broke its contract. -/
def ofParse (path : String) (parsed : Except BatchError (List Statement)) :
    Except String Report :=
  match parsed with
  | .ok statements => .ok ⟨path, statements.map .ofStatement⟩
  | .error (.syntaxError error) => .ok ⟨path, [.ofStatement (raisedStatement error)]⟩
  | .error violation => .error s!"{path}: {violation.message}"

/-- The number of failed statements. -/
def failed (report : Report) : Nat :=
  report.statements.countP (·.error?.isSome)

/-- Whether no statement failed. -/
def isOk (report : Report) : Bool :=
  report.failed == 0

/-! ### Text -/

/-- The lines of a text as they are shown: a line feed ends a line, with the carriage return before
it, and what stands behind the last line feed is a line unless it is empty. -/
def shownLines : List Char → List (List Char)
  | [] => []
  | '\n' :: cs => [] :: shownLines cs
  | '\r' :: '\n' :: cs => [] :: shownLines cs
  | c :: cs =>
    match shownLines cs with
    | [] => [[c]]
    | line :: lines => (c :: line) :: lines

/-- The block of a failed statement: its number and error, and the text read, indented. -/
def errorText (path : String) (number : Nat) (error : ErrorReport) : String :=
  let lines := (shownLines error.query.toList).map fun line ↦
    "    " ++ String.ofList line ++ "\n"
  s!"{path}: statement {number} {error.summary}\n" ++ String.join lines

/-- The blocks of the failed statements, numbered from `number` on. -/
def errorTexts (path : String) (number : Nat) : List StatementReport → String
  | [] => ""
  | statement :: statements =>
    ((statement.error?.map (errorText path number)).getD "") ++
      errorTexts path (number + 1) statements

/-- The report as text. -/
def text (report : Report) : String :=
  errorTexts report.path 1 report.statements ++
    s!"{report.path}: {report.statements.length} statements, {report.failed} failed\n"

/-! ### JSON -/

/-- An error as JSON. -/
def errorJson (error : ErrorReport) : Json :=
  .object [("message", .string error.message), ("error_message", .string error.summary),
    ("line", .number error.line), ("column", .number error.column),
    ("query", .string error.query), ("marked", .string error.marked)]

/-- A statement as JSON. -/
def statementJson (statement : StatementReport) : Json :=
  .object [("query", .string statement.query), ("statement_type", .ofText? statement.type?),
    ("start", .number statement.span.start), ("end", .number statement.span.stop),
    ("error", (statement.error?.map errorJson).getD .null)]

/-- The report as JSON. -/
def json (report : Report) : Json :=
  .object [("path", .string report.path),
    ("statements", .array (report.statements.map statementJson))]

end Report

/-! ### Checking inputs -/

/-- How reports are written. -/
inductive Format where
  | text | json
deriving DecidableEq, Repr

/-- The report in a format. -/
def Format.write : Format → Report → String
  | text, report => report.text
  | json, report => report.json.render 0 ++ "\n"

/-- What checking inputs has written, and whether every statement was read, or why checking
stopped. -/
structure CheckResult where
  out : String
  verdict : Except String Bool

/-- Check one input. -/
def check (configuration : Configuration) (path source : String) (format : Format) : CheckResult :=
  match Report.ofParse path (configuration.parse source) with
  | .ok report => ⟨format.write report, .ok report.isOk⟩
  | .error message => ⟨"", .error message⟩

/-- Check inputs in order, given by their names and contents. One without contents cannot be read
and ends the run, as does one that cannot be checked. -/
def checkAll (configuration : Configuration) (format : Format) :
    List (String × Option String) → CheckResult
  | [] => ⟨"", .ok true⟩
  | (path, none) :: _ => ⟨"", .error s!"failed to read {path}"⟩
  | (path, some source) :: inputs =>
    let first := check configuration path source format
    match first.verdict with
    | .error message => ⟨first.out, .error message⟩
    | .ok ok =>
      let rest := checkAll configuration format inputs
      ⟨first.out ++ rest.out, rest.verdict.map (ok && ·)⟩

end SqlBatch
