import SqlBatch.Dialect
import SqlBatch.Statement

/-!
# Reading a batch

A batch is read statement by statement over one list of tokens. A statement that is read ends at a
terminator, and the next one starts behind it. A statement that fails is bounded by the next
terminator, statement keyword or end of the batch behind the offending token, and reading goes on
from there. So every statement gets its own result, whatever is wrong with the others.

## Where a failed statement ends

A terminator ends the statement on the spot, also as the offending token. Any other offending token
belongs to the statement that failed at it, even if it could start a statement of its own: the
search for the end starts behind it. The text of the statement ends where the token that bounds it
starts.

## The dialect is not trusted

Where what a dialect answers does not fit together, reading stops with a `Violation`. Every step
resumes at a token behind the one where it started, which bounds the number of steps for any
dialect. That this is so is part of the type of a step, so the recursion over the batch needs no
more than that.
-/

namespace SqlBatch

/-- How a dialect failed to keep its contract. -/
inductive Violation where
  | eofBeforeEnd
  | noEof
  | indexOutOfRange
  | errorOutside (span : Span)
  | cleanWithoutTree
  | notAtTerminator
  | errorPastEnd
deriving DecidableEq, Repr

/-- The wording of a violation. -/
def Violation.reason : Violation → String
  | eofBeforeEnd => "EOF token before the end of the stream"
  | noEof => "token stream does not end with EOF"
  | indexOutOfRange => "token index out of range"
  | errorOutside span => s!"error at {span.start}..{span.stop} lies outside the statement"
  | cleanWithoutTree => "clean parse without a tree"
  | notAtTerminator => "clean parse did not stop on a terminator"
  | errorPastEnd => "error offset past the end of input"

/-- Why a batch has no result. -/
inductive BatchError where
  /-- A statement failed, and the first failure was to be raised. -/
  | syntaxError (error : LocatedError)
  /-- The dialect broke its contract at a token. -/
  | contract (dialect : String) (position : Nat) (violation : Violation)
deriving DecidableEq, Repr

/-- The wording of the error. -/
def BatchError.message : BatchError → String
  | syntaxError error => error.summary
  | contract dialect position violation =>
    s!"dialect '{dialect}' broke the parse contract at token {position}: {violation.reason}"

/-- A batch with its tokens, as a dialect reads it. -/
structure Batch where
  dialect : Dialect
  index : LineIndex
  tokens : List Token

namespace Batch

/-- The text of the batch. -/
def source (batch : Batch) : String :=
  batch.index.source

/-- The number of bytes of the batch. -/
def size (batch : Batch) : Nat :=
  byteLength batch.source.toList

/-- The dialect broke its contract at a token. -/
def violation (batch : Batch) (position : Nat) (violation : Violation) : BatchError :=
  .contract batch.dialect.name position violation

/-- Cut a batch into tokens. The first end-of-batch token has to be the last token. -/
def open? (dialect : Dialect) (source : String) : Except BatchError Batch :=
  let batch : Batch := ⟨dialect, .ofSource source, dialect.tokenize source⟩
  match batch.tokens.findIdx? (·.isEof) with
  | some position =>
    if position + 1 = batch.tokens.length then .ok batch
    else .error (batch.violation position .eofBeforeEnd)
  | none => .error (batch.violation batch.tokens.length .noEof)

/-! ### One statement -/

/-- Where a statement ends, and at which token behind `position` to go on, if any. -/
structure Boundary (position : Nat) where
  /-- The byte offset where the text of the statement ends. -/
  stop : Nat
  resume : Option { next : Nat // position < next }

/-- The boundary at the end of the batch. -/
def endOfBatch (batch : Batch) (position : Nat) : Boundary position :=
  ⟨batch.size, none⟩

/-- The boundary of a failed statement among the tokens behind the offending one, the first of
which has the index `next`: the first terminator, behind which reading goes on, or the first
statement keyword, at which it does. -/
def boundaryFrom (batch : Batch) {position : Nat} (next : Nat) (h : position < next) :
    List Token → Boundary position
  | [] => batch.endOfBatch position
  | token :: tokens =>
    if token.isEof then batch.endOfBatch position
    else if batch.dialect.isTerminator token then
      ⟨token.span.start, some ⟨next + 1, Nat.lt_succ_of_lt h⟩⟩
    else if batch.dialect.isStatementStart token then ⟨token.span.start, some ⟨next, h⟩⟩
    else boundaryFrom batch (next + 1) (Nat.lt_succ_of_lt h) tokens

/-- The boundary of a failed statement, given the tokens from the offending one on and its index.
A terminator ends the statement on the spot. -/
def boundary (batch : Batch) {position : Nat} (offending : Nat) (h : position ≤ offending) :
    List Token → Boundary position
  | [] => batch.endOfBatch position
  | token :: tokens =>
    if token.isEof then batch.endOfBatch position
    else if batch.dialect.isTerminator token then
      ⟨token.span.start, some ⟨offending + 1, by omega⟩⟩
    else batch.boundaryFrom (offending + 1) (by omega) tokens

/-- A statement, and the token behind `position` at which to go on, if any. -/
abbrev Step (position : Nat) := Statement × Option { next : Nat // position < next }

/-- The failed statement that starts with the token `first` at an index, or its error if errors are
to be raised. The offending token is the first one that does not start before the error. -/
def recover (batch : Batch) (raise : Bool) (position : Nat) (first : Token) (error : SyntaxError) :
    Except BatchError (Step position) :=
  let located := LocatedError.ofSyntaxError error first.span.start batch.index
  if raise then .error (.syntaxError located)
  else
    let tokens := batch.tokens.drop position
    match tokens.findIdx? (fun token ↦ error.span.start ≤ token.span.start) with
    | none => .error (batch.violation position .errorPastEnd)
    | some i =>
      let boundary : Boundary position :=
        batch.boundary (position + i) (by omega) (tokens.drop i)
      .ok (⟨batch.source, ⟨first.span.start, boundary.stop⟩, .error located⟩, boundary.resume)

/-- The statement that was read from an index on up to the token `stop`. -/
def accept (batch : Batch) (position : Nat) (first : Token) (tree : Command) (stop : Nat) :
    Except BatchError (Step position) :=
  match batch.tokens[stop]? with
  | none => .error (batch.violation stop .indexOutOfRange)
  | some closing =>
    -- A statement without a single token would make the reading stand still.
    if h : position < stop ∧ (closing.isEof || batch.dialect.isTerminator closing) then
      .ok (⟨batch.source, ⟨first.span.start, closing.span.start⟩, .ok tree⟩,
        if closing.isEof then none else some ⟨stop + 1, by omega⟩)
    else .error (batch.violation stop .notAtTerminator)

/-- The statement that starts with the token `first` at an index. Of several errors of an attempt
the one whose token starts first counts. -/
def step (batch : Batch) (raise : Bool) (position : Nat) (first : Token) :
    Except BatchError (Step position) :=
  let attempt := batch.dialect.parseFrom batch.source batch.tokens position
  match SyntaxError.earliest? attempt.errors with
  | some error =>
    if error.span.start < first.span.start ∨ batch.size < error.span.stop then
      .error (batch.violation position (.errorOutside error.span))
    else batch.recover raise position first error
  | none =>
    match attempt.tree with
    | none => .error (batch.violation position .cleanWithoutTree)
    | some tree => batch.accept position first tree attempt.stop

/-! ### All statements -/

/-- The statements from a token on. Terminators without a statement before them are skipped. -/
def statementsFrom (batch : Batch) (raise : Bool) (position : Nat) :
    Except BatchError (List Statement) :=
  match _h : batch.tokens[position]? with
  | none => .error (batch.violation position .indexOutOfRange)
  | some first =>
    if first.isEof then .ok []
    else if batch.dialect.isTerminator first then batch.statementsFrom raise (position + 1)
    else
      match batch.step raise position first with
      | .error error => .error error
      | .ok (statement, none) => .ok [statement]
      | .ok (statement, some ⟨next, _⟩) =>
        (batch.statementsFrom raise next).map (statement :: ·)
termination_by batch.tokens.length - position
decreasing_by
  all_goals
    obtain ⟨_, _⟩ := List.getElem?_eq_some_iff.1 ‹_›
    omega

end Batch

/-- How batches are read. -/
structure Configuration where
  dialect : Dialect
  /-- Whether the first failed statement makes the whole batch fail. -/
  raiseOnError : Bool

namespace Configuration

/-- The built-in dialect, with errors collected. -/
def standard : Configuration := ⟨.crateDb, false⟩

/-- Read the statements of a batch, in order. -/
def parse (configuration : Configuration) (source : String) :
    Except BatchError (List Statement) := do
  let batch ← Batch.open? configuration.dialect source
  batch.statementsFrom configuration.raiseOnError 0

/-- The configuration in one line. -/
def describe (configuration : Configuration) : String :=
  let raise := if configuration.raiseOnError then "true" else "false"
  "SqlParser \x7b dialect: \"" ++ configuration.dialect.name ++ "\", raise_on_error: " ++ raise ++
    " \x7d"

end Configuration

/-- Read the statements of a batch in the built-in dialect. -/
def parseBatch (source : String) (raiseOnError : Bool) : Except BatchError (List Statement) :=
  (Configuration.mk .crateDb raiseOnError).parse source

end SqlBatch
