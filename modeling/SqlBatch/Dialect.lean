import SqlBatch.Grammar
import SqlBatch.Lexer

/-!
# Dialects

A dialect is what a batch is read with: it cuts the batch into tokens, reads one statement from any
of them, and tells which tokens end and which start a statement. Everything else about a batch is
the same for all dialects.

What a dialect has to keep to, so that its answers can be put together to the statements of a batch,
is not part of the structure. It is checked where a batch is read, and a dialect that does not keep
to it is reported.
-/

namespace SqlBatch

/-- The language of a batch. -/
structure Dialect where
  name : String
  /-- The tokens of a batch. The last one, and no other, has to be the end of the batch. -/
  tokenize : String → List Token
  /-- An attempt at reading a statement of a batch with these tokens from an index on. -/
  parseFrom : String → List Token → Nat → Attempt
  /-- Whether a token ends a statement. -/
  isTerminator : Token → Bool
  /-- The keywords that can start a statement. -/
  statementKeywords : List Keyword

namespace Dialect

/-- Whether a token can start a statement. -/
def isStatementStart (dialect : Dialect) (token : Token) : Bool :=
  token.keyword?.any dialect.statementKeywords.contains

/-- The dialect of the lexer and the grammar of this library. -/
def crateDb : Dialect where
  name := "cratedb"
  tokenize := SqlBatch.tokenize
  parseFrom _ tokens position := SqlBatch.parseFrom tokens position
  isTerminator token := token.isSymbol .semicolon
  statementKeywords := Keyword.statementStarts

end Dialect

end SqlBatch
