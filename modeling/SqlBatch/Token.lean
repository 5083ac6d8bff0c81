import SqlBatch.Keyword
import SqlBatch.Number.Binary64
import SqlBatch.Text.Span

/-!
# Tokens

A token has a kind, the text it was read from, and the span of that text in the batch. It carries
its own text, so that whatever looks at tokens needs no batch beside them.

## What the grammar asks

The grammar asks a token three kinds of questions: whether it is a certain symbol or keyword, which
name it stands for, and whether it ends the statement. The lemmas below relate the answers. A
statement ends at a semicolon or at the end of the batch, and neither is a word, so a token that is
some keyword or any other symbol does not end it.

## Tokens that are no good

What the lexer cannot read is a token too, with the reason in its kind. So every batch has tokens,
and it is a statement that fails at such a token and not the batch.
-/

namespace SqlBatch

/-- Operators and punctuation. -/
inductive Symbol where
  | plus | minus | star | slash | percent
  | eq | notEq | lt | ltEq | gt | gtEq
  | concat | bitAnd | bitOr | bitNot | leftShift | rightShift
  | leftParen | rightParen | leftBracket | rightBracket
  | comma | semicolon | dot | colon | doubleColon | question | atSign
deriving DecidableEq, Repr

namespace Symbol

/-- The spelling; the usual one of the two for inequality. -/
def spelling : Symbol → String
  | plus => "+"
  | minus => "-"
  | star => "*"
  | slash => "/"
  | percent => "%"
  | eq => "="
  | notEq => "!="
  | lt => "<"
  | ltEq => "<="
  | gt => ">"
  | gtEq => ">="
  | concat => "||"
  | bitAnd => "&"
  | bitOr => "|"
  | bitNot => "~"
  | leftShift => "<<"
  | rightShift => ">>"
  | leftParen => "("
  | rightParen => ")"
  | leftBracket => "["
  | rightBracket => "]"
  | comma => ","
  | semicolon => ";"
  | dot => "."
  | colon => ":"
  | doubleColon => "::"
  | question => "?"
  | atSign => "@"

/-- The symbol as it is quoted in a list of what the grammar expects. -/
def quoted (symbol : Symbol) : String :=
  s!"'{symbol.spelling}'"

/-- Whether the symbol closes a bracket. -/
def isClosing (symbol : Symbol) : Bool :=
  symbol == rightParen || symbol == rightBracket

end Symbol

/-- Why a piece of text is no token. -/
inductive LexicalError where
  | unexpectedCharacter (c : Char)
  | unterminatedString
  | unterminatedName
  | unterminatedBlob
  | invalidBlobDigit
  | oddBlobDigits
  | incompleteExponent
  | parameterOutOfRange
deriving DecidableEq, Repr

/-- The wording of a lexical error. -/
def LexicalError.message : LexicalError → String
  | unexpectedCharacter c => s!"Unexpected character: {c}"
  | unterminatedString => "Unterminated string literal"
  | unterminatedName => "Unterminated quoted identifier"
  | unterminatedBlob => "Unterminated blob literal"
  | invalidBlobDigit => "Invalid character in blob literal"
  | oddBlobDigits => "Odd number of hex digits in blob literal"
  | incompleteExponent => "Invalid float: invalid float literal"
  | parameterOutOfRange => "Invalid parameter index: number too large to fit in target type"

namespace Token

/-- What a token is. -/
inductive Kind where
  /-- An integer below `2 ^ 63`. -/
  | integer (value : Nat)
  | float (value : Binary64)
  /-- An integer from `2 ^ 63` on, by its digits as written. -/
  | numeric (digits : String)
  /-- A string literal, by its contents. -/
  | string (value : String)
  | blob (bytes : List UInt8)
  /-- A bare or quoted name, by its contents. -/
  | identifier (name : String)
  | keyword (keyword : Keyword)
  | symbol (symbol : Symbol)
  /-- A numbered parameter, `$n`. -/
  | parameter (number : UInt32)
  /-- The end of the batch. -/
  | eof
  /-- Text that is no token, kept in its place for the grammar to report. -/
  | error (cause : LexicalError)
deriving DecidableEq, Repr

end Token

/-- A token: its kind, its text and where the text lies. -/
structure Token where
  kind : Token.Kind
  text : String
  span : Span
deriving DecidableEq, Repr

namespace Token

/-- The end of the batch at a byte offset. -/
def eofAt (offset : Nat) : Token :=
  ⟨.eof, "", .point offset⟩

/-- The token at another place. -/
def move (place : Span → Span) (token : Token) : Token :=
  { token with span := place token.span }

/-- Moving a token leaves its kind. -/
@[simp] theorem move_kind (place : Span → Span) (token : Token) :
    (token.move place).kind = token.kind := rfl

/-- Moving a token leaves its text. -/
@[simp] theorem move_text (place : Span → Span) (token : Token) :
    (token.move place).text = token.text := rfl

@[simp] theorem move_span (place : Span → Span) (token : Token) :
    (token.move place).span = place token.span := rfl

/-- Whether the token is the end of the batch. -/
def isEof (token : Token) : Bool :=
  token.kind == .eof

/-- Whether the token is a given symbol. -/
def isSymbol (token : Token) (symbol : Symbol) : Bool :=
  token.kind == .symbol symbol

/-- A symbol is not the end of the batch. -/
theorem isEof_of_isSymbol {token : Token} {symbol : Symbol} (h : token.isSymbol symbol) :
    token.isEof = false := by
  rw [isSymbol, beq_iff_eq] at h
  simp [isEof, h]

/-- The keyword that the token is, if it is one. -/
def keyword? (token : Token) : Option Keyword :=
  match token.kind with
  | .keyword keyword => some keyword
  | _ => none

/-- A token that stands for a keyword is of its kind. -/
theorem kind_of_keyword? {token : Token} {keyword : Keyword} (h : token.keyword? = some keyword) :
    token.kind = .keyword keyword := by
  rw [keyword?] at h
  split at h
  · rename_i other hkind
    rw [hkind, Option.some.inj h]
  · cases h

/-- Whether the token is a given keyword. -/
def isKeyword (token : Token) (keyword : Keyword) : Bool :=
  token.kind == .keyword keyword

/-- Whether the token is a keyword that can start a statement. -/
def startsStatement (token : Token) : Bool :=
  token.keyword?.any Keyword.statementStarts.contains

/-- The name that the token stands for: the contents of an identifier, or an unreserved keyword as
it is written. -/
def name? (token : Token) : Option String :=
  match token.kind with
  | .identifier name => some name
  | .keyword keyword => if keyword.isReserved then none else some token.text
  | _ => none

/-- Whether a statement ends before the token: at a semicolon or the end of the batch. -/
def endsStatement (token : Token) : Bool :=
  token.isSymbol .semicolon || token.isEof

/-- A statement ends at a semicolon or at the end of the batch. -/
theorem endsStatement_iff {token : Token} :
    token.endsStatement ↔ token.kind = .symbol .semicolon ∨ token.kind = .eof := by
  simp [endsStatement, isSymbol, isEof]

/-- A token inside a statement is neither. -/
theorem endsStatement_eq_false_iff {token : Token} :
    token.endsStatement = false ↔ token.isSymbol .semicolon = false ∧ token.isEof = false := by
  rw [endsStatement, Bool.or_eq_false_iff]

/-- Before the end of a statement, the batch has not ended. -/
theorem isEof_eq_false {token : Token} (h : token.endsStatement = false) : token.isEof = false :=
  (endsStatement_eq_false_iff.1 h).2

theorem endsStatement_of_isEof {token : Token} (h : token.isEof) : token.endsStatement := by
  simp [endsStatement, h]

theorem endsStatement_of_isSemicolon {token : Token} (h : token.isSymbol .semicolon) :
    token.endsStatement := by
  simp [endsStatement, h]

/-- A keyword ends no statement. -/
theorem endsStatement_of_isKeyword {token : Token} {keyword : Keyword}
    (h : token.isKeyword keyword) : token.endsStatement = false := by
  rw [isKeyword, beq_iff_eq] at h
  simp [endsStatement, isSymbol, isEof, h]

/-- The only symbol that ends a statement is the semicolon. -/
theorem isSymbol_of_endsStatement {token : Token} {symbol : Symbol} (h : token.endsStatement)
    (hs : symbol ≠ .semicolon) : token.isSymbol symbol = false := by
  rcases endsStatement_iff.1 h with h | h <;> simp [isSymbol, h, hs.symm]

/-- Whether the token is text that the lexer could not read. -/
def isError (token : Token) : Bool :=
  match token.kind with
  | .error _ => true
  | _ => false

/-- The text by which messages name the token. -/
def displayText (token : Token) : String :=
  if token.isEof then "<EOF>" else token.text

end Token

end SqlBatch
