import SqlBatch.Number.Binary64
import SqlBatch.Text.Quotes

/-!
# Literals, parameters and operators

The leaves of expressions and the operators between them, each with its text. Numbers, strings and
blobs are written so that they read back as the same literal: a string with its apostrophes doubled,
a blob by its digits, and a float by the fewest digits that denote it.

Literals carry no sign. What looks like a negative number is an operator in front of one.
-/

namespace SqlBatch

/-- A literal value. -/
inductive Literal where
  | integer (value : Nat)
  | float (value : Binary64)
  /-- An integer from `2 ^ 63` on, by its digits as written. -/
  | numeric (digits : String)
  /-- A string, by its contents. -/
  | string (value : String)
  | blob (bytes : List UInt8)
  | boolean (value : Bool)
  | null
deriving DecidableEq, Repr

namespace Literal

/-- The contents of a string with every quote doubled. -/
def doubleQuotes (cs : List Char) : List Char :=
  doubled '\'' cs

/-- The two upper-case hexadecimal digits of a byte. -/
def hexDigits (byte : UInt8) : List Char :=
  [(Nat.digitChar (byte.toNat / 16)).toUpper, (Nat.digitChar (byte.toNat % 16)).toUpper]

/-- The literal as it is written in a statement. -/
def text : Literal → String
  | integer value => toString value
  | float value => value.text
  | numeric digits => digits
  | string value => String.ofList ('\'' :: doubleQuotes value.toList ++ ['\''])
  | blob bytes => String.ofList ('X' :: '\'' :: bytes.flatMap hexDigits ++ ['\''])
  | boolean true => "TRUE"
  | boolean false => "FALSE"
  | null => "NULL"

end Literal

/-- A placeholder for a value given later. -/
inductive Parameter where
  /-- `?`, numbered from one by its position in the statement. -/
  | anonymous (number : Nat)
  /-- `$n`. -/
  | positional (number : UInt32)
  /-- `:name`. -/
  | named (name : String)
deriving DecidableEq, Repr

/-- The parameter as it is written. -/
def Parameter.text : Parameter → String
  | anonymous _ => "?"
  | positional number => s!"${number}"
  | named name => s!":{name}"

/-- Operators between two operands. -/
inductive BinaryOp where
  | add | sub | mul | div | mod
  | eq | notEq | lt | ltEq | gt | gtEq
  | and | or
  | concat | like
  | bitAnd | bitOr | leftShift | rightShift
deriving DecidableEq, Repr

/-- The operator as it is written. -/
def BinaryOp.text : BinaryOp → String
  | add => "+"
  | sub => "-"
  | mul => "*"
  | div => "/"
  | mod => "%"
  | eq => "="
  | notEq => "!="
  | lt => "<"
  | ltEq => "<="
  | gt => ">"
  | gtEq => ">="
  | and => "AND"
  | or => "OR"
  | concat => "||"
  | like => "LIKE"
  | bitAnd => "&"
  | bitOr => "|"
  | leftShift => "<<"
  | rightShift => ">>"

/-- Operators before one operand. -/
inductive UnaryOp where
  | neg | not | bitNot
deriving DecidableEq, Repr

/-- The operator as it is written. -/
def UnaryOp.text : UnaryOp → String
  | neg => "-"
  | not => "NOT"
  | bitNot => "~"

end SqlBatch
