import SqlBatch.Token

/-!
# Syntax errors

A statement fails at one token, the offending one. The error keeps the cause of the failure and the
token's text and place; its wording is put together from them when it is asked for.

Causes name no place: a rule that fails says where it stopped, and the failure is one at the token
there. Of several errors of a statement, the one whose token starts first is reported, and of
several at one place the first in the list (`SyntaxError.earliest?`).
-/

namespace SqlBatch

namespace SyntaxError

/-- Why a statement cannot go on at a token. -/
inductive Cause where
  /-- The token is none of those that may stand here. -/
  | mismatched (expected : List String)
  /-- A closing bracket is still to come where the statement ends. -/
  | missing (expected : String)
  /-- The token starts nothing that may stand here. -/
  | noViableAlternative
  /-- The token is text that the lexer could not read. -/
  | unrecognized
  /-- The token would open more levels of nesting than the limit allows. -/
  | tooDeep (limit : Nat)
  /-- A reason in words. -/
  | stated (message : String)
deriving DecidableEq, Repr

/-- A list of expected items: a single one stands bare, any other number in braces. -/
def expectedText : List String → String
  | [item] => item
  | items => "\x7b" ++ ", ".intercalate items ++ "\x7d"

/-- The wording of a cause at a token that is shown as `found`. -/
def Cause.message (found : String) : Cause → String
  | mismatched expected => s!"mismatched input '{found}' expecting {expectedText expected}"
  | missing expected => s!"missing {expected} at '{found}'"
  | noViableAlternative => s!"no viable alternative at input '{found}'"
  | unrecognized => s!"token recognition error at: '{found}'"
  | tooDeep limit => s!"maximum nesting depth of {limit} exceeded at '{found}'"
  | stated message => message

end SyntaxError

/-- A failure of one statement. -/
structure SyntaxError where
  cause : SyntaxError.Cause
  /-- Where the offending token lies. -/
  span : Span
  /-- The offending token as messages show it. -/
  text : String
deriving DecidableEq, Repr

namespace SyntaxError

/-- The failure at a given token. -/
def atToken (cause : Cause) (token : Token) : SyntaxError :=
  ⟨cause, token.span, token.displayText⟩

/-- The wording of the error. -/
def message (error : SyntaxError) : String :=
  error.cause.message error.text

/-- The wording of the error with the byte offsets of its token. -/
def positioned (error : SyntaxError) : String :=
  s!"{error.message} at position {error.span.start}..{error.span.stop}"

/-- The error whose token starts first; of several such, the first in the list. -/
def earliest? : List SyntaxError → Option SyntaxError
  | [] => none
  | error :: errors =>
    match earliest? errors with
    | some other => if error.span.start ≤ other.span.start then some error else some other
    | none => some error

end SyntaxError

end SqlBatch
