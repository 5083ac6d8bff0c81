import SqlBatch.Grammar.Rule
import SqlBatch.Tree.Name

/-!
# Terminals and lists

Rules for single tokens, and for the forms that clauses are built from: optional clauses, lists
separated by commas and parenthesized forms. An optional form looks at the current token alone; once
its first token has been taken, it must be completed.

These forms are the same for every construct of the grammar, so what is proved of them by a later
module is proved once and used wherever a rule is built from them.

## Where a form fails

A token that has to be there and is not fails with what was expected in its place. So a failure
inside a form lies at the token that stands there instead, and is worded by what the rule was
looking for; the token itself comes into the wording later (`SyntaxError`).
-/

namespace SqlBatch.Rule

variable {α : Type}

/-- Whether the current token is a given symbol. -/
def sees (symbol : Symbol) : Rule Bool := do
  return (← current).isSymbol symbol

/-- Whether the current token is a given keyword. -/
def seesKeyword (keyword : Keyword) : Rule Bool := do
  return (← current).isKeyword keyword

/-- Looking for a symbol reads nothing. -/
@[simp] theorem run_sees (symbol : Symbol) (cursor : Cursor) :
    (sees symbol).run cursor = .done (cursor.current.isSymbol symbol) cursor := rfl

/-- Looking for a keyword reads nothing. -/
@[simp] theorem run_seesKeyword (keyword : Keyword) (cursor : Cursor) :
    (seesKeyword keyword).run cursor = .done (cursor.current.isKeyword keyword) cursor := rfl

/-- Move past the current token if it is a given symbol, and say whether it is. -/
def accept (symbol : Symbol) : Rule Bool := do
  let found ← sees symbol
  if found then advance
  return found

/-- Move past the current token if it is a given keyword, and say whether it is. -/
def acceptKeyword (keyword : Keyword) : Rule Bool := do
  let found ← seesKeyword keyword
  if found then advance
  return found

/-- A given symbol. A closing bracket is called missing where the statement ends. -/
def symbol (symbol : Symbol) : Rule Unit := do
  unless ← accept symbol do
    if symbol.isClosing && (← current).endsStatement then fail (.missing symbol.quoted)
    else fail (.mismatched [symbol.quoted])

/-- A given keyword. -/
def keyword (keyword : Keyword) : Rule Unit := do
  unless ← acceptKeyword keyword do
    fail (.mismatched [keyword.quoted])

/-- A name. -/
def identifier : Rule String := do
  match (← current).name? with
  | some name =>
    advance
    return name
  | none => fail (.mismatched ["IDENTIFIER"])

/-- Where no name stands, one was expected. -/
theorem run_identifier_of_name?_eq_none {cursor : Cursor} (h : cursor.current.name? = none) :
    identifier.run cursor = .failed (.mismatched ["IDENTIFIER"]) cursor := by
  rw [identifier, run_bind, run_current]
  simp only [h, run_fail]

/-- What a rule reads behind a keyword, if that keyword comes next. -/
def clause (keyword : Keyword) (body : Rule α) : Rule (Option α) := do
  if ← acceptKeyword keyword then some <$> body else return none

/-- What a rule reads behind a keyword, if that keyword comes next; else an empty list. -/
def listClause (keyword : Keyword) (body : Rule (List α)) : Rule (List α) := do
  return (← clause keyword body).getD []

/-- One or more items separated by commas. -/
def commaSeparated (item : Rule α) : Rule (List α) := do
  let first ← item
  let others ← many do
    if ← accept .comma then some <$> item else return none
  return first :: others

/-- A form in parentheses. -/
def parenthesized (inner : Rule α) : Rule α := do
  symbol .leftParen
  let value ← inner
  symbol .rightParen
  return value

/-- Names separated by commas. -/
def identifiers : Rule (List String) :=
  commaSeparated identifier

/-- Names joined by points, as one name. -/
def dottedName : Rule String := do
  let first ← identifier
  iterate (fun name ↦ do
    if ← accept .dot then
      let part ← identifier
      return some (name ++ "." ++ part)
    else return none) first

/-- A table name, with or without a schema. -/
def tableName : Rule TableName := do
  let first ← identifier
  if ← accept .dot then
    let name ← identifier
    return ⟨some first, name⟩
  else return ⟨none, first⟩

/-- An alias: a name behind `AS`, or a bare name that is no keyword. -/
def alias? : Rule (Option String) := do
  let bare := match (← current).kind with
    | .identifier _ => true
    | _ => false
  let introduced ← acceptKeyword .AS
  if introduced || bare then some <$> identifier else return none

/-- A number for the size of a type, at most `limit`. -/
def size (limit : Nat) : Rule Nat := do
  match (← current).kind with
  | .integer value =>
    if value ≤ limit then
      advance
      return value
    else fail (.mismatched ["INTEGER_VALUE"])
  | _ => fail (.mismatched ["INTEGER_VALUE"])

end SqlBatch.Rule
