import SqlBatch.Grammar.DataType
import SqlBatch.Grammar.Precedence

/-!
# Expressions

An expression is an operand followed by whatever may go on behind it: subscripts and casts,
operators with their right operands, and predicates. Precedence decides how far an operand reaches;
a chain of operators is read by a loop and opens one level of nesting however long it is.

## Deciding by kinds

The kind of the next token decides what is read, both for operands (`Opening.ofKind?`) and for what
goes on behind one. These decisions are functions of their own, so that they can be evaluated, and
the rules only carry them out. Two tokens are looked at where a word alone does not decide: `NOT` in
front of a predicate, and `ARRAY` in front of a bracket.
-/

namespace SqlBatch

/-- The literal that a token spells. -/
def Literal.ofKind? : Token.Kind → Option Literal
  | .integer value => some (.integer value)
  | .float value => some (.float value)
  | .numeric digits => some (.numeric digits)
  | .string value => some (.string value)
  | .blob bytes => some (.blob bytes)
  | .keyword .TRUE => some (.boolean true)
  | .keyword .FALSE => some (.boolean false)
  | .keyword .NULL => some .null
  | _ => none

/-- What an operand is, where its first token alone shows it. -/
inductive Opening where
  | literal (value : Literal)
  /-- The parameter `?`. -/
  | placeholder
  /-- A numbered parameter. -/
  | positional (number : UInt32)
  /-- A named parameter, by its colon. -/
  | named
  | wildcard
  /-- A query or an expression in parentheses. -/
  | parenthesized
  | array
  | cast
  | case
  | exists
deriving DecidableEq, Repr

/-- The operand that a token opens. Words open further ones, by what stands behind them. -/
def Opening.ofKind? (kind : Token.Kind) : Option Opening :=
  match kind with
  | .symbol .question => some .placeholder
  | .parameter number => some (.positional number)
  | .symbol .colon => some .named
  | .symbol .star => some .wildcard
  | .symbol .leftParen => some .parenthesized
  | .symbol .leftBracket => some .array
  | .keyword .CAST => some .cast
  | .keyword .CASE => some .case
  | .keyword .EXISTS => some .exists
  | _ => (Literal.ofKind? kind).map .literal

/-- Only a question mark opens a placeholder. -/
theorem Opening.eq_question_of_placeholder {kind : Token.Kind}
    (h : ofKind? kind = some .placeholder) : kind = .symbol .question := by
  cases kind with
  | symbol symbol => cases symbol <;> first | rfl | cases h
  | keyword keyword => cases keyword <;> cases h
  | _ => cases h

namespace Rule

/-! ### Operands -/

/-- The arguments of a call, in parentheses, with whether they are to be distinct. -/
def arguments (inner : Nested) : Rule (Bool × List Expr) :=
  parenthesized do
    let distinct ← acceptKeyword .DISTINCT
    if ← sees .rightParen then return (distinct, [])
    else if ← accept .star then return (distinct, [.wildcard none])
    else return (distinct, ← inner.expressions)

/-- An operand that starts with a name: a call, a column with or without a table, or all columns of
a table. -/
def named (inner : Nested) (name : String) (span : Span) : Rule Expr := do
  advance
  if ← sees .leftParen then
    let (distinct, arguments) ← arguments inner
    return .call name distinct arguments
  else if ← accept .dot then
    if ← accept .star then return .wildcard (some name)
    else
      let columnSpan := (← current).span
      let column ← identifier
      return .column (some name) column (span.through columnSpan)
  else return .column none name span

/-- The items of an array, in brackets. -/
def arrayLiteral (inner : Nested) : Rule Expr := do
  symbol .leftBracket
  let items ← if ← sees .rightBracket then pure [] else inner.expressions
  symbol .rightBracket
  return .array items

/-- An arm of a case expression, if there is one more. -/
def branch (inner : Nested) : Rule (Option Branch) :=
  clause .WHEN do
    let condition ← inner.expression
    keyword .THEN
    let result ← inner.expression
    return { condition, result }

/-- A case expression. -/
def caseExpression (inner : Nested) : Rule Expr := do
  keyword .CASE
  let operand ← if ← seesKeyword .WHEN then pure none else some <$> inner.expression
  let branches ← many (branch inner)
  if branches.isEmpty then fail (.mismatched [Keyword.WHEN.quoted])
  let otherwise ← clause .ELSE inner.expression
  keyword .END
  return .case operand branches otherwise

/-- A query or an expression, behind an opening parenthesis. -/
def parenthesizedOperand (inner : Nested) : Rule Expr :=
  parenthesized do
    if ← seesKeyword .SELECT then return .subquery (← inner.query)
    else return .paren (← inner.expression)

/-- A cast written as a call. -/
def castCall (inner : Nested) : Rule Expr := do
  advance
  parenthesized do
    let operand ← inner.expression
    keyword .AS
    let type ← dataType inner
    return .cast operand type

/-- An operand whose first token, which has not been read, shows what it is. -/
def opened (inner : Nested) : Opening → Rule Expr
  | .literal value => do
    advance
    return .literal value
  | .placeholder => do
    advance
    -- Moving past the placeholder has counted it, so numbers start at one.
    return .parameter (.anonymous (← placeholders))
  | .positional number => do
    advance
    return .parameter (.positional number)
  | .named => do
    advance
    return .parameter (.named (← identifier))
  | .wildcard => do
    advance
    return .wildcard none
  | .parenthesized => parenthesizedOperand inner
  | .array => arrayLiteral inner
  | .cast => castCall inner
  | .case => caseExpression inner
  | .exists => do
    advance
    return .exists (← parenthesized inner.query)

/-- An operand that starts with a word: an array, or one that starts with a name. -/
def arrayOrNamed (inner : Nested) : Rule Expr := do
  if (← seesKeyword .ARRAY) && (← following).isSymbol .leftBracket then
    advance
    arrayLiteral inner
  else
    let token ← current
    match token.name? with
    | some name => named inner name token.span
    | none => fail .noViableAlternative

/-- An operand: a literal, a parameter, a name, a call or a bracketed form. -/
def operand (inner : Nested) : Rule Expr := do
  match Opening.ofKind? (← current).kind with
  | some opening => opened inner opening
  | none => arrayOrNamed inner

/-! ### What goes on behind an operand -/

/-- A subscript or a cast behind an operand. -/
def subscriptOrCast (inner : Nested) (operand : Expr) : Rule Expr := do
  if ← accept .leftBracket then
    let index ← inner.expression
    symbol .rightBracket
    return .subscript operand index
  else
    advance
    return .cast operand (← dataType inner)

/-- What `IN` compares with: expressions, or a query as the only one. -/
def inList (inner : Nested) : Rule (List Expr) :=
  parenthesized do
    if ← seesKeyword .SELECT then return [.subquery (← inner.query)] else inner.expressions

/-- The rest of a continuation whose first tokens have been read, applied to its left operand. -/
def continuation (inner : Nested) (operand : Expr) (negated : Bool) :
    Continuation → Rule Expr
  | .isNull => do
    let negated ← acceptKeyword .NOT
    keyword .NULL
    return .isNull operand negated
  | .isIn => return .isIn operand (← inList inner) negated
  | .between => do
    let low ← inner.expressionFrom Precedence.comparison.right
    keyword .AND
    let high ← inner.expressionFrom Precedence.comparison.right
    return .between operand low high negated
  | .binary op => do
    let right ← inner.expressionFrom op.precedence.right
    -- Only `LIKE` comes negated; it has no negated form of its own.
    let both := Expr.binary op operand right
    return if negated then .unary .not both else both

/-- One step of an expression behind an operand, if its power is at least `power`. A `NOT` belongs
to a continuation only in front of `IN`, `BETWEEN` and `LIKE`. -/
def extension (inner : Nested) (power : Nat) (operand : Expr) : Rule (Option Expr) := do
  let token ← current
  if token.isSymbol .leftBracket || token.isSymbol .doubleColon then
    if Precedence.trailing.left < power then return none
    else some <$> subscriptOrCast inner operand
  else
    let next ← following
    -- Any other `NOT` here is not read as part of the expression.
    let negated := token.isKeyword .NOT &&
      ((Continuation.ofKind? next.kind).any (·.isNegatable))
    match Continuation.ofKind? (if negated then next else token).kind with
    | none => return none
    | some form =>
      if form.precedence.left < power then return none
      else
        if negated then advance
        advance
        some <$> continuation inner operand negated form

/-- The first operand of an expression, with the operator before it. -/
def firstOperand (inner : Nested) : Rule Expr := do
  match UnaryOp.ofKind? (← current).kind with
  | some op =>
    advance
    return .unary op (← inner.expressionFrom op.precedence.right)
  | none => operand inner

/-- An expression whose operators have at least a given power. -/
def expressionFrom (inner : Nested) (power : Nat) : Rule Expr := do
  iterate (extension inner power) (← firstOperand inner)

end Rule

end SqlBatch
