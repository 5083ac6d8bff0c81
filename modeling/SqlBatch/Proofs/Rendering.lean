import SqlBatch.Proofs.Reading
import SqlBatch.Tree.Height

/-!
# Writing expressions

The tokens by which an expression is written, and where it has to be put in parentheses so that
nothing is read differently: around every operator, predicate and subscript that is an operand of
another one. Writing goes by the kinds of tokens (`Expr.kinds`), since what is read does.

## Parentheses

`Expr.guarded` puts them into the tree itself, where they are nodes like any other; what is written
is then the tree as it is. Around the items of an `IN` and the index of a subscript parentheses are
not needed, and a `Style` says whether they are written, as it says whether an array is introduced
by its word. Every style is read back.

## What is left out

Expressions that hold queries or types are not written here, nor are wildcards. `Expr.IsWritten` is
the class of those that are.
-/

namespace SqlBatch

/-! ### Single tokens -/

/-- The token that a literal is. -/
def Literal.kind : Literal → Token.Kind
  | integer value => .integer value
  | float value => .float value
  | numeric digits => .numeric digits
  | string value => .string value
  | blob bytes => .blob bytes
  | boolean true => .keyword .TRUE
  | boolean false => .keyword .FALSE
  | null => .keyword .NULL

/-- The token of a literal spells it. -/
@[simp] theorem Literal.ofKind?_kind (value : Literal) : ofKind? value.kind = some value := by
  rcases value with _ | _ | _ | _ | _ | _ | _ <;> first | rfl | (rename_i b; cases b <;> rfl)

/-- The token that an operator between two operands is. -/
def BinaryOp.kind : BinaryOp → Token.Kind
  | add => .symbol .plus
  | sub => .symbol .minus
  | mul => .symbol .star
  | div => .symbol .slash
  | mod => .symbol .percent
  | eq => .symbol .eq
  | notEq => .symbol .notEq
  | lt => .symbol .lt
  | ltEq => .symbol .ltEq
  | gt => .symbol .gt
  | gtEq => .symbol .gtEq
  | and => .keyword .AND
  | or => .keyword .OR
  | concat => .symbol .concat
  | like => .keyword .LIKE
  | bitAnd => .symbol .bitAnd
  | bitOr => .symbol .bitOr
  | leftShift => .symbol .leftShift
  | rightShift => .symbol .rightShift

/-- The token of an operator goes on behind an operand with it. -/
@[simp] theorem Continuation.ofKind?_kind (op : BinaryOp) :
    Continuation.ofKind? op.kind = some (.binary op) := by
  cases op <;> rfl

/-- The token that an operator before an operand is. -/
def UnaryOp.kind : UnaryOp → Token.Kind
  | neg => .symbol .minus
  | not => .keyword .NOT
  | bitNot => .symbol .bitNot

/-- The token of a prefix operator is read as it. -/
@[simp] theorem UnaryOp.ofKind?_kind (op : UnaryOp) : ofKind? op.kind = some op := by
  cases op <;> rfl

/-- The tokens of a parameter. -/
def Parameter.kinds : Parameter → List Token.Kind
  | anonymous _ => [.symbol .question]
  | positional number => [.parameter number]
  | named name => [.symbol .colon, .identifier name]

/-- A word that may be left out. -/
def wordIf (written : Bool) (word : Keyword) : List Token.Kind :=
  if written then [.keyword word] else []

/-! ### Expressions -/

/-- How expressions are written, where there is a choice. -/
structure Style where
  /-- Whether `ARRAY` stands in front of the items of an array. -/
  arrayWord : Bool
  /-- Whether what `IN` compares with counts as operands. -/
  enclosesItems : Bool
  /-- Whether the index of a subscript counts as an operand. -/
  enclosesIndex : Bool
deriving DecidableEq, Repr

mutual

/-- The tokens of an expression. -/
def Expr.kinds (style : Style) : Expr → List Token.Kind
  | .literal value => [value.kind]
  | .column none name _ => [.identifier name]
  | .column (some table) name _ => [.identifier table, .symbol .dot, .identifier name]
  | .parameter p => p.kinds
  | .unary op operand => op.kind :: operand.kinds style
  | .binary op left right => left.kinds style ++ op.kind :: right.kinds style
  | .isNull operand negated =>
    operand.kinds style ++ .keyword .IS :: (wordIf negated .NOT ++ [.keyword .NULL])
  | .isIn operand list negated =>
    operand.kinds style ++ (wordIf negated .NOT ++ .keyword .IN :: .symbol .leftParen ::
      (kindsOfExprs style list ++ [.symbol .rightParen]))
  | .between operand low high negated =>
    operand.kinds style ++ (wordIf negated .NOT ++ .keyword .BETWEEN ::
      (low.kinds style ++ .keyword .AND :: high.kinds style))
  | .case operand branches otherwise =>
    .keyword .CASE :: (kindsOfExpr? style operand ++ (kindsOfBranches style branches ++
      (kindsOfElse style otherwise ++ [.keyword .END])))
  | .array items =>
    wordIf style.arrayWord .ARRAY ++ .symbol .leftBracket ::
      (kindsOfExprs style items ++ [.symbol .rightBracket])
  | .subscript base index =>
    base.kinds style ++ .symbol .leftBracket :: (index.kinds style ++ [.symbol .rightBracket])
  | .call name distinct arguments =>
    .identifier name :: .symbol .leftParen ::
      (wordIf distinct .DISTINCT ++ (kindsOfExprs style arguments ++ [.symbol .rightParen]))
  | .paren inner => .symbol .leftParen :: (inner.kinds style ++ [.symbol .rightParen])
  | _ => []

/-- The tokens of expressions with commas between them. -/
def kindsOfExprs (style : Style) : List Expr → List Token.Kind
  | [] => []
  | expr :: exprs => expr.kinds style ++ kindsOfOthers style exprs

/-- The tokens of expressions with a comma in front of each. -/
def kindsOfOthers (style : Style) : List Expr → List Token.Kind
  | [] => []
  | expr :: exprs => .symbol .comma :: (expr.kinds style ++ kindsOfOthers style exprs)

/-- The tokens of an expression that may be missing. -/
def kindsOfExpr? (style : Style) : Option Expr → List Token.Kind
  | none => []
  | some expr => expr.kinds style

/-- The tokens of the last arm of a case expression, which may be missing. -/
def kindsOfElse (style : Style) : Option Expr → List Token.Kind
  | none => []
  | some expr => .keyword .ELSE :: expr.kinds style

/-- The tokens of the arms of a case expression. -/
def kindsOfBranches (style : Style) : List Branch → List Token.Kind
  | [] => []
  | ⟨condition, result⟩ :: branches =>
    .keyword .WHEN :: (condition.kinds style ++ .keyword .THEN ::
      (result.kinds style ++ kindsOfBranches style branches))

end

/-! ### Which tokens are written -/

theorem Literal.isOpen_kind (value : Literal) : value.kind.isOpen := by
  rcases value with _ | _ | _ | _ | _ | _ | _ <;> first | rfl | (rename_i b; cases b <;> rfl)

theorem UnaryOp.isOpen_kind (op : UnaryOp) : op.kind.isOpen := by
  cases op <;> rfl

theorem BinaryOp.isOpen_kind (op : BinaryOp) : op.kind.isOpen := by
  cases op <;> rfl

theorem Parameter.all_isOpen_kinds (p : Parameter) : p.kinds.all Token.Kind.isOpen := by
  cases p <;> rfl

theorem all_isOpen_wordIf (written : Bool) (word : Keyword) :
    (wordIf written word).all Token.Kind.isOpen := by
  cases written <;> rfl

mutual

/-- A statement goes past the tokens of an expression, so that all of them are read. -/
theorem Expr.all_isOpen_kinds (style : Style) :
    (e : Expr) → (e.kinds style).all Token.Kind.isOpen
  | .literal value => by simp [Expr.kinds, value.isOpen_kind]
  | .column none _ _ => rfl
  | .column (some _) _ _ => rfl
  | .parameter p => p.all_isOpen_kinds
  | .unary op operand => by
    simp only [Expr.kinds, List.all_cons, op.isOpen_kind, operand.all_isOpen_kinds,
      Bool.and_self]
  | .binary op left right => by
    simp only [Expr.kinds, List.all_append, List.all_cons, op.isOpen_kind,
      left.all_isOpen_kinds, right.all_isOpen_kinds, Bool.and_self]
  | .isNull operand negated => by
    simp only [Expr.kinds, List.all_append, List.all_cons, all_isOpen_wordIf,
      operand.all_isOpen_kinds]
    rfl
  | .isIn operand list negated => by
    simp only [Expr.kinds, List.all_append, List.all_cons, all_isOpen_wordIf,
      operand.all_isOpen_kinds, all_isOpen_kindsOfExprs style list]
    rfl
  | .between operand low high negated => by
    simp only [Expr.kinds, List.all_append, List.all_cons, all_isOpen_wordIf,
      operand.all_isOpen_kinds, low.all_isOpen_kinds, high.all_isOpen_kinds]
    rfl
  | .case operand branches otherwise => by
    simp only [Expr.kinds, List.all_append, List.all_cons, all_isOpen_kindsOfExpr? style operand,
      all_isOpen_kindsOfBranches style branches, all_isOpen_kindsOfElse style otherwise]
    rfl
  | .array items => by
    simp only [Expr.kinds, List.all_append, List.all_cons, all_isOpen_wordIf,
      all_isOpen_kindsOfExprs style items]
    rfl
  | .subscript base index => by
    simp only [Expr.kinds, List.all_append, List.all_cons, base.all_isOpen_kinds,
      index.all_isOpen_kinds]
    rfl
  | .call name distinct arguments => by
    simp only [Expr.kinds, List.all_append, List.all_cons, all_isOpen_wordIf,
      all_isOpen_kindsOfExprs style arguments]
    rfl
  | .paren inner => by
    simp only [Expr.kinds, List.all_append, List.all_cons, inner.all_isOpen_kinds]
    rfl
  | .subquery _ | .exists _ | .cast _ _ | .wildcard _ => rfl

theorem all_isOpen_kindsOfExprs (style : Style) :
    (exprs : List Expr) → (kindsOfExprs style exprs).all Token.Kind.isOpen
  | [] => rfl
  | expr :: exprs => by
    simp only [kindsOfExprs, List.all_append, expr.all_isOpen_kinds,
      all_isOpen_kindsOfOthers style exprs, Bool.and_self]

theorem all_isOpen_kindsOfOthers (style : Style) :
    (exprs : List Expr) → (kindsOfOthers style exprs).all Token.Kind.isOpen
  | [] => rfl
  | expr :: exprs => by
    simp only [kindsOfOthers, List.all_append, List.all_cons, expr.all_isOpen_kinds,
      all_isOpen_kindsOfOthers style exprs]
    rfl

theorem all_isOpen_kindsOfExpr? (style : Style) :
    (expr? : Option Expr) → (kindsOfExpr? style expr?).all Token.Kind.isOpen
  | none => rfl
  | some expr => expr.all_isOpen_kinds style

theorem all_isOpen_kindsOfElse (style : Style) :
    (expr? : Option Expr) → (kindsOfElse style expr?).all Token.Kind.isOpen
  | none => rfl
  | some expr => by
    simp only [kindsOfElse, List.all_cons, expr.all_isOpen_kinds]
    rfl

theorem all_isOpen_kindsOfBranches (style : Style) :
    (branches : List Branch) → (kindsOfBranches style branches).all Token.Kind.isOpen
  | [] => rfl
  | ⟨condition, result⟩ :: branches => by
    simp only [kindsOfBranches, List.all_append, List.all_cons, condition.all_isOpen_kinds,
      result.all_isOpen_kinds, all_isOpen_kindsOfBranches style branches]
    rfl

end

/-! ### Parentheses -/

namespace Expr

/-- Whether the expression is an operator, a predicate or a subscript. -/
def isCompound : Expr → Bool
  | .unary _ _ | .binary _ _ _ | .isNull _ _ | .isIn _ _ _ | .between _ _ _ _
  | .subscript _ _ => true
  | _ => false

/-- The expression in parentheses, if it is an operator, a predicate or a subscript. -/
def enclosed (e : Expr) : Expr :=
  if e.isCompound then .paren e else e

/-- The expression as an operand, if it counts as one. -/
def enclosedIf (counts : Bool) (e : Expr) : Expr :=
  if counts then e.enclosed else e

end Expr

mutual

/-- The expression with parentheses around the operators, predicates and subscripts that are
operands of another one. -/
def Expr.guarded (style : Style) : Expr → Expr
  | .unary op operand => .unary op (operand.guarded style).enclosed
  | .binary op left right =>
    .binary op (left.guarded style).enclosed (right.guarded style).enclosed
  | .isNull operand negated => .isNull (operand.guarded style).enclosed negated
  | .isIn operand list negated =>
    .isIn (operand.guarded style).enclosed
      ((guardedExprs style list).map (·.enclosedIf style.enclosesItems)) negated
  | .between operand low high negated =>
    .between (operand.guarded style).enclosed (low.guarded style).enclosed
      (high.guarded style).enclosed negated
  | .case operand branches otherwise =>
    .case (guardedExpr? style operand) (guardedBranches style branches)
      (guardedExpr? style otherwise)
  | .array items => .array (guardedExprs style items)
  | .subscript base index =>
    .subscript (base.guarded style).enclosed
      ((index.guarded style).enclosedIf style.enclosesIndex)
  | .call name distinct arguments => .call name distinct (guardedExprs style arguments)
  | .paren inner => .paren (inner.guarded style)
  | e => e

/-- Several expressions with their parentheses. -/
def guardedExprs (style : Style) : List Expr → List Expr
  | [] => []
  | expr :: exprs => expr.guarded style :: guardedExprs style exprs

/-- An expression that may be missing, with its parentheses. -/
def guardedExpr? (style : Style) : Option Expr → Option Expr
  | none => none
  | some expr => some (expr.guarded style)

/-- The arms of a case expression with their parentheses. -/
def guardedBranches (style : Style) : List Branch → List Branch
  | [] => []
  | ⟨condition, result⟩ :: branches =>
    ⟨condition.guarded style, result.guarded style⟩ :: guardedBranches style branches

end

/-- Expressions are guarded one by one. -/
theorem guardedExprs_eq_map (style : Style) (exprs : List Expr) :
    guardedExprs style exprs = exprs.map (·.guarded style) := by
  induction exprs with
  | nil => rfl
  | cons expr exprs ih => rw [guardedExprs, ih, List.map_cons]

theorem guardedExpr?_eq_map (style : Style) (expr? : Option Expr) :
    guardedExpr? style expr? = expr?.map (·.guarded style) := by
  cases expr? <;> rfl

/-- The arms of a `CASE` are guarded one by one. -/
theorem guardedBranches_eq_map (style : Style) (branches : List Branch) :
    guardedBranches style branches =
      branches.map fun b ↦ ⟨b.condition.guarded style, b.result.guarded style⟩ := by
  induction branches with
  | nil => rfl
  | cons branch branches ih =>
    obtain ⟨condition, result⟩ := branch
    rw [guardedBranches, ih, List.map_cons]

/-- What is enclosed is no `LIKE`, so a `NOT` in front of it is an operator of its own. -/
theorem UnaryOp.isNotLike_enclosed (op : UnaryOp) (e : Expr) : op.isNotLike e.enclosed = false := by
  rw [Expr.enclosed]
  cases e <;> cases op <;> rfl

/-- The expressions that are written: those of literals, columns, and parameters that are not
numbered by their place, and of operators, predicates, subscripts, arrays, calls and case
expressions. -/
inductive Expr.IsWritten : Expr → Prop
  | literal (value : Literal) : IsWritten (.literal value)
  | column (table : Option String) (name : String) (span : Span) :
    IsWritten (.column table name span)
  | positional (number : UInt32) : IsWritten (.parameter (.positional number))
  | named (name : String) : IsWritten (.parameter (.named name))
  | unary (op : UnaryOp) {operand : Expr} : IsWritten operand → IsWritten (.unary op operand)
  | binary (op : BinaryOp) {left right : Expr} :
    IsWritten left → IsWritten right → IsWritten (.binary op left right)
  | isNull {operand : Expr} (negated : Bool) :
    IsWritten operand → IsWritten (.isNull operand negated)
  | isIn {operand : Expr} {list : List Expr} (negated : Bool) :
    IsWritten operand → list ≠ [] → (∀ e ∈ list, IsWritten e) →
    IsWritten (.isIn operand list negated)
  | between {operand low high : Expr} (negated : Bool) :
    IsWritten operand → IsWritten low → IsWritten high →
    IsWritten (.between operand low high negated)
  | case {operand otherwise : Option Expr} {branches : List Branch} :
    (∀ e ∈ operand, IsWritten e) → branches ≠ [] →
    (∀ branch ∈ branches, IsWritten branch.condition) →
    (∀ branch ∈ branches, IsWritten branch.result) → (∀ e ∈ otherwise, IsWritten e) →
    IsWritten (.case operand branches otherwise)
  | array {items : List Expr} : (∀ e ∈ items, IsWritten e) → IsWritten (.array items)
  | subscript {base index : Expr} :
    IsWritten base → IsWritten index → IsWritten (.subscript base index)
  | call (name : String) (distinct : Bool) {arguments : List Expr} :
    (∀ e ∈ arguments, IsWritten e) → IsWritten (.call name distinct arguments)

end SqlBatch
