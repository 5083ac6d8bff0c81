import SqlBatch.Proofs.Allowance
import SqlBatch.Proofs.Extension
import SqlBatch.Proofs.Vocabulary

/-!
# The whole grammar passes only what it has a use for

One law for each rule, in the order of the grammar. Most rules are put together from rules that obey
the law, and so obey it themselves. The argument is of another kind where a rule moves on by
`Rule.advance`: there the token must have been looked at before, and the rule is judged at a cursor
whose token is known (`Rule.PassesAt`).

## Where a rule moves on by itself

* A rule that starts by dispatching on the current token, as those for types, operands and
  statements do, passes the token only in the branches that have found a use for it.
* An operand that starts with a word (`Passes.named`), a cast as a call (`Passes.castCall`) and
  whatever goes on behind an operand (`Passes.subscriptOrCast`, `Passes.continued`) are entered with
  a token that the rule outside has seen. That it has a use is a fact about the tables of what may
  stand there (`isSpoken_of_opening`, `isSpoken_of_continuation`).
* A rule that looks one token further moves past two tokens, of which it has seen both
  (`Passes.lookahead`).

## Levels of nesting

The rules that open a level are assumed to obey the law. With no level left they read nothing, so by
induction they obey it with any number of levels (`Nested.passes_ofAllowance`), and a statement with
its end does (`Rule.passes_terminatedStatement`).
-/

namespace SqlBatch

/-- The rules that open a level pass only tokens that the grammar has a use for. -/
structure Nested.Passes (inner : Nested) : Prop where
  statement : inner.statement.Passes
  query : inner.query.Passes
  fromItem : inner.fromItem.Passes
  expressionFrom : ∀ power, (inner.expressionFrom power).Passes
  objectType : inner.objectType.Passes
  elementType : inner.elementType.Passes

/-- An expression of any power, inside one more level. -/
theorem Nested.Passes.expression {inner : Nested} (h : inner.Passes) : inner.expression.Passes :=
  h.expressionFrom 0

/-- Expressions separated by commas, each inside one more level. -/
theorem Nested.Passes.expressions {inner : Nested} (h : inner.Passes) :
    inner.expressions.Passes :=
  .commaSeparated h.expression

namespace Rule.Passes

variable {inner : Nested}

/-! ### Types -/

/-- A precision, and a scale behind a comma. -/
theorem decimalSize : Rule.decimalSize.Passes := by
  refine (sees _).bind fun _ ↦ .ite (.map (parenthesized ?_)) (.pure none)
  refine (size _).bind fun _ ↦ (accept rfl).bind fun _ ↦ .ite ?_ (.pure _)
  exact (size _).bind fun _ ↦ .pure _

/-- A length in parentheses, or nothing. -/
theorem characterLength : Rule.characterLength.Passes :=
  (sees _).bind fun _ ↦ .ite ((parenthesized (size _)).bind fun _ ↦ .pure _) (.pure none)

/-- **Types.** Each branch that moves on has found the name of a type in front of it; where there is
none, nothing is passed. -/
theorem dataType (h : inner.Passes) : (Rule.dataType inner).Passes := by
  refine bind_current fun c ↦ ?_
  split
  · rename_i hkind
    exact .advance_bind (by rw [Token.isSpoken, hkind]) (.pure _)
  · rename_i hkind
    have hspoken : c.current.isSpoken := by rw [Token.isSpoken, hkind]
    split
    · exact .advance_bind hspoken (.ite ((acceptKeyword _).bind fun _ ↦ .pure _) (.pure _))
    · split
      · exact .advance_bind hspoken (decimalSize.bind fun _ ↦ .pure _)
      · exact .advance_bind hspoken (decimalSize.bind fun _ ↦ .pure _)
      · exact .advance_bind hspoken (characterLength.bind fun _ ↦ .pure _)
      · exact .advance_bind hspoken (characterLength.bind fun _ ↦ .pure _)
      · exact .advance_bind hspoken h.objectType
      · exact .advance_bind hspoken (h.elementType.bind fun _ ↦ .pure _)
      · exact fail _ c
  · exact fail _ c

/-- The element type of an array, between its parentheses. -/
theorem elementType (h : inner.Passes) : (Rule.elementType inner).Passes :=
  parenthesized (dataType h)

/-- A constraint is entered by its keyword; a token that starts none ends the definition. -/
theorem columnConstraint (h : inner.Passes) (column : ColumnDef) :
    (Rule.columnConstraint inner column).Passes := by
  refine bind_current fun c ↦ ?_
  split
  · rename_i hkeyword
    exact .keyword_bind hkeyword ((keyword _).bind fun _ ↦ .pure _)
  · rename_i hkeyword
    exact .keyword_bind hkeyword (.pure _)
  · rename_i hkeyword
    exact .keyword_bind hkeyword ((keyword _).bind fun _ ↦ .pure _)
  · rename_i hkeyword
    exact .keyword_bind hkeyword (h.expression.bind fun _ ↦ .pure _)
  · rename_i hkeyword
    refine .keyword_bind hkeyword ((keyword _).bind fun _ ↦ ?_)
    exact (keyword _).bind fun _ ↦ h.expression.bind fun _ ↦ .pure _
  · rename_i hkeyword
    exact .keyword_bind hkeyword (h.expression.bind fun _ ↦ .pure _)
  · exact Passes.pure none c

/-- A column's name, its type, and as many constraints as follow. -/
theorem columnDef (h : inner.Passes) : (Rule.columnDef inner).Passes :=
  identifier.bind fun _ ↦ (dataType h).bind fun _ ↦ .iterate (columnConstraint h) _

/-- One of three keywords is passed, and no other token. -/
theorem objectPolicy : Rule.objectPolicy.Passes := by
  refine bind_current fun c ↦ ?_
  split
  · rename_i hpolicy
    obtain ⟨_, hkeyword, -⟩ := Option.bind_eq_some_iff.1 hpolicy
    exact .keyword_bind hkeyword (.pure _)
  · exact fail _ c

/-- A rule that looks one token further moves on behind a keyword. -/
theorem lookahead {α : Type} {word : Keyword} {wanted : Token → Bool} {r s : Rule α}
    (hr : r.Passes) (hs : s.Passes) : (Rule.lookahead word wanted r s).Passes := by
  intro c
  rw [PassesAt, run_lookahead]
  split
  · rename_i hfound
    have hkeyword := (Bool.and_eq_true_iff.1 hfound).1
    exact (Cursor.PassesTo.advance (Token.isSpoken_of_isKeyword hkeyword)).trans (hr _)
  · exact hs c

/-- The columns behind `AS (`, which is looked for before either of both is passed. -/
theorem objectColumns (h : inner.Passes) (policy : Option ObjectPolicy) :
    (Rule.objectColumns inner policy).Passes :=
  lookahead ((parenthesized (commaSeparated (columnDef h))).bind fun _ ↦ .pure _) (.pure _)

/-- A policy in parentheses, and columns in parentheses. -/
theorem objectType (h : inner.Passes) : (Rule.objectType inner).Passes :=
  (sees _).bind fun _ ↦
    .ite ((parenthesized objectPolicy).map.bind (objectColumns h)) (objectColumns h none)

/-! ### Operands -/

/-- `DISTINCT`, a star or expressions, between parentheses. -/
theorem arguments (h : inner.Passes) : (Rule.arguments inner).Passes := by
  refine parenthesized ((acceptKeyword _).bind fun _ ↦ (sees _).bind fun _ ↦ .ite (.pure _) ?_)
  refine (accept rfl).bind fun _ ↦ .ite (.pure _) ?_
  exact h.expressions.bind fun _ ↦ .pure _

/-- What starts with a name that has been seen: a call, a column, or all columns of a table. -/
theorem named (h : inner.Passes) (name : String) (span : Span) {c : Cursor}
    (hspoken : c.current.isSpoken) : (Rule.named inner name span).PassesAt c := by
  refine .advance_bind hspoken ((sees _).bind fun _ ↦ .ite ?_ ?_)
  · exact (arguments h).bind fun ⟨_, _⟩ ↦ .pure _
  · refine (accept rfl).bind fun _ ↦ .ite ?_ (.pure _)
    refine (accept rfl).bind fun _ ↦ .ite (.pure _) (bind_current fun c ↦ ?_)
    exact (identifier c).bind fun _ ↦ .pure _

/-- The bracket at the end of an array. -/
theorem closedArray (items : List Expr) : (Rule.closedArray items).Passes :=
  (symbol rfl).bind fun _ ↦ .pure _

/-- Items between brackets, or none. -/
theorem arrayLiteral (h : inner.Passes) : (Rule.arrayLiteral inner).Passes :=
  (symbol rfl).bind fun _ ↦ (sees _).bind fun _ ↦
    .ite (closedArray []) (h.expressions.bind closedArray)

/-- `WHEN`, a condition, `THEN`, a result. -/
theorem branch (h : inner.Passes) : (Rule.branch inner).Passes := by
  refine clause .WHEN (h.expression.bind fun _ ↦ (keyword _).bind fun _ ↦ ?_)
  exact h.expression.bind fun _ ↦ .pure _

/-- `ELSE` with its result, if it follows, and `END`. -/
theorem caseEnding (h : inner.Passes) (operand : Option Expr) (branches : List Branch) :
    (Rule.caseEnding inner operand branches).Passes :=
  (clause .ELSE h.expression).bind fun _ ↦ (keyword _).bind fun _ ↦ .pure _

/-- At least one arm; without any, the rule fails where it stands. -/
theorem arms (h : inner.Passes) (operand : Option Expr) : (Rule.arms inner operand).Passes := by
  refine (many (branch h)).bind fun branches ↦ ?_
  exact .ite ((fail _).bind fun _ ↦ caseEnding h operand branches) (caseEnding h operand branches)

/-- `CASE`, an operand unless `WHEN` follows at once, and the arms. -/
theorem caseExpression (h : inner.Passes) : (Rule.caseExpression inner).Passes :=
  (keyword _).bind fun _ ↦ (seesKeyword _).bind fun _ ↦
    .ite (arms h none) (h.expression.map.bind (arms h))

/-- A query or an expression, told apart by `SELECT` before anything is passed. -/
theorem parenthesizedOperand (h : inner.Passes) : (Rule.parenthesizedOperand inner).Passes := by
  refine parenthesized ((seesKeyword _).bind fun _ ↦ .ite ?_ ?_)
  · exact h.query.bind fun _ ↦ .pure _
  · exact h.expression.bind fun _ ↦ .pure _

/-- `CAST` has been seen by the rule outside; the rest is in parentheses. -/
theorem castCall (h : inner.Passes) {c : Cursor} (hspoken : c.current.isSpoken) :
    (Rule.castCall inner).PassesAt c := by
  refine .advance_bind hspoken (parenthesized (h.expression.bind fun _ ↦ ?_))
  exact (keyword _).bind fun _ ↦ (dataType h).bind fun _ ↦ .pure _

/-- A token that opens an operand has a use. -/
theorem isSpoken_of_opening {t : Token} {opening : Opening}
    (h : Opening.ofKind? t.kind = some opening) : t.isSpoken :=
  Token.isSpoken_of_ofKind? h rfl rfl rfl fun _ ↦ rfl

/-- An operand whose first token has been seen, for each kind of operand. -/
theorem opened (h : inner.Passes) {c : Cursor} (hspoken : c.current.isSpoken)
    (opening : Opening) : (Rule.opened inner opening).PassesAt c := by
  cases opening with
  | literal value => exact .advance_bind hspoken (.pure _)
  | placeholder => exact .advance_bind hspoken (placeholders.bind fun _ ↦ .pure _)
  | positional number => exact .advance_bind hspoken (.pure _)
  | named => exact .advance_bind hspoken (identifier.bind fun _ ↦ .pure _)
  | wildcard => exact .advance_bind hspoken (.pure _)
  | parenthesized => exact parenthesizedOperand h c
  | array => exact arrayLiteral h c
  | cast => exact castCall h hspoken
  | case => exact caseExpression h c
  | «exists» => exact .advance_bind hspoken ((parenthesized h.query).bind fun _ ↦ .pure _)

/-- `ARRAY [` is looked for before it is passed, and a name is passed as a name. -/
theorem arrayOrNamed (h : inner.Passes) : (Rule.arrayOrNamed inner).Passes := by
  refine lookahead (arrayLiteral h) (bind_current fun c ↦ ?_)
  split
  · rename_i hname
    exact named h _ _ (Token.isSpoken_of_name? hname)
  · exact fail _ c

/-- **Operands.** The token is looked up among those that open one; any other has to be a word. -/
theorem operand (h : inner.Passes) : (Rule.operand inner).Passes := by
  refine bind_current fun c ↦ ?_
  split
  · rename_i hopening
    exact opened h (isSpoken_of_opening hopening) _
  · exact arrayOrNamed h c

/-! ### What goes on behind an operand -/

/-- A bracket or a double colon, which the rule outside has seen. -/
theorem subscriptOrCast (h : inner.Passes) (operand : Expr) {c : Cursor}
    (hspoken : c.current.isSpoken) : (Rule.subscriptOrCast inner operand).PassesAt c := by
  have cast : (Rule.castTo inner operand).PassesAt c :=
    .advance_bind hspoken ((dataType h).bind fun _ ↦ .pure _)
  have subscript : (Rule.subscripted inner operand).Passes :=
    h.expression.bind fun _ ↦ (symbol rfl).bind fun _ ↦ .pure _
  rw [PassesAt, Rule.subscriptOrCast, run_bind, run_accept]
  cases hbracket : c.current.isSymbol .leftBracket with
  | true => exact (Cursor.PassesTo.advance hspoken).trans (subscript _)
  | false => exact cast

/-- A query or expressions behind `IN`, between parentheses. -/
theorem inList (h : inner.Passes) : (Rule.inList inner).Passes := by
  refine parenthesized ((seesKeyword _).bind fun _ ↦ .ite ?_ h.expressions)
  exact h.query.bind fun _ ↦ .pure _

/-- What stands behind the first tokens of a continuation, for each of its forms. -/
theorem continuation (h : inner.Passes) (operand : Expr) (negated : Bool)
    (form : Continuation) : (Rule.continuation inner operand negated form).Passes := by
  cases form with
  | isNull => exact (acceptKeyword _).bind fun _ ↦ (keyword _).bind fun _ ↦ .pure _
  | isIn => exact (inList h).bind fun _ ↦ .pure _
  | between =>
    refine (h.expressionFrom _).bind fun _ ↦ (keyword _).bind fun _ ↦ ?_
    exact (h.expressionFrom _).bind fun _ ↦ .pure _
  | binary op => exact (h.expressionFrom _).bind fun _ ↦ .pure _

/-- A token that goes on behind an operand has a use. -/
theorem isSpoken_of_continuation {t : Token} {form : Continuation}
    (h : Continuation.ofKind? t.kind = some form) : t.isSpoken :=
  Token.isSpoken_of_ofKind? h rfl rfl rfl fun _ ↦ rfl

/-- What goes on between two operands is spoken, with the `NOT` in front of it. -/
theorem continued (h : inner.Passes) (operand : Expr) {negated : Bool} {form : Continuation}
    {c : Cursor} (hc : c.continuation? = some (negated, form)) :
    (Rule.continued inner operand negated form).PassesAt c := by
  have onward : (some <$> Rule.continuation inner operand negated form).Passes :=
    (continuation h operand negated form).map
  cases negated with
  | false =>
    exact .advance_bind (isSpoken_of_continuation (Cursor.ofKind?_of_continuation? hc)) onward
  | true =>
    obtain ⟨hnot, hform, -⟩ := Cursor.following_of_continuation? hc
    have hspoken := Token.isSpoken_of_isKeyword hnot
    have hnext : c.advance.current.isSpoken := by
      rw [Cursor.current_advance (Token.isOpen_of_isSpoken hspoken)]
      exact isSpoken_of_continuation hform
    have second : (do
        advance
        some <$> Rule.continuation inner operand true form).PassesAt c.advance :=
      .advance_bind hnext onward
    exact (Cursor.PassesTo.advance hspoken).trans second

/-- **One step behind an operand.** If it goes on, its first token has been seen, and behind a `NOT`
the next one too. -/
theorem extension (h : inner.Passes) (power : Nat) (operand : Expr) :
    (Rule.extension inner power operand).Passes := by
  intro c
  rw [PassesAt, run_extension]
  split
  · rename_i htrailing
    have hspoken : c.current.isSpoken := by
      rcases Bool.or_eq_true_iff.1 htrailing with hsymbol | hsymbol
      · exact Token.isSpoken_of_isSymbol hsymbol rfl
      · exact Token.isSpoken_of_isSymbol hsymbol rfl
    split
    · exact Passes.pure none c
    · exact (subscriptOrCast h operand hspoken).bind fun _ ↦ .pure _
  · cases hcontinuation : c.continuation? with
    | none => exact .refl c
    | some found =>
      dsimp only
      split
      · exact .refl c
      · exact continued h operand hcontinuation

/-- An operator in front of an operand is passed once it has been seen to be one. -/
theorem firstOperand (h : inner.Passes) : (Rule.firstOperand inner).Passes := by
  refine bind_current fun c ↦ ?_
  split
  · rename_i hop
    have hspoken : c.current.isSpoken :=
      Token.isSpoken_of_ofKind? hop rfl rfl rfl fun _ ↦ rfl
    exact .advance_bind hspoken ((h.expressionFrom _).bind fun _ ↦ .pure _)
  · exact operand h c

/-- A first operand, and as many steps as the power allows. -/
theorem expressionFrom (h : inner.Passes) (power : Nat) :
    (Rule.expressionFrom inner power).Passes :=
  (firstOperand h).bind fun _ ↦ .iterate (extension h power) _

/-! ### Queries -/

/-- A table and its alias. -/
theorem tableItem : Rule.tableItem.Passes :=
  tableName.bind fun _ ↦ alias?.bind fun _ ↦ .pure _

/-- A parenthesis opens a query or a `FROM` item; without it there is a table. -/
theorem fromPrimary (h : inner.Passes) : (Rule.fromPrimary inner).Passes := by
  refine (accept rfl).bind fun _ ↦ .ite ((seesKeyword _).bind fun _ ↦ .ite ?_ ?_) tableItem
  · exact h.query.bind fun _ ↦ (symbol rfl).bind fun _ ↦ alias?.bind fun _ ↦ .pure _
  · exact h.fromItem.bind fun _ ↦ (symbol rfl).bind fun _ ↦ .pure _

/-- The words of a join behind its first one. -/
theorem joinedBy (kind : JoinKind) : (Rule.joinedBy kind).Passes :=
  (keyword _).bind fun _ ↦ .pure _

/-- The first word of a join, looked up among those that are one. -/
theorem joinKind : Rule.joinKind.Passes := by
  refine bind_current fun c ↦ ?_
  split
  · exact Passes.pure none c
  · rename_i hkeyword
    have hspoken := Token.isSpoken_of_keyword? hkeyword
    split
    · exact .advance_bind hspoken (.pure _)
    · split
      · exact Passes.pure none c
      · exact .advance_bind hspoken
          (.ite ((acceptKeyword _).bind fun _ ↦ joinedBy _) (joinedBy _))

/-- `ON` with a condition or `USING` with names. -/
theorem joinCondition (h : inner.Passes) : (Rule.joinCondition inner).Passes := by
  refine (acceptKeyword _).bind fun _ ↦ .ite (h.expression.bind fun _ ↦ .pure _) ?_
  refine (acceptKeyword _).bind fun _ ↦ .ite ?_ (fail _)
  exact (parenthesized identifiers).bind fun _ ↦ .pure _

/-- A comma or the words of a join, the table on the right, and the condition. -/
theorem join (h : inner.Passes) (left : FromItem) : (Rule.join inner left).Passes := by
  refine (accept rfl).bind fun _ ↦ .ite (tableItem.bind fun _ ↦ .pure _) ?_
  refine joinKind.bind fun kind? ↦ ?_
  cases kind? with
  | none => exact .pure none
  | some kind =>
    refine tableItem.bind fun _ ↦ .ite (.pure _) ?_
    exact (joinCondition h).bind fun _ ↦ .pure _

/-- A first table and as many joins as follow. -/
theorem fromItem (h : inner.Passes) : (Rule.fromItem inner).Passes :=
  (fromPrimary h).bind fun _ ↦ .iterate (join h) _

/-- An expression and its alias. -/
theorem selectItem (h : inner.Passes) : (Rule.selectItem inner).Passes :=
  h.expression.bind fun _ ↦ alias?.bind fun _ ↦ .pure _

/-- `FIRST` or `LAST`. -/
theorem nullOrder : Rule.nullOrder.Passes :=
  (acceptKeyword _).bind fun _ ↦ .ite (.pure _)
    ((acceptKeyword _).bind fun _ ↦ .ite (.pure _) (fail _))

/-- `NULLS` behind the direction, if it follows. -/
theorem ordered (expr : Expr) (descending : Bool) : (Rule.ordered expr descending).Passes :=
  (clause .NULLS nullOrder).bind fun _ ↦ .pure _

/-- An expression, `ASC` or `DESC`, and where missing values go. -/
theorem orderItem (h : inner.Passes) : (Rule.orderItem inner).Passes := by
  refine h.expression.bind fun expr ↦ (acceptKeyword _).bind fun descending ↦ ?_
  exact .ite (ordered expr descending) ((acceptKeyword _).bind fun _ ↦ ordered expr descending)

/-- The query on the right of a set operator. -/
theorem combined (h : inner.Passes) (op : SetOp) (all : Bool) :
    (Rule.combined inner op all).Passes :=
  h.query.bind fun _ ↦ .pure _

/-- A set operator, with `ALL` or `DISTINCT`, in front of a query. -/
theorem compound (h : inner.Passes) : (Rule.compound inner).Passes := by
  refine bind_current fun c ↦ ?_
  split
  · exact Passes.pure none c
  · rename_i op hop
    obtain ⟨_, hkeyword, -⟩ := Option.bind_eq_some_iff.1 hop
    refine .keyword_bind hkeyword ((acceptKeyword _).bind fun all ↦ ?_)
    exact .ite (combined h op all) ((acceptKeyword _).bind fun _ ↦ combined h op all)

/-- The clauses of a query in their order, each entered by its keyword. -/
theorem queryBody (h : inner.Passes) (distinct : Bool) :
    (Rule.queryBody inner distinct).Passes := by
  refine (commaSeparated (selectItem h)).bind fun _ ↦ (clause .FROM (fromItem h)).bind fun _ ↦ ?_
  refine (clause .WHERE h.expression).bind fun _ ↦ ?_
  refine (listClause .GROUP ((keyword _).bind fun _ ↦ h.expressions)).bind fun _ ↦ ?_
  refine (clause .HAVING h.expression).bind fun _ ↦ (compound h).bind fun compound? ↦ ?_
  cases compound? with
  | some compound => exact .pure _
  | none =>
    refine (listClause .ORDER ((keyword _).bind fun _ ↦ commaSeparated (orderItem h))).bind
      fun _ ↦ ?_
    exact (clause .LIMIT h.expression).bind fun _ ↦ (clause .OFFSET h.expression).bind
      fun _ ↦ .pure _

/-- **Queries.** `SELECT`, `DISTINCT` or `ALL`, and the body. -/
theorem query (h : inner.Passes) : (Rule.query inner).Passes := by
  refine (keyword _).bind fun _ ↦ (acceptKeyword _).bind fun distinct ↦ ?_
  exact .ite (queryBody h distinct) ((acceptKeyword _).bind fun _ ↦ queryBody h distinct)

/-! ### Statements -/

/-- Rows behind `VALUES`, a query, or `DEFAULT VALUES`. -/
theorem insertSource (h : inner.Passes) : (Rule.insertSource inner).Passes := by
  refine bind_current fun c ↦ ?_
  split
  · rename_i hkeyword
    refine .keyword_bind hkeyword ?_
    exact (commaSeparated (parenthesized h.expressions)).bind fun _ ↦ .pure _
  · exact (h.query c).bind fun _ ↦ .pure _
  · rename_i hkeyword
    exact .keyword_bind hkeyword ((keyword _).bind fun _ ↦ .pure _)
  · exact fail _ c

/-- What is put in, behind the columns. -/
theorem inserted (h : inner.Passes) (table : TableName) (columns : List String) :
    (Rule.inserted inner table columns).Passes :=
  (insertSource h).bind fun _ ↦ .pure _

/-- `INSERT INTO`, a table, its columns in parentheses, and what is put in. -/
theorem insert (h : inner.Passes) : (Rule.insert inner).Passes := by
  refine (keyword _).bind fun _ ↦ (keyword _).bind fun _ ↦ tableName.bind fun table ↦ ?_
  refine (sees _).bind fun _ ↦ .ite ?_ (inserted h table [])
  exact (parenthesized identifiers).bind (inserted h table)

/-- A column, an equals sign and its value. -/
theorem assignment (h : inner.Passes) : (Rule.assignment inner).Passes :=
  identifier.bind fun _ ↦ (symbol rfl).bind fun _ ↦ h.expression.bind fun _ ↦ .pure _

/-- `UPDATE`, a table, the assignments behind `SET`, and both optional clauses. -/
theorem update (h : inner.Passes) : (Rule.update inner).Passes := by
  refine (keyword _).bind fun _ ↦ tableName.bind fun _ ↦ alias?.bind fun _ ↦ ?_
  refine (keyword _).bind fun _ ↦ (commaSeparated (assignment h)).bind fun _ ↦ ?_
  exact (clause .FROM (fromItem h)).bind fun _ ↦ (clause .WHERE h.expression).bind fun _ ↦ .pure _

/-- `DELETE FROM`, a table, and `WHERE` with its condition. -/
theorem delete (h : inner.Passes) : (Rule.delete inner).Passes := by
  refine (keyword _).bind fun _ ↦ (keyword _).bind fun _ ↦ tableName.bind fun _ ↦ ?_
  exact alias?.bind fun _ ↦ (clause .WHERE h.expression).bind fun _ ↦ .pure _

/-- Names and values in parentheses behind `WITH`. -/
theorem properties (h : inner.Passes) : (Rule.properties inner).Passes := by
  have property : (Rule.property inner).Passes :=
    dottedName.bind fun _ ↦ (symbol rfl).bind fun _ ↦ h.expression.bind fun _ ↦ .pure _
  exact listClause .WITH (parenthesized (commaSeparated property))

/-- A column, or the primary key of the table behind `PRIMARY KEY`. -/
theorem tableElement (h : inner.Passes) : (Rule.tableElement inner).Passes := by
  refine (acceptKeyword _).bind fun _ ↦ .ite ?_ ((columnDef h).bind fun _ ↦ .pure _)
  exact (keyword _).bind fun _ ↦ (parenthesized identifiers).bind fun _ ↦ .pure _

/-- A table, its elements in parentheses, and its properties. -/
theorem tableDefinition (h : inner.Passes) (ifNotExists : Bool) :
    (Rule.tableDefinition inner ifNotExists).Passes := by
  refine tableName.bind fun _ ↦ ?_
  refine (parenthesized (commaSeparated (tableElement h))).bind fun _ ↦ ?_
  exact (properties h).bind fun _ ↦ .pure _

/-- `IF NOT EXISTS` is passed as a whole or fails where it breaks off. -/
theorem createTable (h : inner.Passes) : (Rule.createTable inner).Passes := by
  refine (keyword _).bind fun _ ↦ (keyword _).bind fun _ ↦ (acceptKeyword _).bind fun exist ↦ ?_
  refine .ite ?_ (tableDefinition h exist)
  exact (keyword _).bind fun _ ↦ (keyword _).bind fun _ ↦ tableDefinition h exist

/-- The table of a `DROP TABLE`. -/
theorem dropped (ifExists : Bool) : (Rule.dropped ifExists).Passes :=
  tableName.bind fun _ ↦ .pure _

/-- `DROP TABLE`, with or without `IF EXISTS`, and a table. -/
theorem dropTable : Rule.dropTable.Passes := by
  refine (keyword _).bind fun _ ↦ (keyword _).bind fun _ ↦ (acceptKeyword _).bind fun exist ↦ ?_
  exact .ite ((keyword _).bind fun _ ↦ dropped exist) (dropped exist)

/-- Tables behind `REFRESH TABLE`. -/
theorem refresh : Rule.refresh.Passes :=
  (keyword _).bind fun _ ↦ (keyword _).bind fun _ ↦ (commaSeparated tableName).bind fun _ ↦ .pure _

/-- Tables behind `OPTIMIZE TABLE`, and properties. -/
theorem optimize (h : inner.Passes) : (Rule.optimize inner).Passes := by
  refine (keyword _).bind fun _ ↦ (keyword _).bind fun _ ↦ ?_
  exact (commaSeparated tableName).bind fun _ ↦ (properties h).bind fun _ ↦ .pure _

/-- The statement that is explained, inside one more level. -/
theorem explaining (h : inner.Passes) (analyze : Bool) :
    (Rule.explaining inner analyze).Passes :=
  h.statement.bind fun _ ↦ .pure _

/-- `ANALYZE` is passed only where a statement has been seen behind it. -/
theorem explain (h : inner.Passes) : (Rule.explain inner).Passes := by
  refine (keyword _).bind fun _ ↦ bind_current fun c ↦ ?_
  rw [PassesAt, run_bind, run_following]
  cases hanalyze : c.current.isKeyword .ANALYZE && c.following.startsStatement with
  | false =>
    simp only [hanalyze, Bool.false_eq_true, if_false]
    exact explaining h false c
  | true =>
    have hspoken := Token.isSpoken_of_isKeyword (Bool.and_eq_true_iff.1 hanalyze).1
    simp only [hanalyze, if_true]
    exact PassesAt.advance_bind hspoken (explaining h true)

/-- A schema behind `FROM` or `IN`. -/
theorem shownTables (qualified : Bool) : (Rule.shownTables qualified).Passes :=
  .ite (identifier.bind fun _ ↦ .pure _) (.pure _)

/-- The word behind `SHOW` decides; a word that is none of those listed is the name of a setting. -/
theorem «show» : Rule.«show».Passes := by
  refine (keyword _).bind fun _ ↦ bind_current fun c ↦ ?_
  split
  · rename_i hkeyword
    refine .keyword_bind hkeyword ((acceptKeyword _).bind fun _ ↦ ?_)
    exact .ite (shownTables true) ((acceptKeyword _).bind shownTables)
  · rename_i hkeyword
    exact .keyword_bind hkeyword (.pure _)
  · rename_i hkeyword
    refine .keyword_bind hkeyword ((keyword _).bind fun _ ↦ ?_)
    exact tableName.bind fun _ ↦ .pure _
  · rename_i hkeyword
    exact .keyword_bind hkeyword (.pure _)
  · exact (dottedName c).bind fun _ ↦ .pure _

/-- `LOCAL`, `SESSION` or nothing. -/
theorem settingScope : Rule.settingScope.Passes :=
  (acceptKeyword _).bind fun _ ↦ .ite (.pure _) ((acceptKeyword _).bind fun _ ↦ .pure _)

/-- `DEFAULT` or expressions. -/
theorem settingValue (h : inner.Passes) (scope : SettingScope) (name : String) :
    (Rule.settingValue inner scope name).Passes :=
  (acceptKeyword _).bind fun _ ↦ .ite (.pure _) (h.expressions.bind fun _ ↦ .pure _)

/-- The name of a setting, `=` or `TO`, and its value. -/
theorem set (h : inner.Passes) : (Rule.set inner).Passes := by
  refine (keyword _).bind fun _ ↦ settingScope.bind fun scope ↦ dottedName.bind fun name ↦ ?_
  have value : (Rule.settingValue inner scope name).Passes := settingValue h scope name
  refine (accept rfl).bind fun _ ↦ .ite value ((acceptKeyword _).bind fun _ ↦ ?_)
  exact .ite value ((fail _).bind fun _ ↦ value)

/-- `ALL` or the name of a setting. -/
theorem reset : Rule.reset.Passes := by
  refine (keyword _).bind fun _ ↦ (acceptKeyword _).bind fun _ ↦ .ite (.pure _) ?_
  exact dottedName.bind fun _ ↦ .pure _

/-- One of five keywords is passed, and no other token. -/
theorem discard : Rule.discard.Passes := by
  refine (keyword _).bind fun _ ↦ bind_current fun c ↦ ?_
  split
  · rename_i htarget
    obtain ⟨_, hkeyword, -⟩ := Option.bind_eq_some_iff.1 htarget
    exact .keyword_bind hkeyword (.pure _)
  · exact fail _ c

/-- `WORK` or `TRANSACTION`, or neither. -/
theorem transactionWords : Rule.transactionWords.Passes :=
  (acceptKeyword _).bind fun _ ↦ .ite (.pure _) ((acceptKeyword _).bind fun _ ↦ .pure _)

theorem begin : Rule.begin.Passes :=
  (keyword _).bind fun _ ↦ transactionWords.bind fun _ ↦ .pure _

theorem startTransaction : Rule.startTransaction.Passes :=
  (keyword _).bind fun _ ↦ (keyword _).bind fun _ ↦ .pure _

theorem commit (first : Keyword) : (Rule.commit first).Passes :=
  (keyword _).bind fun _ ↦ transactionWords.bind fun _ ↦ .pure _

/-- `ALL`, or an expression for the job. -/
theorem kill (h : inner.Passes) : (Rule.kill inner).Passes :=
  (keyword _).bind fun _ ↦ (acceptKeyword _).bind fun _ ↦
    .ite (.pure _) (h.expression.bind fun _ ↦ .pure _)

theorem analyze : Rule.analyze.Passes :=
  (keyword _).bind fun _ ↦ .pure _

/-- `ALL`, a string that has been seen to be one, or a name. -/
theorem allOrName : Rule.allOrName.Passes := by
  refine (acceptKeyword _).bind fun _ ↦ .ite (.pure _) (bind_current fun c ↦ ?_)
  split
  · rename_i hkind
    exact .advance_bind (by rw [Token.isSpoken, hkind]) (.pure _)
  · exact identifier.map c

/-- `PREPARE` may stand in between. -/
theorem deallocate : Rule.deallocate.Passes :=
  (keyword _).bind fun _ ↦ (acceptKeyword _).bind fun _ ↦ allOrName.bind fun _ ↦ .pure _

/-- `ALL` or the name of a cursor. -/
theorem close : Rule.close.Passes :=
  (keyword _).bind fun _ ↦ allOrName.bind fun _ ↦ .pure _

/-- A failure where a statement should start passes nothing. -/
theorem noStatement : Rule.noStatement.Passes :=
  bind_current fun c ↦ Passes.ite (fail _) (fail _) c

/-- **Statements.** The first keyword is looked up, and the rule behind it looks at it once more. -/
theorem statement (h : inner.Passes) : (Rule.statement inner).Passes := by
  refine bind_current fun c ↦ ?_
  split
  · exact h.query.map c
  · exact (insert h).map c
  · exact (update h).map c
  · exact (delete h).map c
  · exact (createTable h).map c
  · exact dropTable c
  · exact explain h c
  · exact «show».map c
  · exact set h c
  · exact discard c
  · exact refresh c
  · exact optimize h c
  · exact reset c
  · exact begin c
  · exact startTransaction c
  · exact commit .COMMIT c
  · exact commit .END c
  · exact kill h c
  · exact analyze c
  · exact deallocate c
  · exact close c
  · exact noStatement c

end Rule.Passes

/-! ### Any number of levels -/

/-- With no level left, nothing is passed. -/
theorem Nested.passes_exhausted : Nested.exhausted.Passes where
  statement := .fail _
  query := .fail _
  fromItem := .fail _
  expressionFrom _ := .fail _
  objectType := .fail _
  elementType := .fail _

/-- **All levels.** By induction on the levels that are left. -/
theorem Nested.passes_ofAllowance (allowance : Nat) : (Nested.ofAllowance allowance).Passes := by
  induction allowance with
  | zero => exact passes_exhausted
  | succ allowance ih =>
    exact ⟨.statement ih, .query ih, .fromItem ih, .expressionFrom ih, .objectType ih,
      .elementType ih⟩

/-- **The grammar passes only tokens that it has a use for.** -/
theorem Rule.passes_terminatedStatement : Rule.terminatedStatement.Passes := by
  have hstatement : Rule.topStatement.Passes := .statement (Nested.passes_ofAllowance _)
  refine hstatement.bind fun tree ↦ Passes.bind_current fun c ↦ ?_
  exact Passes.ite (.pure _) ((Passes.fail _).bind fun _ ↦ .pure _) c

end SqlBatch
