import SqlBatch.Proofs.Reading

/-!
# Reading operands and what goes on behind them

What the rules of an expression do where the kinds of the next tokens decide: which operand a token
opens, which form goes on behind an operand, and where an expression ends.

## The loop of an expression

An expression is an operand and then, round by round, what goes on behind it. A round is one of
these: nothing goes on (`run_extension_of_stops`), an operator or a form of words goes on with at
least the power asked for (`run_extension_of_ofKind?`, `run_extension_binary`,
`run_extension_of_not`), or one of the forms that trail an operand does. `Cursor.Stops` says of a
token that nothing goes on there. Rounds are put together by `run_iterate_extension`.
-/

namespace SqlBatch

namespace Cursor

variable {c : Cursor} {power : Nat}

/-- A token that goes on behind an operand is none that a subscript or a cast starts with, and is
no `NOT`. -/
theorem continuation?_of_ofKind? {form : Continuation}
    (h : Continuation.ofKind? c.current.kind = some form) :
    (c.current.isSymbol .leftBracket || c.current.isSymbol .doubleColon) = false ∧
      c.continuation? = some (false, form) := by
  have hne {kind : Token.Kind} (hkind : Continuation.ofKind? kind = none) :
      (c.current.kind == kind) = false := by
    refine beq_eq_false_iff_ne.2 fun heq ↦ ?_
    rw [heq, hkind] at h
    cases h
  have hnot : c.current.isKeyword .NOT = false := hne rfl
  refine ⟨Bool.or_eq_false_iff.2 ⟨hne rfl, hne rfl⟩, ?_⟩
  rw [continuation?, hnot]
  show (Continuation.ofKind? c.current.kind).map _ = _
  rw [h]
  rfl

/-- An expression ends in front of what is too loose. -/
theorem stops_of_ofKind? {form : Continuation}
    (h : Continuation.ofKind? c.current.kind = some form) (hlt : form.precedence.left < power) :
    c.Stops power := by
  intro level hlevel
  obtain ⟨htrailing, hcontinuation⟩ := continuation?_of_ofKind? h
  rw [onward?, htrailing, if_neg Bool.false_ne_true, hcontinuation] at hlevel
  obtain rfl := Option.some.inj hlevel
  exact hlt

/-- An expression ends in front of what never goes on behind an operand. -/
theorem stops_of_ofKind?_eq_none {kind : Token.Kind} (hkind : c.current.kind = kind)
    (hnone : Continuation.ofKind? kind = none) (hbracket : kind ≠ .symbol .leftBracket)
    (hcast : kind ≠ .symbol .doubleColon) (hnot : kind ≠ .keyword .NOT) (power : Nat) :
    c.Stops power := by
  intro level hlevel
  subst hkind
  have hsymbol (symbol : Symbol) (hne : c.current.kind ≠ .symbol symbol) :
      c.current.isSymbol symbol = false := beq_eq_false_iff_ne.2 hne
  have hkeyword : c.current.isKeyword .NOT = false := beq_eq_false_iff_ne.2 hnot
  rw [onward?, hsymbol _ hbracket, hsymbol _ hcast, continuation?, hkeyword] at hlevel
  change _ ∈ ((Continuation.ofKind? c.current.kind).map _).map _ at hlevel
  rw [hnone] at hlevel
  cases hlevel

/-- Where the statement ends, so does an expression of any power. -/
theorem stops_of_endsStatement (h : c.current.endsStatement) (power : Nat) : c.Stops power := by
  rcases Token.endsStatement_iff.1 h with hkind | hkind <;>
    exact stops_of_ofKind?_eq_none hkind rfl nofun nofun nofun power

end Cursor

/-- A literal opens an operand, and is no operator. -/
theorem Literal.kind_of_ofKind? {kind : Token.Kind} {value : Literal}
    (h : ofKind? kind = some value) : UnaryOp.ofKind? kind = none ∧
      Opening.ofKind? kind = some (.literal value) := by
  unfold ofKind? at h
  split at h <;> first | exact ⟨rfl, congrArg (Option.map Opening.literal) h⟩ | cases h

/-- The operand that a token is by itself: a literal, a column, or a parameter without a name. A
placeholder is numbered by those that have been passed. -/
def Token.operand? (token : Token) (passed : Nat) : Option Expr :=
  match token.kind with
  | .symbol .question => some (.parameter (.anonymous (passed + 1)))
  | .parameter number => some (.parameter (.positional number))
  | .identifier name => some (.column none name token.span)
  | kind => (Literal.ofKind? kind).map .literal

/-- A token that is an operand can be passed. -/
theorem Token.isOpen_of_operand? {token : Token} {passed : Nat} {e : Expr}
    (h : token.operand? passed = some e) : token.isOpen := by
  obtain ⟨kind, text, span⟩ := token
  cases kind with
  | symbol symbol => cases symbol <;> first | rfl | cases h
  | eof | error => cases h
  | _ => rfl

namespace Rule

variable {inner : Nested} {c mid after : Cursor} {power : Nat} {operand e : Expr}

/-! ### Operands -/

/-- Without a prefix operator, an operand is what it is. -/
theorem run_firstOperand (h : UnaryOp.ofKind? c.current.kind = none) :
    (firstOperand inner).run c = (Rule.operand inner).run c := by
  rw [firstOperand, run_bind_of_done (run_current c), h]

/-- A prefix operator takes what binds at least as tightly as it does. -/
theorem run_firstOperand_unary {op : UnaryOp} (h : UnaryOp.ofKind? c.current.kind = some op)
    (hrun : (inner.expressionFrom op.precedence.right).run c.advance = .done operand after) :
    (firstOperand inner).run c = .done (.unary op operand) after := by
  rw [firstOperand, run_bind_of_done (run_current c), h]
  dsimp only
  rw [run_bind_of_done (run_advance c), run_bind_of_done hrun]
  rfl

/-- An operand is read by how it begins. -/
theorem run_operand {opening : Opening} (h : Opening.ofKind? c.current.kind = some opening) :
    (Rule.operand inner).run c = (opened inner opening).run c := by
  rw [Rule.operand, run_bind_of_done (run_current c), h]

/-- What begins no other operand is an array or a name. -/
theorem run_operand_of_word (h : Opening.ofKind? c.current.kind = none) :
    (Rule.operand inner).run c = (arrayOrNamed inner).run c := by
  rw [Rule.operand, run_bind_of_done (run_current c), h]

/-- An identifier begins a column, a call, or all columns of a table. -/
theorem run_operand_of_identifier {name : String} (h : c.current.kind = .identifier name) :
    (Rule.operand inner).run c = (named inner name c.current.span).run c := by
  have hopening : Opening.ofKind? c.current.kind = none := by
    rw [h]
    rfl
  have hname : c.current.name? = some name := by
    rw [Token.name?, h]
  have harray : c.current.isKeyword .ARRAY = false := by
    rw [Token.isKeyword, h]
    rfl
  rw [run_operand_of_word hopening, arrayOrNamed, run_bind_of_done (run_seesKeyword .ARRAY c),
    harray, run_bind_of_done (run_following c), Bool.false_and]
  show (current >>= _).run c = _
  rw [run_bind_of_done (run_current c), hname]

/-- A name alone is a column. -/
theorem run_named_column {name : String} {span : Span}
    (hparen : c.advance.current.isSymbol .leftParen = false)
    (hdot : c.advance.current.isSymbol .dot = false) :
    (named inner name span).run c = .done (.column none name span) c.advance := by
  rw [named, run_bind_of_done (run_advance c), run_bind_of_done (run_sees .leftParen _), hparen]
  show (accept .dot >>= _).run c.advance = _
  rw [run_bind_of_done (run_accept_eq_false hdot)]
  rfl

/-- Two names with a point between them are a column with its table. -/
theorem run_named_dot {table name : String} {span : Span}
    (hdot : c.advance.current.isSymbol .dot)
    (hname : c.advance.advance.current.kind = .identifier name) :
    (named inner table span).run c =
      .done (.column (some table) name (span.through c.advance.advance.current.span))
        c.advance.advance.advance := by
  have hparen : c.advance.current.isSymbol .leftParen = false := by
    rw [Token.isSymbol, beq_iff_eq.1 hdot]
    rfl
  have hstar : c.advance.advance.current.isSymbol .star = false := by
    rw [Token.isSymbol, hname]
    rfl
  rw [named, run_bind_of_done (run_advance c), run_bind_of_done (run_sees .leftParen _), hparen]
  show (accept .dot >>= _).run c.advance = _
  rw [run_bind_of_done (run_accept_eq_true hdot)]
  show (accept .star >>= _).run c.advance.advance = _
  rw [run_bind_of_done (run_accept_eq_false hstar)]
  show (current >>= _).run c.advance.advance = _
  rw [run_bind_of_done (run_current _), run_bind_of_done (run_identifier_of_kind hname)]
  rfl

/-- A token that is an operand by itself is read as that operand, where neither arguments nor the
name of a column stand behind it. -/
theorem run_firstOperand_of_operand? (h : c.current.operand? c.placeholders = some e)
    (hparen : c.advance.current.isSymbol .leftParen = false)
    (hdot : c.advance.current.isSymbol .dot = false) :
    (firstOperand inner).run c = .done e c.advance := by
  have hopen := Token.isOpen_of_operand? h
  rw [Token.operand?] at h
  split at h
  · rename_i hkind
    obtain rfl := Option.some.inj h
    have hplaceholders := Cursor.placeholders_advance_of_isOpen hopen
    rw [Token.isSymbol, hkind, if_pos (beq_self_eq_true _)] at hplaceholders
    rw [run_firstOperand (by rw [hkind]; rfl), run_operand (by rw [hkind]; rfl), opened,
      run_bind_of_done (run_advance c), run_bind_of_done (run_placeholders _), hplaceholders]
    rfl
  · rename_i hkind
    obtain rfl := Option.some.inj h
    rw [run_firstOperand (by rw [hkind]; rfl), run_operand (by rw [hkind]; rfl)]
    rfl
  · rename_i hkind
    obtain rfl := Option.some.inj h
    rw [run_firstOperand (by rw [hkind]; rfl), run_operand_of_identifier hkind]
    exact run_named_column hparen hdot
  · obtain ⟨value, hvalue, rfl⟩ := Option.map_eq_some_iff.1 h
    obtain ⟨hunary, hopening⟩ := Literal.kind_of_ofKind? hvalue
    rw [run_firstOperand hunary, run_operand hopening]
    rfl

/-- A name with arguments behind it is a call. -/
theorem run_named_call {name : String} {span : Span} {distinct : Bool} {arguments : List Expr}
    (hparen : c.advance.current.isSymbol .leftParen)
    (h : (Rule.arguments inner).run c.advance = .done (distinct, arguments) after) :
    (named inner name span).run c = .done (.call name distinct arguments) after := by
  rw [named, run_bind_of_done (run_advance c), run_bind_of_done (run_sees .leftParen _), hparen]
  show (Rule.arguments inner >>= _).run c.advance = _
  rw [run_bind_of_done h]
  rfl

/-- The word `ARRAY` in front of a bracket begins an array. -/
theorem run_operand_of_array (harray : c.current.isKeyword .ARRAY)
    (hbracket : c.following.isSymbol .leftBracket)
    (h : (arrayLiteral inner).run c.advance = .done e after) :
    (Rule.operand inner).run c = .done e after := by
  have hopening : Opening.ofKind? c.current.kind = none := by
    rw [beq_iff_eq.1 harray]
    rfl
  rw [run_operand_of_word hopening, arrayOrNamed, run_bind_of_done (run_seesKeyword .ARRAY c),
    harray, run_bind_of_done (run_following c), hbracket]
  show (advance >>= _).run c = _
  rw [run_bind_of_done (run_advance c)]
  exact h

/-- What a case expression looks at, if it is there. -/
def caseOperand (inner : Nested) : Rule (Option Expr) := do
  if ← seesKeyword .WHEN then return none else some <$> inner.expression

/-- A case expression is read part by part. -/
theorem run_caseExpression {operand otherwise : Option Expr} {branches : List Branch}
    {start behind : Cursor} (hcase : c.current.isKeyword .CASE)
    (hoperand : (caseOperand inner).run c.advance = .done operand start)
    (hbranches : (many (branch inner)).run start = .done branches mid)
    (hempty : branches.isEmpty = false)
    (hotherwise : (clause .ELSE inner.expression).run mid = .done otherwise behind)
    (hend : behind.current.isKeyword .END) :
    (caseExpression inner).run c = .done (.case operand branches otherwise) behind.advance := by
  rw [caseExpression, run_bind_of_done (run_keyword hcase), run_bind_of_done (run_seesKeyword _ _)]
  rw [caseOperand, run_bind_of_done (run_seesKeyword _ _)] at hoperand
  -- The rest is read in the same way whether there is something to look at or not.
  generalize c.advance.current.isKeyword .WHEN = seen at hoperand ⊢
  cases seen with
  | true =>
    cases hoperand
    show (many (branch inner) >>= _).run c.advance = _
    rw [run_bind_of_done hbranches, hempty]
    show (clause .ELSE inner.expression >>= _).run mid = _
    rw [run_bind_of_done hotherwise, run_bind_of_done (run_keyword hend)]
    rfl
  | false =>
    change (some <$> inner.expression).run c.advance = _ at hoperand
    show (some <$> inner.expression >>= _).run c.advance = _
    rw [run_bind_of_done hoperand, run_bind_of_done hbranches, hempty]
    show (clause .ELSE inner.expression >>= _).run mid = _
    rw [run_bind_of_done hotherwise, run_bind_of_done (run_keyword hend)]
    rfl

/-! ### What goes on behind an operand -/

/-- Where nothing of enough power goes on, an expression ends. -/
theorem run_extension_of_stops (h : c.Stops power) (operand : Expr) :
    (extension inner power operand).run c = .done none c := by
  rw [run_extension]
  by_cases htrailing : c.current.isSymbol .leftBracket || c.current.isSymbol .doubleColon
  · have hlt := h .trailing (by rw [Cursor.onward?, if_pos htrailing]; rfl)
    rw [if_pos htrailing, if_pos hlt]
    rfl
  · rw [if_neg htrailing]
    rcases hform : c.continuation? with _ | ⟨negated, form⟩
    · rfl
    · have hlt := h form.precedence (by rw [Cursor.onward?, if_neg htrailing, hform]; rfl)
      exact if_pos hlt

/-- A form goes on behind an operand where it has enough power. -/
theorem run_extension_of_ofKind? {form : Continuation}
    (h : Continuation.ofKind? c.current.kind = some form) (hle : power ≤ form.precedence.left)
    (hrun : (continuation inner operand false form).run c.advance = .done e after) :
    (extension inner power operand).run c = .done (some e) after := by
  obtain ⟨htrailing, hcontinuation⟩ := Cursor.continuation?_of_ofKind? h
  rw [run_extension, htrailing, if_neg Bool.false_ne_true, hcontinuation]
  dsimp only
  rw [if_neg (Nat.not_lt.2 hle)]
  show (some <$> continuation inner operand false form).run c.advance = _
  exact run_map_of_done hrun

/-- An operator goes on behind its left operand with its right one. -/
theorem run_extension_binary {op : BinaryOp} {right : Expr}
    (h : Continuation.ofKind? c.current.kind = some (.binary op))
    (hle : power ≤ op.precedence.left)
    (hrun : (inner.expressionFrom op.precedence.right).run c.advance = .done right after) :
    (extension inner power operand).run c = .done (some (.binary op operand right)) after := by
  refine run_extension_of_ofKind? h hle ?_
  rw [continuation, run_bind_of_done hrun]
  rfl

/-- A form behind a `NOT` goes on behind an operand where it can be negated. -/
theorem run_extension_of_not {form : Continuation} (hnot : c.current.isKeyword .NOT)
    (h : Continuation.ofKind? c.following.kind = some form) (hnegatable : form.isNegatable)
    (hle : power ≤ form.precedence.left)
    (hrun : (continuation inner operand true form).run c.advance.advance = .done e after) :
    (extension inner power operand).run c = .done (some e) after := by
  have htrailing : (c.current.isSymbol .leftBracket || c.current.isSymbol .doubleColon) =
      false := by
    rw [Token.isSymbol, Token.isSymbol, beq_iff_eq.1 hnot]
    rfl
  rw [run_extension, htrailing, if_neg Bool.false_ne_true,
    Cursor.continuation?_of_not hnot h hnegatable]
  dsimp only
  rw [if_neg (Nat.not_lt.2 hle)]
  show (some <$> continuation inner operand true form).run c.advance.advance = _
  exact run_map_of_done hrun

/-- An index behind an operand. -/
theorem run_extension_subscript (h : c.current.isSymbol .leftBracket)
    (hle : power ≤ Precedence.trailing.left) {index : Expr}
    (hrun : inner.expression.run c.advance = .done index mid)
    (hclose : mid.current.isSymbol .rightBracket) :
    (extension inner power operand).run c =
      .done (some (.subscript operand index)) mid.advance := by
  rw [run_extension, h, Bool.true_or, if_pos rfl, if_neg (Nat.not_lt.2 hle)]
  refine run_map_of_done ?_
  rw [subscriptOrCast, run_bind_of_done (run_accept_eq_true h), if_pos rfl,
    run_bind_of_done hrun, run_bind_of_done (run_symbol hclose)]
  rfl

/-- A type behind an operand and two colons. -/
theorem run_extension_cast (h : c.current.isSymbol .doubleColon)
    (hle : power ≤ Precedence.trailing.left) {type : DataType}
    (hrun : (dataType inner).run c.advance = .done type after) :
    (extension inner power operand).run c = .done (some (.cast operand type)) after := by
  have hbracket : c.current.isSymbol .leftBracket = false := by
    rw [Token.isSymbol, beq_iff_eq.1 h]
    rfl
  rw [run_extension, h, Bool.or_true, if_pos rfl, if_neg (Nat.not_lt.2 hle)]
  refine run_map_of_done ?_
  rw [subscriptOrCast, run_bind_of_done (run_accept_eq_false hbracket)]
  show (advance >>= _).run c = _
  rw [run_bind_of_done (run_advance c), run_bind_of_done hrun]
  rfl

/-! ### Whole expressions -/

/-- What goes on behind one form goes on behind the operand that it makes. -/
theorem run_iterate_extension
    (h : (extension inner power operand).run c = .done (some e) after) :
    (iterate (extension inner power) operand).run c =
      (iterate (extension inner power) e).run after := by
  rcases extension_cases h with ⟨hnone, -⟩ | ⟨_, _, -, -, -, hlt, -⟩
  · cases hnone
  · exact run_iterate_of_some h hlt

/-- An expression ends behind its first operand where nothing goes on. -/
theorem run_expressionFrom_of_stops (h : (firstOperand inner).run c = .done e after)
    (hstops : after.Stops power) : (expressionFrom inner power).run c = .done e after := by
  rw [expressionFrom, run_bind_of_done h]
  exact run_iterate_of_none (run_extension_of_stops hstops e)

/-- An expression of one form behind an operand. -/
theorem run_expressionFrom_of_extension (h : (firstOperand inner).run c = .done operand mid)
    (hextension : (extension inner power operand).run mid = .done (some e) after)
    (hstops : after.Stops power) : (expressionFrom inner power).run c = .done e after := by
  rw [expressionFrom, run_bind_of_done h, run_iterate_extension hextension]
  exact run_iterate_of_none (run_extension_of_stops hstops e)

end Rule

end SqlBatch
