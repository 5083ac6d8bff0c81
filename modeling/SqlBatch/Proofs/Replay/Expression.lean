import SqlBatch.Proofs.Extension
import SqlBatch.Proofs.Replay.DataType

/-!
# Expressions replay

Expressions carry the labels of a tree: the places of columns and the numbers of parameters. So this
is where the change of labels is made, and the rules that make them are the ones to look at.

* A column takes its place from the tokens that it is read from, and those correspond (`named`,
  `qualifiedColumn`).
* A placeholder takes its number from the count of the cursor (`placeholder`). Where the second list
  has a number in its place, the rule that reads the number is another one (`numbered`); that the
  two stand for each other is said where an operand is chosen by its first token (`operand`).

A step behind an operand looks at one token or two, and finds the same form in both lists
(`continuation?_cases`).
-/

namespace SqlBatch.Replay.Replays

variable {R : Replay} {inner inner' : Nested}

/-! ### Operands -/

/-- Whether they are distinct has no label. -/
theorem arguments (h : R.Inside inner inner') :
    R.Replays (Prod.map id (List.map (Expr.relabel R.labels))) (.arguments inner)
      (.arguments inner') := by
  refine parenthesized ((acceptKeyword .DISTINCT).bind_id fun distinct ↦ ?_)
  refine (sees (by decide)).bind_id fun _ ↦ .ite (.pure (distinct, [])) ?_
  refine (accept (by decide)).bind_id fun _ ↦ .ite (.pure (distinct, [Expr.wildcard none])) ?_
  exact h.expressions.bind fun exprs ↦ .pure (distinct, exprs)

/-- A column behind its table. The place of the column name is looked up before the name is read, so
it corresponds only if there is a name. -/
theorem qualifiedColumn (table : String) (span : Span) :
    R.Replays (Expr.relabel R.labels) (.qualifiedColumn table span)
      (.qualifiedColumn table (R.span span)) := by
  intro c d hcd hstop
  rw [Rule.qualifiedColumn, Rule.run_bind, Rule.run_current] at hstop ⊢
  rw [Rule.qualifiedColumn, Rule.run_bind, Rule.run_current]
  cases hname : c.current.name? with
  | some name =>
    rw [hcd.current.eq_of_name? hname]
    refine identifier.bind_id (fun column ↦ .pure_of_eq ?_) hcd hstop
    simp [Expr.relabel, labels, R.span_through]
  | none =>
    -- Without a name the place is not used.
    simp only [Rule.run_bind, Rule.run_identifier_of_name?_eq_none hname,
      Rule.run_identifier_of_name?_eq_none (hcd.current.name?.trans hname)]
    exact .failed trivial hcd

/-- The place of a column without a table is that of its token. -/
theorem named (h : R.Inside inner inner') (name : String) (span : Span) :
    R.Replays (Expr.relabel R.labels) (.named inner name span)
      (.named inner' name (R.span span)) := by
  refine advance.bind_id fun _ ↦ (sees (by decide)).bind_id fun _ ↦ .ite ?_ ?_
  · exact (arguments h).bind fun ⟨distinct, exprs⟩ ↦ .pure_of_eq (by simp [Expr.relabel])
  · refine (accept (by decide)).bind_id fun _ ↦ .ite ?_ (.pure_of_eq rfl)
    exact (accept (by decide)).bind_id fun _ ↦ .ite (.pure_of_eq rfl) (qualifiedColumn name span)

/-- The items that have been read carry changed labels. -/
theorem closedArray (items : List Expr) :
    R.Replays (Expr.relabel R.labels) (.closedArray items)
      (.closedArray (items.map (·.relabel R.labels))) :=
  (symbol (by decide)).bind_id fun _ ↦ .pure_of_eq (by simp [Expr.relabel])

/-- An array is empty in both lists or in neither. -/
theorem arrayLiteral (h : R.Inside inner inner') :
    R.Replays (Expr.relabel R.labels) (.arrayLiteral inner) (.arrayLiteral inner') :=
  (symbol (by decide)).bind_id fun _ ↦ (sees (by decide)).bind_id fun _ ↦
    .ite (closedArray []) (h.expressions.bind closedArray)

/-- The condition and the result of an arm. -/
theorem branch (h : R.Inside inner inner') :
    R.Replays (Option.map (Branch.relabel R.labels)) (.branch inner) (.branch inner') := by
  refine clause .WHEN (h.expression.bind fun condition ↦ (keyword .THEN).bind_id fun _ ↦ ?_)
  exact h.expression.bind fun result ↦ .pure (Branch.mk condition result)

/-- The operand and the arms that have been read carry changed labels. -/
theorem caseEnding (h : R.Inside inner inner') (operand : Option Expr) (branches : List Branch) :
    R.Replays (Expr.relabel R.labels) (.caseEnding inner operand branches)
      (.caseEnding inner' (operand.map (·.relabel R.labels))
        (branches.map (·.relabel R.labels))) := by
  refine (clause .ELSE h.expression).bind fun otherwise ↦ (keyword .END).bind_id fun _ ↦ ?_
  exact .pure_of_eq (by simp [Expr.relabel])

/-- As many arms are read from both lists. -/
theorem arms (h : R.Inside inner inner') (operand : Option Expr) :
    R.Replays (Expr.relabel R.labels) (.arms inner operand)
      (.arms inner' (operand.map (·.relabel R.labels))) := by
  refine (many (branch h)).bind fun branches ↦ ?_
  rw [List.isEmpty_map]
  have onward := caseEnding h operand branches
  exact .ite (bind_id (fail (by trivial)) fun _ ↦ onward) onward

/-- `WHEN` follows at once in both lists or in neither. -/
theorem caseExpression (h : R.Inside inner inner') :
    R.Replays (Expr.relabel R.labels) (.caseExpression inner) (.caseExpression inner') :=
  (keyword .CASE).bind_id fun _ ↦ (seesKeyword .WHEN).bind_id fun _ ↦
    .ite (arms h none) (h.expression.some.bind (arms h))

/-- There is a query in both lists or in neither. -/
theorem parenthesizedOperand (h : R.Inside inner inner') :
    R.Replays (Expr.relabel R.labels) (.parenthesizedOperand inner)
      (.parenthesizedOperand inner') := by
  refine parenthesized ((seesKeyword .SELECT).bind_id fun _ ↦ .ite ?_ ?_)
  · exact h.query.bind fun query ↦ .pure (Expr.subquery query)
  · exact h.expression.bind fun expr ↦ .pure (Expr.paren expr)

/-- The operand and the type of a cast. -/
theorem castCall (h : R.Inside inner inner') :
    R.Replays (Expr.relabel R.labels) (.castCall inner) (.castCall inner') := by
  refine advance.bind_id fun _ ↦ parenthesized (h.expression.bind fun operand ↦ ?_)
  exact (keyword .AS).bind_id fun _ ↦ (dataType h).bind fun type ↦ .pure (Expr.cast operand type)

/-- A placeholder stays one where no numbers are written. -/
theorem placeholder (hnumbers : R.numbers = none) :
    R.Replays (Expr.relabel R.labels) (.opened inner .placeholder)
      (.opened inner' .placeholder) := by
  refine advance.bind_id fun _ ↦ (placeholders hnumbers).bind fun n ↦ .pure_of_eq ?_
  simp only [Expr.relabel, labels, hnumbers]

/-- The number of a placeholder is written in its place. -/
theorem numbered {number : Nat → UInt32} (hnumbers : R.numbers = some number) {c d : Cursor}
    (hcd : R.Agree c d) (hquestion : c.current.isSymbol .question)
    (hstop : ((Rule.opened inner .placeholder).run c).cursor.position ≤ R.stop) :
    R.Matches (Expr.relabel R.labels) ((Rule.opened inner .placeholder).run c)
      ((Rule.opened inner' (.positional (number (c.placeholders + 1)))).run d) := by
  have hopen : c.current.isOpen := by
    simp [Token.isOpen, Token.endsStatement, Token.isSymbol, Token.isEof, Token.isError,
      beq_iff_eq.1 hquestion]
  have hplaceholders : c.advance.placeholders = c.placeholders + 1 := by
    rw [Cursor.placeholders_advance_of_isOpen hopen, if_pos hquestion]
  have hlabel : Expr.relabel R.labels (.parameter (.anonymous c.advance.placeholders)) =
      .parameter (.positional (number (c.placeholders + 1))) := by
    simp only [Expr.relabel, labels, hnumbers, hplaceholders]
  show R.Matches _ (.done (Expr.parameter (.anonymous c.advance.placeholders)) c.advance)
    (.done (Expr.parameter (.positional (number (c.placeholders + 1)))) d.advance)
  rw [← hlabel]
  exact .done (hcd.advance hstop)

/-- An operand whose first token is the same in both lists. -/
theorem opened (h : R.Inside inner inner') {opening : Opening}
    (hnumbers : opening = .placeholder → R.numbers = none) :
    R.Replays (Expr.relabel R.labels) (.opened inner opening) (.opened inner' opening) := by
  cases opening with
  | literal value => exact advance.bind_id fun _ ↦ .pure_of_eq (by rw [Expr.relabel])
  | placeholder => exact placeholder (hnumbers rfl)
  | positional number => exact advance.bind_id fun _ ↦ .pure_of_eq rfl
  | named => exact advance.bind_id fun _ ↦ identifier.bind_id fun name ↦ .pure_of_eq rfl
  | wildcard => exact advance.bind_id fun _ ↦ .pure_of_eq rfl
  | parenthesized => exact parenthesizedOperand h
  | array => exact arrayLiteral h
  | cast => exact castCall h
  | case => exact caseExpression h
  | «exists» =>
    exact advance.bind_id fun _ ↦ (parenthesized h.query).bind fun query ↦ .pure (Expr.exists query)

/-- `ARRAY [` is found in both lists or in neither. -/
theorem arrayOrNamed (h : R.Inside inner inner') :
    R.Replays (Expr.relabel R.labels) (.arrayOrNamed inner) (.arrayOrNamed inner') := by
  refine lookahead (fun _ _ htu ↦ htu.isSymbol (by decide))
    (fun _ ht ↦ Token.isSymbol_of_endsStatement ht (by decide)) (arrayLiteral h)
    (bind_current fun t u htu ↦ ?_)
  rw [htu.name?]
  cases hname : t.name? with
  | none => exact .fail trivial
  | some name =>
    rw [htu.eq_of_name? hname]
    exact named h name t.span

/-- **An operand** opens with the same in both lists, but where a number is written in place of a
placeholder. -/
theorem operand (h : R.Inside inner inner') :
    R.Replays (Expr.relabel R.labels) (.operand inner) (.operand inner') := by
  intro c d hcd hstop
  -- Both tokens open the same, unless a number stands in place of a placeholder.
  have hopens : Opening.ofKind? d.current.kind = Opening.ofKind? c.current.kind ∧
        (c.current.isSymbol .question → R.numbers = none) ∨
      ∃ number, R.numbers = some number ∧ c.current.isSymbol .question ∧
        d.current.kind = .parameter (number (c.placeholders + 1)) := by
    rcases hcd.current with (⟨hsame, hnumbers⟩ | ⟨hnumbers, hquestion, hnumber⟩) | ⟨hc, hd⟩
    · exact .inl ⟨by rw [hsame, token_kind], hnumbers⟩
    · exact .inr ⟨_, hnumbers, hquestion, hnumber⟩
    · refine .inl ⟨?_, fun hquestion ↦ ?_⟩
      · rcases Token.endsStatement_iff.1 hc with hc | hc <;>
          rcases Token.endsStatement_iff.1 hd with hd | hd <;> rw [hc, hd] <;> rfl
      · rw [Token.isSymbol_of_endsStatement hc (by decide)] at hquestion
        cases hquestion
  simp only [Rule.operand, Rule.run_bind, Rule.run_current] at hstop ⊢
  rcases hopens with ⟨hkind, hnumbers⟩ | ⟨number, hnumbers, hquestion, hnumber⟩
  · rw [hkind]
    cases hopening : Opening.ofKind? c.current.kind with
    | none =>
      rw [hopening] at hstop
      exact arrayOrNamed h hcd hstop
    | some opening =>
      rw [hopening] at hstop
      refine opened h ?_ hcd hstop
      rintro rfl
      exact hnumbers (beq_iff_eq.2 (Opening.eq_question_of_placeholder hopening))
  · have hkind : c.current.kind = .symbol .question := beq_iff_eq.1 hquestion
    simp only [hkind, hnumber] at hstop ⊢
    exact numbered hnumbers hcd hquestion hstop

/-! ### What goes on behind an operand -/

/-- What the operand is carries changed labels; the index or the type is read. -/
theorem subscriptOrCast (h : R.Inside inner inner') (operand : Expr) :
    R.Replays (Expr.relabel R.labels) (.subscriptOrCast inner operand)
      (.subscriptOrCast inner' (operand.relabel R.labels)) := by
  refine (accept (by decide)).bind_id fun _ ↦ .ite ?_ ?_
  · refine h.expression.bind fun index ↦ (symbol (by decide)).bind_id fun _ ↦ ?_
    exact .pure (Expr.subscript operand index)
  · exact advance.bind_id fun _ ↦ (dataType h).bind fun type ↦ .pure (Expr.cast operand type)

/-- The items behind `IN`, of which a query is one. -/
theorem inList (h : R.Inside inner inner') :
    R.Replays (List.map (Expr.relabel R.labels)) (.inList inner) (.inList inner') := by
  refine parenthesized ((seesKeyword .SELECT).bind_id fun _ ↦ .ite ?_ h.expressions)
  exact h.query.bind fun query ↦ .pure [Expr.subquery query]

/-- What is read behind the first tokens of a form is put behind an operand with changed labels. -/
theorem continuation (h : R.Inside inner inner') (operand : Expr) (negated : Bool)
    (form : Continuation) :
    R.Replays (Expr.relabel R.labels) (.continuation inner operand negated form)
      (.continuation inner' (operand.relabel R.labels) negated form) := by
  cases form with
  | isNull =>
    refine (acceptKeyword .NOT).bind_id fun negated ↦ (keyword .NULL).bind_id fun _ ↦ ?_
    exact .pure (Expr.isNull operand negated)
  | isIn =>
    refine (inList h).bind fun list ↦ .pure_of_eq ?_
    rw [Expr.relabel, relabelExprs_eq_map]
  | between =>
    refine (h.expressionFrom _).bind fun low ↦ (keyword .AND).bind_id fun _ ↦ ?_
    exact (h.expressionFrom _).bind fun high ↦ .pure (Expr.between operand low high negated)
  | binary op =>
    refine (h.expressionFrom _).bind fun right ↦ .pure_of_eq ?_
    cases negated <;> rfl

/-- Nothing goes on at a token that ends the statement. -/
theorem ofKind?_of_endsStatement {t : Token} (h : t.endsStatement) :
    Continuation.ofKind? t.kind = none := by
  rcases Token.endsStatement_iff.1 h with h | h <;> rw [h] <;> rfl

/-- What goes on behind an operand is the same for both cursors. Only at the last common token, if
it is a `NOT`, the second list may end where the first one goes on. -/
theorem continuation?_cases {c d : Cursor} (hcd : R.Agree c d) :
    d.continuation? = c.continuation? ∨ d.continuation? = none ∧ R.stop ≤ c.position := by
  have hkind : Continuation.ofKind? d.current.kind = Continuation.ofKind? c.current.kind :=
    hcd.current.ofKind Continuation.ofKind? rfl fun _ ↦ rfl
  have hkeyword := hcd.current.isKeyword .NOT
  by_cases hnot : c.current.isKeyword .NOT
  · rcases hcd.following (Token.endsStatement_of_isKeyword hnot) with ⟨k, hnext⟩ | hends
    · have hnextKind :
          Continuation.ofKind? d.following.kind = Continuation.ofKind? c.following.kind :=
        hnext.ofKind Continuation.ofKind? rfl fun _ ↦ rfl
      refine .inl ?_
      simp only [Cursor.continuation?, apply_ite Token.kind, apply_ite Continuation.ofKind?,
        hkeyword, hkind, hnextKind]
    · have hnone : d.continuation? = none :=
        Cursor.continuation?_eq_none_of_not (hkeyword.trans hnot) (ofKind?_of_endsStatement hends)
      rcases Nat.lt_or_ge c.position R.stop with hlt | hge
      · obtain ⟨k, hnext⟩ := hcd.following_of_lt hlt
        have hends' : c.following.endsStatement := hnext.endsStatement ▸ hends
        rw [hnone, Cursor.continuation?_eq_none_of_not hnot (ofKind?_of_endsStatement hends')]
        exact .inl rfl
      · exact .inr ⟨hnone, hge⟩
  · refine .inl ?_
    simp only [Cursor.continuation?, hkeyword, Bool.eq_false_iff.2 hnot, Bool.false_and,
      Bool.false_eq_true, if_false, hkind]

/-- A form of enough power is read behind the words in front of it. -/
theorem continued (h : R.Inside inner inner') (operand : Expr) (negated : Bool)
    (form : Continuation) :
    R.Replays (Option.map (Expr.relabel R.labels))
      (.continued inner operand negated form)
      (.continued inner' (operand.relabel R.labels) negated form) := by
  have onward : R.Replays (Option.map (Expr.relabel R.labels))
      (do .advance; some <$> .continuation inner operand negated form)
      (do .advance; some <$> .continuation inner' (operand.relabel R.labels) negated form) :=
    advance.bind_id fun _ ↦ (continuation h operand negated form).some
  exact .ite (advance.bind_id fun _ ↦ onward) onward

/-- **One step.** It is taken in both readings or in neither. -/
theorem extension (h : R.Inside inner inner') (power : Nat) (operand : Expr) :
    R.Replays (Option.map (Expr.relabel R.labels)) (.extension inner power operand)
      (.extension inner' power (operand.relabel R.labels)) := by
  intro c d hcd hstop
  have hbracket : d.current.isSymbol .leftBracket = _ := hcd.current.isSymbol (by decide)
  have hcast : d.current.isSymbol .doubleColon = _ := hcd.current.isSymbol (by decide)
  rw [Rule.run_extension] at hstop ⊢
  rw [Rule.run_extension, hbracket, hcast]
  by_cases htrailing : c.current.isSymbol .leftBracket || c.current.isSymbol .doubleColon
  · rw [if_pos htrailing] at hstop ⊢
    rw [if_pos htrailing]
    exact Replays.ite (.pure none) (subscriptOrCast h operand).some hcd hstop
  rw [if_neg htrailing] at hstop ⊢
  rw [if_neg htrailing]
  cases hcontinuation : c.continuation? with
  | none =>
    obtain hnone | ⟨hnone, -⟩ := continuation?_cases hcd
    · rw [hnone, hcontinuation]
      exact .done hcd
    · rw [hnone]
      exact .done hcd
  | some found =>
    obtain ⟨negated, form⟩ := found
    rw [hcontinuation] at hstop
    dsimp only at hstop ⊢
    rcases continuation?_cases hcd with hsame | ⟨hnone, hge⟩
    · rw [hsame, hcontinuation]
      dsimp only
      split
      · exact .done hcd
      · rename_i hle
        rw [if_neg hle] at hstop
        exact continued h operand negated form hcd hstop
    · rw [hnone]
      dsimp only
      split
      · exact .done hcd
      · -- The first reading would go on past the last common token.
        rename_i hle
        rw [if_neg hle] at hstop
        have hlt := Rule.position_lt_run_continued inner operand negated form
          (Rule.isOpen_of_continuation? hcontinuation)
        exact absurd (Nat.lt_of_lt_of_le hlt (Nat.le_trans hstop hge)) (Nat.lt_irrefl _)

/-- The operator in front of an operand is the same in both lists. -/
theorem firstOperand (h : R.Inside inner inner') :
    R.Replays (Expr.relabel R.labels) (.firstOperand inner) (.firstOperand inner') := by
  refine bind_current fun t u htu ↦ ?_
  rw [htu.ofKind UnaryOp.ofKind? rfl fun _ ↦ rfl]
  split
  · exact advance.bind_id fun _ ↦ (h.expressionFrom _).bind fun expr ↦ .pure (Expr.unary _ expr)
  · exact operand h

/-- **Expressions.** As many steps are taken in both readings. -/
theorem expressionFrom (h : R.Inside inner inner') (power : Nat) :
    R.Replays (Expr.relabel R.labels) (.expressionFrom inner power)
      (.expressionFrom inner' power) :=
  (firstOperand h).bind (iterate (extension h power))

end SqlBatch.Replay.Replays
