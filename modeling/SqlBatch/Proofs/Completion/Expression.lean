import SqlBatch.Proofs.Completion.DataType

/-!
# Expressions complete

An expression is completed as `NULL`. What a completion goes on with behind an expression goes on
with none itself, so a step behind an operand stops there; `AND` is such an end inside `BETWEEN`
alone, where it is too weak to go on with the first bound (`3 ≤ power`).

Behind an operand, three ways of a step are told apart by the tokens that have been passed: a
subscript or a cast, a continuation (`extension_onward`), and a continuation behind a `NOT`
(`extension_negated`). The third looks at two tokens together. A reading that has passed the `NOT`
has found what can be negated behind it, and a completion that stands right behind the `NOT` must
not start with that, which is what `IsApart` of the completion is for.
-/

namespace SqlBatch.Completion

variable {next : Token.Kind} {inner inner' : Nested}

/-- `NULL` is looked for behind no token. -/
theorem joins_null (kind : Token.Kind) : kind.joins (.keyword .NULL) = false :=
  joins_of_forall (by decide) kind

/-- `INT` is looked for behind no token. -/
theorem joins_int (kind : Token.Kind) : kind.joins (.keyword .INT) = false :=
  joins_of_forall (by decide) kind

/-- A name is looked for behind no token. -/
theorem joins_identifier (kind : Token.Kind) : kind.joins (.identifier "x") = false :=
  joins_of_forall (by decide) kind

/-- A parenthesis is looked for behind `AS` alone. -/
theorem joins_leftParen {kind : Token.Kind} (h : kind ≠ .keyword .AS) :
    kind.joins (.symbol .leftParen) = false :=
  joins_of_ne (by decide) h

/-- What a completion starts with behind the words of a continuation. -/
def head : Continuation → Token.Kind
  | .isIn => .symbol .leftParen
  | _ => .keyword .NULL

/-- What a continuation goes on with is looked for behind `AS` alone. -/
theorem joins_head {kind : Token.Kind} (h : kind ≠ .keyword .AS) (form : Continuation) :
    kind.joins (head form) = false := by
  cases form with
  | isIn => exact joins_leftParen h
  | _ => exact joins_null kind

namespace LeadsTo

/-! ### Operands -/

/-- A call is completed without arguments. -/
theorem arguments (h : Inside inner inner') :
    Leads (.symbol .leftParen) next (.arguments inner) (.arguments inner') := by
  have hexprs := h.expressions (.symbol .rightParen) (by decide) nofun
  exact parenthesized ((acceptKeyword (by nofun) (by rfl)).bind fun distinct ↦
    sees_bind (fun _ _ ↦ .pure)
      (accept_bind (.pure trivial) (hexprs.bind fun _ ↦ .pure trivial) (by nofun)) (by nofun))

/-- The bracket at the end of an array. -/
theorem closedArray (items : List Expr) :
    Leads (.symbol .rightBracket) next (.closedArray items) (.closedArray items) :=
  (symbol (by decide)).bind fun _ ↦ .pure trivial

/-- An array is completed as an empty one. -/
theorem arrayLiteral (h : Inside inner inner') :
    Leads (.symbol .leftBracket) next (.arrayLiteral inner) (.arrayLiteral inner') := by
  have hexprs := h.expressions (.symbol .rightBracket) (by decide) nofun
  exact (symbol (by decide)).bind fun _ ↦
    sees_bind (fun c _ ↦ (closedArray []).continues c) (hexprs.bind closedArray) (by nofun)

/-- Parentheses are completed around `NULL`, or around a query where `SELECT` has been passed. -/
theorem parenthesizedOperand (h : Inside inner inner') :
    Leads (.symbol .leftParen) next (.parenthesizedOperand inner)
      (.parenthesizedOperand inner') := by
  have hquery : Leads (.keyword .SELECT) (.symbol .rightParen)
      (do return Expr.subquery (← inner.query)) (do return Expr.subquery (← inner'.query)) :=
    (h.query (by decide)).bind fun _ ↦ .pure trivial
  have hexpr := h.expression (.symbol .rightParen) (by decide) nofun
  exact parenthesized (seesKeyword_bind (fun c _ ↦ hquery.continues c)
    (hexpr.bind fun _ ↦ .pure trivial) (by nofun))

/-- A cast is completed as `(NULL AS INT)`. -/
theorem castCall (h : Inside inner inner') {c : Cursor} (hc : c.current.kind ≠ .keyword .AS) :
    Continues next (.castCall inner) (.castCall inner') c := by
  have hexpr := h.expression (.keyword .AS) (by decide) nofun
  exact LeadsTo.advance (parenthesized (hexpr.bind fun _ ↦ (keyword (by rfl)).bind fun _ ↦
    (dataType h (by decide)).bind fun _ ↦ .pure trivial)) (joins_leftParen hc)

/-! ### Case expressions -/

/-- What stands behind the `WHEN` of an arm. -/
def arm (inner : Nested) : Rule Branch := do
  let condition ← inner.expression
  .keyword .THEN
  let result ← inner.expression
  return { condition, result }

/-- An arm is completed by its condition and its result. -/
theorem leads_arm (h : Inside inner inner') :
    Leads (.keyword .NULL) (.keyword .END) (arm inner) (arm inner') :=
  (h.expression (.keyword .THEN) (by decide) (by nofun)).bind fun _ ↦
    (keyword (by rfl)).bind fun _ ↦
      (h.expression (.keyword .END) (by decide) (by nofun)).bind fun _ ↦ .pure trivial

/-- There is one more arm, completed behind its `WHEN`. -/
theorem branch (h : Inside inner inner') :
    LeadsTo (·.isSome) (.keyword .WHEN) (.keyword .END) (.branch inner) (.branch inner') :=
  acceptKeyword_first ((leads_arm h).map fun _ _ ↦ rfl) (fun _ ↦ .pure) rfl

/-- A case expression is completed by its `END`. -/
theorem caseEnding (h : Inside inner inner') (operand : Option Expr) (branches : List Branch) :
    Leads (.keyword .END) next (.caseEnding inner operand branches)
      (.caseEnding inner' operand branches) := by
  have hresult := h.expression (.keyword .END) (by decide) nofun
  exact (clause hresult (by nofun) (by rfl)).bind fun _ ↦ (keyword (by rfl)).bind fun _ ↦
    .pure trivial

/-- There is an arm in every completion, since a case expression without one is none. -/
theorem arms (h : Inside inner inner') (operand : Option Expr) :
    Leads (.keyword .WHEN) next (.arms inner operand) (.arms inner' operand) :=
  many_bind (moves_clause _) (moves_clause _) (stopsAt_clause _ (by decide)) (branch h)
    (fun _ ↦ .fail_bind) fun branch branches ↦ caseEnding h operand (branch :: branches)

/-- A case expression is completed with one arm: `CASE WHEN NULL THEN NULL END`. -/
theorem caseExpression (h : Inside inner inner') :
    Leads (.keyword .CASE) next (.caseExpression inner) (.caseExpression inner') := by
  have hoperand := h.expression (.keyword .WHEN) (by decide) nofun
  exact (keyword (by rfl)).bind fun _ ↦ seesKeyword_bind
    (fun c _ ↦ (arms h none).continues c)
    ((hoperand.map fun _ _ ↦ trivial).bind (arms h)) (by nofun)

/-! ### Names and openings -/

/-- A column is completed as `x` behind the point. -/
theorem qualifiedColumn (hbracket : next ≠ .symbol .leftBracket) (name : String) (span : Span) :
    Leads (.identifier "x") next (.qualifiedColumn name span) (.qualifiedColumn name span) := by
  have hpart (t : Token) : Leads (.identifier "x") next
      (do return Expr.column (some name) (← .identifier) (span.through t.span))
      (do return Expr.column (some name) (← .identifier) (span.through t.span)) :=
    (identifier hbracket).bind fun _ ↦ .pure trivial
  exact ⟨.current (hpart _).begins, fun c ↦ .current ((hpart _).continues c)⟩

/-- Behind a name, nothing has to follow. -/
theorem named (h : Inside inner inner') (hnext : next ∈ expressionEnds) {name : String}
    (span : Span) {c : Cursor} (hc : c.current.name? = some name) :
    Continues next (.named inner name span) (.named inner' name span) c := by
  have hends : ∀ next ∈ expressionEnds, next ≠ .symbol .dot ∧ next ≠ .symbol .leftBracket := by
    decide
  obtain ⟨hdot, hbracket⟩ := hends next hnext
  have hcall : Leads (.symbol .leftParen) next
      (do
        let found ← .arguments inner
        return Expr.call name found.1 found.2)
      (do
        let found ← .arguments inner'
        return Expr.call name found.1 found.2) :=
    (arguments h).bind fun _ ↦ .pure trivial
  refine LeadsTo.advance ?_ (joins_of_name? hc hbracket)
  exact sees_bind (fun c _ ↦ hcall.continues c)
    (accept_bind (accept_bind (.pure trivial) (qualifiedColumn hbracket name span) (by nofun))
      (.pure trivial) hdot)
    (ne_leftParen_of_mem hnext)

/-- An operand that starts with a name. -/
def nameFirst (inner : Nested) : Rule Expr := do
  let token ← .current
  match token.name? with
  | some name => .named inner name token.span
  | none => .fail .noViableAlternative

/-- An operand that starts with a name. -/
theorem continues_nameFirst (h : Inside inner inner') (hnext : next ∈ expressionEnds)
    (c : Cursor) : Continues next (nameFirst inner) (nameFirst inner') c := by
  refine .current ?_
  split
  · rename_i name hname
    exact named h hnext _ hname
  · exact .fail

/-- An array behind `ARRAY [`, or what starts with a name. -/
theorem arrayOrNamed (h : Inside inner inner') (hnext : next ∈ expressionEnds) (c : Cursor) :
    Continues next (.arrayOrNamed inner) (.arrayOrNamed inner') c := by
  have hmoves (c : Cursor) (hc : c.current.isSymbol .leftBracket) :
      c.position < ((Rule.arrayLiteral inner).run c).cursor.position :=
    Nat.lt_of_lt_of_le (position_lt_symbol hc (by decide)) (Rule.position_le_run_bind _ _ _)
  have harray : Continues next
      (.lookahead .ARRAY (·.isSymbol .leftBracket) (.arrayLiteral inner) (nameFirst inner))
      (.lookahead .ARRAY (·.isSymbol .leftBracket) (.arrayLiteral inner') (nameFirst inner')) c :=
    continues_lookahead rfl (arrayLiteral h).continues hmoves (continues_nameFirst h hnext c)
  exact harray

/-- **An operand whose first token has been passed**, for each kind of operand. -/
theorem opened (h : Inside inner inner') (hnext : next ∈ expressionEnds) {opening : Opening}
    {c : Cursor} (hc : Opening.ofKind? c.current.kind = some opening) :
    Continues next (.opened inner opening) (.opened inner' opening) c := by
  have hjoins : c.current.kind.joins next = false := by
    refine joins_of_mem hnext fun hkind ↦ ?_
    rw [hkind] at hc
    cases hc
  have hAs : c.current.kind ≠ .keyword .AS := by
    intro hkind
    rw [hkind] at hc
    cases hc
  have hbracket : next ≠ .symbol .leftBracket :=
    (by decide : ∀ next ∈ expressionEnds, next ≠ .symbol .leftBracket) next hnext
  cases opening with
  | literal value => exact LeadsTo.advance (.pure trivial) hjoins
  | placeholder =>
    exact .advance (.placeholders fun _ ↦ .pure trivial) (.placeholders .pure) hjoins
  | positional number => exact LeadsTo.advance (.pure trivial) hjoins
  | named =>
    exact LeadsTo.advance ((identifier hbracket).bind fun _ ↦ .pure trivial)
      (joins_identifier _)
  | wildcard => exact LeadsTo.advance (.pure trivial) hjoins
  | parenthesized => exact (parenthesizedOperand h).continues c
  | array => exact (arrayLiteral h).continues c
  | cast => exact castCall h hAs
  | case => exact (caseExpression h).continues c
  | «exists» =>
    exact LeadsTo.advance ((parenthesized (h.query (by decide))).bind fun _ ↦ .pure trivial)
      (joins_leftParen hAs)

/-- An operand, of which at least one token has been passed. -/
theorem operand (h : Inside inner inner') (hnext : next ∈ expressionEnds) (c : Cursor) :
    Continues next (.operand inner) (.operand inner') c := by
  refine .current ?_
  split
  · rename_i opening hopening
    exact opened h hnext hopening
  · exact arrayOrNamed h hnext c

/-! ### What goes on behind an operand -/

/-- A subscript is completed as `NULL]`, a cast as `INT`. -/
theorem subscriptOrCast (h : Inside inner inner') (hnext : next ∈ expressionEnds) (operand : Expr)
    (c : Cursor) :
    Continues next (.subscriptOrCast inner operand) (.subscriptOrCast inner' operand) c := by
  have hindex := h.expression (.symbol .rightBracket) (by decide) nofun
  have hsubscript : Leads (.keyword .NULL) next (.subscripted inner operand)
      (.subscripted inner' operand) :=
    hindex.bind fun _ ↦ (symbol (by decide)).bind fun _ ↦ .pure trivial
  have hcast : Continues next (.castTo inner operand) (.castTo inner' operand) c :=
    LeadsTo.advance ((dataType h hnext).bind fun _ ↦ .pure trivial) (joins_int _)
  exact continues_accept hsubscript hcast

/-- The list behind `IN` is completed as `(NULL)`. -/
theorem inList (h : Inside inner inner') :
    Leads (.symbol .leftParen) next (.inList inner) (.inList inner') := by
  have hquery : Leads (.keyword .SELECT) (.symbol .rightParen)
      (do return [Expr.subquery (← inner.query)]) (do return [Expr.subquery (← inner'.query)]) :=
    (h.query (by decide)).bind fun _ ↦ .pure trivial
  exact parenthesized (seesKeyword_bind (fun c _ ↦ hquery.continues c)
    (h.expressions (.symbol .rightParen) (by decide) nofun) (by nofun))

/-- Each form is completed by the operands or words that it still asks for. -/
theorem continuation (h : Inside inner inner') (hnext : next ∈ expressionEnds) (operand : Expr)
    (negated : Bool) {form : Continuation}
    (hand : next = .keyword .AND → 3 ≤ form.precedence.right) :
    Leads (head form) next (.continuation inner operand negated form)
      (.continuation inner' operand negated form) := by
  have hbetween : 3 ≤ Precedence.comparison.right := by decide
  cases form with
  | isNull =>
    exact (acceptKeyword (by nofun) (by rfl)).bind fun _ ↦
      (keyword (joins_of_mem hnext (by nofun))).bind fun _ ↦ .pure trivial
  | isIn => exact (inList h).bind fun _ ↦ .pure trivial
  | between =>
    exact (h.expressionFrom (by decide) fun _ ↦ hbetween).bind fun _ ↦
      (keyword (joins_null _)).bind fun _ ↦
        (h.expressionFrom hnext fun _ ↦ hbetween).bind fun _ ↦ .pure trivial
  | binary op => exact (h.expressionFrom hnext hand).bind fun _ ↦ .pure trivial

/-- Whether a `NOT` at the cursor belongs to a predicate. -/
def negates (c : Cursor) : Bool :=
  c.current.isKeyword .NOT && (Continuation.ofKind? c.following.kind).any (·.isNegatable)

/-- Behind a `NOT`, what is apart from it cannot be negated by it. -/
theorem negates_of_apart {c : Cursor} (h : c.current.kind.joins c.following.kind = false) :
    negates c = false := by
  rw [negates, Bool.and_eq_false_imp]
  intro hnot
  rw [show c.current.kind = .keyword .NOT from beq_iff_eq.1 hnot] at h
  generalize c.following.kind = kind at h
  cases kind with
  | keyword keyword => cases keyword <;> first | rfl | cases h
  | symbol symbol => cases symbol <;> rfl
  | _ => rfl

/-- A `NOT` that negates stands in front of a continuation. -/
theorem exists_of_negates {c : Cursor} (h : negates c) :
    c.current.kind = .keyword .NOT ∧ ∃ form, Continuation.ofKind? c.following.kind = some form := by
  obtain ⟨hnot, hform⟩ := (Bool.and_eq_true _ _).mp h
  refine ⟨beq_iff_eq.1 hnot, ?_⟩
  cases hfollowing : Continuation.ofKind? c.following.kind with
  | none =>
    rw [hfollowing] at hform
    cases hform
  | some form => exact ⟨form, rfl⟩

/-- A step without a subscript, a cast and a negation, by the continuation of its token. -/
theorem run_extension_onward (inner : Nested) (power : Nat) (operand : Expr) {d : Cursor}
    (hd : ¬ (d.current.isSymbol .leftBracket || d.current.isSymbol .doubleColon))
    (hnegates : negates d = false) :
    (Rule.extension inner power operand).run d =
      (Rule.onward inner power operand false (Continuation.ofKind? d.current.kind)).run d := by
  have hcontinuation : d.continuation? =
      (Continuation.ofKind? d.current.kind).map (false, ·) := by
    rw [negates] at hnegates
    rw [Cursor.continuation?, hnegates]
    rfl
  rw [Rule.run_extension, if_neg hd, hcontinuation]
  cases Continuation.ofKind? d.current.kind with
  | none => rfl
  | some form =>
    show (if form.precedence.left < power then _ else _) = Rule.run (if _ then _ else _) d
    split <;> rfl

/-- A step with a negation, by the continuation behind the `NOT`. -/
theorem run_extension_negated (inner : Nested) (power : Nat) (operand : Expr) {d : Cursor}
    {form : Continuation} (hnegates : negates d)
    (hform : Continuation.ofKind? d.following.kind = some form) :
    (Rule.extension inner power operand).run d =
      if form.precedence.left < power then .done none d
      else
        (do .advance; some <$> .continuation inner operand true form : Rule _).run d.advance := by
  have hd : ¬ (d.current.isSymbol .leftBracket || d.current.isSymbol .doubleColon) := by
    rw [Token.isSymbol, Token.isSymbol, (exists_of_negates hnegates).1]
    decide
  have hcontinuation : d.continuation? = some (true, form) := by
    rw [negates] at hnegates
    rw [Cursor.continuation?, hnegates, if_pos rfl, hform]
    rfl
  rw [Rule.run_extension, if_neg hd, hcontinuation]
  rfl

/-- A `NOT` in front of anything else than a predicate is not read as part of the expression. -/
theorem run_extension_apart (inner : Nested) (power : Nat) (operand : Expr) {d : Cursor}
    (hnot : d.current.kind = .keyword .NOT)
    (hapart : d.current.kind.joins d.following.kind = false) :
    (Rule.extension inner power operand).run d = .done none d := by
  have hd : ¬ (d.current.isSymbol .leftBracket || d.current.isSymbol .doubleColon) := by
    rw [Token.isSymbol, Token.isSymbol, hnot]
    decide
  rw [run_extension_onward inner power operand hd (negates_of_apart hapart), hnot]
  rfl

/-- A form of enough power leads to what comes behind it. -/
theorem continued (h : Inside inner inner') (hnext : next ∈ expressionEnds) {power : Nat}
    (hand : next = .keyword .AND → 3 ≤ power) (operand : Expr) (negated : Bool)
    {form : Continuation} (hform : ¬ form.precedence.left < power) :
    Leads (head form) next (some <$> .continuation inner operand negated form)
      (some <$> .continuation inner' operand negated form) := by
  have hle : power ≤ form.precedence.right :=
    Nat.le_trans (Nat.le_of_not_lt hform) (Nat.le_succ _)
  exact (continuation h hnext operand negated fun heq ↦ Nat.le_trans (hand heq) hle).map
    fun _ _ ↦ trivial

/-- A step into a continuation whose first token has been passed. -/
theorem extension_onward (h : Inside inner inner') (hnext : next ∈ expressionEnds) {power : Nat}
    (hand : next = .keyword .AND → 3 ≤ power) (operand : Expr) {c : Cursor}
    (htrailing : ¬ (c.current.isSymbol .leftBracket || c.current.isSymbol .doubleColon))
    (hnegates : negates c = false) :
    Continues next (.extension inner power operand) (.extension inner' power operand) c := by
  have honward : Continues next
      (.onward inner power operand false (Continuation.ofKind? c.current.kind))
      (.onward inner' power operand false (Continuation.ofKind? c.current.kind)) c := by
    cases hform : Continuation.ofKind? c.current.kind with
    | none => exact .pure
    | some form =>
      refine .ite (fun _ ↦ .pure) fun hle ↦ LeadsTo.advance
        (continued h hnext hand operand false hle) (joins_head (fun hkind ↦ ?_) form)
      rw [hkind] at hform
      cases hform
  refine honward.congr_following (run_extension_onward inner power operand htrailing hnegates)
    fun d hd hd' ↦ ?_
  rw [← hd]
  refine run_extension_onward inner' power operand (hd ▸ htrailing) ?_
  -- A predicate that is negated is seen by its first two tokens, so none comes to be there.
  rcases hd' with hd' | hd'
  · rw [negates, hd, hd']
    exact hnegates
  · exact negates_of_apart (by rw [hd]; exact hd')

/-- A step into a continuation behind a `NOT`. -/
theorem extension_negated (h : Inside inner inner') (hnext : next ∈ expressionEnds) {power : Nat}
    (hand : next = .keyword .AND → 3 ≤ power) (operand : Expr) {c : Cursor}
    (hnegates : negates c) :
    Continues next (.extension inner power operand) (.extension inner' power operand) c := by
  obtain ⟨hnot, form, hform⟩ := exists_of_negates hnegates
  have hrun {d : Cursor} (hd : d.current = c.current) (hd' : d.following = c.following) :
      (Rule.extension inner' power operand).run d =
        if form.precedence.left < power then .done none d
        else (do .advance; some <$> .continuation inner' operand true form : Rule _).run
          d.advance :=
    run_extension_negated inner' power operand (by rw [negates, hd, hd']; exact hnegates)
      (hd' ▸ hform)
  by_cases hlt : form.precedence.left < power
  · have hstop : Continues next (pure (none : Option Expr)) (pure none) c := .pure
    refine hstop.congr_following ?_ fun d hd hd' ↦ ?_
    · rw [run_extension_negated inner power operand hnegates hform, if_pos hlt]
      rfl
    · rcases hd' with hd' | hd'
      · rw [hrun hd hd', if_pos hlt]
        rfl
      · exact run_extension_apart inner' power operand (hd ▸ hnot) (by rw [hd]; exact hd')
  · -- The second word is passed with the first one, so the pair is there in a completion as well.
    have hkind : c.advance.current = c.following :=
      Cursor.current_advance (Token.isOpen_of_isKeyword (beq_iff_eq.2 hnot))
    have hopen : c.advance.current.isOpen := hkind ▸ Token.isOpen_of_continuation hform
    have hpassed : Continues next
        (do .advance; some <$> .continuation inner operand true form)
        (do .advance; some <$> .continuation inner' operand true form) c.advance := by
      refine LeadsTo.advance (continued h hnext hand operand true hlt)
        (joins_head (fun hAs ↦ ?_) form)
      rw [← hkind, hAs] at hform
      cases hform
    refine hpassed.congr_advance ?_ ?_ fun d hd hd' ↦ ?_
    · rw [run_extension_negated inner power operand hnegates hform, if_neg hlt]
    · refine Nat.lt_of_lt_of_le ?_ (Rule.position_le_run_bind _ _ _)
      show _ < c.advance.advance.position
      rw [Cursor.position_advance_of_isOpen hopen]
      exact Nat.lt_succ_self _
    · rw [hrun hd hd', if_neg hlt]

/-- **One step** behind an operand. -/
theorem extension (h : Inside inner inner') (hnext : next ∈ expressionEnds) {power : Nat}
    (hand : next = .keyword .AND → 3 ≤ power) (operand : Expr) (c : Cursor) :
    Continues next (.extension inner power operand) (.extension inner' power operand) c := by
  by_cases htrailing : c.current.isSymbol .leftBracket || c.current.isSymbol .doubleColon
  · have hplain : Continues next
        (if Precedence.trailing.left < power then return none
          else some <$> .subscriptOrCast inner operand)
        (if Precedence.trailing.left < power then return none
          else some <$> .subscriptOrCast inner' operand) c :=
      .ite (fun _ ↦ .pure) fun _ ↦ (subscriptOrCast h hnext operand c).map fun _ _ ↦ trivial
    refine hplain.congr ?_ fun d hd _ ↦ ?_
    · rw [Rule.run_extension, if_pos htrailing]
    · rw [Rule.run_extension, if_pos (hd ▸ htrailing)]
  · cases hnegates : negates c with
    | false => exact extension_onward h hnext hand operand htrailing hnegates
    | true => exact extension_negated h hnext hand operand hnegates

/-- A step that is taken moves forward. -/
theorem moves_extension (inner : Nested) (power : Nat) (operand : Expr) :
    Moves (Rule.extension inner power operand) := by
  intro c e after hrun
  obtain ⟨hnone, -⟩ | ⟨_, _, -, -, -, hlt, -⟩ := Rule.extension_cases hrun
  · cases hnone
  · exact hlt

/-- Nothing goes on in front of an end of the expression. Inside `BETWEEN`, this holds for `AND` as
well, which is too weak there. -/
theorem stopsAt_extension (inner : Nested) (hnext : next ∈ expressionEnds) {power : Nat}
    (hand : next = .keyword .AND → 3 ≤ power) (operand : Expr) :
    StopsAt next (Rule.extension inner power operand) := by
  intro d hd
  have hends : ∀ next ∈ expressionEnds, next ≠ .symbol .leftBracket ∧
      next ≠ .symbol .doubleColon ∧ next ≠ .keyword .NOT := by decide
  obtain ⟨hbracket, hcolon, hnot⟩ := hends next hnext
  have htrailing : ¬ (d.current.isSymbol .leftBracket || d.current.isSymbol .doubleColon) := by
    rw [hd, isSymbol_ofKind hbracket, isSymbol_ofKind hcolon]
    nofun
  have hnegates : negates d = false := by rw [negates, hd, isKeyword_ofKind hnot, Bool.false_and]
  rw [run_extension_onward inner power operand htrailing hnegates, hd, Token.kind_ofKind]
  by_cases hnextAnd : next = .keyword .AND
  · have hpower : Precedence.and.left < power := hand hnextAnd
    rw [hnextAnd]
    exact congrArg (Rule.run · d) (if_pos hpower)
  · have hforms : ∀ next ∈ expressionEnds, next ≠ .keyword .AND →
        Continuation.ofKind? next = none := by decide
    rw [hforms next hnext hnextAnd]
    rfl

/-! ### Expressions -/

/-- A first operand from scratch is `NULL`. -/
theorem begins_firstOperand (inner : Nested) (hnext : next ∈ expressionEnds) :
    Begins (.keyword .NULL) next (Rule.firstOperand inner) := by
  have hnull : Begins (.keyword .NULL) next
      (Rule.advance >>= fun _ ↦ return Expr.literal .null) :=
    .advance (.pure trivial) rfl (joins_of_mem hnext (by nofun))
  refine hnull.congr fun d hd ↦ ?_
  rw [Rule.firstOperand, Rule.run_bind, Rule.run_current, hd]
  show (Rule.operand inner).run d = _
  rw [Rule.operand, Rule.run_bind, Rule.run_current, hd]
  rfl

/-- Behind a prefix operator, the operand is completed. -/
theorem firstOperand (h : Inside inner inner') (hnext : next ∈ expressionEnds) (c : Cursor) :
    Continues next (.firstOperand inner) (.firstOperand inner') c := by
  refine .current ?_
  split
  · rename_i op hop
    have hpower : 3 ≤ op.precedence.right := by cases op <;> decide
    exact LeadsTo.advance ((h.expressionFrom hnext fun _ ↦ hpower).bind fun _ ↦ .pure trivial)
      (joins_null _)
  · exact operand h hnext c

/-- An expression begins with `NULL`, whatever may be nested in it. -/
theorem begins_expressionFrom (inner : Nested) (hnext : next ∈ expressionEnds) {power : Nat}
    (hand : next = .keyword .AND → 3 ≤ power) :
    Begins (.keyword .NULL) next (Rule.expressionFrom inner power) :=
  (begins_firstOperand inner hnext).bind fun _ _ ↦
    .iterate (moves_extension inner power)
      (fun operand _ ↦ stopsAt_extension inner hnext hand operand) trivial

/-- **An expression completes**: its operands and what goes on behind them complete, and a
completion of what comes behind starts with a token that goes on with no expression. -/
theorem expressionFrom (h : Inside inner inner') (hnext : next ∈ expressionEnds) {power : Nat}
    (hand : next = .keyword .AND → 3 ≤ power) :
    Leads (.keyword .NULL) next (.expressionFrom inner power) (.expressionFrom inner' power) := by
  have hextensions (operand : Expr) : Leads next next
      (.iterate (Rule.extension inner power) operand)
      (.iterate (Rule.extension inner' power) operand) :=
    .iterate (moves_extension inner power) (moves_extension inner' power)
      (stopsAt_extension inner' hnext hand) (extension h hnext hand) operand
  refine ⟨begins_expressionFrom inner' hnext hand, fun c ↦ ?_⟩
  exact (firstOperand h hnext c).bind (fun operand _ ↦ (hextensions operand).begins)
    fun operand c' _ ↦ (hextensions operand).continues c'

end LeadsTo
end SqlBatch.Completion
