import SqlBatch.Proofs.Levels
import SqlBatch.Proofs.RoundTrip.Operand

/-!
# Reading what is written

An expression is read back from its tokens as it was written, with the parentheses that guard its
operands.

## The induction

Operators, predicates and subscripts are whole expressions if what they are made of are operands; so
with the parentheses around those that are operands of another one, every expression is a whole one
(`Expr.IsWritten.isGuarded`). The induction is on the expression. What carries it is that an
expression with its parentheses can stand in either way: as a whole, and, with parentheses around it
if it needs them, as an operand (`Expr.IsGuarded`).

## Levels

Writing puts parentheses around operands, and each pair of them opens a level. The theorem is for
expressions that stay within the levels that there are (`staysWithin`), and says nothing of others
(`written_is_read`).
-/

namespace SqlBatch

namespace Expr

variable {style : Style} {t : Expr} {n : Nat} {c d : Cursor}

/-! ### Operators, predicates and subscripts -/

/-- A prefix operator in front of an operand. -/
theorem IsTerm.unary (op : UnaryOp) (h : t.IsTerm style) (hlike : op.isNotLike t = false) :
    (t.unary op).IsWhole style where
  leads := ⟨op.kind, rfl, by cases op <;> rfl⟩
  run := by
    rintro n c d hle ⟨hkind, -, hpasses⟩ hcloses
    have hlevels : t.extent .nesting ≤ n := by
      rw [extent, hlike] at hle
      have hle : 1 + t.extent .nesting ≤ n + 1 := hle
      omega
    obtain ⟨e, hrun, hagrees⟩ := h.run_from hlevels hpasses hcloses.endsName
      (hcloses.stops op.precedence.right)
    refine ⟨.unary op e, ?_, congrArg (Expr.unary op) hagrees⟩
    have hoperand := Rule.run_firstOperand_unary (by rw [hkind, UnaryOp.ofKind?_kind]) hrun
    exact Rule.run_expressionFrom_of_stops hoperand (hcloses.stops 0)

/-- An operator between two operands. -/
theorem IsTerm.binary {left right : Expr} (op : BinaryOp) (hleft : left.IsTerm style)
    (hright : right.IsTerm style) : (Expr.binary op left right).IsWhole style where
  leads := hleft.leads_append _
  run := by
    rintro n c d hle hpasses hcloses
    have hle : max (0 + left.extent .nesting) (1 + right.extent .nesting) ≤ n + 1 := hle
    obtain ⟨mid, hfirst, hkind, -, hsecond⟩ := Cursor.passes_append.1 hpasses
    have hname : mid.EndsName := .of_kind hkind (by cases op <;> rfl)
    obtain ⟨a, hrun, hagrees⟩ := hleft.run (n := n) (by omega) hfirst hname
    obtain ⟨b, hrun', hagrees'⟩ := hright.run_from (n := n) (by omega) hsecond hcloses.endsName
      (hcloses.stops op.precedence.right)
    refine ⟨.binary op a b, ?_, congrArg₂ (Expr.binary op) hagrees hagrees'⟩
    have hform : Continuation.ofKind? mid.current.kind = some (.binary op) := by
      rw [hkind, Continuation.ofKind?_kind]
    exact Rule.run_expressionFrom_of_extension hrun
      (Rule.run_extension_binary hform (Nat.zero_le _) hrun') (hcloses.stops 0)

/-- `IS NULL` behind an operand. -/
theorem IsTerm.isNull (negated : Bool) (h : t.IsTerm style) :
    (t.isNull negated).IsWhole style where
  leads := h.leads_append _
  run := by
    rintro n c d hle hpasses hcloses
    have hle : 0 + t.extent .nesting ≤ n + 1 := hle
    obtain ⟨mid, hfirst, hkind, -, hpasses⟩ := Cursor.passes_append.1 hpasses
    obtain ⟨last, hword, hnull, -, rfl⟩ := Cursor.passes_append.1 hpasses
    obtain ⟨e, hrun, hagrees⟩ := h.run (n := n) (by omega) hfirst (.of_kind hkind rfl)
    refine ⟨.isNull e negated, ?_, congrArg (Expr.isNull · negated) hagrees⟩
    have hnot : last.current.isKeyword .NOT = false := by
      rw [Token.isKeyword, hnull]
      rfl
    refine Rule.run_expressionFrom_of_extension hrun
      (Rule.run_extension_of_ofKind? (by rw [hkind]; rfl) (Nat.zero_le _) ?_) (hcloses.stops 0)
    rw [Rule.continuation, Rule.run_bind_of_done (run_acceptKeyword_wordIf hword hnot),
      Rule.run_bind_of_done (Rule.run_keyword (beq_iff_eq.2 hnull))]
    rfl

/-- A predicate that may be negated goes on behind its operand. -/
theorem run_extension_of_wordIf {inner : Nested} {operand e : Expr} {negated : Bool}
    {form : Continuation} {mid after : Cursor} (hword : c.Passes (wordIf negated .NOT) mid)
    (hform : Continuation.ofKind? mid.current.kind = some form) (hnegatable : form.isNegatable)
    (hrun : (Rule.continuation inner operand negated form).run mid.advance = .done e after) :
    (Rule.extension inner 0 operand).run c = .done (some e) after := by
  cases negated with
  | false =>
    obtain rfl : c = mid := hword
    exact Rule.run_extension_of_ofKind? hform (Nat.zero_le _) hrun
  | true =>
    obtain ⟨hkind, hopen, rfl⟩ := hword
    rw [Cursor.current_advance hopen] at hform
    exact Rule.run_extension_of_not (beq_iff_eq.2 hkind) hform hnegatable (Nat.zero_le _) hrun

theorem endsName_of_wordIf {negated : Bool} {mid : Cursor}
    (hword : c.Passes (wordIf negated .NOT) mid) (hmid : mid.EndsName) : c.EndsName := by
  cases negated with
  | false =>
    obtain rfl : c = mid := hword
    exact hmid
  | true => exact .of_kind hword.1 rfl

/-- `IN` behind an operand, with a list of whole expressions. -/
theorem IsTerm.isIn {list : List Expr} (negated : Bool) (h : t.IsTerm style)
    (hnil : list ≠ []) (hlist : ∀ item ∈ list, item.IsWhole style) :
    (t.isIn list negated).IsWhole style where
  leads := h.leads_append _
  run := by
    rintro n c d hle hpasses hcloses
    have hle : max (0 + t.extent .nesting) (1 + extentOfExprs .nesting list) ≤ n + 1 := hle
    obtain ⟨mid, hfirst, hpasses⟩ := Cursor.passes_append.1 hpasses
    obtain ⟨word, hword, hkind, -, hparen, -, hpasses⟩ := Cursor.passes_append.1 hpasses
    obtain ⟨last, hitems, hclose, -, rfl⟩ := Cursor.passes_append.1 hpasses
    have hcomma : last.current.isSymbol .comma = false := by
      rw [Token.isSymbol, hclose]
      rfl
    obtain ⟨e, hrun, hagrees⟩ := h.run (n := n) (by omega) hfirst
      (endsName_of_wordIf hword (.of_kind hkind rfl))
    obtain ⟨es, hrun', hagree, hleads⟩ := exists_run_expressions (n := n) hnil hlist (by omega)
      hitems (.of_kind hclose rfl) hcomma
    have hinList : (Rule.inList (.ofAllowance n)).run word.advance = .done es last.advance := by
      refine Rule.run_parenthesized (beq_iff_eq.2 hparen) ?_ (beq_iff_eq.2 hclose)
      rw [Rule.run_bind_of_done (Rule.run_seesKeyword _ _), hleads.isKeyword_eq_false rfl]
      exact hrun'
    refine ⟨.isIn e es negated, ?_, ?_⟩
    · refine Rule.run_expressionFrom_of_extension hrun
        (run_extension_of_wordIf hword (by rw [hkind]; rfl) rfl ?_) (hcloses.stops 0)
      rw [Rule.continuation, Rule.run_bind_of_done hinList]
      rfl
    · rw [AgreesWith, relabel, relabel, relabelExprs_eq_map, relabelExprs_eq_map, hagrees, hagree]

/-- `BETWEEN` with three operands; its `AND` is none of theirs. -/
theorem IsTerm.between {low high : Expr} (negated : Bool) (h : t.IsTerm style)
    (hlow : low.IsTerm style) (hhigh : high.IsTerm style) :
    (t.between low high negated).IsWhole style where
  leads := h.leads_append _
  run := by
    rintro n c d hle hpasses hcloses
    have hle : max (0 + t.extent .nesting)
      (1 + max (low.extent .nesting) (high.extent .nesting)) ≤ n + 1 := hle
    obtain ⟨mid, hfirst, hpasses⟩ := Cursor.passes_append.1 hpasses
    obtain ⟨word, hword, hkind, -, hpasses⟩ := Cursor.passes_append.1 hpasses
    obtain ⟨last, hsecond, hand, -, hthird⟩ := Cursor.passes_append.1 hpasses
    obtain ⟨e, hrun, hagrees⟩ := h.run (n := n) (by omega) hfirst
      (endsName_of_wordIf hword (.of_kind hkind rfl))
    -- `AND` is too loose to go on behind the lower bound.
    have hstops : last.Stops Precedence.comparison.right :=
      @Cursor.stops_of_ofKind? last _ (.binary .and) (by rw [hand]; rfl) (by decide)
    obtain ⟨a, hrun', hagrees'⟩ := hlow.run_from (n := n) (by omega) hsecond
      (.of_kind hand rfl) hstops
    obtain ⟨b, hrun'', hagrees''⟩ := hhigh.run_from (n := n) (by omega) hthird hcloses.endsName
      (hcloses.stops Precedence.comparison.right)
    refine ⟨.between e a b negated, ?_, ?_⟩
    · refine Rule.run_expressionFrom_of_extension hrun
        (run_extension_of_wordIf hword (by rw [hkind]; rfl) rfl ?_) (hcloses.stops 0)
      rw [Rule.continuation, Rule.run_bind_of_done hrun',
        Rule.run_bind_of_done (Rule.run_keyword (beq_iff_eq.2 hand)),
        Rule.run_bind_of_done hrun'']
      rfl
    · rw [AgreesWith, relabel, relabel, hagrees, hagrees', hagrees'']

/-- An index behind an operand. -/
theorem IsTerm.subscript {index : Expr} (h : t.IsTerm style) (hindex : index.IsWhole style) :
    (t.subscript index).IsWhole style where
  leads := h.leads_append _
  run := by
    rintro n c d hle hpasses hcloses
    have hle : max (0 + t.extent .nesting) (1 + index.extent .nesting) ≤ n + 1 := hle
    obtain ⟨mid, hfirst, hbracket, -, hpasses⟩ := Cursor.passes_append.1 hpasses
    obtain ⟨last, hsecond, hclose, -, rfl⟩ := Cursor.passes_append.1 hpasses
    obtain ⟨e, hrun, hagrees⟩ := h.run (n := n) (by omega) hfirst (.of_kind hbracket rfl)
    obtain ⟨a, hrun', hagrees'⟩ := hindex.run_inside (n := n) (by omega) hsecond
      (.of_kind hclose rfl)
    refine ⟨.subscript e a, ?_, congrArg₂ Expr.subscript hagrees hagrees'⟩
    exact Rule.run_expressionFrom_of_extension hrun
      (Rule.run_extension_subscript (beq_iff_eq.2 hbracket) (Nat.zero_le _) hrun'
        (beq_iff_eq.2 hclose)) (hcloses.stops 0)

/-! ### Expressions with their parentheses -/

/-- The expression is read as a whole, and as an operand with the parentheses it has there. -/
structure IsGuarded (style : Style) (t : Expr) : Prop where
  whole : t.IsWhole style
  term : t.enclosed.IsTerm style

/-- An operand needs no parentheses around itself. -/
theorem IsTerm.isGuarded (h : t.IsTerm style) (hcompound : t.isCompound = false) :
    t.IsGuarded style where
  whole := h.isWhole
  term := by
    rw [enclosed, hcompound]
    exact h

/-- Operators, predicates and subscripts are operands once they are in parentheses. -/
theorem IsWhole.isGuarded (h : t.IsWhole style) (hcompound : t.isCompound) :
    t.IsGuarded style where
  whole := h
  term := by
    rw [enclosed, hcompound]
    exact h.paren

/-- With parentheses or without, a guarded expression is a whole one. -/
theorem IsGuarded.enclosedIf {counts : Bool} (h : t.IsGuarded style) :
    (t.enclosedIf counts).IsWhole style := by
  cases counts with
  | false => exact h.whole
  | true => exact h.term.isWhole

theorem isGuarded_of_mem {es : List Expr} (h : ∀ e ∈ es, (e.guarded style).IsGuarded style) :
    ∀ t ∈ guardedExprs style es, t.IsGuarded style := by
  rw [guardedExprs_eq_map]
  exact List.forall_mem_map.2 h

theorem isGuarded_of_mem_option {e? : Option Expr}
    (h : ∀ e ∈ e?, (e.guarded style).IsGuarded style) :
    ∀ t ∈ guardedExpr? style e?, t.IsGuarded style := by
  rw [guardedExpr?_eq_map]
  rintro _ ht
  obtain ⟨e, he, rfl⟩ := Option.map_eq_some_iff.1 ht
  exact h e he

/-- **Every expression is read as a whole with the parentheses that guard its operands**, and as an
operand with those around itself. -/
theorem IsWritten.isGuarded {e : Expr} (h : e.IsWritten) (style : Style) :
    (e.guarded style).IsGuarded style := by
  induction h with
  | literal value => exact (isTerm_literal value).isGuarded rfl
  | column table name span => exact (isTerm_column table name span).isGuarded rfl
  | positional number => exact (isTerm_positional number).isGuarded rfl
  | named name => exact (isTerm_named name).isGuarded rfl
  | unary op _ ih => exact (ih.term.unary op (op.isNotLike_enclosed _)).isGuarded rfl
  | binary op _ _ ihleft ihright => exact (ihleft.term.binary op ihright.term).isGuarded rfl
  | isNull negated _ ih => exact (ih.term.isNull negated).isGuarded rfl
  | isIn negated _ hnil _ ih ihlist =>
    -- What `IN` compares with is whole, with parentheses around it or without.
    refine (ih.term.isIn negated ?_ ?_).isGuarded rfl
    · rw [guardedExprs_eq_map, List.map_map]
      exact fun h ↦ hnil (List.map_eq_nil_iff.1 h)
    · exact List.forall_mem_map.2 fun t ht ↦ (isGuarded_of_mem ihlist t ht).enclosedIf
  | between negated _ _ _ ih ihlow ihhigh =>
    exact (ih.term.between negated ihlow.term ihhigh.term).isGuarded rfl
  | case _ hnil _ _ _ ih ihconditions ihresults ihotherwise =>
    refine (isTerm_case (fun t ht ↦ (isGuarded_of_mem_option ih t ht).whole) ?_ ?_ ?_
      fun t ht ↦ (isGuarded_of_mem_option ihotherwise t ht).whole).isGuarded rfl
    · rw [guardedBranches_eq_map]
      exact fun h ↦ hnil (List.map_eq_nil_iff.1 h)
    · rw [guardedBranches_eq_map]
      exact List.forall_mem_map.2 fun branch hbranch ↦ (ihconditions branch hbranch).whole
    · rw [guardedBranches_eq_map]
      exact List.forall_mem_map.2 fun branch hbranch ↦ (ihresults branch hbranch).whole
  | array _ ih =>
    exact (isTerm_array fun t ht ↦ (isGuarded_of_mem ih t ht).whole).isGuarded rfl
  | subscript _ _ ih ihindex => exact (ih.term.subscript ihindex.enclosedIf).isGuarded rfl
  | call name distinct _ ih =>
    exact (isTerm_call name distinct fun t ht ↦ (isGuarded_of_mem ih t ht).whole).isGuarded rfl

end Expr

/-! ### Statements and batches -/

/-- A query of an expression is a statement, where the levels of the expression may be opened. -/
theorem exists_run_written {e : Expr} (h : e.IsWritten) (style : Style) {n : Nat} {c d : Cursor}
    (hle : (e.guarded style).extent .nesting ≤ n + 1) (hselect : c.current.isKeyword .SELECT)
    (hpasses : c.advance.Passes ((e.guarded style).kinds style) d)
    (hends : d.current.endsStatement) :
    ∃ e', (Rule.terminated (.statementWithin (n + 2))).run c = .done (.select (.ofExpr e')) d ∧
      e'.AgreesWith (e.guarded style) := by
  have hwhole := (h.isGuarded style).whole
  have hleads := hwhole.cursor_leads hpasses
  obtain ⟨e', hrun, hagrees⟩ := hwhole.run hle hpasses (.of_endsStatement hends)
  exact ⟨e', Rule.run_terminated_ofExpr hselect (hleads.isKeyword_eq_false rfl)
    (hleads.isKeyword_eq_false rfl) hrun hends, hagrees⟩

/-- A statement that is read where more levels may be opened is read with those allowed, if it stays
within them. -/
theorem parseFrom_of_staysWithin {batch : List Token} {start more : Nat} {tree : Command}
    {after : Cursor} (hle : Nested.maxDepth ≤ more)
    (hrun : (Rule.terminated (.statementWithin more)).run (.ofTokens batch start) =
      .done tree after)
    (hstays : staysWithin Nested.maxDepth batch start) :
    parseFrom batch start = ⟨some tree, [], after.position⟩ := by
  rcases Request.terminated.run_of_le hle (.ofTokens batch start) with
    hsame | ⟨stopped, hfailed, -⟩
  · exact parseFrom_of_run (hsame.symm.trans hrun)
  · change (Rule.terminated (.statementWithin Nested.maxDepth)).run _ = _ at hfailed
    rw [staysWithin, hfailed] at hstays
    cases hstays

/-- What an attempt makes of a query of an expression. -/
theorem exists_parseFrom_written {e : Expr} (h : e.IsWritten) (style : Style)
    {batch tokens behind : List Token} {start : Nat} {select closing : Token}
    (hselect : select.isKeyword .SELECT)
    (hkinds : tokens.map (·.kind) = (e.guarded style).kinds style)
    (hdrop : batch.drop start = select :: (tokens ++ closing :: behind))
    (hclosing : closing.endsStatement) :
    (1 + (e.guarded style).extent .nesting ≤ Nested.maxDepth →
      staysWithin Nested.maxDepth batch start) ∧
    (staysWithin Nested.maxDepth batch start → ∃ e', e'.AgreesWith (e.guarded style) ∧
      parseFrom batch start =
        ⟨some (.select (.ofExpr e')), [], start + (tokens.length + 1)⟩) := by
  let c : Cursor := .ofTokens batch start
  have hcurrent : c.current = select := Completion.current_eq_of_ahead (d := c) hdrop
  have hopen : select.isOpen := Token.isOpen_of_isKeyword hselect
  have hopens : ∀ kind ∈ tokens.map (·.kind), kind.isOpen := by
    rw [hkinds]
    exact List.all_eq_true.1 ((e.guarded style).all_isOpen_kinds style)
  obtain ⟨d, hpasses, hbehind⟩ :=
    Cursor.exists_passes (Completion.ahead_advance (d := c) hdrop hopen) hopens
  have hends : d.current.endsStatement := by
    rw [Completion.current_eq_of_ahead hbehind, hclosing]
  have hposition : d.position = start + (tokens.length + 1) := by
    rw [hpasses.position_eq, Cursor.position_advance_of_isOpen (hcurrent ▸ hopen), List.length_map]
    show start + 1 + tokens.length = _
    omega
  rw [hkinds] at hpasses
  -- With levels enough the expression is read, whichever number of them it is.
  have hread {n : Nat} (hle : (e.guarded style).extent .nesting ≤ n + 1) :=
    exists_run_written h style hle (hcurrent ▸ hselect) hpasses hends
  refine ⟨fun hle ↦ ?_, fun hstays ↦ ?_⟩
  · have hlevels : (e.guarded style).extent .nesting ≤ Nested.maxDepth - 2 + 1 := by
      rw [Nested.maxDepth] at hle ⊢
      omega
    obtain ⟨e', hrun, -⟩ := hread hlevels
    rw [staysWithin]
    rw [show Nested.maxDepth = Nested.maxDepth - 2 + 2 from rfl, hrun]
  · -- Read with as many levels as it needs, and then with those there are.
    obtain ⟨e', hrun, hagrees⟩ := @hread (Nested.maxDepth + (e.guarded style).extent .nesting)
      (by omega)
    refine ⟨e', hagrees, ?_⟩
    rw [parseFrom_of_staysWithin (by omega) hrun hstays, hposition]

/-- **An expression is read back as it is written**, with the parentheses that guard its operands,
where no more levels of nesting are opened than the limit allows: anywhere in a list of tokens, and
in a batch of its own. The levels that are opened are at most one more than those of the tree. -/
theorem written_is_read {e : Expr} {style : Style} {select : Token} {tokens : List Token}
    (h : e.IsWritten) (hselect : select.isKeyword .SELECT)
    (hkinds : tokens.map (·.kind) = (e.guarded style).kinds style) :
    (∀ (batch : List Token) (start : Nat) (closing : Token) (behind : List Token),
      batch.drop start = select :: (tokens ++ closing :: behind) → closing.endsStatement →
      (1 + (e.guarded style).extent .nesting ≤ Nested.maxDepth →
        staysWithin Nested.maxDepth batch start) ∧
      (staysWithin Nested.maxDepth batch start → ∃ e', e'.AgreesWith (e.guarded style) ∧
        parseFrom batch start =
          ⟨some (.select (.ofExpr e')), [], start + (tokens.length + 1)⟩)) ∧
    ∀ (source : String) (ending : Token), tokenize source = select :: (tokens ++ [ending]) →
      staysWithin Nested.maxDepth (tokenize source) 0 → ∃ s e', e'.AgreesWith (e.guarded style) ∧
        parseBatch source false = .ok [s] ∧ s.tree? = some (.select (.ofExpr e')) := by
  refine ⟨fun batch start closing behind hdrop hclosing ↦
    exists_parseFrom_written h style hselect hkinds hdrop hclosing,
    fun source ending htokens hstays ↦ ?_⟩
  have htokens : tokenize source = select :: tokens ++ [ending] := htokens
  obtain ⟨e', hagrees, hattempt⟩ := (@exists_parseFrom_written e h style (tokenize source) tokens
    [] 0 select ending hselect hkinds htokens (endsStatement_of_tokenize htokens)).2 hstays
  rw [Nat.zero_add] at hattempt
  obtain ⟨s, hparse, htree⟩ := exists_parseBatch_of_parseFrom htokens hattempt
  exact ⟨s, e', hagrees, hparse, htree⟩

/-- A predicate behind a `NOT` is written in parentheses. -/
theorem written_is_read_not_isNull :
    (Expr.unary .not (.isNull (.column none "a" ⟨0, 0⟩) false)).IsWritten ∧
      tokenize "SELECT NOT (a IS NULL)" = ⟨.keyword .SELECT, "SELECT", ⟨0, 6⟩⟩ ::
        ([⟨.keyword .NOT, "NOT", ⟨7, 10⟩⟩, ⟨.symbol .leftParen, "(", ⟨11, 12⟩⟩,
          ⟨.identifier "a", "a", ⟨12, 13⟩⟩, ⟨.keyword .IS, "IS", ⟨14, 16⟩⟩,
          ⟨.keyword .NULL, "NULL", ⟨17, 21⟩⟩, ⟨.symbol .rightParen, ")", ⟨21, 22⟩⟩] ++
          [.eofAt 22]) ∧
      staysWithin Nested.maxDepth (tokenize "SELECT NOT (a IS NULL)") 0 ∧
      ∃ s e', e'.AgreesWith (.unary .not (.paren (.isNull (.column none "a" ⟨0, 0⟩) false))) ∧
        parseBatch "SELECT NOT (a IS NULL)" false = .ok [s] ∧
        s.tree? = some (.select (.ofExpr e')) := by
  have hwritten : (Expr.unary .not (.isNull (.column none "a" ⟨0, 0⟩) false)).IsWritten :=
    .unary .not (.isNull false (.column none "a" ⟨0, 0⟩))
  have htokens : tokenize "SELECT NOT (a IS NULL)" = ⟨.keyword .SELECT, "SELECT", ⟨0, 6⟩⟩ ::
      ([⟨.keyword .NOT, "NOT", ⟨7, 10⟩⟩, ⟨.symbol .leftParen, "(", ⟨11, 12⟩⟩,
        ⟨.identifier "a", "a", ⟨12, 13⟩⟩, ⟨.keyword .IS, "IS", ⟨14, 16⟩⟩,
        ⟨.keyword .NULL, "NULL", ⟨17, 21⟩⟩, ⟨.symbol .rightParen, ")", ⟨21, 22⟩⟩] ++
        [.eofAt 22]) := by
    decide +kernel
  obtain ⟨hattempt, hbatch⟩ := @written_is_read _ ⟨false, false, false⟩
    ⟨.keyword .SELECT, "SELECT", ⟨0, 6⟩⟩ [⟨.keyword .NOT, "NOT", ⟨7, 10⟩⟩,
      ⟨.symbol .leftParen, "(", ⟨11, 12⟩⟩, ⟨.identifier "a", "a", ⟨12, 13⟩⟩,
      ⟨.keyword .IS, "IS", ⟨14, 16⟩⟩, ⟨.keyword .NULL, "NULL", ⟨17, 21⟩⟩,
      ⟨.symbol .rightParen, ")", ⟨21, 22⟩⟩] hwritten rfl rfl
  have hstays := (hattempt _ 0 (.eofAt 22) [] htokens rfl).1 (by decide)
  exact ⟨hwritten, htokens, hstays, hbatch _ _ htokens hstays⟩

end SqlBatch
