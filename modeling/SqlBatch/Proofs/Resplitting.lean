import SqlBatch.Proofs.Excerpts

/-!
# Splitting again

The text of a statement is read alone as it was read in its batch: cutting the batch where the
statement ends leaves nothing to read differently, whatever it is that ends the statement there.

## What stands behind

The statement's tokens are the same, moved to the start of the text, and behind them stands the end
of a batch. What was there in the batch was a semicolon, the end, or a word that starts the next
statement. Reading passes none of these, so it stops at the same place and answers with the same
tree; the places in the tree are moved along with the tokens (`parseBatch_rawText`).

## Errors

An error lies at the same token and is worded alike, for the token is in the text as well
(`stopped_alone_of_not_isSymbol`). The exception is an error at the semicolon that closes the
statement, which is not in the text: there the end stands in its place, and the same failure is
worded with that (`stopped_alone_of_isSymbol`).
-/

namespace SqlBatch

/-- An error of a statement in a batch, and the error of the statement's text read alone: it lies at
the same token, unless this is the terminator, where the text has its end. -/
inductive LocatedError.Alone (tokens : List Token) (s : Statement) (e alone : LocatedError) : Prop
  | inside {t : Token} : t ∈ tokens → e.IsAt t → t.isSymbol .semicolon = false →
    alone.message = e.message → alone.text = e.text →
    alone.span.shift s.span.start = e.span → Alone tokens s e alone
  | terminated {t : Token} {cause : SyntaxError.Cause} : t ∈ tokens → e.IsAt t →
    t.isSymbol .semicolon → cause.IsQuoting → e.message = cause.message e.text →
    alone.message = cause.message "<EOF>" → alone.text = "<EOF>" →
    alone.span = .point (byteLength s.rawText.toList) → Alone tokens s e alone

/-- A statement in a batch, and its text read alone. -/
structure Statement.Alone (tokens : List Token) (s alone : Statement) : Prop where
  span : alone.span = ⟨0, byteLength s.rawText.toList⟩
  isOk : alone.isOk = s.isOk
  tree : ∀ tree ∈ alone.tree?, s.tree? = some (tree.relabel (.shift s.span.start))
  error : ∀ e ∈ s.error?, ∀ e' ∈ alone.error?, e.Alone tokens s e'

namespace Splits

variable {source : String} {ps : List Piece} {p : Piece}

/-- The text of a piece is the excerpt of its tokens with all trivia behind it. -/
theorem exists_alone (h : Splits (tokenize source) ps) (hp : p ∈ ps) : ∃ q : Piece,
    q.move (.shift p.first.span.start) = p.close (.eofAt p.closing.span.start) ∧
      p.closing.span.start = p.first.span.start +
        byteLength (p.statement (.ofSource source)).rawText.toList ∧
      parseBatch (p.statement (.ofSource source)).rawText false =
        .ok [q.statement (.ofSource (p.statement (.ofSource source)).rawText)] := by
  obtain ⟨before, behind, htokens, hread, hends⟩ := h.isRead_of_mem hp
  rw [Piece.tokens] at htokens
  obtain ⟨text, gap, hexcerpt⟩ := exists_excerpt htokens
  have hclosing : p.closing.span.start = p.first.span.start + byteLength (text ++ gap) := by
    rw [hexcerpt.start_next, byteLength_append, Nat.add_assoc]
  have hraw : (p.statement (.ofSource source)).rawText = String.ofList (text ++ gap) := by
    rw [Statement.rawText, Piece.span_statement, hclosing]
    exact congrArg String.ofList (hexcerpt.chars_eq (List.prefix_refl gap))
  have hclose : (p.close (.eofAt p.closing.span.start)).IsRead [] := hread.close (.inr rfl) []
  have hpiece : Splits (p.first :: p.more ++ [.eofAt p.closing.span.start])
      [p.close (.eofAt p.closing.span.start)] := .cons hclose (.nil rfl)
  rw [hraw, String.toList_ofList]
  rw [hclosing] at hpiece ⊢
  obtain ⟨q, hq, hparse⟩ :=
    hexcerpt.parseBatch_eq (List.prefix_refl gap) hexcerpt.length_gap hpiece
  exact ⟨q, hq, rfl, hparse⟩

/-- Where the statement failed at a semicolon, its text has its end. -/
theorem stopped_alone_of_isSymbol (h : Splits (tokenize source) ps) (hp : p ∈ ps)
    (hsemicolon : p.stopped.isSymbol .semicolon) {q : Piece}
    (hq : q.move (.shift p.first.span.start) = p.close (.eofAt p.closing.span.start)) :
    q.stopped.move (.shift p.first.span.start) = .eofAt p.closing.span.start := by
  obtain ⟨before, behind, -, hread, -⟩ := h.isRead_of_mem hp
  have hstop : p.stop = p.tokens.length :=
    hread.bounded.stop_eq_of_endsStatement (Token.endsStatement_of_isSemicolon hsemicolon)
  rw [← Piece.stopped_move, hq]
  exact Piece.stopped_of_stop_eq hstop

/-- Where it failed at any other token, its text has this token too. -/
theorem stopped_alone_of_not_isSymbol (h : Splits (tokenize source) ps) (hp : p ∈ ps)
    (hother : p.stopped.isSymbol .semicolon = false) {q : Piece}
    (hq : q.move (.shift p.first.span.start) = p.close (.eofAt p.closing.span.start)) :
    q.stopped.move (.shift p.first.span.start) = p.stopped := by
  obtain ⟨before, behind, -, hread, -⟩ := h.isRead_of_mem hp
  rw [← Piece.stopped_move, hq]
  cases hread.bounded with
  | atEnd hstop hclosing =>
    -- The batch ends here, and so does the text.
    have hclosed := @Piece.stopped_of_stop_eq (p.close (.eofAt p.closing.span.start)) hstop
    rw [Piece.stopped_of_stop_eq hstop] at hother ⊢
    have heof : p.closing.isEof := by simpa [Token.endsStatement, hother] using hclosing
    rw [hclosed, eq_eofAt_of_mem_tokenize (h.closing_mem hp) heof]
    rfl
  | beyond hstop => exact Piece.stopped_close hstop

/-- What reading the text alone makes of an error. -/
theorem error_alone (h : Splits (tokenize source) ps) (hp : p ∈ ps) {q : Piece}
    (hq : q.move (.shift p.first.span.start) = p.close (.eofAt p.closing.span.start))
    (hlength : p.closing.span.start = p.first.span.start +
      byteLength (p.statement (.ofSource source)).rawText.toList)
    {cause : SyntaxError.Cause} (hcause : p.result = .error cause) (index : LineIndex) :
    (LocatedError.ofSyntaxError (.atToken cause p.stopped) p.first.span.start
        (.ofSource source)).Alone (tokenize source) (p.statement (.ofSource source))
      (.ofSyntaxError (.atToken cause q.stopped) q.first.span.start index) := by
  have hmem := h.stopped_mem hp
  have hat : (LocatedError.ofSyntaxError (.atToken cause p.stopped) p.first.span.start
      (.ofSource source)).IsAt p.stopped := ⟨rfl, rfl⟩
  -- At the semicolon, the end of the text takes its place.
  cases hsemicolon : p.stopped.isSymbol .semicolon with
  | true =>
    obtain ⟨before, behind, -, hread, hends⟩ := h.isRead_of_mem hp
    have hstopped := h.stopped_alone_of_isSymbol hp hsemicolon hq
    have hdisplay : q.stopped.displayText = "<EOF>" := congrArg Token.displayText hstopped
    refine .terminated hmem hat hsemicolon (hread.isQuoting hcause) rfl ?_ hdisplay ?_
    · exact congrArg cause.message hdisplay
    · rw [hlength] at hstopped
      rw [Token.eq_eofAt_of_move hstopped]
      rfl
  | false =>
    have hsame := h.stopped_alone_of_not_isSymbol hp hsemicolon hq
    refine .inside hmem hat hsemicolon ?_ ?_ ?_
    all_goals
      rw [← hsame]
      rfl

end Splits

/-- **The text of a statement is read alone as it was read in its batch.** It is one statement,
with the same tree, or the same error unless this lay at the semicolon behind the text. -/
theorem parseBatch_rawText (source : String) : ∃ statements,
    parseBatch source false = .ok statements ∧ ∀ s ∈ statements, ∃ alone,
      parseBatch s.rawText false = .ok [alone] ∧ s.Alone (tokenize source) alone := by
  obtain ⟨ps, hps⟩ := exists_splits_tokenize source
  refine ⟨_, parseBatch_of_splits hps, ?_⟩
  intro s hs
  obtain ⟨p, hp, rfl⟩ := List.mem_map.1 hs
  obtain ⟨q, hq, hlength, hparse⟩ := hps.exists_alone hp
  have hfirst : q.first.span.start + p.first.span.start = p.first.span.start :=
    congrArg (·.first.span.start) hq
  have hclosing : q.closing.span.start + p.first.span.start = p.closing.span.start :=
    congrArg (·.closing.span.start) hq
  have hresult : q.result.map (Command.relabel (.shift p.first.span.start)) = p.result :=
    congrArg Piece.result hq
  refine ⟨_, hparse, ?_, ?_, ?_, ?_⟩
  · rw [Piece.span_statement, Span.mk.injEq]
    omega
  · rw [Piece.isOk_statement, Piece.isOk_statement, ← hresult]
    cases q.result <;> rfl
  · intro tree htree
    rw [Piece.tree?_statement_eq_some.1 htree] at hresult
    exact Piece.tree?_statement_eq_some.2 hresult.symm
  · intro e he e' he'
    obtain ⟨cause, hcause, rfl⟩ := Piece.error?_statement_eq_some.1 he
    obtain ⟨cause', hcause', rfl⟩ := Piece.error?_statement_eq_some.1 he'
    rw [hcause', hcause] at hresult
    obtain rfl : cause' = cause := Except.error.inj hresult
    exact hps.error_alone hp hq hlength hcause _

/-- A statement may end at a keyword, without a semicolon. -/
example : (parseBatch "SELECT FROM x DELETE FROM t" false).toOption.map (·.map (·.rawText)) =
    some ["SELECT FROM x ", "DELETE FROM t"] := by
  decide +kernel

end SqlBatch
