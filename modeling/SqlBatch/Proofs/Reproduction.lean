import Mathlib.Data.List.DropRight
import SqlBatch.Proofs.Excerpts

/-!
# Errors are reproduced by the text they quote

The text that an error quotes, the statement up to the offending token, fails with the same error
when it is read alone. Nothing behind that token has a part in the error.

## Two cases

* The offending token is one of the statement's own, or what ends it. Then it is part of the text
  that is quoted, and stands in front of the end there (`exists_reproduced_of_not_isEof`).
* It is the end of the batch. Then the text is cut behind its last token, and the end stands there
  again (`exists_reproduced_of_isEof`).

In both, the piece of the batch is cut at the offending token (`Piece.cut`), and what is read of the
cut piece is what was read of the whole one. Kind, text and message of the error are then the same,
and so is what it quotes (`parseBatch_query`).
-/

namespace SqlBatch

/-- Cutting the white space at the end twice. -/
theorem trimEnd_trimEnd (cs : List Char) : trimEnd (trimEnd cs) = trimEnd cs := by
  rw [trimEnd, trimEnd, List.reverse_reverse, List.dropWhile_idempotent]

/-- The text of a batch from an offset up to and including a token; at the end of the batch, the
white space in front of it is no part of it. -/
def consumed (source : String) (start : Nat) (t : Token) : List Char :=
  let chars := (Span.mk start t.span.stop).chars source
  if t.isEof then trimEnd chars else chars

/-- An error of a statement in a batch, which lies at a token, and the error of the text it quotes.
The end of the batch is that of the text there. -/
structure LocatedError.Reproduces (t : Token) (e alone : LocatedError) : Prop where
  message : alone.message = e.message
  text : alone.text = e.text
  query : alone.query = e.query
  span : if t.isEof then alone.span = .point (byteLength e.query.toList)
    else alone.span.shift e.statementStart = e.span

namespace Piece

variable {p : Piece} {behind : List Token}

/-- The piece with its end behind the token where reading stopped. -/
def cut (closing : Token) (p : Piece) : Piece :=
  { p with more := p.more.take p.stop, closing }

/-- A piece that is cut goes up to and including the offending token. -/
theorem tokens_cut (closing : Token) (h : p.stop < p.tokens.length) :
    (p.cut closing).tokens = p.tokens.take p.stop ++ [p.stopped] := by
  show p.tokens.take (p.stop + 1) = _
  rw [List.take_add, drop_stop_eq_cons h]
  rfl

theorem drop_stop_tokens_cut (closing : Token) (h : p.stop < p.tokens.length) :
    (p.cut closing).tokens.drop p.stop = [p.stopped] := by
  have hlength : (p.tokens.take p.stop).length = p.stop := by
    rw [List.length_take, Nat.min_eq_left (Nat.le_of_lt h)]
  rw [tokens_cut closing h, List.drop_left' hlength]

/-- The offending token stays. -/
theorem stopped_cut (closing : Token) (h : p.stop < p.tokens.length) :
    (p.cut closing).stopped = p.stopped :=
  congrArg (·.headD closing) (drop_stop_tokens_cut closing h)

/-- What is read of a piece that is cut is what was read of it. -/
theorem IsRead.cut {closing : Token} (h : p.IsRead behind) (hstop : p.stop < p.tokens.length)
    (hclosing : closing.endsStatement) : (p.cut closing).IsRead [] := by
  have hdrop := drop_stop_tokens_cut closing hstop
  have hopen : p.stopped.endsStatement = false := by
    refine Bool.eq_false_iff.2 fun hends ↦ ?_
    have := h.bounded.stop_eq_of_endsStatement hends
    omega
  refine ⟨?_, .beyond ?_ ?_ ?_ (.inl hclosing)⟩
  · rw [tokens_cut closing hstop, List.append_assoc]
    exact h.readFirst_take hstop (.inr hclosing)
  · have hlength := congrArg List.length hdrop
    rw [List.length_drop, List.length_singleton] at hlength
    show p.stop < _
    omega
  · show ∀ t ∈ (p.cut closing).tokens.drop p.stop, _
    rw [hdrop]
    exact List.forall_mem_singleton.2 hopen
  · show ∀ t ∈ (p.cut closing).tokens.drop (p.stop + 1), _
    rw [← List.drop_drop, hdrop]
    exact List.forall_mem_nil _

/-- The tokens up to the one where reading stopped are one piece too. -/
theorem IsRead.exists_cut (h : p.IsRead behind) (hopen : p.stopped.isEof = false) {eof : Token}
    (heof : eof.isEof) : ∃ q, Splits (p.tokens.take p.stop ++ [p.stopped] ++ [eof]) [q] ∧
      q.first = p.first ∧ q.result = p.result ∧ q.stopped = p.stopped := by
  cases h.bounded with
  | atEnd hstop hclosing =>
    -- The offending token is the semicolon that closes the piece.
    have hstopped := stopped_of_stop_eq hstop
    rw [hstopped] at hopen
    have hsemicolon : p.closing.isSymbol .semicolon := by
      simpa [Token.endsStatement, hopen] using hclosing
    refine ⟨p, ?_, rfl, rfl, rfl⟩
    rw [hstop, List.take_length, hstopped, List.append_assoc]
    exact .cons (h.close (.inl rfl) [eof]) (.skip hsemicolon (.nil heof))
  | beyond hstop =>
    refine ⟨p.cut eof, ?_, rfl, rfl, stopped_cut eof hstop⟩
    rw [← tokens_cut eof hstop]
    exact .cons (h.cut hstop (Token.endsStatement_of_isEof heof)) (.nil heof)

end Piece

/-- A piece of a batch, and the piece that the text up to its offending token is alone. -/
structure Piece.Reproduced (source : String) (p q : Piece) (text : List Char) : Prop where
  consumed_eq : consumed source p.first.span.start p.stopped = text
  parse_eq : parseBatch (String.ofList text) false =
    .ok [q.statement (.ofSource (String.ofList text))]
  first : q.first.span.start = 0
  result : q.result.map (Command.relabel (.shift p.first.span.start)) = p.result
  stop : q.stopped.span.stop = byteLength text
  stopped : if p.stopped.isEof then q.stopped = .eofAt (byteLength text) ∧ trimEnd text = text
    else q.stopped.move (.shift p.first.span.start) = p.stopped

/-- The last token of a piece that was read to its end is no error, so it does not end with white
space. -/
theorem Excerpt.trimEnd_text_of_isRead {source : String} {next : Token} {text gap : List Char}
    {p : Piece} {behind : List Token} (h : Excerpt source p.first p.more next text gap)
    (hread : p.IsRead behind) (hends : ∃ t ∈ p.closing :: behind, t.endsStatement)
    (hstop : p.stop = p.tokens.length) : trimEnd text = text := by
  have hne : p.first :: p.more ≠ [] := List.cons_ne_nil _ _
  obtain ⟨-, hlast⟩ := h.of_last _ _ (List.dropLast_concat_getLast hne).symm
  have hpassed := (hread.passes hends).1
  rw [hstop, List.take_length] at hpassed
  have hopen := hpassed _ (List.getLast_mem hne)
  simp only [Token.isOpen, Bool.and_eq_true, Bool.not_eq_true'] at hopen
  exact (hlast hopen.2).2

namespace Splits

variable {source : String} {ps : List Piece} {p : Piece}

/-- The text up to a token inside a batch ends with it. -/
theorem exists_reproduced_of_not_isEof (h : Splits (tokenize source) ps) (hp : p ∈ ps)
    (hopen : p.stopped.isEof = false) : ∃ q text, p.Reproduced source q text := by
  obtain ⟨before, behind, htokens, hread, hends⟩ := h.isRead_of_mem hp
  obtain ⟨rest, hsplit⟩ := p.exists_eq_append_stopped behind
  rw [hsplit, ← List.append_assoc] at htokens
  obtain ⟨next, rest, rfl⟩ := exists_next_of_tokenize htokens hopen
  obtain ⟨more, hmore⟩ : ∃ more, p.tokens.take p.stop ++ [p.stopped] = p.first :: more := by
    cases hzero : p.stop with
    | zero => exact ⟨[], by rw [Piece.stopped, hzero]; rfl⟩
    | succ n => exact ⟨p.more.take n ++ [p.stopped], rfl⟩
  have hexcerpt : tokenize source = before ++ (p.first :: more ++ next :: rest) := by
    rw [htokens, ← hmore, List.append_assoc, List.append_assoc]
    rfl
  obtain ⟨text, gap, hexcerpt⟩ := exists_excerpt hexcerpt
  obtain ⟨hstop, -⟩ := hexcerpt.of_last _ _ hmore.symm
  obtain ⟨q₀, hq₀, hfirst, hresult, hstopped⟩ := hread.exists_cut hopen
    (show (Token.eofAt (p.first.span.start + byteLength (text ++ []))).isEof from rfl)
  rw [hmore] at hq₀
  obtain ⟨q, rfl, hparse⟩ := hexcerpt.parseBatch_eq List.nil_prefix rfl hq₀
  have hchars := hexcerpt.chars_eq List.nil_prefix
  rw [List.append_nil] at hparse hchars
  have hstart : q.first.span.start + p.first.span.start = p.first.span.start :=
    congrArg (·.span.start) hfirst
  rw [Piece.stopped_move] at hstopped
  have hend : q.stopped.span.stop + p.first.span.start = p.stopped.span.stop :=
    congrArg (·.span.stop) hstopped
  refine ⟨q, text, ?_, hparse, by omega, hresult, by omega, ?_⟩
  · rw [consumed, hopen, hstop]
    exact hchars
  · rw [hopen]
    exact hstopped

/-- The text up to the end of the batch ends with the last token, or with what of the trivia behind
it is no white space. -/
theorem exists_reproduced_of_isEof (h : Splits (tokenize source) ps) (hp : p ∈ ps)
    (heof : p.stopped.isEof) : ∃ q text, p.Reproduced source q text := by
  obtain ⟨before, behind, htokens, hread, hends⟩ := h.isRead_of_mem hp
  have hstop : p.stop = p.tokens.length :=
    hread.bounded.stop_eq_of_endsStatement (Token.endsStatement_of_isEof heof)
  have hstopped : p.stopped = p.closing := Piece.stopped_of_stop_eq hstop
  have hclosing : p.closing = .eofAt (byteLength source.toList) :=
    eq_eofAt_of_mem_tokenize (h.closing_mem hp) (hstopped ▸ heof)
  obtain ⟨text, gap, hexcerpt⟩ := exists_excerpt (show tokenize source =
    before ++ (p.first :: p.more ++ p.closing :: behind) from htokens)
  -- The text ends with its last token, so only the gap is cut.
  have htext := trimEnd_append_of_eq (hexcerpt.trimEnd_text_of_isRead hread hends hstop) gap
  have hconsumed : consumed source p.first.span.start p.stopped = text ++ trimEnd gap := by
    have hend : p.closing.span.stop = p.first.span.start + byteLength (text ++ gap) := by
      rw [byteLength_append, ← Nat.add_assoc, ← hexcerpt.start_next, hclosing]
      rfl
    rw [consumed, heof, hstopped, hend, hexcerpt.chars_eq (List.prefix_refl gap)]
    exact htext
  have hclose : (p.close (.eofAt (p.first.span.start + byteLength (text ++ trimEnd gap)))).IsRead
      [] := hread.close (.inr rfl) []
  obtain ⟨q, hq, hparse⟩ := hexcerpt.parseBatch_eq (isPrefix_trimEnd gap)
    (Trivia.lengthFrom_trimEnd hexcerpt.length_gap) (.cons hclose (.nil rfl))
  have hfirst : q.first.span.start + p.first.span.start = p.first.span.start :=
    congrArg (·.first.span.start) hq
  have hresult : q.result.map (Command.relabel (.shift p.first.span.start)) = p.result :=
    congrArg Piece.result hq
  have heofAt : q.stopped = .eofAt (byteLength (text ++ trimEnd gap)) := by
    have hmove : q.stopped.move (.shift p.first.span.start) =
        .eofAt (p.first.span.start + byteLength (text ++ trimEnd gap)) := by
      rw [← Piece.stopped_move, hq]
      exact Piece.stopped_of_stop_eq hstop
    exact Token.eq_eofAt_of_move hmove
  refine ⟨q, _, hconsumed, hparse, by omega, hresult, by rw [heofAt]; rfl, ?_⟩
  rw [heof]
  refine ⟨heofAt, ?_⟩
  rw [← htext, trimEnd_trimEnd]

/-- Every piece of a batch is reproduced. -/
theorem exists_reproduced (h : Splits (tokenize source) ps) (hp : p ∈ ps) :
    ∃ q text, p.Reproduced source q text := by
  cases heof : p.stopped.isEof with
  | true => exact h.exists_reproduced_of_isEof hp heof
  | false => exact h.exists_reproduced_of_not_isEof hp heof

end Splits

/-- What an error quotes. -/
theorem query_ofSyntaxError {source : String} {t : Token} (h : t ∈ tokenize source)
    (cause : SyntaxError.Cause) (start : Nat) :
    (LocatedError.ofSyntaxError (.atToken cause t) start (.ofSource source)).query =
      String.ofList (consumed source start t) := by
  simp only [LocatedError.ofSyntaxError, SyntaxError.atToken, isEmpty_span_of_mem_tokenize h]
  rfl

namespace Piece.Reproduced

variable {source : String} {p q : Piece} {text : List Char}

/-- The offending token is shown alike. -/
theorem displayText_eq (h : p.Reproduced source q text) :
    q.stopped.displayText = p.stopped.displayText := by
  have hstopped := h.stopped
  split at hstopped
  · rename_i heof
    rw [hstopped.1, Token.displayText, Token.displayText, heof]
    rfl
  · rw [← hstopped]
    rfl

/-- The text alone is quoted as a whole. -/
theorem query_eq (h : p.Reproduced source q text) (hmem : p.stopped ∈ tokenize source)
    (cause : SyntaxError.Cause) :
    (LocatedError.ofSyntaxError (.atToken cause q.stopped) q.first.span.start
      (.ofSource (String.ofList text))).query = String.ofList text := by
  have hchars : (Span.mk q.first.span.start q.stopped.span.stop).chars (String.ofList text) =
      text := by
    rw [h.first, h.stop, Span.chars_all]
  have hempty : q.stopped.span.isEmpty → trimEnd text = text := by
    intro hempty
    have hstopped := h.stopped
    split at hstopped
    · exact hstopped.2
    · rename_i hopen
      have hspan : q.stopped.span.shift p.first.span.start = p.stopped.span :=
        congrArg Token.span hstopped
      rw [← Span.isEmpty_shift p.first.span.start, hspan, isEmpty_span_of_mem_tokenize hmem]
        at hempty
      exact absurd hempty hopen
  simp only [LocatedError.ofSyntaxError, SyntaxError.atToken, LineIndex.ofSource, hchars]
  split
  · rw [hempty ‹_›]
  · rfl

/-- The error of the text alone is the error that quotes it. -/
theorem reproduces (h : p.Reproduced source q text) (hmem : p.stopped ∈ tokenize source)
    (cause : SyntaxError.Cause) :
    LocatedError.Reproduces p.stopped
      (.ofSyntaxError (.atToken cause p.stopped) p.first.span.start (.ofSource source))
      (.ofSyntaxError (.atToken cause q.stopped) q.first.span.start
        (.ofSource (String.ofList text))) := by
  have hquery := query_ofSyntaxError hmem cause p.first.span.start
  rw [h.consumed_eq] at hquery
  refine ⟨congrArg cause.message h.displayText_eq, h.displayText_eq, ?_, ?_⟩
  · rw [h.query_eq hmem, hquery]
  · rw [hquery, String.toList_ofList]
    have hstopped := h.stopped
    split at hstopped
    · rename_i heof
      rw [if_pos heof]
      exact congrArg Token.span hstopped.1
    · rename_i hopen
      rw [if_neg hopen]
      exact congrArg Token.span hstopped

end Piece.Reproduced

/-- **The text that an error quotes reproduces it.** Read alone, it is one statement, which fails
at the same token with an error that quotes all of it. -/
theorem parseBatch_query (source : String) : ∃ statements,
    parseBatch source false = .ok statements ∧ ∀ s ∈ statements, ∀ e ∈ s.error?,
      e.statementStart = s.span.start ∧
      ∃ t ∈ tokenize source, e.IsAt t ∧
        e.query = String.ofList (consumed source s.span.start t) ∧
        ∃ alone e', parseBatch e.query false = .ok [alone] ∧ alone.error? = some e' ∧
          LocatedError.Reproduces t e e' := by
  obtain ⟨ps, hps⟩ := exists_splits_tokenize source
  refine ⟨_, parseBatch_of_splits hps, ?_⟩
  intro s hs e he
  obtain ⟨p, hp, rfl⟩ := List.mem_map.1 hs
  obtain ⟨cause, hcause, rfl⟩ := Piece.error?_statement_eq_some.1 he
  obtain ⟨q, text, hrep⟩ := hps.exists_reproduced hp
  have hmem := hps.stopped_mem hp
  have hquery := query_ofSyntaxError hmem cause p.first.span.start
  refine ⟨rfl, p.stopped, hmem, ⟨rfl, rfl⟩, hquery,
    q.statement (.ofSource (String.ofList text)), _, ?_, ?_, hrep.reproduces hmem cause⟩
  · rw [hquery, hrep.consumed_eq]
    exact hrep.parse_eq
  · refine Piece.error?_statement_eq_some.2 ⟨cause, ?_, rfl⟩
    have hresult := hrep.result
    rw [hcause] at hresult
    cases hq : q.result with
    | ok tree =>
      rw [hq] at hresult
      cases hresult
    | error cause' =>
      rw [hq] at hresult
      exact hresult

/-- The token behind the offending one is not quoted. -/
example : (parseBatch "SELECT x, FROM t; SELECT 1" false).toOption.map
    (·.map fun s ↦ s.error?.map (·.query)) = some [some "SELECT x, FROM", none] := by
  decide +kernel

end SqlBatch
