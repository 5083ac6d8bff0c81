import Mathlib.Data.List.Forall2
import SqlBatch.Proofs.Lines
import SqlBatch.Proofs.ParseBatch

/-!
# A semicolon isolates what follows from what precedes

Two batches with a semicolon between them are read as the two batches are: the statements of the
first stay what they are, up to an error at its end, which becomes one at the semicolon, and those
of the second are moved behind it.

## The proof

* The tokens of the whole text are those of the first, with the semicolon in place of the end, and
  those of the second, moved (`tokenize_append_semicolon`).
* A piece at the end of the first is closed by the semicolon instead (`Piece.closedBy`), so the
  whole splits into the pieces of both (`Splits.append`).
* Errors in front of the semicolon are at the same line and column as before, and those behind it
  are where the second text has come to lie.

An unfinished string or comment at the end of the first text would take the semicolon into itself.
That its tokens end in front of the semicolon is the hypothesis that excludes it.
-/

namespace SqlBatch

/-! ### Tokens -/

/-- The semicolon at a byte offset. -/
def Token.semicolonAt (offset : Nat) : Token :=
  ⟨.symbol .semicolon, ";", ⟨offset, offset + 1⟩⟩

/-- A semicolon in front of a text. -/
theorem tokens_semicolon (cs : List Char) (offset : Nat) :
    (⟨';' :: cs, offset, false⟩ : Lexer).tokens = .semicolonAt offset ::
      (tokenize (String.ofList cs)).map (·.move (.shift (offset + 1))) := by
  have hgap : Trivia.length ([] ++ ';' :: cs) = ([] : List Char).length := by
    rw [List.nil_append, Trivia.length, Trivia.lengthFrom, if_neg (by decide), List.length_nil]
    · exact fun _ hc ↦ absurd hc (by decide)
    · exact fun _ hc ↦ absurd hc (by decide)
  have hread : (⟨';' :: cs, offset, false⟩ : Lexer).read? =
      some (.semicolonAt offset, ⟨cs, offset + 1, false⟩) :=
    Lexer.read?_eq_some hgap
  rw [Lexer.tokens_of_read? hread, map_move_tokenize]

/-- The tokens in front of a semicolon and behind it are those of the texts there. -/
theorem tokenize_append_semicolon {a b : String}
    (h : ∃ t ∈ tokenize (a ++ ";" ++ b), t.span.start = byteLength a.toList) :
    ∃ ts, tokenize a = ts ++ [.eofAt (byteLength a.toList)] ∧ (∀ t ∈ ts, t.isEof = false) ∧
      tokenize (a ++ ";" ++ b) = ts ++ .semicolonAt (byteLength a.toList) ::
        (tokenize b).map (·.move (.shift (byteLength a.toList + 1))) := by
  obtain ⟨t, ht, hstart⟩ := h
  obtain ⟨ts, us, htokens⟩ := List.append_of_mem ht
  obtain ⟨lexer, hreads, hlexer⟩ := Lexer.exists_reads htokens
  obtain ⟨text, hahead, hoffset, hfinished, hcut⟩ := hreads.exists_text
  obtain ⟨gap, rest, hrest, hgap, hgap', hskip⟩ := Lexer.exists_skip hlexer
  -- What stands in front of the token is `a`, so the token starts with the semicolon.
  have hsplit : text ++ gap ++ rest = a.toList ++ (';' :: b.toList) := by
    rw [List.append_assoc, ← hrest, ← hahead, Lexer.ofSource]
    simp
  have hlength : byteLength (text ++ gap) = byteLength a.toList := by
    rw [byteLength_append, ← hstart, hgap', hoffset, Lexer.ofSource, Nat.zero_add]
  obtain ⟨htext, rfl⟩ := append_inj_of_byteLength hsplit hlength
  have hread := tokens_semicolon b.toList t.span.start
  rw [hfinished, Lexer.ofSource] at hskip
  rw [hskip, hstart, String.ofList_toList] at hread
  obtain ⟨rfl, rfl⟩ := List.cons.inj hread
  have ha : tokenize a = ts ++ [.eofAt (byteLength a.toList)] := by
    have hgap_tokens : (⟨gap, lexer.offset, lexer.finished⟩ : Lexer).tokens = _ :=
      Lexer.tokens_of_trivia hgap
    have hreads := (hcut gap (hrest ▸ List.prefix_append gap _)).tokens_eq
    rw [htext, hgap_tokens, hoffset, Lexer.ofSource, Nat.zero_add, ← byteLength_append, htext]
      at hreads
    exact hreads
  obtain ⟨ts', hts', hopen⟩ := tokenize_eq_append a
  obtain ⟨rfl, -⟩ := List.append_inj' (ha.symm.trans hts') rfl
  exact ⟨ts, ha, hopen, htokens⟩

/-! ### Pieces in front of a semicolon -/

namespace Piece

/-- The piece with its end at a semicolon in place of the end of the batch. -/
def closedBy (semicolon : Token) (p : Piece) : Piece :=
  if p.closing.isEof then p.close semicolon else p

/-- A piece at the end is closed by the semicolon. -/
theorem closedBy_of_isEof {p : Piece} (h : p.closing.isEof) (semicolon : Token) :
    p.closedBy semicolon = p.close semicolon :=
  if_pos h

/-- A piece before the end stays as it is. -/
theorem closedBy_of_not_isEof {p : Piece} (h : p.closing.isEof = false) (semicolon : Token) :
    p.closedBy semicolon = p :=
  if_neg (Bool.eq_false_iff.1 h)

/-- A piece starts where it did. -/
@[simp] theorem closedBy_first (p : Piece) (semicolon : Token) :
    (p.closedBy semicolon).first = p.first := by
  rw [closedBy]
  split <;> rfl

/-- What is read of a piece does not depend on what closes it. -/
@[simp] theorem closedBy_result (p : Piece) (semicolon : Token) :
    (p.closedBy semicolon).result = p.result := by
  rw [closedBy]
  split <;> rfl

/-- Where reading stopped at the end of the batch, it stops at the semicolon. -/
theorem IsBounded.stopped_closedBy_of_isEof {p : Piece} (h : p.IsBounded) (heof : p.stopped.isEof)
    (semicolon : Token) : (p.closedBy semicolon).stopped = semicolon := by
  have hstop := h.stop_eq_of_endsStatement (Token.endsStatement_of_isEof heof)
  rw [stopped_of_stop_eq hstop] at heof
  rw [closedBy_of_isEof heof]
  exact stopped_of_stop_eq (p := p.close semicolon) hstop

/-- A failure before the end of the batch stays where it is. -/
theorem IsBounded.stopped_closedBy_of_not_isEof {p : Piece} (h : p.IsBounded)
    (heof : p.stopped.isEof = false) (semicolon : Token) :
    (p.closedBy semicolon).stopped = p.stopped := by
  cases h with
  | atEnd hstop =>
    rw [stopped_of_stop_eq hstop] at heof
    rw [closedBy_of_not_isEof heof]
  | beyond hstop =>
    rw [closedBy]
    split
    · exact stopped_close hstop
    · rfl

end Piece

/-- Where the batch ends, it may go on with a semicolon and another batch. -/
theorem Splits.append {ts us : List Token} {ps qs : List Piece} {eof semicolon : Token}
    (h : Splits (ts ++ [eof]) ps) (hopen : ∀ t ∈ ts, t.isEof = false) (heof : eof.isEof)
    (hsemicolon : semicolon.isSymbol .semicolon) (hbehind : Splits us qs) :
    Splits (ts ++ semicolon :: us) (ps.map (·.closedBy semicolon) ++ qs) := by
  generalize htokens : ts ++ [eof] = tokens at h
  induction h generalizing ts with
  | @nil eof' heof' =>
    cases ts with
    | nil => exact .skip hsemicolon hbehind
    | cons t ts => simp at htokens
  | @skip t tokens ps ht _ ih =>
    cases ts with
    | nil =>
      obtain ⟨rfl, -⟩ := List.cons.inj htokens
      rw [Token.isEof_of_isSymbol ht] at heof
      cases heof
    | cons t' ts =>
      obtain ⟨rfl, hrest⟩ := List.cons.inj htokens
      exact .skip ht (ih (List.forall_mem_cons.1 hopen).2 hrest)
  | @cons p behind ps hread hrest ih =>
    obtain ⟨init, rfl, hlast⟩ := Piece.exists_init htokens
    have hinit : ∀ t ∈ init, t.isEof = false := fun t ht ↦
      hopen t (List.mem_append_right p.tokens ht)
    have hrest := ih hinit hlast.symm
    have hends : semicolon.endsStatement := Token.endsStatement_of_isSemicolon hsemicolon
    rw [List.append_assoc, List.map_cons, List.cons_append]
    -- The end closes this piece, and is replaced, or it lies further on.
    cases init with
    | nil =>
      obtain ⟨hclosing, -⟩ := List.cons.inj hlast
      rw [Piece.closedBy_of_isEof (hclosing ▸ heof)]
      exact .cons (hread.close (.inr hends) us) hrest
    | cons closing init =>
      obtain ⟨hclosing, -⟩ := List.cons.inj hlast
      rw [Piece.closedBy_of_not_isEof (hclosing ▸ hinit closing (.head _))]
      rw [List.cons_append, ← hclosing] at hrest ⊢
      exact .cons (hread.close (.inl rfl) _) hrest

/-! ### Statements behind a semicolon -/

/-- The error with its batch put behind other text of a longer one. -/
def LocatedError.moved (batch : String) (offset : Nat) (error : LocatedError) : LocatedError :=
  let position := (LineIndex.ofSource batch).lineCol (error.span.start + offset)
  { error with
    line := position.line
    column := position.column
    span := error.span.shift offset
    batch
    statementStart := error.statementStart + offset }

/-- The statement with its batch put behind other text of a longer one. -/
def Statement.moved (batch : String) (offset : Nat) (s : Statement) : Statement where
  batch
  span := s.span.shift offset
  outcome :=
    match s.outcome with
    | .ok tree => .ok (tree.relabel (.shift offset))
    | .error error => .error (error.moved batch offset)

/-- An error behind a text is moved. -/
theorem LocatedError.ofSyntaxError_moved {a b : String} {offset : Nat}
    (hoffset : byteLength a.toList = offset) (cause : SyntaxError.Cause) (t : Token)
    (start : Nat) :
    ofSyntaxError (.atToken cause (t.move (.shift offset))) (start + offset) (.ofSource (a ++ b)) =
      (ofSyntaxError (.atToken cause t) start (.ofSource b)).moved (a ++ b) offset := by
  have hchars : (Span.mk (start + offset) (t.span.stop + offset)).chars (a ++ b) =
      (Span.mk start t.span.stop).chars b := by
    rw [Span.chars, String.toList_append, Nat.add_comm start, Nat.add_comm t.span.stop, ← hoffset]
    exact congrArg (·.getD []) (charsBetween?_add _ _ _ _)
  simp only [ofSyntaxError, moved, SyntaxError.atToken, Token.move_span, Span.isEmpty_shift]
  simp only [Span.shift, LineIndex.ofSource, hchars]
  rfl

/-- A statement behind a text is moved. -/
theorem Piece.statement_move {a b : String} {offset : Nat}
    (hoffset : byteLength a.toList = offset) (p : Piece) :
    (p.move (.shift offset)).statement (.ofSource (a ++ b)) =
      (p.statement (.ofSource b)).moved (a ++ b) offset := by
  rw [statement, statement, Statement.moved, stopped_move]
  simp only [move]
  cases p.result with
  | ok tree => rfl
  | error cause =>
    have hmoved := LocatedError.ofSyntaxError_moved (b := b) hoffset cause p.stopped
      p.first.span.start
    exact congrArg (fun e ↦ Statement.mk _ _ (.error e)) hmoved

/-! ### Statements in front of a semicolon -/

/-- An error of a batch, and what it is where the batch goes on with a semicolon at the offset where
it ended: an error at the end is one at the semicolon, and any other stays. -/
inductive LocatedError.Closed (batch : String) (offset : Nat) : LocatedError → LocatedError → Prop
  | inside {e : LocatedError} : e.span.stop ≤ offset → e.span ≠ .point offset →
    Closed batch offset e { e with batch }
  | atEnd {e : LocatedError} {cause : SyntaxError.Cause} : cause.IsQuoting →
    e.span = .point offset → e.text = "<EOF>" → e.message = cause.message "<EOF>" →
    Closed batch offset e
      { e with
        message := cause.message ";"
        query := (Span.mk e.statementStart (offset + 1)).slice batch
        span := ⟨offset, offset + 1⟩
        text := ";"
        batch }

/-- A statement of a batch, and what it is where the batch goes on with a semicolon at the offset
where it ended. -/
inductive Statement.Closed (batch : String) (offset : Nat) : Statement → Statement → Prop
  | ok {source : String} {span : Span} {tree : Command} :
    Closed batch offset ⟨source, span, .ok tree⟩ ⟨batch, span, .ok tree⟩
  | error {source : String} {span : Span} {e e' : LocatedError} : e.Closed batch offset e' →
    Closed batch offset ⟨source, span, .error e⟩ ⟨batch, span, .error e'⟩

/-- Where reading stops inside the batch, what follows behind the batch does not matter. -/
theorem LocatedError.ofSyntaxError_append {a more : String} {c : Char} {cs : List Char}
    (hmore : more.toList = c :: cs) (hc : ¬ (c = '\n' ∨ c = '\r')) {error : SyntaxError}
    (hle : error.span.start ≤ error.span.stop) (hstop : error.span.stop ≤ byteLength a.toList)
    (start : Nat) :
    ofSyntaxError error start (.ofSource (a ++ more)) =
      { ofSyntaxError error start (.ofSource a) with batch := a ++ more } := by
  have hchars : (Span.mk start error.span.stop).chars (a ++ more) =
      (Span.mk start error.span.stop).chars a := by
    rw [Span.chars, String.toList_append, charsBetween?_append_of_le _ hstop, Span.chars]
  simp only [ofSyntaxError, LineIndex.lineCol_append hmore hc (Nat.le_trans hle hstop)]
  simp only [LineIndex.ofSource, hchars]

/-- The error of a statement that is not closed, and the same one at the semicolon. -/
theorem LocatedError.closed_atEnd {a b : String} {cause : SyntaxError.Cause}
    (hcause : cause.IsQuoting) (start : Nat) :
    (ofSyntaxError (.atToken cause (.eofAt (byteLength a.toList))) start (.ofSource a)).Closed
      (a ++ (";" ++ b)) (byteLength a.toList)
      (ofSyntaxError (.atToken cause (.semicolonAt (byteLength a.toList))) start
        (.ofSource (a ++ (";" ++ b)))) := by
  have hmore : (";" ++ b).toList = ';' :: b.toList := by simp
  have hposition := LineIndex.lineCol_append hmore (by decide) (Nat.le_refl (byteLength a.toList))
  have hclosed := @Closed.atEnd (a ++ (";" ++ b)) (byteLength a.toList)
    (ofSyntaxError (.atToken cause (.eofAt (byteLength a.toList))) start (.ofSource a)) cause
    hcause rfl rfl rfl
  convert hclosed using 1
  have hempty : (Span.mk (byteLength a.toList) (byteLength a.toList + 1)).isEmpty = false := by
    simp [Span.isEmpty]
  simp only [ofSyntaxError, SyntaxError.atToken, Token.semicolonAt, hempty, hposition]
  rfl

/-- What becomes of the statements in front of the semicolon. -/
theorem Splits.closed {a b : String} {ps : List Piece} (h : Splits (tokenize a) ps) :
    ∀ p ∈ ps, (p.statement (.ofSource a)).Closed (a ++ (";" ++ b)) (byteLength a.toList)
      ((p.closedBy (.semicolonAt (byteLength a.toList))).statement
        (.ofSource (a ++ (";" ++ b)))) := by
  intro p hp
  obtain ⟨before, behind, -, hread, hends⟩ := h.isRead_of_mem hp
  have hclosing : (p.closedBy (.semicolonAt (byteLength a.toList))).closing.span.start =
      p.closing.span.start := by
    by_cases heof : p.closing.isEof
    · rw [Piece.closedBy_of_isEof heof, eq_eofAt_of_mem_tokenize (h.closing_mem hp) heof]
      rfl
    · rw [Piece.closedBy_of_not_isEof (Bool.eq_false_iff.2 heof)]
  have hstopped := h.stopped_mem hp
  rw [Piece.statement, Piece.statement, hclosing, Piece.closedBy_result, Piece.closedBy_first]
  cases hresult : p.result with
  | ok tree => exact .ok
  | error cause =>
    refine .error ?_
    -- An error at the end of the text becomes one at the semicolon.
    by_cases heof : p.stopped.isEof
    · have hcause := hread.isQuoting hresult
      rw [hread.bounded.stopped_closedBy_of_isEof heof, eq_eofAt_of_mem_tokenize hstopped heof]
      exact LocatedError.closed_atEnd hcause p.first.span.start
    · have heof := Bool.eq_false_iff.2 heof
      have hlt := (inOrder_tokenize a).start_lt_stop _ hstopped heof
      have hle := stop_le_of_mem_tokenize hstopped
      have hmore : (";" ++ b).toList = ';' :: b.toList := by simp
      rw [hread.bounded.stopped_closedBy_of_not_isEof heof,
        LocatedError.ofSyntaxError_append hmore (by decide) (Nat.le_of_lt hlt) hle]
      refine .inside hle fun hpoint ↦ ?_
      have hempty : p.stopped.span = .point (byteLength a.toList) := hpoint
      rw [hempty] at hlt
      exact absurd hlt (Nat.lt_irrefl _)

/-- **A semicolon isolates what follows from what precedes.** Wherever the semicolon between two
texts is one in the text of both, and not part of a string, say, the statements of the first stay
what they are, up to an error at its end, and those of the second are moved behind the semicolon. -/
theorem parseBatch_append_semicolon {a b : String}
    (h : ∃ t ∈ tokenize (a ++ ";" ++ b), t.isSymbol .semicolon ∧
      t.span.start = byteLength a.toList) :
    ∃ before after closed, parseBatch a false = .ok before ∧ parseBatch b false = .ok after ∧
      List.Forall₂ (Statement.Closed (a ++ ";" ++ b) (byteLength a.toList)) before closed ∧
      parseBatch (a ++ ";" ++ b) false =
        .ok (closed ++ after.map (·.moved (a ++ ";" ++ b) (byteLength a.toList + 1))) := by
  obtain ⟨t, ht, -, hstart⟩ := h
  obtain ⟨ts, ha, hopen, hwhole⟩ := tokenize_append_semicolon ⟨t, ht, hstart⟩
  obtain ⟨ps, hps⟩ := exists_splits_tokenize a
  obtain ⟨qs, hqs⟩ := exists_splits_tokenize b
  let closed := ps.map (·.closedBy (.semicolonAt (byteLength a.toList)))
  let moved := qs.map (·.move (.shift (byteLength a.toList + 1)))
  have hmoved : Splits ((tokenize b).map (·.move (.shift (byteLength a.toList + 1)))) moved :=
    hqs.move fun _ _ ↦ rfl
  -- The whole splits into the pieces of both, closed and moved.
  have hsplits : Splits (tokenize (a ++ ";" ++ b)) (closed ++ moved) := by
    rw [hwhole]
    exact (ha ▸ hps).append hopen rfl rfl hmoved
  refine ⟨_, _, closed.map (·.statement (.ofSource (a ++ ";" ++ b))), parseBatch_of_splits hps,
    parseBatch_of_splits hqs, ?_, ?_⟩
  · rw [List.map_map, List.forall₂_map_left_iff, List.forall₂_map_right_iff, List.forall₂_same,
      String.append_assoc]
    exact hps.closed
  · have hoffset : byteLength (a ++ ";").toList = byteLength a.toList + 1 := by
      rw [String.toList_append, byteLength_append]
      rfl
    rw [parseBatch_of_splits hsplits, List.map_append]
    congr 2
    rw [List.map_map, List.map_map]
    exact List.map_congr_left fun q _ ↦ Piece.statement_move hoffset q

/-- A statement that is not complete, and one behind it. -/
theorem parseBatch_select_semicolon_select :
    (∃ t ∈ tokenize ("SELECT" ++ ";" ++ "SELECT 1"), t.isSymbol .semicolon ∧
      t.span.start = byteLength "SELECT".toList) ∧
    ∃ before after closed, parseBatch "SELECT" false = .ok before ∧
      parseBatch "SELECT 1" false = .ok after ∧
      List.Forall₂ (Statement.Closed ("SELECT" ++ ";" ++ "SELECT 1") (byteLength "SELECT".toList))
        before closed ∧
      parseBatch ("SELECT" ++ ";" ++ "SELECT 1") false =
        .ok (closed ++ after.map (·.moved ("SELECT" ++ ";" ++ "SELECT 1")
          (byteLength "SELECT".toList + 1))) :=
  have h : ∃ t ∈ tokenize ("SELECT" ++ ";" ++ "SELECT 1"), t.isSymbol .semicolon ∧
      t.span.start = byteLength "SELECT".toList := by decide +kernel
  ⟨h, parseBatch_append_semicolon h⟩

end SqlBatch
