import SqlBatch.Proofs.Pieces
import SqlBatch.Proofs.Runs

/-!
# Reading a batch splits it

A batch is read by index, one step a statement. What the steps answer with, and where they go on, is
what the pieces say that the tokens split into (`Splits.statementsFrom_eq`). The tokens have to lie
in the batch one behind the other, or else a failure would be looked for in the wrong place.

## One step

The step lemma is `step_eq`: at the first token of a piece, a step answers with the statement of the
piece and goes on behind it. A statement that was read is closed by the token where the attempt
stopped (`exists_accept`). A statement that failed is bounded by a search through the tokens, and
where that ends is where the piece ends (`exists_boundary_of_isBounded`).

## Where reading goes on

Behind a semicolon, or at the token that closes the piece, or nowhere if the batch ends
(`Batch.Resumes`). These come to the same: a semicolon in front of everything else is skipped, and
at the end there is nothing more to read. So a run may be looked at as if it always went on at the
closing token (`Resumes.statementsFrom_eq`), which is where the rest of the pieces start.
-/

namespace SqlBatch

namespace Batch

/-- The batch is one of the built-in dialect, and its tokens lie in it one behind the other. -/
structure IsOrdered (batch : Batch) : Prop where
  dialect : batch.dialect = .crateDb
  increasing : batch.tokens.Pairwise fun t u ↦ t.span.start < u.span.start
  stop_le : ∀ t ∈ batch.tokens, t.span.stop ≤ batch.size
  start_eof : ∀ t ∈ batch.tokens, t.isEof → t.span.start = batch.size

variable {batch : Batch}

/-- A token ends a statement if it is a semicolon. -/
theorem IsOrdered.isTerminator_eq (h : batch.IsOrdered) (t : Token) :
    batch.dialect.isTerminator t = t.isSymbol .semicolon := by
  rw [h.dialect]
  rfl

/-- A token starts a statement if its keyword may. -/
theorem IsOrdered.isStatementStart_eq (h : batch.IsOrdered) (t : Token) :
    batch.dialect.isStatementStart t = t.startsStatement := by
  rw [h.dialect]
  rfl

/-- Where reading goes on behind a statement that starts at a token and ends at a later one. -/
inductive Resumes (start stop : Nat) (closing : Token) :
    Option { next : Nat // start < next } → Prop
  | eof : closing.isEof → Resumes start stop closing none
  | behind (h : start < stop + 1) :
    closing.isSymbol .semicolon → Resumes start stop closing (some ⟨stop + 1, h⟩)
  | here (h : start < stop) : Resumes start stop closing (some ⟨stop, h⟩)

/-- Wherever reading goes on, it finds what it would find from the end of the statement on. -/
theorem Resumes.statementsFrom_eq {start stop : Nat} {closing : Token}
    {resume : Option { next : Nat // start < next }} (h : Resumes start stop closing resume)
    (hordered : batch.IsOrdered) (hclosing : batch.tokens[stop]? = some closing)
    (statement : Statement) :
    (match resume with
      | none => .ok [statement]
      | some ⟨next, _⟩ => (batch.statementsFrom false next).map (statement :: ·)) =
      (batch.statementsFrom false stop).map (statement :: ·) := by
  cases h with
  | eof heof =>
    rw [statementsFrom_of_getElem? false hclosing, if_pos heof]
    rfl
  | behind _ hsemicolon =>
    have hopen : closing.isEof = false := Token.isEof_of_isSymbol hsemicolon
    rw [statementsFrom_of_getElem? false hclosing, hopen, hordered.isTerminator_eq, hsemicolon]
    rfl
  | here => rfl

/-- The boundary of a failed statement is the first token where a statement ends or starts. -/
theorem exists_boundaryFrom (hordered : batch.IsOrdered) {start next : Nat} (h : start < next)
    {skipped behind : List Token} {closing : Token} (hmem : closing ∈ batch.tokens)
    (hskipped : ∀ t ∈ skipped, t.endsStatement = false ∧ t.startsStatement = false)
    (hclosing : closing.endsStatement ∨ closing.startsStatement) :
    ∃ resume, batch.boundaryFrom next h (skipped ++ closing :: behind) =
        ⟨closing.span.start, resume⟩ ∧
      Resumes start (next + skipped.length) closing resume := by
  induction skipped generalizing next with
  | nil =>
    rw [List.nil_append, boundaryFrom, hordered.isTerminator_eq, hordered.isStatementStart_eq]
    show ∃ resume, _ ∧ Resumes start next closing resume
    -- The search ends at this token: at the end, at a semicolon, or at a word.
    by_cases heof : closing.isEof
    · refine ⟨none, ?_, .eof heof⟩
      rw [if_pos heof, endOfBatch, hordered.start_eof closing hmem heof]
    rw [if_neg heof]
    by_cases hsemicolon : closing.isSymbol .semicolon
    · exact ⟨_, if_pos hsemicolon, .behind _ hsemicolon⟩
    · have hstarts : closing.startsStatement := by
        refine hclosing.resolve_left ?_
        simp [Token.endsStatement, hsemicolon, heof]
      rw [if_neg hsemicolon, if_pos hstarts]
      exact ⟨_, rfl, .here h⟩
  | cons t skipped ih =>
    obtain ⟨⟨hends, hstarts⟩, hskipped⟩ := List.forall_mem_cons.1 hskipped
    obtain ⟨hsemicolon, heof⟩ := Token.endsStatement_eq_false_iff.1 hends
    rw [List.cons_append, boundaryFrom, hordered.isTerminator_eq, hordered.isStatementStart_eq,
      hsemicolon, heof, hstarts, List.length_cons]
    obtain ⟨resume, hboundary, hresumes⟩ := ih (Nat.lt_succ_of_lt h) hskipped
    refine ⟨resume, hboundary, ?_⟩
    rw [Nat.succ_add] at hresumes
    exact hresumes

/-- The boundary is looked for behind the offending token, unless the statement ends there. -/
theorem exists_boundary (hordered : batch.IsOrdered) {start offending : Nat}
    (h : start ≤ offending) {ts behind : List Token} {closing : Token}
    (hmem : closing ∈ batch.tokens) (hnil : ts = [] → closing.endsStatement)
    (hends : ∀ t ∈ ts, t.endsStatement = false)
    (hstarts : ∀ t ∈ ts.tail, t.startsStatement = false)
    (hclosing : closing.endsStatement ∨ closing.startsStatement) :
    ∃ resume, batch.boundary offending h (ts ++ closing :: behind) =
        ⟨closing.span.start, resume⟩ ∧
      Resumes start (offending + ts.length) closing resume := by
  cases ts with
  | nil =>
    have hends := hnil rfl
    rw [List.nil_append, boundary, hordered.isTerminator_eq]
    show ∃ resume, _ ∧ Resumes start offending closing resume
    by_cases heof : closing.isEof
    · refine ⟨none, ?_, .eof heof⟩
      rw [if_pos heof, endOfBatch, hordered.start_eof closing hmem heof]
    · have hsemicolon : closing.isSymbol .semicolon := by
        simpa [Token.endsStatement, heof] using hends
      rw [if_neg heof, if_pos hsemicolon]
      exact ⟨_, rfl, .behind _ hsemicolon⟩
  | cons t skipped =>
    obtain ⟨ht, hskipped⟩ := List.forall_mem_cons.1 hends
    obtain ⟨hsemicolon, heof⟩ := Token.endsStatement_eq_false_iff.1 ht
    rw [List.cons_append, boundary, hordered.isTerminator_eq, hsemicolon, heof, List.length_cons]
    obtain ⟨resume, hboundary, hresumes⟩ := exists_boundaryFrom hordered (Nat.lt_succ_of_le h) hmem
      (fun t ht ↦ ⟨hskipped t ht, hstarts t ht⟩) hclosing
    refine ⟨resume, hboundary, ?_⟩
    rw [Nat.succ_add] at hresumes
    exact hresumes

/-- The first token that does not start before one of them is that token. -/
theorem findIdx?_start {before behind : List Token} {t : Token}
    (h : (before ++ t :: behind).Pairwise fun t u ↦ t.span.start < u.span.start) :
    (before ++ t :: behind).findIdx? (fun u ↦ t.span.start ≤ u.span.start) =
      some before.length := by
  induction before with
  | nil =>
    rw [List.nil_append, List.findIdx?_cons]
    simp
  | cons u before ih =>
    obtain ⟨hu, hrest⟩ := List.pairwise_cons.1 h
    have hlt := hu t (by simp)
    rw [List.cons_append, List.findIdx?_cons, ih hrest]
    simp [Nat.not_le_of_lt hlt]

/-- A statement that is read is accepted. -/
theorem exists_accept (hordered : batch.IsOrdered) {i stop : Nat} (hlt : i < stop)
    {first closing : Token} (hclosing : batch.tokens[stop]? = some closing)
    (hends : closing.endsStatement) (tree : Command) :
    ∃ resume, batch.accept i first tree stop =
        .ok (⟨batch.source, ⟨first.span.start, closing.span.start⟩, .ok tree⟩, resume) ∧
      Resumes i stop closing resume := by
  have hterminates : i < stop ∧ (closing.isEof || batch.dialect.isTerminator closing) := by
    rw [hordered.isTerminator_eq, Bool.or_comm]
    exact ⟨hlt, hends⟩
  simp only [accept, hclosing, dif_pos hterminates]
  by_cases heof : closing.isEof
  · exact ⟨none, by simp [heof], .eof heof⟩
  · have hsemicolon : closing.isSymbol .semicolon := by
      simpa [Token.endsStatement, heof] using hends
    exact ⟨some ⟨stop + 1, by omega⟩, by simp [heof], .behind _ hsemicolon⟩

/-- The boundary of a statement is the end of its piece. -/
theorem exists_boundary_of_isBounded (hordered : batch.IsOrdered) (i : Nat) {p : Piece}
    (behind : List Token) (hmem : p.closing ∈ batch.tokens) (hbounded : p.IsBounded) :
    ∃ resume, batch.boundary (i + p.stop) (Nat.le_add_right i p.stop)
        (p.tokens.drop p.stop ++ p.closing :: behind) = ⟨p.closing.span.start, resume⟩ ∧
      Resumes i (i + p.tokens.length) p.closing resume := by
  obtain ⟨resume, hboundary, hresumes⟩ : ∃ resume,
      batch.boundary (i + p.stop) (Nat.le_add_right i p.stop)
        (p.tokens.drop p.stop ++ p.closing :: behind) = ⟨p.closing.span.start, resume⟩ ∧
      Resumes i (i + p.stop + (p.tokens.drop p.stop).length) p.closing resume := by
    cases hbounded with
    | atEnd hstop hends =>
      rw [hstop, List.drop_length]
      exact exists_boundary hordered _ hmem (fun _ ↦ hends) (by simp) (by simp) (.inl hends)
    | beyond hstop hends hstarts hboundary =>
      refine exists_boundary hordered _ hmem (fun hnil ↦ ?_) hends ?_ hboundary
      · have := List.drop_eq_nil_iff.1 hnil
        omega
      · rwa [List.tail_drop]
  rw [List.length_drop, Nat.add_assoc, Nat.add_sub_cancel' hbounded.stop_le] at hresumes
  exact ⟨resume, hboundary, hresumes⟩

/-- A failed statement is bounded. -/
theorem exists_recover (hordered : batch.IsOrdered) {i : Nat} {p : Piece} {behind : List Token}
    (h : batch.tokens.drop i = p.tokens ++ p.closing :: behind) (hbounded : p.IsBounded)
    (cause : SyntaxError.Cause) :
    ∃ resume, batch.recover false i p.first (.atToken cause p.stopped) =
        .ok (⟨batch.source, ⟨p.first.span.start, p.closing.span.start⟩,
          .error (.ofSyntaxError (.atToken cause p.stopped) p.first.span.start batch.index)⟩,
          resume) ∧
      Resumes i (i + p.tokens.length) p.closing resume := by
  have hclosing : p.closing ∈ batch.tokens :=
    List.mem_of_mem_drop (h ▸ List.mem_append_right p.tokens (.head _))
  obtain ⟨rest, hsplit⟩ := p.exists_eq_append_stopped behind
  -- The offending token is found by its offset, which no earlier token has.
  have hfind : (batch.tokens.drop i).findIdx? (fun t ↦ p.stopped.span.start ≤ t.span.start) =
      some p.stop := by
    have hincreasing := hordered.increasing.drop (i := i)
    rw [h, hsplit] at hincreasing ⊢
    rw [findIdx?_start hincreasing, hbounded.length_take]
  have hdrop : (batch.tokens.drop i).drop p.stop = p.tokens.drop p.stop ++ p.closing :: behind := by
    rw [h, List.drop_append_of_le_length hbounded.stop_le]
  obtain ⟨resume, hboundary, hresumes⟩ :=
    exists_boundary_of_isBounded hordered i behind hclosing hbounded
  refine ⟨resume, ?_, hresumes⟩
  simp only [recover, Bool.false_eq_true, if_false]
  split
  · rename_i hnone
    cases hnone.symm.trans hfind
  · rename_i found hsome
    obtain rfl : found = p.stop := Option.some.inj (hsome.symm.trans hfind)
    simp only [hdrop, hboundary]

/-- Reading stops at a token of the batch that does not stand in front of the piece. -/
theorem IsOrdered.stopped_within (hordered : batch.IsOrdered) {i : Nat} {p : Piece}
    {behind : List Token} (h : batch.tokens.drop i = p.tokens ++ p.closing :: behind) :
    p.first.span.start ≤ p.stopped.span.start ∧ p.stopped.span.stop ≤ batch.size := by
  obtain ⟨rest, hsplit⟩ := p.exists_eq_append_stopped behind
  have hmem : p.stopped ∈ batch.tokens.drop i := by
    rw [h, hsplit]
    simp
  refine ⟨?_, hordered.stop_le _ (List.mem_of_mem_drop hmem)⟩
  have hincreasing := hordered.increasing.drop (i := i)
  rw [h] at hincreasing hmem
  rcases List.mem_cons.1 hmem with heq | hmem
  · exact Nat.le_of_eq (by rw [heq])
  · exact Nat.le_of_lt (List.rel_of_pairwise_cons hincreasing hmem)

theorem step_eq (hordered : batch.IsOrdered) {i : Nat} {p : Piece} {behind : List Token}
    (h : batch.tokens.drop i = p.tokens ++ p.closing :: behind)
    (hread : p.IsRead behind) (hends : ∃ t ∈ p.closing :: behind, t.endsStatement) :
    ∃ resume, batch.step false i p.first = .ok (p.statement batch.index, resume) ∧
      Resumes i (i + p.tokens.length) p.closing resume := by
  obtain ⟨rest, hsplit⟩ := p.exists_eq_append_stopped behind
  have hattempt := hread.attempt
  rw [hsplit] at hattempt
  have hparse := parseFrom_of_drop (h.trans hsplit) (by rw [hattempt, hread.bounded.length_take])
  have hdialect : batch.dialect.parseFrom batch.source batch.tokens i =
      parseFrom batch.tokens i := by
    rw [hordered.dialect]
    rfl
  rw [step, hdialect, hparse, hattempt]
  cases hresult : p.result with
  | ok tree =>
    obtain ⟨hstop, hclosing⟩ := hread.stop_eq_of_isOk hends (by rw [hresult]; rfl)
    have hindex : batch.tokens.drop (i + p.tokens.length) = p.closing :: behind := by
      rw [← List.drop_drop, h, List.drop_left]
    simp only [Piece.statement, hresult, hstop, List.take_length, SyntaxError.earliest?]
    refine exists_accept hordered ?_ (getElem?_of_drop hindex) hclosing tree
    simp [Piece.tokens]
  | error cause =>
    simp only [Piece.statement, hresult, SyntaxError.earliest?]
    rw [if_neg]
    · exact exists_recover hordered h hread.bounded cause
    · obtain ⟨hstart, hstop⟩ := hordered.stopped_within h
      simp only [SyntaxError.atToken]
      omega

end Batch

/-- **Reading a batch answers with the pieces that its tokens split into.** -/
theorem Splits.statementsFrom_eq {batch : Batch} (hordered : batch.IsOrdered) {i : Nat}
    {ps : List Piece} (h : Splits (batch.tokens.drop i) ps) :
    batch.statementsFrom false i = .ok (ps.map (·.statement batch.index)) := by
  generalize htokens : batch.tokens.drop i = ts at h
  induction h generalizing i with
  | nil heof =>
    rw [Batch.statementsFrom_of_getElem? false (getElem?_of_drop htokens), if_pos heof]
    rfl
  | @skip t ts ps hsemicolon _ ih =>
    have hopen : t.isEof = false := Token.isEof_of_isSymbol hsemicolon
    have hterminator := (hordered.isTerminator_eq t).trans hsemicolon
    rw [Batch.statementsFrom_of_getElem? false (getElem?_of_drop htokens), hopen,
      if_neg Bool.false_ne_true, if_pos hterminator]
    exact ih (by rw [← List.drop_drop, htokens, List.drop_one, List.tail_cons])
  | @cons p behind ps hread hrest ih =>
    have hends := hrest.exists_endsStatement
    obtain ⟨hsemicolon, heof⟩ :=
      Token.endsStatement_eq_false_iff.1 (hread.endsStatement_eq_false hends p.first (.head _))
    have hterminator := (hordered.isTerminator_eq p.first).trans hsemicolon
    have hrest : batch.tokens.drop (i + p.tokens.length) = p.closing :: behind := by
      rw [← List.drop_drop, htokens, List.drop_left]
    -- The step answers with the piece, and goes on where the others start.
    obtain ⟨resume, hstep, hresumes⟩ := Batch.step_eq hordered htokens hread hends
    have hresult := hresumes.statementsFrom_eq hordered (getElem?_of_drop hrest)
      (p.statement batch.index)
    rw [ih hrest] at hresult
    rw [Batch.statementsFrom_of_getElem? false (getElem?_of_drop htokens), heof, hterminator,
      hstep]
    cases resume <;> exact hresult

end SqlBatch
