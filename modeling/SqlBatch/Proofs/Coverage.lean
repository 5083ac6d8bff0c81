import SqlBatch.Proofs.ParseBatch

/-!
# Statements cover a batch

Reading goes on behind a failed statement without leaving anything out or reading anything twice:
the statements of a batch lie one behind the other, and every token of the batch that does not end a
statement lies in exactly one of them.

## The two steps

`Covering` states it of a list of tokens and the statements that are read of them, in the way in
which these are made: tokens that stand between statements are skipped (`Covering.skip`), and a
piece adds its statement to those behind it (`Covering.cons`). The theorem on batches is an
induction on the pieces with these two steps.

## Exactly one

A token is covered by a span or it is not, and the statements that cover it are counted. The count
of a token of the first piece is one from its own statement and none from the others, which start
behind it; and a token further on is behind the end of the first statement. That tokens lie in order
and take up room (`InOrder`) is all that is needed of them.
-/

namespace SqlBatch

/-- One span lies inside another. -/
def Span.Covers (s t : Span) : Prop :=
  s.start ≤ t.start ∧ t.stop ≤ s.stop

instance (s t : Span) : Decidable (s.Covers t) :=
  inferInstanceAs (Decidable (_ ∧ _))

/-- One statement follows on another: behind a semicolon, or else at the keyword where reading went
on after the first one failed. -/
def Follows (tokens : List Token) (s u : Statement) : Prop :=
  (∃ t ∈ tokens, t.isSymbol .semicolon ∧ s.span.stop ≤ t.span.start ∧ t.span.stop ≤ u.span.start) ∨
    (s.isOk = false ∧ u.span.start = s.span.stop ∧
      ∃ t ∈ tokens, t.span.start = u.span.start ∧ t.startsStatement)

/-- The statements of a batch cover its tokens. -/
structure Covering (tokens : List Token) (statements : List Statement) : Prop where
  covered_once : ∀ t ∈ tokens, t.endsStatement = false →
    statements.countP (fun s ↦ s.span.Covers t.span) = 1
  semicolon_outside : ∀ t ∈ tokens, t.isSymbol .semicolon → ∀ s ∈ statements,
    t.span.stop ≤ s.span.start ∨ s.span.stop ≤ t.span.start
  start_lt_stop : ∀ s ∈ statements, s.span.start < s.span.stop
  increasing : statements.Pairwise fun s u ↦ s.span.stop ≤ u.span.start
  follows : ∀ before s u behind, statements = before ++ s :: u :: behind → Follows tokens s u
  error_failed : ∀ t ∈ tokens, t.isError → ∃ s ∈ statements, s.isOk = false ∧ s.span.Covers t.span

/-- A statement follows another one also where there are more tokens. -/
theorem Follows.mono {ts us : List Token} {s u : Statement} (h : Follows ts s u)
    (hsubset : ts ⊆ us) : Follows us s u := by
  rcases h with ⟨t, ht, h⟩ | ⟨hfailed, hstart, t, ht, h⟩
  · exact .inl ⟨t, hsubset ht, h⟩
  · exact .inr ⟨hfailed, hstart, t, hsubset ht, h⟩

namespace Covering

variable {ts behind : List Token} {statements : List Statement} {t : Token}

/-- The end of a batch has no statements. -/
theorem nil (heof : t.isEof) : Covering [t] [] where
  covered_once u hu hopen := by
    cases List.mem_singleton.1 hu
    simp [Token.endsStatement, heof] at hopen
  semicolon_outside _ _ _ s hs := nomatch hs
  start_lt_stop s hs := nomatch hs
  increasing := .nil
  follows before s u behind h := by simp at h
  error_failed u hu herror := by
    cases List.mem_singleton.1 hu
    rw [Token.isEof, beq_iff_eq] at heof
    simp [Token.isError, heof] at herror

/-- A semicolon in front of all statements is in none. -/
theorem skip (h : Covering ts statements) (hsemicolon : t.isSymbol .semicolon)
    (hbefore : ∀ s ∈ statements, t.span.stop ≤ s.span.start) : Covering (t :: ts) statements where
  covered_once u hu hopen := by
    rcases List.mem_cons.1 hu with rfl | hu
    · simp [Token.endsStatement, hsemicolon] at hopen
    · exact h.covered_once u hu hopen
  semicolon_outside u hu hu' s hs := by
    rcases List.mem_cons.1 hu with rfl | hu
    · exact .inl (hbefore s hs)
    · exact h.semicolon_outside u hu hu' s hs
  start_lt_stop := h.start_lt_stop
  increasing := h.increasing
  follows before s u behind hsplit :=
    (h.follows before s u behind hsplit).mono (List.subset_cons_self t ts)
  error_failed u hu herror := by
    rcases List.mem_cons.1 hu with rfl | hu
    · rw [Token.isSymbol, beq_iff_eq] at hsemicolon
      simp [Token.isError, hsemicolon] at herror
    · exact h.error_failed u hu herror

/-- A statement in front of the others covers the tokens in front of theirs. -/
theorem cons {us : List Token} {s : Statement} (h : Covering us statements)
    (horder : InOrder (ts ++ us)) (hends : ∀ t ∈ ts, t.endsStatement = false)
    (hcovers : ∀ t ∈ ts, s.span.Covers t.span) (hs : s.span.start < s.span.stop)
    (hbehind : ∀ t ∈ us, s.span.stop ≤ t.span.start)
    (hothers : ∀ u ∈ statements, s.span.stop ≤ u.span.start)
    (hfollows : ∀ u ∈ statements.head?, Follows (ts ++ us) s u)
    (herror : ∀ t ∈ ts, t.isError → s.isOk = false) : Covering (ts ++ us) (s :: statements) where
  covered_once t ht hopen := by
    have hlt := horder.start_lt_stop t ht (Token.isEof_eq_false hopen)
    rw [List.countP_cons]
    rcases List.mem_append.1 ht with ht | ht
    · -- The others start behind this one, so none of them covers the token again.
      have hnone : statements.countP (fun u ↦ u.span.Covers t.span) = 0 := by
        refine List.countP_eq_zero.2 fun u hu hcover ↦ ?_
        have := (of_decide_eq_true hcover).1
        have := hothers u hu
        have := (hcovers t ht).2
        omega
      rw [hnone, if_pos (decide_eq_true (hcovers t ht))]
    · rw [h.covered_once t ht hopen, if_neg]
      intro hcover
      have := (of_decide_eq_true hcover).2
      have := hbehind t ht
      omega
  semicolon_outside t ht hsemicolon u hu := by
    rcases List.mem_append.1 ht with ht | ht
    · have := hends t ht
      simp [Token.endsStatement, hsemicolon] at this
    · rcases List.mem_cons.1 hu with rfl | hu
      · exact .inr (hbehind t ht)
      · exact h.semicolon_outside t ht hsemicolon u hu
  start_lt_stop := List.forall_mem_cons.2 ⟨hs, h.start_lt_stop⟩
  increasing := .cons hothers h.increasing
  follows before u v behind hsplit := by
    -- The pair is this statement and the next one, or a pair further on.
    cases before with
    | nil =>
      obtain ⟨rfl, rfl⟩ := List.cons.inj hsplit
      exact hfollows v rfl
    | cons first before =>
      obtain ⟨-, hsplit⟩ := List.cons.inj hsplit
      exact (h.follows before u v behind hsplit).mono (List.subset_append_right ts us)
  error_failed t ht hfailed := by
    rcases List.mem_append.1 ht with ht | ht
    · exact ⟨s, .head _, herror t ht hfailed, hcovers t ht⟩
    · obtain ⟨u, hu, hcover⟩ := h.error_failed t ht hfailed
      exact ⟨u, .tail _ hu, hcover⟩

end Covering

namespace Splits

variable {ts behind : List Token} {ps : List Piece} {p q : Piece}

/-- Every piece starts with one of the tokens. -/
theorem first_mem (h : Splits ts ps) : ∀ p ∈ ps, p.first ∈ ts := by
  induction h with
  | nil => simp
  | skip _ _ ih => exact fun p hp ↦ .tail _ (ih p hp)
  | cons _ _ ih =>
    refine List.forall_mem_cons.2 ⟨List.mem_append_left _ (.head _), ?_⟩
    intro p hp
    exact List.mem_append_right _ (ih p hp)

/-- The next piece starts behind the closing semicolon, or with the keyword that closes a failed
statement. -/
theorem follows (hread : p.IsRead behind) (h : Splits (p.closing :: behind) (q :: ps))
    (horder : InOrder (p.closing :: behind)) (index : LineIndex) :
    Follows (p.closing :: behind) (p.statement index) (q.statement index) := by
  have hends := h.exists_endsStatement
  generalize htokens : p.closing :: behind = ts at h
  -- A semicolon stands between both, or the second starts where the first is closed.
  cases h with
  | skip hsemicolon hrest =>
    obtain ⟨rfl, rfl⟩ := List.cons.inj htokens
    have hmem := hrest.first_mem q (.head _)
    exact .inl ⟨p.closing, .head _, hsemicolon, Nat.le_refl _,
      List.rel_of_pairwise_cons horder.pairwise hmem⟩
  | cons hq hrest =>
    obtain ⟨hfirst, -⟩ := List.cons.inj htokens
    have hclosing : p.closing.endsStatement = false := by
      rw [hfirst]
      exact hq.endsStatement_eq_false hrest.exists_endsStatement q.first (.head _)
    rw [← htokens]
    refine .inr ⟨?_, by simp [hfirst], p.closing, .head _, by simp [hfirst], ?_⟩
    · rw [Piece.isOk_statement, Bool.eq_false_iff]
      intro hok
      rw [(hread.stop_eq_of_isOk hends hok).2] at hclosing
      cases hclosing
    · cases hread.bounded with
      | atEnd _ hcloses =>
        rw [hcloses] at hclosing
        cases hclosing
      | beyond _ _ _ hboundary =>
        rw [hclosing] at hboundary
        exact hboundary.resolve_left Bool.false_ne_true

/-- **The pieces of tokens in order cover them.** -/
theorem covering (h : Splits ts ps) (horder : InOrder ts) (index : LineIndex) :
    Covering ts (ps.map (·.statement index)) := by
  induction h with
  | nil heof => exact .nil heof
  | @skip t ts ps hsemicolon hrest ih =>
    have hparts : InOrder ([t] ++ ts) := horder
    refine (ih hparts.of_append).skip hsemicolon fun s hs ↦ ?_
    obtain ⟨p, hp, rfl⟩ := List.mem_map.1 hs
    exact hparts.stop_le_start t (.head _) _ (hrest.first_mem p hp)
  | @cons p behind ps hread hrest ih =>
    have hends := hrest.exists_endsStatement
    have hopen := hread.endsStatement_eq_false hends
    have hbefore : ∀ t ∈ p.tokens, t.span.stop ≤ p.closing.span.start :=
      fun t ht ↦ horder.stop_le_start t ht _ (.head _)
    have hclosing := horder.of_append.start_le
    refine (ih horder.of_append).cons horder hopen ?_ ?_ hclosing ?_ ?_ ?_
    · exact fun t ht ↦ ⟨horder.left.start_le t ht, hbefore t ht⟩
    · have heof := Token.isEof_eq_false (hopen p.first (.head _))
      exact Nat.lt_of_lt_of_le (horder.start_lt_stop p.first (.head _) heof)
        (hbefore p.first (.head _))
    · intro u hu
      obtain ⟨q, hq, rfl⟩ := List.mem_map.1 hu
      exact hclosing _ (hrest.first_mem q hq)
    · intro u hu
      rw [List.head?_map] at hu
      obtain ⟨q, hq, rfl⟩ := Option.map_eq_some_iff.1 hu
      obtain ⟨qs, rfl⟩ := List.head?_eq_some_iff.1 hq
      exact (follows hread hrest horder.of_append index).mono (List.subset_append_right _ _)
    · -- A piece with a token that is an error was not read to its end.
      intro t ht herror
      rw [Piece.isOk_statement, Bool.eq_false_iff]
      intro hok
      have hstop := (hread.stop_eq_of_isOk hends hok).1
      have := (hread.passes hends).1 t (by rwa [hstop, List.take_length])
      simp [Token.isOpen, herror] at this

end Splits

/-- **The statements of a batch cover it.** -/
theorem parseBatch_covering (source : String) : ∃ statements,
    parseBatch source false = .ok statements ∧ Covering (tokenize source) statements := by
  obtain ⟨ps, hps⟩ := exists_splits_tokenize source
  exact ⟨_, parseBatch_of_splits hps, hps.covering (inOrder_tokenize source) _⟩

end SqlBatch
