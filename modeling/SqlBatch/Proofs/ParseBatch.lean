import SqlBatch.Proofs.Lexing.Reads
import SqlBatch.Proofs.Splitting

/-!
# Reading the text of a batch

Reading a batch in the built-in dialect always succeeds when errors are collected, with the
statements of the pieces that the tokens of the batch split into (`parseBatch_of_splits`).

## What has to be known of the tokens

* They lie in order (`inOrder_tokenize`): no token stops behind the start of a later one, and all
  but the end of the batch take up room.
* The end of the batch stands behind all others and nowhere else (`tokenize_eq_append`), so the
  batch is not refused, and every token in front of it has one behind it.

Such tokens split into pieces in one way (`exists_splits_tokenize`). Later modules read a batch
through its pieces, and never step by step.
-/

namespace SqlBatch

/-- A text as a batch of the built-in dialect. -/
def Batch.ofSource (source : String) : Batch :=
  ⟨.crateDb, .ofSource source, tokenize source⟩

/-- The last token is the end of the batch, and no other one is. -/
theorem tokenize_eq_append (source : String) : ∃ ts,
    tokenize source = ts ++ [.eofAt (byteLength source.toList)] ∧ ∀ t ∈ ts, t.isEof = false := by
  obtain ⟨ts, htokens, hts⟩ := Lexer.exists_eofAt (.ofSource source)
  exact ⟨ts, by rw [tokenize, htokens, Lexer.ofSource, Nat.zero_add], hts⟩

/-- The end of a text is the only token that is the end of a batch. -/
theorem eq_eofAt_of_mem_tokenize {source : String} {t : Token} (h : t ∈ tokenize source)
    (heof : t.isEof) : t = .eofAt (byteLength source.toList) := by
  obtain ⟨ts, htokens, hts⟩ := tokenize_eq_append source
  rw [htokens, List.mem_append, List.mem_singleton] at h
  refine h.resolve_left fun ht ↦ ?_
  rw [hts t ht] at heof
  cases heof

/-- Another token stands behind every other one. -/
theorem exists_next_of_tokenize {source : String} {before behind : List Token} {t : Token}
    (h : tokenize source = before ++ t :: behind) (hopen : t.isEof = false) :
    ∃ next rest, behind = next :: rest := by
  cases behind with
  | nil =>
    obtain ⟨ts, htokens, -⟩ := tokenize_eq_append source
    obtain ⟨-, hlast⟩ := List.append_inj' (h.symm.trans htokens) rfl
    rw [List.singleton_inj.1 hlast] at hopen
    cases hopen
  | cons next rest => exact ⟨next, rest, rfl⟩

/-- Tokens that lie one behind the other, of which only the end of the batch may be empty. -/
structure InOrder (ts : List Token) : Prop where
  pairwise : ts.Pairwise fun t u ↦ t.span.stop ≤ u.span.start
  start_le_stop : ∀ t ∈ ts, t.span.start ≤ t.span.stop
  start_lt_stop : ∀ t ∈ ts, t.isEof = false → t.span.start < t.span.stop

namespace InOrder

variable {t : Token} {ts us : List Token}

/-- The first part of tokens that lie in order. -/
theorem left (h : InOrder (ts ++ us)) : InOrder ts where
  pairwise := (List.pairwise_append.1 h.pairwise).1
  start_le_stop t ht := h.start_le_stop t (List.mem_append_left us ht)
  start_lt_stop t ht := h.start_lt_stop t (List.mem_append_left us ht)

/-- The second part of tokens that lie in order. -/
theorem of_append (h : InOrder (ts ++ us)) : InOrder us where
  pairwise := (List.pairwise_append.1 h.pairwise).2.1
  start_le_stop t ht := h.start_le_stop t (List.mem_append_right ts ht)
  start_lt_stop t ht := h.start_lt_stop t (List.mem_append_right ts ht)

/-- A token of the first part stops before one of the second starts. -/
theorem stop_le_start (h : InOrder (ts ++ us)) :
    ∀ t ∈ ts, ∀ u ∈ us, t.span.stop ≤ u.span.start :=
  (List.pairwise_append.1 h.pairwise).2.2

/-- No token starts before the first one. -/
theorem start_le (h : InOrder (t :: ts)) : ∀ u ∈ t :: ts, t.span.start ≤ u.span.start := by
  refine List.forall_mem_cons.2 ⟨Nat.le_refl _, fun u hu ↦ ?_⟩
  exact Nat.le_trans (h.start_le_stop t (.head _)) (List.rel_of_pairwise_cons h.pairwise hu)

/-- No token ends before the first one. -/
theorem stop_le (h : InOrder (t :: ts)) : ∀ u ∈ t :: ts, t.span.stop ≤ u.span.stop := by
  refine List.forall_mem_cons.2 ⟨Nat.le_refl _, fun u hu ↦ ?_⟩
  exact Nat.le_trans (List.rel_of_pairwise_cons h.pairwise hu) (h.start_le_stop u (.tail _ hu))

end InOrder

/-- The tokens of a text lie in order. -/
theorem inOrder_tokenize (source : String) : InOrder (tokenize source) where
  pairwise := Lexer.pairwise_tokens (.ofSource source)
  start_le_stop t ht := by
    obtain ⟨ts, htokens, hts⟩ := tokenize_eq_append source
    have hlast := ht
    rw [htokens, List.mem_append, List.mem_singleton] at hlast
    rcases hlast with hmem | rfl
    · exact Nat.le_of_lt ((Lexer.span_of_mem_tokens ht).2 (hts t hmem))
    · exact Nat.le_refl _
  start_lt_stop _ ht := (Lexer.span_of_mem_tokens ht).2

/-- Only the end of the batch takes no characters. -/
theorem isEmpty_span_of_mem_tokenize {source : String} {t : Token} (h : t ∈ tokenize source) :
    t.span.isEmpty = t.isEof := by
  cases heof : t.isEof with
  | true =>
    rw [eq_eofAt_of_mem_tokenize h heof]
    simp [Token.eofAt, Span.isEmpty, Span.point]
  | false =>
    have := (inOrder_tokenize source).start_lt_stop t h heof
    simp only [Span.isEmpty, beq_eq_false_iff_ne]
    omega

/-- No token goes past the text. -/
theorem stop_le_of_mem_tokenize {source : String} {t : Token} (h : t ∈ tokenize source) :
    t.span.stop ≤ byteLength source.toList := by
  have := (Lexer.span_of_mem_tokens h).1
  rwa [Lexer.ofSource, Nat.zero_add] at this

/-- The batch of a text has its tokens in order. -/
theorem Batch.isOrdered_ofSource (source : String) : (Batch.ofSource source).IsOrdered := by
  obtain ⟨ts, htokens, hts⟩ := tokenize_eq_append source
  have horder := inOrder_tokenize source
  refine ⟨rfl, ?_, fun t ht ↦ stop_le_of_mem_tokenize ht, fun t ht heof ↦ ?_⟩
  · have hstart {t u : Token} (ht : t ∈ ts) (hle : t.span.stop ≤ u.span.start) :
        t.span.start < u.span.start := by
      have hlt := horder.start_lt_stop t (htokens ▸ List.mem_append_left _ ht) (hts t ht)
      exact Nat.lt_of_lt_of_le hlt hle
    have hpairwise := horder.pairwise
    show (tokenize source).Pairwise _
    rw [htokens, List.pairwise_append] at hpairwise ⊢
    obtain ⟨hopen, -, hlast⟩ := hpairwise
    exact ⟨hopen.imp_of_mem fun ht _ ↦ hstart ht, List.pairwise_singleton _ _,
      fun t ht u hu ↦ hstart ht (hlast t ht u hu)⟩
  · rw [eq_eofAt_of_mem_tokenize ht heof]
    rfl

/-- Every text is a batch of the built-in dialect. -/
theorem open?_crateDb (source : String) :
    Batch.open? .crateDb source = .ok (.ofSource source) := by
  obtain ⟨ts, htokens, hts⟩ := tokenize_eq_append source
  have hfind : (tokenize source).findIdx? (·.isEof) = some ts.length := by
    have hnone : ts.findIdx? (·.isEof) = none := List.findIdx?_eq_none_iff.2 hts
    rw [htokens, List.findIdx?_append, hnone]
    simp [Token.eofAt, Token.isEof]
  have hlength : ts.length + 1 = (tokenize source).length := by
    rw [htokens, List.length_append, List.length_singleton]
  simp only [Batch.open?, Dialect.crateDb, hfind, hlength, if_true]
  rfl

/-- The statements of a batch are those of its pieces. -/
theorem parseBatch_of_splits {source : String} {ps : List Piece}
    (h : Splits (tokenize source) ps) :
    parseBatch source false = .ok (ps.map (·.statement (.ofSource source))) := by
  rw [parseBatch, Configuration.parse, open?_crateDb]
  exact Splits.statementsFrom_eq (Batch.isOrdered_ofSource source) (i := 0) h

/-- **Every batch splits.** -/
theorem exists_splits_tokenize (source : String) : ∃ ps, Splits (tokenize source) ps := by
  obtain ⟨ts, htokens, hts⟩ := tokenize_eq_append source
  rw [htokens]
  exact exists_splits hts rfl

end SqlBatch
