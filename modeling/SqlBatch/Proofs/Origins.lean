import SqlBatch.Proofs.Coverage
import SqlBatch.Proofs.Labels.Statement
import SqlBatch.Proofs.Reading

/-!
# Where the tree of a statement comes from

A statement of a batch that was read has its tree from the tokens in its span and from no others:
reading starts at the first of them and stops in front of the token that ends the statement
(`exists_isReadFrom`). So whatever a tree carries that is written in tokens is written in the span
of its statement.

## Four parts

`Statement.IsReadFrom` splits the tokens of the batch in four: those before the statement, those
inside, the one that closes it, and those behind. Later modules take the places of columns and the
numbers of placeholders from the tokens inside.

The split is taken from the pieces of the batch, where it is a matter of counting tokens. For a
reader of the batch the span is what can be seen of it, and the two agree: since tokens lie in
order, those inside are all the tokens that the span covers (`inside_eq_filter`).
-/

namespace SqlBatch

/-- A cursor behind some tokens has the others ahead. -/
@[simp] theorem Cursor.ahead_ofTokens (before ts : List Token) :
    (ofTokens (before ++ ts) before.length).ahead = ts :=
  List.drop_left

/-- An attempt that answers with a tree is clean. -/
theorem exists_run_of_parseFrom {tokens : List Token} {start : Nat} {tree : Command}
    (h : (parseFrom tokens start).tree = some tree) : ∃ after,
      Rule.terminatedStatement.run (.ofTokens tokens start) = .done tree after ∧
        parseFrom tokens start = ⟨some tree, [], after.position⟩ := by
  rw [parseFrom_eq, Rule.parse] at h ⊢
  generalize Rule.terminatedStatement.run (.ofTokens tokens start) = outcome at h
  rcases outcome with ⟨command, after⟩ | ⟨cause, after⟩
  · obtain rfl := Option.some.inj h
    exact ⟨after, rfl, rfl⟩
  · cases h

/-- The statement of a text has its tree from the tokens `inside`, and ends at the token behind
them. -/
structure Statement.IsReadFrom (s : Statement) (source : String) (tree : Command)
    (before inside : List Token) (closing : Token) (behind : List Token) : Prop where
  tokens_eq : tokenize source = before ++ (inside ++ closing :: behind)
  head?_eq : inside.head?.map (·.span.start) = some s.span.start
  start_closing : closing.span.start = s.span.stop
  endsStatement_inside : ∀ t ∈ inside, t.endsStatement = false
  endsStatement_closing : closing.endsStatement
  attempt : parseFrom (tokenize source) before.length =
    ⟨some tree, [], before.length + inside.length⟩

/-- **Every tree of a batch is read from the tokens of its statement.** -/
theorem exists_isReadFrom {source : String} {statements : List Statement}
    (h : parseBatch source false = .ok statements) {s : Statement} (hs : s ∈ statements)
    {tree : Command} (htree : s.tree? = some tree) :
    ∃ before inside closing behind, s.IsReadFrom source tree before inside closing behind := by
  obtain ⟨ps, hps⟩ := exists_splits_tokenize source
  obtain rfl := Except.ok.inj ((parseBatch_of_splits hps).symm.trans h)
  obtain ⟨p, hp, rfl⟩ := List.mem_map.1 hs
  have hresult := Piece.tree?_statement_eq_some.1 htree
  obtain ⟨before, behind, htokens, hread, hends⟩ := hps.isRead_of_mem hp
  obtain ⟨hstop, hclosing⟩ := hread.stop_eq_of_isOk hends (by rw [hresult]; rfl)
  refine ⟨before, p.tokens, p.closing, behind, htokens, rfl, rfl,
    hread.endsStatement_eq_false hends, hclosing, ?_⟩
  have hdrop : (tokenize source).drop before.length = p.tokens ++ p.closing :: behind := by
    rw [htokens, List.drop_left]
  have hattempt := hread.attempt
  rw [parseFrom_of_drop hdrop ((congrArg Prod.snd hattempt).trans hstop), hattempt, hresult]

namespace Statement.IsReadFrom

variable {s : Statement} {source : String} {tree : Command} {before inside behind : List Token}
  {closing : Token}

theorem exists_first (h : s.IsReadFrom source tree before inside closing behind) :
    ∃ first more, inside = first :: more ∧ first.span.start = s.span.start := by
  have hhead := h.head?_eq
  rcases inside with _ | ⟨first, more⟩
  · cases hhead
  · exact ⟨first, more, rfl, Option.some.inj hhead⟩

theorem ahead_ofTokens (h : s.IsReadFrom source tree before inside closing behind) :
    (Cursor.ofTokens (tokenize source) before.length).ahead = inside ++ closing :: behind :=
  h.tokens_eq ▸ Cursor.ahead_ofTokens before _

/-- The tokens of the batch lie in order. -/
theorem inOrder (h : s.IsReadFrom source tree before inside closing behind) :
    InOrder (before ++ (inside ++ closing :: behind)) :=
  h.tokens_eq ▸ inOrder_tokenize source

theorem inOrder_inside (h : s.IsReadFrom source tree before inside closing behind) :
    InOrder (inside ++ closing :: behind) :=
  h.inOrder.of_append

/-- The statement covers the tokens that it is read from. -/
theorem covers (h : s.IsReadFrom source tree before inside closing behind) :
    ∀ t ∈ inside, s.span.Covers t.span := by
  intro t ht
  have horder := h.inOrder_inside
  refine ⟨?_, h.start_closing ▸ horder.stop_le_start t ht _ (.head _)⟩
  obtain ⟨first, more, rfl, hfirst⟩ := h.exists_first
  exact hfirst ▸ horder.left.start_le t ht

/-- It covers none in front of them. -/
theorem not_covers_before (h : s.IsReadFrom source tree before inside closing behind) :
    ∀ t ∈ before, t.endsStatement = false → ¬ s.span.Covers t.span := by
  intro t ht hopen hcovers
  have horder := h.inOrder
  obtain ⟨first, more, rfl, hfirst⟩ := h.exists_first
  have hle := horder.stop_le_start t ht first (.head _)
  have hlt := horder.start_lt_stop t (List.mem_append_left _ ht)
    (Token.isEof_eq_false hopen)
  have := hcovers.1
  omega

/-- It covers none behind them. -/
theorem not_covers_behind (h : s.IsReadFrom source tree before inside closing behind) :
    ∀ t ∈ closing :: behind, t.endsStatement = false → ¬ s.span.Covers t.span := by
  intro t ht hopen hcovers
  have horder := h.inOrder_inside.of_append
  have hlt := horder.start_lt_stop t ht (Token.isEof_eq_false hopen)
  have hle := horder.start_le t ht
  have := hcovers.2
  have := h.start_closing
  omega

/-- **The statement is read from all the tokens that it covers.** -/
theorem inside_eq_filter (h : s.IsReadFrom source tree before inside closing behind) :
    inside = (tokenize source).filter fun t ↦ !t.endsStatement && s.span.Covers t.span := by
  have hnone {ts : List Token}
      (hts : ∀ t ∈ ts, t.endsStatement = false → ¬ s.span.Covers t.span) :
      ts.filter (fun t ↦ !t.endsStatement && s.span.Covers t.span) = [] := by
    refine List.filter_eq_nil_iff.2 fun t ht ↦ ?_
    simpa using hts t ht
  have hall : inside.filter (fun t ↦ !t.endsStatement && s.span.Covers t.span) = inside :=
    List.filter_eq_self.2 fun t ht ↦ by simp [h.endsStatement_inside t ht, h.covers t ht]
  rw [h.tokens_eq, List.filter_append, List.filter_append, hnone h.not_covers_before, hall,
    hnone h.not_covers_behind, List.nil_append, List.append_nil]

end Statement.IsReadFrom

end SqlBatch
