import SqlBatch.Proofs.Stages

/-!
# What rules answer with

`Rule.YieldsOn` says that a rule answers with nothing but values of some kind where it is given
tokens of some kind to read, and `Rule.Yields` that it does so whatever it is given. Failures are
left aside: a rule that always fails yields values of any kind.

## One law for each form

Rules are made of few forms, and for each there is one law: what a sequence, a repetition or a list
answers with follows from what its parts answer with. A sequence whose first part does not matter
has a law of its own (`bind_any`), and so has one that starts by looking at the current token
(`YieldsOn.bind_current`), since that is where the kind of the tokens comes in.

A repetition is the one form that needs an induction. It is on the run, and its invariant is that
the value carried from round to round is of the kind in question (`YieldsOn.iterate`).

The laws are proved of `YieldsOn`, of which `Yields` is a case (`yields_iff`).
-/

namespace SqlBatch.Rule

variable {α β : Type}

/-! ### Taking runs apart -/

/-- A sequence that answers went through an answer of its first part. -/
theorem exists_of_run_bind {r : Rule α} {k : α → Rule β} {c after : Cursor} {b : β}
    (h : (r >>= k).run c = .done b after) :
    ∃ a mid, r.run c = .done a mid ∧ (k a).run mid = .done b after := by
  rw [run_bind] at h
  split at h
  · rename_i a mid hrun
    exact ⟨a, mid, hrun, h⟩
  · cases h

/-- A value that is made of another one comes from an answer with that other one. -/
theorem exists_of_run_map {r : Rule α} {f : α → β} {c after : Cursor} {b : β}
    (h : (f <$> r).run c = .done b after) : ∃ a, r.run c = .done a after ∧ f a = b := by
  rw [map_eq_bind] at h
  obtain ⟨a, mid, hrun, hpure⟩ := exists_of_run_bind h
  cases hpure
  exact ⟨a, hrun, rfl⟩

/-- What accepting a symbol answers, and where it stops, in one equation. -/
theorem run_accept (symbol : Symbol) (c : Cursor) :
    (accept symbol).run c =
      .done (c.current.isSymbol symbol) (if c.current.isSymbol symbol then c.advance else c) := by
  rw [accept, run_bind, run_sees]
  cases c.current.isSymbol symbol <;> rfl

/-- What accepting a keyword answers, and where it stops, in one equation. -/
theorem run_acceptKeyword (keyword : Keyword) (c : Cursor) :
    (acceptKeyword keyword).run c =
      .done (c.current.isKeyword keyword)
        (if c.current.isKeyword keyword then c.advance else c) := by
  rw [acceptKeyword, run_bind, run_seesKeyword]
  cases c.current.isKeyword keyword <;> rfl

/-- A name that is read is the name of the token that was passed. -/
theorem of_run_identifier {c after : Cursor} {name : String}
    (h : identifier.run c = .done name after) :
    c.current.name? = some name ∧ after = c.advance := by
  rw [identifier, run_bind, run_current] at h
  simp only at h
  split at h
  · rename_i name' hname
    cases h
    exact ⟨hname, rfl⟩
  · cases h

/-- **An invariant of a repetition.** Where every round moves forward, the repetition ends with a
round that has no new value. -/
theorem of_run_iterate {step : α → Rule (Option α)} {I : α → Cursor → Prop}
    (hstep : ∀ ⦃a c b after⦄, I a c → (step a).run c = .done (some b) after →
      I b after ∧ c.position < after.position)
    {a b : α} {c after : Cursor} (hI : I a c) (h : (iterate step a).run c = .done b after) :
    ∃ c, I b c ∧ (step b).run c = .done none after := by
  change iterateFrom step a c = _ at h
  fun_induction iterateFrom step a c with
  | case1 => cases h
  | case2 a c after' hrun =>
    cases h
    exact ⟨c, hI, hrun⟩
  | case3 a c b' after' hrun _ ih => exact ih (hstep hI hrun).1 h
  | case4 a c b' after' hrun hlt => exact absurd (hstep hI hrun).2 hlt

/-! ### Values that rules answer with on tokens of a kind -/

/-- The rule answers with values of a kind alone, where all tokens ahead are of a kind. -/
def YieldsOn (T : Token → Prop) (r : Rule α) (P : α → Prop) : Prop :=
  ∀ ⦃c a after⦄, (∀ t ∈ c.ahead, T t) → r.run c = .done a after → P a

/-- What is ahead of a rule that has been run was ahead of it before. -/
theorem forall_ahead_of_run {T : Token → Prop} {r : Rule α} {c after : Cursor} {a : α}
    (hT : ∀ t ∈ c.ahead, T t) (h : r.run c = .done a after) : ∀ t ∈ after.ahead, T t := by
  obtain ⟨passed, hahead, -⟩ := (reaches_of_run h).exists_passed
  intro t ht
  exact hT t (hahead ▸ List.mem_append_right passed ht)

namespace YieldsOn

variable {T : Token → Prop} {P : α → Prop} {Q : β → Prop} {r s : Rule α}

/-- What holds of the tokens ahead is passed on to what is parsed of a whole list. -/
theorem of_parse (h : r.YieldsOn T P) {tokens : List Token} (hT : ∀ t ∈ tokens, T t) {start : Nat}
    {a : α} (hparse : (r.parse (.ofTokens tokens start)).1 = .ok a) : P a := by
  rw [Rule.parse] at hparse
  split at hparse
  · rename_i a' after hrun
    obtain rfl := Except.ok.inj hparse
    exact h (fun t ht ↦ hT t (List.mem_of_mem_drop ht)) hrun
  · cases hparse

theorem any (r : Rule α) : r.YieldsOn T fun _ ↦ True :=
  fun _ _ _ _ _ ↦ trivial

/-- Values of a kind are of any kind that it implies. -/
theorem mono {P' : α → Prop} (h : r.YieldsOn T P) (himp : ∀ a, P a → P' a) : r.YieldsOn T P' :=
  fun _ _ _ hT hrun ↦ himp _ (h hT hrun)

protected theorem pure {a : α} (h : P a) : (pure a : Rule α).YieldsOn T P := by
  rintro c a after - ⟨⟩
  exact h

theorem fail {cause : SyntaxError.Cause} : (Rule.fail cause : Rule α).YieldsOn T P := by
  rintro c a after - ⟨⟩

/-- **Sequences.** The second part may rely on what the first one answers with. -/
protected theorem bind {k : α → Rule β} (hr : r.YieldsOn T P)
    (hk : ∀ a, P a → (k a).YieldsOn T Q) : (r >>= k).YieldsOn T Q := by
  intro c b after hT hrun
  obtain ⟨a, mid, hfirst, hrest⟩ := exists_of_run_bind hrun
  exact hk a (hr hT hfirst) (forall_ahead_of_run hT hfirst) hrest

/-- Going on behind a value of which nothing is to be known. -/
theorem bind_any {k : α → Rule β} (hk : ∀ a, (k a).YieldsOn T Q) : (r >>= k).YieldsOn T Q :=
  (any r).bind fun a _ ↦ hk a

/-- The current token is one of those ahead, or else the end of the batch. -/
theorem bind_current {k : Token → Rule β}
    (hk : ∀ t, (t.isEof = false → T t) → (k t).YieldsOn T Q) :
    (current >>= k).YieldsOn T Q := by
  intro c b after hT hrun
  refine hk c.current (fun hopen ↦ ?_) hT hrun
  rcases hahead : c.ahead with _ | ⟨token, rest⟩
  · rw [Cursor.current, hahead] at hopen
    cases hopen
  · rw [Cursor.current, hahead]
    exact hT token (hahead ▸ .head rest)

/-- What is made of a value of the kind. -/
protected theorem map {f : α → β} (hr : r.YieldsOn T P) (hf : ∀ a, P a → Q (f a)) :
    (f <$> r).YieldsOn T Q := by
  rw [map_eq_bind]
  exact hr.bind fun a ha ↦ .pure (hf a ha)

protected theorem ite {p : Prop} [Decidable p] (hr : r.YieldsOn T P) (hs : s.YieldsOn T P) :
    (if p then r else s).YieldsOn T P := by
  split
  · exact hr
  · exact hs

/-- **Repetitions.** A kind that every round keeps, from the first value on. -/
protected theorem iterate {step : α → Rule (Option α)} {a : α} (ha : P a)
    (hstep : ∀ a, P a → (step a).YieldsOn T fun b ↦ ∀ b' ∈ b, P b') :
    (iterate step a).YieldsOn T P := by
  intro c b after hT hrun
  change iterateFrom step a c = _ at hrun
  fun_induction iterateFrom step a c with
  | case1 => cases hrun
  | case2 a c after' h =>
    cases hrun
    exact ha
  | case3 a c b' after' h _ ih => exact ih (hstep a ha hT h b' rfl) (forall_ahead_of_run hT h) hrun
  | case4 a c b' after' h _ =>
    cases hrun
    exact hstep a ha hT h _ rfl

/-! ### Clauses and lists -/

theorem some (h : r.YieldsOn T P) : (Option.some <$> r).YieldsOn T fun a ↦ ∀ a' ∈ a, P a' :=
  h.map fun _ ha _ heq ↦ Option.some.inj heq ▸ ha

/-- A clause answers with a value of the kind or with none. -/
theorem clause (keyword : Keyword) (h : r.YieldsOn T P) :
    (Rule.clause keyword r).YieldsOn T fun a ↦ ∀ a' ∈ a, P a' :=
  .bind_any fun _ ↦ .ite h.some (.pure fun _ hnone ↦ nomatch hnone)

/-- A clause that is left out has no items, so there is nothing to ask of them. -/
theorem listClause (keyword : Keyword) {r : Rule (List α)}
    (h : r.YieldsOn T fun as ↦ ∀ a ∈ as, P a) :
    (Rule.listClause keyword r).YieldsOn T fun as ↦ ∀ a ∈ as, P a := by
  refine (clause keyword h).bind fun items hitems ↦ .pure ?_
  rcases items with _ | items
  · exact fun a ha ↦ nomatch ha
  · exact hitems items rfl

/-- All items of a list are of the kind that one is. -/
theorem many {r : Rule (Option α)} (h : r.YieldsOn T fun a ↦ ∀ a' ∈ a, P a') :
    (Rule.many r).YieldsOn T fun as ↦ ∀ a ∈ as, P a := by
  have hround (items : List α) (hitems : ∀ a ∈ items, P a) :
      (Option.map (· :: items) <$> r).YieldsOn T
        fun items? ↦ ∀ items ∈ items?, ∀ a ∈ items, P a := by
    refine h.map fun item hitem items' hmap ↦ ?_
    obtain ⟨a, rfl, rfl⟩ := Option.map_eq_some_iff.1 hmap
    exact List.forall_mem_cons.2 ⟨hitem a rfl, hitems⟩
  have hitems : (iterate (fun items ↦ Option.map (· :: items) <$> r) []).YieldsOn T
      fun as ↦ ∀ a ∈ as, P a :=
    .iterate (fun a ha ↦ nomatch ha) hround
  exact hitems.map fun items h a ha ↦ h a (List.mem_reverse.1 ha)

/-- What stands behind one more comma, if there is one. -/
theorem another (h : r.YieldsOn T P) :
    (Rule.another r).YieldsOn T fun a? ↦ ∀ a ∈ a?, P a :=
  .bind_any fun _ ↦ .ite h.some (.pure fun _ hnone ↦ nomatch hnone)

/-- A list separated by commas has an item. -/
theorem commaSeparated (h : r.YieldsOn T P) :
    (Rule.commaSeparated r).YieldsOn T fun as ↦ as ≠ [] ∧ ∀ a ∈ as, P a :=
  h.bind fun _ hfirst ↦ (many h.another).bind fun _ hothers ↦
    .pure ⟨List.cons_ne_nil _ _, List.forall_mem_cons.2 ⟨hfirst, hothers⟩⟩

/-- Parentheses add nothing to what they enclose. -/
theorem parenthesized (h : r.YieldsOn T P) : (Rule.parenthesized r).YieldsOn T P :=
  .bind_any fun _ ↦ h.bind fun _ ha ↦ .bind_any fun _ ↦ .pure ha

end YieldsOn

/-! ### Values that rules answer with on any tokens -/

/-- The rule answers with values of a kind alone. -/
def Yields (r : Rule α) (P : α → Prop) : Prop :=
  ∀ ⦃c a after⦄, r.run c = .done a after → P a

/-- Nothing has to hold of the tokens. -/
theorem yields_iff {P : α → Prop} {r : Rule α} :
    r.Yields P ↔ r.YieldsOn (fun _ ↦ True) P :=
  ⟨fun h _ _ _ _ hrun ↦ h hrun, fun h _ _ _ hrun ↦ h (fun _ _ ↦ trivial) hrun⟩

namespace Yields

variable {P : α → Prop} {Q : β → Prop} {r s : Rule α}

theorem any (r : Rule α) : r.Yields fun _ ↦ True :=
  fun _ _ _ _ ↦ trivial

protected theorem pure {a : α} (h : P a) : (pure a : Rule α).Yields P :=
  yields_iff.2 (.pure h)

theorem fail {cause : SyntaxError.Cause} : (Rule.fail cause : Rule α).Yields P :=
  yields_iff.2 .fail

/-- Sequences, whatever the tokens. -/
protected theorem bind {k : α → Rule β} (hr : r.Yields P) (hk : ∀ a, P a → (k a).Yields Q) :
    (r >>= k).Yields Q :=
  yields_iff.2 ((yields_iff.1 hr).bind fun a ha ↦ yields_iff.1 (hk a ha))

/-- Going on behind a value of which nothing is to be known. -/
theorem bind_any {k : α → Rule β} (hk : ∀ a, (k a).Yields Q) : (r >>= k).Yields Q :=
  (any r).bind fun a _ ↦ hk a

/-- What is made of a value, whatever the tokens. -/
protected theorem map {f : α → β} (hr : r.Yields P) (hf : ∀ a, P a → Q (f a)) :
    (f <$> r).Yields Q :=
  yields_iff.2 ((yields_iff.1 hr).map hf)

protected theorem ite {p : Prop} [Decidable p] (hr : r.Yields P) (hs : s.Yields P) :
    (if p then r else s).Yields P :=
  yields_iff.2 (.ite (yields_iff.1 hr) (yields_iff.1 hs))

/-- Repetitions, whatever the tokens. -/
protected theorem iterate {step : α → Rule (Option α)} {a : α} (ha : P a)
    (hstep : ∀ a, P a → (step a).Yields fun b ↦ ∀ b' ∈ b, P b') : (iterate step a).Yields P :=
  yields_iff.2 (.iterate ha fun a ha ↦ yields_iff.1 (hstep a ha))

/-! ### Clauses and lists -/

theorem some (h : r.Yields P) : (Option.some <$> r).Yields fun a ↦ ∀ a' ∈ a, P a' :=
  yields_iff.2 (yields_iff.1 h).some

/-- A clause that may be left out, whatever the tokens. -/
theorem clause (keyword : Keyword) (h : r.Yields P) :
    (Rule.clause keyword r).Yields fun a ↦ ∀ a' ∈ a, P a' :=
  yields_iff.2 (.clause keyword (yields_iff.1 h))

/-- A clause with a list, whatever the tokens. -/
theorem listClause (keyword : Keyword) {r : Rule (List α)} (h : r.Yields fun as ↦ ∀ a ∈ as, P a) :
    (Rule.listClause keyword r).Yields fun as ↦ ∀ a ∈ as, P a :=
  yields_iff.2 (.listClause keyword (yields_iff.1 h))

/-- A list, whatever the tokens. -/
theorem many {r : Rule (Option α)} (h : r.Yields fun a ↦ ∀ a' ∈ a, P a') :
    (Rule.many r).Yields fun as ↦ ∀ a ∈ as, P a :=
  yields_iff.2 (.many (yields_iff.1 h))

theorem commaSeparated (h : r.Yields P) :
    (Rule.commaSeparated r).Yields fun as ↦ ∀ a ∈ as, P a :=
  yields_iff.2 ((YieldsOn.commaSeparated (yields_iff.1 h)).mono fun _ has ↦ has.2)

theorem parenthesized (h : r.Yields P) : (Rule.parenthesized r).Yields P :=
  yields_iff.2 (.parenthesized (yields_iff.1 h))

end Yields

end SqlBatch.Rule
