import SqlBatch.Grammar.Rule
import SqlBatch.Tree.Relabel

/-!
# Reading a statement again

The same statement is read from two lists of tokens: the second lies elsewhere, stands behind other
placeholders or has numbers in their place, is cut off behind some token or goes on differently
there. A `Replay` says how the second list comes from the first, and `Replay.Replays` that a rule
makes the same of both: the same value with its labels changed, or a failure of the same cause, at
corresponding tokens.

## Why the law holds of every rule of the grammar

* The lists have to agree only up to the token where the first reading stops, that token included.
  Of the token behind it, the second list may know less. Rules that look one token further (`NOT
  IN`, `ARRAY [`, `AS (`, `EXPLAIN ANALYZE`) go on past the current token once they find what they
  look for, so a reading that stops at the current token has not found it.
* A semicolon and the end of the batch are not told apart, since both end a statement.
* A placeholder and a number are told apart by the one rule that reads a parameter. Where numbers
  stand for placeholders, the label of the parameter changes and nothing else.

## Failures that need not be shared

A reading with fewer levels of nesting fails where one with more goes on. `Replay.exempts` names
such failures: there the second reading need only have gone as far. No rule takes a failure back, so
the sequence with an exempt failure inside it fails the same way, and the law is still one about
sequences (`Replays.bind`).

## What is proved from it

That reading does not depend on the place of a statement, that placeholders are numbered as they are
written, that more levels change nothing that fewer have read, and that counting levels on the
cursor is the same as counting down those that are left.
-/

namespace SqlBatch

/-- Whether the wording of the cause quotes the offending token. -/
def SyntaxError.Cause.IsQuoting : SyntaxError.Cause → Prop
  | .stated _ => False
  | _ => True

/-- How the tokens of a second reading come from those of a first one. -/
structure Replay where
  /-- Where the second list has what the first one has at a span. -/
  span : Span → Span
  span_through : ∀ s t : Span, span (s.through t) = (span s).through (span t)
  /-- How many more placeholders have been passed before the second reading. -/
  passed : Nat
  /-- The numbers of the parameters that the second list has in place of placeholders, if it has
  some. -/
  numbers : Option (Nat → UInt32) := none
  /-- An index in the first list. -/
  origin : Nat
  /-- The index in the second list that corresponds to `origin`. -/
  target : Nat
  /-- The index in the first list of the last token in which the lists have to agree. -/
  stop : Nat
  /-- Failures of the first reading that the second need not share. -/
  exempts : SyntaxError.Cause → Prop
  /-- The number of levels of nesting that are open around the first reading, where it matters. -/
  depth : Option Nat := none

namespace Replay

variable (R : Replay)

/-- The change of the labels in what is read. -/
def labels : Relabeling where
  span := R.span
  parameter
    | .anonymous n =>
      match R.numbers with
      | none => .anonymous (n + R.passed)
      | some number => .positional (number n)
    | p => p

/-- The token in its place in the second list. -/
def token (t : Token) : Token :=
  t.move R.span

/-- A token in its place is of the same kind. -/
@[simp] theorem token_kind (t : Token) : (R.token t).kind = t.kind := rfl

/-- A token in its place has the same text. -/
@[simp] theorem token_text (t : Token) : (R.token t).text = t.text := rfl

/-- A token in its place lies where the second list has it. -/
@[simp] theorem token_span (t : Token) : (R.token t).span = R.span t.span := rfl

/-- The tokens correspond, where the first one stands behind `k` placeholders. -/
inductive Corresponds (k : Nat) (t : Token) : Token → Prop
  | same {u : Token} : u = R.token t → (t.isSymbol .question → R.numbers = none) →
    Corresponds k t u
  | numbered {number : Nat → UInt32} {u : Token} : R.numbers = some number →
    t.isSymbol .question → u.kind = .parameter (number (k + 1)) → Corresponds k t u

/-- The tokens correspond, or both end the statement. -/
def Alike (k : Nat) (t u : Token) : Prop :=
  R.Corresponds k t u ∨ t.endsStatement ∧ u.endsStatement

/-- The lists, of which the first one stands behind `k` placeholders, correspond in a number of
tokens, and agree in the token behind them. If the statement can go on past that token, the second
list goes on likewise or ends the statement. -/
def Common (k : Nat) : Nat → List Token → List Token → Prop
  | 0, ts, us =>
    R.Alike k (ts.headD (.eofAt 0)) (us.headD (.eofAt 0)) ∧
      ((ts.headD (.eofAt 0)).endsStatement ∨
        (∃ k, R.Alike k (ts.tail.headD (.eofAt 0)) (us.tail.headD (.eofAt 0))) ∨
        (us.tail.headD (.eofAt 0)).endsStatement)
  | n + 1, t :: ts, u :: us =>
    R.Corresponds k t u ∧ Common (k + if t.isSymbol .question then 1 else 0) n ts us
  | _ + 1, _, _ => False

/-- The cursors stand at corresponding places, in front of the last common token or at it. -/
structure Agree (c d : Cursor) : Prop where
  position : c.position + R.target = d.position + R.origin
  placeholders : R.numbers = none → d.placeholders = c.placeholders + R.passed
  le_stop : c.position ≤ R.stop
  ahead : R.Common c.placeholders (R.stop - c.position) c.ahead d.ahead
  depth : ∀ k, R.depth = some k → c.depth = k

/-- The second outcome is the first one with its labels changed. Where the first one is a failure
that the second need not share, the second reading went at least as far. -/
inductive Matches {α β : Type} (φ : α → β) : Outcome α → Outcome β → Prop
  | done {a : α} {c d : Cursor} : R.Agree c d → Matches φ (.done a c) (.done (φ a) d)
  | failed {cause : SyntaxError.Cause} {c d : Cursor} :
    cause.IsQuoting → R.Agree c d → Matches φ (.failed cause c) (.failed cause d)
  | exempt {cause : SyntaxError.Cause} {c d : Cursor} {outcome : Outcome β} :
    R.exempts cause → R.Agree c d → d.Reaches outcome.cursor →
    Matches φ (.failed cause c) outcome

/-- **The second rule replays the first**: from a cursor that agrees, it makes the same of the
tokens, whatever stands behind the token where the first one stops. -/
def Replays {α β : Type} (φ : α → β) (r : Rule α) (s : Rule β) : Prop :=
  ∀ ⦃c d : Cursor⦄, R.Agree c d → (r.run c).cursor.position ≤ R.stop →
    R.Matches φ (r.run c) (s.run d)

variable {R}

/-- Where as many placeholders have been passed, and none has been replaced, the numbers of
parameters stay. -/
theorem labels_eq (hnumbers : R.numbers = none) (hpassed : R.passed = 0) :
    R.labels = ⟨R.span, fun p ↦ p⟩ := by
  rw [labels, hnumbers, hpassed]
  congr 1
  funext p
  cases p <;> rfl

/-! ### Tokens that no rule tells apart -/

namespace Alike

variable {k : Nat} {t u : Token}

/-- Where placeholders stay placeholders, tokens are alike that are the same, or that both end the
statement. -/
theorem of_numbers_eq_none (hnumbers : R.numbers = none) (k : Nat)
    (h : u = R.token t ∨ t.endsStatement ∧ u.endsStatement) : R.Alike k t u :=
  h.imp_left fun hu ↦ .same hu fun _ ↦ hnumbers

/-- The kinds of tokens that do not correspond. -/
theorem eq_or_kind (h : R.Alike k t u) : u = R.token t ∨
    (t.kind = .symbol .question ∧ ∃ n, u.kind = .parameter n) ∨
    (t.kind = .symbol .semicolon ∨ t.kind = .eof) ∧
      (u.kind = .symbol .semicolon ∨ u.kind = .eof) := by
  rcases h with (⟨hu, -⟩ | ⟨_, ht, hu⟩) | ⟨ht, hu⟩
  · exact .inl hu
  · exact .inr (.inl ⟨beq_iff_eq.1 ht, _, hu⟩)
  · exact .inr (.inr ⟨Token.endsStatement_iff.1 ht, Token.endsStatement_iff.1 hu⟩)

/-- What is read off the kind of a token is the same for both, unless it tells a semicolon from the
end of the batch or a placeholder from a number. -/
theorem ofKind {γ : Type} (h : R.Alike k t u) (g : Token.Kind → γ)
    (hg : g (.symbol .semicolon) = g .eof)
    (hnumber : ∀ n, g (.parameter n) = g (.symbol .question)) :
    g u.kind = g t.kind := by
  rcases h.eq_or_kind with rfl | ⟨ht, n, hu⟩ | ⟨ht | ht, hu | hu⟩
  · rfl
  · rw [ht, hu, hnumber]
  all_goals simp [ht, hu, hg]

/-- Symbols are told apart, but for those that end a statement or are numbered. -/
theorem isSymbol (h : R.Alike k t u) {symbol : Symbol}
    (hs : symbol ≠ .semicolon ∧ symbol ≠ .question) : u.isSymbol symbol = t.isSymbol symbol := by
  have hne {other : Symbol} (hother : symbol ≠ other) :
      (Token.Kind.symbol other == .symbol symbol) = false := by
    simpa using hother.symm
  refine h.ofKind (· == .symbol symbol) ?_ fun n ↦ ?_
  · rw [hne hs.1]
    rfl
  · rw [hne hs.2]
    rfl

/-- Keywords are the same keywords in both lists. -/
theorem isKeyword (h : R.Alike k t u) (keyword : Keyword) :
    u.isKeyword keyword = t.isKeyword keyword :=
  h.ofKind (· == .keyword keyword) rfl fun _ ↦ rfl

/-- Both tokens end the statement, or neither. -/
theorem endsStatement (h : R.Alike k t u) : u.endsStatement = t.endsStatement :=
  h.ofKind (fun kind ↦ kind == .symbol .semicolon || kind == .eof) rfl fun _ ↦ rfl

theorem keyword? (h : R.Alike k t u) : u.keyword? = t.keyword? :=
  h.ofKind (fun kind ↦ Token.keyword? ⟨kind, "", default⟩) rfl fun _ ↦ rfl

/-- Both tokens are unreadable, or neither. -/
theorem isError (h : R.Alike k t u) : u.isError = t.isError :=
  h.ofKind (fun kind ↦ Token.isError ⟨kind, "", default⟩) rfl fun _ ↦ rfl

/-- Both tokens can be passed, or neither. -/
theorem isOpen (h : R.Alike k t u) : u.isOpen = t.isOpen := by
  rw [Token.isOpen, Token.isOpen, h.endsStatement, h.isError]

/-- Both tokens start a statement, or neither. -/
theorem startsStatement (h : R.Alike k t u) : u.startsStatement = t.startsStatement := by
  rw [Token.startsStatement, Token.startsStatement, h.keyword?]

/-- A token with a name is the same in both lists. -/
theorem eq_of_name? (h : R.Alike k t u) {name : String} (hname : t.name? = some name) :
    u = R.token t := by
  rcases h.eq_or_kind with h | ⟨ht, -⟩ | ⟨ht | ht, -⟩
  · exact h
  all_goals simp [Token.name?, ht] at hname

/-- A token is the same name in both lists, if it is one. -/
theorem name? (h : R.Alike k t u) : u.name? = t.name? := by
  rcases h.eq_or_kind with rfl | ⟨ht, n, hu⟩ | ⟨ht | ht, hu | hu⟩
  · rfl
  all_goals simp [Token.name?, ht, hu]

end Alike

/-! ### Cursors that agree -/

/-- The first tokens of the lists are alike. -/
theorem Common.current {k n : Nat} {ts us : List Token} (h : R.Common k n ts us) :
    R.Alike k (ts.headD (.eofAt 0)) (us.headD (.eofAt 0)) := by
  match n, ts, us, h with
  | 0, _, _, h => exact h.1
  | _ + 1, _ :: _, _ :: _, h => exact .inl h.1

/-- A list corresponds to itself where the tokens keep their places. -/
theorem Common.refl (hnumbers : R.numbers = none) (h : ∀ t, R.token t = t) {n : Nat}
    {tokens : List Token} (hle : n ≤ tokens.length) (k : Nat) : R.Common k n tokens tokens := by
  have alike (k : Nat) (t : Token) : R.Alike k t t :=
    .of_numbers_eq_none hnumbers k (.inl (h t).symm)
  induction n generalizing k tokens with
  | zero => exact ⟨alike k _, .inr (.inl ⟨k, alike k _⟩)⟩
  | succ n ih =>
    cases tokens with
    | nil => cases hle
    | cons t tokens => exact ⟨.same (h t).symm fun _ ↦ hnumbers, ih (Nat.le_of_succ_le_succ hle) _⟩

namespace Agree

variable {c d : Cursor}

/-- Cursors in front of the same tokens agree, where the tokens keep their places. -/
theorem of_ahead_eq (hnumbers : R.numbers = none) (htoken : ∀ t, R.token t = t) {after : Cursor}
    (h : c.Reaches after) (hstop : after.position = R.stop) (hahead : d.ahead = c.ahead)
    (hposition : c.position + R.target = d.position + R.origin)
    (hplaceholders : d.placeholders = c.placeholders + R.passed)
    (hdepth : ∀ k, R.depth = some k → c.depth = k) : R.Agree c d := by
  refine ⟨hposition, fun _ ↦ hplaceholders, hstop ▸ h.position_le, ?_, hdepth⟩
  obtain ⟨passed, hpassed, hafter, -⟩ := h.exists_passed
  rw [hahead]
  refine .refl hnumbers htoken ?_ _
  rw [hpassed, List.length_append]
  omega

/-- Cursors that agree stand at tokens that are alike. -/
theorem current (h : R.Agree c d) : R.Alike c.placeholders c.current d.current :=
  h.ahead.current

/-- In front of the last common token, the next ones agree too. -/
theorem following_of_lt (h : R.Agree c d) (hlt : c.position < R.stop) :
    ∃ k, R.Alike k c.following d.following := by
  have common := h.ahead
  obtain ⟨n, hn⟩ : ∃ n, R.stop - c.position = n + 1 := ⟨R.stop - c.position - 1, by omega⟩
  rw [hn] at common
  match hc : c.ahead, hd : d.ahead, common with
  | t :: ts, u :: us, common =>
    exact ⟨_, by simpa [Cursor.following, hc, hd] using common.2.current⟩

/-- Where the statement can go on past the current token, the next ones are alike, or the second
list ends. -/
theorem following (h : R.Agree c d) (hcurrent : c.current.endsStatement = false) :
    (∃ k, R.Alike k c.following d.following) ∨ d.following.endsStatement := by
  rcases Nat.lt_or_ge c.position R.stop with hlt | hge
  · exact .inl (h.following_of_lt hlt)
  · have common := h.ahead
    rw [Nat.sub_eq_zero_of_le hge] at common
    rcases common.2 with hends | hnext
    · rw [Cursor.current, hends] at hcurrent
      cases hcurrent
    · exact hnext

/-- **Moving on keeps cursors in agreement**, as long as the first one stays in front of the stop.
-/
theorem advance (h : R.Agree c d) (hstop : c.advance.position ≤ R.stop) :
    R.Agree c.advance d.advance := by
  have common := h.ahead
  by_cases hopen : c.current.isOpen
  · -- An open token in front of the stop is common, so both cursors move past it.
    have hlt : c.position < R.stop := by
      rw [Cursor.position_advance_of_isOpen hopen] at hstop
      omega
    obtain ⟨n, hn⟩ : ∃ n, R.stop - c.position = n + 1 := ⟨R.stop - c.position - 1, by omega⟩
    rw [hn] at common
    match hc : c.ahead, hd : d.ahead, common with
    | t :: ts, u :: us, ⟨hcorresponds, common⟩ =>
      have ht : t.isOpen := by simpa [Cursor.current, hc] using hopen
      have hu : u.isOpen := (Alike.isOpen (.inl hcorresponds)).trans ht
      refine ⟨?_, fun hnone ↦ ?_, ?_, ?_, fun k hk ↦ c.depth_advance.trans (h.depth k hk)⟩
      all_goals simp only [Cursor.advance, hc, hd, ht, hu, if_true]
      · have := h.position
        omega
      · rw [h.placeholders hnone]
        obtain ⟨rfl, -⟩ | ⟨hsome, -, -⟩ := hcorresponds
        · exact Nat.add_right_comm _ _ _
        · cases hnone.symm.trans hsome
      · omega
      · rwa [show R.stop - (c.position + 1) = n by omega]
  · have hopen' : ¬ d.current.isOpen := by rwa [h.current.isOpen]
    rwa [Cursor.advance_of_not_isOpen hopen, Cursor.advance_of_not_isOpen hopen']

/-- Moving forward is moving forward in both lists. -/
theorem position_lt_iff {c' d' : Cursor} (h : R.Agree c d) (h' : R.Agree c' d') :
    c.position < c'.position ↔ d.position < d'.position := by
  have := h.position
  have := h'.position
  omega

end Agree

namespace Replays

variable {α α' β β' : Type} {φ : α → α'} {ψ : β → β'}

/-! ### How a replayed run comes out -/

/-- A first reading that answers is replayed by an answer with changed labels. -/
theorem run_of_done {r : Rule α} {s : Rule α'} {c d after : Cursor} {a : α}
    (h : R.Replays φ r s) (hcd : R.Agree c d) (hrun : r.run c = .done a after)
    (hstop : after.position ≤ R.stop) : ∃ after', s.run d = .done (φ a) after' ∧
      R.Agree after after' := by
  have hmatch := h hcd (by rwa [hrun])
  rw [hrun] at hmatch
  revert hmatch
  generalize s.run d = outcome
  rintro ⟨hafter⟩
  exact ⟨_, rfl, hafter⟩

/-- A first reading that fails is replayed by a failure of the same cause, unless the cause is
exempt. -/
theorem run_of_failed {r : Rule α} {s : Rule α'} {c d after : Cursor}
    {cause : SyntaxError.Cause} (h : R.Replays φ r s) (hcd : R.Agree c d)
    (hrun : r.run c = .failed cause after) (hstop : after.position ≤ R.stop) :
    (R.exempts cause ∧ ∃ after', R.Agree after after' ∧ after'.Reaches (s.run d).cursor) ∨
      ∃ after', s.run d = .failed cause after' ∧ cause.IsQuoting ∧ R.Agree after after' := by
  have hmatch := h hcd (by rwa [hrun])
  rw [hrun] at hmatch
  revert hmatch
  generalize s.run d = outcome
  rintro (_ | ⟨hcause, hafter⟩ | ⟨hcause, hafter, hreaches⟩)
  · exact .inr ⟨_, rfl, hcause, hafter⟩
  · exact .inl ⟨hcause, _, hafter, hreaches⟩

/-! ### Primitive rules and sequences -/

protected theorem pure (a : α) : R.Replays φ (pure a) (pure (φ a)) :=
  fun _ _ hcd _ ↦ .done hcd

/-- Answers that are made differently, but come to the same. -/
theorem pure_of_eq {a : α} {b : α'} (h : φ a = b) :
    R.Replays φ (pure a) (pure b) :=
  h ▸ .pure a

/-- A failure of a cause that quotes its token is the same at both tokens. -/
theorem fail {cause : SyntaxError.Cause} (h : cause.IsQuoting) :
    R.Replays φ (.fail cause) (.fail cause) :=
  fun _ _ hcd _ ↦ .failed h hcd

/-- Moving on is replayed by moving on. -/
theorem advance : R.Replays id .advance .advance :=
  fun _ _ hcd hstop ↦ .done (hcd.advance hstop)

/-- As many placeholders have been passed before as the replay says. -/
theorem placeholders (h : R.numbers = none) :
    R.Replays (· + R.passed) .placeholders .placeholders := by
  intro c d hcd _
  rw [Rule.run_placeholders, Rule.run_placeholders, hcd.placeholders h]
  exact .done hcd

/-- **Replaying is compatible with going on.** The first rule stops no later than the whole
sequence, so the lists agree where the second one starts. -/
protected theorem bind {r : Rule α} {s : Rule α'} {k : α → Rule β} {l : α' → Rule β'}
    (hr : R.Replays φ r s) (hk : ∀ a, R.Replays ψ (k a) (l (φ a))) :
    R.Replays ψ (r >>= k) (s >>= l) := by
  intro c d hcd hstop
  have hmatch := hr hcd (Nat.le_trans (Rule.position_le_run_bind r k c) hstop)
  have hreaches := Rule.reaches_run_bind s l d
  rw [Rule.run_bind] at hstop ⊢
  rw [Rule.run_bind] at hreaches ⊢
  revert hmatch hstop hreaches
  generalize r.run c = first, s.run d = second
  intro hstop hmatch hreaches
  cases hmatch with
  | done hafter => exact hk _ hafter hstop
  | failed hcause hafter => exact .failed hcause hafter
  | exempt hcause hafter hfurther => exact .exempt hcause hafter (hfurther.trans hreaches)

/-- Going on behind a value without labels. -/
theorem bind_id {r s : Rule α} {k : α → Rule β} {l : α → Rule β'}
    (hr : R.Replays id r s) (hk : ∀ a, R.Replays ψ (k a) (l a)) :
    R.Replays ψ (r >>= k) (s >>= l) :=
  hr.bind hk

/-- What is made of the value has to commute with the change of labels. -/
protected theorem map {γ γ' : Type} {r : Rule α} {s : Rule α'} {f : α → γ} {g : α' → γ'}
    {χ : γ → γ'} (hr : R.Replays φ r s) (hfg : ∀ a, g (φ a) = χ (f a)) :
    R.Replays χ (f <$> r) (g <$> s) := by
  rw [Rule.map_eq_bind, Rule.map_eq_bind]
  exact hr.bind fun a ↦ hfg a ▸ .pure _

protected theorem some {r : Rule α} {s : Rule α'} (h : R.Replays φ r s) :
    R.Replays (Option.map φ) (some <$> r) (some <$> s) :=
  h.map fun _ ↦ rfl

/-- A choice that does not depend on the tokens. -/
protected theorem ite {p : Prop} [Decidable p] {r r' : Rule α} {s s' : Rule α'}
    (h : R.Replays φ r s) (h' : R.Replays φ r' s') :
    R.Replays φ (if p then r else r') (if p then s else s') := by
  split
  · exact h
  · exact h'

/-- A rule that looks at the current token. -/
theorem bind_current {k : Token → Rule β} {l : Token → Rule β'}
    (h : ∀ {n : Nat} (t u : Token), R.Alike n t u → R.Replays ψ (k t) (l u)) :
    R.Replays ψ (Rule.current >>= k) (Rule.current >>= l) :=
  fun _ _ hcd hstop ↦ h _ _ hcd.current hcd hstop

/-! ### Repetition -/

/-- **A repetition replays as its step does.** Both repetitions go round equally often, since one
step moves forward exactly if the other does. -/
theorem iterate {step : α → Rule (Option α)} {step' : α' → Rule (Option α')}
    (h : ∀ a, R.Replays (Option.map φ) (step a) (step' (φ a))) (a : α) :
    R.Replays φ (.iterate step a) (.iterate step' (φ a)) := by
  intro c d hcd hstop
  change (Rule.iterateFrom step a c).cursor.position ≤ _ at hstop
  show R.Matches φ (Rule.iterateFrom step a c) (Rule.iterateFrom step' (φ a) d)
  fun_induction Rule.iterateFrom step a c generalizing d with
  | case1 a c cause after hrun =>
    rcases (h a).run_of_failed hcd hrun hstop with
      ⟨hcause, after', hafter, hreaches⟩ | ⟨after', hrun', hcause, hafter⟩
    · exact .exempt hcause hafter
        (hreaches.trans (Rule.reaches_iterateFrom_of_step step' (φ a) d))
    · rw [Rule.iterateFrom_eq, hrun']
      exact .failed hcause hafter
  | case2 a c after hrun =>
    obtain ⟨after', hrun', hafter⟩ := (h a).run_of_done hcd hrun hstop
    rw [Rule.iterateFrom_eq, hrun']
    exact .done hafter
  | case3 a c b after hrun hlt ih =>
    have hle := (Rule.reaches_iterateFrom step b after).position_le
    obtain ⟨after', hrun', hafter⟩ := (h a).run_of_done hcd hrun (Nat.le_trans hle hstop)
    rw [Rule.iterateFrom_eq step' (φ a), hrun']
    simp only [Option.map_some, (hcd.position_lt_iff hafter).1 hlt, if_true]
    exact ih hafter hstop
  | case4 a c b after hrun hlt =>
    obtain ⟨after', hrun', hafter⟩ := (h a).run_of_done hcd hrun hstop
    rw [Rule.iterateFrom_eq, hrun']
    simp only [Option.map_some, mt (hcd.position_lt_iff hafter).2 hlt, if_false]
    exact .done hafter

end Replays

end Replay

end SqlBatch
