import SqlBatch.Proofs.Yields

/-!
# Completing what has been read

Wherever a statement is found wrong, the tokens that were passed until then can be completed to a
statement that is read.

## From the inside out

The completion is put together in the order in which rules return. A rule `s` stands for all that is
still to be read; `Starts` says that there are tokens which `s` reads from scratch, and `Completes`
that there are tokens which go on where `s` fails. A rule of the grammar is judged by what it does
to such a rest behind it:

* `BeginsTo`: in front of a rest that can be read from scratch, the rule makes one that can be. This
  is where the shortest form of a construct is chosen.
* `ContinuesTo`: in front of such a rest, a failure inside the rule can be completed, and so can one
  in the rest behind it.
* `LeadsTo` is both. It is what a sequence is proved of, part by part (`LeadsTo.bind`).

The second rule in each of these, `r'`, is the one that reads the completion. It differs from `r` in
the number of levels it may open: a completion may need more of them than what was read.

## Pairs of tokens

Rules look at no more than the next token to decide how to go on, but for pairs of tokens that are
looked at together (`Token.Kind.joins`). Behind the first token of such a pair, a completion must
not start with the second; else what has been passed would be read in another way.
-/

namespace SqlBatch

/-! ### Tokens of completions -/

/-- A token of a kind, to be written into a completion. -/
def Token.ofKind (kind : Token.Kind) : Token :=
  ⟨kind, "", .point 0⟩

@[simp] theorem Token.kind_ofKind (kind : Token.Kind) : (Token.ofKind kind).kind = kind := rfl

/-- Whether a rule looks at a token of the first kind and one of the second kind behind it
together. -/
def Token.Kind.joins : Token.Kind → Token.Kind → Bool
  | .keyword .AS, next => next == .symbol .leftParen
  | .keyword .ARRAY, next => next == .symbol .leftBracket
  | .keyword .NOT, next =>
    next == .keyword .IN || next == .keyword .BETWEEN || next == .keyword .LIKE
  | .keyword .ANALYZE, .keyword next => Keyword.statementStarts.contains next
  | _, _ => false

namespace Completion

/-- The words that are looked at together with the token behind them. -/
def pairStarts : List Keyword :=
  [.AS, .ARRAY, .NOT, .ANALYZE]

/-- What no first word of a pair asks for is asked for by no token. -/
theorem joins_of_forall {next : Token.Kind}
    (h : ∀ first ∈ pairStarts, Token.Kind.joins (.keyword first) next = false)
    (kind : Token.Kind) : kind.joins next = false := by
  cases kind with
  | keyword keyword => cases keyword <;> first | rfl | exact h _ (by decide)
  | _ => rfl

/-- What only one first word asks for is apart from all other tokens. -/
theorem joins_of_ne {except : Keyword} {kind next : Token.Kind}
    (h : ∀ first ∈ pairStarts, first ≠ except → Token.Kind.joins (.keyword first) next = false)
    (hkind : kind ≠ .keyword except) : kind.joins next = false := by
  cases kind with
  | keyword keyword =>
    have hkeyword : keyword ≠ except := fun heq ↦ hkind (congrArg _ heq)
    cases keyword <;> first | rfl | exact h _ (by decide) hkeyword
  | _ => rfl

/-- No rule looks for the end of the batch behind another token. -/
theorem joins_eof (kind : Token.Kind) : kind.joins .eof = false :=
  joins_of_forall (by decide) kind

variable {α β : Type}

/-- The list ends with an end of the batch. -/
def EndsInEof (tokens : List Token) : Prop :=
  ∃ front, tokens = front ++ [.ofKind .eof]

/-- A token in front does not change how the list ends. -/
theorem EndsInEof.cons {tokens : List Token} (h : EndsInEof tokens) (t : Token) :
    EndsInEof (t :: tokens) := by
  obtain ⟨front, rfl⟩ := h
  exact ⟨t :: front, rfl⟩

/-- No rule looks at the token and the first one of the list together. -/
def IsApart (kind : Token.Kind) (tokens : List Token) : Prop :=
  ∀ next ∈ tokens.head?, kind.joins next.kind = false

/-- The rule succeeds at the cursor. -/
def Accepts (s : Rule β) (d : Cursor) : Prop :=
  ∃ b after, s.run d = .done b after

/-- There is something to read for a rule, and its first token is of a certain kind. -/
def Starts (first : Token.Kind) (s : Rule β) : Prop :=
  ∀ placeholders, ∃ behind, EndsInEof (.ofKind first :: behind) ∧ IsApart first behind ∧
    ∀ d : Cursor, d.ahead = .ofKind first :: behind → d.placeholders = placeholders → Accepts s d

/-- Where the first rule fails having passed some tokens, there is something to put behind these
tokens that the second rule reads. -/
def Completes (c : Cursor) (s s' : Rule β) : Prop :=
  ∀ ⦃t passed behind cause after⦄, c.ahead = t :: (passed ++ behind) →
    s.run c = .failed cause after → after.position = c.position + passed.length + 1 →
    ∃ rest, EndsInEof rest ∧ (passed = [] → IsApart t.kind rest) ∧
      ∀ d : Cursor, d.ahead = t :: (passed ++ rest) → d.placeholders = c.placeholders →
        Accepts s' d

/-- In front of anything that starts with `next`, for all values with `C`, the rule makes something
that starts with `first`. -/
def BeginsTo (C : α → Prop) (first next : Token.Kind) (r : Rule α) : Prop :=
  ∀ ⦃β : Type⦄ (k : α → Rule β), (∀ a, C a → Starts next (k a)) → Starts first (r >>= k)

/-- In front of anything that starts with `next` and completes, the rules complete at the cursor. -/
def ContinuesTo (C : α → Prop) (next : Token.Kind) (r r' : Rule α) (c : Cursor) : Prop :=
  ∀ ⦃β : Type⦄ (k k' : α → Rule β), (∀ a, C a → Starts next (k' a)) →
    (∀ a c', r.run c = .done a c' → Completes c' (k a) (k' a)) →
    Completes c (r >>= k) (r' >>= k')

/-- **A completion of what comes behind is one of the whole.** Where it starts with `next`, the
whole starts with `first`; the second rule answers with values with `C` alone. -/
structure LeadsTo (C : α → Prop) (first next : Token.Kind) (r r' : Rule α) : Prop where
  begins : BeginsTo C first next r'
  continues (c : Cursor) : ContinuesTo C next r r' c

/-- A rule that may answer with anything leads to what comes behind. -/
abbrev Leads (first next : Token.Kind) (r r' : Rule α) : Prop :=
  LeadsTo (fun _ ↦ True) first next r r'

abbrev Begins (first next : Token.Kind) (r : Rule α) : Prop :=
  BeginsTo (fun _ ↦ True) first next r

abbrev Continues (next : Token.Kind) (r r' : Rule α) (c : Cursor) : Prop :=
  ContinuesTo (fun _ ↦ True) next r r' c

variable {C : α → Prop} {D : β → Prop} {first next last : Token.Kind} {r r' : Rule α}
  {c : Cursor}

/-! ### Reading the first token -/

/-- The first token ahead is the current one. -/
theorem current_eq_of_ahead {d : Cursor} {t : Token} {ts : List Token} (h : d.ahead = t :: ts) :
    d.current = t := by
  rw [Cursor.current, h, List.headD_cons]

/-- The second token ahead is the one behind the current one. -/
theorem following_eq_of_ahead {d : Cursor} {t u : Token} {ts : List Token}
    (h : d.ahead = t :: u :: ts) : d.following = u := by
  rw [Cursor.following, h, List.tail_cons, List.headD_cons]

/-- Moving past the first token leaves the others. -/
theorem ahead_advance {d : Cursor} {t : Token} {ts : List Token} (h : d.ahead = t :: ts)
    (hopen : t.isOpen) : d.advance.ahead = ts := by
  have hcurrent := current_eq_of_ahead h
  rw [Cursor.ahead_eq_cons_of_isOpen (hcurrent ▸ hopen)] at h
  exact (List.cons.inj h).2

/-- The same token counts for as many placeholders, wherever it stands. -/
theorem placeholders_advance {d : Cursor} (hopen : c.current.isOpen)
    (hcurrent : d.current = c.current) (h : d.placeholders = c.placeholders) :
    d.advance.placeholders = c.advance.placeholders := by
  rw [Cursor.placeholders_advance_of_isOpen (hcurrent ▸ hopen),
    Cursor.placeholders_advance_of_isOpen hopen, hcurrent, h]

/-- What is made of the cursor is all that counts. -/
theorem Accepts.congr {s t : Rule β} {d e : Cursor} (h : Accepts t e) (hrun : s.run d = t.run e) :
    Accepts s d := by
  obtain ⟨b, after, hdone⟩ := h
  exact ⟨b, after, hrun.trans hdone⟩

/-- What the rule does depends on the first token alone. -/
theorem Starts.congr {s t : Rule β} (h : Starts first t)
    (hrun : ∀ d : Cursor, d.current = .ofKind first → s.run d = t.run d) : Starts first s := by
  intro placeholders
  obtain ⟨behind, hends, hapart, haccepts⟩ := h placeholders
  exact ⟨behind, hends, hapart, fun d hd hd' ↦
    (haccepts d hd hd').congr (hrun d (current_eq_of_ahead hd))⟩

/-- Tokens that are apart are not looked at together, wherever they are read. -/
theorem joins_following {d : Cursor} {t : Token} {behind : List Token} (hd : d.ahead = t :: behind)
    (h : IsApart t.kind behind) : t.kind.joins d.following.kind = false := by
  cases behind with
  | nil =>
    rw [Cursor.following, hd]
    exact joins_eof t.kind
  | cons next behind =>
    rw [following_eq_of_ahead hd]
    exact h next rfl

/-- What the rule does depends on the first token, and on the next one in a pair alone. -/
theorem Starts.congr_following {s t : Rule β} (h : Starts first t)
    (hrun : ∀ d : Cursor, d.current = .ofKind first → first.joins d.following.kind = false →
      s.run d = t.run d) : Starts first s := by
  intro placeholders
  obtain ⟨behind, hends, hapart, haccepts⟩ := h placeholders
  exact ⟨behind, hends, hapart, fun d hd hd' ↦
    (haccepts d hd hd').congr (hrun d (current_eq_of_ahead hd) (joins_following hd hapart))⟩

/-- A first token that is passed, in front of what can be read from scratch. -/
theorem Starts.advance {k : Unit → Rule β} (h : Starts next (k ()))
    (hopen : (Token.ofKind first).isOpen) (hjoins : first.joins next = false) :
    Starts first (Rule.advance >>= k) := by
  intro placeholders
  obtain ⟨behind, hends, -, haccepts⟩ :=
    h (placeholders + if (Token.ofKind first).isSymbol .question then 1 else 0)
  refine ⟨.ofKind next :: behind, hends.cons _, ?_, fun d hd hd' ↦ ?_⟩
  · rintro _ ⟨⟩
    exact hjoins
  · have hcurrent := current_eq_of_ahead hd
    refine (haccepts d.advance (ahead_advance hd hopen) ?_).congr rfl
    rw [Cursor.placeholders_advance_of_isOpen (hcurrent ▸ hopen), hcurrent, hd']

/-- Rules that make the same of cursors at this token are completed alike. -/
theorem Completes.congr {s s' t t' : Rule β} (h : Completes c t t') (hrun : s.run c = t.run c)
    (hrun' : ∀ d : Cursor, d.current = c.current → d.placeholders = c.placeholders →
      s'.run d = t'.run d) : Completes c s s' := by
  intro t passed behind cause after hahead hfailed hposition
  obtain ⟨rest, hends, hapart, haccepts⟩ := h hahead (hrun ▸ hfailed) hposition
  refine ⟨rest, hends, hapart, fun d hd hplaceholders ↦ ?_⟩
  have hcurrent : d.current = c.current := by
    rw [current_eq_of_ahead hd, current_eq_of_ahead hahead]
  exact (haccepts d hd hplaceholders).congr (hrun' d hcurrent hplaceholders)

/-- A rule that fails at once passes nothing. -/
theorem Completes.of_failed {s s' : Rule β} {cause : SyntaxError.Cause}
    (h : s.run c = .failed cause c) : Completes c s s' := by
  intro t passed behind cause' after hahead hfailed hposition
  rw [h] at hfailed
  obtain ⟨-, rfl⟩ := Outcome.failed.inj hfailed
  omega

/-- The tokens that are passed are open. -/
theorem isOpen_of_failed {s : Rule β} {t : Token} {passed behind : List Token}
    {cause : SyntaxError.Cause} {after : Cursor} (hahead : c.ahead = t :: (passed ++ behind))
    (hfailed : s.run c = .failed cause after)
    (hposition : after.position = c.position + passed.length + 1) : t.isOpen := by
  obtain ⟨passed', hahead', hposition', hopen⟩ := (s.forward c).exists_passed
  rw [hfailed] at hahead' hposition'
  simp only [Outcome.cursor_failed] at hahead' hposition'
  cases passed' with
  | nil =>
    rw [List.length_nil] at hposition'
    omega
  | cons u passed' =>
    rw [hahead] at hahead'
    obtain ⟨rfl, -⟩ := List.cons.inj hahead'
    exact hopen _ (List.mem_cons_self ..)

/-- Moving past the current token. Where nothing more is passed, it is completed by itself; else the
next token is as it was. -/
theorem Completes.step {s s' t t' : Rule β} (h : Completes c.advance t t')
    (hrun : s.run c = t.run c.advance)
    (hstop : c.current.isOpen → (t.run c.advance).cursor.position = c.advance.position →
      ∃ rest, EndsInEof rest ∧ IsApart c.current.kind rest ∧ ∀ d : Cursor,
        d.ahead = c.current :: rest → d.placeholders = c.placeholders → Accepts s' d)
    (hrun' : ∀ d : Cursor, d.current = c.current → d.following = c.following →
      s'.run d = t'.run d.advance) : Completes c s s' := by
  intro first passed behind cause after hahead hfailed hposition
  have hopen := isOpen_of_failed hahead hfailed hposition
  obtain rfl := current_eq_of_ahead hahead
  have hadvance := Cursor.position_advance_of_isOpen hopen
  rw [hrun] at hfailed
  -- The failure is at the token behind the first one, or has passed that one too.
  cases passed with
  | nil =>
    rw [List.length_nil] at hposition
    obtain ⟨rest, hends, hapart, haccepts⟩ := hstop hopen (by
      rw [hfailed, Outcome.cursor_failed]
      omega)
    exact ⟨rest, hends, fun _ ↦ hapart, haccepts⟩
  | cons second passed =>
    rw [List.length_cons] at hposition
    obtain ⟨rest, hends, -, haccepts⟩ := h (ahead_advance hahead hopen) hfailed (by omega)
    refine ⟨rest, hends, nofun, fun d hd hplaceholders ↦ ?_⟩
    have hcurrent := current_eq_of_ahead hd
    have hfollowing : d.following = c.following := by
      rw [following_eq_of_ahead hd, following_eq_of_ahead hahead]
    exact (haccepts d.advance (ahead_advance hd hopen)
      (placeholders_advance hopen hcurrent hplaceholders)).congr (hrun' d hcurrent hfollowing)

/-- Moving past a token that, with the start of what comes behind, is looked at by no rule. -/
theorem Completes.advance {k k' : Unit → Rule β} (hstarts : Starts next (k' ()))
    (h : Completes c.advance (k ()) (k' ())) (hjoins : c.current.kind.joins next = false) :
    Completes c (Rule.advance >>= k) (Rule.advance >>= k') := by
  refine h.step rfl (fun hopen _ ↦ ?_) fun _ _ _ ↦ rfl
  obtain ⟨rest, hends, -, haccepts⟩ := hstarts c.advance.placeholders
  refine ⟨.ofKind next :: rest, hends, ?_, fun d hd hd' ↦ ?_⟩
  · rintro _ ⟨⟩
    exact hjoins
  · exact (haccepts d.advance (ahead_advance hd hopen)
      (placeholders_advance hopen (current_eq_of_ahead hd) hd')).congr rfl

/-- Moving past the first token of a pair, where the second one is passed as well. -/
theorem Completes.congr_advance {s s' t t' : Rule β} (h : Completes c.advance t t')
    (hrun : s.run c = t.run c.advance)
    (hlt : c.advance.position < (t.run c.advance).cursor.position)
    (hrun' : ∀ d : Cursor, d.current = c.current → d.following = c.following →
      s'.run d = t'.run d.advance) : Completes c s s' :=
  h.step hrun (fun _ heq ↦ absurd heq (Nat.ne_of_gt hlt)) hrun'

/-- What the rules do depends on the current token, and on the next one in a pair alone. -/
theorem Completes.congr_following {s s' t t' : Rule β} (h : Completes c t t')
    (hrun : s.run c = t.run c)
    (hrun' : ∀ d : Cursor, d.current = c.current →
      d.following = c.following ∨ c.current.kind.joins d.following.kind = false →
      s'.run d = t'.run d) : Completes c s s' := by
  intro t passed behind cause after hahead hfailed hposition
  obtain ⟨rest, hends, hapart, haccepts⟩ := h hahead (hrun ▸ hfailed) hposition
  refine ⟨rest, hends, hapart, fun d hd hplaceholders ↦ ?_⟩
  have hcurrent := current_eq_of_ahead hahead
  refine (haccepts d hd hplaceholders).congr (hrun' d ?_ ?_)
  · rw [current_eq_of_ahead hd, hcurrent]
  · cases passed with
    | nil =>
      rw [hcurrent]
      exact .inr (joins_following hd (hapart rfl))
    | cons u passed =>
      rw [following_eq_of_ahead hd, following_eq_of_ahead hahead]
      exact .inl rfl

/-! ### Rules in front of a rest -/

namespace BeginsTo

/-- Where nothing is read, the rest starts as it does. -/
protected theorem pure {a : α} (ha : C a) : BeginsTo C first first (pure a) :=
  fun _ _ hk ↦ hk a ha

/-- What the second part makes of the rest is what the first one stands in front of. -/
protected theorem bind {f : α → Rule β} (hr : BeginsTo C first next r)
    (hf : ∀ a, C a → BeginsTo D next last (f a)) : BeginsTo D first last (r >>= f) := by
  intro γ k hk
  rw [bind_assoc]
  exact hr _ fun a ha ↦ hf a ha k hk

/-- Fewer values to answer for. -/
theorem mono {C' : α → Prop} (h : BeginsTo C first next r) (hC : ∀ a, C a → C' a) :
    BeginsTo C' first next r :=
  fun _ k hk ↦ h k fun a ha ↦ hk a (hC a ha)

/-- A value that is made of another one. -/
theorem map {f : α → β} (hr : BeginsTo C first next r) (hf : ∀ a, C a → D (f a)) :
    BeginsTo D first next (f <$> r) := by
  rw [Rule.map_eq_bind]
  exact hr.bind fun a ha ↦ .pure (hf a ha)

/-- At the first token, both rules make the same. -/
theorem congr {s : Rule α} (h : BeginsTo C first next s)
    (hrun : ∀ d : Cursor, d.current = .ofKind first → r.run d = s.run d) :
    BeginsTo C first next r := by
  intro β k hk
  refine (h k hk).congr fun d hd ↦ ?_
  rw [Rule.run_bind, Rule.run_bind, hrun d hd]

/-- A rule that moves past its first token, which joins no other. -/
theorem advance {f : Unit → Rule β} (h : BeginsTo D next last (f ()))
    (hopen : (Token.ofKind first).isOpen) (hjoins : first.joins next = false) :
    BeginsTo D first last (Rule.advance >>= f) := by
  intro γ k hk
  rw [bind_assoc]
  exact (h k hk).advance hopen hjoins

/-- A look at the current token. -/
theorem current {f : Token → Rule α} (h : BeginsTo C first next (f (.ofKind first))) :
    BeginsTo C first next (Rule.current >>= f) :=
  h.congr fun d hd ↦ by rw [Rule.run_bind, Rule.run_current, hd]

/-- The number of placeholders is known where the rule starts. -/
theorem placeholders {f : Nat → Rule α} (h : ∀ n, BeginsTo C first next (f n)) :
    BeginsTo C first next (Rule.placeholders >>= f) := by
  intro β k hk n
  obtain ⟨behind, hends, hapart, haccepts⟩ := h n k hk n
  refine ⟨behind, hends, hapart, fun d hd hd' ↦ (haccepts d hd hd').congr ?_⟩
  rw [Rule.run_bind, Rule.run_bind, Rule.run_placeholders, hd', Rule.run_bind]

end BeginsTo

namespace ContinuesTo

/-- Nothing is read, so nothing is to be completed. -/
protected theorem pure {a : α} : ContinuesTo C next (pure a) (pure a) c :=
  fun _ _ _ _ hk ↦ hk a c rfl

/-- A failure at the current token is completed by the other rule from scratch, and nothing has been
passed. -/
theorem fail {cause : SyntaxError.Cause} {r' : Rule α} :
    ContinuesTo C next (.fail cause) r' c :=
  fun _ _ _ _ _ ↦ .of_failed rfl

/-- A failure in front of more to read. -/
theorem fail_bind {cause : SyntaxError.Cause} {f : β → Rule α} {r' : Rule α} :
    ContinuesTo C next (.fail cause >>= f) r' c :=
  fun _ _ _ _ _ ↦ .of_failed rfl

/-- **Sequences.** A failure in the first part is completed there and by the shortest form of the
second; one in the second part is completed behind what the first one has passed. -/
protected theorem bind {f f' : α → Rule β} (hr : ContinuesTo C next r r' c)
    (hbegins : ∀ a, C a → BeginsTo D next last (f' a))
    (hf : ∀ a c', r.run c = .done a c' → ContinuesTo D last (f a) (f' a) c') :
    ContinuesTo D last (r >>= f) (r' >>= f') c := by
  intro γ k k' hstarts hk
  rw [bind_assoc, bind_assoc]
  refine hr _ _ (fun a ha ↦ hbegins a ha k' hstarts) fun a c' hrun ↦ ?_
  refine hf a c' hrun k k' hstarts fun b c'' hrun' ↦ hk b c'' ?_
  rw [Rule.run_bind, hrun]
  exact hrun'

/-- Fewer values to answer for. -/
theorem mono {C' : α → Prop} (h : ContinuesTo C next r r' c) (hC : ∀ a, C a → C' a) :
    ContinuesTo C' next r r' c :=
  fun _ k k' hstarts hk ↦ h k k' (fun a ha ↦ hstarts a (hC a ha)) hk

/-- A value that is made of another one. -/
theorem map {f : α → β} (hr : ContinuesTo C next r r' c) (hf : ∀ a, C a → D (f a)) :
    ContinuesTo D next (f <$> r) (f <$> r') c := by
  rw [Rule.map_eq_bind, Rule.map_eq_bind]
  exact hr.bind (fun a ha ↦ .pure (hf a ha)) fun _ _ _ ↦ .pure

/-- Rules that make the same of cursors at this token. -/
theorem congr {s s' : Rule α} (h : ContinuesTo C next s s' c) (hrun : r.run c = s.run c)
    (hrun' : ∀ d : Cursor, d.current = c.current → d.placeholders = c.placeholders →
      r'.run d = s'.run d) : ContinuesTo C next r r' c := by
  intro β k k' hstarts hk
  refine (h k k' hstarts fun a c' hdone ↦ hk a c' (hrun.trans hdone)).congr ?_ fun d hd hd' ↦ ?_
  · rw [Rule.run_bind, Rule.run_bind, hrun]
  · rw [Rule.run_bind, Rule.run_bind, hrun' d hd hd']

/-- What the rules do depends on the current token, and on the next one in a pair alone. -/
theorem congr_following {s s' : Rule α} (h : ContinuesTo C next s s' c) (hrun : r.run c = s.run c)
    (hrun' : ∀ d : Cursor, d.current = c.current →
      d.following = c.following ∨ c.current.kind.joins d.following.kind = false →
      r'.run d = s'.run d) : ContinuesTo C next r r' c := by
  intro β k k' hstarts hk
  have hcompletes := h k k' hstarts fun a c' hdone ↦ hk a c' (hrun.trans hdone)
  refine hcompletes.congr_following ?_ fun d hd hd' ↦ ?_
  · rw [Rule.run_bind, Rule.run_bind, hrun]
  · rw [Rule.run_bind, Rule.run_bind, hrun' d hd hd']

/-- Moving past the first token of a pair, where the second one is passed as well. -/
theorem congr_advance {s s' : Rule α} (h : ContinuesTo C next s s' c.advance)
    (hrun : r.run c = s.run c.advance)
    (hlt : c.advance.position < (s.run c.advance).cursor.position)
    (hrun' : ∀ d : Cursor, d.current = c.current → d.following = c.following →
      r'.run d = s'.run d.advance) : ContinuesTo C next r r' c := by
  intro β k k' hstarts hk
  have hcompletes := h k k' hstarts fun a c' hdone ↦ hk a c' (hrun.trans hdone)
  have hlt' := Nat.lt_of_lt_of_le hlt (Rule.position_le_run_bind s k _)
  refine hcompletes.congr_advance ?_ hlt' fun d hd hd' ↦ ?_
  · rw [Rule.run_bind, Rule.run_bind, hrun]
  · rw [Rule.run_bind, Rule.run_bind, hrun' d hd hd']

/-- Moving past a token; what follows must not join it. -/
theorem advance {f f' : Unit → Rule β} (hbegins : BeginsTo D next last (f' ()))
    (h : ContinuesTo D last (f ()) (f' ()) c.advance) (hjoins : c.current.kind.joins next = false) :
    ContinuesTo D last (Rule.advance >>= f) (Rule.advance >>= f') c := by
  intro γ k k' hstarts hk
  rw [bind_assoc, bind_assoc]
  exact .advance (hbegins k' hstarts) (h k k' hstarts hk) hjoins

/-- A look at the current token. -/
theorem current {f f' : Token → Rule α} (h : ContinuesTo C next (f c.current) (f' c.current) c) :
    ContinuesTo C next (Rule.current >>= f) (Rule.current >>= f') c :=
  h.congr rfl fun d hd _ ↦ by rw [Rule.run_bind, Rule.run_current, hd]

/-- The number of placeholders is that of the cursor in both readings. -/
theorem placeholders {f f' : Nat → Rule α}
    (h : ContinuesTo C next (f c.placeholders) (f' c.placeholders) c) :
    ContinuesTo C next (Rule.placeholders >>= f) (Rule.placeholders >>= f') c :=
  h.congr rfl fun d _ hd ↦ by rw [Rule.run_bind, Rule.run_placeholders, hd]

/-- A choice that has been made. -/
theorem ite {p : Prop} [Decidable p] {s s' : Rule α} (hr : p → ContinuesTo C next r r' c)
    (hs : ¬ p → ContinuesTo C next s s' c) :
    ContinuesTo C next (if p then r else s) (if p then r' else s') c := by
  by_cases hp : p
  · rw [if_pos hp, if_pos hp]
    exact hr hp
  · rw [if_neg hp, if_neg hp]
    exact hs hp

end ContinuesTo

namespace LeadsTo

/-- A value leads to whatever comes behind. -/
protected theorem pure {a : α} (ha : C a) : LeadsTo C first first (pure a) (pure a) :=
  ⟨.pure ha, fun _ ↦ .pure⟩

/-- **Sequences** lead from the first token of the one part to what follows the other. -/
protected theorem bind {f f' : α → Rule β} (hr : Leads first next r r')
    (hf : ∀ a, LeadsTo D next last (f a) (f' a)) :
    LeadsTo D first last (r >>= f) (r' >>= f') :=
  ⟨hr.begins.bind fun a _ ↦ (hf a).begins,
    fun c ↦ (hr.continues c).bind (fun a _ ↦ (hf a).begins) fun a c' _ ↦ (hf a).continues c'⟩

/-- A value that is made of another one. -/
theorem map {f : α → β} (hr : LeadsTo C first next r r') (hf : ∀ a, C a → D (f a)) :
    LeadsTo D first next (f <$> r) (f <$> r') :=
  ⟨hr.begins.map hf, fun c ↦ (hr.continues c).map hf⟩

/-- A choice that has been made, where both ways lead to the same. -/
theorem ite {p : Prop} [Decidable p] {s s' : Rule α} (hr : LeadsTo C first next r r')
    (hs : LeadsTo C first next s s') :
    LeadsTo C first next (if p then r else s) (if p then r' else s') := by
  split
  · exact hr
  · exact hs

/-- Moving past a token that has been seen, into what leads on. -/
theorem advance {f f' : Unit → Rule β} (h : LeadsTo D next last (f ()) (f' ()))
    (hjoins : c.current.kind.joins next = false) :
    ContinuesTo D last (Rule.advance >>= f) (Rule.advance >>= f') c :=
  .advance h.begins (h.continues _) hjoins

end LeadsTo

/-! ### Repetition -/

/-- A round of a repetition that has a new value moves forward. -/
def Moves (r : Rule (Option α)) : Prop :=
  ∀ ⦃c a after⦄, r.run c = .done (some a) after → c.position < after.position

/-- At a token of a certain kind the rule answers with nothing. -/
def StopsAt (kind : Token.Kind) (r : Rule (Option α)) : Prop :=
  ∀ d : Cursor, d.current = .ofKind kind → r.run d = .done none d

section

variable {step step' : α → Rule (Option α)}

/-- A repetition is its first round, and then the repetition from the new value on. -/
theorem iterate_eq (h : ∀ a, Moves (step a)) (a : α) :
    Rule.iterate step a = step a >>= fun
      | none => pure a
      | some b => Rule.iterate step b := by
  refine Rule.ext fun c ↦ ?_
  rw [Rule.run_bind]
  change Rule.iterateFrom step a c = _
  rw [Rule.iterateFrom_eq]
  cases hround : (step a).run c with
  | failed cause after => rfl
  | done x after =>
    cases x with
    | none => rfl
    | some b => exact if_pos (h a hround)

/-- A repetition begins with what comes behind, if it takes no round there. -/
theorem BeginsTo.iterate (hmoves : ∀ a, Moves (step' a))
    (hstops : ∀ a, C a → StopsAt next (step' a)) {a : α} (ha : C a) :
    BeginsTo C next next (Rule.iterate step' a) := by
  have hpure : BeginsTo C next next (pure a) := .pure ha
  refine hpure.congr fun d hd ↦ ?_
  rw [iterate_eq hmoves, Rule.run_bind, hstops a ha d hd]

/-- **A repetition completes**, by induction on the tokens that are ahead. -/
theorem ContinuesTo.iterate (hmoves : ∀ a, Moves (step a)) (hmoves' : ∀ a, Moves (step' a))
    (hyields : ∀ a, C a → (step a).Yields fun x ↦ ∀ b ∈ x, C b)
    (hstops : ∀ a, C a → StopsAt next (step' a))
    (hstep : ∀ a, C a → ∀ c, ContinuesTo (fun x ↦ ∀ b ∈ x, C b) next (step a) (step' a) c)
    {a : α} (ha : C a) (c : Cursor) :
    ContinuesTo C next (Rule.iterate step a) (Rule.iterate step' a) c := by
  induction hlength : c.ahead.length using Nat.strongRecOn generalizing a c with
  | ind n ih =>
    subst hlength
    rw [iterate_eq hmoves, iterate_eq hmoves']
    -- A round that has a value moves forward, so fewer tokens are ahead of the rounds behind it.
    refine (hstep a ha c).bind (fun x hx ↦ ?_) fun x c' hround ↦ ?_
    · cases x with
      | none => exact .pure ha
      | some b => exact .iterate hmoves' hstops (hx b rfl)
    · cases x with
      | none => exact .pure
      | some b =>
        have hahead := (Rule.reaches_of_run hround).position_add_length
        have hlt := hmoves a hround
        rw [Outcome.cursor_done] at hahead
        exact ih _ (by omega) (hyields a ha hround b rfl) c' rfl

/-- A repetition whose rounds may answer with anything. -/
theorem LeadsTo.iterate (hmoves : ∀ a, Moves (step a)) (hmoves' : ∀ a, Moves (step' a))
    (hstops : ∀ a, StopsAt next (step' a))
    (hstep : ∀ a c, Continues next (step a) (step' a) c) (a : α) :
    Leads next next (Rule.iterate step a) (Rule.iterate step' a) where
  begins := .iterate hmoves' (fun a _ ↦ hstops a) trivial
  continues c := .iterate hmoves hmoves' (fun _ _ _ _ _ _ _ _ ↦ trivial) (fun a _ ↦ hstops a)
    (fun a _ c ↦ (hstep a c).mono fun _ _ _ _ ↦ trivial) trivial c

end

end Completion
end SqlBatch
