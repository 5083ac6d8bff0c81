import SqlBatch.Proofs.Replay.Command

/-!
# Levels that the cursor counts

A call of a rule that opens a level asks the cursor how many are open, opens one more, and closes it
on its way out. The grammar by the levels that are left (`Nested.ofAllowance`) never asks. Here both
are proved to read the same.

## One level

With `k` levels open around a reading, a call runs the rule with `k + 1` open and closes one, or is
refused if `k` is the limit. What the rule makes of the tokens with `k + 1` open is that of the
grammar with one level less left (`Replay.Replays.nested`); and where the call is refused there is
no level left (`Replay.Replays.nested_of_le`). In the way of replaying, the number of open levels is
a condition on the cursor of the first reading, which changes as the level is opened and is back to
what it was when the level is closed (`Replay.Agree.opened`, `Replay.Agree.closed`). That it is back
rests on the rule's own law, that it leaves as many levels open as it found.

## All levels

By induction on how deep the calls may go, a collection whose calls go deeper than the cursor allows
replays the grammar with the levels that are left, at any number of open ones
(`Replay.Inside.ofCalls`). So what answers a request reads what the levels left by the cursor allow
(`Request.run_rule`), and the collection that calls itself one time more is the same collection
(`Nested.recursive_eq`).
-/

namespace SqlBatch

namespace Replay

variable {R : Replay} {c d : Cursor} {depth k : Nat}

/-! ### Around and inside a level -/

/-- The replay of a first reading around which a number of levels are open. -/
def atDepth (R : Replay) (depth : Nat) : Replay :=
  { R with depth := some depth }

theorem corresponds_atDepth {t u : Token} :
    (R.atDepth depth).Corresponds k t u ↔ R.Corresponds k t u := by
  constructor
  all_goals
    rintro (⟨hu, hnone⟩ | ⟨hsome, ht, hu⟩)
    · exact .same hu hnone
    · exact .numbered hsome ht hu

theorem alike_atDepth {t u : Token} : (R.atDepth depth).Alike k t u ↔ R.Alike k t u :=
  or_congr_left corresponds_atDepth

/-- Which tokens two lists have in common has nothing to do with open levels. -/
theorem common_atDepth {n : Nat} {ts us : List Token} :
    (R.atDepth depth).Common k n ts us ↔ R.Common k n ts us := by
  induction n generalizing k ts us with
  | zero => simp only [Common, alike_atDepth]
  | succ n ih =>
    cases ts with
    | nil => exact Iff.rfl
    | cons t ts =>
      cases us with
      | nil => exact Iff.rfl
      | cons u us => exact and_congr corresponds_atDepth ih

/-- Cursors that agree around a level agree inside it. -/
theorem Agree.opened (h : R.Agree c d) (hdepth : c.depth = depth) :
    (R.atDepth (depth + 1)).Agree c.opened d where
  position := h.position
  placeholders := h.placeholders
  le_stop := h.le_stop
  ahead := common_atDepth.2 h.ahead
  depth := by
    rintro k ⟨⟩
    exact congrArg (· + 1) hdepth

/-- Cursors that agree inside a level agree around it, once the level is closed. -/
theorem Agree.closed (h : (R.atDepth (depth + 1)).Agree c d) (hdepth : R.depth = some depth) :
    R.Agree c.closed d where
  position := h.position
  placeholders := h.placeholders
  le_stop := h.le_stop
  ahead := common_atDepth.1 h.ahead
  depth := by
    intro k hk
    obtain rfl := Option.some.inj (hdepth.symm.trans hk)
    exact congrArg (· - 1) (h.depth _ rfl)

/-- On both ways out, the outcome inside the level is that around it. -/
theorem Matches.closed {α β : Type} {φ : α → β} {o : Outcome α} {o' : Outcome β}
    (h : (R.atDepth (depth + 1)).Matches φ o o') (hdepth : R.depth = some depth) :
    R.Matches φ o.closed o' := by
  cases h with
  | done h => exact .done (h.closed hdepth)
  | failed hcause h => exact .failed hcause (h.closed hdepth)
  | exempt hcause h hfurther => exact .exempt hcause (h.closed hdepth) hfurther

namespace Replays

variable {α β : Type} {φ : α → β} {r : Rule α} {s : Rule β}

/-- **A call that opens a level** reads what the rule reads with the level open. -/
theorem nested (hdepth : R.depth = some depth) (hlt : depth < Nested.maxDepth)
    (h : (R.atDepth (depth + 1)).Replays φ r s) : R.Replays φ (.nested r) s := by
  intro c d hcd hstop
  have hopen : c.depth = depth := hcd.depth depth hdepth
  rw [Rule.run_nested_of_lt r (hopen ▸ hlt)] at hstop ⊢
  rw [Outcome.cursor_closed] at hstop
  exact (h (hcd.opened hopen) hstop).closed hdepth

/-- **A call that is refused** fails as a construct does for which there is no level left. -/
theorem nested_of_le (hdepth : R.depth = some depth) (hle : Nested.maxDepth ≤ depth) :
    R.Replays φ (.nested r) (.fail (.tooDeep Nested.maxDepth)) := by
  intro c d hcd _
  rw [Rule.run_nested_of_le r (hcd.depth depth hdepth ▸ hle)]
  exact .failed trivial hcd

end Replays

/-! ### All levels -/

namespace Inside

variable {inner inner' : Nested}

/-- With a level left, each call is replayed one level further in. -/
theorem counted (hdepth : R.depth = some depth) (hlt : depth < Nested.maxDepth)
    (h : (R.atDepth (depth + 1)).Inside inner inner') : R.Inside inner.counted inner' where
  statement := .nested hdepth hlt h.statement
  query := .nested hdepth hlt h.query
  fromItem := .nested hdepth hlt h.fromItem
  expressionFrom power := .nested hdepth hlt (h.expressionFrom power)
  objectType := .nested hdepth hlt h.objectType
  elementType := .nested hdepth hlt h.elementType

/-- With no level left, each call is refused. -/
theorem counted_of_le (hdepth : R.depth = some depth) (hle : Nested.maxDepth ≤ depth) :
    R.Inside inner.counted .exhausted where
  statement := .nested_of_le hdepth hle
  query := .nested_of_le hdepth hle
  fromItem := .nested_of_le hdepth hle
  expressionFrom _ := .nested_of_le hdepth hle
  objectType := .nested_of_le hdepth hle
  elementType := .nested_of_le hdepth hle

/-- **Counting replays the levels that are left.** The induction is on how deep the calls may go:
with one call less, one more level is open and one less is left. The calls are never used up, since
they may go deeper than the cursor allows. -/
theorem ofCalls {calls : Nat} (hdepth : R.depth = some depth)
    (hcalls : Nested.maxDepth < calls + depth) :
    R.Inside (.ofCalls calls) (.ofAllowance (Nested.maxDepth - depth)) := by
  induction calls generalizing R depth with
  | zero =>
    rw [Nat.sub_eq_zero_of_le (by omega)]
    exact .ofAllowance 0
  | succ calls ih =>
    rcases Nat.lt_or_ge depth Nested.maxDepth with hlt | hle
    · have hleft : Nested.maxDepth - depth = Nested.maxDepth - (depth + 1) + 1 := by omega
      rw [hleft]
      exact (ih rfl (by omega)).around.counted hdepth hlt
    · rw [Nat.sub_eq_zero_of_le hle]
      exact .counted_of_le hdepth hle

end Inside

/-! ### The same reading -/

/-- The second list is the first one. -/
def itself (stop : Nat) : Replay where
  span s := s
  span_through _ _ := rfl
  passed := 0
  origin := 0
  target := 0
  stop := stop
  exempts _ := False

theorem labels_itself {stop : Nat} : ((itself stop).atDepth depth).labels = .id :=
  labels_eq rfl rfl

/-- Rules that replay each other on the same tokens make the same of a cursor. -/
theorem run_eq {α : Type} {relabel : Relabeling → α → α} (hid : ∀ a, relabel .id a = a)
    {r s : Rule α}
    (h : ∀ stop, ((itself stop).atDepth c.depth).Replays
      (relabel ((itself stop).atDepth c.depth).labels) r s) : r.run c = s.run c := by
  have hreaches := r.forward c
  have hreaches' := s.forward c
  have hagree : ((itself (r.run c).cursor.position).atDepth c.depth).Agree c c :=
    .of_ahead_eq rfl (fun _ ↦ rfl) hreaches rfl rfl rfl rfl fun _ ↦ Option.some.inj
  have hmatch := h _ hagree (Nat.le_refl _)
  rw [labels_itself] at hmatch
  revert hmatch hreaches hreaches'
  generalize r.run c = o, s.run c = o'
  rintro hreaches hreaches' (⟨hafter⟩ | ⟨-, hafter⟩ | ⟨hexempt, -, -⟩)
  · rw [hid]
    exact congrArg (Outcome.done _) (hreaches.eq_of_position hreaches' hafter.position)
  · exact congrArg (Outcome.failed _) (hreaches.eq_of_position hreaches' hafter.position)
  · cases hexempt

/-- Rules that replay the same rule, however many levels are open, are the same. -/
theorem rule_eq {α : Type} {relabel : Relabeling → α → α} (hid : ∀ a, relabel .id a = a)
    {r s : Rule α} {t : Nat → Rule α}
    (hr : ∀ depth stop, ((itself stop).atDepth depth).Replays
      (relabel ((itself stop).atDepth depth).labels) r (t depth))
    (hs : ∀ depth stop, ((itself stop).atDepth depth).Replays
      (relabel ((itself stop).atDepth depth).labels) s (t depth)) : r = s :=
  Rule.ext fun c ↦ (run_eq hid (hr c.depth)).trans (run_eq hid (hs c.depth)).symm

/-- Whatever the cursor, calls that go deeper than there are levels read what the levels left
allow. -/
theorem Inside.itself_ofCalls {calls : Nat} (h : Nested.maxDepth < calls) (depth stop : Nat) :
    ((itself stop).atDepth depth).Inside (.ofCalls calls)
      (.ofAllowance (Nested.maxDepth - depth)) :=
  .ofCalls rfl (Nat.lt_of_lt_of_le h (Nat.le_add_right _ _))

end Replay

namespace Nested

/-- Where the calls may go deeper than there are levels to open, it does not matter how deep. -/
theorem ofCalls_eq {calls calls' : Nat} (h : maxDepth < calls) (h' : maxDepth < calls') :
    ofCalls calls = ofCalls calls' := by
  have hin := Replay.Inside.itself_ofCalls h
  have hin' := Replay.Inside.itself_ofCalls h'
  refine Nested.ext ?statement ?query ?fromItem (funext fun power ↦ ?expression) ?object ?element
  case statement =>
    exact Replay.rule_eq Command.relabel_id (fun _ _ ↦ (hin _ _).statement) fun _ _ ↦
      (hin' _ _).statement
  case query =>
    exact Replay.rule_eq Query.relabel_id (fun _ _ ↦ (hin _ _).query) fun _ _ ↦ (hin' _ _).query
  case fromItem =>
    exact Replay.rule_eq FromItem.relabel_id (fun _ _ ↦ (hin _ _).fromItem) fun _ _ ↦
      (hin' _ _).fromItem
  case expression =>
    exact Replay.rule_eq Expr.relabel_id (fun _ _ ↦ (hin _ _).expressionFrom power) fun _ _ ↦
      (hin' _ _).expressionFrom power
  case object =>
    exact Replay.rule_eq DataType.relabel_id (fun _ _ ↦ (hin _ _).objectType) fun _ _ ↦
      (hin' _ _).objectType
  case element =>
    exact Replay.rule_eq DataType.relabel_id (fun _ _ ↦ (hin _ _).elementType) fun _ _ ↦
      (hin' _ _).elementType

/-- **The rules that open a level call themselves**, each call inside one more level. -/
theorem recursive_eq : recursive = recursive.around.counted :=
  ofCalls_eq (Nat.lt_succ_self _) (Nat.lt_succ_of_lt (Nat.lt_succ_self _))

end Nested

/-! ### Requests -/

namespace Request

/-- **What answers a request reads what the levels allow that the cursor has left.** -/
theorem run_rule (request : Request) (c : Cursor) :
    request.rule.run c = (request.ruleWithin (Nested.maxDepth - c.depth)).run c := by
  have hinside (stop : Nat) := Replay.Inside.itself_ofCalls (Nat.lt_succ_self _) c.depth stop
  cases request with
  | statement => exact Replay.run_eq Command.relabel_id fun stop ↦ .statement (hinside stop)
  | terminated =>
    exact Replay.run_eq Command.relabel_id fun stop ↦ .terminated (.statement (hinside stop))

theorem parse_rule (request : Request) (c : Cursor) :
    request.rule.parse c = (request.ruleWithin (Nested.maxDepth - c.depth)).parse c := by
  rw [Rule.parse, Rule.parse, request.run_rule]

/-- A cursor that has just been made has all levels left. -/
theorem parse_ofTokens (request : Request) (tokens : List Token) (position : Nat) :
    request.rule.parse (.ofTokens tokens position) =
      (request.ruleWithin Nested.maxDepth).parse (.ofTokens tokens position) :=
  request.parse_rule _

end Request

/-- An attempt at reading a statement has all levels left. -/
theorem parseFrom_eq (tokens : List Token) (position : Nat) :
    parseFrom tokens position =
      match Rule.terminatedStatement.parse (.ofTokens tokens position) with
      | (.ok tree, after) => ⟨some tree, [], after.position⟩
      | (.error error, after) => ⟨none, [error], after.position⟩ := by
  rw [parseFrom, Request.parse_ofTokens]
  rfl

end SqlBatch
