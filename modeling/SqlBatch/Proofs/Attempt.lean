import Mathlib.Tactic.ByContra
import SqlBatch.Proofs.Depth

/-!
# Reading the first statement

What an attempt at reading a statement makes of a list of tokens. It passes open tokens only, and
what it answers depends on no more than these and the token where it stops: the place of the list,
the tokens behind, and which token ends the statement make no difference (`readFirst_move`).

## One fact about rules

These are all cases of one: on cursors that look alike up to the place where the rule stops, it does
the same (`Replay`). Here the two lists of tokens are put in front of the grammar, and what looking
alike means is spelled out in terms of the tokens.

* Another place of all tokens is `readFirst_map`, where every token is moved in the same way.
* Another rest of the list is `readFirst_congr`, where no token is moved. The token where reading
  stops may be another one only if both end the statement. Where it does not end the statement, a
  rule may have looked one token further; so the next one is the same as well, or ends a statement.
* The beginning of a batch and a place inside of it are `parseFrom_of_drop`.

That a failure quotes its token (`Rule.isQuoting_of_run`) comes from the same fact, for a reading
replays itself.
-/

namespace SqlBatch

/-- What comes of reading a statement at the start of a list of tokens, a tree or the cause of the
failure, and the index of the token where reading stops. -/
def readFirst (tokens : List Token) : Except SyntaxError.Cause Command × Nat :=
  match Rule.terminatedStatement.run (.ofTokens tokens 0) with
  | .done tree after => (.ok tree, after.position)
  | .failed cause after =>
    (.error (if after.current.isError then .unrecognized else cause), after.position)

/-! ### Where reading stops -/

/-- Where an attempt stops. -/
theorem position_readFirst (tokens : List Token) :
    (readFirst tokens).2 =
      (Rule.terminatedStatement.run (.ofTokens tokens 0)).cursor.position := by
  rw [readFirst]
  split <;> simp [*]

/-- A statement that is read stops in front of its end. -/
theorem endsStatement_of_terminated {command : Rule Command} {cursor after : Cursor}
    {tree : Command} (h : (Rule.terminated command).run cursor = .done tree after) :
    after.current.endsStatement := by
  rw [Rule.terminated, Rule.run_bind] at h
  split at h
  · rename_i tree' stopped _
    rw [Rule.run_bind, Rule.run_current] at h
    by_cases hends : stopped.current.endsStatement
    · simp only [hends, if_true] at h
      cases h
      exact hends
    · simp only [Bool.eq_false_iff.2 hends, Bool.false_eq_true, if_false] at h
      cases h
  · cases h

/-- **Reading passes open tokens only**, so it stops inside any list in which a statement ends. -/
theorem exists_passed_readFirst {tokens : List Token} (h : ∃ t ∈ tokens, t.endsStatement) :
    ∃ passed token behind, tokens = passed ++ token :: behind ∧
      (readFirst tokens).2 = passed.length ∧ (∀ t ∈ passed, t.isOpen) ∧
      ((readFirst tokens).1.isOk → token.endsStatement) := by
  obtain ⟨passed, hahead, hposition, hopen⟩ :=
    (Rule.terminatedStatement.forward (.ofTokens tokens 0)).exists_passed
  rw [← position_readFirst] at hposition
  match hstop : (Rule.terminatedStatement.run (.ofTokens tokens 0)).cursor.ahead with
  | [] =>
    obtain ⟨t, ht, hends⟩ := h
    rw [hstop, List.append_nil] at hahead
    have ht : t ∈ passed := hahead ▸ ht
    have := hopen t ht
    simp [Token.isOpen, hends] at this
  | token :: behind =>
    rw [hstop] at hahead
    refine ⟨passed, token, behind, hahead, by simpa [Cursor.ofTokens] using hposition, hopen, ?_⟩
    intro hok
    rw [readFirst] at hok
    split at hok
    · rename_i tree after hrun
      rw [hrun] at hstop
      have hends := endsStatement_of_terminated hrun
      rwa [Cursor.current, show after.ahead = token :: behind from hstop] at hends
    · cases hok

/-! ### What reading depends on -/

namespace Replay

/-- The second list has the same tokens at other places. -/
def moved (place : Span → Span)
    (h : ∀ s t : Span, place (s.through t) = (place s).through (place t)) (target stop : Nat) :
    Replay where
  span := place
  span_through := h
  passed := 0
  origin := 0
  target := target
  stop := stop
  exempts _ := False

/-- Moving the tokens moves the places of columns and leaves the numbers of parameters. -/
theorem labels_moved {place : Span → Span}
    {h : ∀ s t : Span, place (s.through t) = (place s).through (place t)} {target stop : Nat} :
    (moved place h target stop).labels = ⟨place, fun p ↦ p⟩ :=
  labels_eq rfl rfl

theorem common_append {R : Replay} (hnumbers : R.numbers = none)
    {passed behind behind' : List Token} {t u : Token}
    (h : u = R.token t ∨ t.endsStatement ∧ u.endsStatement)
    (hbehind : t.endsStatement ∨ behind'.headD (.eofAt 0) = R.token (behind.headD (.eofAt 0)) ∨
      (behind'.headD (.eofAt 0)).endsStatement) (k : Nat) :
    R.Common k passed.length (passed ++ t :: behind) (passed.map R.token ++ u :: behind') := by
  induction passed generalizing k with
  | nil =>
    refine ⟨.of_numbers_eq_none hnumbers k h, hbehind.imp_right (Or.imp_left fun hnext ↦ ⟨0, ?_⟩)⟩
    exact .of_numbers_eq_none hnumbers 0 (.inl hnext)
  | cons first passed ih => exact ⟨.same rfl fun _ ↦ hnumbers, ih _⟩

end Replay

/-- **Reading depends on what is passed and on the token where it stops alone**, and not on which
token ends the statement. Behind the last token that has to be the same, the second list may go on
as the first one does, or end. -/
theorem readFirst_move {place : Span → Span}
    (hplace : ∀ s t : Span, place (s.through t) = (place s).through (place t))
    {passed behind behind' : List Token} {t u : Token}
    (hstop : (readFirst (passed ++ t :: behind)).2 ≤ passed.length)
    (halike : u = t.move place ∨ t.endsStatement ∧ u.endsStatement)
    (hbehind : t.endsStatement ∨
      behind'.headD (.eofAt 0) = (behind.headD (.eofAt 0)).move place ∨
      (behind'.headD (.eofAt 0)).endsStatement) :
    readFirst (passed.map (·.move place) ++ u :: behind') =
      ((readFirst (passed ++ t :: behind)).1.map (Command.relabel ⟨place, fun p ↦ p⟩),
        (readFirst (passed ++ t :: behind)).2) := by
  let R := Replay.moved place hplace 0 passed.length
  have hagree : R.Agree (.ofTokens (passed ++ t :: behind) 0)
      (.ofTokens (passed.map R.token ++ u :: behind') 0) :=
    ⟨rfl, fun _ ↦ rfl, Nat.zero_le _, Replay.common_append rfl halike hbehind 0, nofun⟩
  rw [position_readFirst] at hstop
  have hmatch := Replay.Replays.terminatedStatement (R := R) hagree hstop
  rw [Replay.labels_moved] at hmatch
  rw [readFirst, readFirst]
  revert hmatch
  generalize Rule.terminatedStatement.run (.ofTokens (passed ++ t :: behind) 0) = first
  generalize hsecond :
    Rule.terminatedStatement.run (.ofTokens (passed.map R.token ++ u :: behind') 0) = second
  have hmove : (passed.map (·.move place) : List Token) = passed.map R.token := rfl
  rintro (⟨hafter⟩ | ⟨-, hafter⟩ | ⟨hcause, -, -⟩)
  · have hposition := hafter.position
    simp only [hmove, hsecond]
    exact Prod.ext rfl hposition.symm
  · have hposition := hafter.position
    simp only [hmove, hsecond, hafter.current.isError]
    exact Prod.ext rfl hposition.symm
  · cases hcause

/-- Reading stops no later than at the first token that ends a statement. -/
theorem readFirst_le {passed behind : List Token} {t : Token} (h : t.endsStatement) :
    (readFirst (passed ++ t :: behind)).2 ≤ passed.length := by
  obtain ⟨passed', token, rest, htokens, hstop, hopen, -⟩ :=
    exists_passed_readFirst ⟨t, List.mem_append_right passed (.head behind), h⟩
  by_contra hlt
  rw [hstop, Nat.not_le] at hlt
  have hmem : t ∈ passed' := by
    have hindex := congrArg (·[passed.length]?) htokens
    simp only [List.getElem?_append_left hlt, List.getElem?_append_right (Nat.le_refl _),
      Nat.sub_self, List.getElem?_cons_zero] at hindex
    exact List.mem_of_getElem? hindex.symm
  have := hopen t hmem
  simp [Token.isOpen, h] at this

/-- The place of all tokens does not matter. -/
theorem readFirst_map {place : Span → Span}
    (hplace : ∀ s t : Span, place (s.through t) = (place s).through (place t)) {ts : List Token}
    (h : ∃ t ∈ ts, t.endsStatement) :
    readFirst (ts.map (·.move place)) =
      ((readFirst ts).1.map (Command.relabel ⟨place, fun p ↦ p⟩), (readFirst ts).2) := by
  obtain ⟨t, ht, hends⟩ := h
  obtain ⟨passed, behind, rfl⟩ := List.append_of_mem ht
  rw [List.map_append, List.map_cons]
  exact readFirst_move hplace (readFirst_le hends) (.inl rfl) (.inl hends)

/-- What stands behind the token where reading stops does not matter, up to the next one, nor which
token it is, if it ends the statement. -/
theorem readFirst_congr {passed behind behind' : List Token} {t u : Token}
    (hstop : (readFirst (passed ++ t :: behind)).2 ≤ passed.length)
    (halike : u = t ∨ t.endsStatement ∧ u.endsStatement)
    (hbehind : t.endsStatement ∨
      behind'.headD (.eofAt 0) = behind.headD (.eofAt 0) ∨
      (behind'.headD (.eofAt 0)).endsStatement) :
    readFirst (passed ++ u :: behind') = readFirst (passed ++ t :: behind) := by
  have hread := @readFirst_move (fun s ↦ s) (fun _ _ ↦ rfl) passed behind behind' t u hstop halike
    hbehind
  have hmap : passed.map (·.move fun s ↦ s) = passed := List.map_id' _
  have hrelabel : Command.relabel ⟨fun s ↦ s, fun p ↦ p⟩ = id := funext Command.relabel_id
  rw [hmap, hrelabel] at hread
  rw [hread]
  cases readFirst (passed ++ t :: behind) with
  | mk result stop => cases result <;> rfl

/-- **The wording of a failure quotes the offending token.** A reading replays itself, and failures
that are replayed do so. -/
theorem Rule.isQuoting_of_run {c after : Cursor} {cause : SyntaxError.Cause}
    (h : terminatedStatement.run c = .failed cause after) : cause.IsQuoting := by
  have hagree : (Replay.itself after.position).Agree c c :=
    .of_ahead_eq rfl (fun _ ↦ rfl) (reaches_of_run h) rfl rfl rfl rfl nofun
  rcases Replay.Replays.terminatedStatement.run_of_failed hagree h (Nat.le_refl _) with
    ⟨hexempt, -⟩ | ⟨_, -, hquoting, -⟩
  · cases hexempt
  · exact hquoting

/-- The cause of a failure is one that quotes its token. -/
theorem isQuoting_of_readFirst {tokens : List Token} {cause : SyntaxError.Cause}
    (hcause : (readFirst tokens).1 = .error cause) : cause.IsQuoting := by
  rw [readFirst] at hcause
  split at hcause
  · cases hcause
  · rename_i hrun
    cases hcause
    split
    · trivial
    · exact Rule.isQuoting_of_run hrun

/-- Reading from an index of a list is reading the rest of the list. -/
theorem parseFrom_of_drop {tokens passed behind : List Token} {token : Token} {position : Nat}
    (h : tokens.drop position = passed ++ token :: behind)
    (hstop : (readFirst (passed ++ token :: behind)).2 = passed.length) :
    parseFrom tokens position =
      match (readFirst (passed ++ token :: behind)).1 with
      | .ok tree => ⟨some tree, [], position + passed.length⟩
      | .error cause => ⟨none, [.atToken cause token], position + passed.length⟩ := by
  -- A list of tokens replays itself at another place.
  let R := Replay.moved (fun s ↦ s) (fun _ _ ↦ rfl) position passed.length
  have hahead : (Cursor.ofTokens tokens position).ahead =
      passed.map R.token ++ R.token token :: behind := by
    rw [show passed.map R.token = passed from List.map_id' _]
    exact h
  have hagree : R.Agree (.ofTokens (passed ++ token :: behind) 0) (.ofTokens tokens position) := by
    refine ⟨Nat.zero_add _, fun _ ↦ rfl, Nat.zero_le _, ?_, nofun⟩
    rw [hahead]
    exact Replay.common_append rfl (.inl rfl) (.inr (.inl rfl)) 0
  rw [position_readFirst] at hstop
  have hmatch := Replay.Replays.terminatedStatement hagree (Nat.le_of_eq hstop)
  rw [Replay.labels_moved] at hmatch
  have hahead : (Cursor.ofTokens (passed ++ token :: behind) 0).ahead =
      passed ++ token :: behind := rfl
  have hfirst := (Rule.terminatedStatement.forward _).current_eq hahead
    (hstop.trans (Nat.zero_add _).symm)
  -- Both readings stop at the token, by which a failure is located.
  have hsecond := (Rule.terminatedStatement.forward (.ofTokens tokens position)).current_eq h
  rw [readFirst, parseFrom_eq, Rule.parse]
  revert hmatch hfirst hsecond hstop
  generalize Rule.terminatedStatement.run (.ofTokens (passed ++ token :: behind) 0) = first
  generalize Rule.terminatedStatement.run (.ofTokens tokens position) = second
  rintro hstop (⟨hafter⟩ | ⟨-, hafter⟩ | ⟨hcause, -, -⟩) hfirst hsecond
  · rename_i tree c d
    have hposition : c.position + position = d.position + 0 := hafter.position
    have hstop : c.position = passed.length := hstop
    show Attempt.mk (some (tree.relabel .id)) [] d.position = ⟨some tree, [], _⟩
    rw [Command.relabel_id, show d.position = position + passed.length by omega]
  · rename_i cause c d
    have hposition : c.position + position = d.position + 0 := hafter.position
    have hstop : c.position = passed.length := hstop
    have hposition : d.position = position + passed.length := by omega
    have hfirst : c.current = token := hfirst
    have hsecond : d.current = token := hsecond hposition
    simp only [hfirst, hsecond, hposition]
  · cases hcause

end SqlBatch
