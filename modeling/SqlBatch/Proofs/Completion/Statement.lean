import SqlBatch.Lexer
import SqlBatch.Proofs.Completion.Command
import SqlBatch.Proofs.Depth

/-!
# Errors point at the first divergence

Wherever reading a statement fails, the tokens in front of the offending one are the start of a
statement that is read (`exists_completion`). So the offending token is the first one that could not
stand where it does.

## Levels of nesting

A failure for too many levels is another matter, since the token that would open one more is fine
where it stands. And a completion may open more levels than were open before: one for a query and
one for an expression in it. So the attempt must have stayed two levels below the limit.

How many levels an attempt needs is told by reading it with fewer: where the grammar with `levels`
of them does not fail for that reason, the attempt has not had more open at once (`staysWithin`). It
then fails at the same token as the attempt with all levels (`exists_failed_of_staysWithin`), and it
is its failure that is completed, by the grammar with two levels more (`Inside.ofAllowance`).
-/

namespace SqlBatch

namespace Completion

variable {inner inner' : Nested}

/-! ### The whole grammar -/

/-- **One level** completes, where the one inside does. -/
theorem Inside.around (h : Inside inner inner') : Inside inner.around inner'.around where
  analyze := LeadsTo.run_statement_analyze inner'
  statement := LeadsTo.continues_statement h
  query hnext := LeadsTo.query h hnext
  fromItem hnext := LeadsTo.fromItem h hnext
  expressionFrom hnext hand := LeadsTo.expressionFrom h hnext hand
  objectType hnext := LeadsTo.objectType h hnext
  elementType := LeadsTo.elementType h

/-- Where the first grammar has no level left, two levels are enough to begin with anything. -/
theorem Inside.exhausted (levels : Nat) : Inside .exhausted (.ofAllowance (levels + 2)) where
  analyze := LeadsTo.run_statement_analyze _
  statement _ := .fail
  query hnext := by
    refine ⟨LeadsTo.begins_query ?_ hnext, fun _ ↦ .fail⟩
    exact LeadsTo.begins_expressionFrom _ (mem_expressionEnds hnext)
      fun heq ↦ absurd heq (ne_keyword hnext _)
  fromItem hnext := ⟨LeadsTo.begins_fromItem _ hnext, fun _ ↦ .fail⟩
  expressionFrom hnext hand := ⟨LeadsTo.begins_expressionFrom _ hnext hand, fun _ ↦ .fail⟩
  objectType hnext := ⟨LeadsTo.begins_objectType _ hnext, fun _ ↦ .fail⟩
  elementType {_} := by
    -- Only the beginning counts, so the first rule may be any.
    have htype : Leads (.keyword .INT) (.symbol .rightParen) (.fail .noViableAlternative)
        (.dataType (.ofAllowance (levels + 1))) :=
      ⟨LeadsTo.begins_dataType _, fun _ ↦ .fail⟩
    exact ⟨(LeadsTo.parenthesized htype).begins, fun _ ↦ .fail⟩

/-- **The whole grammar completes**, if two more levels may be opened in completions. -/
theorem Inside.ofAllowance {fewer more : Nat} (h : fewer + 2 ≤ more) :
    Inside (.ofAllowance fewer) (.ofAllowance more) := by
  induction fewer generalizing more with
  | zero =>
    obtain ⟨levels, rfl⟩ : ∃ n, more = n + 2 := ⟨more - 2, by omega⟩
    exact .exhausted levels
  | succ fewer ih =>
    obtain ⟨more, rfl⟩ : ∃ n, more = n + 1 := ⟨more - 1, by omega⟩
    exact (ih (Nat.le_of_succ_le_succ h)).around

/-! ### The end of a statement -/

/-- What is read behind a statement: its end. -/
def ending (command : Command) : Rule Command := do
  unless (← .current).endsStatement do
    .fail (.mismatched ["<EOF>", Symbol.semicolon.quoted])
  return command

/-- What is done at the end of a statement. -/
theorem run_ending (command : Command) (d : Cursor) : (ending command).run d =
    if d.current.endsStatement then .done command d
    else .failed (.mismatched ["<EOF>", Symbol.semicolon.quoted]) d := by
  rw [ending, Rule.run_bind, Rule.run_current]
  simp only
  cases d.current.endsStatement <;> rfl

/-- The end of the batch ends a statement. -/
theorem starts_ending (command : Command) : Starts .eof (ending command) := by
  intro placeholders
  refine ⟨[], ⟨[], rfl⟩, nofun, fun d hd _ ↦ ⟨command, d, ?_⟩⟩
  rw [run_ending, current_eq_of_ahead hd]
  rfl

/-- The end of a statement passes nothing. -/
theorem completes_ending (command : Command) (c : Cursor) :
    Completes c (ending command) (ending command) := by
  cases hends : c.current.endsStatement with
  | false => exact .of_failed (by rw [run_ending, hends, if_neg Bool.false_ne_true])
  | true =>
    intro t passed behind cause after _ hfailed
    rw [run_ending, hends, if_pos rfl] at hfailed
    cases hfailed

/-- A statement from scratch is `ANALYZE`. -/
theorem starts_statement (inner : Nested) : Starts (.keyword .ANALYZE)
    (Rule.terminated (Rule.statement inner)) := by
  have hanalyze : Begins (.keyword .ANALYZE) .eof (Rule.statement inner) := by
    have hadvance : Begins (.keyword .ANALYZE) .eof
        (Rule.advance >>= fun _ ↦ return Command.analyze) :=
      .advance (.pure trivial) rfl rfl
    exact hadvance.congr fun d hd ↦
      LeadsTo.run_statement_analyze inner (by rw [hd]; rfl)
  exact hanalyze _ fun command _ ↦ starts_ending command

/-- Where reading a statement fails, what has been passed is completed by a statement. -/
theorem exists_rest {fewer more : Nat} (hlevels : fewer + 2 ≤ more) {c after : Cursor}
    {cause : SyntaxError.Cause} {passed behind : List Token} (hahead : c.ahead = passed ++ behind)
    (hfailed : (Rule.terminated (.statementWithin fewer)).run c = .failed cause after)
    (hposition : after.position = c.position + passed.length) :
    ∃ rest, EndsInEof rest ∧ ∀ d : Cursor, d.ahead = passed ++ rest →
      d.placeholders = c.placeholders → Accepts (Rule.terminated (.statementWithin more)) d := by
  cases passed with
  | nil =>
    -- Nothing has been read, so any statement does.
    obtain ⟨behind, hends, -, haccepts⟩ := starts_statement (.ofAllowance more) c.placeholders
    exact ⟨_, hends, haccepts⟩
  | cons t passed =>
    have hcompletes : Completes c (Rule.terminated (.statementWithin fewer))
        (Rule.terminated (.statementWithin more)) :=
      LeadsTo.continues_statement (.ofAllowance hlevels) c _ _ (fun a _ ↦ starts_ending a)
        fun a c' _ ↦ completes_ending a c'
    obtain ⟨rest, hends, -, haccepts⟩ := hcompletes hahead hfailed hposition
    exact ⟨rest, hends, haccepts⟩

end Completion

/-! ### Levels of nesting -/

/-- Whether an attempt at reading a statement never has more than a number of levels of nesting open
at once: where no more may be opened, it does not fail for that reason. -/
def staysWithin (levels : Nat) (tokens : List Token) (start : Nat) : Bool :=
  match (Rule.terminated (.statementWithin levels)).run (.ofTokens tokens start) with
  | .failed (.tooDeep _) _ => false
  | _ => true

/-- A query, its expression and an expression in parentheses are three levels. -/
example : staysWithin 3 (tokenize "SELECT (1") 0 ∧ ¬ staysWithin 2 (tokenize "SELECT (1") 0 := by
  decide +kernel

namespace Replay

/-- The second list is the first one. The first reading may have failed for lack of levels. -/
def deeper (stop : Nat) : Replay :=
  { itself stop with exempts := fun cause ↦ cause = .tooDeep Nested.maxDepth }

/-- A list of tokens is replayed by itself. -/
theorem agree_deeper {c after : Cursor} (h : c.Reaches after) :
    (deeper after.position).Agree c c :=
  .of_ahead_eq rfl (fun _ ↦ rfl) h rfl rfl rfl rfl nofun

end Replay

/-- More levels make the same of a statement, unless fewer levels were too few. -/
theorem matches_deeper {fewer more : Nat} (h : fewer ≤ more) {c : Cursor}
    {limited : Outcome Command}
    (hrun : (Rule.terminated (.statementWithin fewer)).run c = limited) :
    (Replay.deeper limited.cursor.position).Matches
      (Command.relabel (Replay.deeper limited.cursor.position).labels) limited
      ((Rule.terminated (.statementWithin more)).run c) := by
  subst hrun
  exact Replay.Replays.terminated (.statement (Replay.Inside.ofAllowance_of_le rfl h))
    (Replay.agree_deeper (Rule.forward _ c)) (Nat.le_refl _)

/-- What stays within fewer levels stays within more. -/
theorem staysWithin_mono {fewer more start : Nat} {tokens : List Token} (hle : fewer ≤ more)
    (h : staysWithin fewer tokens start) : staysWithin more tokens start := by
  rw [staysWithin] at h ⊢
  generalize hrun : (Rule.terminated (.statementWithin fewer)).run (.ofTokens tokens start) =
    limited at h
  have hmatch := matches_deeper hle hrun
  generalize (Rule.terminated (.statementWithin more)).run (.ofTokens tokens start) = outcome
    at hmatch ⊢
  cases hmatch with
  | done => rfl
  | @failed cause _ _ _ _ =>
    cases cause with
    | tooDeep limit => exact h
    | _ => rfl
  | exempt hcause =>
    rw [show _ = _ from hcause] at h
    cases h

/-- Where fewer levels are enough, the attempt fails at the same token with these alone. -/
theorem exists_failed_of_staysWithin {levels start : Nat} {tokens : List Token}
    (hlevels : levels ≤ Nested.maxDepth) (hstays : staysWithin levels tokens start)
    (hclean : ¬ (parseFrom tokens start).isClean) :
    ∃ cause after, (Rule.terminated (.statementWithin levels)).run (.ofTokens tokens start) =
      .failed cause after ∧ after.position = (parseFrom tokens start).stop := by
  rw [staysWithin] at hstays
  rw [parseFrom_eq, Rule.parse, Rule.terminatedStatement, Rule.topStatement] at hclean ⊢
  generalize hrun : (Rule.terminated (.statementWithin levels)).run (.ofTokens tokens start) =
    limited at hstays ⊢
  have hmatch := matches_deeper hlevels hrun
  generalize (Rule.terminated (.statementWithin Nested.maxDepth)).run (.ofTokens tokens start) =
    outcome at hmatch hclean ⊢
  cases hmatch with
  | done => exact absurd rfl hclean
  | failed _ hafter => exact ⟨_, _, rfl, hafter.position⟩
  | exempt hcause =>
    rw [show _ = _ from hcause] at hstays
    cases hstays

/-- The tokens in front of the offending one, with a completion behind them, from the first of them
on. -/
theorem drop_completed {tokens passed behind : List Token} {start : Nat} (t : Token)
    (rest : List Token) (h : tokens.drop start = passed ++ behind) :
    (tokens.take (start + passed.length) ++
      (List.replicate (start - tokens.length) t ++ rest)).drop start = passed ++ rest := by
  have htake : tokens.take (start + passed.length) = tokens.take start ++ passed := by
    rw [List.take_add, h, List.take_left]
  rw [htake]
  rcases Nat.lt_or_ge start tokens.length with hlt | hge
  · rw [Nat.sub_eq_zero_of_le (Nat.le_of_lt hlt), List.replicate_zero, List.nil_append,
      List.append_assoc]
    exact List.drop_left' (List.length_take_of_le (Nat.le_of_lt hlt))
  · -- Behind the end of the list, the completion has to reach the place where reading starts.
    rw [List.drop_eq_nil_of_le hge] at h
    rw [(List.append_eq_nil_iff.1 h.symm).1, List.append_nil, List.take_of_length_le hge,
      ← List.append_assoc, List.nil_append]
    exact List.drop_left' (by rw [List.length_append, List.length_replicate]; omega)

/-- **Errors point at the first divergence.** Where reading a statement fails, and no more levels of
nesting were open than two less than the limit, so that it does not fail for lack of levels, the
tokens in front of the offending one go on with some more, up to the end of the batch, to a
statement that is read. -/
theorem exists_completion {levels start : Nat} {tokens : List Token}
    (hlevels : levels + 2 ≤ Nested.maxDepth) (hclean : ¬ (parseFrom tokens start).isClean)
    (hstays : staysWithin levels tokens start) :
    ∃ completion, Completion.EndsInEof completion ∧
      (parseFrom (tokens.take (parseFrom tokens start).stop ++ completion) start).isClean := by
  obtain ⟨cause, after, hfailed, hstop⟩ :=
    exists_failed_of_staysWithin (Nat.le_trans (Nat.le_add_right _ _) hlevels) hstays hclean
  obtain ⟨passed, hahead, hposition, -⟩ := (Rule.reaches_of_run hfailed).exists_passed
  obtain ⟨rest, ⟨front, rfl⟩, haccepts⟩ := Completion.exists_rest hlevels hahead hfailed hposition
  have hdrop := drop_completed (.ofKind .eof) (front ++ [.ofKind .eof]) hahead
  have hstop' : (parseFrom tokens start).stop = start + passed.length := hstop ▸ hposition
  refine ⟨List.replicate (start - tokens.length) (.ofKind .eof) ++ (front ++ [.ofKind .eof]),
    ⟨_, (List.append_assoc ..).symm⟩, ?_⟩
  rw [hstop']
  obtain ⟨tree, after', hdone⟩ := haccepts (.ofTokens _ start) hdrop rfl
  change Rule.terminatedStatement.run _ = _ at hdone
  rw [parseFrom_eq, Rule.parse, hdone]
  rfl

/-- A case expression without arms, where `WHEN` is expected. -/
theorem exists_completion_case :
    60 + 2 ≤ Nested.maxDepth ∧ ¬ (parseFrom (tokenize "SELECT CASE a END") 0).isClean ∧
      staysWithin 60 (tokenize "SELECT CASE a END") 0 ∧
      ∃ completion, Completion.EndsInEof completion ∧
        (parseFrom ((tokenize "SELECT CASE a END").take
          (parseFrom (tokenize "SELECT CASE a END") 0).stop ++ completion) 0).isClean := by
  have hlevels : 60 + 2 ≤ Nested.maxDepth := by decide
  have hclean : ¬ (parseFrom (tokenize "SELECT CASE a END") 0).isClean := by decide +kernel
  have hstays : staysWithin 60 (tokenize "SELECT CASE a END") 0 := by decide +kernel
  exact ⟨hlevels, hclean, hstays, exists_completion hlevels hclean hstays⟩

end SqlBatch
