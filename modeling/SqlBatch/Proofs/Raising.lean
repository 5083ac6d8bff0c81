import SqlBatch.Proofs.ParseBatch

/-!
# Raising the first failure

Reading a batch that raises errors is reading that collects them, cut off at the first statement
that fails (`Raises`). Both make the same attempts up to that statement, and nothing is assumed of
the dialect that answers them.

## Failures and violations

A dialect may break its contract, and then reading stops in both ways. If no statement has failed
until then, it stops with the same violation. If one has, raising errors has stopped there before:
it never gets to see the violation (`Raises.failedBefore`). This includes a violation that is met
only while the end of a failed statement is looked for, since raising does not look for it.

## The step

`StepRaises` compares one step of both: they are the same step, or the attempt has failed, and the
one keeps the failure that the other raises. A run is an induction with this step (`Run.raises`).
-/

namespace SqlBatch

/-- What raising errors makes of a batch, by what collecting them makes of it. -/
inductive Raises : Except BatchError (List Statement) → Except BatchError (List Statement) → Prop
  /-- No statement failed. -/
  | clean {ss : List Statement} : (∀ s ∈ ss, s.isOk) → Raises (.ok ss) (.ok ss)
  /-- The error of the first statement that failed is raised. -/
  | failed {before behind : List Statement} {s : Statement} {error : LocatedError} :
    (∀ s ∈ before, s.isOk) → s.error? = some error →
    Raises (.ok (before ++ s :: behind)) (.error (.syntaxError error))
  /-- The same violation is met. -/
  | violated {dialect : String} {position : Nat} {violation : Violation} :
    Raises (.error (.contract dialect position violation))
      (.error (.contract dialect position violation))
  /-- The error of a statement is raised before the violation is met. -/
  | failedBefore {dialect : String} {position : Nat} {violation : Violation}
    {error : LocatedError} :
    Raises (.error (.contract dialect position violation)) (.error (.syntaxError error))

namespace Raises

variable {collected raised : Except BatchError (List Statement)} {s : Statement}

/-- A statement in front that was read stays. -/
theorem cons (h : Raises collected raised) (hs : s.isOk) :
    Raises (collected.map (s :: ·)) (raised.map (s :: ·)) := by
  cases h with
  | clean hss => exact .clean (List.forall_mem_cons.2 ⟨hs, hss⟩)
  | @failed before behind t _ hbefore herror =>
    show Raises (.ok (s :: before ++ t :: behind)) _
    exact .failed (List.forall_mem_cons.2 ⟨hs, hbefore⟩) herror
  | violated => exact .violated
  | failedBefore => exact .failedBefore

/-- A statement in front that failed is raised, whatever comes behind it. -/
theorem cons_failed (h : Raises collected raised) {error : LocatedError}
    (hs : s.error? = some error) :
    Raises (collected.map (s :: ·)) (.error (.syntaxError error)) := by
  have hnil : ∀ s ∈ ([] : List Statement), s.isOk := List.forall_mem_nil _
  cases h with
  | clean => exact .failed hnil hs
  | failed => exact .failed hnil hs
  | violated => exact .failedBefore
  | failedBefore => exact .failedBefore

/-- Raising has the collected statements or an error of one of them, if there are statements. -/
theorem eq_or_of_ok {ss : List Statement} (h : Raises (.ok ss) raised) :
    raised = .ok ss ∨ ∃ error, raised = .error (.syntaxError error) := by
  cases h with
  | clean => exact .inl rfl
  | failed => exact .inr ⟨_, rfl⟩

end Raises

namespace Batch

variable {batch : Batch} {i : Nat}

/-- What raising errors makes of one step, by what collecting them makes of it. -/
inductive StepRaises (batch : Batch) {i : Nat} :
    Except BatchError (Step i) → Except BatchError (Step i) → Prop
  | read {s : Statement} {resume : Option { next : Nat // i < next }} : s.isOk →
    StepRaises batch (.ok (s, resume)) (.ok (s, resume))
  | failed {s : Statement} {resume : Option { next : Nat // i < next }} {error : LocatedError} :
    s.error? = some error → StepRaises batch (.ok (s, resume)) (.error (.syntaxError error))
  | violated {position : Nat} {violation : Violation} :
    StepRaises batch (.error (batch.violation position violation))
      (.error (batch.violation position violation))
  | failedBefore {position : Nat} {violation : Violation} {error : LocatedError} :
    StepRaises batch (.error (batch.violation position violation)) (.error (.syntaxError error))

/-- A tree is taken alike in both. -/
theorem stepRaises_accept (first : Token) (tree : Command) (stop : Nat) :
    batch.StepRaises (batch.accept i first tree stop) (batch.accept i first tree stop) := by
  rw [accept]
  split
  · exact .violated
  · split
    · exact .read rfl
    · exact .violated

/-- A failure is kept by the one and raised by the other. -/
theorem stepRaises_recover (first : Token) (error : SyntaxError) :
    batch.StepRaises (batch.recover false i first error) (batch.recover true i first error) := by
  simp only [recover, Bool.false_eq_true, if_false, if_true]
  split
  · exact .failedBefore
  · exact .failed rfl

theorem stepRaises_step (first : Token) :
    batch.StepRaises (batch.step false i first) (batch.step true i first) := by
  simp only [step]
  split
  · split
    · exact .violated
    · exact stepRaises_recover first _
  · split
    · exact .violated
    · exact stepRaises_accept first _ _

namespace StartsAt

variable {t : Token}

/-- A violation that stops reading is met as well when errors are raised, or a failure before it. -/
theorem raises_of_error (hstart : batch.StartsAt i t) {error : BatchError}
    (hstep : batch.step false i t = .error error) :
    Raises (.error error) (batch.statementsFrom true i) := by
  have hraises := batch.stepRaises_step (i := i) t
  rw [hstep] at hraises
  rw [hstart.statementsFrom_eq]
  generalize batch.step true i t = answer at hraises ⊢
  cases hraises with
  | violated => exact .violated
  | failedBefore => exact .failedBefore

/-- Raising errors either takes the same step to the same statement, or ends with its error. -/
theorem step_or_error (hstart : batch.StartsAt i t) {s : Statement}
    {resume : Option { next : Nat // i < next }} (hstep : batch.step false i t = .ok (s, resume)) :
    (s.isOk ∧ batch.step true i t = .ok (s, resume)) ∨
      ∃ error, s.error? = some error ∧
        batch.statementsFrom true i = .error (.syntaxError error) := by
  have hraises := batch.stepRaises_step (i := i) t
  rw [hstep] at hraises
  rw [hstart.statementsFrom_eq]
  generalize batch.step true i t = answer at hraises ⊢
  cases hraises with
  | read hs => exact .inl ⟨hs, rfl⟩
  | failed herror => exact .inr ⟨_, herror, rfl⟩

end StartsAt

/-- **Raising follows a run up to its first failure.** -/
theorem Run.raises {calls : List Nat} {result : Except BatchError (List Statement)}
    (h : batch.Run false i calls result) : Raises result (batch.statementsFrom true i) := by
  induction h with
  | eof ht heof =>
    rw [statementsFrom_of_getElem? true ht, if_pos heof]
    exact .clean (List.forall_mem_nil _)
  | skip ht hopen hterminator _ ih =>
    rw [statementsFrom_of_getElem? true ht, hopen, hterminator]
    exact ih
  | abort hstart hstep => exact hstart.raises_of_error hstep
  | last hstart hstep =>
    rcases hstart.step_or_error hstep with ⟨hs, hraised⟩ | ⟨error, herror, hraised⟩
    · rw [hstart.statementsFrom_eq, hraised]
      exact .clean (List.forall_mem_singleton.2 hs)
    · rw [hraised]
      exact .failed (List.forall_mem_nil _) herror
  | next hstart hstep _ ih =>
    -- The statement was read, or it failed and its error is raised.
    rcases hstart.step_or_error hstep with ⟨hs, hraised⟩ | ⟨error, herror, hraised⟩
    · rw [hstart.statementsFrom_eq, hraised]
      exact ih.cons hs
    · rw [hraised]
      exact ih.cons_failed herror

end Batch

/-- Raising errors stops where collecting them finds the first one, in any dialect. -/
theorem Configuration.raises_parse (dialect : Dialect) (source : String) :
    Raises (parse ⟨dialect, false⟩ source) (parse ⟨dialect, true⟩ source) := by
  rcases Batch.open?_cases dialect source with ⟨batch, hopen, hclosed, -⟩ | ⟨_, _, hopen⟩
  · obtain ⟨calls, hrun⟩ := hclosed.exists_run false hclosed.length_pos
    simp only [parse, hopen]
    exact hrun.raises
  · simp only [parse, hopen]
    exact .violated

/-- **Raising errors is collecting them, cut off at the first failure**, for every dialect and
batch. In the built-in dialect there is always a list of statements to cut off. -/
theorem raises_of_collected (source : String) :
    (∀ dialect : Dialect, Raises (Configuration.parse ⟨dialect, false⟩ source)
      (Configuration.parse ⟨dialect, true⟩ source)) ∧
    ∃ statements, parseBatch source false = .ok statements ∧
      Raises (.ok statements) (parseBatch source true) := by
  refine ⟨fun dialect ↦ Configuration.raises_parse dialect source, ?_⟩
  obtain ⟨ps, hps⟩ := exists_splits_tokenize source
  have hcollected := parseBatch_of_splits hps
  refine ⟨_, hcollected, ?_⟩
  rw [← hcollected]
  exact Configuration.raises_parse .crateDb source

end SqlBatch
