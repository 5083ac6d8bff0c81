import Mathlib.Data.List.Forall2
import SqlBatch.Proofs.Runs

/-!
# Progress and order

What holds of reading a batch whatever the dialect answers. Reading makes an attempt at most once a
token, each one behind the one before, and what it comes to depends on these attempts only
(`Run.withAttempts`). Every statement tells what came of one attempt (`Answers`). If the tokens lie
in the batch in order, then so do the statements (`Run.pairwise_spans`).

## How much reading there is

`openFrom i` counts the tokens from `i` on that are not the end of the batch. Each attempt is made
at one of them and goes on behind it, so there are no more attempts than such tokens
(`Run.length_calls_le`). Errors and violations are those of the last attempt that was made.

All of it together is `Configuration.parse_finishes`.
-/

namespace SqlBatch

namespace Batch

variable {batch : Batch} {raise : Bool} {i : Nat} {calls : List Nat}
  {result : Except BatchError (List Statement)}

/-! ### Attempts that are not made -/

/-- The same batch, in a dialect that answers attempts in another way. -/
def withAttempts (batch : Batch) (parseFrom : String → List Token → Nat → Attempt) : Batch :=
  { batch with dialect := { batch.dialect with parseFrom } }

section WithAttempts

variable {parseFrom : String → List Token → Nat → Attempt}

/-- The search for the end of a failed statement makes no attempt. -/
theorem boundaryFrom_withAttempts {start next : Nat} (h : start < next) (ts : List Token) :
    (batch.withAttempts parseFrom).boundaryFrom next h ts = batch.boundaryFrom next h ts := by
  induction ts generalizing next with
  | nil => rfl
  | cons t ts ih =>
    rw [boundaryFrom, boundaryFrom, ih]
    rfl

/-- Where a failed statement ends does not depend on other attempts. -/
theorem boundary_withAttempts {start offending : Nat} (h : start ≤ offending) (ts : List Token) :
    (batch.withAttempts parseFrom).boundary offending h ts = batch.boundary offending h ts := by
  cases ts with
  | nil => rfl
  | cons t ts =>
    rw [boundary, boundary, boundaryFrom_withAttempts]
    rfl

/-- What is made of a failure does not depend on other attempts. -/
theorem recover_withAttempts (first : Token) (error : SyntaxError) :
    (batch.withAttempts parseFrom).recover raise i first error =
      batch.recover raise i first error := by
  simp only [recover, boundary_withAttempts]
  rfl

/-- A step depends on the attempt that it makes alone. -/
theorem step_withAttempts (raise : Bool) (first : Token)
    (h : parseFrom batch.source batch.tokens i = batch.attempt i) :
    (batch.withAttempts parseFrom).step raise i first = batch.step raise i first := by
  have hattempt : (batch.withAttempts parseFrom).attempt i = batch.attempt i := h
  rw [attempt, attempt] at hattempt
  simp only [step, hattempt, recover_withAttempts]
  rfl

/-- Where a statement starts does not depend on attempts. -/
theorem StartsAt.withAttempts {t : Token} (h : batch.StartsAt i t) :
    (batch.withAttempts parseFrom).StartsAt i t :=
  ⟨h.token, h.isEof, h.isTerminator⟩

/-- **A run depends on nothing but the attempts that it makes.** -/
theorem Run.withAttempts (h : batch.Run raise i calls result)
    (hsame : ∀ j ∈ calls, parseFrom batch.source batch.tokens j = batch.attempt j) :
    (batch.withAttempts parseFrom).Run raise i calls result := by
  induction h with
  | eof ht heof => exact .eof ht heof
  | skip ht hopen hterminator _ ih => exact .skip ht hopen hterminator (ih hsame)
  | @abort i t _ hstart hstep =>
    have hstep' := step_withAttempts raise t (hsame i (List.mem_singleton_self i))
    exact .abort hstart.withAttempts (hstep'.trans hstep)
  | @last i t _ hstart hstep =>
    have hstep' := step_withAttempts raise t (hsame i (List.mem_singleton_self i))
    exact .last hstart.withAttempts (hstep'.trans hstep)
  | @next i t _ _ _ _ hstart hstep _ ih =>
    have hstep' := step_withAttempts raise t (hsame i List.mem_cons_self)
    exact .next hstart.withAttempts (hstep'.trans hstep)
      (ih fun j hj ↦ hsame j (List.mem_cons_of_mem i hj))

end WithAttempts

/-! ### The attempts of a run -/

/-- **Every attempt is behind the one before.** -/
theorem Run.pairwise_calls (h : batch.Run raise i calls result) :
    calls.Pairwise (· < ·) ∧ ∀ j ∈ calls, i ≤ j := by
  induction h with
  | eof => exact ⟨.nil, List.forall_mem_nil _⟩
  | skip _ _ _ _ ih => exact ⟨ih.1, fun j hj ↦ Nat.le_of_succ_le (ih.2 j hj)⟩
  | abort => exact ⟨List.pairwise_singleton _ _, List.forall_mem_singleton.2 (Nat.le_refl _)⟩
  | last => exact ⟨List.pairwise_singleton _ _, List.forall_mem_singleton.2 (Nat.le_refl _)⟩
  | @next i _ _ n _ _ _ _ _ ih =>
    have hbehind : ∀ j ∈ _, i < j := fun j hj ↦ Nat.lt_of_lt_of_le n.2 (ih.2 j hj)
    exact ⟨.cons hbehind ih.1,
      List.forall_mem_cons.2 ⟨Nat.le_refl i, fun j hj ↦ Nat.le_of_lt (hbehind j hj)⟩⟩

/-- Attempts are made where statements start. -/
theorem Run.exists_startsAt (h : batch.Run raise i calls result) :
    ∀ j ∈ calls, ∃ t, batch.StartsAt j t := by
  induction h with
  | eof => exact List.forall_mem_nil _
  | skip _ _ _ _ ih => exact ih
  | abort hstart => exact List.forall_mem_singleton.2 ⟨_, hstart⟩
  | last hstart => exact List.forall_mem_singleton.2 ⟨_, hstart⟩
  | next hstart _ _ ih => exact List.forall_mem_cons.2 ⟨⟨_, hstart⟩, ih⟩

/-- The number of tokens from an index on that are not the end of the batch. -/
def openFrom (batch : Batch) (i : Nat) : Nat :=
  (batch.tokens.drop i).countP fun t ↦ !t.isEof

/-- Further on, there are no more tokens left. -/
theorem openFrom_le_of_le {j : Nat} (h : i ≤ j) : batch.openFrom j ≤ batch.openFrom i :=
  (List.drop_sublist_drop_left _ h).countP_le

/-- Behind a token where a statement starts, there is one less. -/
theorem StartsAt.openFrom_eq {t : Token} (h : batch.StartsAt i t) :
    batch.openFrom i = batch.openFrom (i + 1) + 1 := by
  obtain ⟨hi, rfl⟩ := List.getElem?_eq_some_iff.1 h.token
  rw [openFrom, List.drop_eq_getElem_cons hi, List.countP_cons_of_pos (by rw [h.isEof]; rfl)]
  rfl

/-- **A run makes at most one attempt a token.** -/
theorem Run.length_calls_le (h : batch.Run raise i calls result) :
    calls.length ≤ batch.openFrom i := by
  induction h with
  | eof => exact Nat.zero_le _
  | skip _ _ _ _ ih => exact Nat.le_trans ih (openFrom_le_of_le (Nat.le_succ _))
  | abort hstart =>
    rw [hstart.openFrom_eq]
    exact Nat.le_add_left _ _
  | last hstart =>
    rw [hstart.openFrom_eq]
    exact Nat.le_add_left _ _
  | @next _ _ _ n _ _ hstart _ _ ih =>
    rw [hstart.openFrom_eq]
    exact Nat.succ_le_succ (Nat.le_trans ih (openFrom_le_of_le n.2))

/-- A run that fails does so at its last attempt. -/
theorem Run.exists_step_of_error (h : batch.Run raise i calls result) {error : BatchError}
    (herror : result = .error error) :
    ∃ j t, calls.getLast? = some j ∧ batch.StartsAt j t ∧ batch.step raise j t = .error error := by
  induction h with
  | eof => cases herror
  | skip _ _ _ _ ih => exact ih herror
  | abort hstart hstep =>
    cases herror
    exact ⟨_, _, List.getLast?_singleton, hstart, hstep⟩
  | last => cases herror
  | @next _ _ _ _ calls result _ _ _ ih =>
    cases result with
    | ok => cases herror
    | error =>
      cases herror
      obtain ⟨j, t, hlast, hj⟩ := ih rfl
      exact ⟨j, t, by rw [List.getLast?_cons, hlast]; rfl, hj⟩

/-! ### The statements of a run -/

/-- The statement tells what came of the attempt at an index. -/
structure Answers (batch : Batch) (i : Nat) (s : Statement) : Prop where
  batch_eq : s.batch = batch.source
  starts : ∃ t, batch.StartsAt i t ∧ s.span.start = t.span.start
  closes : ∃ resume, batch.Closes i s.span.stop resume
  tree : ∀ tree, s.tree? = some tree →
    (batch.attempt i).errors = [] ∧ (batch.attempt i).tree = some tree
  /-- Of several errors the earliest one counts. -/
  error : ∀ e, s.error? = some e → ∃ error, error.IsEarliest (batch.attempt i).errors ∧
    e = .ofSyntaxError error s.span.start batch.index

/-- A statement tells what came of the attempt of its step. -/
theorem IsClosed.answers_of_step (hclosed : batch.IsClosed) {t : Token}
    (hstart : batch.StartsAt i t) {s : Statement} {resume : Option { next : Nat // i < next }}
    (h : batch.step raise i t = .ok (s, resume)) :
    batch.Answers i s ∧ batch.Closes i s.span.stop resume := by
  have hstep := hclosed.stepsTo_step raise i t
  rw [h] at hstep
  cases hstep with
  | read herrors htree hcloses =>
    refine ⟨⟨rfl, ⟨t, hstart, rfl⟩, ⟨_, hcloses⟩, ?_, ?_⟩, hcloses⟩
    · rintro _ ⟨⟩
      exact ⟨herrors, htree⟩
    · rintro _ ⟨⟩
  | failed _ hearliest hcloses =>
    refine ⟨⟨rfl, ⟨t, hstart, rfl⟩, ⟨_, hcloses⟩, ?_, ?_⟩, hcloses⟩
    · rintro _ ⟨⟩
    · rintro _ ⟨⟩
      exact ⟨_, hearliest, rfl⟩

/-- **Every statement answers one attempt**, in order. -/
theorem Run.forall₂_answers (hclosed : batch.IsClosed) (h : batch.Run raise i calls result)
    {ss : List Statement} (hss : result = .ok ss) : List.Forall₂ batch.Answers calls ss := by
  induction h generalizing ss with
  | eof =>
    cases hss
    exact .nil
  | skip _ _ _ _ ih => exact ih hss
  | abort => cases hss
  | last hstart hstep =>
    cases hss
    exact .cons (hclosed.answers_of_step hstart hstep).1 .nil
  | @next _ _ _ _ _ result hstart hstep _ ih =>
    cases result with
    | error => cases hss
    | ok =>
      cases hss
      exact .cons (hclosed.answers_of_step hstart hstep).1 (ih rfl)

/-- Every statement of a run tells what came of one of its attempts. -/
theorem Run.exists_answers_of_mem (hclosed : batch.IsClosed) (h : batch.Run raise i calls result)
    {ss : List Statement} (hss : result = .ok ss) {s : Statement} (hs : s ∈ ss) :
    ∃ j ∈ calls, batch.Answers j s := by
  have hanswers := h.forall₂_answers hclosed hss
  obtain ⟨k, hk, rfl⟩ := List.mem_iff_getElem.1 hs
  have hk' : k < calls.length := by rwa [hanswers.length_eq]
  exact ⟨calls[k], List.getElem_mem hk', hanswers.get hk' hk⟩

/-! ### Tokens in order -/

/-- The tokens lie in the batch in order, the end of the batch behind the last byte. -/
structure IsSorted (batch : Batch) : Prop where
  pairwise : batch.tokens.Pairwise fun t u ↦ t.span.start ≤ u.span.start
  start_eof : ∀ t ∈ batch.tokens, t.isEof → t.span.start = batch.size

namespace IsSorted

/-- Tokens further on start later. -/
theorem start_le (h : batch.IsSorted) {j : Nat} {t u : Token} (ht : batch.tokens[i]? = some t)
    (hu : batch.tokens[j]? = some u) (hij : i ≤ j) : t.span.start ≤ u.span.start := by
  obtain ⟨hi, rfl⟩ := List.getElem?_eq_some_iff.1 ht
  obtain ⟨hj, rfl⟩ := List.getElem?_eq_some_iff.1 hu
  rcases Nat.lt_or_eq_of_le hij with hij | rfl
  · exact List.pairwise_iff_getElem.1 h.pairwise i j hi hj hij
  · exact Nat.le_refl _

/-- A token starts within the batch. -/
theorem start_le_size (h : batch.IsSorted) (hclosed : batch.IsClosed) {t : Token}
    (ht : batch.tokens[i]? = some t) : t.span.start ≤ batch.size := by
  obtain ⟨hi, -⟩ := List.getElem?_eq_some_iff.1 ht
  have hlt : batch.tokens.length - 1 < batch.tokens.length := by omega
  have hlast := List.getElem?_eq_getElem hlt
  have heof := (hclosed.isEof_iff hlast).2 (by omega)
  rw [← h.start_eof _ (List.mem_of_getElem? hlast) heof]
  exact h.start_le ht hlast (by omega)

end IsSorted

/-- A statement ends in the batch, and not before its first token. -/
theorem Closes.bounds (hclosed : batch.IsClosed) (hsorted : batch.IsSorted) {stop : Nat}
    {resume : Option { next : Nat // i < next }} (h : batch.Closes i stop resume) {t : Token}
    (ht : batch.tokens[i]? = some t) : t.span.start ≤ stop ∧ stop ≤ batch.size := by
  cases h with
  | eof hle hclosing _ hstop =>
    rcases hstop with rfl | rfl
    · exact ⟨hsorted.start_le ht hclosing hle, hsorted.start_le_size hclosed hclosing⟩
    · exact ⟨hsorted.start_le_size hclosed ht, Nat.le_refl _⟩
  | behind hlt hclosing _ _ hstop =>
    rw [hstop]
    exact ⟨hsorted.start_le ht hclosing (Nat.le_of_lt_succ hlt),
      hsorted.start_le_size hclosed hclosing⟩
  | here hlt hclosing _ _ hstop =>
    rw [hstop]
    exact ⟨hsorted.start_le ht hclosing (Nat.le_of_lt hlt), hsorted.start_le_size hclosed hclosing⟩

/-- A statement ends before the tokens from where reading goes on. -/
theorem Closes.stop_le (hsorted : batch.IsSorted) {stop : Nat} {n : { n : Nat // i < n }}
    (h : batch.Closes i stop (some n)) {j : Nat} {u : Token} (hu : batch.tokens[j]? = some u)
    (hj : n.1 ≤ j) : stop ≤ u.span.start := by
  cases h with
  | behind _ hclosing _ _ hstop =>
    rw [hstop]
    exact hsorted.start_le hclosing hu (Nat.le_of_succ_le hj)
  | here _ hclosing _ _ hstop =>
    rw [hstop]
    exact hsorted.start_le hclosing hu hj

/-- **Statements neither overlap nor change places.** -/
theorem Run.pairwise_spans (hclosed : batch.IsClosed) (hsorted : batch.IsSorted)
    (h : batch.Run raise i calls result) {ss : List Statement} (hss : result = .ok ss) :
    ss.Pairwise fun s u ↦ s.span.stop ≤ u.span.start := by
  induction h generalizing ss with
  | eof =>
    cases hss
    exact .nil
  | skip _ _ _ _ ih => exact ih hss
  | abort => cases hss
  | last =>
    cases hss
    exact List.pairwise_singleton _ _
  | @next _ _ s n calls result hstart hstep hrun ih =>
    cases result with
    | error => cases hss
    | ok =>
      cases hss
      refine .cons (fun u hu ↦ ?_) (ih rfl)
      obtain ⟨-, hcloses⟩ := hclosed.answers_of_step hstart hstep
      -- The statement `u` answers an attempt at or behind the token where reading went on.
      obtain ⟨j, hj, hanswers⟩ := hrun.exists_answers_of_mem hclosed rfl hu
      obtain ⟨t, ht, hu⟩ := hanswers.starts
      rw [hu]
      exact hcloses.stop_le hsorted ht.token (hrun.pairwise_calls.2 j hj)

/-- A statement lies within the batch. -/
theorem Answers.bounds (hclosed : batch.IsClosed) (hsorted : batch.IsSorted) {s : Statement}
    (h : batch.Answers i s) : s.span.start ≤ s.span.stop ∧ s.span.stop ≤ batch.size := by
  obtain ⟨t, ht, hs⟩ := h.starts
  obtain ⟨resume, hcloses⟩ := h.closes
  rw [hs]
  exact hcloses.bounds hclosed hsorted ht.token

/-! ### Reading ends -/

/-- What reading a batch comes to whatever the dialect answers, with the indices at which it asks
the dialect for a statement. -/
structure Finishes (batch : Batch) (raise : Bool) (calls : List Nat)
    (result : Except BatchError (List Statement)) : Prop where
  run : batch.Run raise 0 calls result
  increasing : calls.Pairwise (· < ·)
  starts : ∀ i ∈ calls, ∃ t, batch.StartsAt i t
  /-- What the dialect would answer elsewhere does not matter. -/
  asked : ∀ parseFrom, (∀ i ∈ calls, parseFrom batch.source batch.tokens i = batch.attempt i) →
    (batch.withAttempts parseFrom).statementsFrom raise 0 = result
  answers : ∀ ss, result = .ok ss → List.Forall₂ batch.Answers calls ss
  length_le : ∀ ss, result = .ok ss → ss.length ≤ batch.tokens.countP fun t ↦ !t.isEof
  /-- The error that is raised is the earliest one of the last attempt. -/
  raised : ∀ e, result = .error (.syntaxError e) → raise ∧ ∃ i t error,
    calls.getLast? = some i ∧ batch.StartsAt i t ∧ error.IsEarliest (batch.attempt i).errors ∧
      e = .ofSyntaxError error t.span.start batch.index
  /-- An index is out of range only where the dialect says that it stopped there. -/
  outOfRange : ∀ name position, result = .error (.contract name position .indexOutOfRange) →
    name = batch.dialect.name ∧ batch.tokens.length ≤ position ∧ ∃ i,
      calls.getLast? = some i ∧ (batch.attempt i).errors = [] ∧ (batch.attempt i).stop = position
  bounds : batch.IsSorted → ∀ ss, result = .ok ss → ∀ s ∈ ss,
    s.span.start ≤ s.span.stop ∧ s.span.stop ≤ batch.size
  ordered : batch.IsSorted → ∀ ss, result = .ok ss →
    ss.Pairwise fun s u ↦ s.span.stop ≤ u.span.start

/-- An error that is raised is the earliest of the last attempt. -/
theorem Run.raised_of_error (hclosed : batch.IsClosed) (h : batch.Run raise i calls result)
    {e : LocatedError} (herror : result = .error (.syntaxError e)) : raise ∧ ∃ j t error,
      calls.getLast? = some j ∧ batch.StartsAt j t ∧
        error.IsEarliest (batch.attempt j).errors ∧
          e = .ofSyntaxError error t.span.start batch.index := by
  obtain ⟨j, t, hlast, hstart, hstep⟩ := h.exists_step_of_error herror
  have hsteps := hclosed.stepsTo_step raise j t
  rw [hstep] at hsteps
  cases hsteps with
  | raised hraise hearliest => exact ⟨hraise, j, t, _, hlast, hstart, hearliest, rfl⟩

/-- A stop out of range is that of the last attempt, which had no errors. -/
theorem Run.outOfRange_of_error (hclosed : batch.IsClosed) (h : batch.Run raise i calls result)
    {name : String} {position : Nat}
    (herror : result = .error (.contract name position .indexOutOfRange)) :
    name = batch.dialect.name ∧ batch.tokens.length ≤ position ∧ ∃ j,
      calls.getLast? = some j ∧ (batch.attempt j).errors = [] ∧
        (batch.attempt j).stop = position := by
  obtain ⟨j, t, hlast, -, hstep⟩ := h.exists_step_of_error herror
  have hsteps := hclosed.stepsTo_step raise j t
  rw [hstep] at hsteps
  cases hsteps with
  | outOfRange herrors hstop hle => exact ⟨rfl, hle, j, hlast, herrors, hstop⟩
  | violated hne => exact absurd rfl hne

/-- **What a run comes to.** -/
theorem Run.finishes (hclosed : batch.IsClosed) (h : batch.Run raise 0 calls result) :
    batch.Finishes raise calls result where
  run := h
  increasing := h.pairwise_calls.1
  starts := h.exists_startsAt
  asked _ hsame := (h.withAttempts hsame).statementsFrom_eq
  answers _ hss := h.forall₂_answers hclosed hss
  length_le _ hss := by
    rw [← (h.forall₂_answers hclosed hss).length_eq]
    exact h.length_calls_le
  raised _ herror := h.raised_of_error hclosed herror
  outOfRange _ _ herror := h.outOfRange_of_error hclosed herror
  bounds hsorted _ hss s hs := by
    obtain ⟨j, -, hanswers⟩ := h.exists_answers_of_mem hclosed hss hs
    exact hanswers.bounds hclosed hsorted
  ordered hsorted _ hss := h.pairwise_spans hclosed hsorted hss

end Batch

/-- **Reading a batch finishes**, in every dialect and whether errors are raised or collected. If
the tokens do not close the batch, then no attempt is made. -/
theorem Configuration.parse_finishes (configuration : Configuration) (source : String) :
    (∃ position violation, Batch.open? configuration.dialect source =
        .error (.contract configuration.dialect.name position violation) ∧
      configuration.parse source =
        .error (.contract configuration.dialect.name position violation)) ∨
    ∃ batch calls, Batch.open? configuration.dialect source = .ok batch ∧
      batch.Finishes configuration.raiseOnError calls (configuration.parse source) := by
  rcases Batch.open?_cases configuration.dialect source with
    ⟨batch, hopen, hclosed, -⟩ | ⟨position, violation, hopen⟩
  · obtain ⟨calls, hrun⟩ :=
      hclosed.exists_run configuration.raiseOnError hclosed.length_pos
    refine .inr ⟨batch, calls, hopen, ?_⟩
    simp only [parse, hopen]
    exact hrun.finishes hclosed
  · refine .inl ⟨position, violation, hopen, ?_⟩
    simp only [parse, hopen]
    rfl

end SqlBatch
