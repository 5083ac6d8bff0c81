import SqlBatch.Batch

/-!
# Runs over a batch

Reading a batch is a run: a list of attempts, each of them at a token behind the one before, and
what comes of them (`Run`). Nothing is assumed of the dialect. What an attempt can come to is said
once (`StepsTo`), and with it that every run ends (`IsClosed.exists_run`): a batch is closed by its
only end token, and wherever reading goes on, it goes on at or behind a token that is not this one.

## One step and all steps

`StepsTo` has a case for each way in which an attempt is used: it is taken as a statement, it is
raised as an error, it is kept as a failed statement with its bounds, or it breaks the contract. All
that is proved of batches in `SqlBatch.Proofs.Progress` is proved by induction on a run, with these
cases for the step.
-/

namespace SqlBatch

/-- The first item behind a number of them. -/
theorem getElem?_of_drop {α : Type} {xs ys : List α} {x : α} {i : Nat}
    (h : xs.drop i = x :: ys) : xs[i]? = some x := by
  have := congrArg (·[0]?) h
  simpa using this

/-- One more item is dropped. -/
theorem drop_succ_of_drop {α : Type} {xs ys : List α} {x : α} {i : Nat}
    (h : xs.drop i = x :: ys) : xs.drop (i + 1) = ys := by
  rw [← List.drop_drop, h, List.drop_one, List.tail_cons]

namespace SyntaxError

/-- Among some errors, the one whose token starts first; of several such, the first. -/
def IsEarliest (error : SyntaxError) (errors : List SyntaxError) : Prop :=
  ∃ before behind, errors = before ++ error :: behind ∧
    (∀ e ∈ before, error.span.start < e.span.start) ∧
      ∀ e ∈ behind, error.span.start ≤ e.span.start

/-- Only where there are no errors, none is the earliest. -/
theorem earliest?_eq_none {errors : List SyntaxError} (h : earliest? errors = none) :
    errors = [] := by
  cases errors with
  | nil => rfl
  | cons error errors =>
    rw [earliest?] at h
    split at h
    · split at h <;> cases h
    · cases h

/-- The error that is found is the earliest. -/
theorem isEarliest_of_earliest? {errors : List SyntaxError} {error : SyntaxError}
    (h : earliest? errors = some error) : error.IsEarliest errors := by
  induction errors generalizing error with
  | nil => cases h
  | cons first errors ih =>
    rw [earliest?] at h
    split at h
    · rename_i other hother
      obtain ⟨before, behind, rfl, hbefore, hbehind⟩ := ih hother
      split at h
      · rename_i hle
        cases h
        refine ⟨[], before ++ other :: behind, rfl, by simp, fun e he ↦ ?_⟩
        rcases List.mem_append.1 he with he | he
        · exact Nat.le_of_lt (Nat.lt_of_le_of_lt hle (hbefore e he))
        · rcases List.mem_cons.1 he with rfl | he
          · exact hle
          · exact Nat.le_trans hle (hbehind e he)
      · rename_i hlt
        cases h
        refine ⟨first :: before, behind, rfl, ?_, hbehind⟩
        exact List.forall_mem_cons.2 ⟨Nat.lt_of_not_le hlt, hbefore⟩
    · rename_i hnone
      cases h
      exact ⟨[], [], by rw [earliest?_eq_none hnone]; rfl, by simp, by simp⟩

end SyntaxError

namespace Batch

variable {batch : Batch}

/-- One token of the loop over a batch. -/
theorem statementsFrom_of_getElem? {i : Nat} {first : Token} (raise : Bool)
    (h : batch.tokens[i]? = some first) :
    batch.statementsFrom raise i =
      if first.isEof then .ok []
      else if batch.dialect.isTerminator first then batch.statementsFrom raise (i + 1)
      else
        match batch.step raise i first with
        | .error error => .error error
        | .ok (statement, none) => .ok [statement]
        | .ok (statement, some ⟨next, _⟩) =>
          (batch.statementsFrom raise next).map (statement :: ·) := by
  rw [statementsFrom]
  split
  · rename_i hnone
    rw [h] at hnone
    cases hnone
  · rename_i first' hsome
    obtain rfl : first = first' := Option.some.inj (h.symm.trans hsome)
    rfl

/-! ### Batches that are closed -/

/-- The last token is the end of the batch, and no other one is. -/
structure IsClosed (batch : Batch) : Prop where
  length_pos : 0 < batch.tokens.length
  isEof_iff : ∀ {i t}, batch.tokens[i]? = some t → (t.isEof ↔ i + 1 = batch.tokens.length)

/-- Cutting a batch into tokens closes it, or else the dialect broke its contract. -/
theorem open?_cases (dialect : Dialect) (source : String) :
    (∃ batch, open? dialect source = .ok batch ∧ batch.IsClosed ∧ batch.dialect = dialect ∧
      batch.source = source) ∨
    ∃ position violation, open? dialect source =
      .error (.contract dialect.name position violation) := by
  simp only [open?]
  split
  · rename_i position hfind
    split
    · rename_i hlast
      obtain ⟨hlt, heof, hopen⟩ := List.findIdx?_eq_some_iff_getElem.1 hfind
      refine .inl ⟨_, rfl, ⟨Nat.zero_lt_of_lt hlt, ?_⟩, rfl, rfl⟩
      intro i t ht
      show t.isEof ↔ i + 1 = (dialect.tokenize source).length
      obtain ⟨hi, rfl⟩ : ∃ h : i < (dialect.tokenize source).length, _ = t :=
        List.getElem?_eq_some_iff.1 ht
      constructor
      · intro hti
        rcases Nat.lt_or_ge i position with hbefore | hbehind
        · exact absurd hti (hopen i hbefore)
        · omega
      · intro hi
        obtain rfl : i = position := by omega
        exact heof
    · exact .inr ⟨_, _, rfl⟩
  · exact .inr ⟨_, _, rfl⟩

namespace IsClosed

/-- Another token stands behind every one that is not the end of the batch. -/
theorem succ_lt (h : batch.IsClosed) {i : Nat} {t : Token} (ht : batch.tokens[i]? = some t)
    (hopen : t.isEof = false) : i + 1 < batch.tokens.length := by
  obtain ⟨hlt, -⟩ := List.getElem?_eq_some_iff.1 ht
  have hlast : i + 1 ≠ batch.tokens.length := by
    rw [Ne, ← h.isEof_iff ht, hopen]
    exact Bool.false_ne_true
  omega

end IsClosed

/-! ### What an attempt comes to -/

/-- What the dialect answers when it is asked for the statement at an index. -/
def attempt (batch : Batch) (i : Nat) : Attempt :=
  batch.dialect.parseFrom batch.source batch.tokens i

/-- Where a statement that starts at an index ends, and where reading goes on: not at all at the
end of the batch, and else behind a terminator or at a statement keyword. -/
inductive Closes (batch : Batch) (start stop : Nat) : Option { next : Nat // start < next } → Prop
  | eof {i : Nat} {t : Token} : start ≤ i → batch.tokens[i]? = some t → t.isEof →
    stop = t.span.start ∨ stop = batch.size → Closes batch start stop none
  | behind {i : Nat} {t : Token} (h : start < i + 1) : batch.tokens[i]? = some t →
    t.isEof = false → batch.dialect.isTerminator t → stop = t.span.start →
    Closes batch start stop (some ⟨i + 1, h⟩)
  | here {i : Nat} {t : Token} (h : start < i) : batch.tokens[i]? = some t →
    t.isEof = false → batch.dialect.isStatementStart t → stop = t.span.start →
    Closes batch start stop (some ⟨i, h⟩)

/-- What the attempt at a token comes to. -/
inductive StepsTo (batch : Batch) (raise : Bool) (i : Nat) (first : Token) :
    Except BatchError (Step i) → Prop
  /-- The statement is read. -/
  | read {tree : Command} {stop : Nat} {resume : Option { next : Nat // i < next }} :
    (batch.attempt i).errors = [] → (batch.attempt i).tree = some tree →
    batch.Closes i stop resume →
    StepsTo batch raise i first (.ok (⟨batch.source, ⟨first.span.start, stop⟩, .ok tree⟩, resume))
  /-- The statement fails, and reading goes on behind it. -/
  | failed {error : SyntaxError} {stop : Nat} {resume : Option { next : Nat // i < next }} :
    raise = false → error.IsEarliest (batch.attempt i).errors → batch.Closes i stop resume →
    StepsTo batch raise i first (.ok (⟨batch.source, ⟨first.span.start, stop⟩,
      .error (.ofSyntaxError error first.span.start batch.index)⟩, resume))
  /-- The statement fails, and its error is raised. -/
  | raised {error : SyntaxError} :
    raise = true → error.IsEarliest (batch.attempt i).errors →
    StepsTo batch raise i first
      (.error (.syntaxError (.ofSyntaxError error first.span.start batch.index)))
  /-- The index where the dialect says that it stopped is out of range. -/
  | outOfRange {stop : Nat} :
    (batch.attempt i).errors = [] → (batch.attempt i).stop = stop → batch.tokens.length ≤ stop →
    StepsTo batch raise i first (.error (batch.violation stop .indexOutOfRange))
  /-- The dialect breaks its contract otherwise. -/
  | violated {position : Nat} {violation : Violation} : violation ≠ .indexOutOfRange →
    StepsTo batch raise i first (.error (batch.violation position violation))

/-- The search for where a failed statement ends, from some token on. -/
theorem IsClosed.closes_boundaryFrom (hclosed : batch.IsClosed) {start next : Nat}
    (h : start < next) (hlt : next < batch.tokens.length) {ts : List Token}
    (hts : batch.tokens.drop next = ts) :
    batch.Closes start (batch.boundaryFrom next h ts).stop
      (batch.boundaryFrom next h ts).resume := by
  induction ts generalizing next with
  | nil =>
    have := List.drop_eq_nil_iff.1 hts
    omega
  | cons t ts ih =>
    have ht := getElem?_of_drop hts
    rw [boundaryFrom]
    split
    · rename_i heof
      exact .eof (Nat.le_of_lt h) ht heof (.inr rfl)
    · rename_i hopen
      have hopen := Bool.eq_false_iff.2 hopen
      split
      · rename_i hterminator
        exact .behind _ ht hopen hterminator rfl
      · split
        · rename_i hstarts
          exact .here h ht hopen hstarts rfl
        · exact ih _ (hclosed.succ_lt ht hopen) (drop_succ_of_drop hts)

/-- Where a failed statement ends, and where reading goes on. -/
theorem IsClosed.closes_boundary (hclosed : batch.IsClosed) {start offending : Nat}
    (h : start ≤ offending) (hlt : offending < batch.tokens.length) {ts : List Token}
    (hts : batch.tokens.drop offending = ts) :
    batch.Closes start (batch.boundary offending h ts).stop
      (batch.boundary offending h ts).resume := by
  cases ts with
  | nil =>
    have := List.drop_eq_nil_iff.1 hts
    omega
  | cons t ts =>
    have ht := getElem?_of_drop hts
    rw [boundary]
    split
    · rename_i heof
      exact .eof h ht heof (.inr rfl)
    · rename_i hopen
      have hopen := Bool.eq_false_iff.2 hopen
      split
      · rename_i hterminator
        exact .behind _ ht hopen hterminator rfl
      · exact hclosed.closes_boundaryFrom _ (hclosed.succ_lt ht hopen) (drop_succ_of_drop hts)

/-- An attempt with a tree and no errors. -/
theorem stepsTo_accept {raise : Bool} {i : Nat} {first : Token} {tree : Command}
    (herrors : (batch.attempt i).errors = []) (htree : (batch.attempt i).tree = some tree) :
    batch.StepsTo raise i first (batch.accept i first tree (batch.attempt i).stop) := by
  rw [accept]
  split
  · rename_i hnone
    exact .outOfRange herrors rfl (List.getElem?_eq_none_iff.1 hnone)
  · rename_i closing hsome
    split
    · rename_i hstop
      obtain ⟨hlt, hends⟩ := hstop
      refine .read herrors htree ?_
      split
      · rename_i heof
        exact .eof (Nat.le_of_lt hlt) hsome heof (.inl rfl)
      · rename_i hopen
        have hopen := Bool.eq_false_iff.2 hopen
        rw [hopen, Bool.false_or] at hends
        exact .behind _ hsome hopen hends rfl
    · exact .violated (by simp)

/-- An attempt with an error. -/
theorem IsClosed.stepsTo_recover (hclosed : batch.IsClosed) {raise : Bool} {i : Nat} {first : Token}
    {error : SyntaxError} (hearliest : error.IsEarliest (batch.attempt i).errors) :
    batch.StepsTo raise i first (batch.recover raise i first error) := by
  rw [recover]
  split
  · rename_i hraise
    exact .raised hraise hearliest
  · rename_i hcollect
    dsimp only
    split
    · exact .violated (by simp)
    · rename_i n hfind
      obtain ⟨hlt, -⟩ := List.findIdx?_eq_some_iff_getElem.1 hfind
      rw [List.length_drop] at hlt
      refine .failed (Bool.eq_false_iff.2 hcollect) hearliest ?_
      exact hclosed.closes_boundary _ (by omega) List.drop_drop.symm

/-- **Every attempt comes to one of these.** -/
theorem IsClosed.stepsTo_step (hclosed : batch.IsClosed) (raise : Bool) (i : Nat) (first : Token) :
    batch.StepsTo raise i first (batch.step raise i first) := by
  have hattempt : batch.dialect.parseFrom batch.source batch.tokens i = batch.attempt i := rfl
  rw [step, hattempt]
  split
  · rename_i error hearliest
    split
    · exact .violated (by simp)
    · exact hclosed.stepsTo_recover (SyntaxError.isEarliest_of_earliest? hearliest)
  · rename_i hnone
    have herrors := SyntaxError.earliest?_eq_none hnone
    split
    · exact .violated (by simp)
    · rename_i tree htree
      exact stepsTo_accept herrors htree

/-! ### Runs -/

/-- A statement is attempted at a token. -/
structure StartsAt (batch : Batch) (i : Nat) (t : Token) : Prop where
  token : batch.tokens[i]? = some t
  isEof : t.isEof = false
  isTerminator : batch.dialect.isTerminator t = false

/-- A run over a batch from a token on: the indices at which statements are attempted, and the
result. -/
inductive Run (batch : Batch) (raise : Bool) :
    Nat → List Nat → Except BatchError (List Statement) → Prop
  | eof {i : Nat} {t : Token} : batch.tokens[i]? = some t → t.isEof → Run batch raise i [] (.ok [])
  | skip {i : Nat} {t : Token} {calls : List Nat} {result : Except BatchError (List Statement)} :
    batch.tokens[i]? = some t → t.isEof = false → batch.dialect.isTerminator t →
    Run batch raise (i + 1) calls result → Run batch raise i calls result
  | abort {i : Nat} {t : Token} {error : BatchError} :
    batch.StartsAt i t → batch.step raise i t = .error error → Run batch raise i [i] (.error error)
  | last {i : Nat} {t : Token} {s : Statement} :
    batch.StartsAt i t → batch.step raise i t = .ok (s, none) → Run batch raise i [i] (.ok [s])
  | next {i : Nat} {t : Token} {s : Statement} {n : { n : Nat // i < n }} {calls : List Nat}
    {result : Except BatchError (List Statement)} :
    batch.StartsAt i t → batch.step raise i t = .ok (s, some n) →
    Run batch raise n calls result → Run batch raise i (i :: calls) (result.map (s :: ·))

/-- Reading from a token where a statement is attempted. -/
theorem StartsAt.statementsFrom_eq {i : Nat} {t : Token} (h : batch.StartsAt i t) (raise : Bool) :
    batch.statementsFrom raise i =
      match batch.step raise i t with
      | .error error => .error error
      | .ok (statement, none) => .ok [statement]
      | .ok (statement, some ⟨next, _⟩) =>
        (batch.statementsFrom raise next).map (statement :: ·) := by
  rw [statementsFrom_of_getElem? raise h.token, h.isEof, h.isTerminator]
  rfl

namespace Run

variable {raise : Bool} {i : Nat} {calls : List Nat} {result : Except BatchError (List Statement)}

/-- A run has the result of reading. -/
theorem statementsFrom_eq (h : batch.Run raise i calls result) :
    batch.statementsFrom raise i = result := by
  induction h with
  | eof ht heof => rw [statementsFrom_of_getElem? raise ht, if_pos heof]
  | skip ht hopen hterminator _ ih =>
    rw [statementsFrom_of_getElem? raise ht, hopen, if_neg Bool.false_ne_true, if_pos hterminator,
      ih]
  | abort hstart hstep => rw [hstart.statementsFrom_eq, hstep]
  | last hstart hstep => rw [hstart.statementsFrom_eq, hstep]
  | @next _ _ s n _ _ hstart hstep _ ih =>
    rw [hstart.statementsFrom_eq, hstep, ← ih]

end Run

/-- Reading goes on at a token of the batch. -/
theorem Closes.lt_length (hclosed : batch.IsClosed) {start stop : Nat}
    {n : { n : Nat // start < n }} (h : batch.Closes start stop (some n)) :
    n.1 < batch.tokens.length := by
  cases h with
  | behind _ ht hopen => exact hclosed.succ_lt ht hopen
  | here _ ht => exact (List.getElem?_eq_some_iff.1 ht).1

theorem IsClosed.lt_length_of_step (hclosed : batch.IsClosed) {raise : Bool} {i : Nat} {t : Token}
    {s : Statement} {n : { n : Nat // i < n }} (h : batch.step raise i t = .ok (s, some n)) :
    n.1 < batch.tokens.length := by
  have hstep := hclosed.stepsTo_step raise i t
  rw [h] at hstep
  cases hstep with
  | read _ _ hcloses => exact hcloses.lt_length hclosed
  | failed _ _ hcloses => exact hcloses.lt_length hclosed

/-- **Reading a closed batch is a run**, from whatever token it starts. -/
theorem IsClosed.exists_run (hclosed : batch.IsClosed) (raise : Bool) {i : Nat}
    (hi : i < batch.tokens.length) : ∃ calls, batch.Run raise i calls
      (batch.statementsFrom raise i) := by
  -- Every step leaves fewer tokens ahead.
  induction hn : batch.tokens.length - i using Nat.strongRecOn generalizing i with
  | ind n ih =>
    obtain ⟨t, ht⟩ : ∃ t, batch.tokens[i]? = some t := ⟨_, List.getElem?_eq_getElem hi⟩
    cases heof : t.isEof with
    | true =>
      rw [statementsFrom_of_getElem? raise ht, if_pos heof]
      exact ⟨[], .eof ht heof⟩
    | false =>
      have hlt := hclosed.succ_lt ht heof
      cases hterminator : batch.dialect.isTerminator t with
      | true =>
        obtain ⟨calls, hrun⟩ := ih (batch.tokens.length - (i + 1)) (by omega) hlt rfl
        refine ⟨calls, ?_⟩
        rw [statementsFrom_of_getElem? raise ht, heof, hterminator]
        exact .skip ht heof hterminator hrun
      | false =>
        have hstart : batch.StartsAt i t := ⟨ht, heof, hterminator⟩
        rw [hstart.statementsFrom_eq]
        match hstep : batch.step raise i t with
        | .error error => exact ⟨[i], .abort hstart hstep⟩
        | .ok (s, none) => exact ⟨[i], .last hstart hstep⟩
        | .ok (s, some ⟨next, hnext⟩) =>
          have hlt := hclosed.lt_length_of_step hstep
          obtain ⟨calls, hrun⟩ := ih (batch.tokens.length - next) (by omega) hlt rfl
          exact ⟨i :: calls, .next hstart hstep hrun⟩

end Batch

end SqlBatch
