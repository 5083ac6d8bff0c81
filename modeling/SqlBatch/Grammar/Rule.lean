import SqlBatch.Grammar.Cursor
import SqlBatch.SyntaxError

/-!
# Rules of the grammar

A rule reads from a cursor and either answers with a value or fails with a cause; in both cases it
says where it stopped. A failure is always a failure at the current token of the cursor where the
rule stopped, so causes carry no place.

## The law

Rules are bundled with the law that they only move forward (`Rule.forward`). It is proved for the
primitive rules, for `bind` and for `iterate`, the one loop; every rule of the grammar is built from
these, so it obeys the law by construction. It gives at once what no rule can do: go back, reach
into the next statement, or leave a level of nesting open (`Rule.depth_run`).

## The loop

`iterate` repeats a step until it finds nothing more to read, and also where a step has read no
token. So it ends for any step whatever, and the steps of the grammar, which do read a token, are
repeated as often as they can be (`iterateFrom_eq`).
-/

namespace SqlBatch

/-- What a rule makes of a cursor. -/
inductive Outcome (α : Type) where
  | done (value : α) (cursor : Cursor)
  | failed (cause : SyntaxError.Cause) (cursor : Cursor)
deriving DecidableEq, Repr

/-- Where the rule stopped. -/
def Outcome.cursor {α : Type} : Outcome α → Cursor
  | done _ cursor => cursor
  | failed _ cursor => cursor

/-- Where a value was read. -/
@[simp] theorem Outcome.cursor_done {α : Type} (a : α) (c : Cursor) :
    (Outcome.done a c).cursor = c := rfl

/-- Where a rule has failed. -/
@[simp] theorem Outcome.cursor_failed {α : Type} (e : SyntaxError.Cause) (c : Cursor) :
    (Outcome.failed e c : Outcome α).cursor = c := rfl

/-- A rule that reads an `α`. -/
structure Rule (α : Type) where
  /-- What the rule makes of a cursor. -/
  run : Cursor → Outcome α
  /-- A rule only moves forward. -/
  forward : ∀ cursor : Cursor, cursor.Reaches (run cursor).cursor

namespace Rule

variable {α β : Type}

/-- Two rules that agree on every cursor are equal. -/
@[ext] theorem ext {r s : Rule α} (h : ∀ cursor, r.run cursor = s.run cursor) : r = s := by
  cases r
  cases s
  congr
  exact funext h

/-- Where a rule stopped, it has moved forward. -/
theorem reaches_of_run {r : Rule α} {cursor : Cursor} {outcome : Outcome α}
    (h : r.run cursor = outcome) : cursor.Reaches outcome.cursor :=
  h ▸ r.forward cursor

/-- **A rule leaves as many levels of nesting open as it found**, whether it fails or not. -/
theorem depth_run (r : Rule α) (cursor : Cursor) : (r.run cursor).cursor.depth = cursor.depth :=
  (r.forward cursor).depth_eq

/-! ### Primitive rules -/

/-- Read nothing and answer with a value. -/
protected def pure (a : α) : Rule α where
  run cursor := .done a cursor
  forward cursor := .here cursor

/-- Read with one rule and go on with another that may depend on its value. -/
protected def bind (r : Rule α) (next : α → Rule β) : Rule β where
  run cursor :=
    match r.run cursor with
    | .done a after => (next a).run after
    | .failed cause after => .failed cause after
  forward cursor := by
    split
    · rename_i a after h
      exact (reaches_of_run h).trans ((next a).forward after)
    · rename_i cause after h
      have later := reaches_of_run h
      exact later

instance : Monad Rule where
  pure := Rule.pure
  bind := Rule.bind

/-- Fail at the current token. -/
def fail (cause : SyntaxError.Cause) : Rule α where
  run cursor := .failed cause cursor
  forward cursor := .here cursor

/-- The current token. -/
def current : Rule Token where
  run cursor := .done cursor.current cursor
  forward cursor := .here cursor

/-- The token behind the current one. -/
def following : Rule Token where
  run cursor := .done cursor.following cursor
  forward cursor := .here cursor

/-- The number of `?` placeholders passed so far. -/
def placeholders : Rule Nat where
  run cursor := .done cursor.placeholders cursor
  forward cursor := .here cursor

/-- Move past the current token. -/
def advance : Rule Unit where
  run cursor := .done () cursor.advance
  forward cursor := .advance cursor

/-! ### How the primitives run -/

@[simp] theorem run_pure (a : α) (cursor : Cursor) :
    (pure a : Rule α).run cursor = .done a cursor := rfl

/-- A sequence goes on with the second rule where the first has stopped, or fails as that has. -/
theorem run_bind (r : Rule α) (next : α → Rule β) (cursor : Cursor) :
    (r >>= next).run cursor =
      match r.run cursor with
      | .done a after => (next a).run after
      | .failed cause after => .failed cause after := rfl

@[simp] theorem run_fail (cause : SyntaxError.Cause) (cursor : Cursor) :
    (fail cause : Rule α).run cursor = .failed cause cursor := rfl

@[simp] theorem run_current (cursor : Cursor) :
    current.run cursor = .done cursor.current cursor := rfl

@[simp] theorem run_following (cursor : Cursor) :
    following.run cursor = .done cursor.following cursor := rfl

@[simp] theorem run_placeholders (cursor : Cursor) :
    placeholders.run cursor = .done cursor.placeholders cursor := rfl

@[simp] theorem run_advance (cursor : Cursor) :
    advance.run cursor = .done () cursor.advance := rfl

/-- What comes later goes on from where the first part stopped. -/
theorem reaches_run_bind (r : Rule α) (next : α → Rule β) (cursor : Cursor) :
    (r.run cursor).cursor.Reaches ((r >>= next).run cursor).cursor := by
  rw [run_bind]
  cases r.run cursor with
  | done a after => exact (next a).forward after
  | failed cause after => exact .here after

/-- What comes later stops later. -/
theorem position_le_run_bind (r : Rule α) (next : α → Rule β) (cursor : Cursor) :
    (r.run cursor).cursor.position ≤ ((r >>= next).run cursor).cursor.position :=
  (reaches_run_bind r next cursor).position_le

/-- A value made of another one is a sequence. -/
theorem map_eq_bind (f : α → β) (r : Rule α) : f <$> r = r >>= fun a ↦ pure (f a) := rfl

instance : LawfulMonad Rule :=
  LawfulMonad.mk' Rule
    (fun r ↦ Rule.ext fun cursor ↦ by
      rw [map_eq_bind, run_bind]
      cases r.run cursor <;> rfl)
    (fun _ _ ↦ rfl)
    (fun r f g ↦ Rule.ext fun cursor ↦ by
      simp only [run_bind]
      cases r.run cursor <;> rfl)

/-! ### Repetition -/

/-- Run a step for as long as it answers with a new value and moves forward. -/
def iterateFrom (step : α → Rule (Option α)) (a : α) (cursor : Cursor) : Outcome α :=
  match _h : (step a).run cursor with
  | .failed cause after => .failed cause after
  | .done none after => .done a after
  | .done (some b) after =>
    if cursor.position < after.position then iterateFrom step b after else .done b after
termination_by cursor.ahead.length
decreasing_by
  have := (reaches_of_run _h).position_add_length
  simp only [Outcome.cursor_done] at this
  omega

/-- One round of the loop: it ends, fails, or goes round again from where it has come to. -/
theorem iterateFrom_eq (step : α → Rule (Option α)) (a : α) (cursor : Cursor) :
    iterateFrom step a cursor =
      match (step a).run cursor with
      | .failed cause after => .failed cause after
      | .done none after => .done a after
      | .done (some b) after =>
        if cursor.position < after.position then iterateFrom step b after else .done b after := by
  rw [iterateFrom]
  split <;> simp [*]

/-- The loop only moves forward. -/
theorem reaches_iterateFrom (step : α → Rule (Option α)) (a : α) (cursor : Cursor) :
    cursor.Reaches (iterateFrom step a cursor).cursor := by
  fun_induction iterateFrom step a cursor with
  | case1 a cursor cause after h => simpa using reaches_of_run h
  | case2 a cursor after h => simpa using reaches_of_run h
  | case3 a cursor b after h _ ih => exact (reaches_of_run h).trans ih
  | case4 a cursor b after h _ => simpa using reaches_of_run h

/-- A repetition goes on from where its first round stopped. -/
theorem reaches_iterateFrom_of_step (step : α → Rule (Option α)) (a : α) (cursor : Cursor) :
    ((step a).run cursor).cursor.Reaches (iterateFrom step a cursor).cursor := by
  rw [iterateFrom_eq]
  cases (step a).run cursor with
  | failed cause after => exact .here after
  | done next after =>
    cases next with
    | none => exact .here after
    | some b =>
      dsimp only [Outcome.cursor_done]
      split
      · exact reaches_iterateFrom step b after
      · exact .here after

/-- Apply a step for as long as it answers with a new value and moves forward. Every step of the
grammar that answers with a value moves forward, so no repetition ends early. -/
def iterate (step : α → Rule (Option α)) (a : α) : Rule α where
  run := iterateFrom step a
  forward := reaches_iterateFrom step a

/-- Collect what a rule answers for as long as it answers and moves forward. -/
def many (item : Rule (Option α)) : Rule (List α) :=
  List.reverse <$> iterate (fun items ↦ Option.map (· :: items) <$> item) []

/-! ### Running a rule -/

/-- Run a rule from a cursor: its value or its error, and the cursor where it stopped. A token that
the lexer could not read is reported as such, whatever the rule expected in its place. -/
def parse (r : Rule α) (cursor : Cursor) : Except SyntaxError α × Cursor :=
  match r.run cursor with
  | .done a after => (.ok a, after)
  | .failed cause after =>
    let token := after.current
    (.error (.atToken (if token.isError then .unrecognized else cause) token), after)

end Rule

end SqlBatch
