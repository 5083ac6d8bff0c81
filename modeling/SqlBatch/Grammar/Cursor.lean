import SqlBatch.Token

/-!
# Cursors

The grammar reads tokens through a cursor: a place in a token list. A cursor moves one token at a
time, and never past a token that ends a statement or that the lexer could not read, so one
statement cannot reach into the next.

## What a cursor carries from one statement to the next

Beside its place a cursor has two counters, and they behave differently. The `?` placeholders it
moves past are counted by `advance` and never taken back. The levels of nesting that are open are
counted by `opened` and `closed`, and moving leaves them alone.

## Moving forward

`Cursor.Reaches` says that one cursor comes from another by moving forward; it is the law that
every rule of the grammar obeys. Since moving opens no level and closes none, a rule that obeys it
has closed the levels it opened, whether it succeeds or not (`Reaches.depth_eq`). What a rule may do
in between, with a level open, is moving forward all the same (`Reaches.closed`).
-/

namespace SqlBatch

/-- Whether a statement may go past the token. -/
def Token.isOpen (token : Token) : Bool :=
  !token.endsStatement && !token.isError

/-- A keyword belongs to its statement. -/
theorem Token.isOpen_of_isKeyword {token : Token} {keyword : Keyword}
    (h : token.isKeyword keyword) : token.isOpen := by
  rw [isKeyword, beq_iff_eq] at h
  simp [isOpen, endsStatement, isSymbol, isEof, isError, h]

/-- A place in a list of tokens. -/
structure Cursor where
  /-- The tokens from the current one on. -/
  ahead : List Token
  /-- The index of the current token in the whole list. -/
  position : Nat
  /-- The number of `?` placeholders passed so far. -/
  placeholders : Nat
  /-- The number of levels of nesting that are open. -/
  depth : Nat
deriving DecidableEq, Repr

namespace Cursor

/-- The cursor at an index of a list of tokens, with no placeholder passed and no level open. -/
def ofTokens (tokens : List Token) (position : Nat) : Cursor :=
  ⟨tokens.drop position, position, 0, 0⟩

/-- The current token. Behind the last token of the list there is an end of the batch at offset
zero. -/
def current (cursor : Cursor) : Token :=
  cursor.ahead.headD (.eofAt 0)

/-- The token behind the current one. -/
def following (cursor : Cursor) : Token :=
  cursor.ahead.tail.headD (.eofAt 0)

/-- The cursor one token on; the same cursor at a token that a statement may not go past. -/
def advance (cursor : Cursor) : Cursor :=
  match cursor.ahead with
  | [] => cursor
  | token :: ahead =>
    if token.isOpen then
      { cursor with
        ahead, position := cursor.position + 1,
        placeholders := cursor.placeholders + (if token.isSymbol .question then 1 else 0) }
    else cursor

/-- The cursor with one more level of nesting open. -/
def opened (cursor : Cursor) : Cursor :=
  { cursor with depth := cursor.depth + 1 }

/-- The cursor with the innermost level of nesting closed. -/
def closed (cursor : Cursor) : Cursor :=
  { cursor with depth := cursor.depth - 1 }

/-- Closing a level undoes opening one. -/
@[simp] theorem closed_opened (cursor : Cursor) : cursor.opened.closed = cursor := rfl

/-- A token that may not be passed holds the cursor where it is. -/
theorem advance_of_not_isOpen {cursor : Cursor} (h : ¬ cursor.current.isOpen) :
    cursor.advance = cursor := by
  rw [advance]
  split
  · rfl
  · rename_i token ahead hahead
    rw [current, hahead, List.headD_cons] at h
    rw [if_neg h]

/-- Moving past a token. -/
theorem position_advance_of_isOpen {cursor : Cursor} (h : cursor.current.isOpen) :
    cursor.advance.position = cursor.position + 1 := by
  rw [advance]
  split
  · rename_i hahead
    rw [current, hahead] at h
    cases h
  · rename_i token ahead hahead
    rw [current, hahead, List.headD_cons] at h
    rw [if_pos h]

/-- A question mark that is passed is counted. -/
theorem placeholders_advance_of_isOpen {cursor : Cursor} (h : cursor.current.isOpen) :
    cursor.advance.placeholders =
      cursor.placeholders + (if cursor.current.isSymbol .question then 1 else 0) := by
  rw [advance]
  split
  · rename_i hahead
    rw [current, hahead] at h
    cases h
  · rename_i token ahead hahead
    rw [current, hahead, List.headD_cons] at h ⊢
    rw [if_pos h]

/-- A token that can be passed stands first among those ahead. -/
theorem ahead_eq_cons_of_isOpen {cursor : Cursor} (h : cursor.current.isOpen) :
    cursor.ahead = cursor.current :: cursor.advance.ahead := by
  rw [advance]
  split
  · rename_i hahead
    rw [current, hahead] at h
    cases h
  · rename_i token ahead hahead
    rw [current, hahead, List.headD_cons] at h
    rw [current, hahead, List.headD_cons, if_pos h]

/-- Moving opens no level and closes none. -/
@[simp] theorem depth_advance (cursor : Cursor) : cursor.advance.depth = cursor.depth := by
  rw [advance]
  split
  · rfl
  · split <;> rfl

/-- It does not matter whether a level is closed before moving or behind it. -/
theorem advance_closed (cursor : Cursor) : cursor.closed.advance = cursor.advance.closed := by
  obtain ⟨ahead, position, placeholders, depth⟩ := cursor
  cases ahead with
  | nil => rfl
  | cons token ahead =>
    simp only [advance, closed]
    split <;> rfl

/-- Behind an open token, the next one is the current one. -/
theorem current_advance {cursor : Cursor} (h : cursor.current.isOpen) :
    cursor.advance.current = cursor.following := by
  rw [following, ahead_eq_cons_of_isOpen h, List.tail_cons, current]

/-- One cursor comes from another by moving forward. -/
inductive Reaches : Cursor → Cursor → Prop where
  | here (cursor : Cursor) : Reaches cursor cursor
  | onward {cursor later : Cursor} : Reaches cursor.advance later → Reaches cursor later

namespace Reaches

theorem trans {a b c : Cursor} (hab : Reaches a b) (hbc : Reaches b c) : Reaches a c := by
  induction hab with
  | here => exact hbc
  | onward _ ih => exact .onward (ih hbc)

theorem advance (cursor : Cursor) : Reaches cursor cursor.advance :=
  .onward (.here _)

/-- Only open tokens are passed. -/
theorem exists_passed {a b : Cursor} (h : Reaches a b) : ∃ passed,
    a.ahead = passed ++ b.ahead ∧ b.position = a.position + passed.length ∧
      ∀ token ∈ passed, token.isOpen := by
  induction h with
  | here => exact ⟨[], by simp⟩
  | @onward cursor later _ ih =>
    obtain ⟨passed, hahead, hposition, hopen⟩ := ih
    by_cases hcurrent : cursor.current.isOpen
    · refine ⟨cursor.current :: passed, ?_, ?_, List.forall_mem_cons.2 ⟨hcurrent, hopen⟩⟩
      · rw [ahead_eq_cons_of_isOpen hcurrent, hahead, List.cons_append]
      · rw [hposition, position_advance_of_isOpen hcurrent, List.length_cons]
        omega
    · rw [advance_of_not_isOpen hcurrent] at hahead hposition
      exact ⟨passed, hahead, hposition, hopen⟩

/-- The position tells the current token. -/
theorem current_eq {a b : Cursor} (h : Reaches a b) {passed behind : List Token} {token : Token}
    (hahead : a.ahead = passed ++ token :: behind)
    (hposition : b.position = a.position + passed.length) : b.current = token := by
  obtain ⟨passed', hahead', hposition', -⟩ := h.exists_passed
  have hlength : passed'.length = passed.length := by omega
  rw [hahead] at hahead'
  have := (List.append_inj hahead' hlength.symm).2
  rw [current, ← this, List.headD_cons]

/-- Moving forward keeps the length of the whole list: what the position gains, the tokens ahead
lose. -/
theorem position_add_length {a b : Cursor} (h : Reaches a b) :
    b.position + b.ahead.length = a.position + a.ahead.length := by
  obtain ⟨passed, hahead, hposition, -⟩ := h.exists_passed
  rw [hahead, hposition, List.length_append, Nat.add_assoc]

/-- Moving forward never moves back. -/
theorem position_le {a b : Cursor} (h : Reaches a b) : a.position ≤ b.position := by
  obtain ⟨passed, -, hposition, -⟩ := h.exists_passed
  exact hposition ▸ Nat.le_add_right _ _

/-- What is ahead is what the positions leave of it. -/
theorem ahead_eq {a b : Cursor} (h : Reaches a b) :
    b.ahead = a.ahead.drop (b.position - a.position) := by
  obtain ⟨passed, hahead, hposition, -⟩ := h.exists_passed
  rw [hahead, hposition, Nat.add_sub_cancel_left, List.drop_left]

/-- The placeholders passed are counted. -/
theorem placeholders_eq {a b : Cursor} (h : Reaches a b) : b.placeholders =
    a.placeholders +
      (a.ahead.take (b.position - a.position)).countP (·.isSymbol .question) := by
  induction h with
  | here cursor => simp
  | @onward cursor later hlater ih =>
    by_cases hopen : cursor.current.isOpen
    · have hposition := position_advance_of_isOpen hopen
      have hle := position_le hlater
      have hdistance : later.position - cursor.position =
          later.position - cursor.advance.position + 1 := by omega
      rw [ih, placeholders_advance_of_isOpen hopen, hdistance, ahead_eq_cons_of_isOpen hopen,
        List.take_succ_cons, List.countP_cons]
      omega
    · rwa [advance_of_not_isOpen hopen] at ih

/-- Moving forward leaves as many levels open as before. -/
theorem depth_eq {a b : Cursor} (h : Reaches a b) : b.depth = a.depth := by
  induction h with
  | here => rfl
  | @onward cursor later _ ih => rw [ih, depth_advance]

/-- What moves forward inside a level moves forward around it. -/
theorem closed {a b : Cursor} (h : Reaches a b) : Reaches a.closed b.closed := by
  induction h with
  | here => exact .here _
  | @onward cursor later _ ih => exact .onward (cursor.advance_closed ▸ ih)

/-- Cursors that come from the same one are the same if they stand at the same place. -/
theorem eq_of_position {c a b : Cursor} (h : Reaches c a) (h' : Reaches c b)
    (hposition : a.position = b.position) : a = b := by
  have hahead : a.ahead = b.ahead := by
    rw [h.ahead_eq, h'.ahead_eq, hposition]
  have hplaceholders : a.placeholders = b.placeholders := by
    rw [h.placeholders_eq, h'.placeholders_eq, hposition]
  have hdepth : a.depth = b.depth := h.depth_eq.trans h'.depth_eq.symm
  obtain ⟨ahead, position, placeholders, depth⟩ := a
  obtain rfl : ahead = _ := hahead
  obtain rfl : position = _ := hposition
  obtain rfl : placeholders = _ := hplaceholders
  obtain rfl : depth = _ := hdepth
  rfl

end Reaches

end Cursor

end SqlBatch
