import SqlBatch.Lexer
import SqlBatch.Proofs.Attempt

/-!
# Answering one request after another

Requests are answered one after the other, each from the cursor where the one before it stopped,
whether it failed or not. What such a cursor carries beside its place are two counters, and neither
gives the requests before away.

* The number of **placeholders** passed grows. But the number of a `?` parameter is all that it has
  a part in (`Request.parse_recounted`), since a list of tokens replays itself with more
  placeholders passed before.
* The number of **levels** of nesting that are open goes up and down while a request is answered,
  and is back behind it, also where the answer is a failure from inside some levels: a rule closes
  the levels it opens on both ways out (`Cursor.depth_behind`, from `Rule.depth_run`). So each
  request has all levels left.

Hence every answer is that of a cursor which has answered nothing before
(`Cursor.answers_afresh`).
-/

namespace SqlBatch

/-! ### Moving forward -/

namespace Cursor.Reaches

variable {a b : Cursor}

/-- A token that ends a statement is not passed. -/
theorem position_le_of_endsStatement (h : a.Reaches b) {i : Nat} {token : Token}
    (htoken : a.ahead[i]? = some token) (hends : token.endsStatement) :
    b.position ≤ a.position + i := by
  obtain ⟨passed, hahead, hposition, hopen⟩ := h.exists_passed
  rw [hposition]
  refine Nat.add_le_add_left (Nat.le_of_not_lt fun hlt ↦ ?_) _
  rw [hahead, List.getElem?_append_left hlt] at htoken
  have := hopen token (List.mem_of_getElem? htoken)
  simp [Token.isOpen, hends] at this

end Cursor.Reaches

/-! ### One request -/

/-- The cursor with more placeholders passed and a number of levels open. -/
def Cursor.recounted (cursor : Cursor) (more depth : Nat) : Cursor :=
  { cursor with placeholders := cursor.placeholders + more, depth }

/-- The second reading is of the same tokens, with more placeholders passed before. -/
def Replay.renumbered (more stop : Nat) : Replay :=
  { itself stop with passed := more }

namespace Replay

variable {more depth stop : Nat} {c : Cursor}

theorem labels_renumbered : (renumbered more stop).labels = .renumber more := by
  rfl

/-- The cursors agree at the start of a reading which ends at the last token to be compared. -/
theorem agree_recounted (more depth : Nat) {after : Cursor} (h : c.Reaches after)
    (hstop : after.position = stop) : (renumbered more stop).Agree c (c.recounted more depth) :=
  .of_ahead_eq rfl (fun _ ↦ rfl) h hstop rfl rfl rfl nofun

/-- Behind the same tokens, a cursor is known by its position, its placeholders and the levels that
are open. -/
theorem eq_recounted {after after' : Cursor} (h : c.Reaches after)
    (h' : (c.recounted more depth).Reaches after')
    (hagree : (renumbered more stop).Agree after after') : after' = after.recounted more depth := by
  have hposition : after'.position = after.position := hagree.position.symm
  have hahead : after'.ahead = after.ahead := by
    rw [h.ahead_eq, h'.ahead_eq, hposition]
    rfl
  have hplaceholders : after'.placeholders = after.placeholders + more := hagree.placeholders rfl
  have hdepth : after'.depth = depth := h'.depth_eq
  rw [Cursor.recounted, ← hahead, ← hposition, ← hplaceholders, ← hdepth]

end Replay

namespace Request

/-- Requests replay themselves, however many levels are left. -/
theorem replays {R : Replay} (request : Request) (allowance : Nat) : R.Replays
    (Command.relabel R.labels) (request.ruleWithin allowance) (request.ruleWithin allowance) := by
  cases request with
  | statement => exact .statementWithin allowance
  | terminated => exact .terminated (.statementWithin allowance)

/-- **Where it is said how many levels are left, the counters of a cursor show in nothing but the
numbers of `?` parameters.** -/
theorem parse_ruleWithin_recounted (request : Request) (allowance : Nat) (cursor : Cursor)
    (more depth : Nat) :
    (request.ruleWithin allowance).parse (cursor.recounted more depth) =
      (((request.ruleWithin allowance).parse cursor).1.map (Command.relabel (.renumber more)),
        ((request.ruleWithin allowance).parse cursor).2.recounted more depth) := by
  have hreaches := (request.ruleWithin allowance).forward cursor
  have hreaches' := (request.ruleWithin allowance).forward (cursor.recounted more depth)
  have hagree := Replay.agree_recounted more depth hreaches rfl
  have hmatch := request.replays allowance hagree (Nat.le_refl _)
  rw [Replay.labels_renumbered] at hmatch
  rw [Rule.parse, Rule.parse]
  revert hmatch hreaches hreaches'
  generalize (request.ruleWithin allowance).run cursor = outcome
  generalize (request.ruleWithin allowance).run (cursor.recounted more depth) = outcome'
  rintro hreaches hreaches' (⟨hagree⟩ | ⟨-, hagree⟩ | ⟨hexempt, -, -⟩)
  · have hafter := Replay.eq_recounted hreaches hreaches' hagree
    rw [Outcome.cursor_done] at hafter
    subst hafter
    rfl
  · have hafter := Replay.eq_recounted hreaches hreaches' hagree
    rw [Outcome.cursor_failed] at hafter
    subst hafter
    rfl
  · cases hexempt

/-- **The number of placeholders passed shows in the numbers of `?` parameters alone.** -/
theorem parse_recounted (request : Request) (cursor : Cursor) (more : Nat) :
    request.rule.parse (cursor.recounted more cursor.depth) =
      ((request.rule.parse cursor).1.map (Command.relabel (.renumber more)),
        (request.rule.parse cursor).2.recounted more cursor.depth) := by
  -- Both cursors have as many levels left.
  rw [request.parse_rule cursor, ← request.parse_ruleWithin_recounted]
  exact request.parse_rule _

/-- The answer to a request of a cursor that has answered nothing before. -/
def afresh (request : Request) (tokens : List Token) (position : Nat) :
    Except SyntaxError Command × Cursor :=
  request.rule.parse (.ofTokens tokens position)

end Request

/-! ### Many requests -/

namespace Cursor

/-- The cursor behind the answers to requests. -/
def behind (cursor : Cursor) : List Request → Cursor
  | [] => cursor
  | request :: requests => (request.rule.parse cursor).2.behind requests

/-- An answer leaves the cursor further on. -/
theorem reaches_parse (request : Request) (cursor : Cursor) :
    cursor.Reaches (request.rule.parse cursor).2 := by
  have hreaches := request.rule.forward cursor
  rw [Rule.parse]
  split
  all_goals simp_all

/-- Answers leave the cursor further on. -/
theorem reaches_behind (cursor : Cursor) (requests : List Request) :
    cursor.Reaches (cursor.behind requests) := by
  induction requests generalizing cursor with
  | nil => exact .here cursor
  | cons request requests ih => exact (reaches_parse request cursor).trans (ih _)

/-- **Answering a request leaves as many levels open as before**, whether it fails or not. -/
theorem depth_parse (request : Request) (cursor : Cursor) :
    (request.rule.parse cursor).2.depth = cursor.depth :=
  (reaches_parse request cursor).depth_eq

/-- Answering requests leaves as many levels open as before. -/
theorem depth_behind (cursor : Cursor) (requests : List Request) :
    (cursor.behind requests).depth = cursor.depth := by
  induction requests generalizing cursor with
  | nil => rfl
  | cons request requests ih => exact (ih _).trans (depth_parse request cursor)

/-- Later requests are answered from where the earlier ones stopped. -/
theorem answer_append (cursor : Cursor) (earlier later : List Request) :
    cursor.answer (earlier ++ later) =
      cursor.answer earlier ++ (cursor.behind earlier).answer later := by
  induction earlier generalizing cursor with
  | nil => rfl
  | cons request requests ih => exact congrArg (_ :: ·) (ih _)

/-- Each request has one answer. -/
theorem length_answer (cursor : Cursor) (requests : List Request) :
    (cursor.answer requests).length = requests.length := by
  induction requests generalizing cursor with
  | nil => rfl
  | cons request requests ih => exact congrArg (· + 1) (ih _)

/-- **A cursor that has moved forward is one that has just been made**, but for the placeholders it
has passed. The levels that were opened on the way are closed. -/
theorem Reaches.eq_ofTokens {tokens : List Token} {start : Nat} {before : Cursor}
    (h : (ofTokens tokens start).Reaches before) :
    before = (ofTokens tokens before.position).recounted before.placeholders 0 := by
  have hle : start ≤ before.position := h.position_le
  have hahead : before.ahead = tokens.drop before.position := by
    rw [h.ahead_eq]
    show (tokens.drop start).drop (before.position - start) = _
    rw [List.drop_drop, Nat.add_sub_cancel' hle]
  have hdepth : before.depth = 0 := h.depth_eq
  rw [recounted, ofTokens, Nat.zero_add, ← hahead, ← hdepth]

/-- Moving forward from the start ends no later than at the first end of the batch. -/
theorem Reaches.le_eof {tokens : List Token} {start : Nat} {after : Cursor}
    (h : (ofTokens tokens start).Reaches after) {i : Nat} (hi : start ≤ i) {token : Token}
    (htoken : tokens[i]? = some token) (heof : token.isEof) : after.position ≤ i := by
  have hahead : (ofTokens tokens start).ahead[i - start]? = some token := by
    show (tokens.drop start)[i - start]? = _
    rw [List.getElem?_drop, Nat.add_sub_cancel' hi, htoken]
  have hends : token.endsStatement := by simp [Token.endsStatement, heof]
  have hstop : after.position ≤ start + (i - start) := h.position_le_of_endsStatement hahead hends
  omega

end Cursor

/-- A request behind others is answered as afresh, with the numbers going on. -/
theorem Request.parse_eq_afresh (request : Request) {tokens : List Token} {start : Nat}
    {before : Cursor} (h : (Cursor.ofTokens tokens start).Reaches before) :
    request.rule.parse before =
      ((request.afresh tokens before.position).1.map
        (Command.relabel (.renumber before.placeholders)),
        (request.afresh tokens before.position).2.recounted before.placeholders 0) := by
  have hparse := request.parse_recounted (.ofTokens tokens before.position) before.placeholders
  rwa [show (Cursor.ofTokens tokens before.position).depth = 0 from rfl, ← h.eq_ofTokens] at hparse

/-- An answer to a request behind others, which started at an index of a list of tokens and left
the cursor `before`, is that of a cursor which has answered nothing. -/
structure IsAnsweredAfresh (tokens : List Token) (start : Nat) (before : Cursor)
    (request : Request) (answer : Except SyntaxError Command × Cursor) : Prop where
  /-- The error is the same, and the tree is, up to the numbers of `?` parameters. -/
  result : answer.1 = (request.afresh tokens before.position).1.map
    (Command.relabel (.renumber before.placeholders))
  /-- The numbers go on behind the placeholders passed before. -/
  placeholders : before.placeholders =
    ((tokens.drop start).take (before.position - start)).countP (·.isSymbol .question)
  /-- As many levels of nesting are open as at the start, whether the answer is a failure or not. -/
  depth : answer.2.depth = (Cursor.ofTokens tokens start).depth
  position : answer.2.position = (request.afresh tokens before.position).2.position
  position_le : before.position ≤ answer.2.position
  le_eof : ∀ i ≥ start, ∀ token, tokens[i]? = some token → token.isEof → answer.2.position ≤ i

/-- **Answering leaves no trace**: whatever requests have been answered before, and whether they
failed or not, a request is answered as by a cursor at the same place that has answered nothing, and
all levels of nesting are left behind it. -/
theorem Cursor.answers_afresh (tokens : List Token) (start : Nat) (earlier : List Request)
    (request : Request) (later : List Request) :
    ∃ answer,
      ((Cursor.ofTokens tokens start).answer (earlier ++ request :: later))[earlier.length]? =
        some answer ∧
      IsAnsweredAfresh tokens start ((Cursor.ofTokens tokens start).behind earlier) request
        answer := by
  let first := Cursor.ofTokens tokens start
  let before := first.behind earlier
  have hbefore : first.Reaches before := reaches_behind first earlier
  have hanswer : before.Reaches (request.rule.parse before).2 := reaches_parse request before
  refine ⟨request.rule.parse before, ?_, ?result, ?placeholders, ?depth, ?position,
    hanswer.position_le, fun i hi token ↦ (hbefore.trans hanswer).le_eof hi⟩
  · rw [answer_append, List.getElem?_append_right (Nat.le_of_eq (length_answer _ _)),
      length_answer, Nat.sub_self]
    rfl
  case result => rw [request.parse_eq_afresh hbefore]
  case placeholders => exact hbefore.placeholders_eq.trans (Nat.zero_add _)
  case depth => exact (depth_parse request before).trans (depth_behind first earlier)
  case position =>
    rw [request.parse_eq_afresh hbefore]
    rfl

/-- A failure from inside some levels leaves none of them open. -/
example : (Request.statement.rule.parse (.ofTokens (tokenize "SELECT ((") 0)).2.depth = 0 := by
  decide +kernel

end SqlBatch
