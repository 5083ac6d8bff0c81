import SqlBatch.Proofs.Lexing.Trivia

/-!
# What trivia is

The texts that are skipped between tokens, said without a scan: white space and comments, one behind
the other (`Trivia.IsGap`). Only at the end of a text may the last of the comments be unfinished.
What the scan skips is such a text, whatever stands behind it (`isGap_take`).

## Comments

A line comment has no line end inside, and one at its end. A block comment ends at the first `*/`,
so there is none inside of it, and comments do not nest. An unfinished comment is the beginning of
either that lacks its end. None of this mentions how the comment is looked for.

## The scan

The scan goes along in a mode: outside of comments, inside of a line comment, or inside of a block
comment. `Trivia.Mode.Skips` says for each mode what may be skipped from there on; outside it is a
gap. The proof is an induction over the scan, with one small law for each of its steps. The only
step with an argument in it is that a character inside a block comment starts no `*/` there
(`block_cons`).
-/

namespace SqlBatch.Trivia

/-- A comment with its end. -/
inductive IsComment : List Char → Prop
  | line {body : List Char} {c : Char} : (∀ d ∈ body, isLineEnd d = false) → isLineEnd c →
    IsComment ('-' :: '-' :: (body ++ [c]))
  /-- The comment ends at the first `*/`. -/
  | block {body : List Char} : ¬ ['*', '/'] <:+: body →
    IsComment ('/' :: '*' :: (body ++ ['*', '/']))

/-- A comment whose end is missing. -/
inductive IsUnfinished : List Char → Prop
  | line {body : List Char} : (∀ d ∈ body, isLineEnd d = false) →
    IsUnfinished ('-' :: '-' :: body)
  | block {body : List Char} : ¬ ['*', '/'] <:+: body → IsUnfinished ('/' :: '*' :: body)

/-- White space and comments; if nothing stands behind them, the last one may be unfinished. -/
inductive IsGap (last : Prop) : List Char → Prop
  | nil : IsGap last []
  | blank {c : Char} {cs : List Char} : isBlank c → IsGap last cs → IsGap last (c :: cs)
  | comment {cs ds : List Char} : IsComment cs → IsGap last ds → IsGap last (cs ++ ds)
  | unfinished {cs : List Char} : last → IsUnfinished cs → IsGap last cs

/-! ### What is skipped from inside of a comment -/

/-- What the scan skips where it stands: a gap, or the rest of a comment and a gap. -/
def Mode.Skips (last : Prop) : Mode → List Char → Prop
  | .gap, cs => IsGap last cs
  | .line, cs =>
    (∃ body c ds, cs = body ++ c :: ds ∧ (∀ d ∈ body, isLineEnd d = false) ∧ isLineEnd c ∧
      IsGap last ds) ∨ (∀ d ∈ cs, isLineEnd d = false) ∧ last
  | .block, cs =>
    (∃ body ds, cs = body ++ '*' :: '/' :: ds ∧ ¬ ['*', '/'] <:+: body ∧ IsGap last ds) ∨
      ¬ ['*', '/'] <:+: cs ∧ last

namespace Mode.Skips

variable {last : Prop} {c : Char} {cs : List Char}

/-- A line comment, from its two minus signs on. -/
theorem isGap_line (h : Mode.line.Skips last cs) : IsGap last ('-' :: '-' :: cs) := by
  rcases h with ⟨body, c, ds, rfl, hbody, hc, hds⟩ | ⟨hcs, hlast⟩
  · have hcomment := IsGap.comment (.line hbody hc) hds
    simpa using hcomment
  · exact .unfinished hlast (.line hcs)

/-- A block comment, from its opening on. -/
theorem isGap_block (h : Mode.block.Skips last cs) : IsGap last ('/' :: '*' :: cs) := by
  rcases h with ⟨body, ds, rfl, hbody, hds⟩ | ⟨hcs, hlast⟩
  · have hcomment := IsGap.comment (.block hbody) hds
    simpa using hcomment
  · exact .unfinished hlast (.block hcs)

/-- A line comment goes up to the end of the line. -/
theorem line_end (hc : isLineEnd c) (h : IsGap last cs) : Mode.line.Skips last (c :: cs) :=
  .inl ⟨[], c, cs, rfl, by simp, hc, h⟩

/-- A line comment goes on with what does not end the line. -/
theorem line_cons (hc : isLineEnd c = false) (h : Mode.line.Skips last cs) :
    Mode.line.Skips last (c :: cs) := by
  rcases h with ⟨body, d, ds, rfl, hbody, hd, hds⟩ | ⟨hcs, hlast⟩
  · exact .inl ⟨c :: body, d, ds, rfl, List.forall_mem_cons.2 ⟨hc, hbody⟩, hd, hds⟩
  · exact .inr ⟨List.forall_mem_cons.2 ⟨hc, hcs⟩, hlast⟩

/-- A block comment goes up to its closing. -/
theorem block_end (h : IsGap last cs) : Mode.block.Skips last ('*' :: '/' :: cs) :=
  .inl ⟨[], cs, rfl, by simp, h⟩

/-- A character stays inside of the comment unless `*/` starts with it. -/
theorem block_cons (hc : ∀ ds, c = '*' → cs = '/' :: ds → False)
    (h : Mode.block.Skips last cs) : Mode.block.Skips last (c :: cs) := by
  have hcons {body : List Char} (hbody : body <+: cs) (hopen : ¬ ['*', '/'] <:+: body) :
      ¬ ['*', '/'] <:+: c :: body := by
    rw [List.infix_cons_iff, not_or]
    refine ⟨fun hclose ↦ ?_, hopen⟩
    obtain ⟨rfl, hslash⟩ := List.cons_prefix_cons.1 hclose
    obtain ⟨ds, rfl⟩ := hslash.trans hbody
    exact hc ds rfl rfl
  rcases h with ⟨body, ds, rfl, hbody, hds⟩ | ⟨hcs, hlast⟩
  · exact .inl ⟨c :: body, ds, rfl, hcons (List.prefix_append _ _) hbody, hds⟩
  · exact .inr ⟨hcons (List.prefix_refl _) hcs, hlast⟩

end Mode.Skips

/-! ### What the scan skips -/

/-- What the scan skips is complete, unless nothing is left behind it. -/
theorem skips_take {last : Prop} {mode : Mode} {cs : List Char}
    (h : lengthFrom mode cs < cs.length ∨ last) :
    mode.Skips last (cs.take (lengthFrom mode cs)) := by
  fun_induction lengthFrom mode cs with
  | case1 mode =>
    have hlast : last := h.resolve_left (Nat.lt_irrefl 0)
    cases mode with
    | gap => exact .nil
    | line => exact .inr ⟨by simp, hlast⟩
    | block => exact .inr ⟨by simp, hlast⟩
  | case2 cs ih =>
    have hskips := ih (h.imp_left Nat.lt_of_add_lt_add_right)
    exact hskips.isGap_line
  | case3 cs ih =>
    have hskips := ih (h.imp_left Nat.lt_of_add_lt_add_right)
    exact hskips.isGap_block
  | case4 c cs hline hblock hblank ih =>
    exact .blank hblank (ih (h.imp_left Nat.lt_of_add_lt_add_right))
  | case5 c cs hline hblock hblank => exact .nil
  | case6 c cs hend ih => exact .line_end hend (ih (h.imp_left Nat.lt_of_add_lt_add_right))
  | case7 c cs hend ih =>
    exact .line_cons (Bool.eq_false_iff.2 hend) (ih (h.imp_left Nat.lt_of_add_lt_add_right))
  | case8 cs ih => exact .block_end (ih (h.imp_left Nat.lt_of_add_lt_add_right))
  | case9 c cs hclose ih =>
    refine .block_cons (fun ds hc ↦ ?_) (ih (h.imp_left Nat.lt_of_add_lt_add_right))
    exact ne_cons_of_prefix (List.take_prefix _ cs) (fun ds ↦ hclose ds hc) ds

/-- **Trivia is white space and comments.** Its last comment is unfinished only where nothing is
left behind it. -/
theorem isGap_take (last : Prop) (cs : List Char) (h : length cs < cs.length ∨ last) :
    IsGap last (cs.take (length cs)) :=
  skips_take h

end SqlBatch.Trivia
