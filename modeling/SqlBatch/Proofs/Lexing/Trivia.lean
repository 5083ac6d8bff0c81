import Mathlib.Tactic.ByContra
import SqlBatch.Lexer.Trivia

/-!
# Cutting trivia

The trivia at the start of a text stays what it is when the text is cut off behind it, and what is
left of trivia without the white space at its end is trivia.

## Why it is needed

A statement is read again from a text that is cut out of its batch, in full or without the white
space around it. What stands between two of its tokens, or behind the last one, has to be trivia in
the cut text as well.

## Modes

The second law holds of line comments too, for white space at the end of an unfinished comment
belongs to the comment, and the comment stays one without it. All of it is proved for the scan in
any mode, as it may stand inside of a comment. Where the scan looks for two characters, like `--`,
cutting can take the second one away but never put one there (`ne_cons_of_prefix`).
-/

namespace SqlBatch.Trivia

/-- What is skipped is there. -/
theorem lengthFrom_le (mode : Mode) (cs : List Char) : lengthFrom mode cs ≤ cs.length := by
  fun_induction lengthFrom mode cs <;> simp <;> omega

/-- What is trivia is there. -/
theorem length_le (cs : List Char) : length cs ≤ cs.length :=
  lengthFrom_le .gap cs

/-- Behind trivia there is no more of it. -/
theorem length_drop (mode : Mode) (cs : List Char) :
    length (cs.drop (lengthFrom mode cs)) = 0 := by
  rw [length]
  fun_induction lengthFrom mode cs with
  | case5 c cs h h' hblank => simp_all [lengthFrom]
  | _ => simp_all [lengthFrom]

/-- Where no trivia stands, the first character is not blank. -/
theorem isBlank_eq_false_of_length {c : Char} {cs : List Char} (h : length (c :: cs) = 0) :
    isBlank c = false := by
  by_contra hblank
  rw [Bool.not_eq_false] at hblank
  have hother (d : Char) (hd : isBlank d = false) : c ≠ d := by
    rintro rfl
    rw [hblank] at hd
    cases hd
  rw [length, lengthFrom, if_pos hblank] at h
  · cases h
  · exact fun _ hc ↦ absurd hc (hother '-' (by decide))
  · exact fun _ hc ↦ absurd hc (hother '/' (by decide))

/-! ### Cutting a text behind its trivia -/

/-- A text that is cut off starts with nothing that it did not start with before. -/
theorem ne_cons_of_prefix {c : Char} {cs zs : List Char} (hcut : zs <+: cs)
    (h : ∀ ds, cs = c :: ds → False) (ds : List Char) : zs = c :: ds → False := by
  rintro rfl
  obtain ⟨behind, rfl⟩ := hcut
  exact h (ds ++ behind) rfl

/-- The length of trivia shows as soon as all of it is there. -/
theorem lengthFrom_take {mode : Mode} {cs : List Char} {n : Nat} (h : lengthFrom mode cs ≤ n) :
    lengthFrom mode (cs.take n) = lengthFrom mode cs := by
  fun_induction lengthFrom mode cs generalizing n with
  | case1 mode => rw [List.take_nil, lengthFrom]
  | case2 cs ih | case3 cs ih | case8 cs ih =>
    obtain ⟨n, rfl⟩ : ∃ k, n = k + 2 := ⟨n - 2, by omega⟩
    rw [List.take_succ_cons, List.take_succ_cons, lengthFrom, ih (by omega)]
  | case4 c cs hline hblock hblank ih =>
    obtain ⟨n, rfl⟩ : ∃ k, n = k + 1 := ⟨n - 1, by omega⟩
    rw [List.take_succ_cons, lengthFrom, if_pos hblank, ih (by omega)]
    · exact fun ds hc ↦ ne_cons_of_prefix (List.take_prefix n cs) (fun ds ↦ hline ds hc) ds
    · exact fun ds hc ↦ ne_cons_of_prefix (List.take_prefix n cs) (fun ds ↦ hblock ds hc) ds
  | case5 c cs hline hblock hblank =>
    cases n with
    | zero => rw [List.take_zero, lengthFrom]
    | succ n =>
      rw [List.take_succ_cons, lengthFrom, if_neg hblank]
      · exact fun ds hc ↦ ne_cons_of_prefix (List.take_prefix n cs) (fun ds ↦ hline ds hc) ds
      · exact fun ds hc ↦ ne_cons_of_prefix (List.take_prefix n cs) (fun ds ↦ hblock ds hc) ds
  | case6 c cs hend ih =>
    obtain ⟨n, rfl⟩ : ∃ k, n = k + 1 := ⟨n - 1, by omega⟩
    rw [List.take_succ_cons, lengthFrom, if_pos hend, ih (by omega)]
  | case7 c cs hend ih =>
    obtain ⟨n, rfl⟩ : ∃ k, n = k + 1 := ⟨n - 1, by omega⟩
    rw [List.take_succ_cons, lengthFrom, if_neg hend, ih (by omega)]
  | case9 c cs hclose ih =>
    obtain ⟨n, rfl⟩ : ∃ k, n = k + 1 := ⟨n - 1, by omega⟩
    rw [List.take_succ_cons, lengthFrom, ih (by omega)]
    exact fun ds hc ↦ ne_cons_of_prefix (List.take_prefix n cs) (fun ds ↦ hclose ds hc) ds

/-- The trivia of a text that is cut behind it. -/
theorem length_take {cs : List Char} {n : Nat} (h : length cs ≤ n) :
    length (cs.take n) = length cs :=
  lengthFrom_take h

/-! ### Cutting trivia at its last white space -/

/-- What is skipped up to the end is still skipped without the white space there. -/
theorem lengthFrom_trimEnd {mode : Mode} {cs : List Char} (h : lengthFrom mode cs = cs.length) :
    lengthFrom mode (trimEnd cs) = (trimEnd cs).length := by
  fun_induction lengthFrom mode cs with
  | case1 mode => rfl
  | case2 cs ih | case3 cs ih | case8 cs ih =>
    rw [trimEnd_cons_of_not_blank (by decide), trimEnd_cons_of_not_blank (by decide), lengthFrom,
      ih (by simpa using h), List.length_cons, List.length_cons]
  | case4 c cs hline hblock hblank ih =>
    -- What is cut starts with no comment where the whole did not.
    have hcut := isPrefix_trimEnd cs
    rw [trimEnd_cons, if_pos hblank]
    split
    · rfl
    · rw [lengthFrom, if_pos hblank, ih (by simpa using h), List.length_cons]
      · exact fun ds hc ↦ ne_cons_of_prefix hcut (fun ds ↦ hline ds hc) ds
      · exact fun ds hc ↦ ne_cons_of_prefix hcut (fun ds ↦ hblock ds hc) ds
  | case5 c cs hline hblock hblank => cases h
  | case6 c cs hend ih =>
    rw [trimEnd_cons]
    split
    · split <;> simp [lengthFrom]
    · rw [lengthFrom, if_pos hend, ih (by simpa using h), List.length_cons]
  | case7 c cs hend ih =>
    rw [trimEnd_cons]
    split
    · split <;> simp [lengthFrom]
    · rw [lengthFrom, if_neg hend, ih (by simpa using h), List.length_cons]
  | case9 c cs hclose ih =>
    have hcut := isPrefix_trimEnd cs
    rw [trimEnd_cons]
    split
    · split <;> simp [lengthFrom]
    · rw [lengthFrom, ih (by simpa using h), List.length_cons]
      exact fun ds hc ↦ ne_cons_of_prefix hcut (fun ds ↦ hclose ds hc) ds

end SqlBatch.Trivia
