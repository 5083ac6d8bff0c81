import SqlBatch.Text.CodeRanges

/-!
# Blank characters

White space is the Unicode property `White_Space`: it separates tokens, and it is what is cut off at
the ends of a statement's text. Zero-width characters do not belong to it.

`trimEnd` is what makes the text of a statement end with its last token. It goes from the end of the
text, so its equations are by what is put in front: a text behind which something stays is not cut
at all (`trimEnd_append`).
-/

namespace SqlBatch

/-- The property `White_Space`. -/
def blankRanges : CodeRanges :=
  [ (0x9, 0xD), (0x20, 0x20), (0x85, 0x85), (0xA0, 0xA0), (0x1680, 0x1680), (0x2000, 0x200A),
    (0x2028, 0x2029), (0x202F, 0x202F), (0x205F, 0x205F), (0x3000, 0x3000)]

/-- Whether a character is white space. -/
def isBlank (c : Char) : Bool :=
  blankRanges.covers c

/-- A text without the white space at its end. -/
def trimEnd (cs : List Char) : List Char :=
  (cs.reverse.dropWhile isBlank).reverse

/-- Only what stands last is cut, unless all of it goes. -/
theorem trimEnd_append (cs ds : List Char) :
    trimEnd (cs ++ ds) = if trimEnd ds = [] then trimEnd cs else cs ++ trimEnd ds := by
  simp only [trimEnd, List.reverse_append, List.dropWhile_append, List.isEmpty_iff,
    List.reverse_eq_nil_iff]
  split
  · rfl
  · rw [List.reverse_append, List.reverse_reverse]

/-- In front of a text that is cut, one that ends without a blank stays. -/
theorem trimEnd_append_of_eq {cs : List Char} (h : trimEnd cs = cs) (ds : List Char) :
    trimEnd (cs ++ ds) = cs ++ trimEnd ds := by
  rw [trimEnd_append]
  split
  · rename_i hds
    rw [hds, h, List.append_nil]
  · rfl

/-- A first character stays if anything behind it does, or if it is not blank. -/
theorem trimEnd_cons (c : Char) (cs : List Char) :
    trimEnd (c :: cs) =
      if trimEnd cs = [] then if isBlank c then [] else [c] else c :: trimEnd cs := by
  have hc : trimEnd [c] = if isBlank c then [] else [c] := by
    by_cases h : isBlank c <;> simp [trimEnd, h]
  rw [← List.singleton_append, trimEnd_append, hc, List.singleton_append]

/-- A first character that is not blank stays. -/
theorem trimEnd_cons_of_not_blank {c : Char} (h : isBlank c = false) (cs : List Char) :
    trimEnd (c :: cs) = c :: trimEnd cs := by
  rw [trimEnd_cons, h]
  split <;> simp [*]

/-- A last character that is not blank keeps all of the text. -/
theorem trimEnd_concat {c : Char} (h : isBlank c = false) (cs : List Char) :
    trimEnd (cs ++ [c]) = cs ++ [c] := by
  have hc : trimEnd [c] = [c] := trimEnd_cons_of_not_blank h []
  rw [trimEnd_append, hc]
  simp

/-- A text without blank characters stays. -/
theorem trimEnd_eq_self {cs : List Char} (h : ∀ c ∈ cs, isBlank c = false) : trimEnd cs = cs := by
  induction cs with
  | nil => rfl
  | cons c cs ih =>
    obtain ⟨hc, hcs⟩ := List.forall_mem_cons.1 h
    rw [trimEnd_cons_of_not_blank hc, ih hcs]

/-- White space at the end alone is cut off. -/
theorem isPrefix_trimEnd (cs : List Char) : trimEnd cs <+: cs := by
  rw [← List.reverse_suffix, trimEnd, List.reverse_reverse]
  exact List.dropWhile_suffix _

/-- A text without the white space at either end. -/
def trim (cs : List Char) : List Char :=
  trimEnd (cs.dropWhile isBlank)

/-- All that core calls white space is blank. -/
theorem isBlank_of_isWhitespace {c : Char} (h : c.isWhitespace = true) : isBlank c = true := by
  simp only [Char.isWhitespace, Bool.or_eq_true, decide_eq_true_eq] at h
  rcases h with ((h | h) | h) | h <;> subst h <;> decide

end SqlBatch
