import SqlBatch.Lexer.Trivia
import SqlBatch.Proofs.Lines

/-!
# What lines are

The lines of a text are the one way to cut it (`RawLine.ofChars_eq_iff`): lines without a line end
in their contents, each but the last with a terminator, laid end to end so that no `\r` stands in
front of a `\n` that it belongs to. Whatever is to be known of the lines of a text follows from
`RawLine.IsCut`, and a text that is put together from such lines has these lines and no others.

## The two directions

That the lines of a text are a cut follows the way in which they are found, character by character
(`isCut_ofChars`). That there is no other cut is an induction on the cut: what is put in front of a
text as a plain content, or as a terminator, becomes just that (`ofChars_append_of_isPlain`,
`ofChars_append_of_mem_terminators`).

## Putting lines behind others

A later module marks a line in a text by putting a further one behind it. It does so with
`IsCut.append`: the lines above and below stay as they are, and what is to be checked is that the
terminators do not run into each other. A lone `\r` in front of a line that is empty but for its
`\n` is the case where they do.
-/

namespace SqlBatch.RawLine

/-- What ends a line. -/
def terminators : List (List Char) :=
  [['\n'], ['\r', '\n'], ['\r']]

/-- No character of the text ends a line. -/
def IsPlain (cs : List Char) : Prop :=
  ∀ c ∈ cs, Trivia.isLineEnd c = false

/-- An empty line has no line end in it. -/
theorem isPlain_nil : IsPlain [] :=
  List.forall_mem_nil _

/-- The characters that end lines. -/
theorem isLineEnd_iff {c : Char} : Trivia.isLineEnd c ↔ c = '\n' ∨ c = '\r' := by
  simp [Trivia.isLineEnd]

/-- The lines that a text is cut into. -/
inductive IsCut : List RawLine → Prop
  | last {content : List Char} : IsPlain content → IsCut [⟨content, []⟩]
  | cons {content terminator : List Char} {lines : List RawLine} :
    IsPlain content → terminator ∈ terminators →
    (terminator = ['\r'] → (lines.flatMap chars).head? ≠ some '\n') → IsCut lines →
    IsCut (⟨content, terminator⟩ :: lines)

/-! ### A text is cut into its lines -/

/-- A character that ends no line goes to the first line of what stands behind it. -/
theorem IsCut.cons_char {c : Char} {line : RawLine} {lines : List RawLine}
    (h : IsCut (line :: lines)) (hc : Trivia.isLineEnd c = false) :
    IsCut (⟨c :: line.content, line.terminator⟩ :: lines) := by
  cases h with
  | last hplain => exact .last (List.forall_mem_cons.2 ⟨hc, hplain⟩)
  | cons hplain hterminator hreturn hlines =>
    exact .cons (List.forall_mem_cons.2 ⟨hc, hplain⟩) hterminator hreturn hlines

/-- The lines of a text are a cut of it. -/
theorem isCut_ofChars (cs : List Char) : IsCut (ofChars cs) := by
  fun_induction ofChars cs with
  | case1 => exact .last isPlain_nil
  | case2 cs ih => exact .cons isPlain_nil (by simp [terminators]) (by simp) ih
  | case3 c cs hpair hend ih =>
    refine .cons isPlain_nil ?_ (fun hreturn hhead ↦ ?_) ih
    · rcases hend with rfl | rfl <;> simp [terminators]
    · rw [flatMap_chars_ofChars] at hhead
      obtain ⟨ds, hds⟩ := List.head?_eq_some_iff.1 hhead
      exact hpair ds (List.singleton_inj.1 hreturn) hds
  | case4 c cs _ _ hnil ih =>
    rw [hnil] at ih
    cases ih
  | case5 c cs _ hend line lines hlines ih =>
    rw [hlines] at ih
    exact ih.cons_char (Bool.eq_false_iff.2 (mt isLineEnd_iff.1 hend))

/-! ### A text has no other lines -/

/-- Characters that end no line go to the first line of what stands behind them. -/
theorem ofChars_append_of_isPlain {cs ds : List Char} {line : RawLine} {lines : List RawLine}
    (h : IsPlain cs) (hds : ofChars ds = line :: lines) :
    ofChars (cs ++ ds) = ⟨cs ++ line.content, line.terminator⟩ :: lines := by
  induction cs with
  | nil => exact hds
  | cons c cs ih =>
    obtain ⟨hc, hcs⟩ := List.forall_mem_cons.1 h
    have hend : ¬ (c = '\n' ∨ c = '\r') := mt isLineEnd_iff.2 (Bool.eq_false_iff.1 hc)
    rw [List.cons_append, ofChars_cons fun _ hr ↦ absurd (Or.inr hr) hend, if_neg hend, ih hcs]
    rfl

/-- A terminator ends the line in front of it. -/
theorem ofChars_append_of_mem_terminators {terminator cs : List Char}
    (h : terminator ∈ terminators) (hreturn : terminator = ['\r'] → cs.head? ≠ some '\n') :
    ofChars (terminator ++ cs) = ⟨[], terminator⟩ :: ofChars cs := by
  simp only [terminators, List.mem_cons, List.not_mem_nil, or_false] at h
  rcases h with rfl | rfl | rfl
  · exact ofChars_cons fun _ hr ↦ absurd hr (by decide)
  · rfl
  · exact ofChars_cons fun ds _ hcs ↦ hreturn rfl (List.head?_eq_some_iff.2 ⟨ds, hcs⟩)

/-- A text that is put together from a cut has the lines of it. -/
theorem IsCut.ofChars_flatMap {lines : List RawLine} (h : IsCut lines) :
    ofChars (lines.flatMap chars) = lines := by
  induction h with
  | @last content hplain =>
    have hcontent := ofChars_append_of_isPlain hplain (show ofChars [] = [⟨[], []⟩] from rfl)
    simpa [chars] using hcontent
  | @cons content terminator lines hplain hterminator hreturn _ ih =>
    have hbehind := ofChars_append_of_mem_terminators hterminator hreturn
    rw [ih] at hbehind
    rw [List.flatMap_cons, chars, List.append_assoc, ofChars_append_of_isPlain hplain hbehind,
      List.append_nil]

/-- **The lines of a text are the one way to cut it.** -/
theorem ofChars_eq_iff {cs : List Char} {lines : List RawLine} :
    ofChars cs = lines ↔ IsCut lines ∧ lines.flatMap chars = cs := by
  constructor
  · rintro rfl
    exact ⟨isCut_ofChars cs, flatMap_chars_ofChars cs⟩
  · rintro ⟨hcut, rfl⟩
    exact hcut.ofChars_flatMap

/-- A text that goes on behind another one has the lines of both, but the two that meet are one. -/
theorem length_ofChars_append (cs : List Char) {ds : List Char} (h : ds.head? ≠ some '\n') :
    (ofChars (cs ++ ds)).length + 1 = (ofChars cs).length + (ofChars ds).length := by
  obtain ⟨init, last, hcs, happend⟩ := @ofChars_append cs ds h
  cases hds : ofChars ds with
  | nil =>
    have hcut := isCut_ofChars ds
    rw [hds] at hcut
    cases hcut
  | cons line lines =>
    rw [happend line lines hds, hcs]
    simp only [List.length_append, List.length_cons, List.length_nil]
    omega

/-! ### The parts of a cut -/

namespace IsCut

variable {above below lines : List RawLine} {line : RawLine}

/-- What there is to a line that is not the last. -/
theorem of_cons (h : IsCut (line :: lines)) (hne : lines ≠ []) :
    IsPlain line.content ∧ line.terminator ∈ terminators ∧
      (line.terminator = ['\r'] → (lines.flatMap chars).head? ≠ some '\n') ∧ IsCut lines := by
  cases h with
  | last => exact absurd rfl hne
  | cons hplain hterminator hreturn hlines => exact ⟨hplain, hterminator, hreturn, hlines⟩

/-- The lower lines of a cut are a cut. -/
theorem of_append (h : IsCut (above ++ line :: below)) : IsCut (line :: below) := by
  induction above with
  | nil => exact h
  | cons first above ih =>
    obtain ⟨-, -, -, hrest⟩ := h.of_cons (by simp)
    exact ih hrest

/-- A line of a cut has no line end in its contents. -/
theorem isPlain_content (h : IsCut (above ++ line :: below)) : IsPlain line.content := by
  cases h.of_append with
  | last hplain => exact hplain
  | cons hplain => exact hplain

/-- Only the last line has no terminator. -/
theorem terminator_cases (h : IsCut (above ++ line :: below)) :
    line.terminator = [] ∧ below = [] ∨ line.terminator ∈ terminators ∧ IsCut below := by
  cases h.of_append with
  | last => exact .inl ⟨rfl, rfl⟩
  | cons _ hterminator _ hlines => exact .inr ⟨hterminator, hlines⟩

/-- Behind a line that ends with a lone return, no line feed stands. -/
theorem head?_ne_of_return (h : IsCut (above ++ line :: below))
    (hreturn : line.terminator = ['\r']) :
    (below.flatMap chars).head? ≠ some '\n' := by
  cases h.of_append with
  | last => cases hreturn
  | cons _ _ hhead => exact hhead hreturn

/-! ### Other lines at the end of a cut -/

/-- Lines that end with `\r` are not followed by `\n`. -/
theorem head?_ne_of_getLast? (h : IsCut (above ++ line :: below))
    (hreturn : (above.flatMap chars).getLast? = some '\r') :
    ((line :: below).flatMap chars).head? ≠ some '\n' := by
  rcases List.eq_nil_or_concat above with rfl | ⟨init, last, rfl⟩
  · cases hreturn
  · rw [List.concat_eq_append] at h hreturn
    rw [List.append_assoc, List.singleton_append] at h
    rcases h.terminator_cases with ⟨-, hbelow⟩ | ⟨hterminator, -⟩
    · cases hbelow
    · refine h.head?_ne_of_return ?_
      rw [List.flatMap_append, List.flatMap_singleton, chars, List.getLast?_append,
        List.getLast?_append] at hreturn
      simp only [terminators, List.mem_cons, List.not_mem_nil, or_false] at hterminator
      rcases hterminator with hend | hend | hend
      · simp [hend] at hreturn
      · simp [hend] at hreturn
      · exact hend

/-- Other lines may stand behind some lines if no `\r\n` comes about between them. -/
theorem append (h : IsCut (above ++ line :: below)) (hlines : IsCut lines)
    (hpair : (above.flatMap chars).getLast? = some '\r' →
      (lines.flatMap chars).head? ≠ some '\n') : IsCut (above ++ lines) := by
  induction above with
  | nil => exact hlines
  | cons first above ih =>
    rw [List.cons_append] at h ⊢
    obtain ⟨hplain, hterminator, hreturn, hrest⟩ := h.of_cons (by simp)
    refine .cons hplain hterminator (fun hr ↦ ?_) (ih hrest fun hlast ↦ hpair ?_)
    · have hhead := hreturn hr
      rw [List.flatMap_append, List.head?_append] at hhead ⊢
      cases habove : above.flatMap chars with
      | nil =>
        -- Nothing stands between this line and what is put behind.
        refine hpair ?_
        rw [List.flatMap_cons, habove, chars, hr]
        simp
      | cons c cs =>
        rw [habove] at hhead
        exact hhead
    · rw [List.flatMap_cons, List.getLast?_append, hlast]
      rfl

end IsCut

end SqlBatch.RawLine
