import SqlBatch.Text.Lines

/-!
# Lines of a longer text

The line and column of an offset do not depend on what stands behind it, as long as the text there
does not go on with a line end (`LineIndex.lineCol_append`).

## Why a line end is excluded

The line feed of a `\r\n` is the one character that can change how the text in front of it is cut: a
return that ended a line before is then part of a longer terminator. Any other text continues the
last line and adds lines of its own (`RawLine.ofChars_append`). A text that starts with a return
would do no harm, but it is left out too, for what is put behind others starts with a semicolon.

## Starts

A line index keeps where each line starts, and finds the line of an offset among these
(`lineCol_ofSource`). Starts that lie behind the offset have no part in that
(`filter_starts_append`), so the lines that the longer text adds make no difference.
-/

namespace SqlBatch

namespace RawLine

/-- The lines of a text by its first character, unless it is the return of a `\r\n`. -/
theorem ofChars_cons {c : Char} {cs : List Char} (h : ∀ ds, c = '\r' → cs = '\n' :: ds → False) :
    ofChars (c :: cs) =
      if c = '\n' ∨ c = '\r' then ⟨[], [c]⟩ :: ofChars cs
      else
        match ofChars cs with
        | [] => [⟨[c], []⟩]
        | line :: lines => ⟨c :: line.content, line.terminator⟩ :: lines :=
  ofChars.eq_3 c cs h

/-- A text that goes on behind another one, other than with `\n`, continues its last line. -/
theorem ofChars_append {cs ds : List Char} (h : ds.head? ≠ some '\n') : ∃ init last,
    ofChars cs = init ++ [⟨last, []⟩] ∧ ∀ line lines, ofChars ds = line :: lines →
      ofChars (cs ++ ds) = init ++ ⟨last ++ line.content, line.terminator⟩ :: lines := by
  -- Nor does a return at the end come to stand in front of a line feed.
  have hcons {c : Char} {cs : List Char} (hc : ∀ ds, c = '\r' → cs = '\n' :: ds → False)
      (es : List Char) (hr : c = '\r') (happend : cs ++ ds = '\n' :: es) : False := by
    cases cs with
    | nil => simp [show ds = '\n' :: es from happend] at h
    | cons c' cs =>
      obtain ⟨rfl, -⟩ := List.cons.inj happend
      exact hc cs hr rfl
  fun_induction ofChars cs with
  | case1 => exact ⟨[], [], rfl, fun line lines hline ↦ hline⟩
  | case2 cs ih =>
    obtain ⟨init, last, hcs, happend⟩ := ih
    refine ⟨⟨[], ['\r', '\n']⟩ :: init, last, by rw [hcs, List.cons_append], ?_⟩
    intro line lines hline
    rw [List.cons_append, List.cons_append, ofChars, happend line lines hline, List.cons_append]
  | case3 c cs hc hend ih =>
    obtain ⟨init, last, hcs, happend⟩ := ih
    refine ⟨⟨[], [c]⟩ :: init, last, by rw [hcs, List.cons_append], ?_⟩
    intro line lines hline
    rw [List.cons_append, ofChars_cons (hcons hc), if_pos hend, happend line lines hline,
      List.cons_append]
  | case4 c cs hc hend hnil ih =>
    obtain ⟨init, last, hcs, -⟩ := ih
    simp [hnil] at hcs
  | case5 c cs hc hend first rest hfirst ih =>
    obtain ⟨init, last, hcs, happend⟩ := ih
    rw [hfirst] at hcs
    -- The character goes to the first line, which may be the last one as well.
    cases init with
    | nil =>
      obtain ⟨rfl, rfl⟩ := List.cons.inj hcs
      refine ⟨[], c :: last, rfl, ?_⟩
      intro line lines hline
      rw [List.cons_append, ofChars_cons (hcons hc), if_neg hend, happend line lines hline]
      rfl
    | cons first' init =>
      obtain ⟨rfl, rfl⟩ := List.cons.inj hcs
      refine ⟨⟨c :: first.content, first.terminator⟩ :: init, last, rfl, ?_⟩
      intro line lines hline
      rw [List.cons_append, ofChars_cons (hcons hc), if_neg hend, happend line lines hline]
      rfl

end RawLine

/-- Where the lines start that are laid end to end from an offset on. -/
def Line.starts (start : Nat) : List RawLine → List Nat
  | [] => []
  | raw :: raws => start :: starts (start + byteLength raw.chars) raws

/-- Lines that are laid out start where they are said to. -/
theorem Line.map_start_place (number start : Nat) (raws : List RawLine) :
    (Line.place number start raws).map (·.span.start) = Line.starts start raws := by
  induction raws generalizing number start with
  | nil => rfl
  | cons raw raws ih =>
    rw [place, List.map_cons, ih, starts, RawLine.chars, byteLength_append, Nat.add_assoc]

/-- Where lines start, part by part. -/
theorem Line.starts_append (start : Nat) (raws others : List RawLine) :
    Line.starts start (raws ++ others) = Line.starts start raws ++
      Line.starts (start + byteLength (raws.flatMap RawLine.chars)) others := by
  induction raws generalizing start with
  | nil => rfl
  | cons raw raws ih =>
    simp only [List.cons_append, starts, ih, List.flatMap_cons, byteLength_append, Nat.add_assoc]

/-- No line starts in front of the first one. -/
theorem Line.le_of_mem_starts {start n : Nat} {raws : List RawLine}
    (h : n ∈ Line.starts start raws) : start ≤ n := by
  induction raws generalizing start with
  | nil => cases h
  | cons raw raws ih =>
    rcases List.mem_cons.1 h with rfl | h
    · exact Nat.le_refl _
    · exact Nat.le_trans (Nat.le_add_right _ _) (ih h)

namespace LineIndex

/-- A line and column depend on where the lines start that start in front of the offset. -/
theorem lineCol_ofSource (source : String) (offset : Nat) :
    (ofSource source).lineCol offset =
      let offset := min offset (byteLength source.toList)
      let begun := (Line.starts 0 (RawLine.ofChars source.toList)).filter (· ≤ offset)
      let start := begun.getLast?.getD 0
      let before := (charsBetween? start offset source.toList).map List.length
      ⟨begun.length, before.getD (offset - start) + 1⟩ := by
  simp only [lineCol, ofSource, ← Line.map_start_place 1, List.filter_map, List.length_map,
    List.getLast?_map, Function.comp_def]
  rfl

/-- The lines of a text that start up to an offset are the same where the text goes on behind it,
unless it does so with a line end: the last line is continued, and all further ones start behind the
offset. -/
theorem filter_starts_append {cs ds more : List Char} {c : Char} {offset : Nat}
    (hmore : more = c :: ds) (hc : ¬ (c = '\n' ∨ c = '\r')) (hoffset : offset ≤ byteLength cs) :
    (Line.starts 0 (RawLine.ofChars (cs ++ more))).filter (· ≤ offset) =
      (Line.starts 0 (RawLine.ofChars cs)).filter (· ≤ offset) := by
  obtain ⟨init, last, hcs, happend⟩ : ∃ init last, RawLine.ofChars cs = init ++ [⟨last, []⟩] ∧
      ∀ line lines, RawLine.ofChars more = line :: lines → RawLine.ofChars (cs ++ more) =
        init ++ ⟨last ++ line.content, line.terminator⟩ :: lines :=
    RawLine.ofChars_append (by simp [hmore, mt Or.inl hc])
  obtain ⟨content, terminator, rest, hfirst⟩ : ∃ content terminator rest,
      RawLine.ofChars more = ⟨c :: content, terminator⟩ :: rest := by
    rw [hmore, RawLine.ofChars_cons fun _ hr ↦ absurd (Or.inr hr) hc, if_neg hc]
    cases RawLine.ofChars ds with
    | nil => exact ⟨[], [], [], rfl⟩
    | cons line lines => exact ⟨line.content, line.terminator, lines, rfl⟩
  have hlast : byteLength (init.flatMap RawLine.chars) + byteLength last = byteLength cs := by
    rw [← RawLine.flatMap_chars_ofChars cs, hcs]
    simp [RawLine.chars]
  have hbehind (n : Nat) (hn : byteLength cs < n) (raws : List RawLine) :
      (Line.starts n raws).filter (· ≤ offset) = [] := by
    refine List.filter_eq_nil_iff.2 fun m hm ↦ ?_
    have := Line.le_of_mem_starts hm
    simp only [decide_eq_true_eq]
    omega
  -- Both texts have the starts of `init`; what is left starts behind the offset.
  rw [happend _ _ hfirst, hcs, Line.starts_append, Line.starts_append, List.filter_append,
    List.filter_append]
  congr 1
  rw [Nat.zero_add, Line.starts, Line.starts, Line.starts, List.filter_cons, List.filter_cons,
    hbehind _ _ rest, List.filter_nil]
  have := c.utf8Size_pos
  simp only [RawLine.chars, byteLength_append, byteLength_cons]
  omega

/-- **The place of an offset does not depend on what follows behind it**, unless the text there goes
on with a line end. -/
theorem lineCol_append {source more : String} {c : Char} {cs : List Char} {offset : Nat}
    (hmore : more.toList = c :: cs) (hc : ¬ (c = '\n' ∨ c = '\r'))
    (hoffset : offset ≤ byteLength source.toList) :
    (ofSource (source ++ more)).lineCol offset = (ofSource source).lineCol offset := by
  rw [lineCol_ofSource, lineCol_ofSource, String.toList_append, byteLength_append,
    Nat.min_eq_left (Nat.le_trans hoffset (Nat.le_add_right _ _)), Nat.min_eq_left hoffset]
  simp only [filter_starts_append hmore hc hoffset, charsBetween?_append_of_le _ hoffset]

end LineIndex

end SqlBatch
