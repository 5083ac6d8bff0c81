import SqlBatch.Proofs.Boundaries
import SqlBatch.Proofs.Lines.Cut

/-!
# Places in a text

A place lies in one of the lines of a text, between the characters of the line and its terminator.
Every offset between two characters has one (`RawLine.exists_place`), and places further on have
later positions (`RawLine.Place.before_of_offset_lt`). What a line index says of an offset or of a
number is said of the place that it belongs to: `lineCol_offset`, `line?_of_ofChars`.

## One place for one offset

What stands behind the terminator of a line is the start of the next line, and no place of this one.
So a place that has nothing behind it on its line is at the end of the text (`below_eq_nil`), and an
offset does not have two places.

## From places to positions

A line index finds the line of an offset by counting the lines that start at or before it. For the
offset of a place these are the lines above and its own (`starts_le_offset`), and the characters
between the start of the line and the offset are those in front of the place.
-/

namespace SqlBatch

namespace RawLine

/-- A place in a text that is cut into lines. What stands behind the terminator of a line is in the
next line, so a place with nothing behind it on its line is the end of the text. -/
structure Place (lines : List RawLine) where
  above : List RawLine
  line : RawLine
  below : List RawLine
  /-- The characters in front of the place on its line. -/
  before : List Char
  /-- The characters behind the place on its line, with the terminator. -/
  behind : List Char
  lines_eq : lines = above ++ line :: below
  chars_eq : line.chars = before ++ behind
  below_eq_nil : behind = [] → below = []

namespace Place

variable {lines : List RawLine} (p : Place lines)

/-- The text in front of the place. -/
def front : List Char :=
  p.above.flatMap chars ++ p.before

/-- The byte offset of the place. -/
def offset : Nat :=
  byteLength p.front

/-- The number of the line. -/
def number : Nat :=
  p.above.length + 1

/-- The line and column of the place. -/
def lineCol : LineCol :=
  ⟨p.number, p.before.length + 1⟩

/-- The text around a place. -/
theorem flatMap_chars : lines.flatMap chars = p.front ++ (p.behind ++ p.below.flatMap chars) := by
  calc lines.flatMap chars = (p.above ++ p.line :: p.below).flatMap chars :=
        congrArg (·.flatMap chars) p.lines_eq
    _ = _ := by
        rw [List.flatMap_append, List.flatMap_cons, p.chars_eq, front]
        simp only [List.append_assoc]

/-- The offset of a place by its line and what stands in front of it there. -/
theorem offset_eq : p.offset = byteLength (p.above.flatMap chars) + byteLength p.before :=
  byteLength_append _ _

end Place

/-- **Every cut of a text between two characters has a place.** -/
theorem exists_place {lines : List RawLine} {front rest : List Char} (hne : lines ≠ [])
    (h : lines.flatMap chars = front ++ rest) : ∃ p : Place lines, p.front = front := by
  induction lines generalizing front with
  | nil => exact absurd rfl hne
  | cons line lines ih =>
    -- The place is on this line, unless the line is passed as a whole and there is another one.
    have hhere {before behind : List Char} (hchars : line.chars = before ++ behind)
        (hbelow : behind = [] → lines = []) : ∃ p : Place (line :: lines), p.front = before :=
      ⟨⟨[], line, lines, before, behind, rfl, hchars, hbelow⟩, rfl⟩
    have hfurther (more : List Char) (hlines : lines ≠ [])
        (hmore : lines.flatMap chars = more ++ rest) :
        ∃ p : Place (line :: lines), p.front = line.chars ++ more := by
      obtain ⟨p, rfl⟩ := ih hlines hmore
      refine ⟨⟨line :: p.above, p.line, p.below, p.before, p.behind, ?_, p.chars_eq,
        p.below_eq_nil⟩, ?_⟩
      · rw [List.cons_append, ← p.lines_eq]
      · simp only [Place.front, List.flatMap_cons, List.append_assoc]
    rw [List.flatMap_cons] at h
    by_cases hlines : lines = []
    · subst hlines
      rw [List.flatMap_nil, List.append_nil] at h
      exact hhere h fun _ ↦ rfl
    · rcases List.append_eq_append_iff.1 h with ⟨more, rfl, hmore⟩ | ⟨behind, hchars, rfl⟩
      · exact hfurther more hlines hmore
      · by_cases hbehind : behind = []
        · subst hbehind
          rw [List.append_nil] at hchars
          subst hchars
          simpa using hfurther [] hlines (by simp)
        · exact hhere hchars fun hnil ↦ absurd hnil hbehind

end RawLine

/-! ### The order of places -/

/-- One position comes before another: on an earlier line, or further to the left on the same. -/
def LineCol.Before (a b : LineCol) : Prop :=
  a.line < b.line ∨ a.line = b.line ∧ a.column < b.column

namespace RawLine.Place

variable {lines : List RawLine} {p q : Place lines}

/-- A line above ends in front of the places further down. -/
theorem offset_le_of_above {more : List RawLine} (h : p.above = q.above ++ q.line :: more) :
    q.offset ≤ p.offset := by
  rw [q.offset_eq, p.offset_eq, h, List.flatMap_append, List.flatMap_cons, q.chars_eq]
  simp only [byteLength_append]
  omega

/-- **Places further on have later positions.** -/
theorem before_of_offset_lt (h : p.offset < q.offset) : p.lineCol.Before q.lineCol := by
  have hlines := p.lines_eq.symm.trans q.lines_eq
  rcases Nat.lt_trichotomy p.above.length q.above.length with hlt | heq | hgt
  · exact .inl (Nat.succ_lt_succ hlt)
  · -- Both are on the same line, and the texts in front of them there start it.
    obtain ⟨habove, hrest⟩ := List.append_inj hlines heq
    obtain ⟨hline, -⟩ := List.cons.inj hrest
    refine .inr ⟨congrArg Nat.succ heq, Nat.succ_lt_succ (Nat.lt_of_not_le fun hle ↦ ?_)⟩
    have hq : q.before <+: p.line.chars := by
      rw [hline, q.chars_eq]
      exact List.prefix_append _ _
    have hp : p.before <+: p.line.chars := by
      rw [p.chars_eq]
      exact List.prefix_append _ _
    obtain ⟨rest, hrest⟩ := List.prefix_of_prefix_length_le hq hp hle
    rw [p.offset_eq, q.offset_eq, habove, ← hrest, byteLength_append] at h
    omega
  · rcases List.append_eq_append_iff.1 hlines with ⟨more, habove, -⟩ | ⟨more, habove, hmore⟩
    · rw [habove, List.length_append] at hgt
      omega
    · cases more with
      | nil => simp [habove] at hgt
      | cons line more =>
        obtain ⟨rfl, -⟩ := List.cons.inj hmore
        have := offset_le_of_above habove
        omega

end RawLine.Place

/-! ### Lines by number -/

namespace Line

/-- As many lines are laid out as there are. -/
theorem length_place (number start : Nat) (raws : List RawLine) :
    (place number start raws).length = raws.length := by
  induction raws generalizing number start with
  | nil => rfl
  | cons raw raws ih => rw [place, List.length_cons, ih, List.length_cons]

/-- Lines are laid out part by part. -/
theorem place_append (number start : Nat) (raws others : List RawLine) :
    place number start (raws ++ others) = place number start raws ++
      place (number + raws.length) (start + byteLength (raws.flatMap RawLine.chars)) others := by
  induction raws generalizing number start with
  | nil => rfl
  | cons raw raws ih =>
    simp only [List.cons_append, place, ih, List.flatMap_cons, RawLine.chars, byteLength_append,
      List.length_cons, Nat.add_assoc, Nat.add_comm 1]

/-- The line with a number, laid behind a text. -/
def ofRaw (number : Nat) (front : List Char) (raw : RawLine) : Line where
  number := number
  span := ⟨byteLength front, byteLength front + byteLength raw.content⟩
  text := .ofList raw.content
  terminator := .ofList raw.terminator

end Line

namespace LineIndex

variable {source : String}

/-- The number of lines of a text. -/
theorem lineCount_ofSource :
    (ofSource source).lineCount = (RawLine.ofChars source.toList).length :=
  Line.length_place _ _ _

/-- The line behind a number of others is the one with the next number. -/
theorem line?_of_ofChars {above below : List RawLine} {raw : RawLine}
    (h : RawLine.ofChars source.toList = above ++ raw :: below) :
    (ofSource source).line? (above.length + 1) =
      some (.ofRaw (above.length + 1) (above.flatMap RawLine.chars) raw) := by
  rw [line?, if_neg (Nat.succ_ne_zero _), Nat.add_sub_cancel, ofSource, h, Line.place_append,
    List.getElem?_append_right (Nat.le_of_eq (Line.length_place _ _ _)), Line.length_place,
    Nat.sub_self, Line.place, List.getElem?_cons_zero, Nat.zero_add, Nat.add_comm 1]
  rfl

/-- There are lines for the numbers from one up to their count. -/
theorem isSome_line?_iff {n : Nat} :
    ((ofSource source).line? n).isSome ↔ 1 ≤ n ∧ n ≤ (ofSource source).lineCount := by
  rw [line?, lineCount]
  split
  · simp [*]
  · rw [isSome_getElem?]
    omega

/-- A line that is found by its number stands behind the lines above it. -/
theorem exists_of_line? {n : Nat} {line : Line} (h : (ofSource source).line? n = some line) :
    ∃ above raw below, RawLine.ofChars source.toList = above ++ raw :: below ∧
      n = above.length + 1 ∧ line = .ofRaw n (above.flatMap RawLine.chars) raw := by
  obtain ⟨hpos, hle⟩ := isSome_line?_iff.1 (Option.isSome_iff_exists.2 ⟨line, h⟩)
  rw [lineCount_ofSource] at hle
  obtain ⟨n, rfl⟩ : ∃ k, n = k + 1 := ⟨n - 1, by omega⟩
  have hlines : RawLine.ofChars source.toList = (RawLine.ofChars source.toList).take n ++
      (RawLine.ofChars source.toList)[n] :: (RawLine.ofChars source.toList).drop (n + 1) := by
    rw [← List.drop_eq_getElem_cons hle, List.take_append_drop]
  have hlength : ((RawLine.ofChars source.toList).take n).length = n := by
    rw [List.length_take, Nat.min_eq_left (Nat.le_of_succ_le hle)]
  have hline := line?_of_ofChars hlines
  rw [hlength, h] at hline
  exact ⟨_, _, _, hlines, congrArg Nat.succ hlength.symm, Option.some.inj hline⟩

end LineIndex

/-! ### Offsets and positions -/

/-- Every line starts somewhere. -/
theorem Line.length_starts (start : Nat) (raws : List RawLine) :
    (Line.starts start raws).length = raws.length := by
  rw [← Line.map_start_place 0, List.length_map, Line.length_place]

/-- No line starts behind the end of the text. -/
theorem Line.le_add_of_mem_starts {start n : Nat} {raws : List RawLine}
    (h : n ∈ Line.starts start raws) : n ≤ start + byteLength (raws.flatMap RawLine.chars) := by
  induction raws generalizing start with
  | nil => cases h
  | cons raw raws ih =>
    rw [List.flatMap_cons, byteLength_append]
    rcases List.mem_cons.1 h with rfl | h
    · exact Nat.le_add_right _ _
    · have := ih h
      omega

namespace LineIndex

variable {source : String} {lines : List RawLine}

/-- The text up to a place, and from there on. -/
theorem toList_eq_front (hlines : RawLine.ofChars source.toList = lines)
    (p : RawLine.Place lines) :
    source.toList = p.front ++ (p.behind ++ p.below.flatMap RawLine.chars) := by
  rw [← p.flatMap_chars, ← hlines, RawLine.flatMap_chars_ofChars]

/-- Up to a place there are the starts of the lines above it and of its own line. -/
theorem starts_le_offset (p : RawLine.Place lines) :
    (Line.starts 0 lines).filter (· ≤ p.offset) =
      Line.starts 0 p.above ++ [byteLength (p.above.flatMap RawLine.chars)] := by
  have habove : (Line.starts 0 p.above).filter (· ≤ p.offset) = Line.starts 0 p.above := by
    refine List.filter_eq_self.2 fun n hn ↦ decide_eq_true ?_
    have := Line.le_add_of_mem_starts hn
    rw [p.offset_eq]
    omega
  have hbelow : (Line.starts (byteLength (p.above.flatMap RawLine.chars) +
      byteLength p.line.chars) p.below).filter (· ≤ p.offset) = [] := by
    -- Where nothing stands behind the place, its line is the last one.
    by_cases hbehind : p.behind = []
    · rw [p.below_eq_nil hbehind]
      rfl
    · refine List.filter_eq_nil_iff.2 fun n hn ↦ ?_
      have hpos := byteLength_pos hbehind
      have := Line.le_of_mem_starts hn
      rw [p.chars_eq, byteLength_append] at this
      simp only [p.offset_eq, decide_eq_true_eq]
      omega
  have hline : decide (byteLength (p.above.flatMap RawLine.chars) ≤ p.offset) = true :=
    decide_eq_true (p.offset_eq ▸ Nat.le_add_right _ _)
  calc (Line.starts 0 lines).filter (· ≤ p.offset)
      = (Line.starts 0 (p.above ++ p.line :: p.below)).filter (· ≤ p.offset) :=
        congrArg (fun lines ↦ (Line.starts 0 lines).filter (· ≤ p.offset)) p.lines_eq
    _ = _ := by
        rw [Line.starts_append, Line.starts, Nat.zero_add, List.filter_append, habove,
          List.filter_cons, hline, if_pos rfl, hbelow]

/-- **The line and column of a place.** -/
theorem lineCol_offset (hlines : RawLine.ofChars source.toList = lines)
    (p : RawLine.Place lines) : (ofSource source).lineCol p.offset = p.lineCol := by
  have hsource := toList_eq_front hlines p
  have hle : p.offset ≤ byteLength source.toList := by
    rw [hsource, byteLength_append]
    exact Nat.le_add_right _ _
  have hbefore : charsBetween? (byteLength (p.above.flatMap RawLine.chars)) p.offset
      source.toList = some p.before := by
    rw [p.offset_eq, hsource, RawLine.Place.front, List.append_assoc]
    exact charsBetween?_append _ _ _
  rw [lineCol_ofSource, Nat.min_eq_left hle, hlines]
  simp only [starts_le_offset, List.getLast?_concat, Option.getD_some, hbefore, Option.map_some,
    List.length_append, Line.length_starts]
  rfl

end LineIndex

end SqlBatch
