import SqlBatch.Proofs.Lines.Place

/-!
# The line index is a two-way map

Offsets between characters and positions in lines stand for each other, but for the one offset
inside of a `\r\n`, which is behind the end of its line (`LineIndex.isTwoWay_ofSource`). What is
said here of the lines is said of them as they are asked for, by number.

## Through places

Both directions go through places (`RawLine.Place`): an offset between characters is the offset of a
place, and a position that a line has is the position of one. Each of them determines the place, and
the map from one to the other is read off it.

## The exception

A position has an offset up to the end of its line, where the terminator starts. A place further
right has a part of the terminator in front of it and a part behind it, and the only terminator with
a place inside is `\r\n` (`IsCut.eq_of_length_lt`). So the offsets between characters that are not
the offset of their position are those of `InsidePair`.
-/

namespace SqlBatch

/-- The content of a line and its terminator. -/
def Line.raw (line : Line) : RawLine :=
  ⟨line.text.toList, line.terminator.toList⟩

/-- Lines that are laid out are the ones that were given. -/
theorem Line.map_raw_place (number start : Nat) (raws : List RawLine) :
    (Line.place number start raws).map raw = raws := by
  induction raws generalizing number start with
  | nil => rfl
  | cons line raws ih =>
    rw [place, List.map_cons, ih, raw, String.toList_ofList, String.toList_ofList]

/-! ### Offsets for positions -/

namespace RawLine

variable {lines : List RawLine}

/-- A text has a line. -/
theorem IsCut.ne_nil (h : IsCut lines) : lines ≠ [] := by
  rintro rfl
  cases h

/-- A place up to the end of its line cuts the content in two. -/
theorem Place.exists_content (p : Place lines)
    (hwithin : p.before.length ≤ p.line.content.length) :
    ∃ more, p.line.content = p.before ++ more ∧ p.behind = more ++ p.line.terminator := by
  have hchars : p.line.content ++ p.line.terminator = p.before ++ p.behind := p.chars_eq
  rcases List.append_eq_append_iff.1 hchars with ⟨more, hbefore, hmore⟩ | hcontent
  · rw [hbefore, List.length_append] at hwithin
    obtain rfl : more = [] := List.eq_nil_of_length_eq_zero (by omega)
    exact ⟨[], by simp [hbefore], hmore.symm⟩
  · exact hcontent

/-- A terminator that has a character in front of a place and one behind it is `\r\n`. -/
theorem eq_of_mem_terminators {before behind : List Char} (h : before ++ behind ∈ terminators)
    (hbefore : before ≠ []) (hbehind : behind ≠ []) : before = ['\r'] ∧ behind = ['\n'] := by
  obtain ⟨c, cs, rfl⟩ := List.exists_cons_of_ne_nil hbefore
  obtain ⟨d, ds, rfl⟩ := List.exists_cons_of_ne_nil hbehind
  cases cs <;> simp_all [terminators]

/-- Only between `\r` and `\n` is a place behind the end of its line. -/
theorem IsCut.eq_of_length_lt (h : IsCut lines) (p : Place lines)
    (hlt : p.line.content.length < p.before.length) :
    p.before = p.line.content ++ ['\r'] ∧ p.behind = ['\n'] := by
  obtain ⟨more, hbefore, hmore⟩ : ∃ more, p.before = p.line.content ++ more ∧
      p.line.terminator = more ++ p.behind := by
    have hchars : p.line.content ++ p.line.terminator = p.before ++ p.behind := p.chars_eq
    rcases List.append_eq_append_iff.1 hchars with hmore | ⟨more, hcontent, -⟩
    · exact hmore
    · rw [hcontent, List.length_append] at hlt
      omega
  have hne : more ≠ [] := by
    rintro rfl
    rw [hbefore, List.append_nil] at hlt
    exact Nat.lt_irrefl _ hlt
  rcases (p.lines_eq ▸ h : IsCut (p.above ++ p.line :: p.below)).terminator_cases with
    ⟨hlast, -⟩ | ⟨hterminator, hbelow⟩
  · rw [hlast] at hmore
    exact absurd (List.append_eq_nil_iff.1 hmore.symm).1 hne
  · -- Another line stands below, so the place is not the end of the text.
    have hbehind : p.behind ≠ [] := fun hnil ↦ hbelow.ne_nil (p.below_eq_nil hnil)
    rw [hmore] at hterminator
    obtain ⟨rfl, hbehind⟩ := eq_of_mem_terminators hterminator hne hbehind
    exact ⟨hbefore, hbehind⟩

end RawLine

/-- The offset lies between a `\r` and a `\n`. -/
def InsidePair (source : String) (offset : Nat) : Prop :=
  ∃ front rest, source.toList = front ++ '\r' :: '\n' :: rest ∧ offset = byteLength front + 1

namespace LineIndex

variable {source : String} {lines : List RawLine}

/-- The line of a place. -/
theorem line?_number (hlines : RawLine.ofChars source.toList = lines) (p : RawLine.Place lines) :
    (ofSource source).line? p.number =
      some (.ofRaw p.number (p.above.flatMap RawLine.chars) p.line) :=
  line?_of_ofChars (hlines.trans p.lines_eq)

/-- **The offset of a position is that of its place**, up to the end of the line. -/
theorem offset?_lineCol (hlines : RawLine.ofChars source.toList = lines) (p : RawLine.Place lines)
    (hwithin : p.before.length ≤ p.line.content.length) :
    (ofSource source).offset? p.lineCol = some p.offset := by
  have htake : p.line.content.take p.before.length = p.before := by
    obtain ⟨more, hcontent, -⟩ := p.exists_content hwithin
    rw [hcontent, List.take_left]
  have hline := line?_number hlines p
  have hcolumn : p.lineCol.column ≠ 0 := Nat.succ_ne_zero _
  rw [offset?, if_neg hcolumn, show p.lineCol.line = p.number from rfl, hline, Option.bind_some]
  simp only [RawLine.Place.lineCol, Nat.add_sub_cancel, Line.ofRaw, String.length_ofList,
    String.toList_ofList, if_pos hwithin, htake, p.offset_eq]

/-- In front of an offset that is not inside of a `\r\n` stands at most the line. -/
theorem length_before_le (hlines : RawLine.ofChars source.toList = lines) (p : RawLine.Place lines)
    (h : ¬ InsidePair source p.offset) : p.before.length ≤ p.line.content.length := by
  refine Nat.le_of_not_lt fun hlt ↦ ?_
  have hsource := toList_eq_front hlines p
  obtain ⟨hbefore, hbehind⟩ := (hlines ▸ RawLine.isCut_ofChars _).eq_of_length_lt p hlt
  refine h ⟨p.above.flatMap RawLine.chars ++ p.line.content, p.below.flatMap RawLine.chars, ?_, ?_⟩
  · rw [hsource, RawLine.Place.front, hbefore, hbehind]
    simp only [List.append_assoc, List.cons_append, List.nil_append]
  · rw [p.offset_eq, hbefore, byteLength_append, byteLength_append, Nat.add_assoc]
    rfl

/-- A position with an offset is that of a place. -/
theorem exists_place_of_offset? {position : LineCol} {offset : Nat}
    (h : (ofSource source).offset? position = some offset) :
    ∃ p : RawLine.Place (RawLine.ofChars source.toList),
      p.lineCol = position ∧ p.offset = offset := by
  rw [offset?] at h
  split at h
  · cases h
  · rename_i hcolumn
    obtain ⟨line, hline, h⟩ := Option.bind_eq_some_iff.1 h
    obtain ⟨above, raw, below, hlines, hnumber, rfl⟩ := exists_of_line? hline
    simp only [Line.ofRaw, String.length_ofList, String.toList_ofList] at h
    split at h
    · rename_i hwithin
      cases h
      -- The place with so many characters of the line in front of it.
      refine ⟨⟨above, raw, below, raw.content.take (position.column - 1),
        raw.content.drop (position.column - 1) ++ raw.terminator, hlines, ?_, ?_⟩, ?_, ?_⟩
      · rw [← List.append_assoc, List.take_append_drop, RawLine.chars]
      · intro hnil
        have hcut := RawLine.isCut_ofChars source.toList
        rw [hlines] at hcut
        rcases hcut.terminator_cases with ⟨-, hbelow⟩ | ⟨hterminator, -⟩
        · exact hbelow
        · rw [(List.append_eq_nil_iff.1 hnil).2] at hterminator
          exact absurd hterminator (by decide)
      · rw [RawLine.Place.lineCol, RawLine.Place.number, List.length_take, Nat.min_eq_left hwithin,
          Nat.sub_add_cancel (Nat.pos_of_ne_zero hcolumn), ← hnumber]
      · exact RawLine.Place.offset_eq _
    · cases h

/-- Every offset between two characters has a place. -/
theorem exists_place_of_isValid (source : String) {offset : Nat}
    (h : (⟨offset⟩ : String.Pos.Raw).IsValid source) :
    ∃ p : RawLine.Place (RawLine.ofChars source.toList), p.offset = offset := by
  obtain ⟨front, rest, hsource, rfl⟩ := isValid_iff.1 h
  rw [← RawLine.flatMap_chars_ofChars source.toList] at hsource
  obtain ⟨p, rfl⟩ := RawLine.exists_place (RawLine.isCut_ofChars _).ne_nil hsource
  exact ⟨p, rfl⟩

/-! ### The two-way map -/

/-- The lines that an index has for the numbers from one on, and what they are of its text. -/
structure HasLines (index : LineIndex) (lines : List Line) : Prop where
  line?_eq : (List.range' 1 index.lineCount).map index.line? = lines.map some
  text_eq : lines.flatMap (fun line ↦ line.text.toList ++ line.terminator.toList) =
    index.source.toList
  isPlain : ∀ line ∈ lines, RawLine.IsPlain line.text.toList
  /-- Every line has a terminator but the last. -/
  terminator_cases : ∃ init last, lines = init ++ [last] ∧ last.terminator = "" ∧
    ∀ line ∈ init, line.terminator.toList ∈ RawLine.terminators
  /-- A line that ends with `\r` is not followed by the `\n` of a pair. -/
  unsplit : ∀ line next, [line, next] <:+: lines → line.terminator = "\r" →
    (next.text ++ next.terminator).toList.head? ≠ some '\n'

/-- Offsets between characters and positions in lines stand for each other. -/
structure IsTwoWay (index : LineIndex) : Prop where
  exists_lines : ∃ lines, index.HasLines lines
  isSome_line?_iff : ∀ n, (index.line? n).isSome ↔ 1 ≤ n ∧ n ≤ index.lineCount
  offset?_lineCol : ∀ offset : Nat, (⟨offset⟩ : String.Pos.Raw).IsValid index.source →
    ¬ InsidePair index.source offset → index.offset? (index.lineCol offset) = some offset
  lineCol_of_offset? : ∀ position offset, index.offset? position = some offset →
    index.lineCol offset = position
  lineCol_before : ∀ a b : Nat, (⟨a⟩ : String.Pos.Raw).IsValid index.source →
    (⟨b⟩ : String.Pos.Raw).IsValid index.source → a < b →
    (index.lineCol a).Before (index.lineCol b)

/-- The lines by their numbers are all lines. -/
theorem map_line?_range' (index : LineIndex) :
    (List.range' 1 index.lineCount).map index.line? = index.lines.map some := by
  refine List.ext_getElem (by simp [lineCount]) fun i hi _ ↦ ?_
  have hlt : i < index.lines.length := by simpa [lineCount] using hi
  rw [List.getElem_map, List.getElem_map, List.getElem_range', Nat.one_mul, line?,
    if_neg (by omega), Nat.add_sub_cancel_left, List.getElem?_eq_getElem hlt]

/-- The lines of an index are those that the text is cut into. -/
theorem map_raw_lines (source : String) :
    (ofSource source).lines.map Line.raw = RawLine.ofChars source.toList :=
  Line.map_raw_place _ _ _

/-- A line by its number is the one that the text is cut into there. -/
theorem map_raw_line? (source : String) (n : Nat) :
    ((ofSource source).line? (n + 1)).map Line.raw = (RawLine.ofChars source.toList)[n]? := by
  rw [← map_raw_lines, List.getElem?_map, line?, if_neg (Nat.succ_ne_zero n), Nat.add_sub_cancel]

/-- The text of a line by its number. -/
theorem map_text_line? (source : String) (n : Nat) :
    ((ofSource source).line? (n + 1)).map (·.text) =
      (RawLine.ofChars source.toList)[n]?.map fun raw ↦ String.ofList raw.content := by
  rw [← map_raw_line?, Option.map_map]
  congr 1
  funext line
  exact String.ofList_toList.symm

/-- The lines of an index are a cut of the text. -/
theorem isCut_lines (source : String) : RawLine.IsCut ((ofSource source).lines.map Line.raw) := by
  rw [map_raw_lines]
  exact RawLine.isCut_ofChars _

/-- A text is cut at any of its lines into those above and those below. -/
theorem isCut_of_lines_eq {source : String} {line : Line} {above below : List Line}
    (h : (ofSource source).lines = above ++ line :: below) :
    RawLine.IsCut (above.map Line.raw ++ line.raw :: below.map Line.raw) := by
  have hcut := isCut_lines source
  rwa [h, List.map_append, List.map_cons] at hcut

theorem hasLines_ofSource (source : String) :
    (ofSource source).HasLines (ofSource source).lines where
  line?_eq := map_line?_range' _
  text_eq := by
    calc (ofSource source).lines.flatMap (fun line ↦ line.text.toList ++ line.terminator.toList)
        = ((ofSource source).lines.map Line.raw).flatMap RawLine.chars := by
          rw [List.flatMap_map]
          rfl
      _ = source.toList := by rw [map_raw_lines, RawLine.flatMap_chars_ofChars]
  isPlain line hline := by
    obtain ⟨above, below, hlines⟩ := List.append_of_mem hline
    exact (isCut_of_lines_eq hlines).isPlain_content
  terminator_cases := by
    -- The last line has no terminator, and each line in front of it has one.
    have hne : (ofSource source).lines ≠ [] :=
      mt (congrArg (List.map Line.raw)) (isCut_lines source).ne_nil
    obtain ⟨init, last, hlines⟩ : ∃ init last, (ofSource source).lines = init ++ [last] :=
      ⟨_, _, (List.dropLast_concat_getLast hne).symm⟩
    refine ⟨init, last, hlines, ?_, fun line hline ↦ ?_⟩
    · rcases (isCut_of_lines_eq hlines).terminator_cases with ⟨hlast, -⟩ | ⟨-, hbelow⟩
      · exact String.toList_eq_nil_iff.1 hlast
      · exact absurd rfl hbelow.ne_nil
    · obtain ⟨above, below, rfl⟩ := List.append_of_mem hline
      rw [List.append_assoc, List.cons_append] at hlines
      rcases (isCut_of_lines_eq hlines).terminator_cases with ⟨-, hbelow⟩ | ⟨hterminator, -⟩
      · simp at hbelow
      · exact hterminator
  unsplit line next hinfix hreturn hhead := by
    obtain ⟨above, below, hlines⟩ := hinfix
    rw [List.append_assoc, List.cons_append] at hlines
    have hbelow := (isCut_of_lines_eq hlines.symm).head?_ne_of_return
      (congrArg String.toList hreturn)
    rw [String.toList_append] at hhead
    rw [List.cons_append, List.map_cons, List.flatMap_cons, RawLine.chars, List.head?_append,
      Line.raw, hhead] at hbelow
    exact hbelow rfl

/-- **The index of a text is a two-way map.** Its lines make up the text; a position is given back
by its offset, and an offset by its position unless it lies inside of a `\r\n`; and positions are
in the order of their offsets. -/
theorem isTwoWay_ofSource (source : String) : (ofSource source).IsTwoWay where
  exists_lines := ⟨_, hasLines_ofSource source⟩
  isSome_line?_iff _ := isSome_line?_iff
  offset?_lineCol offset hvalid hpair := by
    obtain ⟨p, rfl⟩ := exists_place_of_isValid source hvalid
    rw [lineCol_offset rfl p]
    exact offset?_lineCol rfl p (length_before_le rfl p hpair)
  lineCol_of_offset? position offset hoffset := by
    obtain ⟨p, rfl, rfl⟩ := exists_place_of_offset? hoffset
    exact lineCol_offset rfl p
  lineCol_before a b ha hb hlt := by
    obtain ⟨p, rfl⟩ := exists_place_of_isValid source ha
    obtain ⟨q, rfl⟩ := exists_place_of_isValid source hb
    rw [lineCol_offset rfl p, lineCol_offset rfl q]
    exact RawLine.Place.before_of_offset_lt hlt

end LineIndex

end SqlBatch
