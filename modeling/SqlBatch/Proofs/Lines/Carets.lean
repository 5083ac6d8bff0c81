import SqlBatch.Proofs.Excerpts
import SqlBatch.Proofs.Lexing.Tiling
import SqlBatch.Proofs.Lines.TwoWay

/-!
# The line of carets

The marked copy of a batch has one line more than the batch, and its carets stand under the
characters that the offending token has on its line. All this follows from the lines that the copy
is put together from, which are again a cut (`RawLine.isCut_underline`): but for an empty last line
behind a lone `\r`, which the `\n` of the copy is joined with.

## Where an error lies

`LocatedError.LiesAt` says all that is needed of an error: the place in the text at which its token
stands, the characters of the token, and those behind. The line and column of the error, the width
of the carets and the text above and below the line of carets are read off the place.

## The exception

The carets of an error at the end of a batch stand in a last line of their own, behind a line end
that the copy adds. If the batch ends with a lone `\r`, the added `\n` joins it to a single line end
(`lineCount_marked_return`). This is the one case in which no line is added, and the condition of
`parseBatch_isMarked` is exact.
-/

namespace SqlBatch

/-- What a text has in common with something else that the same characters start with. -/
theorem exists_append_of_prefix {cs ds more : List Char} (h : ds <+: cs ++ more) :
    ∃ rest, cs = ds.take cs.length ++ rest ∧
      byteLength (ds.take cs.length) = min (byteLength cs) (byteLength ds) := by
  rcases List.prefix_or_prefix_of_prefix h (List.prefix_append cs more) with
    ⟨rest, rfl⟩ | ⟨rest, rfl⟩
  · rw [List.take_of_length_le (by simp)]
    refine ⟨rest, rfl, ?_⟩
    rw [byteLength_append]
    omega
  · rw [List.take_left]
    refine ⟨[], (List.append_nil cs).symm, ?_⟩
    rw [byteLength_append]
    omega

/-! ### Lines with a line below -/

namespace RawLine

/-- What is not blank ends no line. -/
theorem isLineEnd_eq_false {c : Char} (h : isBlank c = false) : Trivia.isLineEnd c = false := by
  rw [Bool.eq_false_iff, ne_eq, isLineEnd_iff]
  rintro (rfl | rfl) <;> cases h

variable {above below : List RawLine} {line : RawLine} {carets : List Char}

/-- A line and another one below it, which end in the same way, or with `\n` between them. -/
def underline (carets : List Char) (line : RawLine) : List RawLine :=
  let separator := if line.terminator.isEmpty then ['\n'] else line.terminator
  [⟨line.content, separator⟩, ⟨carets, line.terminator⟩]

theorem IsCut.underline (h : IsCut (line :: below)) (hplain : IsPlain carets)
    (hcarets : carets ≠ []) : IsCut (line.underline carets ++ below) := by
  cases h with
  | last hcontent =>
    exact .cons hcontent (by simp [terminators]) (fun hreturn ↦ by simp at hreturn) (.last hplain)
  | @cons content terminator _ hcontent hterminator hreturn hbelow =>
    have hempty : terminator.isEmpty = false := by
      simp only [terminators, List.mem_cons, List.not_mem_nil, or_false] at hterminator
      rcases hterminator with rfl | rfl | rfl <;> rfl
    rw [RawLine.underline, hempty]
    refine .cons hcontent hterminator (fun _ ↦ ?_) (.cons hplain hterminator hreturn hbelow)
    obtain ⟨c, cs, rfl⟩ := List.exists_cons_of_ne_nil hcarets
    have hc := hplain c (.head cs)
    rintro hhead
    rw [Option.some.inj hhead] at hc
    cases hc

/-- **A cut with another line below one of its lines is a cut**, unless an empty last line stands
behind a lone `\r`. -/
theorem isCut_underline (h : IsCut (above ++ line :: below)) (hplain : IsPlain carets)
    (hcarets : carets ≠ [])
    (hlast : line.chars = [] → (above.flatMap chars).getLast? ≠ some '\r') :
    IsCut (above ++ (line.underline carets ++ below)) := by
  refine h.append (h.of_append.underline hplain hcarets) fun hreturn hhead ↦ ?_
  have hline : line.chars ≠ [] := fun hnil ↦ hlast hnil hreturn
  -- The line starts as it did before, which is not with `\n`.
  have hstart : line.chars.head? ≠ some '\n' := by
    have hne := h.head?_ne_of_getLast? hreturn
    intro hstart
    rw [List.flatMap_cons, List.head?_append, hstart] at hne
    exact hne rfl
  obtain ⟨content, terminator⟩ := line
  cases content with
  | cons c cs => exact hstart hhead
  | nil =>
    cases terminator with
    | cons c cs => exact hstart hhead
    | nil => exact hline rfl

end RawLine

/-! ### The marked copy -/

namespace LocatedError

/-- A line of carets in the column of the error. -/
def caretLine (e : LocatedError) (width : Nat) : List Char :=
  List.replicate (e.column - 1) ' ' ++ List.replicate width '^'

/-- The marked copy of a batch has a line of carets below the line of the error; above and below,
its lines are those of the batch. -/
structure IsMarked (source : String) (e : LocatedError) (width : Nat) : Prop where
  lineCount_eq :
    (LineIndex.ofSource e.marked).lineCount = (LineIndex.ofSource source).lineCount + 1
  above : ∀ n < e.line, ((LineIndex.ofSource e.marked).line? n).map Line.raw =
    ((LineIndex.ofSource source).line? n).map Line.raw
  /-- Only its terminator may be new. -/
  line : ((LineIndex.ofSource e.marked).line? e.line).map (·.text) =
    ((LineIndex.ofSource source).line? e.line).map (·.text)
  carets : ((LineIndex.ofSource e.marked).line? (e.line + 1)).map (·.text) =
    some (String.ofList (e.caretLine width))
  below : ∀ n > e.line, ((LineIndex.ofSource e.marked).line? (n + 1)).map Line.raw =
    ((LineIndex.ofSource source).line? n).map Line.raw

/-- The offending token up to its first line end. -/
def firstLine (e : LocatedError) : List Char :=
  e.text.toList.takeWhile (!Trivia.isLineEnd ·)

/-- The carets stand under the characters that the offending token has on its line. -/
structure IsUnder (source : String) (e : LocatedError) (width : Nat) : Prop where
  width_eq : width = e.firstLine.length
  one_le : 1 ≤ width
  exists_line : ∃ line, (LineIndex.ofSource source).line? e.line = some line ∧
    (Span.mk e.span.start (min e.span.stop line.span.stop)).chars source = e.firstLine ∧
    (line.text.toList.drop (e.column - 1)).take width = e.firstLine

/-- The error lies behind the last character of the last line. -/
structure IsAtEnd (source : String) (e : LocatedError) : Prop where
  line_eq : e.line = (LineIndex.ofSource source).lineCount
  column_eq : ∃ line, (LineIndex.ofSource source).line? e.line = some line ∧
    e.column = line.text.length + 1

/-- The error lies at a token, and the token stands at a place between the lines of the batch. -/
structure LiesAt (source : String) {lines : List RawLine} (e : LocatedError)
    (p : RawLine.Place lines) (t : Token) (text behind : List Char) : Prop where
  lines_eq : RawLine.ofChars source.toList = lines
  batch_eq : e.batch = source
  position : LineCol.mk e.line e.column = p.lineCol
  isAt : e.IsAt t
  stands : t.Stands source.toList p.front text behind

/-- A line of carets has no line end in it. -/
theorem isPlain_caretLine (e : LocatedError) (width : Nat) :
    RawLine.IsPlain (e.caretLine width) := by
  intro c hc
  rw [caretLine, List.mem_append, List.mem_replicate, List.mem_replicate] at hc
  rcases hc with ⟨-, rfl⟩ | ⟨-, rfl⟩ <;> rfl

theorem caretLine_ne_nil (e : LocatedError) {width : Nat} (h : 1 ≤ width) :
    e.caretLine width ≠ [] := by
  obtain ⟨k, rfl⟩ : ∃ k, width = k + 1 := ⟨width - 1, by omega⟩
  simp [caretLine, List.replicate_succ]

/-- The number of carets for a place. -/
def width {lines : List RawLine} (e : LocatedError) (p : RawLine.Place lines) : Nat :=
  e.caretCount (.ofRaw p.number (p.above.flatMap RawLine.chars) p.line)

namespace LiesAt

variable {source : String} {lines : List RawLine} {e : LocatedError} {p : RawLine.Place lines}
  {t : Token} {text behind : List Char}

/-- The line of an error is that of its place. -/
theorem line_eq (h : e.LiesAt source p t text behind) : e.line = p.number :=
  (LineCol.mk.inj h.position).1

/-- The column of an error counts the characters in front of its place, from one. -/
theorem column_eq (h : e.LiesAt source p t text behind) : e.column = p.before.length + 1 :=
  (LineCol.mk.inj h.position).2

theorem line?_eq (h : e.LiesAt source p t text behind) : (LineIndex.ofSource source).line? e.line =
    some (.ofRaw p.number (p.above.flatMap RawLine.chars) p.line) := by
  rw [h.line_eq]
  exact LineIndex.line?_number h.lines_eq p

theorem ofChars_source (h : e.LiesAt source p t text behind) :
    RawLine.ofChars source.toList = p.above ++ p.line :: p.below :=
  h.lines_eq.trans p.lines_eq

theorem isCut (h : e.LiesAt source p t text behind) :
    RawLine.IsCut (p.above ++ p.line :: p.below) := by
  rw [← h.ofChars_source]
  exact RawLine.isCut_ofChars _

/-- The text, with the line of the place taken apart. -/
theorem toList_source (h : e.LiesAt source p t text behind) : source.toList =
    p.above.flatMap RawLine.chars ++ p.line.content ++
      (p.line.terminator ++ p.below.flatMap RawLine.chars) := by
  rw [LineIndex.toList_eq_front h.lines_eq p, RawLine.Place.front, List.append_assoc,
    ← List.append_assoc p.before, ← p.chars_eq, RawLine.chars]
  simp only [List.append_assoc]

/-- The token starts at the place. -/
theorem text_append (h : e.LiesAt source p t text behind) :
    text ++ behind = p.behind ++ p.below.flatMap RawLine.chars :=
  List.append_cancel_left
    (h.stands.source_eq.symm.trans (LineIndex.toList_eq_front h.lines_eq p))

/-- The carets and the new terminator are put behind the content of the line. -/
theorem toList_marked (h : e.LiesAt source p t text behind) : e.marked.toList =
    (p.above ++ (p.line.underline (e.caretLine (e.width p)) ++ p.below)).flatMap
      RawLine.chars := by
  have hempty (cs : List Char) : (String.ofList cs).isEmpty = cs.isEmpty := by
    rw [Bool.eq_iff_iff, String.isEmpty_iff, ← String.toList_eq_nil_iff, String.toList_ofList,
      List.isEmpty_iff]
  rw [marked, h.batch_eq, h.line?_eq]
  simp only [Line.ofRaw, String.toList_ofList, hempty, ← byteLength_append, h.toList_source,
    takeBytes?_append, dropBytes?_append, Option.getD_some]
  simp only [RawLine.underline, caretLine, width, Line.ofRaw, List.flatMap_append,
    List.flatMap_cons, List.flatMap_nil, RawLine.chars, ← byteLength_append, List.append_assoc,
    List.append_nil]

/-- The copy has the lines that it is put together from, unless the token is missing on an empty
line behind a lone `\r`. -/
theorem ofChars_marked (h : e.LiesAt source p t text behind)
    (hlast : text = [] → source.toList.getLast? ≠ some '\r') :
    RawLine.ofChars e.marked.toList =
      p.above ++ (p.line.underline (e.caretLine (e.width p)) ++ p.below) := by
  rw [h.toList_marked]
  refine RawLine.IsCut.ofChars_flatMap (RawLine.isCut_underline h.isCut (isPlain_caretLine e _)
    (caretLine_ne_nil e (Nat.le_max_left _ _)) fun hnil hreturn ↦ ?_)
  -- On an empty line without a terminator there is no token, and nothing stands behind it.
  obtain ⟨hbefore, hbehind⟩ := List.append_eq_nil_iff.1 (p.chars_eq.symm.trans hnil)
  have htext := h.text_append
  rw [hbehind, p.below_eq_nil hbehind] at htext
  refine hlast (List.append_eq_nil_iff.1 htext).1 ?_
  rw [LineIndex.toList_eq_front h.lines_eq p, RawLine.Place.front, hbefore, hbehind,
    p.below_eq_nil hbehind]
  simpa using hreturn

/-- **The marked copy has the lines of the batch and a line of carets**, unless the token is missing
on an empty line behind a lone `\r`. -/
theorem isMarked (h : e.LiesAt source p t text behind)
    (hlast : text = [] → source.toList.getLast? ≠ some '\r') :
    e.IsMarked source (e.width p) where
  lineCount_eq := by
    rw [LineIndex.lineCount_ofSource, LineIndex.lineCount_ofSource, h.ofChars_marked hlast,
      h.ofChars_source]
    simp [RawLine.underline, Nat.add_assoc]
  above n hn := by
    cases n with
    | zero => rfl
    | succ n =>
      have hlt : n < p.above.length := by
        rw [h.line_eq, RawLine.Place.number] at hn
        omega
      rw [LineIndex.map_raw_line?, LineIndex.map_raw_line?, h.ofChars_marked hlast,
        h.ofChars_source, List.getElem?_append_left hlt, List.getElem?_append_left hlt]
  line := by
    rw [h.line_eq, RawLine.Place.number, LineIndex.map_text_line?, LineIndex.map_text_line?,
      h.ofChars_marked hlast, h.ofChars_source, List.getElem?_append_right (Nat.le_refl _),
      List.getElem?_append_right (Nat.le_refl _), Nat.sub_self]
    rfl
  carets := by
    rw [h.line_eq, RawLine.Place.number, LineIndex.map_text_line?, h.ofChars_marked hlast,
      List.getElem?_append_right (Nat.le_add_right _ 1), Nat.add_sub_cancel_left]
    rfl
  below n hn := by
    obtain ⟨k, rfl⟩ : ∃ k, n = p.above.length + 1 + k + 1 := by
      rw [h.line_eq, RawLine.Place.number] at hn
      exact ⟨n - (p.above.length + 2), by omega⟩
    have hle : p.above.length ≤ p.above.length + 1 + k := by omega
    rw [LineIndex.map_raw_line?, LineIndex.map_raw_line?, h.ofChars_marked hlast,
      h.ofChars_source, List.getElem?_append_right (Nat.le_succ_of_le hle),
      List.getElem?_append_right hle,
      show p.above.length + 1 + k + 1 - p.above.length = k + 1 + 1 by omega,
      show p.above.length + 1 + k - p.above.length = k + 1 by omega]
    rfl

/-! ### Carets under a token -/

/-- A token starts in the content of its line, as none starts between `\r` and `\n`. -/
theorem length_before_le (h : e.LiesAt source p t text behind) (hopen : t.isEof = false) :
    p.before.length ≤ p.line.content.length := by
  refine LineIndex.length_before_le h.lines_eq p fun ⟨front, rest, hpair, hoffset⟩ ↦ ?_
  obtain ⟨c, cs, rfl, hc⟩ := h.stands.exists_cons hopen
  have hsplit : p.front ++ (c :: cs ++ behind) = (front ++ ['\r']) ++ '\n' :: rest := by
    rw [← h.stands.source_eq, hpair, List.append_assoc, List.singleton_append]
  obtain ⟨-, hrest⟩ := append_inj_of_byteLength hsplit (by rw [byteLength_append]; exact hoffset)
  obtain ⟨rfl, -⟩ := List.cons.inj hrest
  cases hc

/-- From the start of a token its line goes on up to a line end. -/
theorem exists_content (h : e.LiesAt source p t text behind) (hopen : t.isEof = false) :
    ∃ more, p.line.content = p.before ++ more ∧
      (text ++ behind).takeWhile (!Trivia.isLineEnd ·) = more := by
  obtain ⟨more, hcontent, hbehind⟩ := p.exists_content (h.length_before_le hopen)
  refine ⟨more, hcontent, ?_⟩
  have hmore : ∀ c ∈ more, (!Trivia.isLineEnd c) = true := fun c hc ↦ by
    rw [h.isCut.isPlain_content c (hcontent ▸ List.mem_append_right _ hc)]
    rfl
  rw [h.text_append, hbehind, List.append_assoc, List.takeWhile_append_of_pos hmore]
  rcases h.isCut.terminator_cases with ⟨hterminator, hbelow⟩ | ⟨hterminator, -⟩
  · rw [hterminator, hbelow]
    exact List.append_nil more
  · simp only [RawLine.terminators, List.mem_cons, List.not_mem_nil, or_false] at hterminator
    rcases hterminator with hend | hend | hend <;> rw [hend] <;> exact List.append_nil more

theorem toList_text (h : e.LiesAt source p t text behind) (hopen : t.isEof = false) :
    e.text.toList = text := by
  rw [h.isAt.text, Token.displayText, hopen, h.stands.text_eq]
  exact String.toList_ofList

/-- A token has at least one character on the line where it starts. -/
theorem one_le_length_firstLine (h : e.LiesAt source p t text behind) (hopen : t.isEof = false) :
    1 ≤ e.firstLine.length := by
  obtain ⟨c, cs, hcons, hc⟩ := h.stands.exists_cons hopen
  rw [firstLine, h.toList_text hopen, hcons,
    List.takeWhile_cons_of_pos (by rw [RawLine.isLineEnd_eq_false hc]; rfl)]
  exact Nat.le_add_left 1 _

/-- The first line of a token is as much of the rest of its line as the token is long. -/
theorem exists_firstLine (h : e.LiesAt source p t text behind) (hopen : t.isEof = false) :
    ∃ more, p.line.content = p.before ++ more ∧ more <+: text ++ behind ∧
      e.firstLine = more.take text.length := by
  obtain ⟨more, hcontent, hmore⟩ := h.exists_content hopen
  refine ⟨more, hcontent, hmore ▸ List.takeWhile_prefix _, ?_⟩
  rw [firstLine, h.toList_text hopen, ← hmore, List.take_takeWhile, List.take_left]

theorem column_sub_one (h : e.LiesAt source p t text behind) :
    e.column - 1 = p.before.length := by
  rw [h.column_eq, Nat.add_sub_cancel]

theorem width_eq_length_firstLine (h : e.LiesAt source p t text behind)
    (hopen : t.isEof = false) : e.width p = e.firstLine.length := by
  obtain ⟨more, hcontent, -, hfirst⟩ := h.exists_firstLine hopen
  have hmin : min text.length more.length = e.firstLine.length := by
    rw [hfirst, List.length_take]
  rw [width, caretCount, h.isAt.span, h.batch_eq, h.stands.chars_eq, h.column_sub_one, Line.ofRaw,
    String.length_ofList, hcontent, List.length_append, Nat.add_sub_cancel_left, hmin,
    Nat.max_eq_right (h.one_le_length_firstLine hopen)]

/-- What lies on the line of the text from the start of a token up to its end, or to the end of the
line where the token goes on behind it. -/
theorem chars_firstLine (h : e.LiesAt source p t text behind) (hopen : t.isEof = false) :
    (Span.mk e.span.start (min e.span.stop
      (Line.ofRaw p.number (p.above.flatMap RawLine.chars) p.line).span.stop)).chars source =
        e.firstLine := by
  obtain ⟨more, hcontent, hprefix, hfirst⟩ := h.exists_firstLine hopen
  obtain ⟨rest, hrest, hlength⟩ := exists_append_of_prefix hprefix
  rw [← hfirst] at hrest hlength
  have hend : (Line.ofRaw p.number (p.above.flatMap RawLine.chars) p.line).span.stop =
      byteLength p.front + byteLength more := by
    rw [RawLine.Place.front, byteLength_append, Nat.add_assoc, ← byteLength_append, ← hcontent]
    rfl
  have hstop : min (byteLength p.front + byteLength text) (byteLength p.front + byteLength more) =
      byteLength p.front + byteLength e.firstLine := by
    rw [hlength]
    omega
  rw [h.isAt.span, h.stands.start_eq, h.stands.stop_eq, hend, hstop, Span.chars,
    h.stands.source_eq, hrest, List.append_assoc, charsBetween?_append]
  rfl

/-- **The carets stand under the token**: they are as many as the characters of it that fit into the
line. -/
theorem isUnder (h : e.LiesAt source p t text behind) (hopen : t.isEof = false) :
    e.IsUnder source (e.width p) := by
  have hwidth := h.width_eq_length_firstLine hopen
  refine ⟨hwidth, hwidth ▸ h.one_le_length_firstLine hopen, _, h.line?_eq,
    h.chars_firstLine hopen, ?_⟩
  obtain ⟨more, hcontent, -, hfirst⟩ := h.exists_firstLine hopen
  rw [h.column_sub_one, hwidth, Line.ofRaw, String.toList_ofList, hcontent, List.drop_left, hfirst]
  exact (List.prefix_iff_eq_take.1 (List.take_prefix _ _)).symm

/-! ### A caret at the end of the batch -/

/-- Behind the last token stands nothing of the last line. -/
theorem atEnd (h : e.LiesAt source p t [] []) :
    p.line.content = p.before ∧ p.line.terminator = [] ∧ p.below = [] := by
  obtain ⟨hbehind, -⟩ := List.append_eq_nil_iff.1 h.text_append.symm
  have hbelow := p.below_eq_nil hbehind
  have hterminator : p.line.terminator = [] := by
    rcases h.isCut.terminator_cases with ⟨hterminator, -⟩ | ⟨-, hrest⟩
    · exact hterminator
    · exact absurd hbelow hrest.ne_nil
  have hchars := p.chars_eq
  rw [RawLine.chars, hterminator, hbehind, List.append_nil, List.append_nil] at hchars
  exact ⟨hchars, hterminator, hbelow⟩

theorem isAtEnd (h : e.LiesAt source p t [] []) : e.IsAtEnd source where
  line_eq := by
    rw [h.line_eq, LineIndex.lineCount_ofSource, h.ofChars_source, h.atEnd.2.2,
      List.length_append]
    rfl
  column_eq := by
    refine ⟨_, h.line?_eq, ?_⟩
    rw [h.column_eq, Line.ofRaw, String.length_ofList, h.atEnd.1]

theorem width_eq_one (h : e.LiesAt source p t [] []) : e.width p = 1 := by
  rw [width, caretCount, h.isAt.span, h.batch_eq, h.stands.chars_eq, List.length_nil, Nat.zero_min]
  rfl

/-- At the end of the batch a line with one caret is put behind all else. -/
theorem marked_eq (h : e.LiesAt source p t [] []) :
    e.marked = source ++ String.ofList ('\n' :: e.caretLine 1) := by
  obtain ⟨-, hterminator, hbelow⟩ := h.atEnd
  refine String.toList_inj.1 ?_
  rw [h.toList_marked, h.width_eq_one, String.toList_append, String.toList_ofList,
    h.toList_source, RawLine.underline, hterminator, hbelow]
  simp [RawLine.chars]

/-- **The line of the caret is a new line unless a lone `\r` stands before it**, as the `\n` in
front of the caret goes with the `\r`. -/
theorem isMarked_iff (h : e.LiesAt source p t [] []) :
    e.IsMarked source 1 ↔ source.toList.getLast? ≠ some '\r' := by
  constructor
  · intro hcopy hreturn
    have hcount := hcopy.lineCount_eq
    obtain ⟨cs, hcs⟩ := List.getLast?_eq_some_iff.1 hreturn
    have hcarets : RawLine.ofChars (e.caretLine 1) = [⟨e.caretLine 1, []⟩] := by
      have hlast := (RawLine.IsCut.last (isPlain_caretLine e 1)).ofChars_flatMap
      simpa [RawLine.chars] using hlast
    have hreturned : ['\r'].head? ≠ some '\n' := by decide
    have hunderlined : ('\r' :: '\n' :: e.caretLine 1).head? ≠ some '\n' := by simp
    have hsource := RawLine.length_ofChars_append cs hreturned
    have hmarked := RawLine.length_ofChars_append cs hunderlined
    rw [LineIndex.lineCount_ofSource, LineIndex.lineCount_ofSource, h.marked_eq,
      String.toList_append, String.toList_ofList, hcs, List.append_assoc,
      List.singleton_append] at hcount
    have htwo : (RawLine.ofChars ['\r']).length = 2 := by decide
    rw [htwo] at hsource
    rw [RawLine.ofChars, hcarets, List.length_cons, List.length_singleton] at hmarked
    omega
  · intro hreturn
    rw [← h.width_eq_one]
    exact h.isMarked fun _ ↦ hreturn

end LiesAt

end LocatedError

/-- **The error of a statement is marked where it is.** The carets stand under the token and nothing
else is changed, but for an error at the end of a batch that ends with a lone `\r`: the `\n` that is
put behind it is not the end of a line of its own. -/
theorem parseBatch_isMarked (source : String) : ∃ statements,
    parseBatch source false = .ok statements ∧ ∀ s ∈ statements, ∀ e ∈ s.error?,
      ∃ t ∈ tokenize source, e.IsAt t ∧
        (t.isEof = false → ∃ width, e.IsUnder source width ∧ e.IsMarked source width) ∧
        (t.isEof → e.IsAtEnd source ∧
          (e.IsMarked source 1 ↔ source.toList.getLast? ≠ some '\r') ∧
          e.marked = source ++ String.ofList ('\n' :: e.caretLine 1)) := by
  obtain ⟨ps, hps⟩ := exists_splits_tokenize source
  refine ⟨_, parseBatch_of_splits hps, fun s hs e he ↦ ?_⟩
  obtain ⟨p, hp, rfl⟩ := List.mem_map.1 hs
  obtain ⟨cause, hcause, rfl⟩ := Piece.error?_statement_eq_some.1 he
  have hmem := hps.stopped_mem hp
  obtain ⟨front, text, behind, hstands⟩ := exists_stands hmem
  obtain ⟨q, rfl⟩ : ∃ q : RawLine.Place (RawLine.ofChars source.toList), q.front = front := by
    have hsplit := hstands.source_eq
    rw [← RawLine.flatMap_chars_ofChars source.toList] at hsplit
    exact RawLine.exists_place (RawLine.isCut_ofChars _).ne_nil hsplit
  have hposition : (LineIndex.ofSource source).lineCol p.stopped.span.start = q.lineCol := by
    rw [hstands.start_eq]
    exact LineIndex.lineCol_offset rfl q
  have hlies : LocatedError.LiesAt source (.ofSyntaxError (.atToken cause p.stopped)
      p.first.span.start (.ofSource source)) q p.stopped text behind :=
    ⟨rfl, rfl, hposition, ⟨rfl, rfl⟩, hstands⟩
  refine ⟨p.stopped, hmem, ⟨rfl, rfl⟩, fun hopen ↦ ?_, fun heof ↦ ?_⟩
  · -- An open token has a character, so the carets are not at the end.
    refine ⟨_, hlies.isUnder hopen, hlies.isMarked fun hnil ↦ ?_⟩
    obtain ⟨c, cs, hcons, -⟩ := hstands.exists_cons hopen
    rw [hnil] at hcons
    cases hcons
  · obtain ⟨rfl, rfl⟩ := hstands.eq_nil heof
    exact ⟨hlies.isAtEnd, hlies.isMarked_iff, hlies.marked_eq⟩

/-- Behind a lone `\r` the marked copy has as many lines as the batch. -/
theorem lineCount_marked_return :
    (parseBatch "SELECT\r" false).toOption.map (·.map fun s ↦ s.error?.map fun e ↦
        (e.line, (LineIndex.ofSource e.batch).lineCount, (LineIndex.ofSource e.marked).lineCount)) =
      some [some (2, 2, 2)] := by
  decide +kernel

end SqlBatch
