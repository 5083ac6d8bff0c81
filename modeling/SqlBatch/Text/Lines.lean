import SqlBatch.Text.Span

/-!
# Lines and columns

A line ends with `\n`, `\r\n` or a lone `\r`; each is one terminator, and a text always has one
last line without a terminator. Lines and columns are counted from one, and columns count
characters, so that a tab or a wide character is one column.

The text is first cut into `RawLine`s, which concatenate back to it; numbers and offsets are then
laid over them (`Line`).
-/

namespace SqlBatch

/-- One line's content and the terminator behind it. -/
structure RawLine where
  content : List Char
  terminator : List Char
deriving DecidableEq, Repr

namespace RawLine

/-- The characters of the line with its terminator. -/
def chars (line : RawLine) : List Char :=
  line.content ++ line.terminator

/-- The lines of a text. There is always one, and only the last has an empty terminator. -/
def ofChars : List Char → List RawLine
  | [] => [⟨[], []⟩]
  | '\r' :: '\n' :: cs => ⟨[], ['\r', '\n']⟩ :: ofChars cs
  | c :: cs =>
    if c = '\n' ∨ c = '\r' then ⟨[], [c]⟩ :: ofChars cs
    else
      match ofChars cs with
      | [] => [⟨[c], []⟩]
      | line :: lines => ⟨c :: line.content, line.terminator⟩ :: lines

/-- Nothing of a text is lost in its lines. -/
theorem flatMap_chars_ofChars (cs : List Char) : (ofChars cs).flatMap chars = cs := by
  fun_induction ofChars cs with
  | case1 => rfl
  | case2 cs ih => simp [chars, ih]
  | case3 c cs _ h ih => simp [chars, ih]
  | case4 c cs _ h hnil ih => simp_all [chars]
  | case5 c cs _ h line lines hcons ih => simp_all [chars]

end RawLine

/-- A line and a column, both counted from one. -/
structure LineCol where
  line : Nat
  column : Nat
deriving DecidableEq, Repr

/-- A line at its place in the text. -/
structure Line where
  number : Nat
  /-- The bytes of the content, without the terminator. -/
  span : Span
  text : String
  /-- What ends the line; empty on the last one. -/
  terminator : String
deriving DecidableEq, Repr

/-- Number the lines from `number` on and lay them end to end from the byte offset `start` on. -/
def Line.place (number start : Nat) : List RawLine → List Line
  | [] => []
  | raw :: raws =>
    let stop := start + byteLength raw.content
    { number, span := ⟨start, stop⟩, text := String.ofList raw.content,
      terminator := String.ofList raw.terminator } ::
      place (number + 1) (stop + byteLength raw.terminator) raws

/-- A text with its lines. -/
structure LineIndex where
  source : String
  lines : List Line

namespace LineIndex

/-- The index of a text. -/
def ofSource (source : String) : LineIndex :=
  ⟨source, Line.place 1 0 (RawLine.ofChars source.toList)⟩

/-- The number of lines. -/
def lineCount (index : LineIndex) : Nat :=
  index.lines.length

/-- The line of a given number. -/
def line? (index : LineIndex) (number : Nat) : Option Line :=
  if number = 0 then none else index.lines[number - 1]?

/-- The line and column of a byte offset. An offset past the end counts as the end, and one inside
a character counts the bytes before it on its line. -/
def lineCol (index : LineIndex) (offset : Nat) : LineCol :=
  let offset := min offset (byteLength index.source.toList)
  let begun := index.lines.filter (·.span.start ≤ offset)
  let start := (begun.getLast?.map (·.span.start)).getD 0
  let before := (charsBetween? start offset index.source.toList).map List.length
  ⟨begun.length, before.getD (offset - start) + 1⟩

/-- The byte offset of a line and column. The column after the last character of a line is its
end; anything further lies nowhere. -/
def offset? (index : LineIndex) (position : LineCol) : Option Nat :=
  if position.column = 0 then none
  else
    (index.line? position.line).bind fun line ↦
      let skipped := position.column - 1
      if skipped ≤ line.text.length then
        some (line.span.start + byteLength (line.text.toList.take skipped))
      else none

/-- The line that holds a byte offset. -/
def lineAt? (index : LineIndex) (offset : Nat) : Option Line :=
  index.line? (index.lineCol offset).line

end LineIndex

end SqlBatch
