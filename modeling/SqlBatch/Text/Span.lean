/-!
# Byte offsets and spans

Positions in a batch are byte offsets of its UTF-8 form, and a piece of it is a half-open span of
offsets. Text is cut as a list of characters: an offset that falls inside a character or past the
end cuts nothing, so a slice is either exactly the characters between two boundaries or empty.

## How cutting behaves

* Cutting behind a front of the text gives that front and the rest (`dropBytes?_append`,
  `takeBytes?_append`).
* What stands behind the cut does not matter (`charsBetween?_append_of_le`), and what stands in
  front moves the offsets (`charsBetween?_add`).
* Fronts of the same length in bytes are the same (`append_inj_of_byteLength`).
-/

namespace SqlBatch

/-- The number of bytes of a text. -/
def byteLength : List Char → Nat
  | [] => 0
  | c :: cs => c.utf8Size + byteLength cs

/-- No characters, no bytes. -/
@[simp] theorem byteLength_nil : byteLength [] = 0 := rfl

/-- A character counts by its encoding. -/
@[simp] theorem byteLength_cons (c : Char) (cs : List Char) :
    byteLength (c :: cs) = c.utf8Size + byteLength cs := rfl

/-- Bytes add up. -/
@[simp] theorem byteLength_append (cs ds : List Char) :
    byteLength (cs ++ ds) = byteLength cs + byteLength ds := by
  induction cs with
  | nil => simp
  | cons c cs ih => simp [ih, Nat.add_assoc]

/-- Every character has a byte. -/
theorem byteLength_pos {cs : List Char} (h : cs ≠ []) : 0 < byteLength cs := by
  cases cs with
  | nil => exact absurd rfl h
  | cons c cs => exact Nat.lt_of_lt_of_le c.utf8Size_pos (Nat.le_add_right _ _)

/-- What is left of a text after its first `n` bytes; nothing unless `n` is a boundary. -/
def dropBytes? (n : Nat) (cs : List Char) : Option (List Char) :=
  match n, cs with
  | 0, cs => some cs
  | _ + 1, [] => none
  | n + 1, c :: cs => if c.utf8Size ≤ n + 1 then dropBytes? (n + 1 - c.utf8Size) cs else none

/-- The first `n` bytes of a text; nothing unless `n` is a boundary. -/
def takeBytes? (n : Nat) (cs : List Char) : Option (List Char) :=
  match n, cs with
  | 0, _ => some []
  | _ + 1, [] => none
  | n + 1, c :: cs =>
    if c.utf8Size ≤ n + 1 then (takeBytes? (n + 1 - c.utf8Size) cs).map (c :: ·) else none

/-- The characters from byte `start` up to byte `stop`; nothing unless both are boundaries, in
this order. -/
def charsBetween? (start stop : Nat) (cs : List Char) : Option (List Char) :=
  if start ≤ stop then (dropBytes? start cs).bind (takeBytes? (stop - start)) else none

/-! ### Cutting at boundaries -/

/-- Cutting behind the first character. -/
theorem dropBytes?_cons (c : Char) (cs : List Char) (n : Nat) :
    dropBytes? (c.utf8Size + n) (c :: cs) = dropBytes? n cs := by
  obtain ⟨k, hk⟩ : ∃ k, c.utf8Size = k + 1 := Nat.exists_eq_add_one.mpr c.utf8Size_pos
  have hn : c.utf8Size + n = k + n + 1 := by omega
  rw [hn, dropBytes?, if_pos (by omega)]
  congr 1
  omega

/-- Taking the first character. -/
theorem takeBytes?_cons (c : Char) (cs : List Char) (n : Nat) :
    takeBytes? (c.utf8Size + n) (c :: cs) = (takeBytes? n cs).map (c :: ·) := by
  obtain ⟨k, hk⟩ : ∃ k, c.utf8Size = k + 1 := Nat.exists_eq_add_one.mpr c.utf8Size_pos
  have hn : c.utf8Size + n = k + n + 1 := by omega
  rw [hn, takeBytes?, if_pos (by omega)]
  congr 2
  omega

/-- Cutting a front off. -/
@[simp] theorem dropBytes?_append (cs ds : List Char) :
    dropBytes? (byteLength cs) (cs ++ ds) = some ds := by
  induction cs with
  | nil => cases ds <;> rfl
  | cons c cs ih => rw [byteLength_cons, List.cons_append, dropBytes?_cons, ih]

/-- Taking a front. -/
@[simp] theorem takeBytes?_append (cs ds : List Char) :
    takeBytes? (byteLength cs) (cs ++ ds) = some cs := by
  induction cs with
  | nil => cases ds <;> rfl
  | cons c cs ih =>
    rw [byteLength_cons, List.cons_append, takeBytes?_cons, ih, Option.map_some]

/-- A text splits in one way where its parts have given byte lengths. -/
theorem append_inj_of_byteLength {cs ds cs' ds' : List Char} (h : cs ++ ds = cs' ++ ds')
    (hlength : byteLength cs = byteLength cs') : cs = cs' ∧ ds = ds' := by
  have htake : some cs = some cs' := by
    rw [← takeBytes?_append cs ds, h, hlength, takeBytes?_append]
  obtain rfl := Option.some.inj htake
  exact ⟨rfl, List.append_cancel_left h⟩

/-- Cutting out a piece by the byte lengths of what stands before it and of itself. -/
theorem charsBetween?_append (before chars behind : List Char) :
    charsBetween? (byteLength before) (byteLength before + byteLength chars)
      (before ++ (chars ++ behind)) = some chars := by
  rw [charsBetween?, if_pos (Nat.le_add_right _ _), dropBytes?_append, Option.bind_some,
    Nat.add_sub_cancel_left, takeBytes?_append]

/-! ### Texts that are part of longer ones -/

/-- What is left has the bytes that are not cut off. -/
theorem byteLength_dropBytes? {n : Nat} {cs rest : List Char} (h : dropBytes? n cs = some rest) :
    n + byteLength rest = byteLength cs := by
  fun_induction dropBytes? n cs with
  | case1 cs =>
    cases h
    exact Nat.zero_add _
  | case2 => cases h
  | case3 n c cs hle ih =>
    have := ih h
    rw [byteLength_cons]
    omega
  | case4 => cases h

/-- Cutting in the front of a text. -/
theorem dropBytes?_append_of_le {n : Nat} {cs : List Char} (ds : List Char)
    (h : n ≤ byteLength cs) : dropBytes? n (cs ++ ds) = (dropBytes? n cs).map (· ++ ds) := by
  fun_induction dropBytes? n cs with
  | case1 cs => cases cs <;> cases ds <;> rfl
  | case2 n => cases h
  | case3 n c cs hle ih =>
    rw [byteLength_cons] at h
    rw [List.cons_append, dropBytes?, if_pos hle, ih (by omega)]
  | case4 n c cs hlt => rw [List.cons_append, dropBytes?, if_neg hlt, Option.map_none]

/-- Taking from the front of a text. -/
theorem takeBytes?_append_of_le {n : Nat} {cs : List Char} (ds : List Char)
    (h : n ≤ byteLength cs) : takeBytes? n (cs ++ ds) = takeBytes? n cs := by
  fun_induction takeBytes? n cs with
  | case1 cs => cases cs <;> cases ds <;> rfl
  | case2 n => cases h
  | case3 n c cs hle ih =>
    rw [byteLength_cons] at h
    rw [List.cons_append, takeBytes?, if_pos hle, ih (by omega)]
  | case4 n c cs hlt => rw [List.cons_append, takeBytes?, if_neg hlt]

/-- What stands further on does not matter to a piece that ends before it. -/
theorem charsBetween?_append_of_le {start stop : Nat} {cs : List Char} (ds : List Char)
    (h : stop ≤ byteLength cs) :
    charsBetween? start stop (cs ++ ds) = charsBetween? start stop cs := by
  rw [charsBetween?, charsBetween?]
  split
  · rename_i hle
    rw [dropBytes?_append_of_le ds (Nat.le_trans hle h)]
    cases hdrop : dropBytes? start cs with
    | none => rfl
    | some rest =>
      have := byteLength_dropBytes? hdrop
      exact takeBytes?_append_of_le ds (by omega)
  · rfl

/-- Cutting off a front and more. -/
theorem dropBytes?_add (cs ds : List Char) (n : Nat) :
    dropBytes? (byteLength cs + n) (cs ++ ds) = dropBytes? n ds := by
  induction cs with
  | nil => rw [byteLength_nil, Nat.zero_add, List.nil_append]
  | cons c cs ih => rw [byteLength_cons, Nat.add_assoc, List.cons_append, dropBytes?_cons, ih]

/-- Cutting a piece out of a text that stands behind another one. -/
theorem charsBetween?_add (cs ds : List Char) (start stop : Nat) :
    charsBetween? (byteLength cs + start) (byteLength cs + stop) (cs ++ ds) =
      charsBetween? start stop ds := by
  rw [charsBetween?, charsBetween?, dropBytes?_add, Nat.add_sub_add_left]
  simp only [Nat.add_le_add_iff_left]

/-! ### Spans -/

/-- A half-open range of byte offsets. -/
structure Span where
  start : Nat
  stop : Nat
deriving DecidableEq, Repr, Inhabited

namespace Span

/-- The empty span at an offset. -/
def point (offset : Nat) : Span := ⟨offset, offset⟩

/-- The number of bytes covered. -/
def size (s : Span) : Nat := s.stop - s.start

/-- Whether the span covers nothing. -/
def isEmpty (s : Span) : Bool := s.start == s.stop

/-- The span from the start of one to the end of another. -/
def through (s t : Span) : Span := ⟨s.start, t.stop⟩

/-- The span a number of bytes further on. -/
def shift (offset : Nat) (s : Span) : Span := ⟨s.start + offset, s.stop + offset⟩

/-- Moving a span does not change whether it is empty. -/
@[simp] theorem isEmpty_shift (offset : Nat) (s : Span) :
    (s.shift offset).isEmpty = s.isEmpty := by
  rw [Bool.eq_iff_iff]
  simp [isEmpty, shift]

/-- Spans are the same if they are after they have been moved. -/
theorem shift_inj {offset : Nat} {s t : Span} : s.shift offset = t.shift offset ↔ s = t := by
  cases s
  cases t
  simp [shift]

/-- The characters that the span covers; none for a span that does not fit the text. -/
def chars (s : Span) (source : String) : List Char :=
  (charsBetween? s.start s.stop source.toList).getD []

/-- The text that the span covers; empty for a span that does not fit the text. -/
def slice (s : Span) (source : String) : String :=
  String.ofList (s.chars source)

end Span

end SqlBatch
