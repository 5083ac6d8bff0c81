import SqlBatch.Text.Span

/-!
# Byte offsets between characters

The offsets of a text at which no character is cut in two are the lengths of what it starts with. By
this, spans that are made from lengths of texts are cut at characters, and the library's own notion
of a valid position of a string says the same.
-/

namespace SqlBatch

/-- The bytes of a text are those of its characters. -/
@[simp] theorem utf8ByteSize_ofList (cs : List Char) :
    (String.ofList cs).utf8ByteSize = byteLength cs := by
  induction cs with
  | nil => rfl
  | cons c cs ih =>
    rw [String.ofList_cons, String.utf8ByteSize_append, String.utf8ByteSize_singleton, ih,
      byteLength_cons]

/-- An offset is valid if the text has a start of that length. -/
theorem isValid_iff {source : String} {offset : Nat} :
    (⟨offset⟩ : String.Pos.Raw).IsValid source ↔
      ∃ front rest, source.toList = front ++ rest ∧ byteLength front = offset := by
  rw [String.Pos.Raw.isValid_iff_exists_append]
  constructor
  · rintro ⟨front, rest, rfl, hoffset⟩
    refine ⟨front.toList, rest.toList, String.toList_append, ?_⟩
    rw [← utf8ByteSize_ofList, String.ofList_toList]
    exact (congrArg String.Pos.Raw.byteIdx hoffset).symm
  · rintro ⟨front, rest, hsource, rfl⟩
    refine ⟨.ofList front, .ofList rest, ?_, ?_⟩
    · rw [← String.ofList_append, ← hsource, String.ofList_toList]
    · rw [String.rawEndPos, utf8ByteSize_ofList]

/-- The end of a part at the start of a text is no place inside of a character. -/
theorem isValid_byteLength {source : String} {before behind : List Char}
    (h : source.toList = before ++ behind) :
    (⟨byteLength before⟩ : String.Pos.Raw).IsValid source :=
  isValid_iff.2 ⟨before, behind, h, rfl⟩

end SqlBatch
