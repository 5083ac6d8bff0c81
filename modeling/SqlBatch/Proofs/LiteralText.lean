import SqlBatch.Proofs.Lexing.Numbers
import SqlBatch.Proofs.Quoting
import SqlBatch.Proofs.Rendering
import SqlBatch.Proofs.WellFormed

/-!
# The text of a literal

Writing a literal and reading it are inverse to each other, floats left aside: the text of a literal
is one token that stands for it, whatever the string or the bytes, and whichever side of `2 ^ 63` a
number lies on (`literal_text_inverse`).

## The other way round

Only strings are written in one way: a string literal of a text stands there as its contents are
written. Blobs and numbers are not, since their digits may be in lower case or stand behind zeros.
Each kind of literal has its own reader, and a lemma below says what that reader makes of the text
of the literal with the end of the text behind it.
-/

namespace SqlBatch

/-- A text that is scanned to its end is one token. -/
theorem tokenize_of_scan {c : Char} {cs : List Char} {kind : Token.Kind}
    (hgap : Trivia.length (c :: cs) = 0) (hscan : scan c cs = ⟨kind, cs.length⟩) :
    tokenize (String.ofList (c :: cs)) =
      [⟨kind, String.ofList (c :: cs), ⟨0, byteLength (c :: cs)⟩⟩,
        .eofAt (byteLength (c :: cs))] := by
  have hread := @Lexer.read?_eq_some [] cs c 0 false hgap
  rw [hscan, List.take_length, List.drop_length, List.nil_append] at hread
  rw [tokenize, Lexer.ofSource, String.toList_ofList, Lexer.tokens_of_read? hread]
  have hnone : (⟨[], 0 + byteLength [] + byteLength (c :: cs), false⟩ : Lexer).read? = none := rfl
  rw [Lexer.tokens_eq, hnone]
  simp

namespace Scan

variable {c : Char} {cs : List Char}

/-! ### Blobs -/

/-- A digit of a byte is read as its value, and is neither white space nor a quote. -/
theorem hexValue?_digitChar : ∀ d < 16, hexValue? (Nat.digitChar d).toUpper = some d ∧
    isBlank (Nat.digitChar d).toUpper = false ∧ (Nat.digitChar d).toUpper ≠ '\'' := by
  decide +kernel

theorem div_lt_sixteen (byte : UInt8) : byte.toNat / 16 < 16 := by
  have := byte.toNat_lt
  omega

theorem mod_lt_sixteen (byte : UInt8) : byte.toNat % 16 < 16 :=
  Nat.mod_lt _ (by decide)

theorem of_mem_hexDigits {bytes : List UInt8} (h : c ∈ bytes.flatMap Literal.hexDigits) :
    isBlank c = false ∧ c ≠ '\'' := by
  obtain ⟨byte, -, hc⟩ := List.mem_flatMap.1 h
  rcases List.mem_pair.1 hc with rfl | rfl
  · exact (hexValue?_digitChar _ (div_lt_sixteen byte)).2
  · exact (hexValue?_digitChar _ (mod_lt_sixteen byte)).2

/-- The digits of bytes are read as their values. -/
theorem mapM_hexValue? (bytes : List UInt8) :
    (bytes.flatMap Literal.hexDigits).mapM hexValue? =
      some (bytes.flatMap fun byte ↦ [byte.toNat / 16, byte.toNat % 16]) := by
  induction bytes with
  | nil => rfl
  | cons byte bytes ih =>
    rw [List.flatMap_cons, List.mapM_append, ih]
    simp [Literal.hexDigits, hexValue?_digitChar _ (div_lt_sixteen byte),
      hexValue?_digitChar _ (mod_lt_sixteen byte)]

/-- The two values of a byte make the byte. -/
theorem bytes?_halves (bytes : List UInt8) :
    bytes? (bytes.flatMap fun byte ↦ [byte.toNat / 16, byte.toNat % 16]) = some bytes := by
  induction bytes with
  | nil => rfl
  | cons byte bytes ih =>
    have hbyte : UInt8.ofNat (16 * (byte.toNat / 16) + byte.toNat % 16) = byte := by
      rw [Nat.div_add_mod, UInt8.ofNat_toNat]
    rw [List.flatMap_cons, List.cons_append, List.cons_append, List.nil_append, bytes?, ih,
      Option.map_some, hbyte]

/-- The digits of bytes make a blob of these bytes. -/
theorem blobKind_hexDigits (bytes : List UInt8) :
    blobKind (bytes.flatMap Literal.hexDigits) = .blob bytes := by
  have hfilter : (bytes.flatMap Literal.hexDigits).filter (!isBlank ·) =
      bytes.flatMap Literal.hexDigits :=
    List.filter_eq_self.2 fun c hc ↦ by simp [(of_mem_hexDigits hc).1]
  simp only [blobKind, hfilter, mapM_hexValue?, bytes?_halves]

/-- The digits of bytes in front of a quote are read as the blob. -/
theorem blob_hexDigits (bytes : List UInt8) :
    blob (bytes.flatMap Literal.hexDigits ++ ['\'']) =
      ⟨.blob bytes, (bytes.flatMap Literal.hexDigits ++ ['\'']).length⟩ := by
  have htake : (bytes.flatMap Literal.hexDigits ++ ['\'']).takeWhile (· != '\'') =
      bytes.flatMap Literal.hexDigits := by
    rw [List.takeWhile_append_of_pos fun c hc ↦ by simp [(of_mem_hexDigits hc).2]]
    simp
  rw [blob, htake, blobKind_hexDigits, if_neg (by rw [List.length_append]; simp)]
  rw [List.length_append, List.length_singleton]

/-- The text of a blob is one token. -/
theorem scan_blob (bytes : List UInt8) :
    scan 'X' ('\'' :: (bytes.flatMap Literal.hexDigits ++ ['\''])) =
      ⟨.blob bytes, ('\'' :: (bytes.flatMap Literal.hexDigits ++ ['\''])).length⟩ := by
  have hscan (cs : List Char) : scan 'X' ('\'' :: cs) = ⟨(blob cs).kind, (blob cs).extra + 1⟩ := rfl
  rw [hscan, blob_hexDigits, List.length_cons]

/-! ### Strings -/

theorem scan_apostrophe (cs : List Char) : scan '\'' cs = .string cs := by
  rcases cs with _ | ⟨d, ds⟩ <;> rfl

/-- The text of a string is one token. -/
theorem scan_doubled (value : String) :
    scan '\'' (doubled '\'' value.toList ++ ['\'']) =
      ⟨.string value, (doubled '\'' value.toList ++ ['\'']).length⟩ := by
  rw [scan_apostrophe, string, quotedBody?_doubled (by simp)]
  simp

/-- A string literal stands in a text as its contents are written. -/
theorem take_of_string {value : String} (h : (scan c cs).kind = .string value) :
    c :: cs.take (scan c cs).extra = '\'' :: (doubled '\'' value.toList ++ ['\'']) := by
  have hmakes := makes_scan c cs
  rw [h] at hmakes
  rcases hmakes with _ | _ | _ | _ | ⟨rfl, hbody⟩
  rename_i body width
  obtain ⟨rest, hcs, hwidth⟩ := exists_of_quotedBody? hbody
  have hextra : (scan '\'' cs).extra = (doubled '\'' body ++ ['\'']).length := by
    rw [scan_apostrophe, string, hbody, List.length_append]
    exact hwidth
  have hsplit : cs = doubled '\'' body ++ ['\''] ++ rest := by
    rw [hcs, List.append_assoc]
    rfl
  rw [String.toList_ofList, hextra]
  exact congrArg _ (hsplit ▸ List.take_left)

end Scan

/-! ### Writing and reading -/

/-- Digits by themselves are one token, of the number that they write. -/
theorem tokenize_digits {digits : List Char} (h : ∀ d ∈ digits, d.isDigit) (hne : digits ≠ []) :
    tokenize (String.ofList digits) =
      [⟨Scan.integerKind digits, String.ofList digits, ⟨0, byteLength digits⟩⟩,
        .eofAt (byteLength digits)] := by
  obtain ⟨c, cs, rfl⟩ := List.exists_cons_of_ne_nil hne
  have hrun : IsDigitRun (c :: cs) [] := ⟨hne, h, by simp⟩
  have hscan := Scan.scan_digits hrun id
  rw [List.append_nil] at hscan
  have hword := Scan.isWordChar_of_isDigit (h c (.head _))
  exact tokenize_of_scan (Scan.length_trivia_of_isWordChar hword cs) hscan

namespace Literal

/-- Whether the literal is a float. -/
def isFloat : Literal → Bool
  | .float _ => true
  | _ => false

/-- **The text of a literal is one token, which stands for it.** -/
theorem tokenize_text {value : Literal} (hvalue : value.IsWellFormed)
    (hfloat : value.isFloat = false) :
    tokenize value.text =
      [⟨value.kind, value.text, ⟨0, value.text.utf8ByteSize⟩⟩, .eofAt value.text.utf8ByteSize] := by
  cases value with
  | integer n =>
    have htokens := @tokenize_digits (Nat.toDigits 10 n) (fun _ ↦ Scan.isDigit_of_mem_toDigits)
      Nat.toDigits_ne_nil
    rwa [Scan.integerKind_toDigits hvalue, ← utf8ByteSize_ofList] at htokens
  | float => cases hfloat
  | numeric digits =>
    obtain ⟨hdigits, hge⟩ := hvalue
    have hkind : Scan.integerKind digits.toList = .numeric digits := by
      rw [Scan.integerKind, if_neg (Nat.not_lt.2 hge), String.ofList_toList]
    have htokens := tokenize_digits hdigits (fun hnil ↦ by
      rw [hnil] at hge
      exact absurd hge (by decide))
    rwa [hkind, ← utf8ByteSize_ofList, String.ofList_toList] at htokens
  | string value =>
    have htokens := tokenize_of_scan (c := '\'') rfl (Scan.scan_doubled value)
    rwa [← utf8ByteSize_ofList] at htokens
  | blob bytes =>
    have htokens := tokenize_of_scan (c := 'X') rfl (Scan.scan_blob bytes)
    rwa [← utf8ByteSize_ofList] at htokens
  | boolean value => cases value <;> decide +kernel
  | null => decide +kernel

end Literal

/-- A string literal of a text is written as it stands there. -/
theorem text_of_mem_tokenize {source value : String} {token : Token} (h : token ∈ tokenize source)
    (hkind : token.kind = .string value) :
    (Literal.string value).text = token.span.slice source := by
  have hopen : token.isEof = false := by
    rw [Token.isEof, hkind]
    rfl
  obtain ⟨c, cs, hstands⟩ := exists_standsAt h hopen
  rw [Span.slice, hstands.chars_span, Scan.take_of_string (hstands.kind ▸ hkind)]
  rfl

/-- **Literals and their texts are inverse to each other**: the text of a literal other than a float
is one token of the whole text, which stands for the literal, and a string literal is written as it
stands in the text it was read from. -/
theorem literal_text_inverse :
    (∀ value : Literal, value.IsWellFormed → value.isFloat = false →
      ∃ token, tokenize value.text = [token, .eofAt value.text.utf8ByteSize] ∧
        token.text = value.text ∧ Literal.ofKind? token.kind = some value) ∧
    ∀ source, ∀ token ∈ tokenize source, ∀ value, token.kind = .string value →
      (Literal.string value).text = token.span.slice source ∧
        (Literal.string value).text = token.text := by
  refine ⟨fun value hvalue hfloat ↦ ?_, fun source token htoken value hkind ↦ ?_⟩
  · exact ⟨_, Literal.tokenize_text hvalue hfloat, rfl, value.ofKind?_kind⟩
  · have htext := text_of_mem_tokenize htoken hkind
    exact ⟨htext, htext.trans ((isTiling_tokenize source).text_eq token htoken).symm⟩

/-- A blob and a string with quotes are read from their texts, and the string from a text where it
stands behind another token. -/
theorem literal_text_inverse_quotes :
    (Literal.blob [10, 255]).text = "X'0AFF'" ∧
      (∃ token, tokenize (Literal.blob [10, 255]).text = [token, .eofAt 7] ∧
        token.text = "X'0AFF'" ∧ Literal.ofKind? token.kind = some (.blob [10, 255])) ∧
      (⟨.string "it's", "'it''s'", ⟨2, 9⟩⟩ : Token) ∈ tokenize "- 'it''s'" ∧
      (Literal.string "it's").text = (Span.mk 2 9).slice "- 'it''s'" ∧
      (Literal.string "it's").text = "'it''s'" := by
  have hmem : (⟨.string "it's", "'it''s'", ⟨2, 9⟩⟩ : Token) ∈ tokenize "- 'it''s'" := by
    decide +kernel
  exact ⟨by decide +kernel, literal_text_inverse.1 (.blob [10, 255]) trivial rfl, hmem,
    literal_text_inverse.2 _ _ hmem _ rfl⟩

end SqlBatch
