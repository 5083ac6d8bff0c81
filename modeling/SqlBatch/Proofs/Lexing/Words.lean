import SqlBatch.Proofs.Lexing.Tiling

/-!
# The word at the start of a text

Every token of a text is what the lexer makes of the characters from there on (`exists_standsAt`). A
token that starts like a word and is made of word characters is a whole word: what stands behind it
continues no word (`Scan.head?_drop_of_isWordStart`). Numbers are different, since `1abc` is a
number in front of a word.

## Who looks at words twice

The first word of a statement is looked at once as a token and once as a piece of the source text.
This module is what connects the two: the characters of the token are the characters of the text
from its start on, up to the end of the token (`chars_span`), and there the word ends.

The one exception is a text in quotes behind an `x`, which is a blob, and starts like a word without
being one. It has a quote in it, which no word has, and this is what tells them apart
(`scan_eq_word`).
-/

namespace SqlBatch

/-! ### What a token is made of -/

/-- The token is what the lexer makes of a character of the text and all characters behind it. -/
structure Token.StandsAt (t : Token) (source : String) (c : Char) (cs : List Char) : Prop where
  isBlank : isBlank c = false
  kind : t.kind = (scan c cs).kind
  stop : t.span.stop = t.span.start + byteLength (c :: cs.take (scan c cs).extra)
  source_eq : ∃ front, source.toList = front ++ c :: cs ∧ byteLength front = t.span.start

/-- **Every token of a text stands at some character of it.** -/
theorem exists_standsAt {source : String} {t : Token} (h : t ∈ tokenize source)
    (hopen : t.isEof = false) : ∃ c cs, t.StandsAt source c cs := by
  obtain ⟨before, behind, htokens⟩ := List.append_of_mem h
  obtain ⟨front, rest, hsource, hfront, hrest⟩ := exists_restart htokens
  rw [Lexer.tokens_eq] at hrest
  split at hrest
  · rename_i token after hread
    obtain ⟨rfl, -⟩ := List.cons.inj hrest
    obtain ⟨gap, c, cs, rfl, hgap⟩ := Lexer.exists_of_read? hread
    rw [Lexer.read?_eq_some hgap] at hread
    have htoken := congrArg Prod.fst (Option.some.inj hread)
    -- The lexer starts at the token, so there is nothing to skip.
    have hstart : token.span.start + byteLength gap = token.span.start :=
      congrArg (·.span.start) htoken
    obtain rfl : gap = [] := by
      by_contra hne
      have := byteLength_pos hne
      omega
    refine ⟨c, cs, Trivia.isBlank_eq_false_of_length hgap, ?_, ?_, front, hsource, hfront⟩
    · exact (congrArg Token.kind htoken).symm
    · exact (congrArg (·.span.stop) htoken).symm
  · obtain ⟨heof, -⟩ := List.cons.inj hrest
    rw [← heof] at hopen
    cases hopen

/-- What lies between two cuts of a text. -/
theorem exists_between {front rest front' rest' : List Char} (h : front ++ rest = front' ++ rest')
    (hle : byteLength front ≤ byteLength front') :
    ∃ mid, front' = front ++ mid ∧ rest = mid ++ rest' := by
  rcases List.append_eq_append_iff.1 h with ⟨mid, rfl, rfl⟩ | ⟨mid, rfl, rfl⟩
  · exact ⟨mid, rfl, rfl⟩
  · obtain rfl : mid = [] := by
      by_contra hne
      have := byteLength_pos hne
      rw [byteLength_append] at hle
      omega
    exact ⟨[], by simp, by simp⟩

namespace Token.StandsAt

variable {t : Token} {source : String} {c : Char} {cs text : List Char}

/-- The text from a token up to a cut behind it. -/
theorem exists_text (h : t.StandsAt source c cs) {before behind : List Char}
    (hcut : source.toList = before ++ behind) (hle : t.span.stop ≤ byteLength before) :
    ∃ text, cs = text ++ behind ∧ byteLength before = t.span.start + byteLength (c :: text) ∧
      byteLength (cs.take (scan c cs).extra) ≤ byteLength text := by
  obtain ⟨front, hsource, hfront⟩ := h.source_eq
  have hstop := h.stop
  have hsplit : front ++ [c] ++ cs = before ++ behind := by
    rw [List.append_assoc, ← hcut, hsource]
    rfl
  have hlength : byteLength (front ++ [c]) = t.span.start + byteLength [c] := by
    rw [byteLength_append, hfront]
  simp only [byteLength_cons, byteLength_nil] at hstop hlength ⊢
  obtain ⟨text, rfl, rfl⟩ := exists_between hsplit (by omega)
  rw [byteLength_append, hlength] at hle ⊢
  exact ⟨text, rfl, by omega, by omega⟩

/-- The span of a text that starts at a token. -/
theorem chars_eq (h : t.StandsAt source c cs) (htext : text <+: cs) :
    (Span.mk t.span.start (t.span.start + byteLength (c :: text))).chars source = c :: text := by
  obtain ⟨front, hsource, hfront⟩ := h.source_eq
  obtain ⟨rest, rfl⟩ := htext
  rw [← List.cons_append] at hsource
  rw [← hfront, Span.chars, hsource, charsBetween?_append]
  rfl

/-- The characters of a token. -/
theorem chars_span (h : t.StandsAt source c cs) :
    t.span.chars source = c :: cs.take (scan c cs).extra := by
  have hspan : t.span =
      ⟨t.span.start, t.span.start + byteLength (c :: cs.take (scan c cs).extra)⟩ := by
    rw [← h.stop]
  rw [hspan]
  exact h.chars_eq (List.take_prefix _ _)

end Token.StandsAt

/-- A token stands where it starts. -/
theorem standsAt_of_start {source : String} {t : Token} (h : t ∈ tokenize source)
    {front cs : List Char} {c : Char} (hsource : source.toList = front ++ c :: cs)
    (hstart : t.span.start = byteLength front) : t.StandsAt source c cs := by
  obtain ⟨before, text, behind, hplace⟩ := exists_stands h
  have hplace_eq : before = front ∧ text ++ behind = c :: cs :=
    append_inj_of_byteLength (hplace.source_eq.symm.trans hsource)
      (hplace.start_eq.symm.trans hstart)
  have hopen : t.isEof = false := by
    rw [Bool.eq_false_iff]
    intro heof
    obtain ⟨rfl, rfl⟩ := hplace.eq_nil heof
    exact absurd hplace_eq.2 (List.cons_ne_nil c cs).symm
  obtain ⟨d, ds, hstands⟩ := exists_standsAt h hopen
  obtain ⟨front', hsource', hfront'⟩ := hstands.source_eq
  obtain ⟨-, heq⟩ := append_inj_of_byteLength (hsource'.symm.trans hsource)
    (hfront'.trans hstart)
  obtain ⟨rfl, rfl⟩ := List.cons.inj heq
  exact hstands

/-! ### Words -/

/-- A run of characters of a class ends where one outside of it stands. -/
theorem takeWhile_append_of_head? {p : Char → Bool} {cs behind : List Char} (hcs : ∀ c ∈ cs, p c)
    (hbehind : ∀ c ∈ behind.head?, p c = false) : (cs ++ behind).takeWhile p = cs := by
  rw [List.takeWhile_append_of_pos hcs]
  rcases behind with _ | ⟨c, behind⟩
  · exact List.append_nil cs
  · have hc : ¬ p c = true := by
      rw [hbehind c rfl]
      exact Bool.false_ne_true
    rw [List.takeWhile_cons_of_neg hc, List.append_nil]

namespace Scan

variable {c : Char} {cs : List Char}

/-- A character of a word starts no symbol. -/
theorem symbol?_eq_none (h : isWordChar c) (cs : List Char) : symbol? c cs = none := by
  have hsingle : single? c = none := by
    unfold single?
    split
    case h_18 => rfl
    all_goals exact absurd h (by decide)
  have hdouble : double c = ([], none) := by
    unfold double
    split
    case h_6 => rfl
    all_goals exact absurd h (by decide)
  simp [symbol?, hsingle, hdouble]

/-- A digit may stand in a word. -/
theorem isWordChar_of_isDigit (h : c.isDigit) : isWordChar c := by
  rw [isWordChar, isNumeric, h, Bool.true_or, Bool.or_true, Bool.true_or]

/-- No trivia starts like a word or a number. -/
theorem length_trivia_of_isWordChar (h : isWordChar c) (cs : List Char) :
    Trivia.length (c :: cs) = 0 := by
  rw [Trivia.length, Trivia.lengthFrom, isBlank_eq_false_of_isWordChar h, if_neg Bool.false_ne_true]
  · rintro ds rfl
    exact absurd h (by decide)
  · rintro ds rfl
    exact absurd h (by decide)

/-- A digit starts no word. -/
theorem isDigit_eq_false_of_isWordStart (h : isWordStart c) : c.isDigit = false := by
  rw [Bool.eq_false_iff]
  intro hdigit
  have hdigit : 48 ≤ c.toNat ∧ c.toNat ≤ 57 := by
    simpa [Char.isDigit, UInt32.le_iff_toNat_le] using hdigit
  simp only [isWordStart, isLetter, Bool.or_eq_true, Bool.and_eq_true, beq_iff_eq] at h
  rcases h with (h | ⟨h, -⟩) | rfl
  · have h : (decide ('A'.val ≤ c.val ∧ c.val ≤ 'Z'.val) ||
      (decide ('a'.val ≤ c.val) && decide (c.val ≤ 'z'.val))) = true := h
    simp only [UInt32.le_iff_toNat_le, Bool.or_eq_true, Bool.and_eq_true, decide_eq_true_eq,
      Char.reduceVal, UInt32.reduceToNat] at h
    have hval : c.toNat = c.val.toNat := rfl
    omega
  · have := decide_eq_true_iff.1 h
    omega
  · exact absurd hdigit (by decide)

/-- What starts a word is none of the characters that do not. -/
theorem ne_of_isWordStart {d : Char} (h : isWordStart c) (hd : isWordStart d = false) : c ≠ d := by
  rintro rfl
  rw [h] at hd
  cases hd

/-- What starts like a word is one, unless it starts a blob. -/
theorem scan_of_isWordStart (h : isWordStart c)
    (hblob : ¬ ((c = 'X' ∨ c = 'x') ∧ cs.head? = some '\'')) : scan c cs = word c cs := by
  rw [scan, symbol?_eq_none (isWordChar_of_isWordStart h)]
  simp only [ne_of_isWordStart h (d := '$') (by decide),
    ne_of_isWordStart h (d := '\'') (by decide), ne_of_isWordStart h (d := '\x22') (by decide),
    ne_of_isWordStart h (d := '\x60') (by decide), hblob, isDigit_eq_false_of_isWordStart h, h,
    or_self, if_false, if_true, Bool.false_eq_true]

/-- A token that starts like a word, and has no quote in it, is one. -/
theorem scan_eq_word (h : isWordStart c) (hquote : '\'' ∉ cs.take (scan c cs).extra) :
    scan c cs = word c cs := by
  refine scan_of_isWordStart h fun hblob ↦ hquote ?_
  obtain ⟨ds, rfl⟩ := List.head?_eq_some_iff.1 hblob.2
  have hextra : (scan c ('\'' :: ds)).extra = (blob ds).extra + 1 := by
    rw [scan, symbol?_eq_none (isWordChar_of_isWordStart h)]
    simp [ne_of_isWordStart h (d := '$') (by decide), ne_of_isWordStart h (d := '\'') (by decide),
      ne_of_isWordStart h (d := '\x22') (by decide), ne_of_isWordStart h (d := '\x60') (by decide),
      hblob.1]
  rw [hextra, List.take_succ_cons]
  exact .head _

/-- **A word ends where no word character stands.** -/
theorem head?_drop_of_isWordStart (h : isWordStart c)
    (hword : ∀ d ∈ cs.take (scan c cs).extra, isWordChar d) :
    ∀ d ∈ (cs.drop (scan c cs).extra).head?, isWordChar d = false := by
  have hscan : scan c cs = word c cs := by
    refine scan_eq_word h fun hmem ↦ ?_
    exact absurd (hword _ hmem) (by decide)
  have hdrop : cs.drop (scan c cs).extra = cs.dropWhile isWordChar := by
    rw [hscan, word]
    have hsplit := @List.takeWhile_append_dropWhile _ isWordChar cs
    exact (congrArg (List.drop _) hsplit).symm.trans List.drop_left
  intro d hd
  rw [hdrop] at hd
  have := List.head?_dropWhile_not isWordChar cs
  rwa [Option.mem_def.1 hd] at this

end Scan

end SqlBatch
