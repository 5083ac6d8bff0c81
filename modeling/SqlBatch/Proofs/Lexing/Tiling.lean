import SqlBatch.Proofs.Boundaries
import SqlBatch.Proofs.Lexing.Gaps
import SqlBatch.Proofs.Lexing.Reads

/-!
# Tokens and gaps

The tokens of a text and the trivia between them lie end to end (`Tiles`): nothing of the text is
lost and nothing is read twice, and the text from the start of any token on has the same tokens from
there on (`isTiling_tokenize`).

## What is on a tile

A tile is a gap and a token behind it. The token starts with a character that is not blank, its text
is that of its characters, and its span goes from the end of the gap to the end of the token. The last tile
is a gap and the end of the batch, and only this gap may end with an unfinished comment
(`Trivia.IsGap`). The induction is over the lexer, one token at a time (`Lexer.tiles_tokens`).

## Places

`Token.Stands` says where a token is in a text: what stands in front of it, what it is itself, and
what stands behind it. From that follow the places of its span, as positions of the text: since both
ends are ends of texts, they never lie inside of a character.
-/

namespace SqlBatch

/-- Gaps and tokens make up a text that lies at an offset, each token behind a gap. The last token
is the end of the batch, and only the gap before it may end with an unfinished comment. -/
inductive Tiles : Nat → List Char → List Token → Prop
  | eof {offset : Nat} {gap : List Char} : Trivia.IsGap True gap →
    Tiles offset gap [.eofAt (offset + byteLength gap)]
  | token {offset : Nat} {gap cs rest : List Char} {c : Char} {t : Token} {ts : List Token} :
    Trivia.IsGap False gap → isBlank c = false → t.isEof = false →
    t.text = String.ofList (c :: cs) →
    t.span = ⟨offset + byteLength gap, offset + byteLength gap + byteLength (c :: cs)⟩ →
    Tiles t.span.stop rest ts → Tiles offset (gap ++ (c :: cs ++ rest)) (t :: ts)

/-- **What a lexer reads lies end to end.** -/
theorem Lexer.tiles_tokens (lexer : Lexer) : Tiles lexer.offset lexer.ahead lexer.tokens := by
  fun_induction tokens lexer with
  | case1 lexer token after hread ih =>
    obtain ⟨ahead, offset, finished⟩ := lexer
    obtain ⟨gap, c, cs, rfl, hlength⟩ := exists_of_read? hread
    have hgap : Trivia.IsGap False gap := by
      have hlt : Trivia.length (gap ++ c :: cs) < (gap ++ c :: cs).length := by simp [hlength]
      have hskipped := Trivia.isGap_take False _ (.inl hlt)
      rwa [hlength, List.take_left] at hskipped
    have hstart : Trivia.length (c :: cs) = 0 := by
      have hdrop := Trivia.length_drop .gap (gap ++ c :: cs)
      rwa [← Trivia.length, hlength, List.drop_left] at hdrop
    rw [read?_eq_some hlength] at hread
    cases hread
    have htext : c :: cs = c :: cs.take (scan c cs).extra ++ cs.drop (scan c cs).extra := by
      rw [List.cons_append, List.take_append_drop]
    show Tiles offset (gap ++ c :: cs) _
    rw [htext]
    exact .token hgap (Trivia.isBlank_eq_false_of_length hstart)
      (beq_eq_false_iff_ne.2 (kind_scan_ne_eof c cs)) rfl rfl ih
  | case2 lexer hread =>
    have hgap := Trivia.isGap_take True lexer.ahead (.inr trivial)
    rw [read?_eq_none.1 hread, List.take_length] at hgap
    exact .eof hgap

/-! ### The place of a token -/

/-- What stands in front of a token, its characters and what stands behind. -/
structure Token.Stands (t : Token) (source front text behind : List Char) : Prop where
  source_eq : source = front ++ (text ++ behind)
  start_eq : t.span.start = byteLength front
  stop_eq : t.span.stop = byteLength front + byteLength text
  text_eq : t.text = String.ofList text
  eq_nil : t.isEof → text = [] ∧ behind = []
  exists_cons : t.isEof = false → ∃ c cs, text = c :: cs ∧ isBlank c = false

/-- Every token of a text that lies behind another one has its place. -/
theorem Tiles.exists_stands {cs : List Char} {ts : List Token} {t : Token} {offset : Nat}
    (h : Tiles offset cs ts) (ht : t ∈ ts) (front : List Char)
    (hfront : byteLength front = offset) :
    ∃ before text behind, t.Stands (front ++ cs) before text behind := by
  induction h generalizing front with
  | @eof offset gap hgap =>
    cases List.mem_singleton.1 ht
    refine ⟨front ++ gap, [], [], by simp, ?_, ?_, rfl, fun _ ↦ ⟨rfl, rfl⟩, fun h ↦ nomatch h⟩
    · rw [byteLength_append, hfront]
      rfl
    · rw [byteLength_append, hfront]
      rfl
  | @token offset gap cs rest c u ts _ hc hopen htext hspan _ ih =>
    have hlength : byteLength (front ++ gap) = offset + byteLength gap := by
      rw [byteLength_append, hfront]
    rcases List.mem_cons.1 ht with rfl | ht
    · refine ⟨front ++ gap, c :: cs, rest, by simp, ?_, ?_, htext, fun heof ↦ ?_,
        fun _ ↦ ⟨c, cs, rfl, hc⟩⟩
      · rw [hspan, hlength]
      · rw [hspan, hlength]
      · rw [hopen] at heof
        cases heof
    · have hstop : byteLength (front ++ gap ++ (c :: cs)) = u.span.stop := by
        rw [byteLength_append, hlength, hspan]
      obtain ⟨before, text, behind, hstands⟩ := ih ht _ hstop
      refine ⟨before, text, behind, ?_⟩
      simpa only [List.append_assoc] using hstands

/-- Every token of a text stands somewhere in it. -/
theorem exists_stands {source : String} {t : Token} (h : t ∈ tokenize source) :
    ∃ front text behind, t.Stands source.toList front text behind :=
  Tiles.exists_stands (Lexer.tiles_tokens (.ofSource source)) h [] rfl

namespace Token.Stands

variable {t : Token} {source : String} {front text behind : List Char}

/-- A token starts at a position of the text, not inside of a character. -/
theorem isValid_start (h : t.Stands source.toList front text behind) :
    (⟨t.span.start⟩ : String.Pos.Raw).IsValid source := by
  rw [h.start_eq]
  exact isValid_byteLength h.source_eq

/-- A token stops at a position of the text. -/
theorem isValid_stop (h : t.Stands source.toList front text behind) :
    (⟨t.span.stop⟩ : String.Pos.Raw).IsValid source := by
  rw [h.stop_eq, ← byteLength_append]
  exact isValid_byteLength (h.source_eq.trans (List.append_assoc _ _ _).symm)

/-- The span of a token covers its text. -/
theorem chars_eq (h : t.Stands source.toList front text behind) : t.span.chars source = text := by
  rw [Span.chars, h.start_eq, h.stop_eq, h.source_eq, charsBetween?_append]
  rfl

end Token.Stands

/-! ### All tokens of a text -/

/-- The tokens of a text, with what holds of each of them, of any two and of all together. -/
structure IsTiling (source : String) (tokens : List Token) : Prop where
  tiles : Tiles 0 source.toList tokens
  /-- Only the end of the batch is empty, at the end of the text. -/
  exists_eofAt : ∃ ts, tokens = ts ++ [.eofAt source.utf8ByteSize] ∧
    ∀ t ∈ ts, t.isEof = false ∧ t.span.start < t.span.stop
  isValid : ∀ t ∈ tokens, (⟨t.span.start⟩ : String.Pos.Raw).IsValid source ∧
    (⟨t.span.stop⟩ : String.Pos.Raw).IsValid source ∧ t.span.stop ≤ source.utf8ByteSize
  text_eq : ∀ t ∈ tokens, t.text = t.span.slice source
  pairwise : tokens.Pairwise fun t u ↦ t.span.stop ≤ u.span.start
  /-- The text from the start of a token on has the same tokens from there on. -/
  suffix : ∀ before t behind, tokens = before ++ t :: behind → ∃ front rest,
    source.toList = front ++ rest ∧ byteLength front = t.span.start ∧
      (tokenize (String.ofList rest)).map (·.move (.shift t.span.start)) = t :: behind

/-- The text from a token on has the same tokens from there on. -/
theorem exists_suffix {source : String} {before behind : List Token} {t : Token}
    (h : tokenize source = before ++ t :: behind) : ∃ front rest,
    source.toList = front ++ rest ∧ byteLength front = t.span.start ∧
      (tokenize (String.ofList rest)).map (·.move (.shift t.span.start)) = t :: behind := by
  obtain ⟨front, rest, hsource, hfront, htokens⟩ := exists_restart h
  refine ⟨front, rest, hsource, hfront, ?_⟩
  rw [map_move_tokenize, htokens]

/-- **The tokens of a text tile it.** They lie in order with nothing but trivia between them, and
reading the text from any of them on gives the same tokens. -/
theorem isTiling_tokenize (source : String) : IsTiling source (tokenize source) where
  tiles := Lexer.tiles_tokens (.ofSource source)
  exists_eofAt := by
    obtain ⟨ts, htokens, hts⟩ := Lexer.exists_eofAt (.ofSource source)
    have hsize : 0 + byteLength source.toList = source.utf8ByteSize := by
      rw [Nat.zero_add, ← utf8ByteSize_ofList, String.ofList_toList]
    refine ⟨ts, ?_, fun t ht ↦ ⟨hts t ht, ?_⟩⟩
    · rw [← hsize]
      exact htokens
    · have hmem : t ∈ (Lexer.ofSource source).tokens := htokens ▸ List.mem_append_left _ ht
      exact (Lexer.span_of_mem_tokens hmem).2 (hts t ht)
  isValid t ht := by
    obtain ⟨front, text, behind, hstands⟩ := exists_stands ht
    exact ⟨hstands.isValid_start, hstands.isValid_stop, hstands.isValid_stop.le_utf8ByteSize⟩
  text_eq t ht := by
    obtain ⟨front, text, behind, hstands⟩ := exists_stands ht
    rw [hstands.text_eq, Span.slice, hstands.chars_eq]
  pairwise := Lexer.pairwise_tokens (.ofSource source)
  suffix _ _ _ h := exists_suffix h

end SqlBatch
