import SqlBatch.Proofs.ParseBatch

/-!
# Reading part of a batch

The excerpt of a batch that some of its tokens have is read as a batch of its own. When those tokens
and the end of a batch behind them are one piece, the excerpt holds one statement, which is that
piece at another place (`Excerpt.parseBatch_eq`).

An excerpt starts with a token, so its statement starts with the text; offsets in it are offsets in
the batch less those of the first token. Behind its last token an excerpt may have all of the trivia
that the batch has there, or the start of it, as long as this is trivia too: the text of a statement
has all, and the text that an error quotes ends without white space.
-/

namespace SqlBatch

/-- A text is all of its characters. -/
theorem Span.chars_all (cs : List Char) :
    (Span.mk 0 (byteLength cs)).chars (String.ofList cs) = cs := by
  have hall := charsBetween?_append [] cs []
  simp only [byteLength_nil, Nat.zero_add, List.nil_append, List.append_nil] at hall
  rw [chars, String.toList_ofList, hall]
  rfl

namespace Excerpt

variable {source : String} {first next : Token} {more : List Token} {text gap zs : List Char}

/-- The excerpt stands where its tokens do. -/
theorem chars_eq (h : Excerpt source first more next text gap) (hzs : zs <+: gap) :
    (Span.mk first.span.start (first.span.start + byteLength (text ++ zs))).chars source =
      text ++ zs := by
  obtain ⟨front, rest, hsource, hfront⟩ := h.source_eq
  obtain ⟨gap', rfl⟩ := hzs
  have hsplit : source.toList = front ++ ((text ++ zs) ++ (gap' ++ rest)) := by
    rw [hsource]
    simp only [List.append_assoc]
  rw [Span.chars, hsplit, ← hfront, charsBetween?_append]
  rfl

/-- **An excerpt that is one piece is read as one statement.** -/
theorem parseBatch_eq (h : Excerpt source first more next text gap) (hzs : zs <+: gap)
    (htrivia : Trivia.length zs = zs.length) {p : Piece}
    (hp : Splits (first :: more ++ [.eofAt (first.span.start + byteLength (text ++ zs))]) [p]) :
    ∃ q : Piece, q.move (.shift first.span.start) = p ∧
      parseBatch (String.ofList (text ++ zs)) false =
        .ok [q.statement (.ofSource (String.ofList (text ++ zs)))] := by
  rw [byteLength_append, ← Nat.add_assoc, ← h.tokenize_append zs hzs htrivia] at hp
  obtain ⟨qs, hqs, hmove⟩ := hp.of_map fun _ _ ↦ rfl
  obtain ⟨q, rfl, hq⟩ := List.map_eq_singleton_iff.1 hmove.symm
  exact ⟨q, hq, parseBatch_of_splits hqs⟩

end Excerpt

theorem Token.eq_eofAt_of_move {t : Token} {n m : Nat}
    (h : t.move (.shift n) = .eofAt (n + m)) : t = .eofAt m := by
  obtain ⟨kind, text, span⟩ := t
  obtain ⟨rfl, rfl, hspan⟩ := Token.mk.inj h
  have hpoint : Span.point (n + m) = (Span.point m).shift n := by
    rw [Span.point, Nat.add_comm]
    rfl
  exact congrArg (Token.mk .eof "") (Span.shift_inj.1 (hspan.trans hpoint))

/-! ### Where a statement failed -/

/-- The error lies at the token. -/
structure LocatedError.IsAt (e : LocatedError) (t : Token) : Prop where
  span : e.span = t.span
  text : e.text = t.displayText

end SqlBatch
