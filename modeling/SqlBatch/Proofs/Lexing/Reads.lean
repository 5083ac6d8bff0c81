import SqlBatch.Lexer
import SqlBatch.Proofs.Lexing.Scan

/-!
# Cutting and moving a text between its tokens

The tokens of a text do not depend on where the text lies nor on what stands behind them. So an
excerpt of a batch that starts at a token and ends behind another one, with any part of the trivia
there that is trivia by itself, is cut into the same tokens as the batch (`Lexer.exists_excerpt`).

## The steps

* What reading one token finds (`Lexer.Finds`): trivia, the text of the token, and a lexer at the
  place behind it.
* Reading several of them in a row (`Lexer.Reads`), and that moving the lexer moves the spans and
  nothing else (`Lexer.tokens_shift`).
* The order in which tokens lie: none is empty, and each starts where the one before has ended or
  further on (`Lexer.pairwise_tokens`).
* The excerpt: what is cut out of a text between two tokens is read like the text itself.
-/

namespace SqlBatch

namespace Lexer

/-! ### Reading one token -/

/-- What reading a token finds: trivia, the characters of the token, and the lexer behind it. -/
structure Finds (lexer : Lexer) (gap text : List Char) (token : Token) (after : Lexer) : Prop where
  ahead : lexer.ahead = gap ++ (text ++ after.ahead)
  length_gap : Trivia.length gap = gap.length
  text_ne_nil : text ≠ []
  span : token.span =
    ⟨lexer.offset + byteLength gap, lexer.offset + byteLength gap + byteLength text⟩
  after_offset : after.offset = token.span.stop
  finished : after.finished = lexer.finished
  isEof : token.isEof = false
  /-- Only an error may end with white space. -/
  trimEnd_text : token.isError = false → trimEnd text = text
  /-- What stands behind the token may be cut off. -/
  cut : ∀ zs, zs <+: after.ahead →
    ({ lexer with ahead := gap ++ (text ++ zs) } : Lexer).read? =
      some (token, { after with ahead := zs })
  /-- The trivia in front of the token may be skipped. -/
  skip : (⟨text ++ after.ahead, token.span.start, lexer.finished⟩ : Lexer).read? =
    some (token, after)

/-- One token, behind the trivia in front of it. -/
theorem read?_eq_some {gap cs : List Char} {c : Char} {offset : Nat} {finished : Bool}
    (h : Trivia.length (gap ++ c :: cs) = gap.length) :
    (⟨gap ++ c :: cs, offset, finished⟩ : Lexer).read? =
      let text := c :: cs.take (scan c cs).extra
      let start := offset + byteLength gap
      some (⟨(scan c cs).kind, String.ofList text, ⟨start, start + byteLength text⟩⟩,
        ⟨cs.drop (scan c cs).extra, start + byteLength text, finished⟩) := by
  simp only [read?, h, List.drop_left, List.take_left]

/-- Where a token is read, trivia and a character that is none stand ahead. -/
theorem exists_of_read? {lexer after : Lexer} {token : Token}
    (h : lexer.read? = some (token, after)) : ∃ gap c cs, lexer.ahead = gap ++ c :: cs ∧
      Trivia.length (gap ++ c :: cs) = gap.length := by
  simp only [read?] at h
  split at h
  · cases h
  · rename_i c cs hdrop
    refine ⟨lexer.ahead.take (Trivia.length lexer.ahead), c, cs, ?_, ?_⟩
    · rw [← hdrop, List.take_append_drop]
    · rw [← hdrop, List.take_append_drop, List.length_take,
        Nat.min_eq_left (Trivia.length_le _)]

/-- Reading a token finds its text. -/
theorem exists_finds {lexer after : Lexer} {token : Token}
    (h : lexer.read? = some (token, after)) : ∃ gap text, lexer.Finds gap text token after := by
  obtain ⟨ahead, offset, finished⟩ := lexer
  obtain ⟨gap, c, cs, hahead, hgap⟩ := exists_of_read? h
  simp only at hahead
  subst hahead
  have hstart : Trivia.length (c :: cs) = 0 := by
    have := Trivia.length_drop .gap (gap ++ c :: cs)
    rwa [← Trivia.length, hgap, List.drop_left] at this
  rw [read?_eq_some hgap] at h
  cases h
  refine ⟨gap, c :: cs.take (scan c cs).extra, ?_⟩
  refine ⟨by simp, ?_, by simp, rfl, rfl, rfl, ?_, ?_, ?_, ?_⟩
  · have := Trivia.length_take (Nat.le_of_eq hgap)
    rwa [List.take_left, hgap] at this
  · exact beq_eq_false_iff_ne.2 (kind_scan_ne_eof c cs)
  · intro hopen
    refine trimEnd_scan (Trivia.isBlank_eq_false_of_length hstart) fun cause hcause ↦ ?_
    simp [Token.isError, hcause] at hopen
  · -- Cut off in the trivia behind it, the token is read the same.
    intro zs hzs
    have htake : cs.take (scan c cs).extra ++ zs = cs.take ((scan c cs).extra + zs.length) := by
      rw [List.take_add, ← List.prefix_iff_eq_take.1 hzs]
    have hscan := scan_take (Nat.le_add_right (scan c cs).extra zs.length)
    have hgap' : Trivia.length (gap ++ c :: cs.take ((scan c cs).extra + zs.length)) =
        gap.length := by
      have hcut : gap ++ c :: cs.take ((scan c cs).extra + zs.length) =
          (gap ++ c :: cs).take (gap.length + ((scan c cs).extra + zs.length + 1)) := by
        rw [List.take_length_add_append, List.take_succ_cons]
      rw [hcut, Trivia.length_take (by omega), hgap]
    rw [List.cons_append, htake, read?_eq_some hgap', hscan, List.take_take,
      Nat.min_eq_left (Nat.le_add_right _ _), List.drop_take, Nat.add_sub_cancel_left,
      ← List.prefix_iff_eq_take.1 hzs]
  · have := @read?_eq_some [] cs c (offset + byteLength gap) finished hstart
    simpa using this

/-! ### All tokens of a text -/

/-- All tokens are the first one and those behind it, or the end. -/
theorem tokens_eq (lexer : Lexer) :
    lexer.tokens =
      match lexer.read? with
      | some (token, after) => token :: after.tokens
      | none => [Token.eofAt (lexer.offset + byteLength lexer.ahead)] := by
  rw [tokens]
  split <;> simp [*, atEnd]

/-- The first of all tokens. -/
theorem tokens_of_read? {lexer after : Lexer} {token : Token}
    (h : lexer.read? = some (token, after)) : lexer.tokens = token :: after.tokens := by
  rw [tokens_eq, h]

/-- No token is read where only trivia is left. -/
theorem read?_eq_none {lexer : Lexer} :
    lexer.read? = none ↔ Trivia.length lexer.ahead = lexer.ahead.length := by
  simp only [read?]
  split
  · rename_i hdrop
    have := Trivia.length_le lexer.ahead
    have := List.drop_eq_nil_iff.1 hdrop
    simp only [true_iff]
    omega
  · rename_i c cs hdrop
    have := congrArg List.length hdrop
    simp only [List.length_drop, List.length_cons] at this
    simp only [reduceCtorEq, false_iff]
    omega

/-- Trivia alone has no token but the end. -/
theorem tokens_of_trivia {lexer : Lexer}
    (h : Trivia.length lexer.ahead = lexer.ahead.length) :
    lexer.tokens = [Token.eofAt (lexer.offset + byteLength lexer.ahead)] := by
  rw [tokens_eq, read?_eq_none.2 h]

/-- Moving the lexer moves the token that it reads. -/
theorem read?_shift (lexer : Lexer) (n : Nat) :
    ({ lexer with offset := lexer.offset + n } : Lexer).read? =
      lexer.read?.map fun (token, after) ↦
        (token.move (.shift n), { after with offset := after.offset + n }) := by
  simp only [read?]
  split
  · rfl
  · simp only [Option.map_some, Token.move, Span.shift, Nat.add_right_comm]

/-- A text that lies elsewhere has the same tokens there. -/
theorem tokens_shift (lexer : Lexer) (n : Nat) :
    ({ lexer with offset := lexer.offset + n } : Lexer).tokens =
      lexer.tokens.map (·.move (.shift n)) := by
  fun_induction tokens lexer with
  | case1 lexer token after hread ih =>
    rw [tokens_of_read? (by rw [read?_shift, hread]; rfl), ih, List.map_cons]
  | case2 lexer hread =>
    rw [tokens_eq, read?_shift, hread]
    simp [Token.eofAt, Token.move, Span.shift, Span.point, atEnd, Nat.add_right_comm]

/-- The first lexer reads some tokens and then is the second one. -/
inductive Reads : Lexer → List Token → Lexer → Prop
  | nil (lexer : Lexer) : Reads lexer [] lexer
  | cons {lexer mid after : Lexer} {token : Token} {tokens : List Token} :
    lexer.read? = some (token, mid) → Reads mid tokens after → Reads lexer (token :: tokens) after

namespace Reads

variable {lexer after : Lexer} {ts : List Token}

/-- What has been read stands in front of what is left. -/
theorem tokens_eq (h : Reads lexer ts after) : lexer.tokens = ts ++ after.tokens := by
  induction h with
  | nil => rfl
  | cons hread _ ih => rw [tokens_of_read? hread, ih, List.cons_append]

/-- Whatever stands behind the tokens may be cut off. -/
theorem exists_text (h : Reads lexer ts after) : ∃ text, lexer.ahead = text ++ after.ahead ∧
    after.offset = lexer.offset + byteLength text ∧ after.finished = lexer.finished ∧
    ∀ zs, zs <+: after.ahead →
      Reads { lexer with ahead := text ++ zs } ts { after with ahead := zs } := by
  induction h with
  | nil lexer => exact ⟨[], rfl, rfl, rfl, fun zs _ ↦ .nil _⟩
  | @cons lexer mid after token ts hread _ ih =>
    obtain ⟨gap, text, hfinds⟩ := exists_finds hread
    obtain ⟨texts, hahead, hoffset, hfinished, hcut⟩ := ih
    refine ⟨gap ++ text ++ texts, ?_, ?_, hfinished.trans hfinds.finished, fun zs hzs ↦ ?_⟩
    · rw [hfinds.ahead, hahead, List.append_assoc, List.append_assoc]
    · rw [hoffset, hfinds.after_offset, hfinds.span]
      simp only [byteLength_append]
      omega
    · have htexts : texts ++ zs <+: mid.ahead := by
        rw [hahead]
        exact (List.prefix_append_right_inj texts).2 hzs
      rw [List.append_assoc, List.append_assoc]
      exact .cons (hfinds.cut _ htexts) (hcut zs hzs)

/-- The last token is read behind the others. -/
theorem exists_of_concat {t : Token} (h : Reads lexer (ts ++ [t]) after) :
    ∃ mid, Reads lexer ts mid ∧ mid.read? = some (t, after) := by
  induction ts generalizing lexer with
  | nil =>
    cases h with
    | cons hread hrest =>
      cases hrest
      exact ⟨lexer, .nil lexer, hread⟩
  | cons first ts ih =>
    cases h with
    | cons hread hrest =>
      obtain ⟨mid, hmid, hlast⟩ := ih hrest
      exact ⟨mid, .cons hread hmid, hlast⟩

end Reads

/-- The tokens of a text are read one after the other. -/
theorem exists_reads {lexer : Lexer} {ts us : List Token} {t : Token}
    (h : lexer.tokens = ts ++ t :: us) :
    ∃ after, Reads lexer ts after ∧ after.tokens = t :: us := by
  induction ts generalizing lexer with
  | nil => exact ⟨lexer, .nil lexer, h⟩
  | cons first ts ih =>
    cases hread : lexer.read? with
    | none =>
      rw [tokens_eq, hread] at h
      simp at h
    | some found =>
      obtain ⟨token, mid⟩ := found
      rw [tokens_of_read? hread, List.cons_append] at h
      obtain ⟨rfl, htokens⟩ := List.cons.inj h
      obtain ⟨after, hreads, hafter⟩ := ih htokens
      exact ⟨after, .cons hread hreads, hafter⟩

/-! ### The order of tokens -/

namespace Finds

variable {lexer after : Lexer} {gap text : List Char} {token : Token}

/-- A token does not start before the place of the lexer. -/
theorem offset_le_start (h : lexer.Finds gap text token after) :
    lexer.offset ≤ token.span.start := by
  rw [h.span]
  exact Nat.le_add_right _ _

/-- A token is not empty. -/
theorem start_lt_stop (h : lexer.Finds gap text token after) :
    token.span.start < token.span.stop := by
  rw [h.span]
  exact Nat.lt_add_of_pos_right (byteLength_pos h.text_ne_nil)

/-- Reading does not change where the text ends. -/
theorem offset_add_length (h : lexer.Finds gap text token after) :
    after.offset + byteLength after.ahead = lexer.offset + byteLength lexer.ahead := by
  rw [h.after_offset, h.span, h.ahead]
  simp only [byteLength_append]
  omega

end Finds

/-- No token starts before the place of the lexer. -/
theorem offset_le_start {lexer : Lexer} {t : Token} (h : t ∈ lexer.tokens) :
    lexer.offset ≤ t.span.start := by
  fun_induction tokens lexer with
  | case1 lexer token after hread ih =>
    obtain ⟨gap, text, hfinds⟩ := exists_finds hread
    rcases List.mem_cons.1 h with rfl | h
    · exact hfinds.offset_le_start
    · have := hfinds.offset_le_start
      have := hfinds.start_lt_stop
      have := hfinds.after_offset
      have := ih h
      omega
  | case2 lexer hread =>
    cases List.mem_singleton.1 h
    exact Nat.le_add_right _ _

/-- Every token lies in the text, and only the end of the batch takes no characters. -/
theorem span_of_mem_tokens {lexer : Lexer} {t : Token} (h : t ∈ lexer.tokens) :
    t.span.stop ≤ lexer.offset + byteLength lexer.ahead ∧
      (t.isEof = false → t.span.start < t.span.stop) := by
  fun_induction tokens lexer with
  | case1 lexer token after hread ih =>
    obtain ⟨gap, text, hfinds⟩ := exists_finds hread
    rcases List.mem_cons.1 h with rfl | h
    · refine ⟨?_, fun _ ↦ hfinds.start_lt_stop⟩
      rw [← hfinds.offset_add_length, hfinds.after_offset]
      exact Nat.le_add_right _ _
    · rw [← hfinds.offset_add_length]
      exact ih h
  | case2 lexer hread =>
    cases List.mem_singleton.1 h
    exact ⟨Nat.le_refl _, fun hopen ↦ nomatch hopen⟩

/-- Tokens come one behind the other. -/
theorem pairwise_tokens (lexer : Lexer) :
    lexer.tokens.Pairwise fun t u ↦ t.span.stop ≤ u.span.start := by
  fun_induction tokens lexer with
  | case1 lexer token after hread ih =>
    obtain ⟨gap, text, hfinds⟩ := exists_finds hread
    refine .cons (fun u hu ↦ ?_) ih
    rw [← hfinds.after_offset]
    exact offset_le_start hu
  | case2 lexer hread => exact List.pairwise_singleton _ _

/-- The end of the batch is the last token and no other. -/
theorem exists_eofAt (lexer : Lexer) : ∃ ts,
    lexer.tokens = ts ++ [.eofAt (lexer.offset + byteLength lexer.ahead)] ∧
      ∀ t ∈ ts, t.isEof = false := by
  fun_induction tokens lexer with
  | case1 lexer token after hread ih =>
    obtain ⟨gap, text, hfinds⟩ := exists_finds hread
    obtain ⟨ts, htokens, hts⟩ := ih
    refine ⟨token :: ts, ?_, List.forall_mem_cons.2 ⟨hfinds.isEof, hts⟩⟩
    rw [htokens, hfinds.offset_add_length, List.cons_append]
  | case2 lexer hread => exact ⟨[], rfl, fun _ ht ↦ nomatch ht⟩

/-! ### Excerpts -/

/-- The trivia in front of the first token may be skipped. -/
theorem exists_skip {lexer : Lexer} {t : Token} {us : List Token} (h : lexer.tokens = t :: us) :
    ∃ gap rest, lexer.ahead = gap ++ rest ∧ Trivia.length gap = gap.length ∧
      t.span.start = lexer.offset + byteLength gap ∧
      (⟨rest, t.span.start, lexer.finished⟩ : Lexer).tokens = t :: us := by
  cases hread : lexer.read? with
  | none =>
    rw [tokens_eq, hread] at h
    obtain ⟨rfl, rfl⟩ := List.cons.inj h
    refine ⟨lexer.ahead, [], (List.append_nil _).symm, read?_eq_none.1 hread, rfl, ?_⟩
    rw [tokens_of_trivia rfl]
    rfl
  | some found =>
    obtain ⟨token, after⟩ := found
    obtain ⟨gap, text, hfinds⟩ := exists_finds hread
    rw [tokens_of_read? hread] at h
    obtain ⟨rfl, rfl⟩ := List.cons.inj h
    refine ⟨gap, text ++ after.ahead, hfinds.ahead, hfinds.length_gap, ?_, ?_⟩
    · rw [hfinds.span]
    · exact tokens_of_read? hfinds.skip

/-- The text of the last token ends the text of all of them. -/
theorem Reads.trimEnd_text {lexer after : Lexer} {ts : List Token} {t : Token} {text : List Char}
    (h : Reads lexer (ts ++ [t]) after) (htext : lexer.ahead = text ++ after.ahead) :
    t.span.stop = after.offset ∧ (t.isError = false → text ≠ [] ∧ trimEnd text = text) := by
  obtain ⟨mid, hreads, hlast⟩ := h.exists_of_concat
  obtain ⟨before, hahead, -⟩ := hreads.exists_text
  obtain ⟨gap, last, hfinds⟩ := exists_finds hlast
  refine ⟨hfinds.after_offset.symm, ?_⟩
  intro hopen
  have htext : text = before ++ gap ++ last := by
    rw [hahead, hfinds.ahead] at htext
    simpa [← List.append_assoc] using htext.symm
  subst htext
  refine ⟨by simp [hfinds.text_ne_nil], ?_⟩
  rw [trimEnd_append, hfinds.trimEnd_text hopen, if_neg hfinds.text_ne_nil]

end Lexer

/-- The tokens of a text that lies further on. -/
theorem map_move_tokenize (cs : List Char) (n : Nat) :
    (tokenize (String.ofList cs)).map (·.move (.shift n)) =
      (⟨cs, n, false⟩ : Lexer).tokens := by
  have hshift := Lexer.tokens_shift (.ofSource (String.ofList cs)) n
  simp only [Lexer.ofSource, String.toList_ofList, Nat.zero_add] at hshift
  rw [tokenize, Lexer.ofSource, String.toList_ofList, ← hshift]

/-- A lexer that starts at one of the tokens of a text reads the tokens from there on. -/
theorem exists_restart {source : String} {before behind : List Token} {t : Token}
    (h : tokenize source = before ++ t :: behind) : ∃ front rest,
    source.toList = front ++ rest ∧ byteLength front = t.span.start ∧
      (⟨rest, t.span.start, false⟩ : Lexer).tokens = t :: behind := by
  obtain ⟨lexer, hbefore, htokens⟩ := Lexer.exists_reads h
  obtain ⟨front, hfront, hoffset, hfinished, -⟩ := hbefore.exists_text
  obtain ⟨gap, rest, hrest, -, hstart, htokens⟩ := Lexer.exists_skip htokens
  refine ⟨front ++ gap, rest, ?_, ?_, ?_⟩
  · rw [List.append_assoc, ← hrest]
    exact hfront
  · rw [byteLength_append, hstart, hoffset]
    exact congrArg (· + _) (Nat.zero_add _).symm
  · rw [← htokens, hfinished]
    rfl

/-- The text of some tokens of a batch, from the first of them up to the end of the last, and the
trivia behind it, which reaches up to the next token. -/
structure Excerpt (source : String) (first : Token) (more : List Token) (next : Token)
    (text gap : List Char) : Prop where
  source_eq : ∃ front rest, source.toList = front ++ (text ++ (gap ++ rest)) ∧
    byteLength front = first.span.start
  start_next : next.span.start = first.span.start + byteLength text + byteLength gap
  length_gap : Trivia.length gap = gap.length
  /-- With any trivia from behind it, the text is cut into the same tokens. -/
  tokenize_append : ∀ zs, zs <+: gap → Trivia.length zs = zs.length →
    (tokenize (String.ofList (text ++ zs))).map (·.move (.shift first.span.start)) =
      first :: more ++ [.eofAt (first.span.start + byteLength text + byteLength zs)]
  of_last : ∀ ts last, first :: more = ts ++ [last] →
    last.span.stop = first.span.start + byteLength text ∧
      (last.isError = false → text ≠ [] ∧ trimEnd text = text)

/-- **Any tokens of a batch that stand together have an excerpt.** -/
theorem exists_excerpt {source : String} {before more behind : List Token} {first next : Token}
    (h : tokenize source = before ++ (first :: more ++ next :: behind)) :
    ∃ text gap, Excerpt source first more next text gap := by
  rw [List.cons_append] at h
  obtain ⟨front, rest₀, hfront, hstart, htokens⟩ := exists_restart h
  rw [← List.cons_append] at htokens
  obtain ⟨after, hreads, hafter⟩ := Lexer.exists_reads htokens
  obtain ⟨text, htext, hend, -, hcut⟩ := hreads.exists_text
  obtain ⟨gap, rest, hrest, hgap, hnext, -⟩ := Lexer.exists_skip hafter
  simp only at hend
  refine ⟨text, gap, ⟨⟨front, rest, ?_, hstart⟩, ?_, hgap, fun zs hzs htrivia ↦ ?_, ?_⟩⟩
  · rw [← hrest, ← htext]
    exact hfront
  · rw [hnext, hend]
  · have hzs : zs <+: after.ahead := hrest ▸ hzs.trans (List.prefix_append gap rest)
    have hbehind : (⟨zs, after.offset, after.finished⟩ : Lexer).tokens = _ :=
      Lexer.tokens_of_trivia htrivia
    have htokens := (hcut zs hzs).tokens_eq
    rw [hbehind, hend] at htokens
    rw [map_move_tokenize, ← htokens]
  · intro ts last hlast
    rw [hlast] at hreads
    rw [← hend]
    exact hreads.trimEnd_text htext

end SqlBatch
