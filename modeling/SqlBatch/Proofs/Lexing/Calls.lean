import SqlBatch.Proofs.Lexing.Tiling

/-!
# Mixed calls of one lexer

A lexer can be driven token by token, as a stream, or for all that is left, and calls of the three
kinds may follow each other in any order. Whatever the order, they share one reading of the text
(`Lexer.isOneReading_answers`).

## What a call leaves

That no token is lost and none is handed out twice rests on what a call leaves ahead, and holds of a
lexer in any state (`Lexer.Gives.unended`). It is proved of one call and carried over to a sequence
of them by induction on the calls.

## What a stream remembers

How often the stream hands out the end of the batch rests on the mark that it has ended, which calls
for single tokens neither look at nor set. So a single token can be asked for behind the end, and is
the end again; but what the stream hands out ends once (`Lexer.isEnded_answers`). All ends that are
handed out are at the same place, whichever call hands them out (`Lexer.isPastEnd_answers`).
-/

namespace SqlBatch

/-! ### The end of the batch among tokens -/

/-- The tokens without the end of the batch. -/
def unended (tokens : List Token) : List Token :=
  tokens.filter (!·.isEof)

/-- Leaving out the end of the batch goes part by part. -/
theorem unended_append (ts us : List Token) : unended (ts ++ us) = unended ts ++ unended us :=
  List.filter_append ts us

/-- Nothing stands behind the end of the batch, if it is there at all. -/
def IsEnded (tokens : List Token) : Prop :=
  tokens.Pairwise fun t _ ↦ t.isEof = false

/-- Behind a single token stands nothing. -/
theorem IsEnded.singleton (t : Token) : IsEnded [t] :=
  List.pairwise_singleton _ t

/-- Tokens before the end, in front of a list that is ended. -/
theorem IsEnded.append {ts us : List Token} (hts : ∀ t ∈ ts, t.isEof = false) (hus : IsEnded us) :
    IsEnded (ts ++ us) := by
  refine List.pairwise_append.2 ⟨?_, hus, fun t ht _ _ ↦ hts t ht⟩
  exact List.pairwise_of_forall_mem_list fun t ht _ _ ↦ hts t ht

/-- The end of the batch with nothing behind it is there once. -/
theorem IsEnded.countP_le_one {ts : List Token} (h : IsEnded ts) : ts.countP (·.isEof) ≤ 1 := by
  induction ts with
  | nil => exact Nat.zero_le 1
  | cons t ts ih =>
    obtain ⟨ht, hts⟩ := List.pairwise_cons.1 h
    rcases ts with _ | ⟨u, ts⟩
    · exact List.countP_le_length
    · rw [List.countP_cons_of_neg (by rw [ht u (.head _)]; exact Bool.false_ne_true)]
      exact ih hts

namespace Lexer

/-! ### What answers hand out -/

/-- The tokens that an answer hands out. -/
def Answer.tokens : Answer → List Token
  | .streamed t? => t?.toList
  | .token t => [t]
  | .rest ts => ts

/-- The tokens that an answer hands out as the next ones of the stream. -/
def Answer.elements : Answer → List Token
  | .streamed t? => t?.toList
  | .token _ => []
  | .rest ts => ts

/-! ### The tokens ahead -/

/-- What is ahead does not depend on whether the stream has ended. -/
theorem read?_mark (lexer : Lexer) (finished : Bool) :
    ({ lexer with finished } : Lexer).read? =
      lexer.read?.map fun (token, after) ↦ (token, { after with finished }) := by
  simp only [read?]
  split <;> rfl

/-- The tokens ahead do not depend on whether the stream has ended. -/
theorem tokens_mark (lexer : Lexer) (finished : Bool) :
    ({ lexer with finished } : Lexer).tokens = lexer.tokens := by
  fun_induction tokens lexer with
  | case1 lexer token after hread ih =>
    rw [tokens_of_read? (by rw [read?_mark, hread]; rfl), ih]
  | case2 lexer hread =>
    rw [tokens_eq, read?_mark, hread]
    rfl

/-- Behind the text there is the end alone. -/
theorem unended_tokens_of_nil {lexer : Lexer} (h : lexer.ahead = []) :
    unended lexer.tokens = [] := by
  rw [tokens_of_trivia (by rw [h]; rfl)]
  rfl

/-- The end of the batch stands behind all tokens ahead. -/
theorem isEnded_tokens (lexer : Lexer) : IsEnded lexer.tokens := by
  obtain ⟨ts, htokens, hopen⟩ := lexer.exists_eofAt
  rw [htokens]
  exact .append hopen (.singleton _)

/-! ### The three calls -/

variable {lexer after : Lexer} {t : Token}

/-- A single token, where there is one. -/
theorem nextToken_of_read? (h : lexer.read? = some (t, after)) : lexer.nextToken = (t, after) := by
  rw [nextToken, h]

/-- A single token, where there is none: the end of the batch. -/
theorem nextToken_of_read?_eq_none (h : lexer.read? = none) :
    lexer.nextToken = (.eofAt lexer.atEnd.offset, lexer.atEnd) := by
  rw [nextToken, h]

/-- The stream hands out a single token and remembers whether it was the end. -/
theorem next_of_unfinished (h : lexer.finished = false) :
    lexer.next = (some lexer.nextToken.1,
      { lexer.nextToken.2 with finished := lexer.nextToken.1.isEof }) := by
  rw [next, h]
  rfl

/-- A stream that has ended hands out nothing and stays as it is. -/
theorem next_of_finished (h : lexer.finished) : lexer.next = (none, lexer) := by
  rw [next, h]
  rfl

/-- All that is left, by which the stream ends. -/
theorem tokenize_of_unfinished (h : lexer.finished = false) :
    lexer.tokenize = (lexer.tokens, { lexer.atEnd with finished := true }) := by
  rw [tokenize, h]
  rfl

/-- Nothing is left of a stream that has ended. -/
theorem tokenize_of_finished (h : lexer.finished) : lexer.tokenize = ([], lexer) := by
  rw [tokenize, h]
  rfl

/-! ### One call -/

/-- What a call hands out, and what it leaves. -/
structure Gives (lexer : Lexer) (answer : Answer) (after : Lexer) : Prop where
  passes : ∃ passed, lexer.ahead = passed ++ after.ahead ∧
    after.offset = lexer.offset + byteLength passed
  /-- Nothing is lost and nothing stays that has been handed out. -/
  unended : unended answer.tokens ++ unended after.tokens = unended lexer.tokens
  /-- Nothing is left behind the end of the batch. -/
  ahead_eq_nil : (∃ t ∈ answer.tokens, t.isEof) → after.ahead = []
  of_finished : lexer.finished → answer.elements = [] ∧ after.finished
  of_unfinished : lexer.finished = false → IsEnded answer.elements ∧
    (after.finished = false → ∀ t ∈ answer.elements, t.isEof = false)

/-- A single token hands out the first one ahead. -/
theorem gives_of_read? (h : lexer.read? = some (t, after)) : lexer.Gives (.token t) after := by
  obtain ⟨gap, text, hfinds⟩ := exists_finds h
  have hopen : ∀ u ∈ [t], u.isEof = false := List.forall_mem_singleton.2 hfinds.isEof
  refine ⟨⟨gap ++ text, ?_, ?_⟩, ?_, ?_, fun hfinished ↦ ⟨rfl, ?_⟩, fun _ ↦ ⟨.nil, nofun⟩⟩
  · rw [hfinds.ahead, List.append_assoc]
  · rw [hfinds.after_offset, hfinds.span, byteLength_append, Nat.add_assoc]
  · show unended [t] ++ unended after.tokens = _
    rw [← unended_append, tokens_of_read? h]
    rfl
  · rintro ⟨u, hu, heof⟩
    rw [hopen u hu] at heof
    exact Bool.noConfusion heof
  · rw [hfinds.finished, hfinished]

/-- A single token at the end hands out the end. -/
theorem gives_of_read?_eq_none (h : lexer.read? = none) :
    lexer.Gives (.token (.eofAt lexer.atEnd.offset)) lexer.atEnd := by
  refine ⟨⟨lexer.ahead, (List.append_nil _).symm, rfl⟩, ?_, fun _ ↦ rfl,
    fun hfinished ↦ ⟨rfl, hfinished⟩, fun _ ↦ ⟨.nil, nofun⟩⟩
  rw [unended_tokens_of_nil rfl, tokens_eq, h]
  rfl

/-- A call for a single token, anywhere. -/
theorem gives_nextToken (lexer : Lexer) :
    lexer.Gives (.token lexer.nextToken.1) lexer.nextToken.2 := by
  rcases hread : lexer.read? with _ | ⟨t, after⟩
  · rw [nextToken_of_read?_eq_none hread]
    exact gives_of_read?_eq_none hread
  · rw [nextToken_of_read? hread]
    exact gives_of_read? hread

/-- A single token as an element of the stream. -/
theorem Gives.streamed (h : lexer.Gives (.token t) after) (hfinished : lexer.finished = false) :
    lexer.Gives (.streamed (some t)) { after with finished := t.isEof } where
  passes := h.passes
  unended := by
    rw [tokens_mark]
    exact h.unended
  ahead_eq_nil := h.ahead_eq_nil
  of_finished hmark := by
    rw [hfinished] at hmark
    exact Bool.noConfusion hmark
  of_unfinished _ := ⟨.singleton t, fun hopen ↦ List.forall_mem_singleton.2 hopen⟩

/-- Where the stream has ended, it hands out nothing. -/
theorem gives_nothing {answer : Answer} (hfinished : lexer.finished) (h : answer.tokens = [])
    (helements : answer.elements = []) : lexer.Gives answer lexer where
  passes := ⟨[], rfl, rfl⟩
  unended := by
    rw [h]
    rfl
  ahead_eq_nil := by
    rw [h]
    rintro ⟨t, ht, -⟩
    exact absurd ht List.not_mem_nil
  of_finished _ := ⟨helements, hfinished⟩
  of_unfinished hmark := by
    rw [hfinished] at hmark
    exact Bool.noConfusion hmark

/-- A call for all that is left. -/
theorem gives_tokens (hfinished : lexer.finished = false) :
    lexer.Gives (.rest lexer.tokens) { lexer.atEnd with finished := true } where
  passes := ⟨lexer.ahead, (List.append_nil _).symm, rfl⟩
  unended := by
    rw [unended_tokens_of_nil rfl]
    exact List.append_nil _
  ahead_eq_nil _ := rfl
  of_finished hmark := by
    rw [hfinished] at hmark
    exact Bool.noConfusion hmark
  of_unfinished _ := ⟨lexer.isEnded_tokens, fun hmark ↦ Bool.noConfusion hmark⟩

/-- **What a call does**, whatever the state of the lexer. -/
theorem gives_answer (lexer : Lexer) (call : Call) :
    lexer.Gives (lexer.answer call).1 (lexer.answer call).2 := by
  rcases hfinished : lexer.finished with _ | _
  · rcases call with _ | _ | _
    · rw [answer, next_of_unfinished hfinished]
      exact lexer.gives_nextToken.streamed hfinished
    · exact lexer.gives_nextToken
    · rw [answer, tokenize_of_unfinished hfinished]
      exact gives_tokens hfinished
  · rcases call with _ | _ | _
    · rw [answer, next_of_finished hfinished]
      exact gives_nothing hfinished rfl rfl
    · exact lexer.gives_nextToken
    · rw [answer, tokenize_of_finished hfinished]
      exact gives_nothing hfinished rfl rfl

/-- The end of the text stays where it is. -/
theorem Gives.offset_atEnd {answer : Answer} (h : lexer.Gives answer after) :
    after.atEnd.offset = lexer.atEnd.offset := by
  obtain ⟨passed, hahead, hoffset⟩ := h.passes
  show after.offset + byteLength after.ahead = lexer.offset + byteLength lexer.ahead
  rw [hahead, hoffset, byteLength_append, Nat.add_assoc]

/-- Behind the text, no call leaves anything ahead. -/
theorem Gives.ahead_of_nil {answer : Answer} (h : lexer.Gives answer after)
    (hnil : lexer.ahead = []) : after.ahead = [] := by
  obtain ⟨passed, hahead, -⟩ := h.passes
  exact (List.append_eq_nil_iff.1 (hahead.symm.trans hnil)).2

/-- Behind the text, a single token is the end of the batch. -/
theorem nextToken_of_nil (h : lexer.ahead = []) :
    lexer.nextToken = (.eofAt lexer.atEnd.offset, lexer.atEnd) :=
  nextToken_of_read?_eq_none (read?_eq_none.2 (by rw [h]; rfl))

/-- Where the stream has ended, nothing is left of it. -/
theorem tokenize_of_next_eq_none (h : lexer.next = (none, after)) :
    lexer.tokenize = ([], after) := by
  rcases hfinished : lexer.finished with _ | _
  · rw [next_of_unfinished hfinished] at h
    cases h
  · rw [next_of_finished hfinished] at h
    rw [tokenize_of_finished hfinished, (Prod.mk.inj h).2]

/-- **All that is left are the elements of the stream**, one after the other. -/
theorem tokenize_of_next_eq_some (h : lexer.next = (some t, after)) :
    lexer.tokenize = (t :: after.tokenize.1, after.tokenize.2) := by
  rcases hfinished : lexer.finished with _ | _
  · rw [next_of_unfinished hfinished] at h
    obtain ⟨ht, rfl⟩ := Prod.mk.inj h
    obtain rfl := Option.some.inj ht
    rw [tokenize_of_unfinished hfinished]
    rcases hread : lexer.read? with _ | ⟨token, rest⟩
    · rw [nextToken_of_read?_eq_none hread, tokens_eq, hread]
      rfl
    · obtain ⟨gap, text, hfinds⟩ := exists_finds hread
      have hend : rest.atEnd.offset = lexer.atEnd.offset := (gives_of_read? hread).offset_atEnd
      have hrest : ({ rest with finished := token.isEof } : Lexer).tokenize =
          (rest.tokens, { rest.atEnd with finished := true }) := by
        rw [tokenize_of_unfinished hfinds.isEof, tokens_mark]
        rfl
      rw [nextToken_of_read? hread, hrest, tokens_of_read? hread]
      -- Both lexers are behind the text, so that only their offsets are to be compared.
      show (_, (⟨[], _, true⟩ : Lexer)) = (_, ⟨[], rest.atEnd.offset, true⟩)
      rw [hend]
  · rw [next_of_finished hfinished] at h
    cases h

/-- What may be answered where the end of the batch, at an offset, has been handed out. -/
def Answer.IsPastEnd (offset : Nat) (call? : Option Call) (answer : Answer) : Prop :=
  (∀ t ∈ answer.tokens, t = .eofAt offset) ∧
    (call? = some .nextToken → answer = .token (.eofAt offset))

/-- Behind its text, a lexer hands out the end of the batch and nothing else. -/
theorem isPastEnd_answer (h : lexer.ahead = []) (call : Call) :
    (lexer.answer call).1.IsPastEnd lexer.atEnd.offset (some call) := by
  have hnext := nextToken_of_nil h
  have htokens : lexer.tokens = [.eofAt lexer.atEnd.offset] :=
    tokens_of_trivia (by rw [h]; rfl)
  have hnothing : ∀ t ∈ ([] : List Token), t = .eofAt lexer.atEnd.offset := nofun
  have hend : ∀ t ∈ [Token.eofAt lexer.atEnd.offset], t = .eofAt lexer.atEnd.offset :=
    List.forall_mem_singleton.2 rfl
  rcases call with _ | _ | _
  · refine ⟨?_, nofun⟩
    rcases hfinished : lexer.finished with _ | _
    · rw [answer, next_of_unfinished hfinished, hnext]
      exact hend
    · rw [answer, next_of_finished hfinished]
      exact hnothing
  · rw [answer, hnext]
    exact ⟨hend, fun _ ↦ rfl⟩
  · refine ⟨?_, nofun⟩
    rcases hfinished : lexer.finished with _ | _
    · rw [answer, tokenize_of_unfinished hfinished, htokens]
      exact hend
    · rw [answer, tokenize_of_finished hfinished]
      exact hnothing

/-! ### Many calls -/

/-- There are as many answers as calls. -/
theorem length_answers (lexer : Lexer) (calls : List Call) :
    (lexer.answers calls).length = calls.length := by
  induction calls generalizing lexer with
  | nil => rfl
  | cons call calls ih => exact congrArg (· + 1) (ih _)

/-- What is handed out is what is ahead, up to some token. -/
theorem unended_answers (lexer : Lexer) (calls : List Call) :
    unended ((lexer.answers calls).flatMap Answer.tokens) <+: unended lexer.tokens := by
  induction calls generalizing lexer with
  | nil => exact List.nil_prefix
  | cons call calls ih =>
    rw [answers, List.flatMap_cons, unended_append, ← (lexer.gives_answer call).unended]
    exact (List.prefix_append_right_inj _).2 (ih _)

/-- A stream that has ended hands out nothing more, whatever is called. -/
theorem elements_answers_of_finished {lexer : Lexer} (h : lexer.finished) (calls : List Call) :
    (lexer.answers calls).flatMap Answer.elements = [] := by
  induction calls generalizing lexer with
  | nil => rfl
  | cons call calls ih =>
    obtain ⟨hnone, hafter⟩ := (lexer.gives_answer call).of_finished h
    rw [answers, List.flatMap_cons, hnone, ih hafter]
    rfl

/-- **The end is handed out last.** Behind it the stream hands out nothing. -/
theorem isEnded_answers (lexer : Lexer) (calls : List Call) :
    IsEnded ((lexer.answers calls).flatMap Answer.elements) := by
  induction calls generalizing lexer with
  | nil => exact .nil
  | cons call calls ih =>
    rcases hfinished : lexer.finished with _ | _
    · obtain ⟨hended, hopen⟩ := (lexer.gives_answer call).of_unfinished hfinished
      rw [answers, List.flatMap_cons]
      -- The end of the batch comes with the mark, and behind the mark there are no elements.
      rcases hafter : (lexer.answer call).2.finished with _ | _
      · exact .append (hopen hafter) (ih _)
      · rw [elements_answers_of_finished hafter, List.append_nil]
        exact hended
    · rw [elements_answers_of_finished hfinished]
      exact .nil

/-- **All ends are one.** Behind the text, every call hands out the same end or nothing. -/
theorem isPastEnd_answers {lexer : Lexer} (h : lexer.ahead = []) (calls : List Call) {j : Nat}
    {answer : Answer} (hanswer : (lexer.answers calls)[j]? = some answer) :
    answer.IsPastEnd lexer.atEnd.offset calls[j]? := by
  induction calls generalizing lexer j with
  | nil => exact absurd hanswer (by rw [answers]; exact nofun)
  | cons call calls ih =>
    have hgives := lexer.gives_answer call
    rcases j with _ | j
    · obtain rfl := Option.some.inj hanswer
      exact isPastEnd_answer h call
    · rw [← hgives.offset_atEnd]
      exact ih (hgives.ahead_of_nil h) hanswer

/-- Once the end of the batch has been handed out, nothing else is. -/
theorem isPastEnd_of_lt {lexer : Lexer} (calls : List Call) {i j : Nat} (hlt : i < j)
    {earlier later : Answer} (hearlier : (lexer.answers calls)[i]? = some earlier)
    (heof : ∃ t ∈ earlier.tokens, t.isEof) (hlater : (lexer.answers calls)[j]? = some later) :
    later.IsPastEnd lexer.atEnd.offset calls[j]? := by
  induction calls generalizing lexer i j with
  | nil => exact absurd hearlier (by rw [answers]; exact nofun)
  | cons call calls ih =>
    obtain ⟨j, rfl⟩ : ∃ k, j = k + 1 := ⟨j - 1, by omega⟩
    have hgives := lexer.gives_answer call
    rw [← hgives.offset_atEnd]
    rcases i with _ | i
    · obtain rfl := Option.some.inj hearlier
      exact isPastEnd_answers (hgives.ahead_eq_nil heof) calls hlater
    · exact ih (Nat.lt_of_succ_lt_succ hlt) hearlier hlater

/-- The answers to calls of one lexer share one reading of the text. -/
structure IsOneReading (source : String) (calls : List Call) (answers : List Answer) : Prop where
  length_eq : answers.length = calls.length
  /-- No token is lost and none is handed out twice. -/
  unended : unended (answers.flatMap Answer.tokens) <+: unended (SqlBatch.tokenize source)
  /-- The stream hands out the end of the batch once, -/
  countP_le_one : (answers.flatMap Answer.elements).countP (·.isEof) ≤ 1
  /-- and nothing behind it. -/
  isEnded : IsEnded (answers.flatMap Answer.elements)
  /-- Behind an answer with the end of the batch, there is nothing but that end. -/
  isPastEnd : ∀ i j : Nat, i < j → ∀ earlier later : Answer, answers[i]? = some earlier →
    (∃ t ∈ earlier.tokens, t.isEof) → answers[j]? = some later →
      later.IsPastEnd source.utf8ByteSize calls[j]?

/-- **Mixed calls of one lexer lose and repeat nothing**, in whatever order they come. -/
theorem isOneReading_answers (source : String) (calls : List Call) :
    IsOneReading source calls ((ofSource source).answers calls) where
  length_eq := length_answers _ calls
  unended := unended_answers _ calls
  countP_le_one := (isEnded_answers _ calls).countP_le_one
  isEnded := isEnded_answers _ calls
  isPastEnd i j hlt earlier later hearlier heof hlater := by
    have hend : (ofSource source).atEnd.offset = source.utf8ByteSize := by
      show 0 + byteLength source.toList = _
      rw [Nat.zero_add, ← utf8ByteSize_ofList, String.ofList_toList]
    exact hend ▸ isPastEnd_of_lt calls hlt hearlier heof hlater

end Lexer

end SqlBatch
