import SqlBatch.Proofs.Boundaries
import SqlBatch.Proofs.Excerpts
import SqlBatch.Proofs.Progress
import SqlBatch.Proofs.Raising

/-!
# The built-in dialect keeps its contract

Reading a batch in the built-in dialect never meets a violation, and every statement it finds is a
piece of the batch (`Statement.IsSound`): its text is cut at characters, and begins with the first
one of a token, which is no white space.

## What the contract asks for

Attempts have to answer with an index inside of the batch, at or behind the one where they start,
and with a tree or an error. The cursor gives the first: it moves forward and stops in front of the
end. The second is how an answer is made of an outcome.

## What a statement is

The span of a statement goes from the start of its first token to the start of the one that closes
it, and tokens start between characters. The text of the statement is what the span covers, without
the white space around it; the token at its start keeps it from being empty (`trim_ne_nil`). All of
it is proved of pieces, one statement at a time (`Splits.isSound_of_mem`), since the statements of a
batch are those of its pieces.
-/

namespace SqlBatch

/-! ### The first character of a statement -/

namespace Excerpt

variable {source : String} {first next : Token} {more : List Token} {text gap : List Char}

/-- An excerpt starts with its first token, so no white space stands there. -/
theorem exists_cons (h : Excerpt source first more next text gap) (hopen : first.isEof = false) :
    ∃ c cs, text = c :: cs ∧ isBlank c = false := by
  have htokens := h.tokenize_append [] (List.nil_prefix) rfl
  rw [List.append_nil, tokenize, Lexer.ofSource, String.toList_ofList, Lexer.tokens_eq] at htokens
  split at htokens
  · rename_i token after hread
    obtain ⟨skipped, c, cs, rfl, hskipped⟩ := Lexer.exists_of_read? hread
    rw [Lexer.read?_eq_some hskipped] at hread
    cases hread
    obtain ⟨hfirst, -⟩ := List.cons.inj htokens
    -- The token lies at the start of the excerpt, so nothing was skipped before it.
    have hstart : 0 + byteLength skipped + first.span.start = first.span.start :=
      congrArg (·.span.start) hfirst
    obtain rfl : skipped = [] := by
      by_contra hne
      have := byteLength_pos hne
      omega
    exact ⟨c, cs, rfl, Trivia.isBlank_eq_false_of_length hskipped⟩
  · obtain ⟨hfirst, -⟩ := List.cons.inj htokens
    rw [← hfirst] at hopen
    cases hopen

end Excerpt

/-- A text that does not start with white space is not empty without it. -/
theorem trim_ne_nil {c : Char} (h : isBlank c = false) (cs : List Char) : trim (c :: cs) ≠ [] := by
  rw [trim, List.dropWhile_cons_of_neg (by rw [h]; exact Bool.false_ne_true),
    trimEnd_cons_of_not_blank h]
  exact List.cons_ne_nil _ _

/-! ### Statements -/

/-- The tokens of the built-in dialect lie in order, and so do the statements (`Batch.Finishes`). -/
theorem Batch.isSorted_ofSource (source : String) : (Batch.ofSource source).IsSorted where
  pairwise := (isOrdered_ofSource source).increasing.imp Nat.le_of_lt
  start_eof := (isOrdered_ofSource source).start_eof

/-- The statement is a piece of the batch, with either a tree or an error. -/
structure Statement.IsSound (source : String) (s : Statement) : Prop where
  batch_eq : s.batch = source
  outcome : (∃ tree, s.tree? = some tree ∧ s.error? = none) ∨
    ∃ error, s.tree? = none ∧ s.error? = some error
  query_ne : s.query ≠ ""
  start_le_stop : s.span.start ≤ s.span.stop
  stop_le : s.span.stop ≤ source.utf8ByteSize
  isValid_start : (⟨s.span.start⟩ : String.Pos.Raw).IsValid source
  isValid_stop : (⟨s.span.stop⟩ : String.Pos.Raw).IsValid source

/-- A statement has a tree or an error, and not both. -/
theorem Statement.tree_or_error (s : Statement) :
    (∃ tree, s.tree? = some tree ∧ s.error? = none) ∨
      ∃ error, s.tree? = none ∧ s.error? = some error := by
  obtain ⟨batch, span, outcome⟩ := s
  cases outcome with
  | ok tree => exact .inl ⟨tree, rfl, rfl⟩
  | error error => exact .inr ⟨error, rfl, rfl⟩

/-- The statement of a piece is sound. -/
theorem Splits.isSound_of_mem {source : String} {ps : List Piece}
    (h : Splits (tokenize source) ps) {p : Piece} (hp : p ∈ ps) :
    (p.statement (.ofSource source)).IsSound source := by
  obtain ⟨before, behind, htokens, hread, hends⟩ := h.isRead_of_mem hp
  have hopen : p.first.isEof = false := by
    have hfirst := hread.endsStatement_eq_false hends p.first (.head _)
    exact (Bool.or_eq_false_iff.1 hfirst).2
  rw [Piece.tokens] at htokens
  obtain ⟨text, gap, hexcerpt⟩ := exists_excerpt htokens
  obtain ⟨front, rest, hsource, hfront⟩ := hexcerpt.source_eq
  have hchars := hexcerpt.chars_eq (List.prefix_refl gap)
  have hstop : p.first.span.start + byteLength (text ++ gap) = p.closing.span.start := by
    rw [hexcerpt.start_next, byteLength_append, Nat.add_assoc]
  rw [hstop] at hchars
  -- The statement is cut off behind a front of the text, so not inside of a character.
  have hvalid : (⟨p.closing.span.start⟩ : String.Pos.Raw).IsValid source := by
    have hsplit : source.toList = front ++ (text ++ gap) ++ rest := by
      rw [hsource]
      simp only [List.append_assoc]
    rw [← hstop, ← hfront, ← byteLength_append]
    exact isValid_byteLength hsplit
  refine ⟨rfl, Statement.tree_or_error _, ?_, ?_, hvalid.le_utf8ByteSize, ?_, hvalid⟩
  · obtain ⟨c, cs, rfl, hblank⟩ := hexcerpt.exists_cons hopen
    show String.ofList (trim ((Span.mk p.first.span.start p.closing.span.start).chars source)) ≠ ""
    rw [hchars, ← String.ofList_nil, Ne, String.ofList_inj]
    exact trim_ne_nil hblank _
  · rw [Piece.span_statement, ← hstop]
    exact Nat.le_add_right _ _
  · rw [Piece.span_statement, ← hfront]
    exact isValid_byteLength hsource

/-- **The built-in dialect keeps its contract.** Every batch has statements, all of them sound, and
raising errors comes to the same ones or to a syntax error. -/
theorem parseBatch_sound (source : String) : ∃ statements,
    parseBatch source false = .ok statements ∧ (∀ s ∈ statements, s.IsSound source) ∧
      (parseBatch source true = .ok statements ∨
        ∃ error, parseBatch source true = .error (.syntaxError error)) := by
  obtain ⟨ps, hps⟩ := exists_splits_tokenize source
  have hcollected := parseBatch_of_splits hps
  refine ⟨_, hcollected, List.forall_mem_map.2 fun p hp ↦ hps.isSound_of_mem hp, ?_⟩
  have hraises : Raises (parseBatch source false) (parseBatch source true) :=
    Configuration.raises_parse .crateDb source
  rw [hcollected] at hraises
  exact hraises.eq_or_of_ok

end SqlBatch
