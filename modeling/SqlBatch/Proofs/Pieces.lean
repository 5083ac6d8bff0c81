import SqlBatch.Proofs.Attempt
import SqlBatch.Statement

/-!
# The pieces of a batch

What a batch is split into, said without offsets and without a loop: `Splits` relates a list of
tokens to the pieces that are read as statements. Every list that ends with its only end of the
batch splits (`exists_splits`).

## What a piece is

A piece has the tokens of one statement, the token that closes it, and what came of reading it. Two
conditions are kept apart. `Piece.IsBounded` says where it ends: at the token where reading stopped,
if the statement was read, and otherwise at the first token behind that one where a statement ends
or may start. `Piece.IsRead` says in addition that its result is what reading answers.

## What it depends on

What is read of a piece depends neither on where it lies (`Splits.move`, `Splits.of_map`) nor on
what closes it and stands behind (`Piece.IsRead.close`). These are what the theorems on batches use:
a batch is taken apart into its pieces, these are moved or closed in another way, and another batch
is put together from them.
-/

namespace SqlBatch

/-- The tokens of one statement, with what came of reading it. -/
structure Piece where
  first : Token
  more : List Token
  /-- The token where the statement ends. It is no part of it. -/
  closing : Token
  result : Except SyntaxError.Cause Command
  /-- The index of the token where reading stopped, counted from the first one. -/
  stop : Nat

namespace Piece

/-- All tokens of the statement. -/
def tokens (p : Piece) : List Token :=
  p.first :: p.more

/-- The token where reading stopped. -/
def stopped (p : Piece) : Token :=
  (p.tokens.drop p.stop).headD p.closing

/-- The statement of a batch that the piece is. -/
def statement (index : LineIndex) (p : Piece) : Statement where
  batch := index.source
  span := ⟨p.first.span.start, p.closing.span.start⟩
  outcome :=
    match p.result with
    | .ok tree => .ok tree
    | .error cause =>
      .error (.ofSyntaxError (.atToken cause p.stopped) p.first.span.start index)

/-- A statement is read if its piece is. -/
@[simp] theorem isOk_statement (index : LineIndex) (p : Piece) :
    (p.statement index).isOk = p.result.isOk := by
  rw [statement, Statement.isOk]
  cases p.result <;> rfl

/-- A statement goes up to the token that closes its piece. -/
@[simp] theorem span_statement (index : LineIndex) (p : Piece) :
    (p.statement index).span = ⟨p.first.span.start, p.closing.span.start⟩ := rfl

/-- The tree of a statement is the result of its piece. -/
theorem tree?_statement_eq_some {index : LineIndex} {p : Piece} {tree : Command} :
    (p.statement index).tree? = some tree ↔ p.result = .ok tree := by
  rw [statement, Statement.tree?]
  cases p.result <;> simp [Except.toOption]

/-- The error of a statement is the failure of its piece, at the token where reading stopped. -/
theorem error?_statement_eq_some {index : LineIndex} {p : Piece} {e : LocatedError} :
    (p.statement index).error? = some e ↔ ∃ cause, p.result = .error cause ∧
      .ofSyntaxError (.atToken cause p.stopped) p.first.span.start index = e := by
  rw [statement, Statement.error?]
  cases p.result <;> simp

/-- Where the statement ends: where reading stopped if a statement ends there, or else at the next
token where one ends or starts. -/
inductive IsBounded (p : Piece) : Prop
  | atEnd : p.stop = p.tokens.length → p.closing.endsStatement → IsBounded p
  | beyond : p.stop < p.tokens.length →
    (∀ t ∈ p.tokens.drop p.stop, t.endsStatement = false) →
    (∀ t ∈ p.tokens.drop (p.stop + 1), t.startsStatement = false) →
    (p.closing.endsStatement ∨ p.closing.startsStatement) → IsBounded p

/-- The piece is what becomes of its tokens in front of others. -/
structure IsRead (p : Piece) (behind : List Token) : Prop where
  attempt : readFirst (p.tokens ++ p.closing :: behind) = (p.result, p.stop)
  bounded : p.IsBounded

end Piece

/-- The tokens are those of the pieces, with semicolons between them and the end of the batch behind
the last one. -/
inductive Splits : List Token → List Piece → Prop
  | nil {eof : Token} : eof.isEof → Splits [eof] []
  | skip {t : Token} {ts : List Token} {ps : List Piece} :
    t.isSymbol .semicolon → Splits ts ps → Splits (t :: ts) ps
  | cons {p : Piece} {behind : List Token} {ps : List Piece} :
    p.IsRead behind → Splits (p.closing :: behind) ps →
    Splits (p.tokens ++ p.closing :: behind) (p :: ps)

namespace Splits

variable {ts : List Token} {ps : List Piece}

theorem exists_endsStatement (h : Splits ts ps) : ∃ t ∈ ts, t.endsStatement := by
  induction h with
  | @nil eof heof => exact ⟨eof, List.mem_singleton_self _, Token.endsStatement_of_isEof heof⟩
  | @skip t ts ps ht _ _ => exact ⟨t, List.mem_cons_self, Token.endsStatement_of_isSemicolon ht⟩
  | cons _ _ ih =>
    obtain ⟨t, ht, hends⟩ := ih
    exact ⟨t, List.mem_append_right _ ht, hends⟩

/-- Every piece is read in its place among the tokens. -/
theorem isRead_of_mem (h : Splits ts ps) {p : Piece} (hp : p ∈ ps) : ∃ before behind,
    ts = before ++ (p.tokens ++ p.closing :: behind) ∧ p.IsRead behind ∧
      ∃ t ∈ p.closing :: behind, t.endsStatement := by
  induction h with
  | nil => cases hp
  | @skip t ts ps _ _ ih =>
    obtain ⟨before, behind, rfl, h⟩ := ih hp
    exact ⟨t :: before, behind, rfl, h⟩
  | @cons q behind ps hread hrest ih =>
    rcases List.mem_cons.1 hp with rfl | hp
    · exact ⟨[], behind, rfl, hread, hrest.exists_endsStatement⟩
    · obtain ⟨before, behind', hbehind, h⟩ := ih hp
      exact ⟨q.tokens ++ before, behind', by rw [hbehind, List.append_assoc], h⟩

end Splits

/-! ### What a piece is made of -/

namespace Piece

variable {p : Piece} {behind : List Token}

/-- Reading stops inside of a piece, or in front of the token that closes it. -/
theorem IsBounded.stop_le (h : p.IsBounded) : p.stop ≤ p.tokens.length := by
  cases h with
  | atEnd hstop => exact Nat.le_of_eq hstop
  | beyond hstop => exact Nat.le_of_lt hstop

theorem IsBounded.length_take (h : p.IsBounded) : (p.tokens.take p.stop).length = p.stop := by
  rw [List.length_take, Nat.min_eq_left h.stop_le]

/-- Where all tokens of a piece are passed, reading stops at the closing one. -/
theorem stopped_of_stop_eq (h : p.stop = p.tokens.length) : p.stopped = p.closing := by
  rw [stopped, h, List.drop_length, List.headD_nil]

theorem drop_stop_eq_cons (h : p.stop < p.tokens.length) :
    p.tokens.drop p.stop = p.stopped :: p.tokens.drop (p.stop + 1) := by
  rw [List.drop_eq_getElem_cons h, stopped, List.drop_eq_getElem_cons h, List.headD_cons]

/-- If a statement ends where reading stopped, then no tokens are left. -/
theorem IsBounded.stop_eq_of_endsStatement (h : p.IsBounded) (hends : p.stopped.endsStatement) :
    p.stop = p.tokens.length := by
  cases h with
  | atEnd hstop => exact hstop
  | beyond hstop hopen =>
    rw [drop_stop_eq_cons hstop] at hopen
    have := hopen p.stopped (.head _)
    rw [hends] at this
    cases this

/-- The last one of a list of tokens stands behind those of a piece. -/
theorem exists_init {ts : List Token} {last : Token}
    (h : ts ++ [last] = p.tokens ++ p.closing :: behind) :
    ∃ init, ts = p.tokens ++ init ∧ p.closing :: behind = init ++ [last] := by
  obtain ⟨init, last', hlast⟩ : ∃ init last', p.closing :: behind = init ++ [last'] :=
    ⟨_, _, (List.dropLast_concat_getLast (List.cons_ne_nil _ _)).symm⟩
  rw [hlast, ← List.append_assoc] at h
  obtain ⟨hinit, hlast'⟩ := List.append_inj' h rfl
  obtain rfl : last = last' := List.singleton_inj.1 hlast'
  exact ⟨init, hinit, hlast⟩

theorem exists_eq_append_stopped (p : Piece) (behind : List Token) : ∃ rest,
    p.tokens ++ p.closing :: behind = p.tokens.take p.stop ++ p.stopped :: rest := by
  cases hdrop : p.tokens.drop p.stop with
  | nil =>
    refine ⟨behind, ?_⟩
    rw [stopped, hdrop, List.headD_nil, List.take_of_length_le (List.drop_eq_nil_iff.1 hdrop)]
  | cons t ts =>
    refine ⟨ts ++ p.closing :: behind, ?_⟩
    rw [stopped, hdrop, List.headD_cons, ← List.cons_append, ← hdrop, ← List.append_assoc,
      List.take_append_drop]

namespace IsRead

/-- Reading passes the tokens in front of the one where it stopped, and if it succeeds, the
statement ends there. -/
theorem passes (h : p.IsRead behind) (hends : ∃ t ∈ p.closing :: behind, t.endsStatement) :
    (∀ t ∈ p.tokens.take p.stop, t.isOpen) ∧ (p.result.isOk → p.stopped.endsStatement) := by
  obtain ⟨t, ht, hends⟩ := hends
  obtain ⟨passed, token, rest, htokens, hstop, hopen, hok⟩ :=
    exists_passed_readFirst ⟨t, List.mem_append_right p.tokens ht, hends⟩
  rw [h.attempt] at hstop hok
  obtain ⟨rest', hsplit⟩ := p.exists_eq_append_stopped behind
  rw [hsplit] at htokens
  have hlength : (p.tokens.take p.stop).length = passed.length :=
    h.bounded.length_take.trans hstop
  obtain ⟨htake, hrest⟩ := List.append_inj htokens hlength
  obtain ⟨hstopped, -⟩ := List.cons.inj hrest
  rw [htake, hstopped]
  exact ⟨hopen, hok⟩

/-- No statement ends inside the piece. -/
theorem endsStatement_eq_false (h : p.IsRead behind)
    (hends : ∃ t ∈ p.closing :: behind, t.endsStatement) :
    ∀ t ∈ p.tokens, t.endsStatement = false := by
  intro t ht
  rw [← List.take_append_drop p.stop p.tokens, List.mem_append] at ht
  rcases ht with ht | ht
  · have hopen := (h.passes hends).1 t ht
    simp only [Token.isOpen, Bool.and_eq_true, Bool.not_eq_true'] at hopen
    exact hopen.1
  · cases h.bounded with
    | atEnd hstop =>
      rw [hstop, List.drop_length] at ht
      cases ht
    | beyond _ hdrop => exact hdrop t ht

/-- A statement that is read ends where reading stopped. -/
theorem stop_eq_of_isOk (h : p.IsRead behind)
    (hends : ∃ t ∈ p.closing :: behind, t.endsStatement) (hok : p.result.isOk) :
    p.stop = p.tokens.length ∧ p.closing.endsStatement := by
  have hstopped := (h.passes hends).2 hok
  have hstop := h.bounded.stop_eq_of_endsStatement hstopped
  exact ⟨hstop, stopped_of_stop_eq hstop ▸ hstopped⟩

/-- A statement that is not read fails with a wording that quotes a token. -/
theorem isQuoting (h : p.IsRead behind) {cause : SyntaxError.Cause}
    (hcause : p.result = .error cause) : cause.IsQuoting :=
  isQuoting_of_readFirst ((congrArg Prod.fst h.attempt).trans hcause)

end IsRead

end Piece

/-! ### Pieces that lie elsewhere -/

namespace Piece

/-- The piece with its tokens at other places. -/
def move (place : Span → Span) (p : Piece) : Piece where
  first := p.first.move place
  more := p.more.map (·.move place)
  closing := p.closing.move place
  result := p.result.map (Command.relabel ⟨place, fun p ↦ p⟩)
  stop := p.stop

variable {place : Span → Span} {p : Piece}

/-- The tokens of a piece that is moved. -/
theorem tokens_move : (p.move place).tokens = p.tokens.map (·.move place) := rfl

theorem stopped_move : (p.move place).stopped = p.stopped.move place := by
  rw [stopped, stopped, tokens_move, ← List.map_drop, move]
  cases p.tokens.drop p.stop <;> rfl

theorem isBounded_move : (p.move place).IsBounded ↔ p.IsBounded := by
  have hlength : (p.move place).tokens.length = p.tokens.length := by
    rw [tokens_move, List.length_map]
  have hdrop (n : Nat) (P : Token → Prop) : (∀ t ∈ (p.move place).tokens.drop n, P t) ↔
      ∀ t ∈ p.tokens.drop n, P (t.move place) := by
    rw [tokens_move, ← List.map_drop, List.forall_mem_map]
  constructor
  · rintro (⟨hstop, hclosing⟩ | ⟨hstop, hends, hstarts, hclosing⟩)
    · exact .atEnd (hstop.trans hlength) hclosing
    · exact .beyond (hlength ▸ hstop) ((hdrop _ _).1 hends) ((hdrop _ _).1 hstarts) hclosing
  · rintro (⟨hstop, hclosing⟩ | ⟨hstop, hends, hstarts, hclosing⟩)
    · exact .atEnd (hstop.trans hlength.symm) hclosing
    · exact .beyond (hlength.symm ▸ hstop) ((hdrop _ _).2 hends) ((hdrop _ _).2 hstarts) hclosing

/-- What is read of a piece is read of it anywhere else. -/
theorem IsRead.move (hplace : ∀ s t : Span, place (s.through t) = (place s).through (place t))
    {behind : List Token} (h : p.IsRead behind)
    (hends : ∃ t ∈ p.closing :: behind, t.endsStatement) :
    (p.move place).IsRead (behind.map (·.move place)) where
  attempt := by
    obtain ⟨t, ht, hends⟩ := hends
    have hread := readFirst_map hplace ⟨t, List.mem_append_right p.tokens ht, hends⟩
    rw [h.attempt, List.map_append, List.map_cons] at hread
    exact hread
  bounded := isBounded_move.2 h.bounded

end Piece

/-- Tokens that are moved split into pieces that are moved. -/
theorem Splits.move {place : Span → Span}
    (hplace : ∀ s t : Span, place (s.through t) = (place s).through (place t))
    {ts : List Token} {ps : List Piece} (h : Splits ts ps) :
    Splits (ts.map (·.move place)) (ps.map (·.move place)) := by
  induction h with
  | nil heof => exact .nil heof
  | skip hsemicolon _ ih => exact .skip hsemicolon ih
  | cons hread hrest ih =>
    rw [List.map_append]
    exact .cons (hread.move hplace hrest.exists_endsStatement) ih

/-- Tokens split as they do at any other place. -/
theorem Splits.of_map {place : Span → Span}
    (hplace : ∀ s t : Span, place (s.through t) = (place s).through (place t))
    {ts : List Token} {ps : List Piece} (h : Splits (ts.map (·.move place)) ps) :
    ∃ qs, Splits ts qs ∧ ps = qs.map (·.move place) := by
  generalize htokens : ts.map (·.move place) = us at h
  induction h generalizing ts with
  | @nil eof heof =>
    obtain ⟨t, rfl, rfl⟩ := List.map_eq_singleton_iff.1 htokens
    exact ⟨[], .nil heof, rfl⟩
  | @skip t us ps hsemicolon _ ih =>
    obtain ⟨t, ts, rfl, rfl, hrest⟩ := List.map_eq_cons_iff.1 htokens
    obtain ⟨qs, hqs, rfl⟩ := ih hrest
    exact ⟨qs, .skip hsemicolon hqs, rfl⟩
  | @cons p behind ps hread hrest ih =>
    obtain ⟨inside, ts, rfl, hinside, hclosing⟩ := List.map_eq_append_iff.1 htokens
    obtain ⟨qs, hqs, rfl⟩ := ih hclosing
    obtain ⟨first', more', closing', result, stop⟩ := p
    obtain ⟨first, more, rfl, rfl, rfl⟩ := List.map_eq_cons_iff.1 hinside
    obtain ⟨closing, behind, rfl, rfl, rfl⟩ := List.map_eq_cons_iff.1 hclosing
    have hends : ∃ t ∈ first :: more ++ closing :: behind, t.endsStatement := by
      obtain ⟨t, ht, hends⟩ := hqs.exists_endsStatement
      exact ⟨t, List.mem_append_right _ ht, hends⟩
    have hattempt := hread.attempt
    rw [← htokens, readFirst_map hplace hends] at hattempt
    obtain ⟨rfl, rfl⟩ := Prod.mk.inj hattempt
    let answer := readFirst (first :: more ++ closing :: behind)
    -- The piece in place of which the moved one was read.
    let q : Piece := ⟨first, more, closing, answer.1, answer.2⟩
    exact ⟨q :: qs, .cons (p := q) ⟨rfl, Piece.isBounded_move.1 hread.bounded⟩ hqs, rfl⟩

/-! ### Pieces that end elsewhere -/

namespace Piece

/-- The piece with its end at another token. -/
def close (closing : Token) (p : Piece) : Piece :=
  { p with closing }

variable {p : Piece} {behind : List Token} {closing : Token}

theorem stopped_close (h : p.stop < p.tokens.length) : (p.close closing).stopped = p.stopped := by
  have hdrop := drop_stop_eq_cons h
  rw [stopped]
  show (p.tokens.drop p.stop).headD closing = _
  rw [hdrop, List.headD_cons]

/-- Reading that stopped inside the piece depends on no more than the next token. -/
theorem IsRead.readFirst_take (h : p.IsRead behind) (hstop : p.stop < p.tokens.length)
    {rest : List Token} (hrest : rest.headD (.eofAt 0) =
      (p.tokens.drop (p.stop + 1) ++ p.closing :: behind).headD (.eofAt 0) ∨
        (rest.headD (.eofAt 0)).endsStatement) :
    readFirst (p.tokens.take p.stop ++ p.stopped :: rest) = (p.result, p.stop) := by
  have hsplit : p.tokens ++ p.closing :: behind = p.tokens.take p.stop ++
      p.stopped :: (p.tokens.drop (p.stop + 1) ++ p.closing :: behind) := by
    rw [← List.cons_append, ← drop_stop_eq_cons hstop, ← List.append_assoc, List.take_append_drop]
  have hattempt := h.attempt
  rw [hsplit] at hattempt
  have hlength : (readFirst (p.tokens.take p.stop ++ p.stopped ::
      (p.tokens.drop (p.stop + 1) ++ p.closing :: behind))).2 ≤ (p.tokens.take p.stop).length := by
    refine Nat.le_of_eq ?_
    rw [hattempt, List.length_take, Nat.min_eq_left (Nat.le_of_lt hstop)]
  rw [readFirst_congr hlength (.inl rfl) (.inr hrest), hattempt]

/-- What closes a piece does not matter, as long as a statement ends there, nor what stands behind
it. -/
theorem IsRead.close (h : p.IsRead behind) (hclosing : closing = p.closing ∨ closing.endsStatement)
    (behind' : List Token) : (p.close closing).IsRead behind' := by
  cases h.bounded with
  | atEnd hstop hends =>
    have hends' : closing.endsStatement := by
      rcases hclosing with rfl | hclosing
      · exact hends
      · exact hclosing
    refine ⟨?_, .atEnd hstop hends'⟩
    have hattempt := h.attempt
    rw [← readFirst_congr (readFirst_le hends) (.inr ⟨hends, hends'⟩) (.inl hends)] at hattempt
    exact hattempt
  | beyond hstop hopen hstarts hends =>
    refine ⟨?_, .beyond hstop hopen hstarts ?_⟩
    · show readFirst (p.tokens ++ closing :: behind') = _
      rw [← List.take_append_drop p.stop p.tokens, drop_stop_eq_cons hstop, List.append_assoc,
        List.cons_append]
      refine h.readFirst_take hstop ?_
      cases p.tokens.drop (p.stop + 1) with
      | nil => exact hclosing
      | cons => exact .inl rfl
    · rcases hclosing with rfl | hclosing
      · exact hends
      · exact .inl hclosing

end Piece

/-- The token that closes a piece is one of the batch. -/
theorem Splits.closing_mem {ts : List Token} {ps : List Piece} {p : Piece} (h : Splits ts ps)
    (hp : p ∈ ps) : p.closing ∈ ts := by
  obtain ⟨before, behind, rfl, -⟩ := h.isRead_of_mem hp
  exact List.mem_append_right _ (List.mem_append_right _ (.head _))

/-- Reading stops at one of the tokens. -/
theorem Splits.stopped_mem {ts : List Token} {ps : List Piece} {p : Piece} (h : Splits ts ps)
    (hp : p ∈ ps) : p.stopped ∈ ts := by
  obtain ⟨before, behind, rfl, -⟩ := h.isRead_of_mem hp
  obtain ⟨rest, hsplit⟩ := p.exists_eq_append_stopped behind
  rw [hsplit]
  exact List.mem_append_right _ (List.mem_append_right _ (.head _))

/-! ### Every batch splits -/

/-- The piece of a statement whose reading stops at its end. -/
theorem exists_isRead_of_ends {first token : Token} {ts passed rest : List Token}
    (hfirst : first.endsStatement = false) (htokens : first :: ts = passed ++ token :: rest)
    (hstop : (readFirst (first :: ts)).2 = passed.length) (hends : token.endsStatement) :
    ∃ p behind, Piece.IsRead p behind ∧ first :: ts = p.tokens ++ p.closing :: behind := by
  generalize hread : readFirst (first :: ts) = answer at hstop
  cases passed with
  | nil =>
    obtain ⟨rfl, -⟩ := List.cons.inj htokens
    rw [hfirst] at hends
    cases hends
  | cons first' more =>
    obtain ⟨rfl, -⟩ := List.cons.inj htokens
    refine ⟨⟨first, more, token, answer.1, answer.2⟩, rest, ⟨?_, .atEnd hstop hends⟩, htokens⟩
    exact (congrArg readFirst htokens).symm.trans hread

/-- The piece of a statement whose reading stops in front of its end, which is looked for behind the
offending token. -/
theorem exists_isRead_of_open {first token : Token} {ts passed rest : List Token}
    (htokens : first :: ts = passed ++ token :: rest)
    (hstop : (readFirst (first :: ts)).2 = passed.length) (hopen : token.endsStatement = false)
    (hrest : ∃ t ∈ rest, t.endsStatement) :
    ∃ p behind, Piece.IsRead p behind ∧ first :: ts = p.tokens ++ p.closing :: behind := by
  generalize hread : readFirst (first :: ts) = answer at hstop
  have hboundary : ∃ t ∈ rest, t.endsStatement || t.startsStatement := by
    obtain ⟨ending, hmem, hending⟩ := hrest
    exact ⟨ending, hmem, by rw [hending, Bool.true_or]⟩
  -- The piece is closed by the first token behind that ends or starts a statement.
  obtain ⟨closing, hclosing⟩ := Option.isSome_iff_exists.1 (List.find?_isSome.2 hboundary)
  obtain ⟨hcloses, skipped, behind, rfl, hskipped⟩ := List.find?_eq_some_iff_append.1 hclosing
  obtain ⟨more, hmore⟩ : ∃ more, passed ++ token :: skipped = first :: more := by
    cases passed with
    | nil => exact ⟨skipped, congrArg (· :: skipped) (List.cons.inj htokens).1.symm⟩
    | cons first' passed =>
      exact ⟨passed ++ token :: skipped, congrArg (· :: _) (List.cons.inj htokens).1.symm⟩
  have hall : first :: ts = (first :: more) ++ closing :: behind := by
    rw [← hmore, htokens, List.append_assoc, List.cons_append]
  have hno : ∀ t ∈ skipped, t.endsStatement = false ∧ t.startsStatement = false := by
    simpa using hskipped
  refine ⟨⟨first, more, closing, answer.1, answer.2⟩, behind, ⟨?_, .beyond ?_ ?_ ?_ ?_⟩, hall⟩
  · exact (congrArg readFirst hall).symm.trans hread
  all_goals simp only [Piece.tokens, ← hmore, hstop]
  · simp
  · rw [List.drop_left]
    exact List.forall_mem_cons.2 ⟨hopen, fun t ht ↦ (hno t ht).1⟩
  · rw [← List.drop_drop, List.drop_left]
    exact fun t ht ↦ (hno t ht).2
  · simpa using hcloses

/-- The piece that starts with a token that does not end a statement. -/
theorem exists_isRead {first : Token} {ts : List Token} (hfirst : first.endsStatement = false)
    (h : ∃ t ∈ ts, t.endsStatement) : ∃ p behind, Piece.IsRead p behind ∧
      first :: ts = p.tokens ++ p.closing :: behind := by
  obtain ⟨ending, hmem, hending⟩ := h
  have hmem : ending ∈ first :: ts := .tail _ hmem
  obtain ⟨passed, token, rest, htokens, hstop, hopen, -⟩ :=
    exists_passed_readFirst ⟨ending, hmem, hending⟩
  by_cases hends : token.endsStatement
  · exact exists_isRead_of_ends hfirst htokens hstop hends
  · refine exists_isRead_of_open htokens hstop (Bool.eq_false_iff.2 hends) ?_
    rw [htokens, List.mem_append, List.mem_cons] at hmem
    rcases hmem with hmem | rfl | hmem
    · have := hopen ending hmem
      simp [Token.isOpen, hending] at this
    · exact absurd hending hends
    · exact ⟨ending, hmem, hending⟩

/-- **Every list of tokens splits** that ends with its only end of the batch. -/
theorem exists_splits {ts : List Token} {eof : Token} (h : ∀ t ∈ ts, t.isEof = false)
    (heof : eof.isEof) : ∃ ps, Splits (ts ++ [eof]) ps := by
  induction hn : ts.length using Nat.strongRecOn generalizing ts with
  | ind n ih =>
    subst hn
    cases ts with
    | nil => exact ⟨[], .nil heof⟩
    | cons first ts =>
      by_cases hsemicolon : first.isSymbol .semicolon
      · obtain ⟨ps, hps⟩ := ih ts.length (Nat.lt_succ_self _) (fun t ht ↦ h t (.tail _ ht)) rfl
        exact ⟨ps, .skip hsemicolon hps⟩
      · have hfirst : first.endsStatement = false := by
          simp [Token.endsStatement, hsemicolon, h first (.head _)]
        have hends : ∃ t ∈ ts ++ [eof], t.endsStatement :=
          ⟨eof, by simp, Token.endsStatement_of_isEof heof⟩
        obtain ⟨p, behind, hread, htokens⟩ := exists_isRead hfirst hends
        obtain ⟨init, hinit, hlast⟩ := @Piece.exists_init p behind (first :: ts) eof htokens
        have hlength : init.length < (first :: ts).length := by
          rw [hinit, List.length_append, Piece.tokens, List.length_cons]
          omega
        have hrest : ∀ t ∈ init, t.isEof = false := fun t ht ↦
          h t (hinit ▸ List.mem_append_right p.tokens ht)
        obtain ⟨ps, hps⟩ := ih init.length hlength hrest rfl
        rw [← hlast] at hps
        refine ⟨p :: ps, ?_⟩
        rw [List.cons_append, htokens]
        exact .cons hread hps

end SqlBatch
