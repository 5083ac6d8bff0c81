import SqlBatch.Proofs.Completion
import SqlBatch.Proofs.Extension

/-!
# Terminals and lists complete

Words, symbols, names and sizes, and the forms that clauses are built from. A single token is
completed by itself: `x` for a name, `1` for a size.

An optional form leads to what comes behind, unless that starts with what the form itself starts
with. So the laws below have hypotheses of two kinds about the token that comes next: that it is not
the first token of the form, and that the last token of the form does not join it.

A list is completed by leaving out its further items. Behind its first item the completion of the
rest stands, which must not start with a comma; that the repetition stops there is `StopsAt`, and
that each round moves on, so that the repetition goes round again, is `Moves`.
-/

namespace SqlBatch.Completion

variable {α β : Type} {C : α → Prop} {first next last : Token.Kind} {c : Cursor}

/-! ### Tokens of completions -/

/-- A token of another kind is not the symbol. -/
theorem isSymbol_ofKind {symbol : Symbol} (h : first ≠ .symbol symbol) :
    (Token.ofKind first).isSymbol symbol = false := by
  rwa [Token.isSymbol, beq_eq_false_iff_ne]

/-- A token of another kind is not the keyword. -/
theorem isKeyword_ofKind {keyword : Keyword} (h : first ≠ .keyword keyword) :
    (Token.ofKind first).isKeyword keyword = false := by
  rwa [Token.isKeyword, beq_eq_false_iff_ne]

/-- No name is looked at together with what comes behind, unless that is a bracket. -/
theorem joins_of_name? {t : Token} {name : String} (ht : t.name? = some name)
    (hnext : next ≠ .symbol .leftBracket) : t.kind.joins next = false := by
  rw [Token.name?] at ht
  generalize t.kind = kind at ht
  cases kind with
  | identifier name => rfl
  | keyword keyword =>
    cases keyword with
    | ARRAY => exact beq_eq_false_iff_ne.2 hnext
    | AS | NOT | ANALYZE => cases ht
    | _ => rfl
  | _ => cases ht

/-- A rule that starts by passing a token moves forward. -/
theorem position_lt_of_run_advance {f : Unit → Rule α} {a : α} {after : Cursor}
    (hopen : c.current.isOpen) (h : (Rule.advance >>= f).run c = .done a after) :
    c.position < after.position :=
  Rule.position_lt_of_isOpen hopen h

/-! ### Words and symbols -/

/-- A symbol that is there is passed. -/
theorem run_symbol {symbol : Symbol} {d : Cursor} (h : d.current.isSymbol symbol) :
    (Rule.symbol symbol).run d = .done () d.advance := by
  rw [Rule.symbol, Rule.run_bind, Rule.run_accept, h]
  rfl

/-- Passing a symbol moves forward. -/
theorem position_lt_symbol {symbol : Symbol} {d : Cursor} (h : d.current.isSymbol symbol)
    (hs : symbol ≠ .semicolon) : d.position < ((Rule.symbol symbol).run d).cursor.position := by
  rw [run_symbol h, Outcome.cursor_done,
    Cursor.position_advance_of_isOpen (Token.isOpen_of_isSymbol h hs)]
  exact Nat.lt_succ_self _

/-- A keyword that is there is passed. -/
theorem run_keyword {keyword : Keyword} {d : Cursor} (h : d.current.isKeyword keyword) :
    (Rule.keyword keyword).run d = .done () d.advance := by
  rw [Rule.keyword, Rule.run_bind, Rule.run_acceptKeyword, h]
  rfl

namespace LeadsTo

variable {f f' : Bool → Rule α} {r : Rule Bool}

/-- **A token that may be there.** Either it has been passed, and the way behind it leads on, or it
has not, and the other way goes on from here. -/
theorem continues_taken (test : Token → Bool)
    (hrun : ∀ d, r.run d = .done (test d.current) (if test d.current then d.advance else d))
    (htrue : LeadsTo C next last (f true) (f' true))
    (hfalse : ContinuesTo C last (f false) (f' false) c)
    (hjoins : ∀ t, test t → t.kind.joins next = false) :
    ContinuesTo C last (r >>= f) (r >>= f') c := by
  cases hfound : test c.current with
  | true =>
    have hadvance : ContinuesTo C last (Rule.advance >>= fun _ ↦ f true)
        (Rule.advance >>= fun _ ↦ f' true) c := htrue.advance (hjoins _ hfound)
    refine hadvance.congr ?_ fun d hd _ ↦ ?_
    · rw [Rule.run_bind, hrun, hfound]
      rfl
    · rw [Rule.run_bind, hrun, hd, hfound]
      rfl
  | false =>
    refine hfalse.congr ?_ fun d hd _ ↦ ?_
    · rw [Rule.run_bind, hrun, hfound]
      rfl
    · rw [Rule.run_bind, hrun, hd, hfound]
      rfl

/-- A symbol that may be there; no symbol of this kind is the first of a pair. -/
theorem continues_accept {symbol : Symbol} (htrue : LeadsTo C next last (f true) (f' true))
    (hfalse : ContinuesTo C last (f false) (f' false) c) :
    ContinuesTo C last (Rule.accept symbol >>= f) (Rule.accept symbol >>= f') c :=
  continues_taken (·.isSymbol symbol) (Rule.run_accept symbol) htrue hfalse fun t ht ↦ by
    rw [show t.kind = .symbol symbol from beq_iff_eq.1 ht]
    rfl

/-- A keyword that may be there; what follows it must not join it. -/
theorem continues_acceptKeyword {keyword : Keyword}
    (htrue : LeadsTo C next last (f true) (f' true))
    (hfalse : ContinuesTo C last (f false) (f' false) c)
    (hjoins : Token.Kind.joins (.keyword keyword) next = false) :
    ContinuesTo C last (Rule.acceptKeyword keyword >>= f) (Rule.acceptKeyword keyword >>= f') c :=
  continues_taken (·.isKeyword keyword) (Rule.run_acceptKeyword keyword) htrue hfalse fun t ht ↦ by
    rwa [show t.kind = .keyword keyword from beq_iff_eq.1 ht]

/-- The rest starts with another token, so the one looked for is left out. -/
theorem begins_untaken (test : Token → Bool)
    (hrun : ∀ d, r.run d = .done (test d.current) (if test d.current then d.advance else d))
    (h : BeginsTo C first last (f false)) (hfirst : test (.ofKind first) = false) :
    BeginsTo C first last (r >>= f) :=
  h.congr fun d hd ↦ by
    rw [Rule.run_bind, hrun, hd, hfirst]
    rfl

/-- The completion starts with the token that is looked for. -/
theorem begins_taken (test : Token → Bool)
    (hrun : ∀ d, r.run d = .done (test d.current) (if test d.current then d.advance else d))
    (h : BeginsTo C next last (f true)) (hfirst : test (.ofKind first))
    (hopen : (Token.ofKind first).isOpen) (hjoins : first.joins next = false) :
    BeginsTo C first last (r >>= f) := by
  have hadvance : BeginsTo C first last (Rule.advance >>= fun _ ↦ f true) :=
    .advance h hopen hjoins
  refine hadvance.congr fun d hd ↦ ?_
  rw [Rule.run_bind, hrun, hd, hfirst]
  rfl

/-- Going on behind a symbol that may be there, in front of what starts with another token. -/
theorem accept_bind {symbol : Symbol} (htrue : LeadsTo C next last (f true) (f' true))
    (hfalse : LeadsTo C first last (f false) (f' false)) (hfirst : first ≠ .symbol symbol) :
    LeadsTo C first last (Rule.accept symbol >>= f) (Rule.accept symbol >>= f') where
  begins := begins_untaken (·.isSymbol symbol) (Rule.run_accept symbol) hfalse.begins
    (isSymbol_ofKind hfirst)
  continues c := continues_accept htrue (hfalse.continues c)

/-- A keyword that may be there, and that the completion leaves out. -/
theorem acceptKeyword_bind {keyword : Keyword} (htrue : LeadsTo C next last (f true) (f' true))
    (hfalse : LeadsTo C first last (f false) (f' false)) (hfirst : first ≠ .keyword keyword)
    (hjoins : Token.Kind.joins (.keyword keyword) next = false) :
    LeadsTo C first last (Rule.acceptKeyword keyword >>= f)
      (Rule.acceptKeyword keyword >>= f') where
  begins := begins_untaken (·.isKeyword keyword) (Rule.run_acceptKeyword keyword) hfalse.begins
    (isKeyword_ofKind hfirst)
  continues c := continues_acceptKeyword htrue (hfalse.continues c) hjoins

/-- Going on behind a symbol that completions start with, or else in any other way. -/
theorem accept_first {symbol : Symbol} (htrue : LeadsTo C next last (f true) (f' true))
    (hfalse : ∀ c, ContinuesTo C last (f false) (f' false) c) (hs : symbol ≠ .semicolon) :
    LeadsTo C (.symbol symbol) last (Rule.accept symbol >>= f) (Rule.accept symbol >>= f') where
  begins := begins_taken (·.isSymbol symbol) (Rule.run_accept symbol) htrue.begins
    (beq_self_eq_true _) (Token.isOpen_of_isSymbol (beq_self_eq_true _) hs) rfl
  continues c := continues_accept htrue (hfalse c)

/-- A keyword that may be there, and that the completion starts with. -/
theorem acceptKeyword_first {keyword : Keyword} (htrue : LeadsTo C next last (f true) (f' true))
    (hfalse : ∀ c, ContinuesTo C last (f false) (f' false) c)
    (hjoins : Token.Kind.joins (.keyword keyword) next = false) :
    LeadsTo C (.keyword keyword) last (Rule.acceptKeyword keyword >>= f)
      (Rule.acceptKeyword keyword >>= f') where
  begins := begins_taken (·.isKeyword keyword) (Rule.run_acceptKeyword keyword) htrue.begins
    (beq_self_eq_true _) (Token.isOpen_of_isKeyword (beq_self_eq_true _)) hjoins
  continues c := continues_acceptKeyword htrue (hfalse c) hjoins

/-- A symbol that has to be there is completed by itself. -/
theorem symbol {symbol : Symbol} (hs : symbol ≠ .semicolon) :
    Leads (.symbol symbol) next (.symbol symbol) (.symbol symbol) :=
  accept_first (.pure trivial) (fun _ ↦ .current (.ite (fun _ ↦ .fail) fun _ ↦ .fail)) hs

/-- A keyword that has to be there is completed by itself. -/
theorem keyword {keyword : Keyword} (hjoins : Token.Kind.joins (.keyword keyword) next = false) :
    Leads (.keyword keyword) next (.keyword keyword) (.keyword keyword) :=
  acceptKeyword_first (.pure trivial) (fun _ ↦ .fail) hjoins

/-- Going on in one way at certain tokens and in another way in front of what starts with another
token. -/
theorem seen_bind (test : Token → Bool) (hrun : ∀ d, r.run d = .done (test d.current) d)
    (htrue : ∀ c : Cursor, test c.current → ContinuesTo C last (f true) (f' true) c)
    (hfalse : LeadsTo C first last (f false) (f' false))
    (hfirst : test (.ofKind first) = false) :
    LeadsTo C first last (r >>= f) (r >>= f') where
  begins := hfalse.begins.congr fun d hd ↦ by rw [Rule.run_bind, hrun, hd, hfirst]
  continues c := by
    have hsees (b : Bool) (hfound : test c.current = b)
        (h : ContinuesTo C last (f b) (f' b) c) : ContinuesTo C last (r >>= f) (r >>= f') c := by
      refine h.congr ?_ fun d hd _ ↦ ?_
      · rw [Rule.run_bind, hrun, hfound]
      · rw [Rule.run_bind, hrun, hd, hfound]
    cases hfound : test c.current with
    | true => exact hsees true hfound (htrue c hfound)
    | false => exact hsees false hfound (hfalse.continues c)

/-- A look at a symbol that the completion does not start with. -/
theorem sees_bind {symbol : Symbol}
    (htrue : ∀ c : Cursor, c.current.isSymbol symbol → ContinuesTo C last (f true) (f' true) c)
    (hfalse : LeadsTo C first last (f false) (f' false)) (hfirst : first ≠ .symbol symbol) :
    LeadsTo C first last (Rule.sees symbol >>= f) (Rule.sees symbol >>= f') :=
  seen_bind (·.isSymbol symbol) (Rule.run_sees symbol) htrue hfalse (isSymbol_ofKind hfirst)

/-- A look at a keyword that the completion does not start with. -/
theorem seesKeyword_bind {keyword : Keyword}
    (htrue : ∀ c : Cursor, c.current.isKeyword keyword → ContinuesTo C last (f true) (f' true) c)
    (hfalse : LeadsTo C first last (f false) (f' false)) (hfirst : first ≠ .keyword keyword) :
    LeadsTo C first last (Rule.seesKeyword keyword >>= f) (Rule.seesKeyword keyword >>= f') :=
  seen_bind (·.isKeyword keyword) (Rule.run_seesKeyword keyword) htrue hfalse
    (isKeyword_ofKind hfirst)

/-- A keyword that may be there, in front of what starts with another token. -/
theorem acceptKeyword {keyword : Keyword} (hnext : next ≠ .keyword keyword)
    (hjoins : Token.Kind.joins (.keyword keyword) next = false) :
    Leads next next (.acceptKeyword keyword) (.acceptKeyword keyword) := by
  rw [← bind_pure (Rule.acceptKeyword keyword)]
  exact acceptKeyword_bind (.pure trivial) (.pure trivial) hnext hjoins

/-! ### Names and sizes -/

/-- A name is completed as `x`, in front of anything but a bracket, since `ARRAY` is a name too. -/
theorem identifier (hnext : next ≠ .symbol .leftBracket) :
    Leads (.identifier "x") next .identifier .identifier where
  begins := .current (.advance (.pure trivial) rfl rfl)
  continues c := by
    refine .current ?_
    split
    · rename_i name hname
      exact .advance (.pure trivial) .pure (joins_of_name? hname hnext)
    · exact .fail

/-- A size is completed as `1`, which every limit allows. -/
theorem size {limit : Nat} (hlimit : 1 ≤ limit) :
    Leads (.integer 1) next (.size limit) (.size limit) where
  begins := by
    refine .current ?_
    show Begins _ _ (if 1 ≤ limit then _ else _)
    rw [if_pos hlimit]
    exact .advance (.pure trivial) rfl rfl
  continues c := by
    refine .current ?_
    split
    · rename_i hkind
      exact .ite (fun _ ↦ .advance (.pure trivial) .pure (by rw [hkind]; rfl)) fun _ ↦ .fail
    · exact .fail

/-! ### Clauses and lists -/

variable {r r' : Rule α}

/-- An optional clause is left out. -/
theorem clause {keyword : Keyword} (h : Leads first next r r') (hnext : next ≠ .keyword keyword)
    (hjoins : Token.Kind.joins (.keyword keyword) first = false) :
    Leads next next (.clause keyword r) (.clause keyword r') :=
  .acceptKeyword_bind (h.map fun _ _ ↦ trivial) (.pure trivial) hnext hjoins

/-- A clause that is there moves forward. -/
theorem moves_clause {keyword : Keyword} (body : Rule α) : Moves (Rule.clause keyword body) := by
  intro c a after hrun
  rw [Rule.clause, Rule.run_bind, Rule.run_acceptKeyword] at hrun
  cases hfound : c.current.isKeyword keyword with
  | true =>
    rw [hfound] at hrun
    exact Rule.position_lt_of_isOpen (Token.isOpen_of_isKeyword hfound) hrun
  | false =>
    rw [hfound] at hrun
    cases hrun

/-- A clause is not there at another token. -/
theorem stopsAt_clause {keyword : Keyword} (body : Rule α) (hnext : next ≠ .keyword keyword) :
    StopsAt next (Rule.clause keyword body) := by
  intro d hd
  rw [Rule.clause, Rule.run_bind, Rule.run_acceptKeyword, hd, isKeyword_ofKind hnext]
  rfl

/-- In front of another token, the clause is left out. -/
theorem begins_clause {keyword : Keyword} (body : Rule α) (hnext : next ≠ .keyword keyword) :
    Begins next next (Rule.clause keyword body) := by
  have hnone : Begins next next (pure (none : Option α)) := .pure trivial
  exact hnone.congr fun d hd ↦ stopsAt_clause body hnext d hd

/-- An optional clause with a list is left out. -/
theorem listClause {keyword : Keyword} {r r' : Rule (List α)} (h : Leads first next r r')
    (hnext : next ≠ .keyword keyword)
    (hjoins : Token.Kind.joins (.keyword keyword) first = false) :
    Leads next next (.listClause keyword r) (.listClause keyword r') :=
  (clause h hnext hjoins).bind fun _ ↦ .pure trivial

/-- One more item, put in front of those that have been read. -/
def round (item : Rule (Option α)) (items : List α) : Rule (Option (List α)) :=
  Option.map (· :: items) <$> item

/-- A list goes round for as long as there are items. -/
theorem moves_round {item : Rule (Option α)} (h : Moves item) (items : List α) :
    Moves (round item items) := by
  intro c a after hrun
  obtain ⟨x, hx, heq⟩ := Rule.exists_of_run_map hrun
  obtain ⟨item, rfl, -⟩ := Option.map_eq_some_iff.1 heq
  exact h hx

/-- A list ends where there is no item. -/
theorem stopsAt_round {item : Rule (Option α)} (h : StopsAt next item) (items : List α) :
    StopsAt next (round item items) :=
  fun d hd ↦ by rw [round, Rule.map_eq_bind, Rule.run_bind, h d hd]; rfl

variable {item item' : Rule (Option α)}

/-- Collecting what is read for as long as something is read. -/
theorem many (hmoves : Moves item) (hmoves' : Moves item') (hstops : StopsAt next item')
    (h : ∀ c, Continues next item item' c) : Leads next next (.many item) (.many item') := by
  have hloop : Leads next next (.iterate (round item) []) (.iterate (round item') []) :=
    .iterate (moves_round hmoves) (moves_round hmoves') (stopsAt_round hstops)
      (fun _ c ↦ (h c).map fun _ _ ↦ trivial) []
  exact hloop.map fun _ _ ↦ trivial

section

variable {D : β → Prop} {k k' : List α → Rule β}

/-- Going on behind items, the first of which has been read: the rest of them may end anywhere. -/
theorem iterate_round_bind (hmoves : Moves item) (hmoves' : Moves item')
    (hstops : StopsAt next item') (hitem : ∀ c, Continues next item item' c)
    (hnil : ∀ c, ContinuesTo D last (k []) (k' []) c)
    (hcons : ∀ a as, LeadsTo D next last (k (a :: as)) (k' (a :: as))) (a : α) :
    LeadsTo D next last (Rule.iterate (round item) [a] >>= fun as ↦ k as.reverse)
      (Rule.iterate (round item') [a] >>= fun as ↦ k' as.reverse) := by
  have hk (as : List α) (has : as ≠ []) : LeadsTo D next last (k as.reverse) (k' as.reverse) := by
    cases hreverse : as.reverse with
    | nil => exact absurd (List.reverse_eq_nil_iff.1 hreverse) has
    | cons a as => exact hcons a as
  have hnonempty {as : List α} (x : Option α) : ∀ bs ∈ x.map (· :: as), bs ≠ [] := by
    intro bs hbs
    obtain ⟨a, -, rfl⟩ := Option.map_eq_some_iff.1 hbs
    nofun
  -- That there is an item is preserved by every round.
  have hloop (c : Cursor) : ContinuesTo (· ≠ []) next (Rule.iterate (round item) [a])
      (Rule.iterate (round item') [a]) c :=
    .iterate (moves_round hmoves) (moves_round hmoves')
      (fun as _ ↦ (Rule.Yields.any item).map fun x _ ↦ hnonempty x)
      (fun as _ ↦ stopsAt_round hstops as)
      (fun as _ c ↦ (hitem c).map fun x _ ↦ hnonempty x) (List.cons_ne_nil a []) c
  have hbegins : BeginsTo (· ≠ []) next next (Rule.iterate (round item') [a]) :=
    .iterate (moves_round hmoves') (fun as _ ↦ stopsAt_round hstops as) (List.cons_ne_nil a [])
  refine ⟨hbegins.bind fun as has ↦ (hk as has).begins, fun c ↦ ?_⟩
  refine (hloop c).bind (fun as has ↦ (hk as has).begins) fun as c' _ ↦ ?_
  by_cases has : as = []
  · rw [has]
    exact hnil c'
  · exact (hk as has).continues c'

/-- Collecting what is read starts with one item, if there is any. -/
theorem many_bind_eq (hmoves : Moves item) (k : List α → Rule β) :
    Rule.many item >>= k = item >>= fun
      | none => k []
      | some a => Rule.iterate (round item) [a] >>= fun as ↦ k as.reverse := by
  change (List.reverse <$> Rule.iterate (round item) []) >>= k = _
  rw [Rule.map_eq_bind, iterate_eq (moves_round hmoves), bind_assoc, bind_assoc]
  change (Option.map (· :: []) <$> item) >>= _ = _
  rw [Rule.map_eq_bind, bind_assoc]
  refine bind_congr fun x ↦ ?_
  rw [pure_bind]
  cases x with
  | none => rfl
  | some a => rfl

/-- Going on behind items that have been collected, if there is one at least. -/
theorem many_bind (hmoves : Moves item) (hmoves' : Moves item') (hstops : StopsAt next item')
    (hitem : LeadsTo (·.isSome) first next item item')
    (hnil : ∀ c, ContinuesTo D last (k []) (k' []) c)
    (hcons : ∀ a as, LeadsTo D next last (k (a :: as)) (k' (a :: as))) :
    LeadsTo D first last (Rule.many item >>= k) (Rule.many item' >>= k') := by
  have hrest := iterate_round_bind hmoves hmoves' hstops
    (fun c ↦ (hitem.continues c).mono fun _ _ ↦ trivial) hnil hcons
  rw [many_bind_eq hmoves, many_bind_eq hmoves']
  refine ⟨hitem.begins.bind fun x hx ↦ ?_, fun c ↦ ?_⟩
  · obtain ⟨a, rfl⟩ := Option.isSome_iff_exists.1 hx
    exact (hrest a).begins
  · refine (hitem.continues c).bind (fun x hx ↦ ?_) fun x c' _ ↦ ?_
    · obtain ⟨a, rfl⟩ := Option.isSome_iff_exists.1 hx
      exact (hrest a).begins
    · cases x with
      | none => exact hnil c'
      | some a => exact (hrest a).continues c'

end

/-- What a rule reads behind a symbol, if that symbol comes next. -/
def behind (symbol : Symbol) (r : Rule (Option α)) : Rule (Option α) := do
  if ← .accept symbol then r else return none

/-- What stands behind a symbol moves past it. -/
theorem moves_behind {symbol : Symbol} (r : Rule (Option α)) (hs : symbol ≠ .semicolon) :
    Moves (behind symbol r) := by
  intro c a after hrun
  rw [behind, Rule.run_bind, Rule.run_accept] at hrun
  cases hfound : c.current.isSymbol symbol with
  | true =>
    rw [hfound] at hrun
    exact Rule.position_lt_of_isOpen (Token.isOpen_of_isSymbol hfound hs) hrun
  | false =>
    rw [hfound] at hrun
    cases hrun

/-- Without the symbol, there is nothing behind it. -/
theorem stopsAt_behind {symbol : Symbol} (r : Rule (Option α)) (hnext : next ≠ .symbol symbol) :
    StopsAt next (behind symbol r) := by
  intro d hd
  rw [behind, Rule.run_bind, Rule.run_accept, hd, isSymbol_ofKind hnext]
  rfl

/-- An item behind a symbol is left out. -/
theorem leads_behind {symbol : Symbol} {r r' : Rule (Option α)} (h : Leads first next r r')
    (hnext : next ≠ .symbol symbol) : Leads next next (behind symbol r) (behind symbol r') :=
  accept_bind h (.pure trivial) hnext

/-- A list is completed by its first item. -/
theorem commaSeparated (h : Leads first next r r') (hnext : next ≠ .symbol .comma) :
    Leads first next (.commaSeparated r) (.commaSeparated r') := by
  have hmoves (r : Rule α) : Moves (behind .comma (some <$> r)) := moves_behind _ (by decide)
  have hothers : Leads next next (.many (behind .comma (some <$> r)))
      (.many (behind .comma (some <$> r'))) :=
    many (hmoves r) (hmoves r') (stopsAt_behind _ hnext)
      (leads_behind (h.map fun _ _ ↦ trivial) hnext).continues
  exact h.bind fun _ ↦ hothers.bind fun _ ↦ .pure trivial

/-- Parentheses are completed around the completion of what they enclose. -/
theorem parenthesized (h : Leads first (.symbol .rightParen) r r') :
    Leads (.symbol .leftParen) next (.parenthesized r) (.parenthesized r') :=
  (symbol (by decide)).bind fun _ ↦ h.bind fun _ ↦ (symbol (by decide)).bind fun _ ↦ .pure trivial

/-! ### Compound names -/

/-- Names are completed by one name. -/
theorem identifiers (hnext : next ≠ .symbol .comma) (hbracket : next ≠ .symbol .leftBracket) :
    Leads (.identifier "x") next .identifiers .identifiers :=
  commaSeparated (identifier hbracket) hnext

/-- One more part of a dotted name, behind its point. -/
def dottedPart (name : String) : Rule (Option String) := do
  let part ← .identifier
  return some (name ++ "." ++ part)

/-- A name of parts is completed by its first part. -/
theorem dottedName (hdot : next ≠ .symbol .dot) (hbracket : next ≠ .symbol .leftBracket) :
    Leads (.identifier "x") next .dottedName .dottedName := by
  have hpart (name : String) : Leads (.identifier "x") next (dottedPart name) (dottedPart name) :=
    (identifier hbracket).bind fun _ ↦ .pure trivial
  have hmoves (name : String) : Moves (behind .dot (dottedPart name)) :=
    moves_behind _ (by decide)
  have hparts (name : String) : Leads next next
      (.iterate (fun name ↦ behind .dot (dottedPart name)) name)
      (.iterate (fun name ↦ behind .dot (dottedPart name)) name) :=
    .iterate hmoves hmoves (fun _ ↦ stopsAt_behind _ hdot)
      (fun name ↦ (leads_behind (hpart name) hdot).continues) name
  exact (identifier hbracket).bind hparts

/-- A table is completed as `x`, without a schema. -/
theorem tableName (hdot : next ≠ .symbol .dot) (hbracket : next ≠ .symbol .leftBracket) :
    Leads (.identifier "x") next .tableName .tableName :=
  (identifier hbracket).bind fun _ ↦
    accept_bind ((identifier hbracket).bind fun _ ↦ .pure trivial) (.pure trivial) hdot

/-- An alias is left out, unless a name could be taken for one. -/
theorem alias? (hAs : next ≠ .keyword .AS) (hname : ∀ name, next ≠ .identifier name)
    (hbracket : next ≠ .symbol .leftBracket) : Leads next next .alias? .alias? := by
  have hidentifier : Leads (.identifier "x") next (some <$> Rule.identifier)
      (some <$> Rule.identifier) := (identifier hbracket).map fun _ _ ↦ trivial
  have hbare : Leads (.identifier "x") next
      (do if (← Rule.acceptKeyword .AS) || true then some <$> Rule.identifier else return none)
      (do if (← Rule.acceptKeyword .AS) || true then some <$> Rule.identifier else return none) :=
    acceptKeyword_bind hidentifier hidentifier nofun rfl
  have hplain : Leads next next
      (do if (← Rule.acceptKeyword .AS) || false then some <$> Rule.identifier else return none)
      (do if (← Rule.acceptKeyword .AS) || false then some <$> Rule.identifier else return none) :=
    acceptKeyword_bind hidentifier (.pure trivial) hAs rfl
  refine ⟨.current ?_, fun c ↦ .current ?_⟩
  · split
    · rename_i name hkind
      exact absurd hkind (hname name)
    · exact hplain.begins
  · split
    · exact hbare.continues c
    · exact hplain.continues c

end LeadsTo
end SqlBatch.Completion
