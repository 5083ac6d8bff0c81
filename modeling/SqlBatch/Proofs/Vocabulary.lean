import SqlBatch.Proofs.Yields

/-!
# What the grammar reads

A cursor does not go past the end of a statement, but what else it goes past is up to the rules.
They pass only tokens that the grammar has a use for: each of them looks at a token before it moves
past it. `Rule.Passes` is the law, and the rules for single tokens and lists obey it.

## The law does not rest on the guard of the cursor

A rule that moved on without looking at its token would stop in front of the end of a statement all
the same, but it could pass an `@`, which is a token that has no use. So the law is about rules, and
it is false of `Rule.advance` alone: moving on is judged together with what has been seen of the
token before (`Rule.PassesAt`, at a cursor whose token is known).

## Which tokens have a use

`Token.isSpoken` is the list of them: keywords, names, literals, numbered parameters, and the
symbols that occur in some rule. What is left over are the symbols without a rule, the ends of
statements and the tokens that the lexer could not read.
-/

namespace SqlBatch

/-- Whether a rule of the grammar has a use for the symbol. -/
def Symbol.isSpoken (symbol : Symbol) : Bool :=
  symbol != .semicolon && symbol != .atSign

/-- Whether a rule of the grammar has a use for the token. -/
def Token.isSpoken (t : Token) : Bool :=
  match t.kind with
  | .symbol symbol => symbol.isSpoken
  | .eof => false
  | .error _ => false
  | _ => true

namespace Token

variable {t : Token}

/-- What has a use neither ends a statement nor is an error. -/
theorem isOpen_of_isSpoken (h : t.isSpoken) : t.isOpen := by
  obtain ⟨kind, text, span⟩ := t
  cases kind with
  | symbol symbol => cases symbol <;> first | rfl | cases h
  | eof => cases h
  | error => cases h
  | _ => rfl

/-- A symbol has a use if some rule asks for it. -/
theorem isSpoken_of_isSymbol {symbol : Symbol} (h : t.isSymbol symbol) (hs : symbol.isSpoken) :
    t.isSpoken := by
  rw [isSymbol, beq_iff_eq] at h
  rw [isSpoken, h]
  exact hs

/-- Every keyword has a use, since it may stand for a name. -/
theorem isSpoken_of_isKeyword {keyword : Keyword} (h : t.isKeyword keyword) : t.isSpoken := by
  rw [isKeyword, beq_iff_eq] at h
  rw [isSpoken, h]

/-- A keyword that is looked up has a use. -/
theorem isSpoken_of_keyword? {keyword : Keyword} (h : t.keyword? = some keyword) : t.isSpoken :=
  isSpoken_of_isKeyword (beq_iff_eq.2 (kind_of_keyword? h))

/-- A token is of use if something is made of its kind that is not made of the other kinds. -/
theorem isSpoken_of_ofKind? {α : Type} {ofKind? : Kind → Option α} {a : α}
    (h : ofKind? t.kind = some a) (hsemicolon : ofKind? (.symbol .semicolon) = none)
    (hatSign : ofKind? (.symbol .atSign) = none) (heof : ofKind? .eof = none)
    (herror : ∀ cause, ofKind? (.error cause) = none) : t.isSpoken := by
  have hne {kind : Kind} (hnone : ofKind? kind = none) : t.kind ≠ kind := fun heq ↦ by
    rw [heq, hnone] at h
    cases h
  rw [isSpoken]
  split
  · rename_i symbol hkind
    rw [Symbol.isSpoken, Bool.and_eq_true, bne_iff_ne, bne_iff_ne]
    refine ⟨?_, ?_⟩
    · rintro rfl
      exact hne hsemicolon hkind
    · rintro rfl
      exact hne hatSign hkind
  · rename_i hkind
    exact absurd hkind (hne heof)
  · rename_i cause hkind
    exact absurd hkind (hne (herror cause))
  · rfl

/-- What can be a name has a use, whether it is a bare or a quoted one or a keyword. -/
theorem isSpoken_of_name? {name : String} (h : t.name? = some name) : t.isSpoken := by
  rw [name?] at h
  split at h
  · rename_i hkind
    rw [isSpoken, hkind]
  · rename_i hkind
    rw [isSpoken, hkind]
  · cases h

end Token

/-- One cursor comes from another by moving past tokens that the grammar has a use for. -/
def Cursor.PassesTo (c d : Cursor) : Prop :=
  ∃ passed, c.ahead = passed ++ d.ahead ∧ d.position = c.position + passed.length ∧
    ∀ t ∈ passed, t.isSpoken

namespace Cursor.PassesTo

variable {c d e : Cursor}

protected theorem refl (c : Cursor) : c.PassesTo c :=
  ⟨[], rfl, rfl, fun _ ht ↦ nomatch ht⟩

/-- One stretch of tokens behind another. -/
protected theorem trans (h : c.PassesTo d) (h' : d.PassesTo e) : c.PassesTo e := by
  obtain ⟨passed, hahead, hposition, hspoken⟩ := h
  obtain ⟨more, hahead', hposition', hspoken'⟩ := h'
  refine ⟨passed ++ more, ?_, ?_, List.forall_mem_append.2 ⟨hspoken, hspoken'⟩⟩
  · rw [hahead, hahead', List.append_assoc]
  · rw [hposition', hposition, List.length_append, Nat.add_assoc]

/-- Moving past a token that has been seen to have a use. -/
theorem advance (h : c.current.isSpoken) : c.PassesTo c.advance := by
  have hopen := Token.isOpen_of_isSpoken h
  refine ⟨[c.current], ahead_eq_cons_of_isOpen hopen, position_advance_of_isOpen hopen, ?_⟩
  exact List.forall_mem_singleton.2 h

end Cursor.PassesTo

namespace Rule

/-- From a cursor, the rule passes only tokens that the grammar has a use for. -/
def PassesAt {α : Type} (r : Rule α) (c : Cursor) : Prop :=
  c.PassesTo (r.run c).cursor

/-- The rule passes only tokens that the grammar has a use for. -/
def Passes {α : Type} (r : Rule α) : Prop :=
  ∀ c, r.PassesAt c

namespace PassesAt

variable {α β : Type} {r : Rule α} {c : Cursor}

/-- A sequence whose first part starts at a known token. -/
protected theorem bind {k : α → Rule β} (hr : r.PassesAt c) (hk : ∀ a, (k a).Passes) :
    (r >>= k).PassesAt c := by
  rw [PassesAt, run_bind]
  rw [PassesAt] at hr
  cases hrun : r.run c with
  | done a after =>
    rw [hrun] at hr
    exact hr.trans (hk a after)
  | failed cause after =>
    rw [hrun] at hr
    exact hr

/-- A rule moves on behind a token that it has looked at. -/
theorem advance_bind {k : Unit → Rule β} (h : c.current.isSpoken) (hk : (k ()).Passes) :
    (advance >>= k).PassesAt c :=
  PassesAt.bind (.advance h) fun _ ↦ hk

/-- Moving past a keyword that has been seen, and going on. -/
theorem keyword_bind {keyword : Keyword} {k : Unit → Rule β}
    (h : c.current.keyword? = some keyword) (hk : (k ()).Passes) : (advance >>= k).PassesAt c :=
  .advance_bind (Token.isSpoken_of_keyword? h) hk

end PassesAt

namespace Passes

variable {α β : Type} {r s : Rule α}

/-- Nothing is passed. -/
protected theorem pure (a : α) : (pure a : Rule α).Passes :=
  fun c ↦ .refl c

/-- A failure passes nothing, whatever the token is. -/
theorem fail (cause : SyntaxError.Cause) : (Rule.fail cause : Rule α).Passes :=
  fun c ↦ .refl c

theorem placeholders : Rule.placeholders.Passes :=
  fun c ↦ .refl c

/-- **Sequences.** The second part starts wherever the first one stopped, at a token not yet seen.
-/
protected theorem bind {k : α → Rule β} (hr : r.Passes) (hk : ∀ a, (k a).Passes) :
    (r >>= k).Passes :=
  fun c ↦ (hr c).bind hk

/-- What a rule does that looks at the current token is to be known for that token alone. -/
theorem bind_current {k : Token → Rule β} (h : ∀ c : Cursor, (k c.current).PassesAt c) :
    (current >>= k).Passes :=
  h

/-- What is made of the value has no part in it. -/
protected theorem map {f : α → β} (h : r.Passes) : (f <$> r).Passes := by
  rw [map_eq_bind]
  exact h.bind fun _ ↦ .pure _

/-- Both ways have to obey the law. -/
protected theorem ite {p : Prop} [Decidable p] (hr : r.Passes) (hs : s.Passes) :
    (if p then r else s).Passes := by
  split
  · exact hr
  · exact hs

/-- **A repetition passes what its rounds pass.** -/
protected theorem iterate {step : α → Rule (Option α)} (h : ∀ a, (step a).Passes) (a : α) :
    (iterate step a).Passes := by
  intro c
  have hround {a : α} {c : Cursor} {outcome : Outcome (Option α)}
      (hrun : (step a).run c = outcome) : c.PassesTo outcome.cursor := hrun ▸ h a c
  show c.PassesTo (iterateFrom step a c).cursor
  fun_induction iterateFrom step a c with
  | case1 a c cause after hrun => exact hround hrun
  | case2 a c after hrun => exact hround hrun
  | case3 a c b after hrun hlt ih => exact (hround hrun).trans ih
  | case4 a c b after hrun hlt => exact hround hrun

/-- A list passes what its items pass. -/
theorem many {r : Rule (Option α)} (h : r.Passes) : (Rule.many r).Passes :=
  (Passes.iterate (fun _ ↦ h.map) _).map

/-! ### Terminals -/

theorem sees (symbol : Symbol) : (Rule.sees symbol).Passes :=
  fun c ↦ .refl c

theorem seesKeyword (keyword : Keyword) : (Rule.seesKeyword keyword).Passes :=
  fun c ↦ .refl c

/-- A symbol is passed only where it has been found. -/
theorem accept {symbol : Symbol} (h : symbol.isSpoken) : (Rule.accept symbol).Passes := by
  intro c
  rw [PassesAt, run_accept]
  show c.PassesTo (if _ then _ else _)
  split
  · rename_i hsymbol
    exact .advance (Token.isSpoken_of_isSymbol hsymbol h)
  · exact .refl c

/-- A keyword is passed only where it has been found. -/
theorem acceptKeyword (keyword : Keyword) : (Rule.acceptKeyword keyword).Passes := by
  intro c
  rw [PassesAt, run_acceptKeyword]
  show c.PassesTo (if _ then _ else _)
  split
  · rename_i hkeyword
    exact .advance (Token.isSpoken_of_isKeyword hkeyword)
  · exact .refl c

/-- A symbol that has to be there. Where it is missing, nothing is passed. -/
theorem symbol {symbol : Symbol} (h : symbol.isSpoken) : (Rule.symbol symbol).Passes :=
  (accept h).bind fun _ ↦ .ite (.pure _) (bind_current fun c ↦ Passes.ite (fail _) (fail _) c)

/-- A keyword that has to be there. Where it is missing, nothing is passed. -/
theorem keyword (keyword : Keyword) : (Rule.keyword keyword).Passes :=
  (acceptKeyword keyword).bind fun _ ↦ .ite (.pure _) (fail _)

/-- A name is passed once the token is seen to be one. -/
theorem identifier : Rule.identifier.Passes := by
  refine bind_current fun c ↦ ?_
  split
  · rename_i hname
    exact .advance_bind (Token.isSpoken_of_name? hname) (.pure _)
  · exact fail _ c

/-- A number is passed once it is seen to be within the limit. -/
theorem size (limit : Nat) : (Rule.size limit).Passes := by
  refine bind_current fun c ↦ ?_
  split
  · rename_i hkind
    split
    · exact .advance_bind (by rw [Token.isSpoken, hkind]) (.pure _)
    · exact fail _ c
  · exact fail _ c

/-! ### Clauses and lists -/

/-- A keyword in front of a body, or nothing. -/
theorem clause (keyword : Keyword) (h : r.Passes) : (Rule.clause keyword r).Passes :=
  (acceptKeyword keyword).bind fun _ ↦ .ite h.map (.pure none)

/-- A clause without which there is an empty list. -/
theorem listClause (keyword : Keyword) {r : Rule (List α)} (h : r.Passes) :
    (Rule.listClause keyword r).Passes :=
  (clause keyword h).bind fun _ ↦ .pure _

/-- A comma in front of an item, or nothing. -/
theorem another (h : r.Passes) : (Rule.another r).Passes :=
  (accept rfl).bind fun _ ↦ .ite h.map (.pure none)

/-- The first item, and the others each behind a comma. -/
theorem commaSeparated (h : r.Passes) : (Rule.commaSeparated r).Passes :=
  h.bind fun _ ↦ (many h.another).bind fun _ ↦ .pure _

/-- Both parentheses are symbols that rules ask for. -/
theorem parenthesized (h : r.Passes) : (Rule.parenthesized r).Passes :=
  (symbol rfl).bind fun _ ↦ h.bind fun _ ↦ (symbol rfl).bind fun _ ↦ .pure _

theorem identifiers : Rule.identifiers.Passes :=
  commaSeparated identifier

/-- The points between the parts of a name have a use. -/
theorem dottedName : Rule.dottedName.Passes := by
  refine identifier.bind fun _ ↦ .iterate (fun _ ↦ ?_) _
  exact (accept rfl).bind fun _ ↦ .ite (identifier.bind fun _ ↦ .pure _) (.pure none)

/-- A name, or a schema, a point and a name. -/
theorem tableName : Rule.tableName.Passes :=
  identifier.bind fun _ ↦ (accept rfl).bind fun _ ↦
    .ite (identifier.bind fun _ ↦ .pure _) (.pure _)

/-- A bare name or a name behind `AS`, the token in front having been looked at. -/
theorem alias? : Rule.alias?.Passes :=
  bind_current fun c ↦ (acceptKeyword .AS).bind (fun _ ↦ .ite identifier.map (.pure none)) c

end Passes

end Rule

end SqlBatch
