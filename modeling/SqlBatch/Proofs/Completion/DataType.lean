import SqlBatch.Proofs.Allowance
import SqlBatch.Proofs.Completion.Terminal
import SqlBatch.Proofs.Stages

/-!
# Types and column definitions complete

`Inside` is what the rules of one grammar need of the grammar inside a level: its rules lead to what
comes behind, as long as a completion goes on with one of a few ends there (`expressionEnds`,
`queryEnds`). These are the tokens that may have to stand behind an expression or a query for what
encloses it to be completed, and none of them goes on with an expression or a query.

## The ends are a table

That an end opens no size, starts no clause, or is not looked at together with the token before it,
is checked of each of them at once, and used by name (`ne_leftParen_of_mem`, `joins_of_mem`). A new
construct adds its ends to the table and leaves the laws as they are.

## Types

A type is completed as `INT`, a column as `x INT`. The columns of an object type stand behind `AS
(`, a pair of tokens that is looked at together. Where only `AS` has been passed, it has not been
passed as part of the type, so the completion is that of a type without columns
(`continues_lookahead`).
-/

namespace SqlBatch.Completion

variable {α : Type} {C : α → Prop} {first next last : Token.Kind} {inner inner' : Nested}

/-! ### What completions go on with -/

/-- What a completion goes on with behind a query. -/
def queryEnds : List Token.Kind :=
  [.symbol .rightParen, .eof]

/-- What a completion goes on with behind an expression or a type. -/
def expressionEnds : List Token.Kind :=
  [.symbol .rightParen, .eof, .symbol .rightBracket, .keyword .THEN, .keyword .END, .keyword .WHEN,
    .keyword .AS, .keyword .AND]

/-- No end starts with a parenthesis, so a size can be left out. -/
theorem ne_leftParen_of_mem (hnext : next ∈ expressionEnds) : next ≠ .symbol .leftParen :=
  (by decide : ∀ next ∈ expressionEnds, next ≠ .symbol .leftParen) next hnext

/-- No rule looks at such an end together with what comes before it, unless that is `ANALYZE`. -/
theorem joins_of_mem (h : next ∈ expressionEnds) {kind : Token.Kind}
    (hkind : kind ≠ .keyword .ANALYZE) : kind.joins next = false := by
  have hends : ∀ next ∈ expressionEnds, ∀ first ∈ pairStarts, first ≠ .ANALYZE →
      Token.Kind.joins (.keyword first) next = false := by decide
  exact joins_of_ne (hends next h) hkind

/-- What a keyword does not join is not joined by the token that it is. -/
theorem joins_of_keyword? {t : Token} {keyword : Keyword} (h : t.keyword? = some keyword)
    (hjoins : Token.Kind.joins (.keyword keyword) next = false) : t.kind.joins next = false := by
  rw [Token.kind_of_keyword? h]
  exact hjoins

/-- A keyword can be passed. -/
theorem isOpen_of_keyword? {t : Token} {keyword : Keyword} (h : t.keyword? = some keyword) :
    t.isOpen :=
  Token.isOpen_of_isKeyword (beq_iff_eq.2 (Token.kind_of_keyword? h))

/-- The rules inside a level of nesting lead to what comes behind. The rules of the second grammar
may open more levels than those of the first. -/
structure Inside (inner inner' : Nested) : Prop where
  analyze {d : Cursor} (hd : d.current.isKeyword .ANALYZE) :
    inner'.statement.run d = .done .analyze d.advance
  statement (c : Cursor) : Continues .eof inner.statement inner'.statement c
  query {next : Token.Kind} (hnext : next ∈ queryEnds) :
    Leads (.keyword .SELECT) next inner.query inner'.query
  fromItem {next : Token.Kind} (hnext : next ∈ queryEnds) :
    Leads (.identifier "x") next inner.fromItem inner'.fromItem
  expressionFrom {power : Nat} {next : Token.Kind} (hnext : next ∈ expressionEnds)
    (hpower : next = .keyword .AND → 3 ≤ power) :
    Leads (.keyword .NULL) next (inner.expressionFrom power) (inner'.expressionFrom power)
  objectType {next : Token.Kind} (hnext : next ∈ expressionEnds) :
    Leads next next inner.objectType inner'.objectType
  elementType {next : Token.Kind} :
    Leads (.symbol .leftParen) next inner.elementType inner'.elementType

namespace Inside

variable (h : Inside inner inner') (next : Token.Kind) (hnext : next ∈ expressionEnds)
  (hand : next ≠ .keyword .AND)
include h hnext hand

/-- An expression inside a level is completed as `NULL`. -/
theorem expression : Leads (.keyword .NULL) next inner.expression inner'.expression :=
  h.expressionFrom hnext fun heq ↦ absurd heq hand

/-- A list of expressions is completed as one `NULL`. -/
theorem expressions : Leads (.keyword .NULL) next inner.expressions inner'.expressions :=
  .commaSeparated (h.expression next hnext hand)
    ((by decide : ∀ next ∈ expressionEnds, next ≠ .symbol .comma) next hnext)

end Inside

namespace LeadsTo

/-! ### Sizes and policies -/

/-- A precision is completed as `1`, without a scale. -/
theorem decimalSizes : Leads (.integer 1) (.symbol .rightParen) .decimalSizes .decimalSizes :=
  (size (by decide)).bind fun _ ↦
    accept_bind ((size (by decide)).bind fun _ ↦ .pure trivial) (.pure trivial) (by nofun)

/-- The size of a decimal type is left out. -/
theorem decimalSize (hnext : next ≠ .symbol .leftParen) :
    Leads next next .decimalSize .decimalSize := by
  have hparens : Leads (.symbol .leftParen) next (some <$> Rule.parenthesized .decimalSizes)
      (some <$> Rule.parenthesized .decimalSizes) :=
    (parenthesized decimalSizes).map fun _ _ ↦ trivial
  exact sees_bind (fun c _ ↦ hparens.continues c) (.pure trivial) hnext

/-- The length of a character type is left out. -/
theorem characterLength (hnext : next ≠ .symbol .leftParen) :
    Leads next next .characterLength .characterLength := by
  have hlength : Leads (.symbol .leftParen) next
      (do return some (UInt32.ofNat (← .parenthesized (.size 4294967295))))
      (do return some (UInt32.ofNat (← .parenthesized (.size 4294967295)))) :=
    (parenthesized (size (by decide))).bind fun _ ↦ .pure trivial
  exact sees_bind (fun c _ ↦ hlength.continues c) (.pure trivial) hnext

/-- A policy is completed as `DYNAMIC`. -/
theorem objectPolicy :
    Leads (.keyword .DYNAMIC) (.symbol .rightParen) .objectPolicy .objectPolicy where
  begins := .current (.advance (.pure trivial) rfl rfl)
  continues c := by
    refine .current ?_
    split
    · rename_i hpolicy
      obtain ⟨keyword, hkeyword, hpolicy⟩ := Option.bind_eq_some_iff.1 hpolicy
      refine .advance (.pure trivial) .pure (joins_of_keyword? hkeyword ?_)
      refine joins_of_mem (by decide) ?_
      rintro ⟨⟩
      cases hpolicy
    · exact .fail

/-! ### Types -/

/-- A type from scratch is `INT`. -/
theorem begins_dataType (inner : Nested) :
    Begins (.keyword .INT) next (Rule.dataType inner) :=
  .current (.advance (.pure trivial) rfl rfl)

/-- **Types.** Behind the name of a type the sizes are left out; where there is no name, there is
nothing passed to complete. -/
theorem dataType (h : Inside inner inner') (hnext : next ∈ expressionEnds) :
    Leads (.keyword .INT) next (.dataType inner) (.dataType inner') where
  begins := begins_dataType inner'
  continues c := by
    have hends : ∀ next ∈ expressionEnds, next ≠ .keyword .PRECISION := by decide
    have hprecision := hends next hnext
    have hparen := ne_leftParen_of_mem hnext
    have hsize : Leads next next .decimalSize .decimalSize := decimalSize hparen
    have hlength : Leads next next .characterLength .characterLength := characterLength hparen
    have hjoins {keyword : Keyword} (hkind : c.current.kind = .keyword keyword)
        (hne : keyword ≠ .ANALYZE) : c.current.kind.joins next = false :=
      joins_of_mem hnext fun heq ↦ hne (Token.Kind.keyword.inj (hkind.symm.trans heq))
    refine .current ?_
    split
    · rename_i name hkind
      exact .advance (.pure trivial) .pure (by rw [hkind]; rfl)
    · rename_i keyword hkind
      split
      · rename_i type htype
        refine LeadsTo.advance (.ite ?_ (.pure trivial)) (hjoins hkind ?_)
        · exact (acceptKeyword hprecision rfl).bind fun _ ↦ .pure trivial
        · rintro rfl
          cases htype
      · split
        · exact LeadsTo.advance (hsize.bind fun _ ↦ .pure trivial) (hjoins hkind nofun)
        · exact LeadsTo.advance (hsize.bind fun _ ↦ .pure trivial) (hjoins hkind nofun)
        · exact LeadsTo.advance (hlength.bind fun _ ↦ .pure trivial) (hjoins hkind nofun)
        · exact LeadsTo.advance (hlength.bind fun _ ↦ .pure trivial) (hjoins hkind nofun)
        · exact LeadsTo.advance (h.objectType hnext) (hjoins hkind nofun)
        · exact LeadsTo.advance (h.elementType.bind fun _ ↦ .pure trivial) (by rw [hkind]; rfl)
        · exact .fail
    · exact .fail

/-! ### Column definitions -/

/-- A constraint that is there moves forward. -/
theorem moves_columnConstraint (inner : Nested) (column : ColumnDef) :
    Moves (Rule.columnConstraint inner column) := by
  intro c a after hrun
  rw [Rule.columnConstraint, Rule.run_bind, Rule.run_current] at hrun
  simp only at hrun
  split at hrun
  case h_7 => cases hrun
  all_goals
    rename_i hkeyword
    exact position_lt_of_run_advance (isOpen_of_keyword? hkeyword) hrun

/-- Inside a constraint, its words or its expression are completed. -/
theorem columnConstraint (h : Inside inner inner') (column : ColumnDef) (c : Cursor) :
    Continues (.symbol .rightParen) (.columnConstraint inner column)
      (.columnConstraint inner' column) c := by
  have hvalue := h.expression (.symbol .rightParen) (by decide) nofun
  refine .current ?_
  split
  · rename_i hword
    exact LeadsTo.advance ((keyword rfl).bind fun _ ↦ .pure trivial) (joins_of_keyword? hword rfl)
  · rename_i hword
    exact LeadsTo.advance (.pure trivial) (joins_of_keyword? hword rfl)
  · rename_i hword
    exact LeadsTo.advance ((keyword rfl).bind fun _ ↦ .pure trivial) (joins_of_keyword? hword rfl)
  · rename_i hword
    exact LeadsTo.advance (hvalue.bind fun _ ↦ .pure trivial) (joins_of_keyword? hword rfl)
  · rename_i hword
    exact LeadsTo.advance ((keyword (by rfl)).bind fun _ ↦ (keyword rfl).bind fun _ ↦
      hvalue.bind fun _ ↦ .pure trivial) (joins_of_keyword? hword rfl)
  · rename_i hword
    exact LeadsTo.advance (hvalue.bind fun _ ↦ .pure trivial) (joins_of_keyword? hword rfl)
  · exact .pure

/-- A column is completed as `x INT`, with no further constraint. -/
theorem columnDef (h : Inside inner inner') :
    Leads (.identifier "x") (.symbol .rightParen) (.columnDef inner) (.columnDef inner') := by
  have hstops (column : ColumnDef) :
      StopsAt (.symbol .rightParen) (Rule.columnConstraint inner' column) := by
    intro d hd
    rw [Rule.columnConstraint, Rule.run_bind, Rule.run_current, hd]
    rfl
  have hconstraints (column : ColumnDef) : Leads (.symbol .rightParen) (.symbol .rightParen)
      (.iterate (Rule.columnConstraint inner) column)
      (.iterate (Rule.columnConstraint inner') column) :=
    .iterate (moves_columnConstraint inner) (moves_columnConstraint inner') hstops
      (columnConstraint h) column
  exact (identifier (by nofun)).bind fun name ↦ (dataType h (by decide)).bind fun type ↦
    hconstraints _

/-! ### Object types -/

/-- Tokens that are apart are not the pair that is looked for. -/
theorem not_pair {word : Keyword} {symbol : Symbol} {d : Cursor}
    (hjoins : Token.Kind.joins (.keyword word) (.symbol symbol))
    (hd : d.current.kind.joins d.following.kind = false) :
    (d.current.isKeyword word && d.following.isSymbol symbol) = false := by
  rw [Bool.and_eq_false_imp]
  intro hword
  rw [Bool.eq_false_iff]
  intro hsymbol
  rw [show d.current.kind = .keyword word from beq_iff_eq.1 hword,
    show d.following.kind = .symbol symbol from beq_iff_eq.1 hsymbol, hjoins] at hd
  cases hd

/-- In front of a rest that starts with neither, the pair is left out. -/
theorem begins_lookahead {word : Keyword} {symbol : Symbol} {taken r : Rule α}
    (hjoins : Token.Kind.joins (.keyword word) (.symbol symbol)) (h : BeginsTo C first last r) :
    BeginsTo C first last (.lookahead word (·.isSymbol symbol) taken r) := by
  intro β k hk
  refine (h k hk).congr_following fun d hd hfollowing ↦ ?_
  rw [Rule.run_bind, Rule.run_lookahead, not_pair hjoins (by rw [hd]; exact hfollowing),
    Rule.run_bind]
  rfl

/-- Either the pair has been passed, and what stands behind it is completed, or the first word alone
is not passed either. -/
theorem continues_lookahead {word : Keyword} {symbol : Symbol} {taken taken' r r' : Rule α}
    {c : Cursor} (hjoins : Token.Kind.joins (.keyword word) (.symbol symbol))
    (htaken : ∀ c, ContinuesTo C last taken taken' c)
    (hmoves : ∀ c : Cursor, c.current.isSymbol symbol → c.position < (taken.run c).cursor.position)
    (h : ContinuesTo C last r r' c) :
    ContinuesTo C last (.lookahead word (·.isSymbol symbol) taken r)
      (.lookahead word (·.isSymbol symbol) taken' r') c := by
  cases hseen : c.current.isKeyword word && c.following.isSymbol symbol with
  | true =>
    obtain ⟨hword, hnext⟩ := (Bool.and_eq_true _ _).mp hseen
    have hsymbol : c.advance.current.isSymbol symbol := by
      rwa [Cursor.current_advance (Token.isOpen_of_isKeyword hword)]
    -- The symbol is passed as well, so the pair is there in a completion.
    refine (htaken c.advance).congr_advance ?_ (hmoves _ hsymbol) fun d hd hd' ↦ ?_
    · rw [Rule.run_lookahead, hseen, if_pos rfl]
    · rw [Rule.run_lookahead, hd, hd', hseen, if_pos rfl]
  | false =>
    refine h.congr_following ?_ fun d hd hd' ↦ ?_
    · rw [Rule.run_lookahead, hseen, if_neg Bool.false_ne_true]
    · have hnot : (d.current.isKeyword word && d.following.isSymbol symbol) = false := by
        rcases hd' with hd' | hd'
        · rw [hd, hd', hseen]
        · exact not_pair hjoins (by rw [hd]; exact hd')
      rw [Rule.run_lookahead, hnot, if_neg Bool.false_ne_true]

/-- Columns are left out. -/
theorem begins_objectColumns (inner : Nested) (policy : Option ObjectPolicy) :
    Begins next next (Rule.objectColumns inner policy) :=
  begins_lookahead rfl (.pure trivial)

/-- Behind `AS (`, a column is completed and the parenthesis closed. -/
theorem objectColumns (h : Inside inner inner') (policy : Option ObjectPolicy) :
    Leads next next (.objectColumns inner policy) (.objectColumns inner' policy) where
  begins := begins_objectColumns inner' policy
  continues c := by
    have hcolumns := commaSeparated (columnDef h) (by decide)
    refine continues_lookahead rfl ((parenthesized hcolumns).bind fun _ ↦ .pure trivial).continues
      (fun c hc ↦ ?_) .pure
    calc c.position < ((Rule.symbol .leftParen).run c).cursor.position :=
        position_lt_symbol hc (by decide)
      _ ≤ _ := Rule.position_le_run_bind _ _ _
      _ ≤ _ := Rule.position_le_run_bind _ _ _

/-- Policy and columns are left out. -/
theorem begins_objectType (inner : Nested) (hnext : next ∈ expressionEnds) :
    Begins next next (Rule.objectType inner) := by
  refine (begins_objectColumns inner none).congr fun d hd ↦ ?_
  rw [Rule.objectType, Rule.run_bind, Rule.run_sees, hd,
    isSymbol_ofKind (ne_leftParen_of_mem hnext)]
  rfl

/-- Behind `OBJECT`, everything may be left out. -/
theorem objectType (h : Inside inner inner') (hnext : next ∈ expressionEnds) :
    Leads next next (.objectType inner) (.objectType inner') := by
  have policy : Leads (.symbol .leftParen) next (some <$> Rule.parenthesized .objectPolicy)
      (some <$> Rule.parenthesized .objectPolicy) :=
    (parenthesized objectPolicy).map fun _ _ ↦ trivial
  exact sees_bind (fun c _ ↦ (policy.bind (objectColumns h)).continues c) (objectColumns h none)
    (ne_leftParen_of_mem hnext)

/-- The element of an array type is completed as `INT` in parentheses. -/
theorem elementType (h : Inside inner inner') :
    Leads (.symbol .leftParen) next (.elementType inner) (.elementType inner') :=
  parenthesized (dataType h (by decide))

end LeadsTo
end SqlBatch.Completion
