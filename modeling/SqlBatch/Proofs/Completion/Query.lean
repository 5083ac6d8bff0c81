import SqlBatch.Grammar.Query
import SqlBatch.Proofs.Completion.Expression

/-!
# Queries complete

A query is completed as `SELECT NULL`, a `FROM` item as `x`. Behind a query there is a closing
parenthesis or the end of the batch (`queryEnds`), so that optional clauses are left out, and an
alias is: neither of both starts a clause or is a name.

## Clauses

A clause whose keyword has been passed has to be completed, and all clauses behind it are left out.
That is one lemma for clauses with an expression (`valueClause`), one for `FROM` (`fromClause`), and
the sequence of the clauses from them.

## Joins

A `FROM` item is a loop over joins, so its law asks three things of one round: a join that has been
begun is completed (`join`), one that is there moves forward (`moves_join`), and no further one is
read where the item ends (`stopsAt_join`). How a join is completed depends on its words. A cross
join ends with its table, and any other needs a condition, for which `ON NULL` will do.
-/

namespace SqlBatch.Completion

variable {next : Token.Kind} {inner inner' : Nested}

section

variable (hnext : next ∈ queryEnds)
include hnext

/-- What may stand behind a query may stand behind an expression. -/
theorem mem_expressionEnds : next ∈ expressionEnds :=
  (by decide : ∀ next ∈ queryEnds, next ∈ expressionEnds) next hnext

/-- There are two ends of a query. -/
theorem eq_of_mem_queryEnds : next = .symbol .rightParen ∨ next = .eof := by
  simpa [queryEnds] using hnext

/-- No end of a query is a keyword. -/
theorem ne_keyword (keyword : Keyword) : next ≠ .keyword keyword := by
  obtain rfl | rfl := eq_of_mem_queryEnds hnext <;> nofun

/-- No end of a query is a name. -/
theorem ne_identifier (name : String) : next ≠ .identifier name := by
  obtain rfl | rfl := eq_of_mem_queryEnds hnext <;> nofun

/-- The one symbol that ends a query is the closing parenthesis. -/
theorem ne_symbol {symbol : Symbol} (hs : symbol ≠ .rightParen) : next ≠ .symbol symbol := by
  obtain rfl | rfl := eq_of_mem_queryEnds hnext
  · rintro ⟨⟩
    exact hs rfl
  · nofun

/-- No clause starts at the end of a query. -/
theorem keyword?_ofKind : (Token.ofKind next).keyword? = none := by
  obtain rfl | rfl := eq_of_mem_queryEnds hnext <;> rfl

end

/-- An expression at the end of a query. -/
theorem Inside.value (h : Inside inner inner') (hnext : next ∈ queryEnds) :
    Leads (.keyword .NULL) next inner.expression inner'.expression :=
  h.expression next (mem_expressionEnds hnext) (ne_keyword hnext _)

/-- Expressions at the end of a query. -/
theorem Inside.values (h : Inside inner inner') (hnext : next ∈ queryEnds) :
    Leads (.keyword .NULL) next inner.expressions inner'.expressions :=
  h.expressions next (mem_expressionEnds hnext) (ne_keyword hnext _)

namespace LeadsTo

/-! ### From items -/

/-- A table is completed as `x`, without an alias. -/
theorem tableItem (hdot : next ≠ .symbol .dot) (hbracket : next ≠ .symbol .leftBracket)
    (hAs : next ≠ .keyword .AS) (hname : ∀ name, next ≠ .identifier name) :
    Leads (.identifier "x") next .tableItem .tableItem :=
  (tableName hdot hbracket).bind fun _ ↦ (alias? hAs hname hbracket).bind fun _ ↦ .pure trivial

/-- A table in front of an end of the query. -/
theorem lastTableItem (hnext : next ∈ queryEnds) :
    Leads (.identifier "x") next .tableItem .tableItem :=
  tableItem (ne_symbol hnext (by decide)) (ne_symbol hnext (by decide)) (ne_keyword hnext _)
    (ne_identifier hnext)

/-- A query with its alias, behind an opening parenthesis. -/
def subqueryItem (inner : Nested) : Rule FromItem := do
  let query ← inner.query
  .symbol .rightParen
  return .subquery query ((← .alias?).getD "subquery")

/-- A query in parentheses, without an alias. -/
theorem leads_subqueryItem (h : Inside inner inner') (hnext : next ∈ queryEnds) :
    Leads (.keyword .SELECT) next (subqueryItem inner) (subqueryItem inner') := by
  have halias : Leads next next .alias? .alias? :=
    alias? (ne_keyword hnext _) (ne_identifier hnext) (ne_symbol hnext (by decide))
  exact (h.query (by decide)).bind fun _ ↦ (symbol (by decide)).bind fun _ ↦
    halias.bind fun _ ↦ .pure trivial

/-- Behind a parenthesis, a query or a `FROM` item is completed and closed. -/
theorem fromPrimary (h : Inside inner inner') (hnext : next ∈ queryEnds) :
    Leads (.identifier "x") next (.fromPrimary inner) (.fromPrimary inner') := by
  have hgrouped : Leads (.identifier "x") next
      (do
        let item ← inner.fromItem
        .symbol .rightParen
        return item)
      (do
        let item ← inner'.fromItem
        .symbol .rightParen
        return item) :=
    (h.fromItem (by decide)).bind fun _ ↦ (symbol (by decide)).bind fun _ ↦ .pure trivial
  exact accept_bind
    (seesKeyword_bind (fun c _ ↦ (leads_subqueryItem h hnext).continues c) hgrouped (by nofun))
    (lastTableItem hnext) (by nofun)

/-- The words of a join are completed by `JOIN`. -/
theorem joinedBy (kind : JoinKind) :
    LeadsTo (·.isSome) (.keyword .JOIN) (.identifier "x") (.joinedBy kind) (.joinedBy kind) :=
  (keyword (by rfl)).bind fun _ ↦ .pure rfl

/-- Behind the keywords of a join stands a table. -/
theorem continues_joinKind (c : Cursor) :
    ContinuesTo (·.isSome) (.identifier "x") .joinKind .joinKind c := by
  refine .current ?_
  split
  · exact .pure
  · refine .ite (fun _ ↦ ?_) fun _ ↦ ?_
    · exact LeadsTo.advance (.pure rfl) (joins_identifier _)
    · split
      · exact .pure
      · exact LeadsTo.advance
          (.ite ((acceptKeyword (by nofun) (by rfl)).bind fun _ ↦ joinedBy _) (joinedBy _))
          (joins_of_forall (by decide) _)

/-- Words of a join that are there move forward. -/
theorem moves_joinKind : Moves Rule.joinKind := by
  intro c kind after hrun
  rw [Rule.joinKind, Rule.run_bind, Rule.run_current] at hrun
  simp only at hrun
  split at hrun
  · cases hrun
  · rename_i hfirst
    have hopen := isOpen_of_keyword? hfirst
    split at hrun
    · exact position_lt_of_run_advance hopen hrun
    · split at hrun
      · cases hrun
      · exact position_lt_of_run_advance hopen hrun

/-- A condition is completed as `ON NULL`. -/
theorem joinCondition (h : Inside inner inner') (hnext : next ∈ queryEnds) :
    Leads (.keyword .ON) next (.joinCondition inner) (.joinCondition inner') := by
  have husing : Leads (.symbol .leftParen) next
      (do return JoinCondition.using (← Rule.parenthesized .identifiers))
      (do return JoinCondition.using (← Rule.parenthesized .identifiers)) :=
    (parenthesized (identifiers (by nofun) (by nofun))).bind fun _ ↦ .pure trivial
  exact acceptKeyword_first ((h.value hnext).bind fun _ ↦ .pure trivial)
    (fun c ↦ continues_acceptKeyword husing .fail rfl) rfl

/-- What stands behind the keywords of a join. -/
def joined (inner : Nested) (left : FromItem) (kind : JoinKind) : Rule (Option FromItem) := do
  let right ← .tableItem
  let condition ← if kind = .cross then pure .none else .joinCondition inner
  return some (.join left kind right condition)

/-- Behind the words of a join, a table and a condition are completed. -/
theorem leads_joined (h : Inside inner inner') (hnext : next ∈ queryEnds) (left : FromItem)
    (kind : JoinKind) :
    Leads (.identifier "x") next (joined inner left kind) (joined inner' left kind) := by
  by_cases hkind : kind = .cross
  · refine (lastTableItem hnext).bind fun right ↦ ?_
    rw [if_pos hkind, if_pos hkind]
    exact .pure trivial
  · -- Any other join has a condition, so the table is not the last part of it.
    have htable : Leads (.identifier "x") (.keyword .ON) .tableItem .tableItem :=
      tableItem nofun nofun nofun nofun
    refine htable.bind fun right ↦ ?_
    rw [if_neg hkind, if_neg hkind]
    exact (joinCondition h hnext).bind fun _ ↦ .pure trivial

/-- A join whose first token has been passed. -/
theorem join (h : Inside inner inner') (hnext : next ∈ queryEnds) (left : FromItem) (c : Cursor) :
    Continues next (.join inner left) (.join inner' left) c := by
  have hcross : Leads (.identifier "x") next
      (do return some (FromItem.join left .cross (← .tableItem) .none))
      (do return some (FromItem.join left .cross (← .tableItem) .none)) :=
    (lastTableItem hnext).bind fun _ ↦ .pure trivial
  refine continues_accept hcross ?_
  refine (continues_joinKind c).bind (fun kind? hkind ↦ ?_) fun kind? c' _ ↦ ?_
  · obtain ⟨kind, rfl⟩ := Option.isSome_iff_exists.1 hkind
    exact (leads_joined h hnext left kind).begins
  · cases kind? with
    | none => exact .pure
    | some kind => exact (leads_joined h hnext left kind).continues c'

/-- A join that is there moves forward. -/
theorem moves_join (inner : Nested) (left : FromItem) : Moves (Rule.join inner left) := by
  intro c item after hrun
  rw [Rule.join, Rule.run_bind, Rule.run_accept] at hrun
  cases hcomma : c.current.isSymbol .comma with
  | true =>
    rw [hcomma] at hrun
    exact Rule.position_lt_of_isOpen (Token.isOpen_of_isSymbol hcomma (by decide)) hrun
  | false =>
    rw [hcomma] at hrun
    obtain ⟨kind?, mid, hkind, hrun⟩ := Rule.exists_of_run_bind hrun
    cases kind? with
    | none => cases hrun
    | some kind =>
      exact Nat.lt_of_lt_of_le (moves_joinKind hkind) (Rule.reaches_of_run hrun).position_le

/-- No join follows at the end of a query. -/
theorem stopsAt_join (inner : Nested) (hnext : next ∈ queryEnds) (left : FromItem) :
    StopsAt next (Rule.join inner left) := by
  intro d hd
  rw [Rule.join, Rule.run_bind, Rule.run_accept, hd,
    isSymbol_ofKind (ne_symbol hnext (by decide))]
  show (Rule.joinKind >>= _).run d = _
  rw [Rule.run_bind, Rule.joinKind, Rule.run_bind, Rule.run_current, hd]
  simp only [keyword?_ofKind hnext]
  rfl

/-- A `FROM` item from scratch is `x`. -/
theorem begins_fromItem (inner : Nested) (hnext : next ∈ queryEnds) :
    Begins (.identifier "x") next (Rule.fromItem inner) := by
  have hprimary : Begins (.identifier "x") next (Rule.fromPrimary inner) :=
    begins_untaken (·.isSymbol .leftParen) (Rule.run_accept .leftParen)
      (lastTableItem hnext).begins rfl
  exact hprimary.bind fun item _ ↦
    .iterate (moves_join inner) (fun left _ ↦ stopsAt_join inner hnext left) trivial

/-- **`FROM` items.** The item that has been begun is completed, and no further join is read. -/
theorem fromItem (h : Inside inner inner') (hnext : next ∈ queryEnds) :
    Leads (.identifier "x") next (.fromItem inner) (.fromItem inner') :=
  (fromPrimary h hnext).bind fun item ↦ .iterate (moves_join inner) (moves_join inner')
    (stopsAt_join inner' hnext) (join h hnext) item

/-! ### Queries -/

/-- An item is completed without an alias. -/
theorem selectItem (h : Inside inner inner') (hnext : next ∈ queryEnds) :
    Leads (.keyword .NULL) next (.selectItem inner) (.selectItem inner') :=
  (h.value hnext).bind fun _ ↦
    (alias? (ne_keyword hnext _) (ne_identifier hnext) (ne_symbol hnext (by decide))).bind fun _ ↦
      .pure trivial

/-- Where missing values go is completed as `FIRST`. -/
theorem nullOrder : Leads (.keyword .FIRST) next .nullOrder .nullOrder :=
  acceptKeyword_first (.pure trivial)
    (fun _ ↦ continues_acceptKeyword (.pure trivial) .fail rfl) rfl

/-- `NULLS` is left out. -/
theorem ordered (hnext : next ∈ queryEnds) (expr : Expr) (descending : Bool) :
    Leads next next (.ordered expr descending) (.ordered expr descending) :=
  (clause nullOrder (ne_keyword hnext _) rfl).bind fun _ ↦ .pure trivial

/-- An item of an ordering is completed without a direction. -/
theorem orderItem (h : Inside inner inner') (hnext : next ∈ queryEnds) :
    Leads (.keyword .NULL) next (.orderItem inner) (.orderItem inner') :=
  (h.value hnext).bind fun expr ↦ (acceptKeyword (ne_keyword hnext _) rfl).bind
    fun descending ↦ .ite (ordered hnext expr descending)
      ((acceptKeyword (ne_keyword hnext _) rfl).bind fun _ ↦ ordered hnext expr descending)

/-- The query on the right is completed. -/
theorem combined (h : Inside inner inner') (hnext : next ∈ queryEnds) (op : SetOp) (all : Bool) :
    Leads (.keyword .SELECT) next (.combined inner op all) (.combined inner' op all) :=
  (h.query hnext).bind fun _ ↦ .pure trivial

/-- There is no query on the right. -/
theorem begins_compound (inner : Nested) (hnext : next ∈ queryEnds) :
    BeginsTo (· = none) next next (Rule.compound inner) := by
  refine .current ?_
  rw [keyword?_ofKind hnext]
  exact .pure rfl

/-- Behind a set operator, a query is completed. -/
theorem compound (h : Inside inner inner') (hnext : next ∈ queryEnds) :
    Leads next next (.compound inner) (.compound inner') where
  begins := (begins_compound inner' hnext).mono fun _ _ ↦ trivial
  continues c := by
    refine .current ?_
    split
    · exact .pure
    · rename_i op hop
      obtain ⟨keyword, hkeyword, hop⟩ := Option.bind_eq_some_iff.1 hop
      have onward (all : Bool) : Leads (.keyword .SELECT) next (.combined inner op all)
          (.combined inner' op all) := combined h hnext op all
      refine LeadsTo.advance ((acceptKeyword (by nofun) (by rfl)).bind fun all ↦ .ite (onward all)
        ((acceptKeyword (by nofun) (by rfl)).bind fun _ ↦ onward all)) ?_
      refine joins_of_keyword? hkeyword ?_
      cases keyword <;> first | rfl | cases hop

/-- An optional clause with a value. -/
theorem valueClause (h : Inside inner inner') (hnext : next ∈ queryEnds) (keyword : Keyword) :
    Leads next next (.clause keyword inner.expression) (.clause keyword inner'.expression) :=
  clause (h.value hnext) (ne_keyword hnext _) (joins_null _)

/-- An optional clause with a `FROM` item. -/
theorem fromClause (h : Inside inner inner') (hnext : next ∈ queryEnds) :
    Leads next next (.clause .FROM (.fromItem inner)) (.clause .FROM (.fromItem inner')) :=
  clause (fromItem h hnext) (ne_keyword hnext _) rfl

/-- **Queries** from their select list on: the clause that has been begun is completed, the later
ones are left out. -/
theorem queryBody (h : Inside inner inner') (hnext : next ∈ queryEnds) (distinct : Bool) :
    Leads (.keyword .NULL) next (.queryBody inner distinct) (.queryBody inner' distinct) := by
  have hclause (keyword : Keyword) := valueClause h hnext keyword
  have hgrouping : Leads next next (.listClause .GROUP do Rule.keyword .BY; inner.expressions)
      (.listClause .GROUP do Rule.keyword .BY; inner'.expressions) :=
    listClause ((keyword (by rfl)).bind fun _ ↦ h.values hnext) (ne_keyword hnext _) rfl
  have hordering : Leads next next
      (.listClause .ORDER do Rule.keyword .BY; .commaSeparated (.orderItem inner))
      (.listClause .ORDER do Rule.keyword .BY; .commaSeparated (.orderItem inner')) :=
    listClause ((keyword (by rfl)).bind fun _ ↦
      commaSeparated (orderItem h hnext) (ne_symbol hnext (by decide))) (ne_keyword hnext _) rfl
  refine (commaSeparated (selectItem h hnext) (ne_symbol hnext (by decide))).bind fun items ↦ ?_
  refine (fromClause h hnext).bind fun source ↦ (hclause .WHERE).bind fun filter ↦ ?_
  refine hgrouping.bind fun grouping ↦ (hclause .HAVING).bind fun having ↦ ?_
  refine (compound h hnext).bind fun compound? ↦ ?_
  cases compound? with
  | some compound => exact .pure trivial
  | none =>
    exact hordering.bind fun ordering ↦ (hclause .LIMIT).bind fun limit ↦
      (hclause .OFFSET).bind fun offset ↦ .pure trivial

/-- A query begins with the selection of `NULL`, if there are expressions in it that may be. -/
theorem begins_query (hvalue : Begins (.keyword .NULL) next inner.expression)
    (hnext : next ∈ queryEnds) : Begins (.keyword .SELECT) next (Rule.query inner) := by
  have hclause {α : Type} (keyword : Keyword) (body : Rule α) :
      Begins next next (Rule.clause keyword body) := begins_clause body (ne_keyword hnext _)
  have hlist {α : Type} (keyword : Keyword) (body : Rule (List α)) :
      Begins next next (Rule.listClause keyword body) :=
    (hclause keyword body).bind fun _ _ ↦ .pure trivial
  have hitem : Begins (.keyword .NULL) next (Rule.selectItem inner) :=
    hvalue.bind fun _ _ ↦ (alias? (ne_keyword hnext _) (ne_identifier hnext)
      (ne_symbol hnext (by decide))).begins.bind fun _ _ ↦ .pure trivial
  have hitems : Leads (.keyword .NULL) next (.commaSeparated (.fail .noViableAlternative))
      (.commaSeparated (.selectItem inner)) :=
    commaSeparated ⟨hitem, fun _ ↦ .fail⟩ (ne_symbol hnext (by decide))
  have hbody (distinct : Bool) :
      Begins (.keyword .NULL) next (Rule.queryBody inner distinct) := by
    refine hitems.begins.bind fun _ _ ↦ (hclause _ _).bind fun _ _ ↦ (hclause _ _).bind fun _ _ ↦
      (hlist _ _).bind fun _ _ ↦ (hclause _ _).bind fun _ _ ↦
        (begins_compound inner hnext).bind fun compound? hcompound ↦ ?_
    rw [hcompound]
    exact (hlist _ _).bind fun _ _ ↦ (hclause _ _).bind fun _ _ ↦ (hclause _ _).bind fun _ _ ↦
      .pure trivial
  have hselect : Leads (.keyword .SELECT) (.keyword .NULL) (.keyword .SELECT) (.keyword .SELECT) :=
    keyword rfl
  have hdistinct : Leads (.keyword .NULL) (.keyword .NULL) (.acceptKeyword .DISTINCT)
      (.acceptKeyword .DISTINCT) := acceptKeyword nofun rfl
  have hall : Leads (.keyword .NULL) (.keyword .NULL) (.acceptKeyword .ALL)
      (.acceptKeyword .ALL) := acceptKeyword nofun rfl
  refine hselect.begins.bind fun _ _ ↦ hdistinct.begins.bind fun distinct _ ↦ ?_
  cases distinct with
  | true => exact hbody true
  | false => exact hall.begins.bind fun _ _ ↦ hbody false

/-- **A query completes.** -/
theorem query (h : Inside inner inner') (hnext : next ∈ queryEnds) :
    Leads (.keyword .SELECT) next (.query inner) (.query inner') :=
  (keyword (by rfl)).bind fun _ ↦ (acceptKeyword (by nofun) (by rfl)).bind fun distinct ↦
    .ite (queryBody h hnext distinct)
      ((acceptKeyword (by nofun) (by rfl)).bind fun _ ↦ queryBody h hnext distinct)

end LeadsTo
end SqlBatch.Completion
