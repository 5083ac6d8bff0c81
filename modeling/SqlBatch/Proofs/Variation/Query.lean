import SqlBatch.Grammar.Query
import SqlBatch.Proofs.Variation.Expression

/-!
# Queries tell names and values apart

The parts of a query are read one after another and kept in the fields of one record, so what is
proved of the parts adds up.

A join keeps the item on its left, which is owed to it; how the items are joined is decided by
words. An ordering keeps the expression in front of its direction in the same way. No part of a
query can be given twice, so no reason for a loss is added here, and one that comes up is from the
inside of a level.
-/

namespace SqlBatch.Variation

variable {V : Variation} {inner : Nested}

namespace Tells

/-! ### From items -/

theorem tableItem : V.Reveals (FromItem.relabel .forgetPlaces) .tableItem := by
  refine tableName.bind_any fun a b ↦ alias?.bind fun x y _ ↦ .pure trivial fun heq ↦ ?_
  obtain ⟨htable, halias⟩ := FromItem.table.inj heq
  exact ⟨⟨trivial, htable⟩, by rwa [Same, Option.map_id]⟩

/-- A table, a subquery, or an item in parentheses. -/
theorem fromPrimary (h : V.Inside inner) :
    V.Reveals (FromItem.relabel .forgetPlaces) (.fromPrimary inner) := by
  refine (accept .leftParen).bind_silent fun _ ↦ .ite ?_ tableItem
  refine (seesKeyword .SELECT).bind_silent fun _ ↦ .ite ?_ ?_
  · refine h.query.bind_any fun a b ↦ (symbol .rightParen).bind_silent fun _ ↦ ?_
    refine alias?.bind fun x y hboth ↦ .pure trivial fun heq ↦ ?_
    obtain ⟨hquery, hname⟩ := FromItem.subquery.inj heq
    refine ⟨⟨trivial, hquery⟩, ?_⟩
    cases hboth with
    | none => rfl
    | some _ => exact congrArg some hname
  · refine h.fromItem.bind_any fun a b ↦ (symbol .rightParen).bind_silent fun _ ↦ ?_
    exact .pure trivial fun heq ↦ ⟨trivial, heq⟩

/-- The word behind the kind of a join. -/
theorem joinedBy (kind : JoinKind) : V.Silent (.joinedBy kind) :=
  (keyword .JOIN).bind_silent fun _ ↦ silent _

theorem joinKind : V.Silent .joinKind := by
  refine .bind_current_cases (fun t ↦ ?_) fun t u hvaries ↦ ?_
  · split
    · exact (silent none).weaken
    · refine .ite (.advance_of_ne (silent _)) ?_
      split
      · exact (silent none).weaken
      · refine .advance_of_ne (.ite ?_ (joinedBy _))
        exact (acceptKeyword .OUTER).bind_silent fun _ ↦ joinedBy _
  · rw [hvaries.keyword?_eq_none, hvaries.symm.keyword?_eq_none]
    exact (silent none).weaken

theorem joinCondition (h : V.Inside inner) :
    V.Reveals (JoinCondition.relabel .forgetPlaces) (.joinCondition inner) := by
  refine (acceptKeyword .ON).bind_silent fun _ ↦ .ite ?_ ?_
  · exact h.expression.bind_any fun a b ↦ .pure trivial fun heq ↦
      ⟨trivial, JoinCondition.on.inj heq⟩
  · refine (acceptKeyword .USING).bind_silent fun _ ↦ .ite ?_ .fail
    refine (parenthesized identifiers).bind_any fun as bs ↦ .pure trivial fun heq ↦ ⟨trivial, ?_⟩
    rw [Same, JoinCondition.using.inj heq]

/-- A join keeps the item on its left. -/
theorem join (h : V.Inside inner) (left left' : FromItem) :
    V.Tells (fun _ ↦ True) (Both Any)
      (fun x y ↦ Same (FromItem.relabel .forgetPlaces) (x.getD left) (y.getD left'))
      (Same (FromItem.relabel .forgetPlaces) left left') (.join inner left)
      (.join inner left') := by
  refine (accept .comma).bind_silent fun _ ↦ .ite ?_ (joinKind.bind_silent fun kind? ↦ ?_)
  · refine tableItem.bind_any fun a b ↦ .pure (.some trivial) fun heq ↦ ?_
    obtain ⟨hleft, -, hright, -⟩ := FromItem.join.inj heq
    exact ⟨hleft, hright⟩
  · cases kind? with
    | none => exact .pure .none fun heq ↦ heq
    | some kind =>
      refine tableItem.bind_any fun a b ↦ .ite (.pure (.some trivial) fun heq ↦ ?_) ?_
      · obtain ⟨hleft, -, hright, -⟩ := FromItem.join.inj heq
        exact ⟨hleft, hright⟩
      · refine (joinCondition h).bind_any fun x y ↦ .pure (.some trivial) fun heq ↦ ?_
        obtain ⟨hleft, -, hright, hcondition⟩ := FromItem.join.inj heq
        exact ⟨⟨hleft, hright⟩, hcondition⟩

/-- Items joined from left to right. -/
theorem fromItem (h : V.Inside inner) :
    V.Reveals (FromItem.relabel .forgetPlaces) (.fromItem inner) := by
  refine (fromPrimary h).bind_any fun a b ↦ ?_
  exact (Tells.iterate (fun a b _ ↦ join h a b) trivial).mono fun heq ↦ ⟨trivial, heq⟩

/-! ### Queries -/

theorem selectItem (h : V.Inside inner) :
    V.Reveals (SelectItem.relabel .forgetPlaces) (.selectItem inner) := by
  refine h.expression.bind_any fun a b ↦ alias?.bind fun x y _ ↦ .pure trivial fun heq ↦ ?_
  obtain ⟨hexpr, halias⟩ := SelectItem.mk.inj heq
  exact ⟨⟨trivial, hexpr⟩, by rwa [Same, Option.map_id]⟩

/-- Where missing values are ordered. -/
theorem nullOrder : V.Silent .nullOrder := by
  refine (acceptKeyword .FIRST).bind_silent fun _ ↦ .ite (silent _) ?_
  exact (acceptKeyword .LAST).bind_silent fun _ ↦ .ite (silent _) .fail

/-- The end of an order item, which keeps the expression. -/
theorem ordered (a b : Expr) (descending : Bool) :
    V.Keeps (OrderItem.relabel .forgetPlaces) (True ∧ Same (Expr.relabel .forgetPlaces) a b)
      (.ordered a descending) (.ordered b descending) := by
  have nulls : V.Silent (.clause .NULLS .nullOrder) := by
    refine (acceptKeyword .NULLS).bind_silent fun _ ↦ .ite ?_ (silent none)
    exact nullOrder.map (fun _ _ heq ↦ congrArg some heq) fun _ _ _ _ ↦ ⟨trivial, trivial⟩
  exact nulls.bind_silent fun _ ↦ .pure trivial fun heq ↦ ⟨trivial, (OrderItem.mk.inj heq).1⟩

/-- What a query is ordered by. -/
theorem orderItem (h : V.Inside inner) :
    V.Reveals (OrderItem.relabel .forgetPlaces) (.orderItem inner) := by
  refine h.expression.bind_any fun a b ↦ (acceptKeyword .DESC).bind_silent fun descending ↦ ?_
  exact .ite (ordered a b descending)
    ((acceptKeyword .ASC).bind_silent fun _ ↦ ordered a b descending)

/-- A further query behind a set operation. -/
theorem combined (h : V.Inside inner) (op : SetOp) (all : Bool) :
    V.Reveals? (Compound.relabel .forgetPlaces) (.combined inner op all) :=
  h.query.bind_any fun _ _ ↦ .pure (.some trivial) fun heq ↦
    ⟨trivial, (Compound.mk.inj (Option.some.inj heq)).2.2⟩

/-- A set operation and its query, or none. -/
theorem compound (h : V.Inside inner) :
    V.Reveals? (Compound.relabel .forgetPlaces) (.compound inner) := by
  refine .bind_current_cases (fun t ↦ ?_) fun t u hvaries ↦ ?_
  · split
    · exact .pure .none fun _ ↦ trivial
    · rename_i op _
      refine .advance_of_ne ((acceptKeyword .ALL).bind_silent fun all ↦ ?_)
      exact .ite (combined h op all)
        ((acceptKeyword .DISTINCT).bind_silent fun _ ↦ combined h op all)
  · rw [hvaries.keyword?_eq_none, hvaries.symm.keyword?_eq_none]
    exact .pure .none fun _ ↦ trivial

theorem queryBody (h : V.Inside inner) (distinct : Bool) :
    V.Reveals (Query.relabel .forgetPlaces) (.queryBody inner distinct) := by
  have grouping : V.Reveals (List.map (Expr.relabel .forgetPlaces))
      (.listClause .GROUP do Rule.keyword .BY; inner.expressions) :=
    listClause .GROUP ((keyword .BY).bind_silent fun _ ↦ h.expressions)
  have ordering : V.Reveals (List.map (OrderItem.relabel .forgetPlaces))
      (.listClause .ORDER do Rule.keyword .BY; .commaSeparated (.orderItem inner)) :=
    listClause .ORDER ((keyword .BY).bind_silent fun _ ↦ commaSeparated (orderItem h))
  refine (commaSeparated (selectItem h)).bind_any fun items items' ↦ ?_
  refine (clause .FROM (fromItem h)).bind fun source source' _ ↦ ?_
  refine (clause .WHERE h.expression).bind fun filter filter' _ ↦ ?_
  refine grouping.bind_any fun grouping grouping' ↦ ?_
  refine (clause .HAVING h.expression).bind fun having having' _ ↦ ?_
  refine (compound h).bind fun compound? compound?' hboth ↦ ?_
  cases hboth with
  | some _ =>
    refine .pure trivial fun heq ↦ ?_
    obtain ⟨-, hitems, hsource, hfilter, hgrouping, hhaving, hcompound, -⟩ := Query.mk.inj heq
    simp only [relabelItems_eq_map, relabelFrom?_eq_map, relabelExpr?_eq_map, relabelExprs_eq_map,
      relabelCompound?_eq_map] at hitems hsource hfilter hgrouping hhaving hcompound
    exact ⟨⟨⟨⟨⟨⟨trivial, hitems⟩, hsource⟩, hfilter⟩, hgrouping⟩, hhaving⟩, hcompound⟩
  | none =>
    refine ordering.bind_any fun ordering ordering' ↦ ?_
    refine (clause .LIMIT h.expression).bind fun limit limit' _ ↦ ?_
    refine (clause .OFFSET h.expression).bind fun offset offset' _ ↦ .pure trivial fun heq ↦ ?_
    obtain ⟨-, hitems, hsource, hfilter, hgrouping, hhaving, -, hordering, hlimit, hoffset⟩ :=
      Query.mk.inj heq
    simp only [relabelItems_eq_map, relabelFrom?_eq_map, relabelExpr?_eq_map, relabelExprs_eq_map,
      relabelOrdering_eq_map] at hitems hsource hfilter hgrouping hhaving hordering hlimit hoffset
    have hfront := And.intro (And.intro (And.intro (And.intro (And.intro trivial hitems) hsource)
      hfilter) hgrouping) hhaving
    exact ⟨⟨⟨⟨hfront, rfl⟩, hordering⟩, hlimit⟩, hoffset⟩

/-- **Queries.** -/
theorem query (h : V.Inside inner) : V.Reveals (Query.relabel .forgetPlaces) (.query inner) := by
  refine (keyword .SELECT).bind_silent fun _ ↦
    (acceptKeyword .DISTINCT).bind_silent fun distinct ↦ ?_
  exact .ite (queryBody h distinct) ((acceptKeyword .ALL).bind_silent fun _ ↦ queryBody h distinct)

end Tells

end SqlBatch.Variation
