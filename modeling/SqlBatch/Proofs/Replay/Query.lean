import SqlBatch.Grammar.Query
import SqlBatch.Proofs.Replay.Expression

/-!
# Queries replay

Queries and `FROM` items have no labels of their own: their rules replay because those of the
expressions, tables and queries inside them do.

## The same course

The clauses of a query are entered by keywords, which are the same in both lists, so both readings
have the same clauses, and the labels of each are changed by itself. A join is decided by words too.
The item on its left has been read before: in the second reading the rule is given that item with
its labels changed, and the loop over the joins goes on with what it makes of it.
-/

namespace SqlBatch.Replay.Replays

variable {R : Replay} {inner inner' : Nested}

/-! ### From items -/

/-- A table and its alias have no labels. -/
theorem tableItem : R.Replays (FromItem.relabel R.labels) .tableItem .tableItem :=
  tableName.bind_id fun table ↦ alias?.bind_id fun alias? ↦ .pure (FromItem.table table alias?)

/-- A parenthesis opens a query in both lists or in neither. -/
theorem fromPrimary (h : R.Inside inner inner') :
    R.Replays (FromItem.relabel R.labels) (.fromPrimary inner) (.fromPrimary inner') := by
  refine (accept (by decide)).bind_id fun _ ↦ .ite ?_ tableItem
  refine (seesKeyword .SELECT).bind_id fun _ ↦ .ite ?_ ?_
  · refine h.query.bind fun query ↦ (symbol (by decide)).bind_id fun _ ↦ ?_
    exact alias?.bind_id fun alias? ↦ .pure (FromItem.subquery query (alias?.getD "subquery"))
  · exact h.fromItem.bind fun item ↦ (symbol (by decide)).bind_id fun _ ↦ .pure item

/-- The words of a join have no labels. -/
theorem joinedBy (kind : JoinKind) : R.Replays id (.joinedBy kind) (.joinedBy kind) :=
  (keyword .JOIN).bind_id fun _ ↦ .pure _

/-- The first word of a join is the same in both lists. -/
theorem joinKind : R.Replays id .joinKind .joinKind := by
  refine bind_current fun t u htu ↦ ?_
  rw [htu.keyword?]
  split
  · exact .pure none
  · refine .ite (advance.bind_id fun _ ↦ .pure _) ?_
    split
    · exact .pure none
    · refine advance.bind_id fun _ ↦ .ite ?_ (joinedBy _)
      exact (acceptKeyword .OUTER).bind_id fun _ ↦ joinedBy _

/-- The expression behind `ON` has labels, the names behind `USING` have none. -/
theorem joinCondition (h : R.Inside inner inner') :
    R.Replays (JoinCondition.relabel R.labels) (.joinCondition inner) (.joinCondition inner') := by
  refine (acceptKeyword .ON).bind_id fun _ ↦ .ite ?_ ?_
  · exact h.expression.bind fun condition ↦ .pure (JoinCondition.on condition)
  · refine (acceptKeyword .USING).bind_id fun _ ↦ .ite ?_ (.fail trivial)
    exact (parenthesized identifiers).bind_id fun columns ↦ .pure (JoinCondition.using columns)

/-- The left side has been read and carries changed labels. -/
theorem join (h : R.Inside inner inner') (left : FromItem) :
    R.Replays (Option.map (FromItem.relabel R.labels)) (.join inner left)
      (.join inner' (left.relabel R.labels)) := by
  refine (accept (by decide)).bind_id fun _ ↦ .ite ?_ (joinKind.bind_id fun kind? ↦ ?_)
  · exact tableItem.bind fun right ↦ .pure (some (FromItem.join left .cross right .none))
  · cases kind? with
    | none => exact .pure none
    | some kind =>
      refine tableItem.bind fun right ↦ .ite (.pure (some (FromItem.join left kind right .none))) ?_
      exact (joinCondition h).bind fun condition ↦
        .pure (some (FromItem.join left kind right condition))

/-- As many joins are read from both lists. -/
theorem fromItem (h : R.Inside inner inner') :
    R.Replays (FromItem.relabel R.labels) (.fromItem inner) (.fromItem inner') :=
  (fromPrimary h).bind (iterate (join h))

/-! ### Queries -/

/-- The expression of an item has labels, its alias has none. -/
theorem selectItem (h : R.Inside inner inner') :
    R.Replays (SelectItem.relabel R.labels) (.selectItem inner) (.selectItem inner') :=
  h.expression.bind fun expr ↦ alias?.bind_id fun alias? ↦ .pure (SelectItem.mk expr alias?)

theorem nullOrder : R.Replays id .nullOrder .nullOrder := by
  refine (acceptKeyword .FIRST).bind_id fun _ ↦ .ite (.pure _) ?_
  exact (acceptKeyword .LAST).bind_id fun _ ↦ .ite (.pure _) (.fail trivial)

/-- The expression of the item has been read. -/
theorem ordered (expr : Expr) (descending : Bool) :
    R.Replays (OrderItem.relabel R.labels) (.ordered expr descending)
      (.ordered (expr.relabel R.labels) descending) := by
  refine (clause .NULLS nullOrder).bind fun nulls ↦ .pure_of_eq ?_
  rw [Option.map_id]
  rfl

/-- The expression of an item of an ordering, and its direction. -/
theorem orderItem (h : R.Inside inner inner') :
    R.Replays (OrderItem.relabel R.labels) (.orderItem inner) (.orderItem inner') := by
  refine h.expression.bind fun expr ↦ (acceptKeyword .DESC).bind_id fun descending ↦ ?_
  exact .ite (ordered expr descending)
    ((acceptKeyword .ASC).bind_id fun _ ↦ ordered expr descending)

/-- The query on the right. -/
theorem combined (h : R.Inside inner inner') (op : SetOp) (all : Bool) :
    R.Replays (Option.map (Compound.relabel R.labels)) (.combined inner op all)
      (.combined inner' op all) :=
  h.query.bind fun right ↦ .pure (some (Compound.mk op all right))

/-- The operator between two queries is the same in both lists. -/
theorem compound (h : R.Inside inner inner') :
    R.Replays (Option.map (Compound.relabel R.labels)) (.compound inner) (.compound inner') := by
  refine bind_current fun t u htu ↦ ?_
  rw [htu.keyword?]
  split
  · exact .pure none
  · rename_i op _
    refine advance.bind_id fun _ ↦ (acceptKeyword .ALL).bind_id fun all ↦ ?_
    exact .ite (combined h op all) ((acceptKeyword .DISTINCT).bind_id fun _ ↦ combined h op all)

/-- **Queries.** Clause by clause, the labels of each changed by itself. -/
theorem queryBody (h : R.Inside inner inner') (distinct : Bool) :
    R.Replays (Query.relabel R.labels) (.queryBody inner distinct)
      (.queryBody inner' distinct) := by
  have grouping : R.Replays (List.map (Expr.relabel R.labels))
      (.listClause .GROUP do Rule.keyword .BY; inner.expressions)
      (.listClause .GROUP do Rule.keyword .BY; inner'.expressions) :=
    listClause .GROUP ((keyword .BY).bind_id fun _ ↦ h.expressions)
  have ordering : R.Replays (List.map (OrderItem.relabel R.labels))
      (.listClause .ORDER do Rule.keyword .BY; .commaSeparated (.orderItem inner))
      (.listClause .ORDER do Rule.keyword .BY; .commaSeparated (.orderItem inner')) :=
    listClause .ORDER ((keyword .BY).bind_id fun _ ↦ commaSeparated (orderItem h))
  refine (commaSeparated (selectItem h)).bind fun items ↦ ?_
  refine (clause .FROM (fromItem h)).bind fun source ↦ ?_
  refine (clause .WHERE h.expression).bind fun filter ↦ grouping.bind fun grouping ↦ ?_
  refine (clause .HAVING h.expression).bind fun having ↦ (compound h).bind fun compound? ↦ ?_
  cases compound? with
  | some compound => exact .pure_of_eq (by simp [Query.relabel])
  | none =>
    refine ordering.bind fun ordering ↦ (clause .LIMIT h.expression).bind fun limit ↦ ?_
    exact (clause .OFFSET h.expression).bind fun offset ↦ .pure_of_eq (by simp [Query.relabel])

/-- `DISTINCT` is there in both lists or in neither. -/
theorem query (h : R.Inside inner inner') :
    R.Replays (Query.relabel R.labels) (.query inner) (.query inner') := by
  refine (keyword .SELECT).bind_id fun _ ↦ (acceptKeyword .DISTINCT).bind_id fun distinct ↦ ?_
  exact .ite (queryBody h distinct) ((acceptKeyword .ALL).bind_id fun _ ↦ queryBody h distinct)

end SqlBatch.Replay.Replays
