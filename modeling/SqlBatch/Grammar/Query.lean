import SqlBatch.Grammar.Expression

/-!
# Queries and `FROM` clauses

A query is read clause by clause in their fixed order, each of which may be left out. What follows a
set operation is a query of its own, a level further in, and takes the clauses that are left with
it: so the ordering and the limits behind several queries are those of the last of them.

## Joins

`FROM` items are joined from left to right, by a loop, so joins open no levels. What is joined is a
plain table; only the first item may be a query or an item in parentheses. A comma is a cross join.

## Aliases

An alias may stand bare behind a table or a selected item, but only if it is no keyword. So no word
that continues a query is taken for an alias, whether it is reserved or not.
-/

namespace SqlBatch

/-- The operators that combine queries, by their keywords. -/
def SetOp.ofKeyword? : Keyword → Option SetOp
  | .UNION => some .union
  | .INTERSECT => some .intersect
  | .EXCEPT => some .except
  | _ => none

/-- The kinds of joins by the keywords that come before `JOIN`. -/
def JoinKind.ofKeyword? : Keyword → Option JoinKind
  | .INNER => some .inner
  | .CROSS => some .cross
  | .LEFT => some .left
  | .RIGHT => some .right
  | .FULL => some .full
  | _ => none

/-- Whether the join keeps rows without a match. -/
def JoinKind.isOuter : JoinKind → Bool
  | left | right | full => true
  | inner | cross => false

namespace Rule

/-! ### From items -/

/-- A table with its alias. -/
def tableItem : Rule FromItem := do
  let table ← tableName
  return .table table (← alias?)

/-- A table, a query in parentheses, or a `FROM` item in parentheses. A query without an alias is
called `subquery`. -/
def fromPrimary (inner : Nested) : Rule FromItem := do
  if ← accept .leftParen then
    if ← seesKeyword .SELECT then
      let query ← inner.query
      symbol .rightParen
      return .subquery query ((← alias?).getD "subquery")
    else
      let item ← inner.fromItem
      symbol .rightParen
      return item
  else tableItem

/-- The keywords of a join, if a join follows. -/
def joinKind : Rule (Option JoinKind) := do
  match (← current).keyword? with
  | none => return none
  | some first =>
    if first = .JOIN then
      advance
      return some .inner
    else
      match JoinKind.ofKeyword? first with
      | none => return none
      | some kind =>
        advance
        if kind.isOuter then
          let _ ← acceptKeyword .OUTER
        keyword .JOIN
        return some kind

/-- The condition of a join other than a cross join. -/
def joinCondition (inner : Nested) : Rule JoinCondition := do
  if ← acceptKeyword .ON then return .on (← inner.expression)
  else if ← acceptKeyword .USING then return .using (← parenthesized identifiers)
  else fail (.mismatched [Keyword.ON.quoted, Keyword.USING.quoted])

/-- One more join behind a `FROM` item, if there is one. A comma is a cross join. -/
def join (inner : Nested) (left : FromItem) : Rule (Option FromItem) := do
  if ← accept .comma then
    -- Only a plain table may follow a comma, as behind `JOIN`.
    return some (.join left .cross (← tableItem) .none)
  else
    match ← joinKind with
    | none => return none
    | some kind =>
      let right ← tableItem
      let condition ← if kind = .cross then pure .none else joinCondition inner
      return some (.join left kind right condition)

/-- A `FROM` item with its joins. -/
def fromItem (inner : Nested) : Rule FromItem := do
  iterate (join inner) (← fromPrimary inner)

/-! ### Queries -/

/-- An item of a select list. -/
def selectItem (inner : Nested) : Rule SelectItem := do
  let expr ← inner.expression
  return { expr, alias? := ← alias? }

/-- Where an ordering puts missing values, behind `NULLS`. -/
def nullOrder : Rule NullOrder := do
  if ← acceptKeyword .FIRST then return .first
  else if ← acceptKeyword .LAST then return .last
  else fail (.mismatched [Keyword.FIRST.quoted, Keyword.LAST.quoted])

/-- An item of an `ORDER BY` clause. -/
def orderItem (inner : Nested) : Rule OrderItem := do
  let expr ← inner.expression
  let descending ← acceptKeyword .DESC
  unless descending do
    let _ ← acceptKeyword .ASC
  return { expr, descending, nulls := ← clause .NULLS nullOrder }

/-- The continuation of a query by another one, if there is one. -/
def compound (inner : Nested) : Rule (Option Compound) := do
  match (← current).keyword?.bind SetOp.ofKeyword? with
  | none => return none
  | some op =>
    advance
    let all ← acceptKeyword .ALL
    unless all do
      let _ ← acceptKeyword .DISTINCT
    return some { op, all, right := ← inner.query }

/-- A query from its select list on. What follows a combined query belongs to the last of its
parts. -/
def queryBody (inner : Nested) (distinct : Bool) : Rule Query := do
  let items ← commaSeparated (selectItem inner)
  let source ← clause .FROM (fromItem inner)
  let filter ← clause .WHERE inner.expression
  let grouping ← listClause .GROUP do
    keyword .BY
    inner.expressions
  let having ← clause .HAVING inner.expression
  match ← compound inner with
  | some compound =>
    -- The query on the right has read the ordering and limits, if there are any.
    return { distinct, items, source, filter, grouping, having, compound := some compound,
             ordering := [], limit := none, offset := none }
  | none =>
    let ordering ← listClause .ORDER do
      keyword .BY
      commaSeparated (orderItem inner)
    let limit ← clause .LIMIT inner.expression
    let offset ← clause .OFFSET inner.expression
    return { distinct, items, source, filter, grouping, having, compound := none,
             ordering, limit, offset }

/-- A query. -/
def query (inner : Nested) : Rule Query := do
  keyword .SELECT
  let distinct ← acceptKeyword .DISTINCT
  unless distinct do
    let _ ← acceptKeyword .ALL
  queryBody inner distinct

end Rule

end SqlBatch
