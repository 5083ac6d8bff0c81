import SqlBatch.Proofs.Assembly
import SqlBatch.Tree.Nodes

/-!
# Trees with a property of all nodes

A property that each form gives its own node, where it holds of all nodes inside, holds of all nodes
of a tree. `Shape.ofNodes` is the shape of the trees that have the property everywhere, and
`Shape.closed_ofNodes` says what is left to prove of each form.

## What a property has to give

Below, `P` is the property of nodes, and `C` one of statements, which are no nodes. The theorems for
the single sorts are the cases of `closed_ofNodes`. What they ask for is about a node and its parts
alone, and mentions no rule. Whether the parts are read at the level or inside of it makes no
difference here: a property of all nodes is the same shape at every level, so the shapes `I` and `O`
of a form are one.

A form that makes two nodes at once asks for both. `NOT LIKE` is a negation around a comparison,
`IN` with a query has the query as an item of its own, and a call with a star has the star.
-/

namespace SqlBatch

/-- An item is among its own nodes. -/
theorem FromItem.self_mem_nodes (item : FromItem) : .source item ∈ item.nodes := by
  rcases item with _ | _ | _ <;> exact .head _

/-- The trees all nodes of which have a property. Statements, which are no nodes, have a property of
their own. -/
def Shape.ofNodes (P : Node → Prop) (C : Command → Prop) : Shape where
  expr e := ∀ node ∈ e.nodes, P node
  type type := ∀ node ∈ type.nodes, P node
  bracketed type := ∀ node ∈ type.nodes, P node
  column column := ∀ node ∈ column.nodes, P node
  source item := ∀ node ∈ item.nodes, P node
  query query := ∀ node ∈ query.nodes, P node
  command tree := C tree ∧ ∀ node ∈ tree.nodes, P node

section

variable {T : Token → Prop} {P : Node → Prop} {C : Command → Prop}

/-- The nodes of an expression are itself and those inside. -/
theorem Expr.Made.forall_nodes (hP : ∀ e : Expr, e.Made T (.ofNodes P C) (.ofNodes P C) →
    P (.expr e)) {e : Expr} (h : e.Made T (.ofNodes P C) (.ofNodes P C)) :
    ∀ node ∈ e.nodes, P node := by
  have hself := hP e h
  cases h with
  | literal | parameter | wildcard | column => exact List.forall_mem_singleton.2 hself
  | unary hoperand | paren hoperand | isNull hoperand | subquery hoperand | «exists» hoperand =>
    exact List.forall_mem_cons.2 ⟨hself, hoperand⟩
  | call hall | array hall =>
    simp only [nodes, nodesOfExprs_eq, List.forall_mem_cons, List.forall_mem_flatMap]
    exact ⟨hself, hall⟩
  | callAll =>
    exact List.forall_mem_cons.2 ⟨hself, List.forall_mem_singleton.2 (hP _ (.wildcard none))⟩
  | case _ hoperand hbranches hotherwise =>
    simp only [nodes, nodesOfExpr?_eq, nodesOfBranches_eq, List.forall_mem_cons,
      List.forall_mem_append, List.forall_mem_flatMap, Option.mem_toList]
    exact ⟨hself, ⟨hoperand, hbranches⟩, hotherwise⟩
  | castCall hleft hright | cast hleft hright | subscript hleft hright | binary hleft hright =>
    exact List.forall_mem_cons.2 ⟨hself, List.forall_mem_append.2 ⟨hleft, hright⟩⟩
  | notLike hleft hright =>
    have hlike : ∀ node ∈ Expr.nodes (.binary .like _ _), P node :=
      List.forall_mem_cons.2
        ⟨hP _ (.binary hleft hright), List.forall_mem_append.2 ⟨hleft, hright⟩⟩
    exact List.forall_mem_cons.2 ⟨hself, hlike⟩
  | isIn hoperand _ hlist =>
    simp only [nodes, nodesOfExprs_eq, List.forall_mem_cons, List.forall_mem_append,
      List.forall_mem_flatMap]
    exact ⟨hself, hoperand, hlist⟩
  | isInQuery hoperand hquery =>
    simp only [nodes, nodesOfExprs_eq, List.forall_mem_cons, List.forall_mem_append,
      List.flatMap_singleton]
    exact ⟨hself, hoperand, hP _ (.subquery hquery), hquery⟩
  | between hoperand hlow hhigh =>
    simp only [nodes, List.forall_mem_cons, List.forall_mem_append]
    exact ⟨hself, ⟨hoperand, hlow⟩, hhigh⟩

/-- The nodes of a type are itself and those inside. -/
theorem DataType.Made.forall_nodes (hP : ∀ type, P (.type type)) {type : DataType}
    (h : type.Made (.ofNodes P C)) : ∀ node ∈ type.nodes, P node := by
  cases h with
  | leaf hleaf =>
    cases type with
    | object | array => exact hleaf.elim
    | _ => exact List.forall_mem_singleton.2 (hP _)
  | object htype => exact htype
  | array helement => exact List.forall_mem_cons.2 ⟨hP _, helement⟩

/-- The nodes of a type in parentheses. -/
theorem DataType.Bracketed.forall_nodes (hP : ∀ type, P (.type type)) {type : DataType}
    (h : type.Bracketed (.ofNodes P C)) : ∀ node ∈ type.nodes, P node := by
  cases h with
  | element htype => exact htype
  | object hcolumns =>
    simp only [nodes, nodesOfColumns_eq, List.forall_mem_cons, List.forall_mem_flatMap]
    exact ⟨hP _, hcolumns⟩

/-- The nodes of a column are itself and those of its type and its expressions. -/
theorem ColumnDef.Made.forall_nodes {column : ColumnDef} (hself : P (.column column))
    (h : column.Made (.ofNodes P C) (.ofNodes P C)) : ∀ node ∈ column.nodes, P node := by
  obtain ⟨htype, hdefault, hgenerated, -⟩ := h
  obtain ⟨name, type, nullable, default, primaryKey, generated⟩ := column
  simp only [nodes, nodesOfExpr?_eq, List.forall_mem_cons, List.forall_mem_append,
    List.forall_mem_flatMap, Option.mem_toList]
  exact ⟨hself, ⟨htype, hdefault⟩, hgenerated⟩

/-- The nodes of a `FROM` item are itself and those inside. -/
theorem FromItem.Made.forall_nodes (hP : ∀ item : FromItem,
    item.Made (.ofNodes P C) (.ofNodes P C) → P (.source item)) {item : FromItem}
    (h : item.Made (.ofNodes P C) (.ofNodes P C)) : ∀ node ∈ item.nodes, P node := by
  have hself := hP item h
  cases h with
  | table => exact List.forall_mem_singleton.2 hself
  | subquery hquery => exact List.forall_mem_cons.2 ⟨hself, hquery⟩
  | paren hitem => exact hitem
  | cross hleft | «using» hleft =>
    simp only [nodes, JoinCondition.nodes, List.forall_mem_cons, List.forall_mem_append]
    exact ⟨hself, ⟨hleft, hP _ (.table _ _), nofun⟩, nofun⟩
  | on hleft _ hcondition =>
    simp only [nodes, JoinCondition.nodes, List.forall_mem_cons, List.forall_mem_append]
    exact ⟨hself, ⟨hleft, hP _ (.table _ _), nofun⟩, hcondition⟩

/-- The nodes of a query are itself and those of its parts. -/
theorem Query.Made.forall_nodes {query : Query} (hself : P (.query query))
    (h : query.Made (.ofNodes P C) (.ofNodes P C)) : ∀ node ∈ query.nodes, P node := by
  obtain ⟨-, hitems, hsource, hfilter, hgrouping, hhaving, hcompound, hordering, hlimit,
    hoffset⟩ := h
  obtain ⟨distinct, items, source, filter, grouping, having, compound, ordering, limit, offset⟩ :=
    query
  simp only [nodes, nodesOfItems_eq, nodesOfFrom?_eq, nodesOfExpr?_eq, nodesOfExprs_eq,
    nodesOfCompound?_eq, nodesOfOrdering_eq, List.forall_mem_cons, List.forall_mem_append,
    List.forall_mem_flatMap, Option.mem_toList]
  exact ⟨hself, ⟨⟨⟨⟨⟨⟨⟨hitems, hsource⟩, hfilter⟩, hgrouping⟩, hhaving⟩,
    fun compound hmem ↦ (hcompound compound hmem).1⟩, hordering⟩, hlimit⟩, hoffset⟩

/-- The nodes of the rows or of the query that is inserted. -/
theorem InsertSource.Made.forall_nodes {source : InsertSource}
    (h : source.Made (.ofNodes P C)) : ∀ node ∈ source.nodes, P node := by
  cases h with
  | rows _ hrows =>
    simp only [nodes, nodesOfExprs_eq, List.forall_mem_flatMap]
    exact fun row hrow ↦ (hrows row hrow).2
  | query hquery => exact hquery
  | defaults => exact nofun

/-- A plain statement has no nodes but its tables. -/
theorem Command.IsPlain.forall_nodes (hP : ∀ table, P (.table table)) {tree : Command}
    (h : tree.IsPlain) : ∀ node ∈ tree.nodes, P node := by
  cases tree with
  | dropTable => exact List.forall_mem_singleton.2 (hP _)
  | «show» target =>
    cases target with
    | createTable => exact List.forall_mem_singleton.2 (hP _)
    | _ => exact nofun
  | set _ _ value =>
    cases value with
    | default => exact nofun
    | values => exact h.elim
  | kill job =>
    cases job with
    | none => exact nofun
    | some => exact h.elim
  | reset | begin | commit | analyze | discard | deallocate | close => exact nofun
  | _ => exact h.elim

/-- The nodes of a statement are those of its parts. -/
theorem Command.Made.forall_nodes (hP : ∀ table, P (.table table)) {tree : Command}
    (h : tree.Made (.ofNodes P C) (.ofNodes P C)) : ∀ node ∈ tree.nodes, P node := by
  cases h with
  | select hquery => exact hquery
  | insert hsource => exact List.forall_mem_cons.2 ⟨hP _, hsource.forall_nodes⟩
  | update _ hassignments hsource hfilter =>
    simp only [nodes, nodesOfFrom?_eq, nodesOfExpr?_eq, List.forall_mem_cons,
      List.forall_mem_append, List.forall_mem_flatMap, Option.mem_toList]
    exact ⟨hP _, ⟨hassignments, hsource⟩, hfilter⟩
  | delete hfilter =>
    simp only [nodes, nodesOfExpr?_eq, List.forall_mem_cons, List.forall_mem_flatMap,
      Option.mem_toList]
    exact ⟨hP _, hfilter⟩
  | createTable hcolumns hproperties =>
    simp only [nodes, nodesOfColumns_eq, nodesOfProperties, List.forall_mem_cons,
      List.forall_mem_append, List.forall_mem_flatMap]
    exact ⟨hP _, hcolumns, hproperties⟩
  | explain hcommand => exact hcommand.2
  | refresh => exact List.forall_mem_map.2 fun table _ ↦ hP table
  | optimize _ hproperties =>
    simp only [nodes, nodesOfProperties, List.forall_mem_append, List.forall_mem_map,
      List.forall_mem_flatMap]
    exact ⟨fun table _ ↦ hP table, hproperties⟩
  | set _ hvalues =>
    simp only [nodes, SettingValue.nodes, nodesOfExprs_eq, List.forall_mem_flatMap]
    exact hvalues
  | kill hjob => exact hjob
  | plain hplain => exact hplain.forall_nodes hP

/-- **Induction over nodes.** A property of the nodes that every form makes holds everywhere. -/
theorem Shape.closed_ofNodes
    (hexpr : ∀ e : Expr, e.Made T (.ofNodes P C) (.ofNodes P C) → P (.expr e))
    (htype : ∀ type, P (.type type))
    (hcolumn : ∀ column : ColumnDef, column.Made (.ofNodes P C) (.ofNodes P C) →
      P (.column column))
    (hsource : ∀ item : FromItem, item.Made (.ofNodes P C) (.ofNodes P C) → P (.source item))
    (hquery : ∀ query : Query, query.Made (.ofNodes P C) (.ofNodes P C) → P (.query query))
    (htable : ∀ table, P (.table table))
    (hcommand : ∀ tree : Command, tree.Made (.ofNodes P C) (.ofNodes P C) → C tree) :
    (ofNodes P C).Closed T (ofNodes P C) where
  expr _ hmade := hmade.forall_nodes hexpr
  type _ hmade := hmade.forall_nodes htype
  bracketed _ hmade := hmade.forall_nodes htype
  column column hmade := hmade.forall_nodes (hcolumn column hmade)
  source _ hmade := hmade.forall_nodes hsource
  query query hmade := hmade.forall_nodes (hquery query hmade)
  command tree hmade := ⟨hcommand tree hmade, hmade.forall_nodes htable⟩

end

end SqlBatch
