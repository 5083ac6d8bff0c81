import SqlBatch.Proofs.Assembly.Statement
import SqlBatch.Tree.Height

/-!
# How high trees are

A level of nesting puts at most three nodes above each other, except along chains: what goes on
behind an operand, or behind a `FROM` item, is read at the same level however long it is. So the
height of a tree is bounded but for the links of its chains (`trees_isBounded`).

## Why three

`Shape.ofLevels n` are the trees whose nesting is at most `3 * n`. Most forms put one node over what
the level inside has read. But a column and its type stand below a table or an object of the same
level, and a `FROM` item below a query of the same level; and these are the most that come together.
So types leave room for two more nodes, and columns and `FROM` items for one.

## Nesting and chaining

That these shapes are made of each other, level by level, is the one thing to prove, with a case for
each form; that trees have them follows for every level. A chain adds links, which the nesting does
not count (`Gauge.nesting`), and the height is at most the nesting and the chaining together. That
there are chains of any length is another theorem (`not_bounded_height`).
-/

namespace SqlBatch

/-! ### One level of nesting -/

/-- The trees of `n` levels of nesting. -/
def Shape.ofLevels (n : Nat) : Shape where
  expr e := e.extent .nesting ≤ 3 * n
  type type := type.extent .nesting + 2 ≤ 3 * n
  bracketed type := type.extent .nesting ≤ 3 * n
  column column := column.extent .nesting + 1 ≤ 3 * n
  source item := item.extent .nesting + 1 ≤ 3 * n
  query query := query.extent .nesting ≤ 3 * n
  command tree := tree.extent .nesting ≤ 3 * n

section

variable {T : Token → Prop} {n : Nat}

/-- What stands directly below the outermost node of a level. -/
theorem one_add_le {x : Nat} (h : x ≤ 3 * n + 2) : 1 + x ≤ 3 * (n + 1) := by
  omega

theorem Expr.Made.extent_le {e : Expr} (h : e.Made T (.ofLevels n) (.ofLevels (n + 1))) :
    e.extent .nesting ≤ 3 * (n + 1) := by
  -- A step to what the level inside has read, and a link to what the level itself has.
  have inside {x : Nat} (hx : x ≤ 3 * n) : 1 + x ≤ 3 * (n + 1) := by omega
  have along {x : Nat} (hx : x ≤ 3 * (n + 1)) : 0 + x ≤ 3 * (n + 1) := by omega
  cases h with
  | literal | parameter | wildcard | column => exact inside (Nat.zero_le _)
  | call hall | array hall => exact inside (extentOfExprs_le hall)
  | callAll => exact one_add_le (show max 1 0 ≤ _ by omega)
  | unary hoperand =>
    have hoperand : Expr.extent .nesting _ ≤ 3 * n := hoperand
    simp only [Expr.extent]
    split
    · exact along (by omega)
    · exact inside hoperand
  | paren hoperand | subquery hoperand | «exists» hoperand => exact inside hoperand
  | case _ hoperand hbranches hotherwise =>
    exact inside (Nat.max_le.2 ⟨extentOfExpr?_le hoperand,
      Nat.max_le.2 ⟨extentOfBranches_le hbranches, extentOfExpr?_le hotherwise⟩⟩)
  | castCall hoperand htype =>
    have hoperand : Expr.extent .nesting _ ≤ 3 * n := hoperand
    have htype : DataType.extent .nesting _ + 2 ≤ 3 * (n + 1) := htype
    exact Nat.max_le.2 ⟨along (by omega), one_add_le (by omega)⟩
  | cast hoperand htype =>
    have htype : DataType.extent .nesting _ + 2 ≤ 3 * (n + 1) := htype
    exact Nat.max_le.2 ⟨along hoperand, one_add_le (by omega)⟩
  | subscript hleft hright | binary hleft hright =>
    exact Nat.max_le.2 ⟨along hleft, inside hright⟩
  | isNull hoperand => exact along hoperand
  | isIn hoperand _ hlist => exact Nat.max_le.2 ⟨along hoperand, inside (extentOfExprs_le hlist)⟩
  | isInQuery hoperand hquery =>
    have hquery : Query.extent .nesting _ ≤ 3 * n := hquery
    exact Nat.max_le.2 ⟨along hoperand, one_add_le (Nat.max_le.2
      ⟨show 1 + Query.extent .nesting _ ≤ _ by omega, Nat.zero_le _⟩)⟩
  | between hoperand hlow hhigh =>
    exact Nat.max_le.2 ⟨along hoperand, inside (Nat.max_le.2 ⟨hlow, hhigh⟩)⟩
  | notLike hleft hright => exact along (Nat.max_le.2 ⟨along hleft, inside hright⟩)

/-- Types leave room for the column and the table that they belong to. -/
theorem DataType.Made.extent_add_le {type : DataType} (h : type.Made (.ofLevels n)) :
    type.extent .nesting + 2 ≤ 3 * (n + 1) := by
  cases h with
  | leaf hleaf =>
    cases type with
    | object | array => exact hleaf.elim
    | _ => exact Nat.le_add_left 3 (3 * n)
  | object htype =>
    have htype : type.extent .nesting ≤ 3 * n := htype
    omega
  | @array element helement =>
    have helement : element.extent .nesting ≤ 3 * n := helement
    have harray : (DataType.array element).extent .nesting = 1 + element.extent .nesting := rfl
    omega

theorem DataType.Bracketed.extent_le {type : DataType} (h : type.Bracketed (.ofLevels (n + 1))) :
    type.extent .nesting ≤ 3 * (n + 1) := by
  cases h with
  | element htype => exact Nat.le_of_add_right_le htype
  | object hcolumns =>
    exact one_add_le (extentOfColumns_le fun column hcolumn ↦
      Nat.le_of_lt_succ (hcolumns column hcolumn))

/-- Columns leave room for the object or the table that they belong to. -/
theorem ColumnDef.Made.extent_lt {column : ColumnDef}
    (h : column.Made (.ofLevels n) (.ofLevels (n + 1))) :
    column.extent .nesting + 1 ≤ 3 * (n + 1) := by
  obtain ⟨htype, hdefault, hgenerated, -⟩ := h
  obtain ⟨name, type, nullable, default, primaryKey, generated⟩ := column
  have htype : type.extent .nesting + 2 ≤ 3 * (n + 1) := htype
  have hdefault : extentOfExpr? .nesting default ≤ 3 * n := extentOfExpr?_le hdefault
  have hgenerated : extentOfExpr? .nesting generated ≤ 3 * n := extentOfExpr?_le hgenerated
  show 1 + max _ (max _ _) + 1 ≤ _
  omega

/-- `FROM` items leave room for the query that they belong to. -/
theorem FromItem.Made.extent_lt {item : FromItem}
    (h : item.Made (.ofLevels n) (.ofLevels (n + 1))) :
    item.extent .nesting + 1 ≤ 3 * (n + 1) := by
  have joined {left condition : Nat} (hleft : left + 1 ≤ 3 * (n + 1))
      (hcondition : condition ≤ 3 * n) :
      max (0 + left) (1 + max 1 condition) + 1 ≤ 3 * (n + 1) := by
    omega
  cases h with
  | table => exact Nat.le_add_left 2 (3 * n + 1)
  | subquery hquery =>
    have hquery : Query.extent .nesting _ ≤ 3 * n := hquery
    show 1 + Query.extent .nesting _ + 1 ≤ _
    omega
  | paren hitem =>
    have hitem : item.extent .nesting + 1 ≤ 3 * n := hitem
    omega
  | cross hleft | «using» hleft => exact joined hleft (Nat.zero_le _)
  | on hleft _ hcondition => exact joined hleft hcondition

theorem Query.Made.extent_le {query : Query} (h : query.Made (.ofLevels n) (.ofLevels (n + 1))) :
    query.extent .nesting ≤ 3 * (n + 1) := by
  obtain ⟨-, hitems, hsource, hfilter, hgrouping, hhaving, hcompound, hordering, hlimit,
    hoffset⟩ := h
  obtain ⟨distinct, items, source, filter, grouping, having, compound, ordering, limit, offset⟩ :=
    query
  have weaken {x : Nat} (hx : x ≤ 3 * n) : x ≤ 3 * n + 2 := by omega
  have hsource : extentOfFrom? .nesting source ≤ 3 * n + 2 :=
    extentOfFrom?_le fun item hitem ↦ Nat.le_of_lt_succ (hsource item hitem)
  have hfront := Nat.max_le.2 ⟨weaken (extentOfItems_le hitems),
    Nat.max_le.2 ⟨hsource, weaken (extentOfExpr?_le hfilter)⟩⟩
  have hmiddle := Nat.max_le.2 ⟨extentOfExprs_le hgrouping, Nat.max_le.2
    ⟨extentOfExpr?_le hhaving, extentOfCompound?_le fun c hc ↦ (hcompound c hc).1⟩⟩
  have hending := Nat.max_le.2 ⟨extentOfOrdering_le hordering,
    Nat.max_le.2 ⟨extentOfExpr?_le hlimit, extentOfExpr?_le hoffset⟩⟩
  exact one_add_le (Nat.max_le.2 ⟨hfront, weaken (Nat.max_le.2 ⟨hmiddle, hending⟩)⟩)

/-- The rows or the query that is inserted. -/
theorem InsertSource.Made.extent_le {source : InsertSource} (h : source.Made (.ofLevels n)) :
    source.extent .nesting ≤ 3 * n := by
  cases h with
  | rows _ hrows =>
    refine extentOfExprs_le fun e he ↦ ?_
    obtain ⟨row, hrow, he⟩ := List.mem_flatten.1 he
    exact (hrows row hrow).2 e he
  | query hquery => exact hquery
  | defaults => exact Nat.zero_le _

/-- A plain statement is one node. -/
theorem Command.extent_of_isPlain {tree : Command} (h : tree.IsPlain) (g : Gauge) :
    tree.extent g = g.step := by
  cases tree with
  | set _ _ value =>
    cases value with
    | default => rfl
    | values => exact h.elim
  | kill job =>
    cases job with
    | none => rfl
    | some => exact h.elim
  | select | insert | update | delete | createTable | explain | optimize => exact h.elim
  | _ => rfl

theorem Command.Made.extent_le {tree : Command} (h : tree.Made (.ofLevels n) (.ofLevels (n + 1))) :
    tree.extent .nesting ≤ 3 * (n + 1) := by
  have inside {x : Nat} (hx : x ≤ 3 * n) : 1 + x ≤ 3 * (n + 1) := by omega
  have weaken {x : Nat} (hx : x ≤ 3 * n) : x ≤ 3 * n + 2 := by omega
  cases h with
  | select hquery => exact inside hquery
  | insert hsource => exact inside hsource.extent_le
  | update _ hassignments hsource hfilter =>
    have hvalues := extentOfExprs_le (List.forall_mem_map.2 hassignments)
    have hitem := extentOfFrom?_le fun item hitem ↦ Nat.le_of_lt_succ (hsource item hitem)
    exact one_add_le (Nat.max_le.2
      ⟨weaken hvalues, Nat.max_le.2 ⟨hitem, weaken (extentOfExpr?_le hfilter)⟩⟩)
  | delete hfilter => exact inside (extentOfExpr?_le hfilter)
  | createTable hcolumns hproperties =>
    have hvalues := extentOfExprs_le (List.forall_mem_map.2 hproperties)
    have hdefinitions := extentOfColumns_le fun column hcolumn ↦
      Nat.le_of_lt_succ (hcolumns column hcolumn)
    exact one_add_le (Nat.max_le.2 ⟨hdefinitions, weaken hvalues⟩)
  | explain hcommand => exact inside hcommand
  | refresh => exact inside (Nat.zero_le _)
  | optimize _ hproperties => exact inside (extentOfExprs_le (List.forall_mem_map.2 hproperties))
  | set _ hvalues => exact inside (extentOfExprs_le hvalues)
  | kill hjob => exact inside hjob
  | plain hplain =>
    rw [extent_of_isPlain hplain]
    exact inside (Nat.zero_le _)

/-- **A level of nesting puts at most three nodes above each other.** -/
theorem Shape.closed_ofLevels (T : Token → Prop) (n : Nat) :
    (ofLevels n).Closed T (ofLevels (n + 1)) where
  expr _ hmade := hmade.extent_le
  type _ hmade := hmade.extent_add_le
  bracketed _ hmade := hmade.extent_le
  column _ hmade := hmade.extent_lt
  source _ hmade := hmade.extent_lt
  query _ hmade := hmade.extent_le
  command _ hmade := hmade.extent_le

end

/-! ### All levels -/

/-- The tree is bounded in height, but for the links of its chains. -/
structure Command.IsBounded (tree : Command) : Prop where
  nesting : tree.extent .nesting ≤ 3 * (Nested.maxDepth + 1)
  height : tree.height ≤ tree.extent .nesting + tree.extent .chaining

/-- The nodes above each other are those of the levels and the links of the chains. -/
theorem Command.height_le (tree : Command) :
    tree.height ≤ tree.extent .nesting + tree.extent .chaining := by
  rw [height, ← Gauge.nesting_add_chaining]
  exact tree.extent_add_le .nesting .chaining

/-- **Every tree is bounded but for its chains**, whatever is asked for at whatever token of a text,
and that of every statement of a batch, whether errors are raised or collected. -/
theorem trees_isBounded (source : String) :
    (∀ (request : Request) (start : Nat) (tree : Command),
      (request.rule.parse (.ofTokens (tokenize source) start)).1 = .ok tree → tree.IsBounded) ∧
    ∀ (raise : Bool) (statements : List Statement), parseBatch source raise = .ok statements →
      ∀ s ∈ statements, ∀ tree, s.tree? = some tree → tree.IsBounded := by
  have hrule (request : Request) :
      (request.ruleWithin Nested.maxDepth).YieldsOn (fun _ ↦ True) Command.IsBounded :=
    (request.yieldsOn_ruleWithin (Shape.closed_ofLevels _) _).mono fun tree hnesting ↦
      ⟨hnesting, tree.height_le⟩
  refine ⟨fun request start tree h ↦ (hrule request).of_parse (fun _ _ ↦ trivial)
    (request.parse_ofTokens _ start ▸ h), ?_⟩
  exact fun raise statements h ↦ forall_tree_of_yieldsOn (hrule .terminated) (fun _ _ ↦ trivial) h

end SqlBatch
