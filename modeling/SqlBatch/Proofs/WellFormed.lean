import SqlBatch.Proofs.Assembly.Nodes
import SqlBatch.Proofs.Assembly.Statement
import SqlBatch.Proofs.Lexing.Words

/-!
# Trees are well formed

What the tree types allow, but no tree has: an empty select list, a cross join with a condition, a
nullable primary key and the like. `Command.IsWellFormed` says it node by node. Each form of the
grammar makes well-formed nodes alone, and the lexer well-formed numbers, so all trees are well
formed (`trees_isWellFormed`).

## Where the conditions come from

Most of them are read off the form that makes a node, and hold whatever is inside. Those of numbers
come from the lexer, which writes a number as an integer, or by its digits if it is too large for
one. That a list is not empty is part of the form where the grammar asks for at least one item.
-/

namespace SqlBatch

/-! ### Well-formed nodes -/

/-- A number is an integer below `2 ^ 63`, or the decimal digits of one from there on. -/
def Literal.IsWellFormed : Literal → Prop
  | .integer value => value < 0x8000000000000000
  | .numeric digits =>
    (∀ d ∈ digits.toList, d.isDigit) ∧ 0x8000000000000000 ≤ Scan.decimalValue digits.toList
  | _ => True

/-- A case expression has an arm, and a list of values a value. -/
def Expr.IsWellFormed : Expr → Prop
  | .literal value => value.IsWellFormed
  | .case _ branches _ => branches ≠ []
  | .isIn _ list _ => list ≠ []
  | _ => True

/-- A query has a column, and the ordering and limits behind a combined query are not its own. -/
structure Query.IsWellFormed (query : Query) : Prop where
  items_ne : query.items ≠ []
  ending : query.compound.isSome →
    query.ordering = [] ∧ query.limit = none ∧ query.offset = none

/-- The item is a plain table. -/
def FromItem.IsTable : FromItem → Prop
  | .table _ _ => True
  | _ => False

/-- Cross joins have no condition, and all others have one; where it is by columns, there is one. -/
def JoinCondition.Suits (kind : JoinKind) : JoinCondition → Prop
  | .none => kind = .cross
  | .on _ => kind ≠ .cross
  | .using columns => kind ≠ .cross ∧ columns ≠ []

/-- What is joined is a plain table, on a condition that suits the join. -/
def FromItem.IsWellFormed : FromItem → Prop
  | .join _ kind right condition => right.IsTable ∧ condition.Suits kind
  | _ => True

/-- The size of a decimal type. -/
def DataType.size? : DataType → Option DecimalSize
  | .decimal size | .numeric size => size
  | _ => none

/-- A decimal type has a scale only behind a precision. -/
def DataType.IsWellFormed (type : DataType) : Prop :=
  (type.size?.bind (·.scale)).isSome → (type.size?.map (·.precision)).isSome

/-- A primary key is not nullable. -/
def ColumnDef.IsWellFormed (column : ColumnDef) : Prop :=
  column.primaryKey → column.nullable = false

/-- The node is well formed by itself. -/
def Node.IsWellFormed : Node → Prop
  | .expr e => e.IsWellFormed
  | .query q => q.IsWellFormed
  | .source item => item.IsWellFormed
  | .type t => t.IsWellFormed
  | .column c => c.IsWellFormed
  | .table _ => True

/-- Rows are given, and none of them is empty. -/
def InsertSource.IsWellFormed : InsertSource → Prop
  | .rows rs => rs ≠ [] ∧ ∀ row ∈ rs, row ≠ []
  | _ => True

/-- What the statement lists itself is not empty. -/
def Command.ListsItems : Command → Prop
  | .insert i => i.source.IsWellFormed
  | .update u => u.assignments ≠ []
  | .refresh tables | .optimize tables _ => tables ≠ []
  | .set _ _ (.values values) => values ≠ []
  | .explain _ command => command.ListsItems
  | _ => True

/-- The tree is well formed, everywhere inside. -/
structure Command.IsWellFormed (tree : Command) : Prop where
  listsItems : tree.ListsItems
  nodes : ∀ node ∈ tree.nodes, node.IsWellFormed

/-! ### Well-formed numbers -/

/-- What the token stands for, if it is a literal, is well formed. -/
def Token.IsWellFormed (token : Token) : Prop :=
  ∀ value, Literal.ofKind? token.kind = some value → value.IsWellFormed

/-- A literal that a token spells is within its range. -/
theorem Scan.Makes.isWellFormed {c : Char} {cs : List Char} {kind : Token.Kind}
    (h : Makes c cs kind) {value : Literal} (hvalue : Literal.ofKind? kind = some value) :
    value.IsWellFormed := by
  cases h with
  | integer hlt =>
    cases hvalue
    exact hlt
  | numeric hdigits hge =>
    cases hvalue
    rw [Literal.IsWellFormed, String.toList_ofList]
    exact ⟨hdigits, hge⟩
  | keyword keyword =>
    unfold Literal.ofKind? at hvalue
    split at hvalue <;> cases hvalue <;> trivial
  | float | string | blob =>
    cases hvalue
    trivial
  | symbol | identifier | parameter | error => cases hvalue

/-- The tokens of a text spell well-formed literals. -/
theorem isWellFormed_of_mem_tokenize {source : String} {t : Token} (h : t ∈ tokenize source) :
    t.IsWellFormed := by
  intro value hvalue
  have hopen : t.isEof = false := by
    refine Bool.eq_false_iff.2 fun heof ↦ ?_
    rw [beq_iff_eq.1 heof] at hvalue
    cases hvalue
  obtain ⟨c, cs, hstands⟩ := exists_standsAt h hopen
  have hmakes := makes_scan c cs
  rw [← hstands.kind] at hmakes
  exact hmakes.isWellFormed hvalue

/-! ### Well-formed trees -/

/-- The trees that are well formed everywhere. -/
def Shape.wellFormed : Shape :=
  .ofNodes Node.IsWellFormed Command.ListsItems

variable {I O : Shape}

theorem Expr.Made.isWellFormed {e : Expr} (h : e.Made Token.IsWellFormed I O) :
    e.IsWellFormed := by
  cases h with
  | literal htoken hvalue => exact htoken _ hvalue
  | case hbranches => exact hbranches
  | isIn _ hlist => exact hlist
  | isInQuery => exact List.cons_ne_nil _ _
  | _ => trivial

theorem FromItem.Made.isWellFormed {C : Command → Prop} {item : FromItem}
    (h : item.Made (.ofNodes Node.IsWellFormed C) O) : item.IsWellFormed := by
  cases h with
  | table | subquery => trivial
  | paren hitem => exact hitem _ item.self_mem_nodes
  | cross => exact ⟨trivial, rfl⟩
  | on _ hkind => exact ⟨trivial, hkind⟩
  | «using» _ hkind hcolumns => exact ⟨trivial, hkind, hcolumns⟩

/-- The size of a decimal type always has a precision. -/
theorem DataType.isWellFormed (type : DataType) : type.IsWellFormed := by
  intro hscale
  obtain ⟨scale, hscale⟩ := Option.isSome_iff_exists.1 hscale
  obtain ⟨size, hsize, -⟩ := Option.bind_eq_some_iff.1 hscale
  rw [hsize]
  rfl

/-- What a query is made of. -/
theorem Query.Made.isWellFormed {query : Query} (h : query.Made I O) : query.IsWellFormed where
  items_ne := h.items_ne
  ending hcompound := by
    obtain ⟨compound, hcompound⟩ := Option.isSome_iff_exists.1 hcompound
    exact (h.compound compound hcompound).2

/-- The rows to insert are there, and none of them is empty. -/
theorem InsertSource.Made.isWellFormed {source : InsertSource} (h : source.Made I) :
    source.IsWellFormed := by
  cases h with
  | rows hrows hall => exact ⟨hrows, fun row hrow ↦ (hall row hrow).1⟩
  | query | defaults => trivial

/-- A plain statement lists nothing. -/
theorem Command.listsItems_of_isPlain {tree : Command} (h : tree.IsPlain) : tree.ListsItems := by
  cases tree with
  | set _ _ value =>
    cases value with
    | default => trivial
    | values => exact h.elim
  | insert | update | refresh | optimize | explain => exact h.elim
  | _ => trivial

/-- A statement that lists items has one. -/
theorem Command.Made.listsItems {P : Node → Prop} {tree : Command}
    (h : tree.Made (.ofNodes P Command.ListsItems) O) : tree.ListsItems := by
  cases h with
  | insert hsource => exact hsource.isWellFormed
  | update hassignments => exact hassignments
  | explain hcommand => exact hcommand.1
  | refresh htables | optimize htables => exact htables
  | set hvalues => exact hvalues
  | plain hplain => exact listsItems_of_isPlain hplain
  | select | delete | createTable | kill => trivial

/-- Every form makes well-formed trees of well-formed ones. -/
theorem Shape.closed_wellFormed : wellFormed.Closed Token.IsWellFormed wellFormed :=
  closed_ofNodes (fun _ h ↦ h.isWellFormed) DataType.isWellFormed (fun _ h ↦ h.nullable)
    (fun _ h ↦ h.isWellFormed) (fun _ h ↦ h.isWellFormed) (fun _ ↦ trivial)
    fun _ h ↦ h.listsItems

/-- **Every tree is well formed**, whatever is asked for at whatever token of a text, and that of
every statement of a batch, whether errors are raised or collected. -/
theorem trees_isWellFormed (source : String) :
    (∀ (request : Request) (start : Nat) (tree : Command),
      (request.rule.parse (.ofTokens (tokenize source) start)).1 = .ok tree →
        tree.IsWellFormed) ∧
    ∀ (raise : Bool) (statements : List Statement), parseBatch source raise = .ok statements →
      ∀ s ∈ statements, ∀ tree, s.tree? = some tree → tree.IsWellFormed := by
  have htokens : ∀ t ∈ tokenize source, t.IsWellFormed := fun _ ↦ isWellFormed_of_mem_tokenize
  have hrule (request : Request) :
      (request.ruleWithin Nested.maxDepth).YieldsOn Token.IsWellFormed Command.IsWellFormed :=
    (request.yieldsOn_ruleWithin (fun _ ↦ Shape.closed_wellFormed) _).mono fun _ h ↦ ⟨h.1, h.2⟩
  refine ⟨fun request start tree h ↦ (hrule request).of_parse htokens
    (request.parse_ofTokens _ start ▸ h), ?_⟩
  exact fun raise statements h ↦ forall_tree_of_yieldsOn (hrule .terminated) htokens h

end SqlBatch
