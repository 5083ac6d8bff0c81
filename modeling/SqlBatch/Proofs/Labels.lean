import Mathlib.Tactic.ByContra
import SqlBatch.Proofs.Vocabulary
import SqlBatch.Tree.Nodes

/-!
# Where the labels of a tree come from

The labels of a tree are its columns with their places and the numbers of its `?` parameters. Each
of them is written in the tokens: a column at the token of a name, a number at a placeholder
(`Cursor.Spells`). Reading uses up what is written, so no label gets into a tree more often than it
stands in the tokens that are passed.

## Counting

`Rule.Draws` is the law: what a rule adds to the labels of what was read before, it takes from the
supply of labels that are still ahead. Counting is what makes it compose. A tree need not keep its
parts in the order in which they are read, and it need not keep all of them, but no part is kept
twice.

The supply of a label is finite and only goes down (`supply_advance_le`). So a label of a tree was
in the supply at some place that was passed, which is where it is written (`exists_spells`).

The laws below are for one label `x` at a time. In `r.Draws x μ before`, the nodes of an answer are
given by `μ`, and `before` are those that stand in the tree already when the rule is started.
-/

namespace SqlBatch

/-! ### Labels -/

/-- A label of a tree. -/
inductive Label where
  | column (table : Option String) (name : String) (span : Span)
  /-- The number of a `?` parameter. -/
  | placeholder (number : Nat)
deriving DecidableEq

/-- The label that a node carries by itself. -/
@[simp] def Node.label? : Node → Option Label
  | .expr (.column table? name span) => some (.column table? name span)
  | .expr (.parameter (.anonymous number)) => some (.placeholder number)
  | _ => none

/-- The labels of nodes, in their order. -/
def labels (nodes : List Node) : List Label :=
  nodes.filterMap Node.label?

/-- No nodes, no labels. -/
@[simp] theorem labels_nil : labels [] = [] := rfl

/-- A node adds its own label, if it has one. -/
@[simp] theorem labels_cons (node : Node) (nodes : List Node) :
    labels (node :: nodes) = node.label?.toList ++ labels nodes := by
  rw [labels, List.filterMap_cons]
  cases node.label? <;> rfl

/-- Labels are collected from left to right. -/
@[simp] theorem labels_append (nodes others : List Node) :
    labels (nodes ++ others) = labels nodes ++ labels others :=
  List.filterMap_append

/-- The columns among the nodes are those among the labels. -/
theorem column_mem_labels {nodes : List Node} {table? : Option String} {name : String}
    {span : Span} : .column table? name span ∈ labels nodes ↔
      .expr (.column table? name span) ∈ nodes := by
  rw [labels, List.mem_filterMap]
  constructor
  · rintro ⟨node, hnode, hlabel⟩
    unfold Node.label? at hlabel
    split at hlabel <;> cases hlabel
    exact hnode
  · exact fun hnode ↦ ⟨_, hnode, rfl⟩

/-! ### The supply of labels -/

namespace Cursor

/-- The label is written at the current token. -/
def Spells (c : Cursor) : Label → Prop
  | .placeholder number => c.current.isSymbol .question ∧ number = c.placeholders + 1
  | .column none name span => c.current.name? = some name ∧ span = c.current.span
  | .column (some table) name span => c.current.name? = some table ∧
    c.advance.current.isSymbol .dot ∧ c.advance.advance.current.name? = some name ∧
      span = c.current.span.through c.advance.advance.current.span

instance (c : Cursor) (x : Label) : Decidable (c.Spells x) :=
  match x with
  | .placeholder _ => inferInstanceAs (Decidable (_ ∧ _))
  | .column none _ _ => inferInstanceAs (Decidable (_ ∧ _))
  | .column (some _) _ _ => inferInstanceAs (Decidable (_ ∧ _ ∧ _ ∧ _))

/-- How often a label is written at the next `n` tokens. -/
def supplyIn (x : Label) : Nat → Cursor → Nat
  | 0, _ => 0
  | n + 1, c => (if c.Spells x then 1 else 0) + supplyIn x n c.advance

/-- How often a label is written in the tokens ahead. -/
def supply (x : Label) (c : Cursor) : Nat :=
  c.supplyIn x c.ahead.length

variable {x : Label} {c after : Cursor}

/-- Moving past a token uses up the label that is written there. -/
theorem supply_of_isOpen (h : c.current.isOpen) :
    c.supply x = (if c.Spells x then 1 else 0) + c.advance.supply x := by
  have hlength : c.ahead.length = c.advance.ahead.length + 1 := by
    rw [ahead_eq_cons_of_isOpen h, List.length_cons]
  rw [supply, hlength, supplyIn, supply]

/-- A label that is written at the current token can be taken from there. -/
theorem count_add_supply_le {y : Label} (hopen : c.current.isOpen) (h : c.Spells y) :
    [y].count x + c.advance.supply x ≤ c.supply x := by
  rw [supply_of_isOpen hopen, List.count_singleton]
  by_cases hy : y = x
  · subst hy
    refine Nat.le_of_eq ?_
    rw [if_pos h, if_pos (beq_self_eq_true y)]
  · rw [if_neg (by simpa using hy)]
    exact Nat.add_le_add_right (Nat.zero_le _) _

/-- Moving past a token adds nothing to the supply. -/
theorem supply_advance_le (x : Label) (c : Cursor) : c.advance.supply x ≤ c.supply x := by
  by_cases h : c.current.isOpen
  · exact (supply_of_isOpen h).symm ▸ Nat.le_add_left _ _
  · exact Nat.le_of_eq (congrArg (supply x) (advance_of_not_isOpen h))

/-- Reading adds nothing to the supply. -/
theorem Reaches.supply_le (h : c.Reaches after) : after.supply x ≤ c.supply x := by
  induction h with
  | here => exact Nat.le_refl _
  | onward _ ih => exact Nat.le_trans ih (supply_advance_le x _)

/-- What has been used up was written at a token that was passed. -/
theorem Reaches.exists_spells (h : c.Reaches after) (hlt : after.supply x < c.supply x) :
    ∃ mid, c.Reaches mid ∧ mid.current.isOpen ∧ mid.Spells x ∧ mid.advance.Reaches after := by
  induction h with
  | here => exact absurd hlt (Nat.lt_irrefl _)
  | @onward c after h ih =>
    by_cases hlater : after.supply x < c.advance.supply x
    · obtain ⟨mid, hmid, hspells⟩ := ih hlater
      exact ⟨mid, .onward hmid, hspells⟩
    · by_cases hopen : c.current.isOpen
      · refine ⟨c, .here c, hopen, ?_, h⟩
        by_contra hspells
        rw [supply_of_isOpen hopen, if_neg hspells] at hlt
        omega
      · rw [advance_of_not_isOpen hopen] at hlater
        exact absurd hlt hlater

end Cursor

/-! ### What rules add to the labels -/

namespace Rule

variable {α β : Type} {x : Label} {μ : α → List Node} {ν : β → List Node} {before : List Node}
  {r s : Rule α}

/-- From a cursor, the rule takes what it adds from the supply: beside the nodes that were read
before, the nodes of its answer carry a label no more often than it is written in the tokens
passed. -/
def DrawsAt (x : Label) (μ : α → List Node) (before : List Node) (r : Rule α) (c : Cursor) : Prop :=
  ∀ ⦃a after⦄, r.run c = .done a after →
    (labels (μ a)).count x + after.supply x ≤ (labels before).count x + c.supply x

/-- **The rule takes what it adds from the supply**, from whatever cursor. -/
def Draws (x : Label) (μ : α → List Node) (before : List Node) (r : Rule α) : Prop :=
  ∀ ⦃c⦄, r.DrawsAt x μ before c

namespace Draws

/-- Where more stands in the tree before, less is to be drawn. -/
theorem mono {more : List Node} (hr : r.Draws x μ before)
    (hle : (labels before).count x ≤ (labels more).count x) : r.Draws x μ more :=
  fun _ _ _ hrun ↦ Nat.le_trans (hr hrun) (Nat.add_le_add_right hle _)

/-- An answer that has no more labels than what was read. -/
protected theorem pure {a : α} (h : (labels (μ a)).count x ≤ (labels before).count x) :
    (pure a : Rule α).Draws x μ before := by
  rintro c _ _ ⟨⟩
  exact Nat.add_le_add_right h _

/-- A node without a label over what was read before. -/
theorem node {a : α} {node : Node} (h : μ a = node :: before) (hnode : node.label? = Option.none) :
    (pure a : Rule α).Draws x μ before := by
  refine .pure (Nat.le_of_eq ?_)
  rw [h, labels_cons, hnode]
  rfl

/-- A rule that fails puts nothing into a tree. -/
theorem fail {cause : SyntaxError.Cause} : (Rule.fail cause : Rule α).Draws x μ before := by
  rintro c a after ⟨⟩

/-- The nodes read before are in the same account as those that a rule answers with. -/
protected theorem bind {k : α → Rule β} (hr : r.Draws x μ [])
    (hk : ∀ a, (k a).Draws x ν (before ++ μ a)) : (r >>= k).Draws x ν before := by
  intro c b after hrun
  obtain ⟨a, mid, hfirst, hrest⟩ := exists_of_run_bind hrun
  have hle := hr hfirst
  have hle' := hk a hrest
  simp only [labels_nil, labels_append, List.count_nil, List.count_append] at hle hle'
  omega

/-- Going on behind a value of which no node is kept. -/
theorem bind_any {r : Rule α} {k : α → Rule β} (hk : ∀ a, (k a).Draws x ν before) :
    (r >>= k).Draws x ν before := by
  intro c b after hrun
  obtain ⟨a, mid, hfirst, hrest⟩ := exists_of_run_bind hrun
  exact Nat.le_trans (hk a hrest) (Nat.add_le_add_left (reaches_of_run hfirst).supply_le _)

/-- A rule that looks at the current token. -/
theorem bind_current {k : Token → Rule β} (hk : ∀ c, (k c.current).DrawsAt x ν before c) :
    (current >>= k).Draws x ν before :=
  fun c _ _ hrun ↦ hk c hrun

/-- A value made of another one, with no more labels than that one and what was read before. -/
protected theorem map {f : α → β} (hr : r.Draws x μ [])
    (hf : ∀ a, (labels (ν (f a))).count x ≤ (labels (before ++ μ a)).count x) :
    (f <$> r).Draws x ν before := by
  rw [map_eq_bind]
  exact hr.bind fun a ↦ .pure (hf a)

/-- A choice draws what its branches do. -/
protected theorem ite {p : Prop} [Decidable p] (hr : r.Draws x μ before)
    (hs : s.Draws x μ before) : (if p then r else s).Draws x μ before := by
  split
  · exact hr
  · exact hs

/-- A repetition adds to the nodes of the value that it starts with. -/
protected theorem iterate {step : α → Rule (Option α)}
    (hstep : ∀ a, (step a).Draws x (·.toList.flatMap μ) (μ a)) (a : α) :
    (iterate step a).Draws x μ (μ a) := by
  intro c b after hrun
  change iterateFrom step a c = _ at hrun
  fun_induction iterateFrom step a c with
  | case1 => cases hrun
  | case2 a c after' h =>
    cases hrun
    exact Nat.add_le_add_left (reaches_of_run h).supply_le _
  | case3 a c b' after' h _ ih =>
    have hround := hstep a h
    simp only [Option.toList_some, List.flatMap_singleton] at hround
    exact Nat.le_trans (ih hrun) hround
  | case4 a c b' after' h _ =>
    cases hrun
    have hround := hstep a h
    simpa only [Option.toList_some, List.flatMap_singleton] using hround

/-! ### Clauses and lists -/

/-- A value that is always there. -/
theorem some (h : r.Draws x μ before) :
    (Option.some <$> r).Draws x (·.toList.flatMap μ) before := by
  intro c a? after hrun
  obtain ⟨a, ha, rfl⟩ := exists_of_run_map hrun
  simp only [Option.toList_some, List.flatMap_singleton]
  exact h ha

/-- A missing value has no labels. -/
theorem none : (pure Option.none : Rule (Option α)).Draws x (·.toList.flatMap μ) before :=
  .pure (Nat.zero_le _)

/-- A clause draws what its rule does, or nothing. -/
theorem clause (keyword : Keyword) (h : r.Draws x μ []) :
    (Rule.clause keyword r).Draws x (·.toList.flatMap μ) [] :=
  .bind_any fun _ ↦ .ite h.some .none

theorem listClause (keyword : Keyword) {r : Rule (List α)} (h : r.Draws x (·.flatMap μ) []) :
    (Rule.listClause keyword r).Draws x (·.flatMap μ) [] := by
  refine (clause keyword h).bind fun items? ↦ .pure ?_
  rcases items? with _ | items
  · exact Nat.zero_le _
  · simp

/-- Items one after another, each of which draws its own labels. -/
theorem many {r : Rule (Option α)} (h : r.Draws x (·.toList.flatMap μ) []) :
    (Rule.many r).Draws x (·.flatMap μ) [] := by
  have hround (items : List α) : (Option.map (· :: items) <$> r).Draws x
      (·.toList.flatMap (·.flatMap μ)) (items.flatMap μ) := by
    refine h.map fun item? ↦ ?_
    rcases item? with _ | item
    · exact Nat.zero_le _
    · simp [Nat.add_comm]
  have hitems : (iterate (fun items ↦ Option.map (· :: items) <$> r) []).Draws x (·.flatMap μ) [] :=
    .iterate hround []
  refine hitems.map fun items ↦ Nat.le_of_eq ?_
  exact ((items.reverse_perm.flatMap_right μ).filterMap _).count_eq x

theorem another (h : r.Draws x μ []) : (Rule.another r).Draws x (·.toList.flatMap μ) [] :=
  .bind_any fun _ ↦ .ite h.some .none

/-- Items with commas between them. -/
theorem commaSeparated (h : r.Draws x μ []) :
    (Rule.commaSeparated r).Draws x (·.flatMap μ) [] :=
  h.bind fun _ ↦ (many h.another).bind fun _ ↦ .pure (Nat.le_of_eq rfl)

/-- Parentheses have no labels. -/
theorem parenthesized (h : r.Draws x μ []) : (Rule.parenthesized r).Draws x μ [] :=
  .bind_any fun _ ↦ h.bind fun _ ↦ .bind_any fun _ ↦ .pure (Nat.le_refl _)

end Draws

end Rule

end SqlBatch
