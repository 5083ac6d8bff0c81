import SqlBatch.Lexer
import SqlBatch.Proofs.Depth
import SqlBatch.Proofs.Variation.Command

/-!
# Statements keep their names and values

Level by level, the whole grammar tells two lists of tokens apart that differ in one name or value.
So a tree represents every name and every value that its statement is written with, except those in
a clause that a later one replaces (`tree_ne_or_isReplaced`).

## The exception is real

`CREATE TABLE t (a INT DEFAULT 1 DEFAULT 2)` is read with the second default alone: with `3` for the
first default the tree is the same (`tree_eq_default`), so what the first value was cannot be seen
from it.
-/

namespace SqlBatch

namespace Variation

variable {V : Variation}

/-! ### The whole grammar -/

/-- Being part of a clause that is replaced, at any level, is a reason to be lost. -/
def LosesReplaced (V : Variation) : Prop :=
  ∀ allowance,
    ReplacedIn Token.columnSlot? (ReadsConstraint (.ofAllowance allowance)) Eq V.start V.index ∨
      ReplacedIn Token.keySlot? (ReadsElement (.ofAllowance allowance)) BehindComma V.start
        V.index → V.lost

/-- **All levels**, by induction on how many are left. -/
theorem Inside.ofAllowance (hlost : V.LosesReplaced) (allowance : Nat) :
    V.Inside (.ofAllowance allowance) := by
  induction allowance with
  | zero =>
    exact { statement := .fail, query := .fail, fromItem := .fail, expressionFrom := fun _ ↦ .fail,
            objectType := .fail, elementType := .fail,
            constraint := fun h ↦ hlost 0 (.inl h), element := fun h ↦ hlost 0 (.inr h) }
  | succ allowance ih =>
    exact { statement := .statement ih, query := .query ih, fromItem := .fromItem ih,
            expressionFrom := .expressionFrom ih, objectType := .objectType ih,
            elementType := .elementType ih,
            constraint := fun h ↦ hlost _ (.inl h), element := fun h ↦ hlost _ (.inr h) }

/-- A statement up to the semicolon or the end behind it. -/
theorem Tells.terminatedStatement (hlost : V.LosesReplaced) :
    V.Reveals (Command.relabel .forgetPlaces) .terminatedStatement := by
  refine (statement (Inside.ofAllowance hlost Nested.maxDepth)).bind_any fun a b ↦ ?_
  refine .bind_current fun t u _ ↦ ?_
  split
  · split
    · exact .pure trivial fun heq ↦ ⟨trivial, heq⟩
    · exact .fail_bind_right
  · exact .fail_bind

/-- Two readings that start at the same place are in lockstep. -/
theorem lockstep_ofTokens {tokens tokens' : List Token} {index start : Nat} {lost : Prop}
    (h : DifferAt index tokens tokens') :
    Lockstep ⟨tokens, tokens', index, h, .ofTokens tokens start, lost⟩ (.ofTokens tokens start)
      (.ofTokens tokens' start) :=
  ⟨.here _, rfl, rfl, rfl, rfl⟩

end Variation

/-! ### Statements that are read -/

/-- The run behind an answer with a tree. -/
theorem run_of_tree_parseFrom {tokens : List Token} {start : Nat} {tree : Command}
    (h : (parseFrom tokens start).tree = some tree) :
    ∃ after, Rule.terminatedStatement.run (.ofTokens tokens start) = .done tree after ∧
      (parseFrom tokens start).stop = after.position := by
  rw [parseFrom_eq, Rule.parse] at h ⊢
  generalize Rule.terminatedStatement.run (.ofTokens tokens start) = outcome at h ⊢
  cases outcome with
  | done tree' after =>
    obtain rfl := Option.some.inj h
    exact ⟨after, rfl, rfl⟩
  | failed cause after => cases h

/-- **A tree represents every name and value of its statement**, except those that are replaced. Two
lists of tokens that differ in one name or value of a statement, read from the same place, give
different trees, whatever the places of columns. -/
theorem tree_ne_or_isReplaced {tokens tokens' : List Token} {index start : Nat}
    {tree tree' : Command} (hdiffer : DifferAt index tokens tokens')
    (htree : (parseFrom tokens start).tree = some tree)
    (htree' : (parseFrom tokens' start).tree = some tree') (hstart : start ≤ index)
    (hstop : index < (parseFrom tokens start).stop) :
    tree.relabel .forgetPlaces ≠ tree'.relabel .forgetPlaces ∨ IsReplaced tokens start index := by
  obtain ⟨after, hrun, hafter⟩ := run_of_tree_parseFrom htree
  obtain ⟨after', hrun', -⟩ := run_of_tree_parseFrom htree'
  let V : Variation :=
    ⟨tokens, tokens', index, hdiffer, .ofTokens tokens start, IsReplaced tokens start index⟩
  have hlost : V.LosesReplaced := fun allowance hreplaced ↦ ⟨allowance, hreplaced⟩
  obtain ⟨-, -, htells⟩ := Variation.Tells.terminatedStatement hlost
    (Variation.lockstep_ofTokens hdiffer) trivial hrun hrun'
  by_cases heq : tree.relabel .forgetPlaces = tree'.relabel .forgetPlaces
  · exact .inr ((htells heq).2 ⟨hstart, hafter ▸ hstop⟩)
  · exact .inl heq

/-- A select list with another value in it. -/
theorem tree_ne_or_isReplaced_select : ∃ tree tree',
    (parseFrom (tokenize "SELECT a, 1") 0).tree = some tree ∧
      (parseFrom (tokenize "SELECT a, 2") 0).tree = some tree' ∧
      (tree.relabel .forgetPlaces ≠ tree'.relabel .forgetPlaces ∨
        IsReplaced (tokenize "SELECT a, 1") 0 3) := by
  have hdiffer : DifferAt 3 (tokenize "SELECT a, 1") (tokenize "SELECT a, 2") := by
    have hset : tokenize "SELECT a, 2" =
        (tokenize "SELECT a, 1").set 3 ⟨.integer 2, "2", ⟨10, 11⟩⟩ := by
      decide +kernel
    have htoken : (tokenize "SELECT a, 1")[3]? = some ⟨.integer 1, "1", ⟨10, 11⟩⟩ := by
      decide +kernel
    rw [hset]
    exact .set htoken (.integer (by decide))
  have hread : (parseFrom (tokenize "SELECT a, 1") 0).tree.isSome := by decide +kernel
  have hread' : (parseFrom (tokenize "SELECT a, 2") 0).tree.isSome := by decide +kernel
  have hstop : 3 < (parseFrom (tokenize "SELECT a, 1") 0).stop := by decide +kernel
  obtain ⟨tree, htree⟩ := Option.isSome_iff_exists.1 hread
  obtain ⟨tree', htree'⟩ := Option.isSome_iff_exists.1 hread'
  exact ⟨tree, tree', htree, htree',
    tree_ne_or_isReplaced hdiffer htree htree' (Nat.zero_le _) hstop⟩

/-- Whether the tree is that of a table `t` with a column `a` whose default is 2. -/
def Command.isTableWithDefault : Command → Bool
  | .createTable ⟨false, ⟨none, "t"⟩,
      [⟨"a", .integer, true, some (.literal (.integer 2)), false, none⟩], [], []⟩ => true
  | _ => false

/-- The test recognizes one tree only. -/
theorem Command.eq_of_isTableWithDefault {tree? : Option Command}
    (h : tree?.any isTableWithDefault) :
    tree? = some (.createTable ⟨false, ⟨none, "t"⟩,
      [⟨"a", .integer, true, some (.literal (.integer 2)), false, none⟩], [], []⟩) := by
  cases tree? with
  | none => cases h
  | some tree =>
    rw [Option.any_some] at h
    unfold isTableWithDefault at h
    split at h
    · rfl
    · cases h

/-- The first of two defaults of a column does not matter. -/
theorem tree_eq_default : ∃ tree,
    DifferAt 7 (tokenize "CREATE TABLE t (a INT DEFAULT 1 DEFAULT 2)")
        (tokenize "CREATE TABLE t (a INT DEFAULT 3 DEFAULT 2)") ∧
      (parseFrom (tokenize "CREATE TABLE t (a INT DEFAULT 1 DEFAULT 2)") 0).tree = some tree ∧
      (parseFrom (tokenize "CREATE TABLE t (a INT DEFAULT 3 DEFAULT 2)") 0).tree = some tree ∧
      (parseFrom (tokenize "CREATE TABLE t (a INT DEFAULT 1 DEFAULT 2)") 0).stop = 11 := by
  have hset : tokenize "CREATE TABLE t (a INT DEFAULT 3 DEFAULT 2)" =
      (tokenize "CREATE TABLE t (a INT DEFAULT 1 DEFAULT 2)").set 7
        ⟨.integer 3, "3", ⟨30, 31⟩⟩ := by
    decide +kernel
  have htoken : (tokenize "CREATE TABLE t (a INT DEFAULT 1 DEFAULT 2)")[7]? =
      some ⟨.integer 1, "1", ⟨30, 31⟩⟩ := by
    decide +kernel
  have hdiffer : DifferAt 7 (tokenize "CREATE TABLE t (a INT DEFAULT 1 DEFAULT 2)")
      (tokenize "CREATE TABLE t (a INT DEFAULT 3 DEFAULT 2)") := by
    rw [hset]
    exact .set htoken (.integer (by decide))
  refine ⟨_, hdiffer, Command.eq_of_isTableWithDefault ?_, Command.eq_of_isTableWithDefault ?_, ?_⟩
  all_goals decide +kernel

end SqlBatch
