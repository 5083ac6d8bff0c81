import SqlBatch.Grammar.DataType
import SqlBatch.Proofs.Replay.Terminal

/-!
# Types and column definitions replay

The rules of the grammar take the rules for nested constructs from a collection. They replay from
one collection to another that replays it (`Replay.Inside`): the two need not be the same, and where
levels are counted differently they are not.

## Looking one token further

This module is the first with a rule that looks one token further: the columns of an object type
stand behind `AS (`. The law for such rules is `lookahead`. It asks two things of what is looked
for: that it is the same in tokens that are alike, and that no token is it that ends a statement,
since behind the last common token the second list may end.

## Column definitions

The constraints of a column are read in a loop that carries the column along. In the second reading
it carries the same column with its labels changed, and as each constraint adds to the column what
replays, the loop keeps it so (`columnConstraint`).
-/

namespace SqlBatch

namespace Replay

variable {R : Replay} {inner inner' : Nested}

/-- One collection of rules for nested constructs replays another. -/
structure Inside (R : Replay) (inner inner' : Nested) : Prop where
  statement : R.Replays (Command.relabel R.labels) inner.statement inner'.statement
  query : R.Replays (Query.relabel R.labels) inner.query inner'.query
  fromItem : R.Replays (FromItem.relabel R.labels) inner.fromItem inner'.fromItem
  expressionFrom (power : Nat) : R.Replays (Expr.relabel R.labels)
    (inner.expressionFrom power) (inner'.expressionFrom power)
  objectType : R.Replays (DataType.relabel R.labels) inner.objectType inner'.objectType
  elementType : R.Replays (DataType.relabel R.labels) inner.elementType inner'.elementType

/-- An expression of any power. -/
theorem Inside.expression (h : R.Inside inner inner') :
    R.Replays (Expr.relabel R.labels) inner.expression inner'.expression :=
  h.expressionFrom 0

/-- Expressions separated by commas. -/
theorem Inside.expressions (h : R.Inside inner inner') :
    R.Replays (List.map (Expr.relabel R.labels)) inner.expressions inner'.expressions :=
  .commaSeparated h.expression

namespace Replays

/-! ### Sizes and policies -/

/-- Sizes have no labels. -/
theorem decimalSize : R.Replays id .decimalSize .decimalSize := by
  refine (sees (by decide)).bind_id fun _ ↦ .ite (.map (parenthesized ?_) fun _ ↦ rfl) (.pure none)
  refine (size 65535).bind_id fun precision ↦ (accept (by decide)).bind_id fun _ ↦ .ite ?_ (.pure _)
  exact (size 65535).bind_id fun scale ↦ .pure _

/-- A length has no label. -/
theorem characterLength : R.Replays id .characterLength .characterLength := by
  refine (sees (by decide)).bind_id fun _ ↦ .ite ?_ (.pure none)
  exact (parenthesized (size 4294967295)).bind_id fun length ↦ .pure _

/-- The keyword of a policy is the same in both lists. -/
theorem objectPolicy : R.Replays id .objectPolicy .objectPolicy := by
  refine bind_current fun t u htu ↦ ?_
  rw [htu.keyword?]
  split
  · exact advance.bind_id fun _ ↦ .pure _
  · exact .fail trivial

/-! ### Types -/

/-- A type of one keyword has no labels to change. -/
theorem relabel_of_ofKeyword? {keyword : Keyword} {type : DataType} {f : Relabeling}
    (h : DataType.ofKeyword? keyword = some type) : type.relabel f = type := by
  unfold DataType.ofKeyword? at h
  split at h <;> cases h <;> rfl

/-- **Types.** The name of a type is the same in both lists; where there is none, both readings
fail. -/
theorem dataType (h : R.Inside inner inner') :
    R.Replays (DataType.relabel R.labels) (.dataType inner) (.dataType inner') := by
  refine bind_current fun t u htu ↦ ?_
  rcases htu.eq_or_kind with rfl | ⟨ht, n, hu⟩ | ⟨ht | ht, hu | hu⟩
  · rw [token_kind]
    split
    · exact advance.bind_id fun _ ↦ .pure (DataType.custom _)
    · split
      · rename_i keyword type htype
        have answer : R.Replays (DataType.relabel R.labels) (pure type) (pure type) :=
          .pure_of_eq (relabel_of_ofKeyword? htype)
        refine advance.bind_id fun _ ↦ .ite ?_ answer
        exact (acceptKeyword .PRECISION).bind_id fun _ ↦ answer
      · split
        · exact advance.bind_id fun _ ↦ decimalSize.bind_id fun _ ↦ .pure (DataType.decimal _)
        · exact advance.bind_id fun _ ↦ decimalSize.bind_id fun _ ↦ .pure (DataType.numeric _)
        · exact advance.bind_id fun _ ↦ characterLength.bind_id fun _ ↦ .pure (DataType.char _)
        · exact advance.bind_id fun _ ↦ characterLength.bind_id fun _ ↦ .pure (DataType.varchar _)
        · exact advance.bind_id fun _ ↦ h.objectType
        · refine advance.bind_id fun _ ↦ h.elementType.bind fun element ↦ ?_
          exact .pure (DataType.array element)
        · exact .fail trivial
    · exact .fail trivial
  all_goals
    simp only [ht, hu]
    exact .fail trivial

/-- The element type of an array. -/
theorem elementType (h : R.Inside inner inner') :
    R.Replays (DataType.relabel R.labels) (.elementType inner) (.elementType inner') :=
  parenthesized (dataType h)

/-! ### Column definitions -/

/-- The constraint is added to a definition whose labels have been changed. -/
theorem columnConstraint (h : R.Inside inner inner') (column : ColumnDef) :
    R.Replays (Option.map (ColumnDef.relabel R.labels)) (.columnConstraint inner column)
      (.columnConstraint inner' (column.relabel R.labels)) := by
  obtain ⟨name, type, nullable, default, primaryKey, generated⟩ := column
  refine bind_current fun t u htu ↦ ?_
  rw [htu.keyword?]
  split
  · exact advance.bind_id fun _ ↦ (keyword .NULL).bind_id fun _ ↦ .pure_of_eq rfl
  · exact advance.bind_id fun _ ↦ .pure_of_eq rfl
  · exact advance.bind_id fun _ ↦ (keyword .KEY).bind_id fun _ ↦ .pure_of_eq rfl
  · exact advance.bind_id fun _ ↦ h.expression.bind fun value ↦ .pure_of_eq rfl
  · refine advance.bind_id fun _ ↦ (keyword .ALWAYS).bind_id fun _ ↦ ?_
    exact (keyword .AS).bind_id fun _ ↦ h.expression.bind fun value ↦ .pure_of_eq rfl
  · exact advance.bind_id fun _ ↦ h.expression.bind fun value ↦ .pure_of_eq rfl
  · exact .pure none

/-- As many constraints are read from both lists. -/
theorem columnDef (h : R.Inside inner inner') :
    R.Replays (ColumnDef.relabel R.labels) (.columnDef inner) (.columnDef inner') := by
  refine identifier.bind_id fun name ↦ (dataType h).bind fun type ↦ ?_
  exact iterate (columnConstraint h) _

/-! ### Looking one token further -/

/-- **A token behind the current one that is looked for.** Either both readings find it, or neither
does: the second list knows no more of that token than the first, and a first reading that finds it
goes on past the current token. -/
theorem following_eq_of_lookahead {c d : Cursor} {wanted : Token → Bool} (hcd : R.Agree c d)
    (halike : ∀ {k : Nat} (t u : Token), R.Alike k t u → wanted u = wanted t)
    (hends : ∀ t, t.endsStatement → wanted t = false) (hopen : c.current.isOpen)
    (hmoves : wanted c.following → c.position < R.stop) :
    wanted d.following = wanted c.following := by
  by_cases hfound : wanted c.following
  · obtain ⟨k, hnext⟩ := hcd.following_of_lt (hmoves hfound)
    exact halike _ _ hnext
  · have hcurrent : c.current.endsStatement = false := by
      simp only [Token.isOpen, Bool.and_eq_true, Bool.not_eq_true'] at hopen
      exact hopen.1
    rcases hcd.following hcurrent with ⟨k, hnext⟩ | hd
    · exact halike _ _ hnext
    · rw [hends _ hd, Bool.eq_false_iff.2 hfound]

/-- A word in front of what is looked for: both readings take it or neither does. -/
theorem lookahead {α α' : Type} {φ : α → α'} {keyword : Keyword} {wanted : Token → Bool}
    {r r' : Rule α} {s s' : Rule α'}
    (halike : ∀ {k : Nat} (t u : Token), R.Alike k t u → wanted u = wanted t)
    (hends : ∀ t, t.endsStatement → wanted t = false) (h : R.Replays φ r s)
    (h' : R.Replays φ r' s') :
    R.Replays φ (.lookahead keyword wanted r r') (.lookahead keyword wanted s s') := by
  intro c d hcd hstop
  rw [Rule.run_lookahead] at hstop ⊢
  rw [Rule.run_lookahead, hcd.current.isKeyword]
  by_cases hkeyword : c.current.isKeyword keyword
  · rw [hkeyword, Bool.true_and] at hstop ⊢
    have hopen : c.current.isOpen := Token.isOpen_of_isKeyword hkeyword
    have hmoves (hfound : wanted c.following) : c.advance.position ≤ R.stop := by
      rw [if_pos hfound] at hstop
      exact Nat.le_trans (r.forward c.advance).position_le hstop
    rw [Bool.true_and, following_eq_of_lookahead hcd halike hends hopen]
    · by_cases hfound : wanted c.following
      · simp only [if_pos hfound] at hstop ⊢
        exact h (hcd.advance (hmoves hfound)) hstop
      · simp only [if_neg hfound] at hstop ⊢
        exact h' hcd hstop
    · intro hfound
      have hle := hmoves hfound
      rwa [Cursor.position_advance_of_isOpen hopen] at hle
  · rw [Bool.eq_false_iff.2 hkeyword, Bool.false_and, if_neg (by simp)] at hstop ⊢
    rw [Bool.false_and, if_neg (by simp)]
    exact h' hcd hstop

/-- Columns of an object type, whose labels change one by one. -/
theorem objectColumns (h : R.Inside inner inner') (policy : Option ObjectPolicy) :
    R.Replays (DataType.relabel R.labels) (.objectColumns inner policy)
      (.objectColumns inner' policy) := by
  refine lookahead (fun _ _ htu ↦ htu.isSymbol (by decide))
    (fun _ ht ↦ Token.isSymbol_of_endsStatement ht (by decide)) ?_ (.pure_of_eq rfl)
  refine (parenthesized (commaSeparated (columnDef h))).bind fun columns ↦ .pure_of_eq ?_
  rw [DataType.relabel, relabelColumns_eq_map]

/-- The policy of an object type has no labels, its columns have. -/
theorem objectType (h : R.Inside inner inner') :
    R.Replays (DataType.relabel R.labels) (.objectType inner) (.objectType inner') := by
  have policy : R.Replays id (some <$> Rule.parenthesized .objectPolicy)
      (some <$> Rule.parenthesized .objectPolicy) :=
    (parenthesized objectPolicy).map fun _ ↦ rfl
  exact (sees (by decide)).bind_id fun _ ↦
    .ite (policy.bind_id (objectColumns h)) (objectColumns h none)

end Replays
end Replay
end SqlBatch
