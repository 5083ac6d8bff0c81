import SqlBatch.Proofs.Stages
import SqlBatch.Proofs.Variation.Replacement
import SqlBatch.Tree.Relabel

/-!
# Types and column definitions tell names and values apart

A rule that reads inside a level of nesting is `Inside`: it tells names and values apart at that
level, and a clause that is replaced is a reason for a loss. Everything from here on is proved from
that, for one level more.

## Sizes

Sizes are kept as machine words. What is read was within the bounds of the word, so that equal words
come from equal numbers.

## Column definitions

The constraints of a column are a list, read in a loop that carries the column along. A default or a
generated expression fills a slot which a later one can fill again (`ToldColumn`). What both
readings have told apart by then stays told unless the slot is filled again, and this is the
invariant of the loop (`ToldColumn.step`).
-/

namespace SqlBatch

/-- Where a column has no further constraint, nothing is read. -/
theorem Rule.eq_of_run_columnConstraint {inner : Nested} {column : ColumnDef} {c after : Cursor}
    (h : (columnConstraint inner column).run c = .done none after) : after = c := by
  rw [columnConstraint, run_bind, run_current] at h
  simp only at h
  split at h
  case h_7 =>
    cases h
    rfl
  all_goals
    repeat obtain ⟨_, _, -, h⟩ := exists_of_run_bind h
    cases h

namespace Variation

variable {V : Variation} {inner : Nested}

/-- The rules inside a level of nesting tell names and values apart, and a clause that is replaced
is a reason that the token in which the lists differ is lost. -/
structure Inside (V : Variation) (inner : Nested) : Prop where
  statement : V.Reveals (Command.relabel .forgetPlaces) inner.statement
  query : V.Reveals (Query.relabel .forgetPlaces) inner.query
  fromItem : V.Reveals (FromItem.relabel .forgetPlaces) inner.fromItem
  expressionFrom (power : Nat) :
    V.Reveals (Expr.relabel .forgetPlaces) (inner.expressionFrom power)
  objectType : V.Reveals (DataType.relabel .forgetPlaces) inner.objectType
  elementType : V.Reveals (DataType.relabel .forgetPlaces) inner.elementType
  constraint : ReplacedIn Token.columnSlot? (ReadsConstraint inner) Eq V.start V.index → V.lost
  element : ReplacedIn Token.keySlot? (ReadsElement inner) BehindComma V.start V.index → V.lost

theorem Inside.expression (h : V.Inside inner) :
    V.Reveals (Expr.relabel .forgetPlaces) inner.expression :=
  h.expressionFrom 0

/-- Expressions at the level, with commas between them. -/
theorem Inside.expressions (h : V.Inside inner) :
    V.Reveals (List.map (Expr.relabel .forgetPlaces)) inner.expressions :=
  .commaSeparated h.expression

namespace Tells

/-! ### Sizes and policies -/

/-- Small words that are equal come from equal numbers. -/
theorem eq_of_toUInt16 {a b : Nat} (h : Within 65535 a b) (heq : UInt16.ofNat a = UInt16.ofNat b) :
    a = b := by
  have hmod := congrArg UInt16.toNat heq
  rw [UInt16.toNat_ofNat', UInt16.toNat_ofNat'] at hmod
  obtain ⟨ha, hb⟩ := h
  omega

/-- Words that are equal come from equal numbers. -/
theorem eq_of_toUInt32 {a b : Nat} (h : Within 4294967295 a b)
    (heq : UInt32.ofNat a = UInt32.ofNat b) : a = b := by
  have hmod := congrArg UInt32.toNat heq
  rw [UInt32.toNat_ofNat', UInt32.toNat_ofNat'] at hmod
  obtain ⟨ha, hb⟩ := h
  omega

theorem decimalSizes : V.Reveals id .decimalSizes := by
  refine (size 65535).bind fun a b hab ↦ (accept .comma).bind_silent fun _ ↦ .ite ?_ ?_
  · refine (size 65535).bind fun a' b' hab' ↦ .pure trivial fun heq ↦ ?_
    obtain ⟨hprecision, hscale⟩ := DecimalSize.mk.inj heq
    exact ⟨⟨trivial, eq_of_toUInt16 hab hprecision⟩,
      eq_of_toUInt16 hab' (Option.some.inj hscale)⟩
  · refine .pure trivial fun heq ↦ ?_
    obtain ⟨hprecision, -⟩ := DecimalSize.mk.inj heq
    exact ⟨trivial, eq_of_toUInt16 hab hprecision⟩

/-- Precision and scale in parentheses, or nothing. -/
theorem decimalSize : V.Reveals id .decimalSize := by
  refine (sees .leftParen).bind_silent fun _ ↦ .ite ?_ (.pure trivial fun _ ↦ trivial)
  refine (parenthesized decimalSizes).map (fun _ _ _ ↦ trivial) fun a b _ heq ↦ ⟨trivial, ?_⟩
  exact Option.some.inj heq

/-- A length in parentheses, or nothing. -/
theorem characterLength : V.Reveals id .characterLength := by
  refine (sees .leftParen).bind_silent fun _ ↦ .ite ?_ (.pure trivial fun _ ↦ trivial)
  refine (parenthesized (size 4294967295)).bind fun a b hab ↦ .pure trivial fun heq ↦ ?_
  exact ⟨trivial, eq_of_toUInt32 hab (Option.some.inj heq)⟩

/-- How an object treats unknown columns is a word. -/
theorem objectPolicy : V.Silent .objectPolicy := by
  refine .bind_current_cases (fun t ↦ ?_) fun t u hvaries ↦ ?_
  · split
    · exact .advance_of_ne (silent _)
    · exact .fail
  · rw [hvaries.keyword?_eq_none]
    exact .fail

/-! ### Types -/

/-- **Types.** -/
theorem dataType (h : V.Inside inner) :
    V.Reveals (DataType.relabel .forgetPlaces) (.dataType inner) := by
  have answer (type : DataType) : V.Reveals (DataType.relabel .forgetPlaces) (pure type) :=
    .pure trivial fun _ ↦ trivial
  refine .bind_current_cases (fun t ↦ ?_) fun t u hvaries ↦ ?_
  · split
    · exact .advance_of_ne (answer _)
    · split
      · rename_i type _
        exact .advance_of_ne (.ite ((acceptKeyword .PRECISION).bind_silent fun _ ↦ answer type)
          (answer type))
      · split
        · refine .advance_of_ne (decimalSize.bind_any fun a b ↦ .pure trivial fun heq ↦ ?_)
          exact ⟨trivial, DataType.decimal.inj heq⟩
        · refine .advance_of_ne (decimalSize.bind_any fun a b ↦ .pure trivial fun heq ↦ ?_)
          exact ⟨trivial, DataType.numeric.inj heq⟩
        · refine .advance_of_ne (characterLength.bind_any fun a b ↦ .pure trivial fun heq ↦ ?_)
          exact ⟨trivial, DataType.char.inj heq⟩
        · refine .advance_of_ne (characterLength.bind_any fun a b ↦ .pure trivial fun heq ↦ ?_)
          exact ⟨trivial, DataType.varchar.inj heq⟩
        · exact .advance_of_ne h.objectType
        · refine .advance_of_ne (h.elementType.bind_any fun a b ↦ .pure trivial fun heq ↦ ?_)
          exact ⟨trivial, DataType.array.inj heq⟩
        · exact .fail
    · exact .fail
  · generalize t.kind = k at hvaries
    generalize u.kind = l at hvaries
    cases hvaries with
    | identifier hne =>
      exact .advance_of_eq (.pure trivial fun heq ↦ hne (DataType.custom.inj heq))
    | _ => exact .fail

/-! ### Column definitions -/

/-- Two column definitions agree in what is kept for good, or in a slot. -/
def AgreeIn : Option ColumnSlot → ColumnDef → ColumnDef → Prop
  | none, a, b => a.name = b.name ∧ Same (DataType.relabel .forgetPlaces) a.type b.type
  | some .default, a, b => Same (Option.map (Expr.relabel .forgetPlaces)) a.default b.default
  | some .generated, a, b => Same (Option.map (Expr.relabel .forgetPlaces)) a.generated b.generated

/-- Equal columns agree in every slot. -/
theorem agreeIn_of_same {a b : ColumnDef} (h : Same (ColumnDef.relabel .forgetPlaces) a b)
    (q : Option ColumnSlot) : AgreeIn q a b := by
  obtain ⟨name, type, nullable, default, primaryKey, generated⟩ := a
  obtain ⟨name', type', nullable', default', primaryKey', generated'⟩ := b
  obtain ⟨hname, htype, -, hdefault, -, hgenerated⟩ := ColumnDef.mk.inj h
  rw [relabelExpr?_eq_map, relabelExpr?_eq_map] at hdefault hgenerated
  match q with
  | none => exact ⟨hname, htype⟩
  | some .default => exact hdefault
  | some .generated => exact hgenerated

/-- What a constraint for a slot keeps of the columns that it is added to. -/
def Retains (slot : Option ColumnSlot) (column column' new new' : ColumnDef) : Prop :=
  ∀ q, q = none ∨ q ≠ slot → AgreeIn q new new' → AgreeIn q column column'

/-- New columns that agree in a slot, if both are there. -/
def AgreeInNew (slot : Option ColumnSlot) (x y : Option ColumnDef) : Prop :=
  ∀ new ∈ x, ∀ new' ∈ y, AgreeIn slot new new'

/-- Filling in a default keeps what stands in the other slots. -/
theorem retains_default (a b : ColumnDef) (v w : Expr) :
    Retains (some .default) a b { a with default := some v } { b with default := some w } := by
  rintro (_ | _ | _) hq hagree
  · exact hagree
  · exact absurd rfl (hq.resolve_left nofun)
  · exact hagree

/-- Filling in a generated expression keeps what stands in the other slots. -/
theorem retains_generated (a b : ColumnDef) (v w : Expr) :
    Retains (some .generated) a b { a with generated := some v }
      { b with generated := some w } := by
  rintro (_ | _ | _) hq hagree
  · exact hagree
  · exact hagree
  · exact absurd rfl (hq.resolve_left nofun)

/-- **A constraint keeps what a column has**, but for the slot that it fills. -/
theorem columnConstraint (h : V.Inside inner) {column column' : ColumnDef} {c d c' d' : Cursor}
    {x y : Option ColumnDef} (hcd : V.Lockstep c d)
    (hrun : (Rule.columnConstraint inner column).run c = .done x c')
    (hrun' : (Rule.columnConstraint inner column').run d = .done y d') :
    V.Lockstep c' d' ∧ Both (Retains c.current.columnSlot? column column') x y ∧
      ((∀ new ∈ x, ∀ new' ∈ y, AgreeIn c.current.columnSlot? new new') → True ∧
        (V.Passes c c' → V.lost)) := by
  refine of_run_current (D := fun t ↦ Both (Retains t.columnSlot? column column'))
    (F := fun t ↦ AgreeInNew t.columnSlot?) (fun t ↦ ?_) (fun t u hvaries ↦ ?_) hcd hrun hrun'
  · have generated : V.Tells (fun _ ↦ True) (Both (Retains (some .generated) column column'))
        (AgreeInNew (some .generated)) True (.generatedAs inner column)
        (.generatedAs inner column') :=
      h.expression.bind_any fun v w ↦ .pure (.some (retains_generated column column' v w))
        fun heq ↦ ⟨trivial, Option.some.inj (heq _ rfl _ rfl)⟩
    -- One case for each word; what a slot is not about is retained by `rfl`.
    split
    · rename_i hword
      simp only [Token.columnSlot?, hword]
      refine .advance_of_ne ((keyword .NULL).bind_silent fun _ ↦ .pure (.some ?_) fun _ ↦ trivial)
      rintro (_ | _ | _) - hagree <;> exact hagree
    · rename_i hword
      simp only [Token.columnSlot?, hword]
      exact .advance_of_ne (.pure (.some fun _ _ hagree ↦ hagree) fun _ ↦ trivial)
    · rename_i hword
      simp only [Token.columnSlot?, hword]
      refine .advance_of_ne ((keyword .KEY).bind_silent fun _ ↦ .pure (.some ?_) fun _ ↦ trivial)
      rintro (_ | _ | _) - hagree <;> exact hagree
    · rename_i hword
      simp only [Token.columnSlot?, hword]
      refine .advance_of_ne (h.expression.bind_any fun v w ↦ ?_)
      exact .pure (.some (retains_default column column' v w))
        fun heq ↦ ⟨trivial, Option.some.inj (heq _ rfl _ rfl)⟩
    · rename_i hword
      simp only [Token.columnSlot?, hword]
      refine .advance_of_ne ((keyword .ALWAYS).bind_silent fun _ ↦ ?_)
      exact (keyword .AS).bind_silent fun _ ↦ generated
    · rename_i hword
      simp only [Token.columnSlot?, hword]
      exact .advance_of_ne generated
    · exact .pure .none fun _ ↦ trivial
  · rw [hvaries.keyword?_eq_none, hvaries.symm.keyword?_eq_none]
    exact .pure .none fun _ ↦ trivial

/-- What has been read of a column since a cursor tells the token apart. -/
def ToldColumn (V : Variation) (inner : Nested) :
    Cursor → ColumnDef → ColumnDef → Cursor → Prop :=
  V.Told Token.columnSlot? (ReadsConstraint inner) Eq AgreeIn

/-- One more constraint keeps the token told apart, and so does the end of the column. -/
theorem ToldColumn.step (h : V.Inside inner) {start c d c' d' : Cursor} {a b : ColumnDef}
    {x y : Option ColumnDef} (hcd : V.Lockstep c d) (htold : ToldColumn V inner start a b c)
    (hrun : (Rule.columnConstraint inner a).run c = .done x c')
    (hrun' : (Rule.columnConstraint inner b).run d = .done y d') :
    V.Lockstep c' d' ∧ x.isSome = y.isSome ∧
      ToldColumn V inner start (x.getD a) (y.getD b) c' := by
  obtain ⟨hcd', hboth, hnew⟩ := columnConstraint h hcd hrun hrun'
  cases hboth with
  | none =>
    obtain rfl := Rule.eq_of_run_columnConstraint hrun
    exact ⟨hcd', rfl, htold⟩
  | some hretains =>
    refine ⟨hcd', rfl, Told.step htold h.constraint rfl ⟨_, _, hrun⟩ hcd.reaches
      (not_passes_self _) hretains fun hagree ↦ (hnew ?_).2⟩
    rintro _ ⟨⟩ _ ⟨⟩
    exact hagree

/-- **A column keeps all that is not replaced.** -/
theorem columnDef (h : V.Inside inner) :
    V.Reveals (ColumnDef.relabel .forgetPlaces) (.columnDef inner) := by
  intro c d x y c' d' hcd _ hrun hrun'
  obtain ⟨name, c₁, hname, hrun⟩ := Rule.exists_of_run_bind hrun
  obtain ⟨name', d₁, hname', hrun'⟩ := Rule.exists_of_run_bind hrun'
  obtain ⟨hcd₁, -, hnames⟩ := identifier hcd trivial hname hname'
  obtain ⟨type, c₂, htype, hrun⟩ := Rule.exists_of_run_bind hrun
  obtain ⟨type', d₂, htype', hrun'⟩ := Rule.exists_of_run_bind hrun'
  obtain ⟨hcd₂, -, htypes⟩ := dataType h hcd₁ trivial htype htype'
  have hstart : ToldColumn V inner c ⟨name, type, true, none, false, none⟩
      ⟨name', type', true, none, false, none⟩ c₂ := by
    intro hpasses
    by_cases hagree : name = name' ∧ Same (DataType.relabel .forgetPlaces) type type'
    · exact .inl (hpasses.trans_cases.elim (hnames hagree.1).2 (htypes hagree.2).2)
    · exact .inr ⟨none, hagree, nofun⟩
  obtain ⟨hcd', htold⟩ := hcd₂.iterate (I := ToldColumn V inner c)
    (fun _ _ _ _ _ _ _ _ ↦ ToldColumn.step h) hstart hrun hrun'
  exact ⟨hcd', trivial, fun heq ↦ ⟨trivial, Told.lost htold (agreeIn_of_same heq)⟩⟩

/-! ### Looking one token further -/

/-- Going on past a keyword with a certain token behind it, or else in another way. -/
theorem lookahead {α : Type} {C E : α → α → Prop} {word : Keyword} {wanted : Token → Bool}
    {r r' s s' : Rule α} (hwanted : ∀ t u, Alike t u → wanted u = wanted t)
    (h : V.Tells (fun _ ↦ True) C E True r s) (h' : V.Tells (fun _ ↦ True) C E True r' s') :
    V.Tells (fun _ ↦ True) C E True (.lookahead word wanted r r')
      (.lookahead word wanted s s') := by
  rw [Rule.lookahead, Rule.lookahead, Rule.seesKeyword]
  simp only [bind_assoc, pure_bind]
  refine .bind_current_cases (fun t ↦ ?_) fun t u hvaries ↦ ?_
  · refine .bind_following fun next next' hnext ↦ ?_
    rw [hwanted _ _ hnext]
    exact .ite (.advance_of_ne h) h'.weaken
  · refine .bind_following fun next next' _ ↦ ?_
    rw [hvaries.isKeyword_eq_false, hvaries.symm.isKeyword_eq_false]
    exact h'.weaken

/-- The columns of an object, in parentheses. -/
theorem objectColumns (h : V.Inside inner) (policy : Option ObjectPolicy) :
    V.Reveals (DataType.relabel .forgetPlaces) (.objectColumns inner policy) := by
  refine lookahead (fun _ _ hnext ↦ hnext.isSymbol .leftParen) ?_ (.pure trivial fun _ ↦ trivial)
  refine (parenthesized (commaSeparated (columnDef h))).bind_any fun as bs ↦ ?_
  refine .pure trivial fun heq ↦ ⟨trivial, ?_⟩
  obtain ⟨-, hcolumns⟩ := DataType.object.inj heq
  rwa [relabelColumns_eq_map, relabelColumns_eq_map] at hcolumns

/-- An object with its policy and its columns. -/
theorem objectType (h : V.Inside inner) :
    V.Reveals (DataType.relabel .forgetPlaces) (.objectType inner) := by
  have policy : V.Silent (some <$> Rule.parenthesized .objectPolicy) :=
    (parenthesized objectPolicy).map (fun _ _ heq ↦ congrArg some heq) fun _ _ _ _ ↦
      ⟨trivial, trivial⟩
  exact (sees .leftParen).bind_silent fun _ ↦
    .ite (policy.bind_silent (objectColumns h)) (objectColumns h none)

/-- The type of an array's elements, in parentheses. -/
theorem elementType (h : V.Inside inner) :
    V.Reveals (DataType.relabel .forgetPlaces) (.elementType inner) :=
  parenthesized (dataType h)

end Tells
end Variation
end SqlBatch
