import SqlBatch.Proofs.Allowance
import SqlBatch.Proofs.Variation.Query

/-!
# Statements tell names and values apart

A statement tells two lists of tokens apart unless the token in which they differ is part of a
clause that is replaced.

## Elements of a table definition

A table definition reads its elements as a list, and only then takes columns and primary key from
it, of which the last one counts. So a list of elements is compared by what is taken from it
(`AgreeInElements`), and the loop over the elements keeps this as the loop over the constraints of a
column does (`ToldElements.step`).

## One rule for each statement

The other statements are records of what they read, or words without any name in them, which are
silent. The first words decide between them, and a token that varies is not among these.
-/

namespace SqlBatch

/-! ### Elements of a table definition -/

namespace TableElement

/-- One more element adds its column. -/
theorem columnDefs_concat (elements : List TableElement) (element : TableElement) :
    columnDefs (elements ++ [element]) = columnDefs elements ++ columnDefs [element] := by
  induction elements with
  | nil => rfl
  | cons first elements ih =>
    cases first with
    | column definition => exact congrArg (definition :: ·) ih
    | primaryKey => exact ih

/-- One more element replaces the primary key, if it is one. -/
theorem lastPrimaryKey_concat (key : List String) (elements : List TableElement)
    (element : TableElement) :
    lastPrimaryKey key (elements ++ [element]) =
      lastPrimaryKey (lastPrimaryKey key elements) [element] := by
  induction elements generalizing key with
  | nil => rfl
  | cons first elements ih => cases first <;> exact ih _

end TableElement

namespace Variation

variable {V : Variation} {inner : Nested}

namespace Tells

/-- Two lists of elements agree in the columns, or in the primary key of the table. -/
def AgreeInElements : Option Unit → List TableElement → List TableElement → Prop
  | none, as, bs => Same (List.map (ColumnDef.relabel .forgetPlaces)) (TableElement.columnDefs as)
      (TableElement.columnDefs bs)
  | some (), as, bs => TableElement.lastPrimaryKey [] as = TableElement.lastPrimaryKey [] bs

/-- How both readings of an element come out: two primary keys, or two columns. -/
inductive Elements (V : Variation) (c c' : Cursor) :
    Option Unit → TableElement → TableElement → Prop
  | primaryKey {key key' : List String} : (key = key' → V.Passes c c' → V.lost) →
    Elements V c c' (some ()) (.primaryKey key) (.primaryKey key')
  | column {a b : ColumnDef} :
    (Same (ColumnDef.relabel .forgetPlaces) a b → V.Passes c c' → V.lost) →
    Elements V c c' none (.column a) (.column b)

/-- **Elements.** Both readings find a primary key, or both find a column. -/
theorem tableElement (h : V.Inside inner) {x y : TableElement} {c d c' d' : Cursor}
    (hcd : V.Lockstep c d) (hrun : (Rule.tableElement inner).run c = .done x c')
    (hrun' : (Rule.tableElement inner).run d = .done y d') :
    V.Lockstep c' d' ∧ Elements V c c' c.current.keySlot? x y := by
  obtain ⟨found, c₁, hfound, hrun⟩ := Rule.exists_of_run_bind hrun
  obtain ⟨found', d₁, hfound', hrun'⟩ := Rule.exists_of_run_bind hrun'
  obtain ⟨hcd₁, hsame, hpasses⟩ := acceptKeyword .PRIMARY hcd trivial hfound hfound'
  have hlost (h : V.Passes c₁ c' → V.lost) (hp : V.Passes c c') : V.lost :=
    hp.trans_cases.elim (hpasses trivial).2 h
  subst hsame
  rw [Rule.run_acceptKeyword] at hfound
  obtain ⟨hword, -⟩ := Outcome.done.inj hfound
  rw [Token.keySlot?, hword]
  cases found with
  | true =>
    have key : V.Tells (fun _ ↦ True) (fun x y ↦ ∃ a b, x = .primaryKey a ∧ y = .primaryKey b) Eq
        True .primaryKeyElement .primaryKeyElement := by
      refine (keyword .KEY).bind_silent fun _ ↦ (parenthesized identifiers).bind_any fun a b ↦ ?_
      refine .pure ⟨a, b, rfl, rfl⟩ fun heq ↦ ⟨trivial, ?_⟩
      exact congrArg (List.map id) (TableElement.primaryKey.inj heq)
    obtain ⟨hcd', ⟨a, b, rfl, rfl⟩, hkey⟩ := key hcd₁ trivial hrun hrun'
    exact ⟨hcd', .primaryKey fun heq ↦ hlost (hkey (congrArg _ heq)).2⟩
  | false =>
    obtain ⟨a, ha, rfl⟩ := Rule.exists_of_run_map hrun
    obtain ⟨b, hb, rfl⟩ := Rule.exists_of_run_map hrun'
    obtain ⟨hcd', -, hcolumns⟩ := columnDef h hcd₁ trivial ha hb
    exact ⟨hcd', .column fun heq ↦ hlost (hcolumns heq).2⟩

/-- **One more element keeps those before it**, but for the primary key that it replaces. -/
theorem agreeInElements_concat {c c' : Cursor} {slot : Option Unit} {x y : TableElement}
    (h : Elements V c c' slot x y) (as bs : List TableElement) :
    (∀ q, q = none ∨ q ≠ slot → AgreeInElements q (as ++ [x]) (bs ++ [y]) →
      AgreeInElements q as bs) ∧
    (AgreeInElements slot (as ++ [x]) (bs ++ [y]) → V.Passes c c' → V.lost) := by
  cases h with
  | primaryKey hkey =>
    refine ⟨?_, fun hagree ↦ hkey ?_⟩
    · rintro (_ | _) hq hagree
      · simpa only [AgreeInElements, TableElement.columnDefs_concat, TableElement.columnDefs,
          List.append_nil] using hagree
      · exact absurd rfl (hq.resolve_left nofun)
    · simpa only [AgreeInElements, TableElement.lastPrimaryKey_concat,
        TableElement.lastPrimaryKey] using hagree
  | @column a b hcolumn =>
    have hcolumns (hagree : AgreeInElements none (as ++ [.column a]) (bs ++ [.column b])) :
        AgreeInElements none as bs ∧ Same (ColumnDef.relabel .forgetPlaces) a b := by
      rw [AgreeInElements, Same, TableElement.columnDefs_concat, TableElement.columnDefs_concat,
        List.map_append, List.map_append] at hagree
      exact List.append_singleton_inj.1 hagree
    refine ⟨?_, fun hagree ↦ hcolumn (hcolumns hagree).2⟩
    rintro (_ | _) hq hagree
    · exact (hcolumns hagree).1
    · rwa [AgreeInElements, TableElement.lastPrimaryKey_concat,
        TableElement.lastPrimaryKey_concat] at hagree

/-- What has been read of a table definition since a cursor tells the token apart. Behind the first
elements, the others are collected with the last one in front. -/
def ToldElements (V : Variation) (inner : Nested) (start : Cursor) (x y : TableElement)
    (as bs : List TableElement) : Cursor → Prop :=
  V.Told Token.keySlot? (ReadsElement inner) BehindComma AgreeInElements start (x :: as.reverse)
    (y :: bs.reverse)

/-- One more element keeps the token told apart. -/
theorem ToldElements.step (h : V.Inside inner) {start c d' c' e : Cursor} {x y z w : TableElement}
    {as bs : List TableElement} (htold : ToldElements V inner start x y as bs c)
    (hcomma : c.current.isSymbol .comma) (hcd : V.Lockstep c.advance e)
    (hpasses : ¬ V.Passes c c.advance) (hrun : (Rule.tableElement inner).run c.advance = .done z c')
    (hrun' : (Rule.tableElement inner).run e = .done w d') :
    V.Lockstep c' d' ∧ ToldElements V inner start x y (z :: as) (w :: bs) c' := by
  obtain ⟨hcd', hboth⟩ := tableElement h hcd hrun hrun'
  obtain ⟨hkept, hnew⟩ := agreeInElements_concat hboth (x :: as.reverse) (y :: bs.reverse)
  refine ⟨hcd', ?_⟩
  rw [ToldElements, List.reverse_cons, List.reverse_cons]
  exact Told.step htold h.element ⟨hcomma, rfl⟩ ⟨z, hrun⟩ hcd.reaches hpasses hkept hnew

/-- **A table definition keeps all that is not replaced.** -/
theorem tableElements (h : V.Inside inner) :
    V.Tells (fun _ ↦ True) Any (fun as bs ↦ ∀ q, AgreeInElements q as bs) True
      (.commaSeparated (.tableElement inner)) (.commaSeparated (.tableElement inner)) := by
  intro c d xs ys c' d' hcd _ hrun hrun'
  obtain ⟨x, c₁, hx, hrun⟩ := Rule.exists_of_run_bind hrun
  obtain ⟨y, d₁, hy, hrun'⟩ := Rule.exists_of_run_bind hrun'
  obtain ⟨hcd₁, helement⟩ := tableElement h hcd hx hy
  obtain ⟨others, c₂, hloop, ⟨⟩⟩ := Rule.exists_of_run_bind hrun
  obtain ⟨others', d₂, hloop', ⟨⟩⟩ := Rule.exists_of_run_bind hrun'
  obtain ⟨as, hrounds, rfl⟩ := Rule.exists_of_run_map hloop
  obtain ⟨bs, hrounds', rfl⟩ := Rule.exists_of_run_map hloop'
  -- The invariant holds of the first element, and each further one keeps it.
  have hstart : ToldElements V inner c x y [] [] c₁ :=
    .first ⟨x, hx⟩ hcd.reaches (agreeInElements_concat helement [] []).2
  obtain ⟨hcd', htold⟩ : V.Lockstep c' d' ∧ ToldElements V inner c x y as bs c' := by
    refine hcd₁.iterate (I := ToldElements V inner c x y) ?_ hstart hrounds hrounds'
    intro as bs e f z w e' f' hef htold hz hw
    obtain ⟨z, hround, rfl⟩ := Rule.exists_of_run_map hz
    obtain ⟨w, hround', rfl⟩ := Rule.exists_of_run_map hw
    obtain ⟨found, e₁, hcomma, hitem⟩ := Rule.exists_of_run_bind hround
    obtain ⟨found', f₁, hcomma', hitem'⟩ := Rule.exists_of_run_bind hround'
    obtain ⟨hef₁, rfl, hpasses⟩ := hef.accept hcomma hcomma'
    rw [Rule.run_accept] at hcomma
    obtain ⟨hsees, rfl⟩ := Outcome.done.inj hcomma
    rw [hsees] at hitem hef₁ hpasses
    cases found with
    | false =>
      cases hitem
      cases hitem'
      exact ⟨hef₁, rfl, htold⟩
    | true =>
      obtain ⟨element, hread, rfl⟩ := Rule.exists_of_run_map hitem
      obtain ⟨element', hread', rfl⟩ := Rule.exists_of_run_map hitem'
      obtain ⟨hef', htold'⟩ := ToldElements.step h htold hsees hef₁ hpasses hread hread'
      exact ⟨hef', rfl, htold'⟩
  exact ⟨hcd', trivial, fun hagree ↦ ⟨trivial, Told.lost htold hagree⟩⟩

/-! ### Changing rows -/

theorem insertSource (h : V.Inside inner) :
    V.Reveals (InsertSource.relabel .forgetPlaces) (.insertSource inner) := by
  refine .bind_current_cases (fun t ↦ ?_) fun t u hvaries ↦ ?_
  · split
    · refine .advance_of_ne ((commaSeparated (parenthesized h.expressions)).bind_any fun as bs ↦ ?_)
      refine .pure trivial fun heq ↦ ⟨trivial, ?_⟩
      rw [Same, ← funext (relabelExprs_eq_map .forgetPlaces)]
      exact InsertSource.rows.inj heq
    · refine (h.query.bind_any fun a b ↦ .pure trivial fun heq ↦ ?_).weaken
      exact ⟨trivial, InsertSource.query.inj heq⟩
    · exact .advance_of_ne ((keyword .VALUES).bind_silent fun _ ↦ .pure trivial fun _ ↦ trivial)
    · exact .fail
  · rw [hvaries.keyword?_eq_none]
    exact .fail

/-- The end of an `INSERT`, which keeps the table and its columns. -/
theorem inserted (h : V.Inside inner) (a b : TableName) (as bs : List String) :
    V.Keeps (fun i ↦ { i with source := i.source.relabel .forgetPlaces }) (a = b ∧ as = bs)
      (.inserted inner a as) (.inserted inner b bs) := by
  refine (insertSource h).bind_any fun x y ↦ .pure trivial fun heq ↦ ?_
  obtain ⟨htable, hcolumns, hsource⟩ := Insert.mk.inj heq
  exact ⟨⟨htable, hcolumns⟩, hsource⟩

theorem insert (h : V.Inside inner) :
    V.Reveals (fun i ↦ { i with source := i.source.relabel .forgetPlaces }) (.insert inner) := by
  refine (keyword .INSERT).bind_silent fun _ ↦ (keyword .INTO).bind_silent fun _ ↦ ?_
  refine tableName.bind_any fun a b ↦ (sees .leftParen).bind_silent fun _ ↦ .ite ?_ ?_
  · refine (parenthesized identifiers).bind_any fun as bs ↦ (inserted h a b as bs).mono ?_
    exact fun ⟨htable, hcolumns⟩ ↦ ⟨⟨trivial, htable⟩, congrArg (List.map id) hcolumns⟩
  · exact (inserted h a b [] []).mono fun ⟨htable, _⟩ ↦ ⟨trivial, htable⟩

/-- An assignment keeps its column beside its value. -/
theorem assignment (h : V.Inside inner) :
    V.Reveals (Assignment.relabel .forgetPlaces) (.assignment inner) := by
  refine identifier.bind_any fun a b ↦ (symbol .eq).bind_silent fun _ ↦ ?_
  refine h.expression.bind_any fun x y ↦ .pure trivial fun heq ↦ ?_
  obtain ⟨hcolumn, hvalue⟩ := Assignment.mk.inj heq
  exact ⟨⟨trivial, hcolumn⟩, hvalue⟩

/-- `UPDATE` keeps its table, its assignments, and the clauses behind them that are there. -/
theorem update (h : V.Inside inner) :
    V.Reveals (fun u ↦ Command.relabel .forgetPlaces (.update u)) (.update inner) := by
  refine (keyword .UPDATE).bind_silent fun _ ↦ tableName.bind_any fun a b ↦ ?_
  refine alias?.bind fun alias? alias?' _ ↦ (keyword .SET).bind_silent fun _ ↦ ?_
  refine (commaSeparated (assignment h)).bind_any fun as bs ↦ ?_
  refine (clause .FROM (fromItem h)).bind fun source source' _ ↦ ?_
  refine (clause .WHERE h.expression).bind fun filter filter' _ ↦ .pure trivial fun heq ↦ ?_
  obtain ⟨htable, halias, hassignments, hsource, hfilter⟩ := Update.mk.inj (Command.update.inj heq)
  rw [relabelFrom?_eq_map, relabelFrom?_eq_map] at hsource
  rw [relabelExpr?_eq_map, relabelExpr?_eq_map] at hfilter
  exact ⟨⟨⟨⟨⟨trivial, htable⟩, congrArg (Option.map id) halias⟩, hassignments⟩, hsource⟩, hfilter⟩

/-- `DELETE` keeps its table, and its condition if there is one. -/
theorem delete (h : V.Inside inner) :
    V.Reveals (fun d ↦ Command.relabel .forgetPlaces (.delete d)) (.delete inner) := by
  refine (keyword .DELETE).bind_silent fun _ ↦ (keyword .FROM).bind_silent fun _ ↦ ?_
  refine tableName.bind_any fun a b ↦ alias?.bind fun alias? alias?' _ ↦ ?_
  refine (clause .WHERE h.expression).bind fun filter filter' _ ↦ .pure trivial fun heq ↦ ?_
  obtain ⟨htable, halias, hfilter⟩ := Delete.mk.inj (Command.delete.inj heq)
  rw [relabelExpr?_eq_map, relabelExpr?_eq_map] at hfilter
  exact ⟨⟨⟨trivial, htable⟩, congrArg (Option.map id) halias⟩, hfilter⟩

/-! ### Tables -/

/-- A property keeps its name beside its value. -/
theorem property (h : V.Inside inner) :
    V.Reveals (Property.relabel .forgetPlaces) (.property inner) := by
  refine dottedName.bind_any fun a b ↦ (symbol .eq).bind_silent fun _ ↦ ?_
  refine h.expression.bind_any fun x y ↦ .pure trivial fun heq ↦ ?_
  obtain ⟨hname, hvalue⟩ := Property.mk.inj heq
  exact ⟨⟨trivial, hname⟩, hvalue⟩

theorem properties (h : V.Inside inner) :
    V.Reveals (List.map (Property.relabel .forgetPlaces)) (.properties inner) :=
  listClause .WITH (parenthesized (commaSeparated (property h)))

/-- The table behind `CREATE TABLE`. -/
theorem tableDefinition (h : V.Inside inner) (ifNotExists : Bool) :
    V.Reveals (fun c ↦ Command.relabel .forgetPlaces (.createTable c))
      (.tableDefinition inner ifNotExists) := by
  refine tableName.bind_any fun a b ↦ (parenthesized (tableElements h)).bind_any fun as bs ↦ ?_
  refine (properties h).bind_any fun ps qs ↦ .pure trivial fun heq ↦ ?_
  obtain ⟨-, htable, hcolumns, hkey, hproperties⟩ :=
    CreateTable.mk.inj (Command.createTable.inj heq)
  rw [relabelColumns_eq_map, relabelColumns_eq_map] at hcolumns
  have hagree (q : Option Unit) : AgreeInElements q as bs :=
    match q with
    | none => hcolumns
    | some () => hkey
  exact ⟨⟨⟨trivial, htable⟩, hagree⟩, hproperties⟩

theorem createTable (h : V.Inside inner) :
    V.Reveals (fun c ↦ Command.relabel .forgetPlaces (.createTable c)) (.createTable inner) := by
  refine (keyword .CREATE).bind_silent fun _ ↦ (keyword .TABLE).bind_silent fun _ ↦ ?_
  refine (acceptKeyword .IF).bind_silent fun ifNotExists ↦ .ite ?_ (tableDefinition h ifNotExists)
  exact (keyword .NOT).bind_silent fun _ ↦ (keyword .EXISTS).bind_silent fun _ ↦
    tableDefinition h ifNotExists

/-- `DROP TABLE` keeps its table; whether the table may be missing is decided by words. -/
theorem dropped (ifExists : Bool) :
    V.Reveals (Command.relabel .forgetPlaces) (.dropped ifExists) :=
  tableName.bind_any fun _ _ ↦ .pure trivial fun heq ↦ ⟨trivial, (Command.dropTable.inj heq).2⟩

theorem dropTable : V.Reveals (Command.relabel .forgetPlaces) .dropTable := by
  refine (keyword .DROP).bind_silent fun _ ↦ (keyword .TABLE).bind_silent fun _ ↦ ?_
  refine (acceptKeyword .IF).bind_silent fun ifExists ↦ .ite ?_ (dropped ifExists)
  exact (keyword .EXISTS).bind_silent fun _ ↦ dropped ifExists

/-- `REFRESH TABLE` keeps all of its tables, in a list. -/
theorem refresh : V.Reveals (Command.relabel .forgetPlaces) .refresh := by
  refine (keyword .REFRESH).bind_silent fun _ ↦ (keyword .TABLE).bind_silent fun _ ↦ ?_
  refine (commaSeparated tableName).bind_any fun as bs ↦ .pure trivial fun heq ↦ ⟨trivial, ?_⟩
  exact congrArg (List.map id) (Command.refresh.inj heq)

/-- `OPTIMIZE TABLE` keeps its tables and, behind them, its properties. -/
theorem optimize (h : V.Inside inner) :
    V.Reveals (Command.relabel .forgetPlaces) (.optimize inner) := by
  refine (keyword .OPTIMIZE).bind_silent fun _ ↦ (keyword .TABLE).bind_silent fun _ ↦ ?_
  refine (commaSeparated tableName).bind_any fun as bs ↦ (properties h).bind_any fun ps qs ↦ ?_
  refine .pure trivial fun heq ↦ ?_
  obtain ⟨htables, hproperties⟩ := Command.optimize.inj heq
  exact ⟨⟨trivial, congrArg (List.map id) htables⟩, hproperties⟩

/-! ### The session -/

/-- What is explained is told apart by the level inside. -/
theorem explaining (h : V.Inside inner) (analyze : Bool) :
    V.Reveals (Command.relabel .forgetPlaces) (.explaining inner analyze) :=
  h.statement.bind_any fun _ _ ↦ .pure trivial fun heq ↦ ⟨trivial, (Command.explain.inj heq).2⟩

/-- `EXPLAIN`, with or without `ANALYZE`. -/
theorem explain (h : V.Inside inner) :
    V.Reveals (Command.relabel .forgetPlaces) (.explain inner) := by
  refine (keyword .EXPLAIN).bind_silent fun _ ↦
    .bind_current_cases (fun t ↦ ?_) fun t u hvaries ↦ ?_
  · refine .bind_following fun next next' hnext ↦ ?_
    rw [hnext.startsStatement]
    exact .ite (.advance_of_ne (explaining h _)) (explaining h _).weaken
  · refine .bind_following fun next next' _ ↦ ?_
    rw [hvaries.isKeyword_eq_false, hvaries.symm.isKeyword_eq_false]
    exact (explaining h false).weaken

/-- The schema of `SHOW TABLES`, where one is named. -/
theorem shownTables (qualified : Bool) : V.Reveals id (.shownTables qualified) := by
  refine .ite (identifier.bind_any fun a b ↦ .pure trivial fun heq ↦ ⟨trivial, ?_⟩)
    (.pure trivial fun _ ↦ trivial)
  exact Option.some.inj (ShowTarget.tables.inj heq)

/-- What `SHOW` shows is decided by words; a name or a table behind them is kept. -/
theorem «show» : V.Reveals id .show := by
  have answer (target : ShowTarget) : V.Reveals id (pure target) := .pure trivial fun _ ↦ trivial
  have setting : V.Reveals id (do return ShowTarget.setting (← .dottedName)) :=
    dottedName.bind_any fun a b ↦ .pure trivial fun heq ↦ ⟨trivial, ShowTarget.setting.inj heq⟩
  refine (keyword .SHOW).bind_silent fun _ ↦ .bind_current_cases (fun t ↦ ?_) fun t u hvaries ↦ ?_
  · split
    · refine .advance_of_ne ((acceptKeyword .FROM).bind_silent fun _ ↦ .ite ?_ ?_)
      · exact (silent true).bind_silent shownTables
      · exact (acceptKeyword .IN).bind_silent shownTables
    · exact .advance_of_ne (answer _)
    · refine .advance_of_ne ((keyword .TABLE).bind_silent fun _ ↦ tableName.bind_any fun a b ↦ ?_)
      exact .pure trivial fun heq ↦ ⟨trivial, ShowTarget.createTable.inj heq⟩
    · exact .advance_of_ne (answer _)
    · exact setting.weaken
  · rw [hvaries.keyword?_eq_none, hvaries.symm.keyword?_eq_none]
    exact setting.weaken

/-- Where a setting is made. -/
theorem settingScope : V.Silent .settingScope :=
  (acceptKeyword .LOCAL).bind_silent fun _ ↦
    .ite (silent _) ((acceptKeyword .SESSION).bind_silent fun _ ↦ silent _)

/-- The value of a setting, which keeps its name. -/
theorem settingValue (h : V.Inside inner) (scope : SettingScope) (a b : String) :
    V.Keeps (Command.relabel .forgetPlaces) (True ∧ a = b) (.settingValue inner scope a)
      (.settingValue inner scope b) := by
  refine (acceptKeyword .DEFAULT).bind_silent fun _ ↦ .ite (.pure trivial fun heq ↦ ?_) ?_
  · exact ⟨trivial, (Command.set.inj heq).2.1⟩
  · refine h.expressions.bind_any fun as bs ↦ .pure trivial fun heq ↦ ?_
    obtain ⟨-, hname, hvalue⟩ := Command.set.inj heq
    have hvalues := SettingValue.values.inj hvalue
    rw [relabelExprs_eq_map, relabelExprs_eq_map] at hvalues
    exact ⟨⟨trivial, hname⟩, hvalues⟩

/-- `SET` keeps its name in front of its values, which owe it. -/
theorem set (h : V.Inside inner) : V.Reveals (Command.relabel .forgetPlaces) (.set inner) := by
  refine (keyword .SET).bind_silent fun _ ↦ settingScope.bind_silent fun scope ↦ ?_
  refine dottedName.bind_any fun a b ↦ ?_
  have value := settingValue h scope a b
  refine (accept .eq).bind_silent fun _ ↦ .ite value ?_
  exact (acceptKeyword .TO).bind_silent fun _ ↦ .ite value .fail_bind

/-- `RESET` keeps the name of its setting, unless all of them are reset. -/
theorem reset : V.Reveals (Command.relabel .forgetPlaces) .reset := by
  refine (keyword .RESET).bind_silent fun _ ↦ (acceptKeyword .ALL).bind_silent fun _ ↦ ?_
  refine .ite (.pure trivial fun _ ↦ trivial) (dottedName.bind_any fun a b ↦ ?_)
  exact .pure trivial fun heq ↦ ⟨trivial, Option.some.inj (Command.reset.inj heq)⟩

/-- `DISCARD` is words alone, like the statements of a transaction. -/
theorem discard : V.Silent .discard := by
  refine (keyword .DISCARD).bind_silent fun _ ↦ ?_
  refine .bind_current_cases (fun t ↦ ?_) fun t u hvaries ↦ ?_
  · split
    · exact .advance_of_ne (silent _)
    · exact .fail
  · rw [hvaries.keyword?_eq_none]
    exact .fail

/-- The words that may stand behind the start of a transaction. -/
theorem transactionWords : V.Silent .transactionWords :=
  (acceptKeyword .WORK).bind_silent fun _ ↦
    .ite (silent _) ((acceptKeyword .TRANSACTION).bind_silent fun _ ↦ silent _)

theorem begin : V.Silent .begin :=
  (keyword .BEGIN).bind_silent fun _ ↦ transactionWords.bind_silent fun _ ↦ silent _

theorem startTransaction : V.Silent .startTransaction :=
  (keyword .START).bind_silent fun _ ↦ (keyword .TRANSACTION).bind_silent fun _ ↦ silent _

theorem commit (first : Keyword) : V.Silent (.commit first) :=
  (keyword first).bind_silent fun _ ↦ transactionWords.bind_silent fun _ ↦ silent _

/-- `KILL` keeps its job, unless all of them are ended. -/
theorem kill (h : V.Inside inner) : V.Reveals (Command.relabel .forgetPlaces) (.kill inner) := by
  refine (keyword .KILL).bind_silent fun _ ↦ (acceptKeyword .ALL).bind_silent fun _ ↦ ?_
  refine .ite (.pure trivial fun _ ↦ trivial) (h.expression.bind_any fun a b ↦ ?_)
  refine .pure trivial fun heq ↦ ⟨trivial, ?_⟩
  have hjob := Command.kill.inj heq
  rw [relabelExpr?_eq_map, relabelExpr?_eq_map] at hjob
  exact Option.some.inj hjob

theorem analyze : V.Silent .analyze :=
  (keyword .ANALYZE).bind_silent fun _ ↦ silent _

theorem allOrName : V.Reveals id .allOrName := by
  have name : V.Reveals id (some <$> Rule.identifier) :=
    identifier.map (fun _ _ _ ↦ trivial) fun a b _ heq ↦ ⟨trivial, Option.some.inj heq⟩
  refine (acceptKeyword .ALL).bind_silent fun _ ↦ .ite (.pure trivial fun _ ↦ trivial) ?_
  refine .bind_current_cases (fun t ↦ ?_) fun t u hvaries ↦ ?_
  · split
    · exact .advance_of_ne (.pure trivial fun _ ↦ trivial)
    · exact name.weaken
  · generalize t.kind = k at hvaries
    generalize u.kind = l at hvaries
    cases hvaries with
    | string hne => exact .advance_of_eq (.pure trivial fun heq ↦ hne (Option.some.inj heq))
    | _ => exact name.weaken

/-- `DEALLOCATE` keeps its name, unless everything is dropped. -/
theorem deallocate : V.Reveals (Command.relabel .forgetPlaces) .deallocate := by
  refine (keyword .DEALLOCATE).bind_silent fun _ ↦ (acceptKeyword .PREPARE).bind_silent fun _ ↦ ?_
  exact allOrName.bind_any fun a b ↦ .pure trivial fun heq ↦
    ⟨trivial, Command.deallocate.inj heq⟩

theorem close : V.Reveals (Command.relabel .forgetPlaces) .close := by
  refine (keyword .CLOSE).bind_silent fun _ ↦ allOrName.bind_any fun a b ↦ ?_
  exact .pure trivial fun heq ↦ ⟨trivial, Command.close.inj heq⟩

/-! ### Any statement -/

/-- What starts no statement fails. -/
theorem noStatement {A : Nat → Prop} {C E : Command → Command → Prop} {P : Prop} :
    V.Tells A C E P .noStatement .noStatement := by
  refine .bind_current fun t u htu ↦ ?_
  rw [htu.startsStatement]
  exact .ite .fail .fail

/-- **Statements.** -/
theorem statement (h : V.Inside inner) :
    V.Reveals (Command.relabel .forgetPlaces) (.statement inner) := by
  have kind {α γ : Type} {f : α → γ} {g : α → Command} {r : Rule α} (hr : V.Reveals f r)
      (hg : ∀ a b, Same (Command.relabel .forgetPlaces) (g a) (g b) → Same f a b) :
      V.Tells (· ≠ V.index) Any (Same (Command.relabel .forgetPlaces)) True (g <$> r) (g <$> r) :=
    (hr.map (fun _ _ _ ↦ trivial) fun a b _ heq ↦ ⟨trivial, hg a b heq⟩).weaken
  refine .bind_current_cases (fun t ↦ ?_) fun t u hvaries ↦ ?_
  · split
    · exact kind h.query fun _ _ heq ↦ Command.select.inj heq
    · exact kind (insert h) fun _ _ heq ↦ Command.insert.inj heq
    · exact kind (update h) fun _ _ heq ↦ heq
    · exact kind (delete h) fun _ _ heq ↦ heq
    · exact kind (createTable h) fun _ _ heq ↦ heq
    · exact dropTable.weaken
    · exact (explain h).weaken
    · exact kind «show» fun _ _ heq ↦ Command.show.inj heq
    · exact (set h).weaken
    · exact discard.reveals.weaken
    · exact refresh.weaken
    · exact (optimize h).weaken
    · exact reset.weaken
    · exact begin.reveals.weaken
    · exact startTransaction.reveals.weaken
    · exact (commit .COMMIT).reveals.weaken
    · exact (commit .END).reveals.weaken
    · exact (kill h).weaken
    · exact analyze.reveals.weaken
    · exact deallocate.weaken
    · exact close.weaken
    · exact noStatement
  · rw [hvaries.keyword?_eq_none, hvaries.symm.keyword?_eq_none]
    exact noStatement

end Tells
end Variation
end SqlBatch
