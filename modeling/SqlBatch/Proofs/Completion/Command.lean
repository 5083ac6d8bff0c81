import SqlBatch.Grammar.Command
import SqlBatch.Proofs.Completion.Query

/-!
# Statements complete

A statement is completed as `ANALYZE`, which needs nothing else, and every other statement with the
shortest form that its first keyword allows. Behind a statement comes the end of the batch, so
whatever is optional at the end of a statement is left out.

## Choices behind the first word

A statement is recognized by its first keyword, but some keywords leave a choice of what follows:
what is shown, discarded or set, and to what. What stands behind the keyword is then a rule of its
own (`showTarget`, `discarded`, `assigned`), and it is completed by one of the choices, while a
failure inside any other choice is completed there.

## Explained statements

`EXPLAIN ANALYZE` is the one place where a completion by `ANALYZE` could be misread. `ANALYZE`
behind `EXPLAIN` belongs to it only in front of another statement, and the end of the batch is none:
so a completion `EXPLAIN ANALYZE` explains the statement `ANALYZE` (`run_explained_analyze`). Where
`ANALYZE` is the last token that was passed, it belonged to the `EXPLAIN` when it was read, and in
the completion it is the statement to explain (`continues_explained_analyze`).
-/

namespace SqlBatch.Completion

variable {next : Token.Kind} {inner inner' : Nested}

/-- A statement ends with the batch in a completion. -/
theorem eof_mem_queryEnds : .eof ∈ queryEnds := by
  decide

namespace LeadsTo

/-! ### Changing rows -/

/-- What is put in is completed as `DEFAULT VALUES`. -/
theorem insertSource (h : Inside inner inner') :
    Leads (.keyword .DEFAULT) .eof (.insertSource inner) (.insertSource inner') where
  begins := .current (.advance ((keyword rfl).begins.bind fun _ _ ↦ .pure trivial) rfl rfl)
  continues c := by
    have hrow : Leads (.symbol .leftParen) .eof (.parenthesized inner.expressions)
        (.parenthesized inner'.expressions) := parenthesized (h.values (by decide))
    have hquery : Leads (.keyword .SELECT) .eof (do return InsertSource.query (← inner.query))
        (do return InsertSource.query (← inner'.query)) :=
      (h.query eof_mem_queryEnds).bind fun _ ↦ .pure trivial
    refine .current ?_
    split
    · rename_i hword
      exact LeadsTo.advance ((commaSeparated hrow nofun).bind fun _ ↦ .pure trivial)
        (joins_of_keyword? hword rfl)
    · exact hquery.continues c
    · rename_i hword
      exact LeadsTo.advance ((keyword rfl).bind fun _ ↦ .pure trivial)
        (joins_of_keyword? hword rfl)
    · exact .fail

/-- Behind a table and its columns. -/
theorem inserted (h : Inside inner inner') (table : TableName) (columns : List String) :
    Leads (.keyword .DEFAULT) .eof (.inserted inner table columns)
      (.inserted inner' table columns) :=
  (insertSource h).bind fun _ ↦ .pure trivial

/-- An `INSERT` is completed as `INSERT INTO x DEFAULT VALUES`. -/
theorem insert (h : Inside inner inner') :
    Leads (.keyword .INSERT) .eof (.insert inner) (.insert inner') := by
  have hnames : Leads (.symbol .leftParen) (.keyword .DEFAULT) (.parenthesized .identifiers)
      (.parenthesized .identifiers) := parenthesized (identifiers nofun nofun)
  exact (keyword (by rfl)).bind fun _ ↦ (keyword (by rfl)).bind fun _ ↦
    (tableName (by nofun) (by nofun)).bind fun table ↦
      sees_bind (fun c _ ↦ (hnames.bind (inserted h table)).continues c) (inserted h table [])
        (by nofun)

/-- An assignment is completed as `x = NULL`. -/
theorem assignment (h : Inside inner inner') (hnext : next ∈ queryEnds) :
    Leads (.identifier "x") next (.assignment inner) (.assignment inner') :=
  (identifier (by nofun)).bind fun _ ↦ (symbol (by decide)).bind fun _ ↦
    (h.value hnext).bind fun _ ↦ .pure trivial

/-- An `UPDATE` is completed as `UPDATE x SET x = NULL`. -/
theorem update (h : Inside inner inner') :
    Leads (.keyword .UPDATE) .eof (.update inner) (.update inner') := by
  have hassignments : Leads (.identifier "x") .eof (.commaSeparated (.assignment inner))
      (.commaSeparated (.assignment inner')) := commaSeparated (assignment h (by decide)) nofun
  exact (keyword (by rfl)).bind fun _ ↦ (tableName (by nofun) (by nofun)).bind fun _ ↦
    (alias? (by nofun) (by nofun) (by nofun)).bind fun _ ↦ (keyword (by rfl)).bind fun _ ↦
      hassignments.bind fun _ ↦ (fromClause h eof_mem_queryEnds).bind fun _ ↦
        (valueClause h eof_mem_queryEnds .WHERE).bind fun _ ↦ .pure trivial

/-- A `DELETE` is completed as `DELETE FROM x`. -/
theorem delete (h : Inside inner inner') :
    Leads (.keyword .DELETE) .eof (.delete inner) (.delete inner') :=
  (keyword (by rfl)).bind fun _ ↦ (keyword (by rfl)).bind fun _ ↦
    (tableName (by nofun) (by nofun)).bind fun _ ↦
      (alias? (by nofun) (by nofun) (by nofun)).bind fun _ ↦
        (valueClause h eof_mem_queryEnds .WHERE).bind fun _ ↦ .pure trivial

/-! ### Tables -/

/-- A property is completed as `x = NULL`. -/
theorem property (h : Inside inner inner') (hnext : next ∈ queryEnds) :
    Leads (.identifier "x") next (.property inner) (.property inner') :=
  (dottedName (by nofun) (by nofun)).bind fun _ ↦ (symbol (by decide)).bind fun _ ↦
    (h.value hnext).bind fun _ ↦ .pure trivial

/-- Properties are left out. -/
theorem properties (h : Inside inner inner') :
    Leads .eof .eof (.properties inner) (.properties inner') :=
  listClause (parenthesized (commaSeparated (property h (by decide)) nofun)) nofun rfl

/-- An element of a table is completed as a column. -/
theorem tableElement (h : Inside inner inner') :
    Leads (.identifier "x") (.symbol .rightParen) (.tableElement inner) (.tableElement inner') := by
  have hkey : Leads (.keyword .KEY) (.symbol .rightParen) .primaryKeyElement .primaryKeyElement :=
    (keyword (by rfl)).bind fun _ ↦ (parenthesized (identifiers (by nofun) (by nofun))).bind
      fun _ ↦ .pure trivial
  exact acceptKeyword_bind hkey ((columnDef h).bind fun _ ↦ .pure trivial) nofun rfl

/-- A table is completed with one column and without properties. -/
theorem tableDefinition (h : Inside inner inner') (ifNotExists : Bool) :
    Leads (.identifier "x") .eof (.tableDefinition inner ifNotExists)
      (.tableDefinition inner' ifNotExists) := by
  have helements : Leads (.symbol .leftParen) .eof
      (.parenthesized (.commaSeparated (.tableElement inner)))
      (.parenthesized (.commaSeparated (.tableElement inner'))) :=
    parenthesized (commaSeparated (tableElement h) nofun)
  exact (tableName (by nofun) (by nofun)).bind fun _ ↦ helements.bind fun _ ↦
    (properties h).bind fun _ ↦ .pure trivial

/-- A table is completed as `CREATE TABLE x (x INT)`. -/
theorem createTable (h : Inside inner inner') :
    Leads (.keyword .CREATE) .eof (.createTable inner) (.createTable inner') :=
  (keyword (by rfl)).bind fun _ ↦ (keyword (by rfl)).bind fun _ ↦ acceptKeyword_bind
    ((keyword (by rfl)).bind fun _ ↦ (keyword (by rfl)).bind fun _ ↦ tableDefinition h true)
    (tableDefinition h false) (by nofun) (by rfl)

/-- The table that is dropped is completed as `x`. -/
theorem dropped (ifExists : Bool) :
    Leads (.identifier "x") .eof (.dropped ifExists) (.dropped ifExists) :=
  (tableName (by nofun) (by nofun)).bind fun _ ↦ .pure trivial

/-- `IF EXISTS` is left out, unless `IF` has been passed. -/
theorem dropTable : Leads (.keyword .DROP) .eof .dropTable .dropTable :=
  (keyword (by rfl)).bind fun _ ↦ (keyword (by rfl)).bind fun _ ↦
    acceptKeyword_bind ((keyword (by rfl)).bind fun _ ↦ dropped true) (dropped false) (by nofun)
      (by rfl)

/-- One table is enough. -/
theorem refresh : Leads (.keyword .REFRESH) .eof .refresh .refresh :=
  (keyword (by rfl)).bind fun _ ↦ (keyword (by rfl)).bind fun _ ↦
    (commaSeparated (tableName (by nofun) (by nofun)) (by nofun)).bind fun _ ↦ .pure trivial

/-- One table is enough, without properties. -/
theorem optimize (h : Inside inner inner') :
    Leads (.keyword .OPTIMIZE) .eof (.optimize inner) (.optimize inner') :=
  (keyword (by rfl)).bind fun _ ↦ (keyword (by rfl)).bind fun _ ↦
    (commaSeparated (tableName (by nofun) (by nofun)) (by nofun)).bind fun _ ↦
      (properties h).bind fun _ ↦ .pure trivial

/-! ### The session -/

/-- What a `SHOW` statement shows. -/
def showTarget : Rule ShowTarget := do
  match (← .current).keyword? with
  | some .TABLES =>
    .advance
    let qualified ← if ← .acceptKeyword .FROM then pure true else .acceptKeyword .IN
    if qualified then return .tables (some (← .identifier)) else return .tables none
  | some .SCHEMAS =>
    .advance
    return .schemas
  | some .CREATE =>
    .advance
    .keyword .TABLE
    return .createTable (← .tableName)
  | some .ALL =>
    .advance
    return .all
  | _ => return .setting (← .dottedName)

/-- What is shown is completed as `SCHEMAS`. -/
theorem leads_showTarget : Leads (.keyword .SCHEMAS) .eof showTarget showTarget where
  begins := .current (.advance (.pure trivial) rfl rfl)
  continues c := by
    have hschema : Leads (.identifier "x") .eof
        (do return ShowTarget.tables (some (← .identifier)))
        (do return ShowTarget.tables (some (← .identifier))) :=
      (identifier (by nofun)).bind fun _ ↦ .pure trivial
    have hsetting : Leads (.identifier "x") .eof (do return ShowTarget.setting (← .dottedName))
        (do return ShowTarget.setting (← .dottedName)) :=
      (dottedName (by nofun) (by nofun)).bind fun _ ↦ .pure trivial
    refine .current ?_
    split
    · rename_i hword
      exact LeadsTo.advance (acceptKeyword_bind hschema
        (acceptKeyword_bind hschema (.pure trivial) (by nofun) rfl) (by nofun) rfl)
        (joins_of_keyword? hword rfl)
    · rename_i hword
      exact LeadsTo.advance (.pure trivial) (joins_of_keyword? hword rfl)
    · rename_i hword
      exact LeadsTo.advance ((keyword (by rfl)).bind fun _ ↦ (tableName (by nofun) (by nofun)).bind
        fun _ ↦ .pure trivial) (joins_of_keyword? hword rfl)
    · rename_i hword
      exact LeadsTo.advance (.pure trivial) (joins_of_keyword? hword rfl)
    · exact hsetting.continues c

theorem «show» : Leads (.keyword .SHOW) .eof .show .show :=
  (keyword (by rfl)).bind fun _ ↦ leads_showTarget

/-- The scope of a setting is left out. -/
theorem settingScope : Leads (.identifier "x") (.identifier "x") .settingScope .settingScope :=
  acceptKeyword_bind (.pure trivial)
    ((acceptKeyword (by nofun) (by rfl)).bind fun _ ↦ .pure trivial) nofun rfl

/-- The value of a setting is completed as `NULL`. -/
theorem settingValue (h : Inside inner inner') (scope : SettingScope) (name : String) :
    Leads (.keyword .NULL) .eof (.settingValue inner scope name)
      (.settingValue inner' scope name) :=
  acceptKeyword_bind (.pure trivial)
    ((h.values eof_mem_queryEnds).bind fun _ ↦ .pure trivial) nofun rfl

/-- What stands behind the name of a setting. -/
def assigned (inner : Nested) (scope : SettingScope) (name : String) : Rule Command := do
  let assigned ← if ← .accept .eq then pure true else .acceptKeyword .TO
  unless assigned do
    .fail (.mismatched [Symbol.eq.quoted, Keyword.TO.quoted])
  .settingValue inner scope name

/-- The value of a setting behind its equals sign. -/
theorem leads_assigned (h : Inside inner inner') (scope : SettingScope) (name : String) :
    Leads (.symbol .eq) .eof (assigned inner scope name) (assigned inner' scope name) := by
  have hvalue := settingValue h scope name
  exact accept_first hvalue (fun c ↦ continues_acceptKeyword hvalue .fail_bind rfl) (by decide)

/-- A setting is completed as `SET x = NULL`. -/
theorem set (h : Inside inner inner') :
    Leads (.keyword .SET) .eof (.set inner) (.set inner') :=
  (keyword (by rfl)).bind fun _ ↦ settingScope.bind fun scope ↦
    (dottedName (by nofun) (by nofun)).bind fun name ↦ leads_assigned h scope name

/-- `RESET` is completed as `RESET ALL`. -/
theorem reset : Leads (.keyword .RESET) .eof .reset .reset := by
  have hname : Leads (.identifier "x") .eof (do return Command.reset (some (← .dottedName)))
      (do return Command.reset (some (← .dottedName))) :=
    (dottedName (by nofun) (by nofun)).bind fun _ ↦ .pure trivial
  exact (keyword (by rfl)).bind fun _ ↦ acceptKeyword_first (.pure trivial) hname.continues (by rfl)

/-- What a `DISCARD` statement drops. -/
def discarded : Rule Command := do
  match (← .current).keyword?.bind DiscardTarget.ofKeyword? with
  | some target =>
    .advance
    return .discard target
  | none => .fail (.mismatched ["'ALL'", "'PLANS'", "'SEQUENCES'", "'TEMPORARY'", "'TEMP'"])

/-- What is discarded is completed as `ALL`. -/
theorem leads_discarded : Leads (.keyword .ALL) .eof discarded discarded where
  begins := .current (.advance (.pure trivial) rfl rfl)
  continues c := by
    refine .current ?_
    split
    · exact LeadsTo.advance (.pure trivial) (joins_eof _)
    · exact .fail

theorem discard : Leads (.keyword .DISCARD) .eof .discard .discard :=
  (keyword (by rfl)).bind fun _ ↦ leads_discarded

/-- Words behind the start of a transaction are left out. -/
theorem transactionWords : Leads .eof .eof .transactionWords .transactionWords :=
  acceptKeyword_bind (.pure trivial)
    ((acceptKeyword (by nofun) (by rfl)).bind fun _ ↦ .pure trivial) nofun rfl

theorem begin : Leads (.keyword .BEGIN) .eof .begin .begin :=
  (keyword (by rfl)).bind fun _ ↦ transactionWords.bind fun _ ↦ .pure trivial

/-- `START` is completed by `TRANSACTION`. -/
theorem startTransaction : Leads (.keyword .START) .eof .startTransaction .startTransaction :=
  (keyword (by rfl)).bind fun _ ↦ (keyword (by rfl)).bind fun _ ↦ .pure trivial

/-- The end of a transaction needs no further word. -/
theorem commit (first : Keyword) : Leads (.keyword first) .eof (.commit first) (.commit first) :=
  (keyword (joins_eof _)).bind fun _ ↦ transactionWords.bind fun _ ↦ .pure trivial

/-- `KILL` is completed as `KILL ALL`. -/
theorem kill (h : Inside inner inner') :
    Leads (.keyword .KILL) .eof (.kill inner) (.kill inner') := by
  have hjob : Leads (.keyword .NULL) .eof (do return Command.kill (some (← inner.expression)))
      (do return Command.kill (some (← inner'.expression))) :=
    (h.value eof_mem_queryEnds).bind fun _ ↦ .pure trivial
  exact (keyword (by rfl)).bind fun _ ↦ acceptKeyword_first (.pure trivial) hjob.continues (by rfl)

/-- A name is completed as `ALL`. -/
theorem allOrName : Leads (.keyword .ALL) .eof .allOrName .allOrName := by
  refine acceptKeyword_first (.pure trivial) (fun c ↦ .current ?_) rfl
  split
  · exact LeadsTo.advance (.pure trivial) (joins_eof _)
  · exact ((identifier (by nofun)).continues c).map fun _ _ ↦ trivial

/-- `PREPARE` is left out. -/
theorem deallocate : Leads (.keyword .DEALLOCATE) .eof .deallocate .deallocate :=
  (keyword (by rfl)).bind fun _ ↦ (acceptKeyword (by nofun) (by rfl)).bind fun _ ↦
    allOrName.bind fun _ ↦ .pure trivial

theorem close : Leads (.keyword .CLOSE) .eof .close .close :=
  (keyword (by rfl)).bind fun _ ↦ allOrName.bind fun _ ↦ .pure trivial

/-! ### Explained statements -/

/-- What `EXPLAIN` explains. -/
def explained (inner : Nested) : Rule Command := do
  let analyze := (← .current).isKeyword .ANALYZE && (← .following).startsStatement
  if analyze then .advance
  return .explain analyze (← inner.statement)

/-- What is read behind `EXPLAIN`, by the two tokens that are looked at together. -/
theorem run_explained (inner : Nested) (d : Cursor) :
    (explained inner).run d =
      if d.current.isKeyword .ANALYZE && d.following.startsStatement then
        (Rule.explaining inner true).run d.advance
      else (Rule.explaining inner false).run d := by
  rw [explained, Rule.run_bind, Rule.run_current]
  simp only
  rw [Rule.run_bind, Rule.run_following]
  simp only
  cases d.current.isKeyword .ANALYZE && d.following.startsStatement <;> rfl

/-- Behind an `ANALYZE` that is apart from it, no statement starts. -/
theorem startsStatement_eq_false {d : Cursor} (hd : d.current.isKeyword .ANALYZE)
    (hapart : d.current.kind.joins d.following.kind = false) :
    d.following.startsStatement = false := by
  rw [show d.current.kind = .keyword .ANALYZE from beq_iff_eq.1 hd] at hapart
  rw [Token.startsStatement, Token.keyword?]
  generalize d.following.kind = kind at hapart
  cases kind with
  | keyword keyword => exact hapart
  | _ => rfl

/-- An `ANALYZE` in front of anything else than a statement is the statement to explain. -/
theorem run_explained_analyze (h : Inside inner inner') {d : Cursor}
    (hd : d.current.isKeyword .ANALYZE) (hapart : d.current.kind.joins d.following.kind = false) :
    (explained inner').run d = .done (.explain false .analyze) d.advance := by
  rw [run_explained, startsStatement_eq_false hd hapart, Bool.and_false,
    if_neg Bool.false_ne_true, Rule.explaining, Rule.run_bind, h.analyze hd]
  rfl

/-- What is explained is completed as `ANALYZE`. -/
theorem begins_explained (h : Inside inner inner') :
    Begins (.keyword .ANALYZE) .eof (explained inner') := by
  intro β k hk
  have hadvance : Starts (.keyword .ANALYZE)
      (Rule.advance >>= fun _ ↦ k (.explain false .analyze)) :=
    .advance (hk _ trivial) rfl rfl
  refine hadvance.congr_following fun d hd hapart ↦ ?_
  rw [Rule.run_bind, run_explained_analyze h (by rw [hd]; rfl) (by rw [hd]; exact hapart)]
  rfl

/-- A statement that has been begun behind `EXPLAIN` is completed. -/
theorem continues_explaining (h : Inside inner inner') (analyze : Bool) (c : Cursor) :
    Continues .eof (.explaining inner analyze) (.explaining inner' analyze) c :=
  (h.statement c).bind (fun _ _ ↦ .pure trivial) fun _ _ _ ↦ .pure

/-- Without an `ANALYZE` in front of a statement, the statement is completed. -/
theorem continues_explained_plain (h : Inside inner inner') {c : Cursor}
    (hexplains : (c.current.isKeyword .ANALYZE && c.following.startsStatement) = false) :
    Continues .eof (explained inner) (explained inner') c := by
  refine (continues_explaining h false c).congr_following ?_ fun d hd hd' ↦ ?_
  · rw [run_explained, hexplains, if_neg Bool.false_ne_true]
  · have hnot : (d.current.isKeyword .ANALYZE && d.following.startsStatement) = false := by
      rcases hd' with hd' | hd'
      · rw [hd, hd', hexplains]
      · rw [Bool.and_eq_false_imp]
        exact fun hanalyze ↦ startsStatement_eq_false hanalyze (by rw [hd]; exact hd')
    rw [run_explained, hnot, if_neg Bool.false_ne_true]

/-- Where `ANALYZE` is the last token passed, it becomes the statement to explain. -/
theorem continues_explained_analyze (h : Inside inner inner') {c : Cursor}
    (hexplains : c.current.isKeyword .ANALYZE && c.following.startsStatement) :
    Continues .eof (explained inner) (explained inner') c := by
  obtain ⟨hanalyze, -⟩ := (Bool.and_eq_true _ _).mp hexplains
  have hrun : (explained inner).run c =
      (Rule.explaining inner true).run c.advance := by
    rw [run_explained, hexplains, if_pos rfl]
  intro β k k' hstarts hk
  have hcompletes := continues_explaining h true c.advance k k' hstarts fun a c' hdone ↦
    hk a c' (hrun.trans hdone)
  refine hcompletes.step ?_ (fun hopen _ ↦ ?_) fun d hd hd' ↦ ?_
  · rw [Rule.run_bind, Rule.run_bind, hrun]
  · obtain ⟨behind, hends, -, haccepts⟩ :=
      hstarts (.explain false .analyze) trivial c.advance.placeholders
    refine ⟨.ofKind .eof :: behind, hends, ?_, fun d hd hd' ↦ ?_⟩
    · rintro _ ⟨⟩
      exact joins_eof _
    · have hcurrent := current_eq_of_ahead hd
      have hapart : d.current.kind.joins d.following.kind = false := by
        rw [following_eq_of_ahead hd]
        exact joins_eof _
      refine (haccepts d.advance (ahead_advance hd hopen)
        (placeholders_advance hopen hcurrent hd')).congr ?_
      rw [Rule.run_bind, run_explained_analyze h (hcurrent ▸ hanalyze) hapart]
  · rw [Rule.run_bind, Rule.run_bind, run_explained, hd, hd', hexplains, if_pos rfl]

/-- **What is explained**, whether `ANALYZE` belongs to the `EXPLAIN` or not. -/
theorem continues_explained (h : Inside inner inner') (c : Cursor) :
    Continues .eof (explained inner) (explained inner') c := by
  cases hexplains : c.current.isKeyword .ANALYZE && c.following.startsStatement with
  | false => exact continues_explained_plain h hexplains
  | true => exact continues_explained_analyze h hexplains

/-- `EXPLAIN` is completed as `EXPLAIN ANALYZE`. -/
theorem explain (h : Inside inner inner') :
    Leads (.keyword .EXPLAIN) .eof (.explain inner) (.explain inner') :=
  (keyword (by rfl)).bind fun _ ↦ ⟨begins_explained h, continues_explained h⟩

/-! ### Any statement -/

/-- The statement `ANALYZE` is read in any grammar. -/
theorem run_statement_analyze (inner : Nested) {d : Cursor} (hd : d.current.isKeyword .ANALYZE) :
    (Rule.statement inner).run d = .done .analyze d.advance := by
  have hkeyword : d.current.keyword? = some .ANALYZE := by
    rw [Token.keyword?, show d.current.kind = .keyword .ANALYZE from beq_iff_eq.1 hd]
  rw [Rule.statement, Rule.run_bind, Rule.run_current]
  simp only [hkeyword]
  rw [Rule.analyze, Rule.run_bind, run_keyword hd]
  rfl

theorem analyze : Leads (.keyword .ANALYZE) .eof .analyze .analyze :=
  (keyword (by rfl)).bind fun _ ↦ .pure trivial

/-- **A statement completes**: the rule that its first keyword picks does. -/
theorem continues_statement (h : Inside inner inner') (c : Cursor) :
    Continues .eof (.statement inner) (.statement inner') c := by
  have hmap {α : Type} {first : Token.Kind} {r r' : Rule α} {f : α → Command}
      (hr : Leads first .eof r r') : Continues .eof (f <$> r) (f <$> r') c :=
    (hr.continues c).map fun _ _ ↦ trivial
  refine .current ?_
  -- One case for each keyword that starts a statement, in the order of the rule.
  split
  · exact hmap (h.query eof_mem_queryEnds)
  · exact hmap (insert h)
  · exact hmap (update h)
  · exact hmap (delete h)
  · exact hmap (createTable h)
  · exact dropTable.continues c
  · exact (explain h).continues c
  · exact hmap «show»
  · exact (set h).continues c
  · exact discard.continues c
  · exact refresh.continues c
  · exact (optimize h).continues c
  · exact reset.continues c
  · exact begin.continues c
  · exact startTransaction.continues c
  · exact (commit .COMMIT).continues c
  · exact (commit .END).continues c
  · exact (kill h).continues c
  · exact analyze.continues c
  · exact deallocate.continues c
  · exact close.continues c
  · exact .current (.ite (fun _ ↦ .fail) fun _ ↦ .fail)

end LeadsTo
end SqlBatch.Completion
