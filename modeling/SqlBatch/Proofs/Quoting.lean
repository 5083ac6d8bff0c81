import SqlBatch.Proofs.Reading

/-!
# Table names in quotes

Inside quotes, a quote is written twice: what is read between two quotes is exactly what is written
there with every quote doubled (`Scan.quotedBody?_doubled`, `Scan.exists_of_quotedBody?`). A table's
quoted name has the quotes of the name as they are, so it is read as that name just when the name
has none (`TableName.kindsOf_quoted_iff`), and only then does it tell the table from any other.

## Both directions

Without quotes in it, a name in quotes is one identifier, and a statement with it is read as one on
the table. With a quote in it, reading ends at that quote or takes it for half of a doubled one, and
in no case is the same name read. `quoted_eq_of_quotes` shows two tables with one quoted name.
-/

namespace SqlBatch

/-! ### What stands between quotes -/

namespace Scan

variable {quote c : Char} {body cs rest rest' : List Char}

/-- Contents written with every quote twice are read up to the first single quote. -/
theorem quotedBody?_doubled (hrest : rest.head? ≠ some quote) :
    quotedBody? quote (doubled quote body ++ quote :: rest) =
      some (body, (doubled quote body).length + 1) := by
  induction body with
  | nil =>
    rcases rest with _ | ⟨d, ds⟩
    · simp [doubled, quotedBody?]
    · have hd : d ≠ quote := fun hd ↦ hrest (congrArg some hd)
      simp [doubled, quotedBody?, hd]
  | cons c body ih =>
    by_cases hc : c = quote
    · subst hc
      simp [doubled_cons_self, quotedBody?, ih]
    · rw [doubled_cons_of_ne hc, List.cons_append, quotedBody?.eq_def]
      simp [hc, ih]

/-- What is read up to a single quote is written with every quote twice. -/
theorem exists_of_quotedBody? {n : Nat} (h : quotedBody? quote cs = some (body, n)) :
    ∃ rest, cs = doubled quote body ++ quote :: rest ∧ n = (doubled quote body).length + 1 := by
  fun_induction quotedBody? quote cs generalizing body n with
  | case1 => cases h
  | case2 =>
    cases h
    exact ⟨[], rfl, rfl⟩
  | case3 ds ih =>
    obtain ⟨⟨inner, k⟩, hinner, hmap⟩ := Option.map_eq_some_iff.1 h
    obtain ⟨rest, rfl, rfl⟩ := ih hinner
    cases hmap
    exact ⟨rest, by rw [doubled_cons_self]; rfl, by rw [doubled_cons_self]; rfl⟩
  | case4 d ds =>
    cases h
    exact ⟨d :: ds, rfl, rfl⟩
  | case5 c cs hc ih =>
    obtain ⟨⟨inner, k⟩, hinner, hmap⟩ := Option.map_eq_some_iff.1 h
    obtain ⟨rest, rfl, rfl⟩ := ih hinner
    cases hmap
    exact ⟨rest, by rw [doubled_cons_of_ne hc]; rfl, by rw [doubled_cons_of_ne hc]; rfl⟩

/-- Contents that are the same with every quote twice have no quote. A quote of the contents that
is passed on the left leaves one on the right that is not, hence the number of further quotes. -/
theorem not_mem_of_eq_doubled {n : Nat} (hrest : rest.head? ≠ some quote)
    (h : body ++ quote :: rest =
      List.replicate n quote ++ (doubled quote body ++ quote :: rest')) :
    n = 0 ∧ quote ∉ body := by
  induction body generalizing n with
  | nil =>
    rcases n with _ | n
    · exact ⟨rfl, List.not_mem_nil⟩
    · have htail : rest = List.replicate n quote ++ quote :: rest' := (List.cons.inj h).2
      rcases n with _ | n <;> exact absurd (congrArg List.head? htail) hrest
  | cons c body ih =>
    by_cases hc : c = quote
    · subst hc
      have hshift (ds : List Char) : List.replicate n c ++ c :: c :: ds =
          c :: (List.replicate (n + 1) c ++ ds) := by
        rw [← List.cons_append, ← List.replicate_succ, List.replicate_succ', List.replicate_succ',
          List.append_assoc, List.append_assoc]
        rfl
      rw [doubled_cons_self, List.cons_append, List.cons_append, List.cons_append, hshift] at h
      exact absurd (ih (List.cons.inj h).2).1 (Nat.succ_ne_zero n)
    · rcases n with _ | n
      · rw [doubled_cons_of_ne hc] at h
        obtain ⟨-, hbody⟩ := ih (n := 0) (List.cons.inj h).2
        exact ⟨rfl, fun hmem ↦ (List.mem_cons.1 hmem).elim (Ne.symm hc) hbody⟩
      · exact absurd (List.cons.inj h).1 hc

/-- **What is written as it is, is read as it is just when it has no quote.** -/
theorem quotedBody?_eq_self_iff (hrest : rest.head? ≠ some quote) :
    quotedBody? quote (body ++ quote :: rest) = some (body, body.length + 1) ↔ quote ∉ body := by
  constructor
  · intro h
    obtain ⟨rest', heq, -⟩ := exists_of_quotedBody? h
    exact (not_mem_of_eq_doubled (n := 0) hrest heq).2
  · intro h
    have hread := @quotedBody?_doubled quote body rest hrest
    rwa [doubled_of_not_mem h] at hread

end Scan

/-! ### The tokens of a quoted name -/

/-- A double quote starts a quoted name. -/
theorem scan_quote (cs : List Char) : scan '\x22' cs = .quotedName '\x22' cs := by
  rcases cs with _ | ⟨d, ds⟩ <;> rfl

/-- A name in quotes, where no further quote follows. -/
theorem kindsOf_quote {name : String} {rest : List Char} (hrest : rest.head? ≠ some '\x22')
    (h : '\x22' ∉ name.toList) :
    kindsOf ('\x22' :: (name.toList ++ '\x22' :: rest)) = .identifier name :: kindsOf rest := by
  have hscan : Scan.quotedName '\x22' (name.toList ++ '\x22' :: rest) =
      ⟨.identifier name, name.toList.length + 1⟩ := by
    rw [Scan.quotedName, (Scan.quotedBody?_eq_self_iff hrest).2 h]
    dsimp only
    rw [String.ofList_toList]
  rw [kindsOf_scan rfl, scan_quote, hscan]
  dsimp only
  rw [List.drop_length_add_append]
  rfl

/-- A name that is read from between quotes as it is has no quote in it. -/
theorem not_mem_of_kindsOf_quote {name : String} {rest : List Char} {kinds : List Token.Kind}
    (hrest : rest.head? ≠ some '\x22')
    (h : kindsOf ('\x22' :: (name.toList ++ '\x22' :: rest)) = .identifier name :: kinds) :
    '\x22' ∉ name.toList := by
  rw [kindsOf_scan rfl, scan_quote, Scan.quotedName] at h
  split at h
  · rename_i body n hbody
    obtain rfl : body = name.toList := by
      rw [← Token.Kind.identifier.inj (List.cons.inj h).1, String.toList_ofList]
    obtain ⟨rest', heq, -⟩ := Scan.exists_of_quotedBody? hbody
    exact (Scan.not_mem_of_eq_doubled (n := 0) hrest heq).2
  · cases (List.cons.inj h).1

theorem kindsOf_dot (cs : List Char) : kindsOf ('.' :: cs) = .symbol .dot :: kindsOf cs :=
  kindsOf_scan rfl

namespace TableName

/-- No quote stands in the name, nor in that of the schema. -/
def HasNoQuote (table : TableName) : Prop :=
  (∀ schema ∈ table.schema, '\x22' ∉ schema.toList) ∧ '\x22' ∉ table.name.toList

/-- The kinds of the tokens that a table name is made of. -/
def kinds (table : TableName) : List Token.Kind :=
  match table.schema with
  | some schema => [.identifier schema, .symbol .dot, .identifier table.name]
  | none => [.identifier table.name]

/-- A table is determined by the tokens of its name. -/
theorem eq_of_kinds {table other : TableName} (h : table.kinds = other.kinds) : table = other := by
  obtain ⟨schema, name⟩ := table
  obtain ⟨schema', name'⟩ := other
  cases schema <;> cases schema' <;> simp_all [kinds]

/-- The characters of a quoted name. -/
theorem toList_quoted (table : TableName) : table.quoted.toList =
    match table.schema with
    | some schema => '\x22' :: (schema.toList ++ '\x22' :: '.' ::
        '\x22' :: (table.name.toList ++ ['\x22']))
    | none => '\x22' :: (table.name.toList ++ ['\x22']) := by
  obtain ⟨_ | schema, name⟩ := table <;> simp [quoted, toString]

/-- **A quoted name is read as the name just when no quote stands in it.** -/
theorem kindsOf_quoted_iff (table : TableName) :
    kindsOf table.quoted.toList = table.kinds ++ [.eof] ↔ table.HasNoQuote := by
  have hend : ([] : List Char).head? ≠ some '\x22' := nofun
  have hdot (cs : List Char) : ('.' :: cs).head? ≠ some '\x22' :=
    fun h ↦ absurd (Option.some.inj h) (by decide)
  obtain ⟨schema, name⟩ := table
  rw [toList_quoted]
  rcases schema with _ | schema
  · constructor
    · intro h
      exact ⟨nofun, not_mem_of_kindsOf_quote hend h⟩
    · rintro ⟨-, hname⟩
      show kindsOf ('\x22' :: (name.toList ++ ['\x22'])) = _
      rw [kindsOf_quote hend hname, kindsOf_nil]
      rfl
  · constructor
    · intro h
      -- The schema is read first; only if it is read as it is, the name is looked at.
      have hschema := not_mem_of_kindsOf_quote (hdot _) h
      dsimp only at h
      rw [kindsOf_quote (hdot _) hschema, kindsOf_dot] at h
      refine ⟨?_, not_mem_of_kindsOf_quote hend (List.cons.inj (List.cons.inj h).2).2⟩
      rintro _ ⟨⟩
      exact hschema
    · rintro ⟨hschema, hname⟩
      dsimp only
      rw [kindsOf_quote (hdot _) (hschema schema rfl), kindsOf_dot, kindsOf_quote hend hname,
        kindsOf_nil]
      rfl

end TableName

/-! ### Reading a quoted name -/

/-- The tokens of a table are read as the table. -/
theorem Rule.run_tableName {table : TableName} {c : Cursor} {kind : Token.Kind}
    {rest : List Token.Kind} (h : c.kinds = table.kinds ++ kind :: rest)
    (hdot : kind ≠ .symbol .dot) :
    ∃ after, tableName.run c = .done table after ∧ after.kinds = kind :: rest := by
  have hidentifier {c : Cursor} {name : String} {rest : List Token.Kind}
      (h : c.kinds = .identifier name :: rest) :
      identifier.run c = .done name c.advance ∧ c.advance.kinds = rest :=
    ⟨run_identifier_of_kind (Cursor.kind_current h),
      Cursor.kinds_advance h (Cursor.isOpen_of_kinds h rfl)⟩
  obtain ⟨_ | schema, name⟩ := table
  · obtain ⟨hname, hafter⟩ := hidentifier h
    refine ⟨c.advance, ?_, hafter⟩
    rw [tableName, run_bind_of_done hname,
      run_bind_of_done (run_accept_eq_false (Cursor.isSymbol_of_ne hafter hdot))]
    rfl
  · obtain ⟨hschema, hpoint⟩ := hidentifier h
    have hsymbol : c.advance.current.isSymbol .dot := beq_iff_eq.2 (Cursor.kind_current hpoint)
    obtain ⟨hname, hafter⟩ := hidentifier
      (Cursor.kinds_advance hpoint (Token.isOpen_of_isSymbol hsymbol (by decide)))
    refine ⟨c.advance.advance.advance, ?_, hafter⟩
    rw [tableName, run_bind_of_done hschema, run_bind_of_done (run_accept_eq_true hsymbol),
      if_pos rfl, run_bind_of_done hname]
    rfl

/-- The text of a statement that refreshes one table. -/
def refreshText (table : TableName) : String :=
  "REFRESH TABLE " ++ table.quoted

/-- The tokens of a statement on the table. -/
theorem kindsOf_refreshText (table : TableName) :
    kindsOf (refreshText table).toList =
      .keyword .REFRESH :: .keyword .TABLE :: kindsOf table.quoted.toList := by
  have hrefresh (rest : List Char) : kindsOf ("REFRESH ".toList ++ rest) =
      .keyword .REFRESH :: kindsOf rest :=
    @kindsOf_cons 'R' "EFRESH".toList _ (fun _ ↦ rfl) (by decide +kernel) rest
  have htable (rest : List Char) : kindsOf ("TABLE ".toList ++ rest) =
      .keyword .TABLE :: kindsOf rest :=
    @kindsOf_cons 'T' "ABLE".toList _ (fun _ ↦ rfl) (by decide +kernel) rest
  rw [refreshText, String.toList_append]
  show kindsOf ("REFRESH ".toList ++ ("TABLE ".toList ++ _)) = _
  rw [hrefresh, htable]

/-- The statement is read. -/
theorem Rule.run_terminatedStatement_refresh {table : TableName} {c : Cursor}
    (h : c.kinds = .keyword .REFRESH :: .keyword .TABLE :: (table.kinds ++ [.eof])) :
    ∃ after, terminatedStatement.run c = .done (.refresh [table]) after ∧
      after.kinds = [.eof] := by
  have hrefresh := Cursor.isKeyword_current h
  have h' := Cursor.kinds_advance h (Token.isOpen_of_isKeyword hrefresh)
  obtain ⟨after, htable, hafter⟩ := run_tableName (Cursor.kinds_advance h'
    (Token.isOpen_of_isKeyword (Cursor.isKeyword_current h'))) (by decide)
  refine ⟨after, run_terminated_of_done ?_ (Cursor.endsStatement_of_eof hafter), hafter⟩
  have hkeyword : c.current.keyword? = some .REFRESH := by
    rw [Token.keyword?, Cursor.kind_current h]
  have hmany := run_commaSeparated_of_done htable (Cursor.isSymbol_of_ne hafter (by decide))
  rw [topStatement, statementWithin, statement, run_bind_of_done (run_current c), hkeyword]
  show refresh.run c = _
  rw [refresh, run_bind_of_done (run_keyword hrefresh),
    run_bind_of_done (run_keyword_of_kinds h'), run_bind_of_done hmany]
  rfl

/-- A table without quotes in its names is the one that its quoted name refreshes. -/
theorem exists_parseBatch_refreshText {table : TableName} (h : table.HasNoQuote) :
    ∃ s, parseBatch (refreshText table) false = .ok [s] ∧ s.tree? = some (.refresh [table]) := by
  have hkinds : (tokenize (refreshText table)).map (·.kind) =
      .keyword .REFRESH :: .keyword .TABLE :: (table.kinds ++ [.eof]) := by
    rw [← table.kindsOf_quoted_iff.2 h, ← kindsOf_refreshText, kindsOf, String.ofList_toList]
  obtain ⟨after, hrun, hafter⟩ :=
    Rule.run_terminatedStatement_refresh (c := .ofTokens (tokenize (refreshText table)) 0) hkinds
  exact exists_parseBatch_of_run hkinds hrun hafter

/-- **A quoted name tells which table is meant just when the table has no quote in its names**:
then its tokens are those of the name, a statement about it is about that table, and no other such
table has the same one. -/
theorem quoted_iff_hasNoQuote (table : TableName) :
    ((tokenize table.quoted).map (·.kind) = table.kinds ++ [.eof] ↔ table.HasNoQuote) ∧
      (table.HasNoQuote →
        (∃ s, parseBatch (refreshText table) false = .ok [s] ∧
          s.tree? = some (.refresh [table]) ∧ s.metadata.tables = [table]) ∧
        ∀ other : TableName, other.HasNoQuote → other.quoted = table.quoted → other = table) := by
  have hkinds (table : TableName) :
      (tokenize table.quoted).map (·.kind) = table.kinds ++ [.eof] ↔ table.HasNoQuote := by
    rw [← table.kindsOf_quoted_iff, kindsOf, String.ofList_toList]
  refine ⟨hkinds table, fun h ↦ ⟨?_, fun other hother heq ↦ ?_⟩⟩
  · obtain ⟨s, hparse, htree⟩ := exists_parseBatch_refreshText h
    refine ⟨s, hparse, htree, ?_⟩
    rw [Statement.metadata, htree]
    rfl
  · have hsame : other.kinds ++ [.eof] = table.kinds ++ [.eof] := by
      rw [← (hkinds other).2 hother, ← (hkinds table).2 h, heq]
    exact TableName.eq_of_kinds (List.append_cancel_right hsame)

/-- Two tables of one statement have the same quoted name, which is read as the first of them. -/
theorem quoted_eq_of_quotes :
    (parseBatch "REFRESH TABLE a.b, \x22a\x22\x22.\x22\x22b\x22" false).toOption.map
        (·.map (·.metadata.tables)) = some [[⟨some "a", "b"⟩, ⟨none, "a\x22.\x22b"⟩]] ∧
      (⟨none, "a\x22.\x22b"⟩ : TableName).quoted = (⟨some "a", "b"⟩ : TableName).quoted ∧
      (tokenize (⟨none, "a\x22.\x22b"⟩ : TableName).quoted).map (·.kind) =
        [.identifier "a", .symbol .dot, .identifier "b", .eof] := by
  refine ⟨?_, ?_, ?_⟩ <;> decide +kernel

end SqlBatch
