import SqlBatch.Proofs.Levels
import SqlBatch.Proofs.RoundTrip.Operand
import SqlBatch.Proofs.TypeNames.Tokens

/-!
# Reading type names

The name of a built-in type is read as that type (`typeName_is_read`). Each optional part of a type
is recognized by its first token, and where an expression ends no such token stands: so a rule takes
all that belongs to its type, and nothing behind it (`DataType.IsReadWithin`). An array, and the
columns of an object, take one level of nesting each.

## The induction

It is on `DataType.IsBuiltIn`, which counts the levels. A type that is not made of others is read by
words alone, whatever is left of the levels. An array or an object needs one level more than what it
is made of; the columns of an object are read one by one, and behind each type stands a comma or the
closing parenthesis, where the types inside end too (`closes_of_otherColumns`).
-/

namespace SqlBatch

namespace Rule

variable {inner : Nested} {c d mid : Cursor}

/-! ### Sizes, lengths and policies -/

/-- A size within its limit. -/
theorem run_size {value limit : Nat} (hkind : c.current.kind = .integer value)
    (hle : value ≤ limit) : (size limit).run c = .done value c.advance := by
  rw [size, run_bind_of_done (run_current c), hkind]
  dsimp only
  rw [if_pos hle]
  rfl

/-- Precision and scale, or none of them. -/
theorem run_decimalSize {size : Option DecimalSize} (hpasses : c.Passes (kindsOfSize size) d)
    (hcloses : d.Closes) : decimalSize.run c = .done size d := by
  rw [decimalSize, run_bind_of_done (run_sees _ _)]
  rcases size with _ | ⟨precision, _ | scale⟩
  · obtain rfl : c = d := hpasses
    rw [Token.isSymbol, beq_eq_false_iff_ne.2 (hcloses.ne rfl)]
    rfl
  · obtain ⟨hopen, -, hprecision, -, hclose, -, rfl⟩ := hpasses
    have hsymbol : c.current.isSymbol .leftParen := beq_iff_eq.2 hopen
    have hcomma : c.advance.advance.current.isSymbol .comma = false := by
      rw [Token.isSymbol, hclose]
      rfl
    rw [hsymbol, if_pos rfl]
    refine run_map_of_done (run_parenthesized hsymbol ?_ (beq_iff_eq.2 hclose))
    rw [run_bind_of_done (run_size hprecision (Nat.le_of_lt_succ precision.toNat_lt)),
      run_bind_of_done (run_accept_eq_false hcomma), UInt16.ofNat_toNat]
    rfl
  · obtain ⟨hopen, -, hprecision, -, hcomma, -, hscale, -, hclose, -, rfl⟩ := hpasses
    have hsymbol : c.current.isSymbol .leftParen := beq_iff_eq.2 hopen
    rw [hsymbol, if_pos rfl]
    refine run_map_of_done (run_parenthesized hsymbol ?_ (beq_iff_eq.2 hclose))
    rw [run_bind_of_done (run_size hprecision (Nat.le_of_lt_succ precision.toNat_lt)),
      run_bind_of_done (run_accept_eq_true (beq_iff_eq.2 hcomma)), if_pos rfl,
      run_bind_of_done (run_size hscale (Nat.le_of_lt_succ scale.toNat_lt)), UInt16.ofNat_toNat,
      UInt16.ofNat_toNat]
    rfl

/-- A length, or none. -/
theorem run_characterLength {length : Option UInt32} (hpasses : c.Passes (kindsOfLength length) d)
    (hcloses : d.Closes) : characterLength.run c = .done length d := by
  rw [characterLength, run_bind_of_done (run_sees _ _)]
  rcases length with _ | length
  · obtain rfl : c = d := hpasses
    rw [Token.isSymbol, beq_eq_false_iff_ne.2 (hcloses.ne rfl)]
    rfl
  · obtain ⟨hopen, -, hlength, -, hclose, -, rfl⟩ := hpasses
    have hsymbol : c.current.isSymbol .leftParen := beq_iff_eq.2 hopen
    rw [hsymbol, if_pos rfl, run_bind_of_done (run_parenthesized hsymbol
      (run_size hlength (Nat.le_of_lt_succ length.toNat_lt)) (beq_iff_eq.2 hclose)),
      UInt32.ofNat_toNat]
    rfl

/-- The word of a policy. -/
theorem run_objectPolicy {policy : ObjectPolicy}
    (hkind : c.current.kind = .keyword policy.keyword) :
    objectPolicy.run c = .done policy c.advance := by
  have hpolicy : c.current.keyword?.bind ObjectPolicy.ofKeyword? = some policy := by
    rw [Token.keyword?, hkind]
    rcases policy with _ | _ | _ <;> rfl
  rw [objectPolicy, run_bind_of_done (run_current c), hpolicy]
  rfl

/-! ### Single words -/

/-- A type that one word names. -/
theorem run_dataType_of_ofKeyword? (keyword : Keyword) {type : DataType}
    (htype : DataType.ofKeyword? keyword = some type) (hne : keyword ≠ .DOUBLE)
    (hpasses : c.Passes [.keyword keyword] d) : (dataType inner).run c = .done type d := by
  obtain ⟨hkind, -, rfl⟩ := hpasses
  rw [dataType, run_bind_of_done (run_current c), hkind]
  dsimp only
  rw [htype]
  dsimp only
  rw [run_bind_of_done (run_advance c), if_neg hne]
  rfl

/-- The one type that is two words. -/
theorem run_dataType_double (hpasses : c.Passes [.keyword .DOUBLE, .keyword .PRECISION] d) :
    (dataType inner).run c = .done .double d := by
  obtain ⟨hkind, -, hprecision, -, rfl⟩ := hpasses
  rw [dataType, run_bind_of_done (run_current c), hkind]
  show (advance >>= fun _ ↦ acceptKeyword .PRECISION >>= fun _ ↦ pure DataType.double).run c = _
  rw [run_bind_of_done (run_advance c),
    run_bind_of_done (run_acceptKeyword_eq_true (beq_iff_eq.2 hprecision))]
  rfl

/-- Types that are words alone. -/
theorem run_dataType_scalar : (t : DataType) → t.isScalar → c.Passes t.kinds d →
    (dataType inner).run c = .done t d
  | .smallint, _ => run_dataType_of_ofKeyword? .SMALLINT rfl (by decide)
  | .integer, _ => run_dataType_of_ofKeyword? .INTEGER rfl (by decide)
  | .bigint, _ => run_dataType_of_ofKeyword? .BIGINT rfl (by decide)
  | .real, _ => run_dataType_of_ofKeyword? .REAL rfl (by decide)
  | .double, _ => run_dataType_double
  | .text, _ => run_dataType_of_ofKeyword? .TEXT rfl (by decide)
  | .date, _ => run_dataType_of_ofKeyword? .DATE rfl (by decide)
  | .time, _ => run_dataType_of_ofKeyword? .TIME rfl (by decide)
  | .timestamp, _ => run_dataType_of_ofKeyword? .TIMESTAMP rfl (by decide)
  | .boolean, _ => run_dataType_of_ofKeyword? .BOOLEAN rfl (by decide)

/-! ### Columns -/

/-- No constraint starts where an expression ends. -/
theorem run_columnConstraint_of_closes (hcloses : d.Closes) (column : ColumnDef) :
    (columnConstraint inner column).run d = .done none d := by
  rw [columnConstraint, run_bind_of_done (run_current d), Token.keyword?]
  rw [Cursor.Closes] at hcloses
  generalize d.current.kind = kind at hcloses ⊢
  unfold Token.Kind.closes at hcloses
  split at hcloses <;> first | rfl | cases hcloses

/-- A column without constraints. -/
theorem run_columnDef {column : ColumnDef} (hplain : column.IsPlain)
    (hkind : c.current.kind = .identifier column.name)
    (htype : (dataType inner).run c.advance = .done column.type d) (hcloses : d.Closes) :
    (columnDef inner).run c = .done column d := by
  have hcolumn : column = ⟨column.name, column.type, true, none, false, none⟩ := by
    obtain ⟨name, type, nullable, default, primaryKey, generated⟩ := column
    obtain ⟨rfl, rfl, rfl, rfl, -⟩ := hplain
    rfl
  rw [columnDef, run_bind_of_done (run_identifier_of_kind hkind), run_bind_of_done htype]
  refine (run_iterate_of_none (run_columnConstraint_of_closes hcloses _)).trans ?_
  rw [← hcolumn]

end Rule

/-- The type is read from its tokens where an expression ends. -/
def DataType.IsReadWithin (n : Nat) (t : DataType) : Prop :=
  ∀ ⦃c d : Cursor⦄, c.Passes t.kinds d → d.Closes →
    (Rule.dataType (.ofAllowance n)).run c = .done t d

/-- Where more columns or the end of them follow, a type ends. -/
theorem closes_of_otherColumns {columns : List ColumnDef} {c d : Cursor}
    (hpasses : c.Passes (kindsOfOtherColumns columns) d) (hcloses : d.Closes) : c.Closes := by
  rcases columns with _ | ⟨column, columns⟩
  · obtain rfl : c = d := hpasses
    exact hcloses
  · rw [kindsOfOtherColumns_cons] at hpasses
    exact .of_kind hpasses.1 rfl

/-- The columns of an object type behind the first one are read with their commas. -/
theorem repeats_columnDef {columns : List ColumnDef} {n : Nat} {c d : Cursor}
    (hplain : ∀ column ∈ columns, column.IsPlain)
    (hread : ∀ column ∈ columns, column.type.IsReadWithin n)
    (hpasses : c.Passes (kindsOfOtherColumns columns) d)
    (hclose : d.current.kind = .symbol .rightParen) :
    Rule.Repeats (.another (.columnDef (.ofAllowance n))) c columns d := by
  induction columns generalizing c with
  | nil =>
    obtain rfl : c = d := hpasses
    have hcomma : c.current.isSymbol .comma = false := by
      rw [Token.isSymbol, hclose]
      rfl
    exact .nil (Rule.run_another_eq_none hcomma _)
  | cons column columns ih =>
    obtain ⟨hcolumn, hcolumns⟩ := List.forall_mem_cons.1 hplain
    obtain ⟨htype, htypes⟩ := List.forall_mem_cons.1 hread
    rw [kindsOfOtherColumns_cons] at hpasses
    obtain ⟨hcomma, hopen, hname, hopen', hpasses⟩ := hpasses
    obtain ⟨mid, hfirst, hothers⟩ := Cursor.passes_append.1 hpasses
    have hcloses : mid.Closes := closes_of_otherColumns hothers (.of_kind hclose rfl)
    -- The comma and the name are passed whatever the type is, so that the repetition moves on.
    have hlt : c.position < mid.position := by
      have hposition := hfirst.position_eq
      rw [Cursor.position_advance_of_isOpen hopen', Cursor.position_advance_of_isOpen hopen]
        at hposition
      omega
    have hrun := Rule.run_columnDef hcolumn hname (htype hfirst hcloses) hcloses
    have hmore := Rule.run_another_of_done (beq_iff_eq.2 hcomma) hrun
    exact .cons hmore hlt (ih hcolumns htypes hothers)

/-- What an object type reads behind its policy. -/
theorem run_objectColumns {policy : Option ObjectPolicy} {columns : List ColumnDef} {n : Nat}
    {c d : Cursor} (hplain : ∀ column ∈ columns, column.IsPlain)
    (hread : ∀ column ∈ columns, column.type.IsReadWithin n)
    (hpasses : c.Passes (kindsOfColumns columns) d) (hcloses : d.Closes) :
    (Rule.objectColumns (.ofAllowance n) policy).run c = .done (.object policy columns) d := by
  rw [Rule.objectColumns, Rule.run_lookahead]
  rcases columns with _ | ⟨column, columns⟩
  · obtain rfl : c = d := hpasses
    rw [Token.isKeyword, beq_eq_false_iff_ne.2 (hcloses.ne rfl)]
    rfl
  · obtain ⟨hfirst, hothers⟩ := List.forall_mem_cons.1 hplain
    obtain ⟨htype, htypes⟩ := List.forall_mem_cons.1 hread
    rw [kindsOfColumns_cons] at hpasses
    obtain ⟨has, hopen, hparen, -, hname, hopen', hpasses⟩ := hpasses
    obtain ⟨mid, hcolumn, hpasses⟩ := Cursor.passes_append.1 hpasses
    obtain ⟨last, hcolumns, hclose, -, rfl⟩ := Cursor.passes_append.1 hpasses
    have hkeyword : c.current.isKeyword .AS := beq_iff_eq.2 has
    have hsymbol : c.advance.current.isSymbol .leftParen := beq_iff_eq.2 hparen
    have hmid := closes_of_otherColumns hcolumns (.of_kind hclose rfl)
    rw [hkeyword, ← Cursor.current_advance hopen, hsymbol, Bool.and_true, if_pos rfl]
    have hread := Rule.run_columnDef hfirst hname (htype hcolumn hmid) hmid
    have hlist := Rule.run_commaSeparated hread
      (repeats_columnDef hothers htypes hcolumns hclose)
    rw [Rule.run_bind_of_done (Rule.run_parenthesized hsymbol hlist (beq_iff_eq.2 hclose))]
    rfl

/-- An object type is read behind its word. -/
theorem run_objectType {policy : Option ObjectPolicy} {columns : List ColumnDef} {n : Nat}
    {c d : Cursor} (hplain : ∀ column ∈ columns, column.IsPlain)
    (hread : ∀ column ∈ columns, column.type.IsReadWithin n)
    (hpasses : c.Passes (kindsOfPolicy policy ++ kindsOfColumns columns) d) (hcloses : d.Closes) :
    (Rule.objectType (.ofAllowance n)).run c = .done (.object policy columns) d := by
  obtain ⟨mid, hpolicy, hcolumns⟩ := Cursor.passes_append.1 hpasses
  rw [Rule.objectType, Rule.run_bind_of_done (Rule.run_sees _ _)]
  rcases policy with _ | policy
  · obtain rfl : c = mid := hpolicy
    -- Without a policy, an `AS` follows or the expression ends: no parenthesis is taken for one.
    have hparen : c.current.isSymbol .leftParen = false := by
      refine beq_eq_false_iff_ne.2 ?_
      rcases columns with _ | ⟨column, columns⟩
      · obtain rfl : c = d := hcolumns
        exact hcloses.ne rfl
      · rw [kindsOfColumns_cons] at hcolumns
        rw [hcolumns.1]
        decide
    rw [hparen]
    exact run_objectColumns hplain hread hcolumns hcloses
  · obtain ⟨hopen, -, hword, -, hclose, -, rfl⟩ := hpolicy
    have hsymbol : c.current.isSymbol .leftParen := beq_iff_eq.2 hopen
    rw [hsymbol, if_pos rfl, Rule.run_bind_of_done (Rule.run_map_of_done
      (Rule.run_parenthesized hsymbol (Rule.run_objectPolicy hword) (beq_iff_eq.2 hclose)))]
    exact run_objectColumns hplain hread hcolumns hcloses

/-! ### Types -/

/-- **A built-in type is read from its tokens**, where as many levels may be opened as it has. -/
theorem DataType.IsBuiltIn.isReadWithin {levels : Nat} {t : DataType} (h : t.IsBuiltIn levels)
    {n : Nat} (hle : levels ≤ n) : t.IsReadWithin n := by
  -- The allowance varies with the type: what an array or an object is made of has one level less.
  induction h generalizing n with
  | @scalar levels t h => exact fun c d hpasses _ ↦ Rule.run_dataType_scalar t h hpasses
  | decimal size =>
    rintro c d ⟨hkind, -, hsize⟩ hcloses
    rw [Rule.dataType, Rule.run_bind_of_done (Rule.run_current c), hkind]
    exact Rule.run_map_of_done (f := DataType.decimal) (Rule.run_decimalSize hsize hcloses)
  | numeric size =>
    rintro c d ⟨hkind, -, hsize⟩ hcloses
    rw [Rule.dataType, Rule.run_bind_of_done (Rule.run_current c), hkind]
    exact Rule.run_map_of_done (f := DataType.numeric) (Rule.run_decimalSize hsize hcloses)
  | char length =>
    rintro c d ⟨hkind, -, hlength⟩ hcloses
    rw [Rule.dataType, Rule.run_bind_of_done (Rule.run_current c), hkind]
    exact Rule.run_map_of_done (f := DataType.char) (Rule.run_characterLength hlength hcloses)
  | varchar length =>
    rintro c d ⟨hkind, -, hlength⟩ hcloses
    rw [Rule.dataType, Rule.run_bind_of_done (Rule.run_current c), hkind]
    exact Rule.run_map_of_done (f := DataType.varchar) (Rule.run_characterLength hlength hcloses)
  | array _ ih =>
    obtain ⟨n, rfl⟩ : ∃ m, n = m + 1 := ⟨n - 1, by omega⟩
    rintro c d ⟨hkind, -, hopen, -, hpasses⟩ hcloses
    obtain ⟨mid, helement, hclose, -, rfl⟩ := Cursor.passes_append.1 hpasses
    have hread := ih (Nat.le_of_succ_le_succ hle) helement (.of_kind hclose rfl)
    rw [Rule.dataType, Rule.run_bind_of_done (Rule.run_current c), hkind]
    exact Rule.run_map_of_done (f := DataType.array)
      (Rule.run_parenthesized (beq_iff_eq.2 hopen) hread (beq_iff_eq.2 hclose))
  | object policy hplain _ ih =>
    obtain ⟨n, rfl⟩ : ∃ m, n = m + 1 := ⟨n - 1, by omega⟩
    rintro c d ⟨hkind, -, hpasses⟩ hcloses
    have hread := fun column hcolumn ↦ ih column hcolumn (Nat.le_of_succ_le_succ hle)
    rw [Rule.dataType, Rule.run_bind_of_done (Rule.run_current c), hkind]
    exact run_objectType hplain hread hpasses hcloses

/-! ### Casts -/

/-- The query that casts a column to a type. -/
def castText (t : DataType) : String :=
  "SELECT x::" ++ t.name

/-- The tokens of that query. -/
def castKinds (t : DataType) : List Token.Kind :=
  .keyword .SELECT :: .identifier "x" :: .symbol .doubleColon :: t.kinds

/-- The tokens of a cast to a type. -/
theorem kindsOf_castText {t : DataType} (h : Spells t.name.toList t.kinds) :
    (tokenize (castText t)).map (·.kind) = castKinds t ++ [.eof] := by
  have hselect (rest : List Char) : kindsOf ("SELECT ".toList ++ rest) =
      .keyword .SELECT :: kindsOf rest :=
    @kindsOf_cons 'S' "ELECT".toList _ (fun _ ↦ rfl) (by decide +kernel) rest
  have hname (rest : List Char) : kindsOf ('x' :: ':' :: ':' :: rest) =
      .identifier "x" :: .symbol .doubleColon :: kindsOf rest := by
    have hword := @kindsOf_word 'x' [] (':' :: ':' :: rest) (by decide) nofun (.cons (by decide))
    have hkind : (Scan.word 'x' []).kind = .identifier "x" := by decide +kernel
    rw [hkind, @kindsOf_scan ':' _ rfl] at hword
    exact hword
  have htext : (castText t).toList =
      "SELECT ".toList ++ 'x' :: ':' :: ':' :: (t.name.toList ++ []) := by
    rw [castText, String.toList_append, List.append_nil]
    rfl
  have hkinds : (tokenize (castText t)).map (·.kind) = kindsOf (castText t).toList := by
    rw [kindsOf, String.ofList_toList]
  rw [hkinds, htext, hselect, hname, h [] .nil, kindsOf_nil]
  rfl

/-- A column is cast to a type that is read behind it. -/
theorem exists_run_cast {t : DataType} {n : Nat} {c d : Cursor} (h : t.IsReadWithin n)
    (hpasses : c.Passes (castKinds t) d)
    (hends : d.current.endsStatement) : ∃ span,
    (Rule.terminated (.statementWithin (n + 2))).run c =
      .done (.select (.ofExpr (.cast (.column none "x" span) t))) d := by
  obtain ⟨hselect, -, hname, -, hcast, -, htype⟩ := hpasses
  have hcloses : d.Closes := .of_endsStatement hends
  have hoperand : (Rule.firstOperand (.ofAllowance n)).run c.advance =
      .done (.column none "x" c.advance.current.span) c.advance.advance := by
    have hends : c.advance.advance.EndsName := .of_kind hcast rfl
    refine Rule.run_firstOperand_of_operand? ?_ (hends.isSymbol_eq_false rfl)
      (hends.isSymbol_eq_false rfl)
    rw [Token.operand?, hname]
  have hne {keyword : Keyword} : c.advance.current.isKeyword keyword = false := by
    rw [Token.isKeyword, hname]
    rfl
  refine ⟨c.advance.current.span, ?_⟩
  refine Rule.run_terminated_ofExpr (beq_iff_eq.2 hselect) hne hne ?_ hends
  exact Rule.run_expressionFrom_of_extension hoperand
    (Rule.run_extension_cast (beq_iff_eq.2 hcast) (Nat.zero_le _) (h htype hcloses))
    (hcloses.stops 0)

/-- **The name of a built-in type is read as that type**, if the levels of arrays and objects it has
may be opened inside an expression of a query. -/
theorem typeName_is_read {t : DataType} {levels : Nat} (h : t.IsBuiltIn levels)
    (hle : levels + 2 ≤ Nested.maxDepth) : ∃ s span,
      parseBatch ("SELECT x::" ++ t.name) false = .ok [s] ∧
        s.tree? = some (.select (.ofExpr (.cast (.column none "x" span) t))) := by
  have hkinds := kindsOf_castText h.spells_name
  obtain ⟨tokens, closing, htokens, hinside, hclosing⟩ := List.map_eq_append_iff.1 hkinds
  have hopen : ∀ kind ∈ tokens.map (·.kind), kind.isOpen := by
    rw [hinside]
    refine List.all_eq_true.1 ?_
    rw [castKinds, List.all_cons, List.all_cons, List.all_cons, t.all_isOpen_kinds]
    rfl
  obtain ⟨d, hpasses, hbehind⟩ :=
    @Cursor.exists_passes (.ofTokens (tokenize (castText t)) 0) tokens closing htokens hopen
  have hafter : d.kinds = [.eof] := by
    rw [Cursor.kinds, hbehind, hclosing]
  have hread := h.isReadWithin (n := Nested.maxDepth - 2) (by omega)
  obtain ⟨span, hrun⟩ :=
    exists_run_cast hread (hinside ▸ hpasses) (Cursor.endsStatement_of_eof hafter)
  obtain ⟨s, hparse, htree⟩ := exists_parseBatch_of_run hkinds hrun hafter
  exact ⟨s, span, hparse, htree⟩

/-- An array of objects with a quoted column of a sized type. -/
theorem typeName_is_read_array_object :
    (DataType.array (.object (some .strict)
        [⟨"a b", .decimal (some ⟨10, some 2⟩), true, none, false, none⟩])).IsBuiltIn 60 ∧
      60 + 2 ≤ Nested.maxDepth ∧ ∃ s span,
        parseBatch "SELECT x::ARRAY(OBJECT (STRICT) AS (\x22a b\x22 DECIMAL(10, 2)))" false =
          .ok [s] ∧
        s.tree? = some (.select (.ofExpr (.cast (.column none "x" span) (.array (.object
          (some .strict) [⟨"a b", .decimal (some ⟨10, some 2⟩), true, none, false, none⟩]))))) := by
  have hcolumn : ColumnDef.IsPlain
      ⟨"a b", .decimal (some ⟨10, some 2⟩), true, none, false, none⟩ :=
    ⟨rfl, rfl, rfl, rfl, by decide⟩
  have hbuiltIn : (DataType.array (.object (some .strict)
      [⟨"a b", .decimal (some ⟨10, some 2⟩), true, none, false, none⟩])).IsBuiltIn 60 :=
    .array (.object _ (List.forall_mem_singleton.2 hcolumn)
      (List.forall_mem_singleton.2 (.decimal _)))
  have hname : (DataType.array (.object (some .strict)
      [⟨"a b", .decimal (some ⟨10, some 2⟩), true, none, false, none⟩])).name =
      "ARRAY(OBJECT (STRICT) AS (\x22a b\x22 DECIMAL(10, 2)))" := by
    decide +kernel
  have hread := typeName_is_read hbuiltIn (by decide)
  rw [hname] at hread
  exact ⟨hbuiltIn, by decide, hread⟩

end SqlBatch
