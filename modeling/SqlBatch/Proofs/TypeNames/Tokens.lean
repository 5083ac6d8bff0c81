import SqlBatch.Proofs.Quoting
import SqlBatch.Proofs.Reading.Texts
import SqlBatch.Tree.DataTypeText

/-!
# The tokens of type names

The built-in types, and the tokens of their names. A type may be made of others: those of the
elements of an array, and of the columns of an object. `DataType.IsBuiltIn` counts the levels of
both. In front of a comma, a closing parenthesis or the end of the text, the name of a built-in type
is the tokens of `DataType.kinds` (`DataType.IsBuiltIn.spells_name`).

## Names without quotes

The names of columns are written in double quotes, and an object type prints them so. A name with a
double quote inside does not come back from that, and so the columns of a built-in type have none in
their names (`ColumnDef.IsPlain`). Nor have they constraints, which the name of a type leaves out.
-/

namespace SqlBatch

/-! ### Built-in types -/

/-- Whether the type has neither a size nor a length, and is not made of other types. -/
def DataType.isScalar : DataType → Bool
  | .smallint | .integer | .bigint | .real | .double | .text | .date | .time | .timestamp
  | .boolean => true
  | _ => false

/-- The column has no constraints, and there is no quote in its name. -/
structure ColumnDef.IsPlain (column : ColumnDef) : Prop where
  nullable : column.nullable
  default : column.default = none
  primaryKey : column.primaryKey = false
  generated : column.generated = none
  quote_not_mem : '\x22' ∉ column.name.toList

/-- The type is made of built-in ones, with at most so many levels of arrays and objects. -/
inductive DataType.IsBuiltIn : Nat → DataType → Prop
  | scalar {levels : Nat} {t : DataType} : t.isScalar → IsBuiltIn levels t
  | decimal {levels : Nat} (size : Option DecimalSize) : IsBuiltIn levels (.decimal size)
  | numeric {levels : Nat} (size : Option DecimalSize) : IsBuiltIn levels (.numeric size)
  | char {levels : Nat} (length : Option UInt32) : IsBuiltIn levels (.char length)
  | varchar {levels : Nat} (length : Option UInt32) : IsBuiltIn levels (.varchar length)
  | array {levels : Nat} {element : DataType} : IsBuiltIn levels element →
    IsBuiltIn (levels + 1) (.array element)
  | object {levels : Nat} (policy : Option ObjectPolicy) {columns : List ColumnDef} :
    (∀ column ∈ columns, column.IsPlain) → (∀ column ∈ columns, IsBuiltIn levels column.type) →
    IsBuiltIn (levels + 1) (.object policy columns)

/-! ### The tokens of a type -/

/-- The tokens of an optional size. -/
def kindsOfSize : Option DecimalSize → List Token.Kind
  | none => []
  | some ⟨precision, none⟩ =>
    [.symbol .leftParen, .integer precision.toNat, .symbol .rightParen]
  | some ⟨precision, some scale⟩ =>
    [.symbol .leftParen, .integer precision.toNat, .symbol .comma, .integer scale.toNat,
      .symbol .rightParen]

/-- The tokens of an optional length. -/
def kindsOfLength : Option UInt32 → List Token.Kind
  | none => []
  | some length => [.symbol .leftParen, .integer length.toNat, .symbol .rightParen]

/-- The word of a policy. -/
def ObjectPolicy.keyword : ObjectPolicy → Keyword
  | dynamic => .DYNAMIC
  | strict => .STRICT
  | ignored => .IGNORED

/-- The tokens of an optional policy. -/
def kindsOfPolicy : Option ObjectPolicy → List Token.Kind
  | none => []
  | some policy => [.symbol .leftParen, .keyword policy.keyword, .symbol .rightParen]

mutual

/-- The tokens of a type. -/
def DataType.kinds : DataType → List Token.Kind
  | .smallint => [.keyword .SMALLINT]
  | .integer => [.keyword .INTEGER]
  | .bigint => [.keyword .BIGINT]
  | .real => [.keyword .REAL]
  | .double => [.keyword .DOUBLE, .keyword .PRECISION]
  | .decimal size => .keyword .DECIMAL :: kindsOfSize size
  | .numeric size => .keyword .NUMERIC :: kindsOfSize size
  | .char length => .keyword .CHAR :: kindsOfLength length
  | .varchar length => .keyword .VARCHAR :: kindsOfLength length
  | .text => [.keyword .TEXT]
  | .date => [.keyword .DATE]
  | .time => [.keyword .TIME]
  | .timestamp => [.keyword .TIMESTAMP]
  | .boolean => [.keyword .BOOLEAN]
  | .object policy columns => .keyword .OBJECT :: (kindsOfPolicy policy ++ kindsOfColumns columns)
  | .array element =>
    .keyword .ARRAY :: .symbol .leftParen :: (element.kinds ++ [.symbol .rightParen])
  | .custom name => [.identifier name]

/-- The tokens of the columns of an object type, with the words around them. -/
def kindsOfColumns : List ColumnDef → List Token.Kind
  | [] => []
  | ⟨name, type, _, _, _, _⟩ :: columns =>
    .keyword .AS :: .symbol .leftParen :: .identifier name ::
      (type.kinds ++ (kindsOfOtherColumns columns ++ [.symbol .rightParen]))

/-- The tokens of columns with a comma in front of each. -/
def kindsOfOtherColumns : List ColumnDef → List Token.Kind
  | [] => []
  | ⟨name, type, _, _, _, _⟩ :: columns =>
    .symbol .comma :: .identifier name :: (type.kinds ++ kindsOfOtherColumns columns)

end

/-- Further columns, the first of them behind a comma. -/
theorem kindsOfOtherColumns_cons (column : ColumnDef) (columns : List ColumnDef) :
    kindsOfOtherColumns (column :: columns) = .symbol .comma :: .identifier column.name ::
      (column.type.kinds ++ kindsOfOtherColumns columns) := by
  obtain ⟨name, type, nullable, default, primaryKey, generated⟩ := column
  rw [kindsOfOtherColumns]

/-- Columns, the first of them behind a parenthesis. -/
theorem kindsOfColumns_cons (column : ColumnDef) (columns : List ColumnDef) :
    kindsOfColumns (column :: columns) = .keyword .AS :: .symbol .leftParen ::
      .identifier column.name ::
        (column.type.kinds ++ (kindsOfOtherColumns columns ++ [.symbol .rightParen])) := by
  obtain ⟨name, type, nullable, default, primaryKey, generated⟩ := column
  rw [kindsOfColumns]

/-- A statement goes past the tokens of a size. -/
theorem all_isOpen_kindsOfSize (size : Option DecimalSize) :
    (kindsOfSize size).all Token.Kind.isOpen := by
  rcases size with _ | ⟨precision, _ | scale⟩ <;> rfl

/-- A statement goes past the tokens of a length. -/
theorem all_isOpen_kindsOfLength (length : Option UInt32) :
    (kindsOfLength length).all Token.Kind.isOpen := by
  rcases length with _ | length <;> rfl

/-- A statement goes past the word of a policy. -/
theorem all_isOpen_kindsOfPolicy (policy : Option ObjectPolicy) :
    (kindsOfPolicy policy).all Token.Kind.isOpen := by
  rcases policy with _ | policy <;> rfl

mutual

/-- A statement goes past the tokens of a type, so that all of them are read. -/
theorem DataType.all_isOpen_kinds : (t : DataType) → t.kinds.all Token.Kind.isOpen
  | .smallint | .integer | .bigint | .real | .double | .text | .date | .time | .timestamp
  | .boolean => rfl
  | .decimal size | .numeric size => all_isOpen_kindsOfSize size
  | .char length | .varchar length => all_isOpen_kindsOfLength length
  | .object policy columns => by
    simp only [DataType.kinds, List.all_cons, List.all_append, all_isOpen_kindsOfPolicy,
      all_isOpen_kindsOfColumns columns]
    rfl
  | .array element => by
    simp only [DataType.kinds, List.all_cons, List.all_append, element.all_isOpen_kinds]
    rfl
  | .custom name => rfl

theorem all_isOpen_kindsOfColumns :
    (columns : List ColumnDef) → (kindsOfColumns columns).all Token.Kind.isOpen
  | [] => rfl
  | ⟨name, type, _, _, _, _⟩ :: columns => by
    simp only [kindsOfColumns, List.all_cons, List.all_append, type.all_isOpen_kinds,
      all_isOpen_kindsOfOtherColumns columns]
    rfl

theorem all_isOpen_kindsOfOtherColumns :
    (columns : List ColumnDef) → (kindsOfOtherColumns columns).all Token.Kind.isOpen
  | [] => rfl
  | ⟨name, type, _, _, _, _⟩ :: columns => by
    simp only [kindsOfOtherColumns, List.all_cons, List.all_append, type.all_isOpen_kinds,
      all_isOpen_kindsOfOtherColumns columns]
    rfl

end

/-! ### Words and sizes -/

/-- The words that type names are made of. -/
def typeWords : List Keyword :=
  [.SMALLINT, .INTEGER, .BIGINT, .REAL, .DOUBLE, .PRECISION, .DECIMAL, .NUMERIC, .CHAR, .VARCHAR,
    .TEXT, .DATE, .TIME, .TIMESTAMP, .BOOLEAN, .OBJECT, .DYNAMIC, .STRICT, .IGNORED, .AS, .ARRAY]

/-- The words of types are keywords as they are spelled. -/
theorem isSpelled_of_mem {keyword : Keyword} (h : keyword ∈ typeWords) : keyword.isSpelled := by
  have hall : ∀ keyword ∈ typeWords, keyword.isSpelled := by decide +kernel
  exact hall keyword h

/-! ### Putting pieces together -/

section

variable {cs ds rest : List Char} {kinds kinds' : List Token.Kind}

/-- A parenthesis opens. -/
theorem kindsOf_leftParen (cs : List Char) :
    kindsOf ('(' :: cs) = .symbol .leftParen :: kindsOf cs :=
  kindsOf_single (fun _ ↦ rfl) rfl cs

/-- A parenthesis closes. -/
theorem kindsOf_rightParen (cs : List Char) :
    kindsOf (')' :: cs) = .symbol .rightParen :: kindsOf cs :=
  kindsOf_single (fun _ ↦ rfl) rfl cs

theorem kindsOf_comma (cs : List Char) : kindsOf (',' :: cs) = .symbol .comma :: kindsOf cs :=
  kindsOf_single (fun _ ↦ rfl) rfl cs

/-- What is put in front of an ending text ends words if it does so itself. -/
theorem EndsWord.append (hcs : EndsWord cs) (hrest : EndsWord rest) : EndsWord (cs ++ rest) := by
  rcases cs with _ | ⟨c, cs⟩
  · exact hrest
  · exact .cons (hcs c rfl)

theorem Spells.nil : Spells [] [] :=
  fun _ _ ↦ rfl

theorem Spells.blank (h : Spells cs kinds) : Spells (' ' :: cs) kinds := by
  intro rest hrest
  rw [List.cons_append, kindsOf_blank (by decide), h rest hrest]

/-- A word in front of a piece that does not continue it. -/
theorem Spells.word_append (keyword : Keyword) (hkeyword : keyword ∈ typeWords)
    (hend : EndsWord cs) (h : Spells cs kinds) :
    Spells (keyword.spelling.toList ++ cs) (.keyword keyword :: kinds) := by
  intro rest hrest
  rw [List.append_assoc, kindsOf_keyword (isSpelled_of_mem hkeyword) (hend.append hrest.endsWord),
    h rest hrest]
  rfl

/-- Behind a closing parenthesis, anything may stand. -/
theorem kindsOf_parenthesized (h : Spells cs kinds) (rest : List Char) :
    kindsOf ('(' :: (cs ++ ')' :: rest)) =
      .symbol .leftParen :: (kinds ++ .symbol .rightParen :: kindsOf rest) := by
  rw [kindsOf_leftParen, h _ (.rightParen rest), kindsOf_rightParen]

theorem Spells.parenthesized (h : Spells cs kinds) :
    Spells ('(' :: (cs ++ [')'])) (.symbol .leftParen :: (kinds ++ [.symbol .rightParen])) := by
  intro rest _
  rw [List.cons_append, List.cons_append, List.append_assoc, List.append_assoc]
  exact kindsOf_parenthesized h rest

/-- Two pieces with a comma between them. -/
theorem Spells.comma (h : Spells cs kinds) (h' : Spells ds kinds') :
    Spells (cs ++ ',' :: ' ' :: ds) (kinds ++ .symbol .comma :: kinds') := by
  intro rest hrest
  rw [List.append_assoc, List.append_assoc]
  show kindsOf (cs ++ ',' :: ' ' :: (ds ++ rest)) = kinds ++ .symbol .comma :: (kinds' ++ _)
  rw [h _ (.comma _), kindsOf_comma, kindsOf_blank (by decide), h' rest hrest]

end

/-! ### Sizes, lengths and policies -/

/-- A precision or a scale is its number. -/
theorem spells_precision (n : UInt16) : Spells (toString n).toList [.integer n.toNat] := by
  show Spells (String.ofList (Nat.toDigits 10 n.toNat)).toList _
  rw [String.toList_ofList]
  exact spells_toDigits (Nat.lt_trans n.toNat_lt (by decide))

/-- A length is its number. -/
theorem spells_length (n : UInt32) : Spells (toString n).toList [.integer n.toNat] := by
  show Spells (String.ofList (Nat.toDigits 10 n.toNat)).toList _
  rw [String.toList_ofList]
  exact spells_toDigits (Nat.lt_trans n.toNat_lt (by decide))

theorem toList_parenthesized (text : String) :
    ("(" ++ text ++ ")").toList = '(' :: (text.toList ++ [')']) := by
  rw [String.toList_append, String.toList_append]
  rfl

/-- The text of a size, which ends the word in front of it. -/
theorem spells_sizeText (size : Option DecimalSize) :
    EndsWord (sizeText size).toList ∧ Spells (sizeText size).toList (kindsOfSize size) := by
  rcases size with _ | ⟨precision, _ | scale⟩
  · exact ⟨.nil, .nil⟩
  · have htext : (sizeText (some ⟨precision, none⟩)).toList =
        '(' :: ((toString precision).toList ++ [')']) := toList_parenthesized (toString precision)
    rw [htext]
    exact ⟨.cons (by decide), (spells_precision precision).parenthesized⟩
  · have htext : (sizeText (some ⟨precision, some scale⟩)).toList =
        '(' :: ((toString precision).toList ++ ',' :: ' ' :: (toString scale).toList ++ [')']) := by
      show ("(" ++ toString precision ++ ", " ++ toString scale ++ ")").toList = _
      simp only [String.toList_append, List.append_assoc]
      rfl
    rw [htext]
    exact ⟨.cons (by decide),
      ((spells_precision precision).comma (spells_precision scale)).parenthesized⟩

/-- The text of a length, which ends the word in front of it. -/
theorem spells_lengthText (length : Option UInt32) :
    EndsWord (lengthText length).toList ∧
      Spells (lengthText length).toList (kindsOfLength length) := by
  rcases length with _ | length
  · exact ⟨.nil, .nil⟩
  · have htext : (lengthText (some length)).toList =
        '(' :: ((toString length).toList ++ [')']) := toList_parenthesized (toString length)
    rw [htext]
    exact ⟨.cons (by decide), (spells_length length).parenthesized⟩

/-- A policy is its word. -/
theorem ObjectPolicy.spells_text (policy : ObjectPolicy) :
    Spells policy.text.toList [.keyword policy.keyword] := by
  have hword : policy.text = policy.keyword.spelling ∧ policy.keyword ∈ typeWords := by
    rcases policy with _ | _ | _ <;> decide
  rw [hword.1]
  exact spells_keyword (isSpelled_of_mem hword.2)

/-! ### Columns and types -/

/-- The tokens of a column's text follow from those of its type. -/
theorem ColumnDef.spells_text {column : ColumnDef} (hquote : '\x22' ∉ column.name.toList)
    (h : Spells column.type.name.toList column.type.kinds) :
    Spells column.text.toList (.identifier column.name :: column.type.kinds) := by
  intro rest hrest
  have htext : column.text.toList ++ rest =
      '\x22' :: (column.name.toList ++ '\x22' :: ' ' :: (column.type.name.toList ++ rest)) := by
    obtain ⟨name, type, nullable, default, primaryKey, generated⟩ := column
    simp [ColumnDef.text]
  rw [htext, kindsOf_quote (by simp) hquote, kindsOf_blank (by decide), h rest hrest]
  rfl

/-- Columns with commas between them. -/
theorem spells_columnTexts {column : ColumnDef} {columns : List ColumnDef}
    (h : ∀ column' ∈ column :: columns, Spells column'.text.toList
      (.identifier column'.name :: column'.type.kinds)) :
    Spells (", ".intercalate (columnTexts (column :: columns))).toList
      (.identifier column.name :: (column.type.kinds ++ kindsOfOtherColumns columns)) := by
  induction columns generalizing column with
  | nil =>
    have hcolumn := h column (.head _)
    rw [columnTexts, columnTexts, String.intercalate_singleton, kindsOfOtherColumns,
      List.append_nil]
    exact hcolumn
  | cons next columns ih =>
    obtain ⟨hcolumn, hcolumns⟩ := List.forall_mem_cons.1 h
    have htext : (", ".intercalate (columnTexts (column :: next :: columns))).toList =
        column.text.toList ++ ',' :: ' ' ::
          (", ".intercalate (columnTexts (next :: columns))).toList := by
      rw [columnTexts, columnTexts, String.intercalate_cons_cons, String.toList_append,
        String.toList_append, List.append_assoc]
      rfl
    rw [htext, kindsOfOtherColumns_cons]
    exact hcolumn.comma (ih hcolumns)

/-! ### Object types -/

/-- The policy of an object type as it is written, if there is one. -/
def policyText (policy : Option ObjectPolicy) : String :=
  (policy.map fun p ↦ " (" ++ p.text ++ ")").getD ""

/-- The columns of an object type as they are written, if there are any. -/
def columnsText : List ColumnDef → String
  | [] => ""
  | column :: columns => " AS (" ++ ", ".intercalate (columnTexts (column :: columns)) ++ ")"

/-- The name of an object type, part by part. -/
theorem DataType.name_object (policy : Option ObjectPolicy) (columns : List ColumnDef) :
    (object policy columns).name = "OBJECT" ++ policyText policy ++ columnsText columns := by
  rcases columns with _ | ⟨column, columns⟩
  · rw [name]
    rfl
  · rw [name]
    rfl

/-- A policy in front of further text. -/
theorem kindsOf_policyText (policy : Option ObjectPolicy) (rest : List Char) :
    kindsOf ((policyText policy).toList ++ rest) = kindsOfPolicy policy ++ kindsOf rest := by
  rcases policy with _ | policy
  · rfl
  · have htext : (policyText (some policy)).toList ++ rest =
        ' ' :: '(' :: (policy.text.toList ++ ')' :: rest) := by
      simp [policyText]
    rw [htext, kindsOf_blank (by decide), kindsOf_parenthesized policy.spells_text]
    rfl

/-- The columns of an object, with the word in front of them. -/
theorem spells_columnsText {columns : List ColumnDef}
    (h : ∀ column ∈ columns, Spells column.text.toList
      (.identifier column.name :: column.type.kinds)) :
    Spells (columnsText columns).toList (kindsOfColumns columns) := by
  rcases columns with _ | ⟨column, columns⟩
  · exact .nil
  · have htext : (columnsText (column :: columns)).toList =
        ' ' :: (Keyword.AS.spelling.toList ++ ' ' :: '(' ::
          ((", ".intercalate (columnTexts (column :: columns))).toList ++ [')'])) := by
      rw [columnsText, String.toList_append, String.toList_append]
      rfl
    have hcolumns := (spells_columnTexts h).parenthesized.blank
    rw [htext, kindsOfColumns_cons, ← List.append_assoc]
    exact (Spells.word_append .AS (by decide) (.cons (by decide)) hcolumns).blank

/-- The word of an object type ends in front of what is written behind it. -/
theorem endsWord_objectText (policy : Option ObjectPolicy) (columns : List ColumnDef)
    {rest : List Char} (h : EndsWord rest) :
    EndsWord ((policyText policy).toList ++ ((columnsText columns).toList ++ rest)) := by
  have hcolumns : EndsWord (columnsText columns).toList := by
    rcases columns with _ | ⟨column, columns⟩
    · exact .nil
    · rw [columnsText, String.toList_append, String.toList_append]
      exact .cons (by decide)
  have hpolicy : EndsWord (policyText policy).toList := by
    rcases policy with _ | policy
    · exact .nil
    · show EndsWord (" (" ++ policy.text ++ ")").toList
      rw [String.toList_append, String.toList_append]
      exact .cons (by decide)
  exact hpolicy.append (hcolumns.append h)

/-! ### Types -/

/-- A type that is named by one word. -/
theorem DataType.spells_of_word {t : DataType} (keyword : Keyword)
    (hname : t.name = keyword.spelling) (hkinds : t.kinds = [.keyword keyword])
    (hkeyword : keyword ∈ typeWords) :
    Spells t.name.toList t.kinds := by
  rw [hname, hkinds]
  exact spells_keyword (isSpelled_of_mem hkeyword)

/-- A type that is named by a word and what is written behind it. -/
theorem DataType.spells_of_name {t : DataType} {behind : String} {kinds : List Token.Kind}
    (keyword : Keyword) (hname : t.name = keyword.spelling ++ behind)
    (hkinds : t.kinds = .keyword keyword :: kinds) (hkeyword : keyword ∈ typeWords)
    (h : EndsWord behind.toList ∧ Spells behind.toList kinds) :
    Spells t.name.toList t.kinds := by
  rw [hname, hkinds, String.toList_append]
  exact .word_append keyword hkeyword h.1 h.2

/-- Types that are words alone. -/
theorem DataType.spells_scalar : (t : DataType) → t.isScalar → Spells t.name.toList t.kinds
  | .smallint, _ => spells_of_word .SMALLINT rfl rfl (by decide)
  | .integer, _ => spells_of_word .INTEGER rfl rfl (by decide)
  | .bigint, _ => spells_of_word .BIGINT rfl rfl (by decide)
  | .real, _ => spells_of_word .REAL rfl rfl (by decide)
  | .double, _ => by
    have hprecision : Spells (' ' :: Keyword.PRECISION.spelling.toList) [.keyword .PRECISION] :=
      .blank (spells_keyword (isSpelled_of_mem (by decide)))
    exact .word_append .DOUBLE (by decide) (.cons (by decide)) hprecision
  | .text, _ => spells_of_word .TEXT rfl rfl (by decide)
  | .date, _ => spells_of_word .DATE rfl rfl (by decide)
  | .time, _ => spells_of_word .TIME rfl rfl (by decide)
  | .timestamp, _ => spells_of_word .TIMESTAMP rfl rfl (by decide)
  | .boolean, _ => spells_of_word .BOOLEAN rfl rfl (by decide)

/-- **The name of a built-in type has the tokens of the type.** -/
theorem DataType.IsBuiltIn.spells_name {levels : Nat} {t : DataType} (h : t.IsBuiltIn levels) :
    Spells t.name.toList t.kinds := by
  induction h with
  | @scalar levels t h => exact t.spells_scalar h
  | decimal size => exact spells_of_name .DECIMAL rfl rfl (by decide) (spells_sizeText size)
  | numeric size => exact spells_of_name .NUMERIC rfl rfl (by decide) (spells_sizeText size)
  | char length => exact spells_of_name .CHAR rfl rfl (by decide) (spells_lengthText length)
  | varchar length => exact spells_of_name .VARCHAR rfl rfl (by decide) (spells_lengthText length)
  | array _ ih =>
    rw [name, String.toList_append, String.toList_append, kinds]
    exact .word_append .ARRAY (by decide) (.cons (by decide)) ih.parenthesized
  | @object levels policy columns hplain _ ih =>
    have hcolumns := spells_columnsText fun column hcolumn ↦
      column.spells_text (hplain column hcolumn).quote_not_mem (ih column hcolumn)
    -- An `AS` behind the policy does not delimit it as `Spells` asks for, so the parts are read in
    -- turn.
    intro rest hrest
    have hword : Keyword.OBJECT.isSpelled := isSpelled_of_mem (by decide)
    rw [name_object, String.toList_append, String.toList_append, List.append_assoc,
      List.append_assoc]
    show kindsOf (Keyword.OBJECT.spelling.toList ++ _) = _
    rw [kindsOf_keyword hword (endsWord_objectText policy columns hrest.endsWord),
      kindsOf_policyText, hcolumns rest hrest, kinds, List.cons_append, List.append_assoc]

end SqlBatch
