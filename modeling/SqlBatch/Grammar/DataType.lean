import SqlBatch.Grammar.Nested

/-!
# Types and column definitions

A type is a word, which decides what may stand behind it: a size, a length, or in parentheses the
columns of an object or the element of an array. Any identifier is a type as well, of that name. The
columns and the element are types one level further in.

A column definition is a name, a type and then constraints in any order, each of which fills in its
part of the definition. A part that is given twice is filled in twice, so that of two defaults the
later one counts.
-/

namespace SqlBatch

/-- The types named by a single keyword. -/
def DataType.ofKeyword? : Keyword → Option DataType
  | .SMALLINT => some .smallint
  | .INT | .INTEGER => some .integer
  | .BIGINT => some .bigint
  | .REAL => some .real
  | .DOUBLE | .FLOAT => some .double
  | .TEXT => some .text
  | .BOOLEAN => some .boolean
  | .DATE => some .date
  | .TIME => some .time
  | .TIMESTAMP => some .timestamp
  | _ => none

/-- The object policies by their keywords. -/
def ObjectPolicy.ofKeyword? : Keyword → Option ObjectPolicy
  | .DYNAMIC => some .dynamic
  | .STRICT => some .strict
  | .IGNORED => some .ignored
  | _ => none

namespace Rule

/-- The size behind the name of a decimal type, if there is one. -/
def decimalSize : Rule (Option DecimalSize) := do
  if ← sees .leftParen then
    some <$> parenthesized do
      let precision ← size 65535
      if ← accept .comma then
        let scale ← size 65535
        return ⟨UInt16.ofNat precision, some (UInt16.ofNat scale)⟩
      else return ⟨UInt16.ofNat precision, none⟩
  else return none

/-- The length behind the name of a character type, if there is one. -/
def characterLength : Rule (Option UInt32) := do
  if ← sees .leftParen then
    let length ← parenthesized (size 4294967295)
    return some (UInt32.ofNat length)
  else return none

/-- A type. -/
def dataType (inner : Nested) : Rule DataType := do
  match (← current).kind with
  | .identifier name =>
    advance
    return .custom name
  | .keyword keyword =>
    match DataType.ofKeyword? keyword with
    | some type =>
      advance
      -- `DOUBLE` and `DOUBLE PRECISION` are one type.
      if keyword = .DOUBLE then
        let _ ← acceptKeyword .PRECISION
      return type
    | none =>
      match keyword with
      | .DECIMAL =>
        advance
        return .decimal (← decimalSize)
      | .NUMERIC =>
        advance
        return .numeric (← decimalSize)
      | .CHAR =>
        advance
        return .char (← characterLength)
      | .VARCHAR =>
        advance
        return .varchar (← characterLength)
      | .OBJECT =>
        advance
        inner.objectType
      | .ARRAY =>
        advance
        return .array (← inner.elementType)
      | _ => fail .noViableAlternative
  | _ => fail .noViableAlternative

/-- One constraint behind a column's type, added to the definition. A later one of a kind replaces
an earlier one. -/
def columnConstraint (inner : Nested) (column : ColumnDef) : Rule (Option ColumnDef) := do
  match (← current).keyword? with
  | some .NOT =>
    advance
    keyword .NULL
    return some { column with nullable := false }
  | some .NULL =>
    advance
    return some column
  | some .PRIMARY =>
    advance
    keyword .KEY
    return some { column with primaryKey := true, nullable := false }
  | some .DEFAULT =>
    advance
    let value ← inner.expression
    return some { column with default := some value }
  | some .GENERATED =>
    advance
    keyword .ALWAYS
    keyword .AS
    let value ← inner.expression
    return some { column with generated := some value }
  | some .AS =>
    advance
    let value ← inner.expression
    return some { column with generated := some value }
  | _ => return none

/-- A column's name, its type and the constraints behind them. -/
def columnDef (inner : Nested) : Rule ColumnDef := do
  let name ← identifier
  let type ← dataType inner
  iterate (columnConstraint inner)
    { name, type, nullable := true, default := none, primaryKey := false, generated := none }

/-- The policy of an object type. -/
def objectPolicy : Rule ObjectPolicy := do
  match (← current).keyword?.bind ObjectPolicy.ofKeyword? with
  | some policy =>
    advance
    return policy
  | none => fail (.mismatched ["'DYNAMIC'", "'STRICT'", "'IGNORED'"])

/-- What may stand behind `OBJECT`: a policy in parentheses, and the columns behind an `AS` that is
followed by a parenthesis. Any other `AS` belongs to what the type is part of. -/
def objectType (inner : Nested) : Rule DataType := do
  let policy ← if ← sees .leftParen then some <$> parenthesized objectPolicy else pure none
  let columns ←
    if (← seesKeyword .AS) && (← following).isSymbol .leftParen then do
      advance
      parenthesized (commaSeparated (columnDef inner))
    else pure []
  return .object policy columns

/-- The element type of an array type. -/
def elementType (inner : Nested) : Rule DataType :=
  parenthesized (dataType inner)

end Rule

end SqlBatch
