import SqlBatch.Tree.Query

/-!
# The text of types

A type is written with its canonical name, whichever of its names it was given by, and with the
sizes, policy and columns that belong to it. The columns of an object type are written with their
names in double quotes and without constraints.

A type may hold columns and these hold types, so the text is defined along both by mutual recursion.
-/

namespace SqlBatch

/-- The size of a decimal type as it is written behind its name. -/
def DecimalSize.text : DecimalSize → String
  | ⟨precision, none⟩ => s!"({precision})"
  | ⟨precision, some scale⟩ => s!"({precision}, {scale})"

/-- An optional size behind the name of a decimal type. -/
def sizeText (size : Option DecimalSize) : String :=
  (size.map DecimalSize.text).getD ""

/-- An optional length behind the name of a character type. -/
def lengthText : Option UInt32 → String
  | some length => s!"({length})"
  | none => ""

mutual

/-- The type as it is written. -/
def DataType.name : DataType → String
  | .smallint => "SMALLINT"
  | .integer => "INTEGER"
  | .bigint => "BIGINT"
  | .real => "REAL"
  | .double => "DOUBLE PRECISION"
  | .decimal size => "DECIMAL" ++ sizeText size
  | .numeric size => "NUMERIC" ++ sizeText size
  | .char length => "CHAR" ++ lengthText length
  | .varchar length => "VARCHAR" ++ lengthText length
  | .text => "TEXT"
  | .date => "DATE"
  | .time => "TIME"
  | .timestamp => "TIMESTAMP"
  | .boolean => "BOOLEAN"
  | .object policy columns =>
    let policyText := (policy.map fun p ↦ " (" ++ p.text ++ ")").getD ""
    let columnsText :=
      match columns with
      | [] => ""
      | _ :: _ => " AS (" ++ ", ".intercalate (columnTexts columns) ++ ")"
    "OBJECT" ++ policyText ++ columnsText
  | .array element => "ARRAY(" ++ element.name ++ ")"
  | .custom name => name

/-- The column as it is written inside an object type. -/
def ColumnDef.text : ColumnDef → String
  | ⟨name, type, _, _, _, _⟩ => "\"" ++ name ++ "\" " ++ type.name

/-- The texts of several columns. -/
def columnTexts : List ColumnDef → List String
  | [] => []
  | column :: columns => column.text :: columnTexts columns

end

end SqlBatch
