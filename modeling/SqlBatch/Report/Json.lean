/-!
# Indented JSON

JSON documents as reports are written: two spaces per level, members in the order given, and no
escapes in strings but those that the format demands. Documents that are equal are written alike,
which is what reports are compared by.
-/

namespace SqlBatch

/-- A JSON document without fractions and truth values, which reports do not have. -/
inductive Json where
  | null
  | number (value : Nat)
  | string (value : String)
  | array (items : List Json)
  | object (members : List (String × Json))

namespace Json

/-- The escape of a control character by its number. -/
def controlEscape (c : Char) : List Char :=
  let digit (n : Nat) : Char := Nat.digitChar (n % 16)
  ['\\', 'u', '0', '0', digit (c.toNat / 16), digit c.toNat]

/-- A character as it is written inside a string. -/
def escapeChar (c : Char) : List Char :=
  if c = '\x22' then ['\\', '\x22']
  else if c = '\\' then ['\\', '\\']
  else if c = '\x08' then ['\\', 'b']
  else if c = '\t' then ['\\', 't']
  else if c = '\n' then ['\\', 'n']
  else if c = '\x0c' then ['\\', 'f']
  else if c = '\r' then ['\\', 'r']
  else if c.toNat < 32 then controlEscape c
  else [c]

/-- A string in quotes. -/
def quote (value : String) : String :=
  String.ofList ('\x22' :: value.toList.flatMap escapeChar ++ ['\x22'])

/-- A line break and the indentation of a level. -/
def breakLine (level : Nat) : String :=
  String.ofList ('\n' :: List.replicate (2 * level) ' ')

mutual

/-- The document as text, with its first line inside a level. -/
def render (level : Nat) : Json → String
  | null => "null"
  | number value => toString value
  | string value => quote value
  | array [] => "[]"
  | array (item :: items) =>
    "[" ++ breakLine (level + 1) ++ render (level + 1) item ++ renderItems (level + 1) items ++
      breakLine level ++ "]"
  | object [] => "\x7b\x7d"
  | object ((name, value) :: members) =>
    "\x7b" ++ breakLine (level + 1) ++ quote name ++ ": " ++ render (level + 1) value ++
      renderMembers (level + 1) members ++ breakLine level ++ "\x7d"

/-- Further items of an array, each behind a comma. -/
def renderItems (level : Nat) : List Json → String
  | [] => ""
  | item :: items => "," ++ breakLine level ++ render level item ++ renderItems level items

/-- Further members of an object, each behind a comma. -/
def renderMembers (level : Nat) : List (String × Json) → String
  | [] => ""
  | (name, value) :: members =>
    "," ++ breakLine level ++ quote name ++ ": " ++ render level value ++
      renderMembers level members

end

/-- A text, or `null` where there is none. -/
def ofText? : Option String → Json
  | some value => .string value
  | none => .null

end Json

end SqlBatch
