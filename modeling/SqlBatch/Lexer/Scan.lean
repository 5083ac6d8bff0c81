import SqlBatch.Text.Blank
import SqlBatch.Text.Letter
import SqlBatch.Token

/-!
# Reading one token

Each reader is given the characters behind a token's first one and answers with the kind of the
token and the number of further characters that belong to it. A reader takes as many characters as
it can; what it cannot make sense of becomes an error token over the same characters.

## Which reader

The first character decides which reader is called, but for a few letters: a word that is an `x` or
`X` in front of an apostrophe is the beginning of a blob. A quote that is never closed takes all of
the text that is left, and is one error.

## Kinds and characters

The kind of a token has what the token stands for, as the contents of a string without its quotes or
the value of a number. The characters are only counted here: the text and the span of the token are
made from the count, so that a reader cannot answer with a text that is not there.
-/

namespace SqlBatch

/-- A kind of token and the number of characters behind the first that belong to the token. -/
structure Scan where
  kind : Token.Kind
  extra : Nat
deriving DecidableEq, Repr

namespace Scan

/-- A token of one symbol. -/
def ofSymbol (symbol : Symbol) (extra : Nat) : Scan :=
  ⟨.symbol symbol, extra⟩

/-- A token that is an error. -/
def ofError (cause : LexicalError) (extra : Nat) : Scan :=
  ⟨.error cause, extra⟩

/-! ### Words -/

/-- A keyword or bare name that starts with `c`. -/
def word (c : Char) (cs : List Char) : Scan :=
  let more := cs.takeWhile isWordChar
  let text := String.ofList (c :: more)
  let kind : Token.Kind :=
    match Keyword.ofWord? text with
    | some keyword => .keyword keyword
    | none => .identifier text
  ⟨kind, more.length⟩

/-! ### Quoted text -/

/-- The contents up to a closing quote, and the number of characters with that quote. A doubled
quote stands for one. Nothing if no quote closes the text. -/
def quotedBody? (quote : Char) : List Char → Option (List Char × Nat)
  | [] => none
  | c :: cs =>
    if c = quote then
      match cs with
      | [] => some ([], 1)
      | d :: ds =>
        -- Two quotes in a row stand for one and go on; a single one ends the text.
        if d = quote then (quotedBody? quote ds).map fun (body, n) ↦ (quote :: body, n + 2)
        else some ([], 1)
    else (quotedBody? quote cs).map fun (body, n) ↦ (c :: body, n + 1)

/-- A string literal behind its opening quote. -/
def string (cs : List Char) : Scan :=
  match quotedBody? '\'' cs with
  | some (body, n) => ⟨.string (String.ofList body), n⟩
  | none => ofError .unterminatedString cs.length

/-- A quoted name behind its opening quote. -/
def quotedName (quote : Char) (cs : List Char) : Scan :=
  match quotedBody? quote cs with
  | some (body, n) => ⟨.identifier (String.ofList body), n⟩
  | none => ofError .unterminatedName cs.length

/-! ### Blobs -/

/-- The value of a hexadecimal digit. -/
def hexValue? (c : Char) : Option Nat :=
  if c.isDigit then some (c.toNat - 48)
  else if 'a' ≤ c ∧ c ≤ 'f' then some (c.toNat - 87)
  else if 'A' ≤ c ∧ c ≤ 'F' then some (c.toNat - 55)
  else none

/-- The bytes written by hexadecimal digits, two to a byte; nothing for an odd number. -/
def bytes? : List Nat → Option (List UInt8)
  | [] => some []
  | [_] => none
  | high :: low :: digits => (bytes? digits).map (UInt8.ofNat (16 * high + low) :: ·)

/-- The kind of a blob literal, by what stands between its quotes. White space is ignored, and a
character that is no digit is reported before an odd number of digits. -/
def blobKind (body : List Char) : Token.Kind :=
  match (body.filter (!isBlank ·)).mapM hexValue? with
  | none => .error .invalidBlobDigit
  | some digits =>
    match bytes? digits with
    | none => .error .oddBlobDigits
    | some bytes => .blob bytes

/-- A blob literal behind its opening quote. -/
def blob (cs : List Char) : Scan :=
  let body := cs.takeWhile (· != '\'')
  if body.length = cs.length then ofError .unterminatedBlob cs.length
  else ⟨blobKind body, body.length + 1⟩

/-! ### Numbers -/

/-- The value of decimal digits. -/
def decimalValue (digits : List Char) : Nat :=
  digits.foldl (fun n d ↦ 10 * n + (d.toNat - 48)) 0

/-- The digits of a fraction: those behind a point that is directly followed by one. -/
def fraction : List Char → List Char
  | '.' :: cs => cs.takeWhile Char.isDigit
  | _ => []

/-- The exponent part of a number. -/
structure Exponent where
  negative : Bool
  digits : List Char
  /-- The number of characters, with the letter and the sign. -/
  width : Nat
deriving DecidableEq, Repr

/-- The exponent at the start of a text: a letter `e` and digits, or a letter `e`, a sign and
digits that may be missing. -/
def exponent? : List Char → Option Exponent
  | e :: c :: cs =>
    if e = 'e' ∨ e = 'E' then
      if c.isDigit then
        let digits := (c :: cs).takeWhile Char.isDigit
        some ⟨false, digits, digits.length + 1⟩
      else if c = '+' ∨ c = '-' then
        let digits := cs.takeWhile Char.isDigit
        some ⟨c = '-', digits, digits.length + 2⟩
      else none
    else none
  | _ => none

/-- A token for digits alone: an integer below `2 ^ 63`, or the digits themselves. -/
def integerKind (digits : List Char) : Token.Kind :=
  let value := decimalValue digits
  if value < 0x8000000000000000 then .integer value else .numeric (String.ofList digits)

/-- A token for a number with a fraction or an exponent. A sign without digits makes the number
invalid. -/
def floatKind (whole fraction : List Char) (exponent : Option Exponent) : Token.Kind :=
  let mantissa := decimalValue (whole ++ fraction)
  match exponent with
  | none => .float (.ofDecimal mantissa (-fraction.length))
  | some e =>
    if e.digits.isEmpty then .error .incompleteExponent
    else
      let power : Int := decimalValue e.digits
      .float (.ofDecimal mantissa ((if e.negative then -power else power) - fraction.length))

/-- The digits of a number behind its first one and up to its exponent. -/
structure Mantissa where
  whole : List Char
  fraction : List Char
  /-- The number of characters, with the point. -/
  width : Nat
deriving DecidableEq, Repr

/-- The digits at the start of a text, with a fraction if there is one. -/
def mantissa (cs : List Char) : Mantissa :=
  let whole := cs.takeWhile Char.isDigit
  let places := fraction (cs.drop whole.length)
  -- A point without a digit behind it is left for the next token.
  ⟨whole, places, if places.isEmpty then whole.length else whole.length + 1 + places.length⟩

/-- A number that starts with the digit `c`. -/
def number (c : Char) (cs : List Char) : Scan :=
  let m := mantissa cs
  match exponent? (cs.drop m.width) with
  | some e => ⟨floatKind (c :: m.whole) m.fraction (some e), m.width + e.width⟩
  | none =>
    ⟨if m.fraction.isEmpty then integerKind (c :: m.whole)
      else floatKind (c :: m.whole) m.fraction none, m.width⟩

/-- A numbered parameter behind its dollar sign. -/
def parameter (cs : List Char) : Scan :=
  let digits := cs.takeWhile Char.isDigit
  let value := decimalValue digits
  if digits.isEmpty then ofError (.unexpectedCharacter '$') 0
  else if value < UInt32.size then ⟨.parameter (UInt32.ofNat value), digits.length⟩
  else ofError .parameterOutOfRange digits.length

/-! ### Symbols -/

/-- The symbol of one character that starts no longer one. -/
def single? : Char → Option Symbol
  | '(' => some .leftParen
  | ')' => some .rightParen
  | '[' => some .leftBracket
  | ']' => some .rightBracket
  | ',' => some .comma
  | ';' => some .semicolon
  | '+' => some .plus
  | '-' => some .minus
  | '*' => some .star
  | '/' => some .slash
  | '%' => some .percent
  | '~' => some .bitNot
  | '?' => some .question
  | '@' => some .atSign
  | '.' => some .dot
  | '&' => some .bitAnd
  | '=' => some .eq
  | _ => none

/-- The symbols of two characters that start with `c`, by their second one, and the symbol that
`c` is alone. -/
def double (c : Char) : List (Char × Symbol) × Option Symbol :=
  match c with
  | ':' => ([(':', .doubleColon)], some .colon)
  | '|' => ([('|', .concat)], some .bitOr)
  | '!' => ([('=', .notEq)], none)
  | '<' => ([('=', .ltEq), ('>', .notEq), ('<', .leftShift)], some .lt)
  | '>' => ([('=', .gtEq), ('>', .rightShift)], some .gt)
  | _ => ([], none)

/-- The symbol that starts with `c`, and the number of characters it takes behind `c`. -/
def symbol? (c : Char) (cs : List Char) : Option (Symbol × Nat) :=
  match single? c with
  | some symbol => some (symbol, 0)
  | none =>
    let (longer, alone) := double c
    match cs.head?.bind fun d ↦ longer.lookup d with
    | some symbol => some (symbol, 1)
    | none => alone.map (·, 0)

end Scan

/-- The token that starts with `c`. -/
def scan (c : Char) (cs : List Char) : Scan :=
  match Scan.symbol? c cs with
  | some (symbol, extra) => .ofSymbol symbol extra
  | none =>
    if c = '$' then .parameter cs
    else if c = '\'' then .string cs
    else if c = '\x22' ∨ c = '\x60' then .quotedName c cs
    else if (c = 'X' ∨ c = 'x') ∧ cs.head? = some '\'' then
      let literal := Scan.blob cs.tail
      ⟨literal.kind, literal.extra + 1⟩
    else if c.isDigit then .number c cs
    else if isWordStart c then .word c cs
    else .ofError (.unexpectedCharacter c) 0

end SqlBatch
