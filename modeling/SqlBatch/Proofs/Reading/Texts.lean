import SqlBatch.Proofs.Lexing.Numbers
import SqlBatch.Proofs.Reading

/-!
# The tokens of a text put together from pieces

A text that is written piece by piece has the tokens of its pieces, as long as none of them goes on
into the next: a word ends in front of what continues no word, and a number in front of a comma or a
parenthesis. `Spells` says of a piece which tokens it has in front of whatever delimits it.

## What delimits a piece

Types are written so that every piece is followed by a comma, a parenthesis or nothing
(`IsDelimited`), and each of these delimits words and numbers alike. In front of a blank nothing has
to be known of a piece (`kindsOf_blank`), for trivia belong to no token.

## Words of a table

That the spelling of a keyword is read as that keyword is a fact about the table of keywords
(`Keyword.isSpelled`). It is a test that can be run, and pieces that are keywords ask for its answer
(`spells_keyword`).
-/

namespace SqlBatch

variable {c : Char} {cs rest : List Char}

/-! ### Where pieces end -/

/-- No word goes on into the text, and no blob starts with it. -/
def EndsWord (rest : List Char) : Prop :=
  ∀ d ∈ rest.head?, isWordChar d = false ∧ d ≠ '\''

/-- A word ends with the text. -/
theorem EndsWord.nil : EndsWord [] :=
  nofun

/-- A word ends in front of what continues no word and is no quote. -/
theorem EndsWord.cons (h : isWordChar c = false ∧ c ≠ '\'') : EndsWord (c :: cs) := by
  rintro d ⟨⟩
  exact h

/-- The text is at its end, or stands at the end of an item in parentheses. -/
def IsDelimited (rest : List Char) : Prop :=
  ∀ d ∈ rest.head?, d = ',' ∨ d = ')'

namespace IsDelimited

/-- A piece ends with the text. -/
theorem nil : IsDelimited [] :=
  nofun

/-- A piece ends in front of a comma. -/
theorem comma (cs : List Char) : IsDelimited (',' :: cs) := by
  rintro d ⟨⟩
  exact .inl rfl

/-- A piece ends in front of a parenthesis. -/
theorem rightParen (cs : List Char) : IsDelimited (')' :: cs) := by
  rintro d ⟨⟩
  exact .inr rfl

variable (h : IsDelimited rest)
include h

/-- What delimits a piece ends a word. -/
theorem endsWord : EndsWord rest := by
  intro d hd
  rcases h d hd with rfl | rfl <;> decide

/-- What delimits a piece ends a run of digits. -/
theorem isDigitRun (n : Nat) : IsDigitRun (Nat.toDigits 10 n) rest where
  ne_nil := Nat.toDigits_ne_nil
  isDigit _ := Scan.isDigit_of_mem_toDigits
  head? d hd := by rcases h d hd with rfl | rfl <;> rfl

/-- What delimits a piece makes no fraction and no exponent of a number. -/
theorem not_continuesNumber : ¬ ContinuesNumber rest := by
  intro hcontinues
  rcases rest with _ | ⟨c, _ | ⟨d, ds⟩⟩
  · exact hcontinues
  · exact hcontinues
  · have hstart : c = '.' ∨ c = 'e' ∨ c = 'E' := hcontinues.imp And.left And.left
    rcases h c rfl with rfl | rfl <;> exact absurd hstart (by decide)

end IsDelimited

/-! ### The tokens of a piece -/

/-- A blank has no token. -/
theorem kindsOf_blank (h : isBlank c) (cs : List Char) : kindsOf (c :: cs) = kindsOf cs := by
  rw [kindsOf, tokenize, Lexer.ofSource, String.toList_ofList, Lexer.tokens_cons_of_isBlank h,
    map_kind_tokens]

/-- What is scanned in front of a text is one token of it. -/
theorem kindsOf_append {kind : Token.Kind} (hgap : Trivia.length (c :: (cs ++ rest)) = 0)
    (hscan : scan c (cs ++ rest) = ⟨kind, cs.length⟩) :
    kindsOf (c :: (cs ++ rest)) = kind :: kindsOf rest := by
  rw [kindsOf_scan hgap, hscan, List.drop_left]

/-- A symbol of one character. -/
theorem kindsOf_single {symbol : Symbol} (hgap : ∀ cs, Trivia.length (c :: cs) = 0)
    (h : Scan.single? c = some symbol) (cs : List Char) :
    kindsOf (c :: cs) = .symbol symbol :: kindsOf cs := by
  have hscan : scan c cs = .ofSymbol symbol 0 := by
    rw [scan, Scan.symbol?, h]
  exact @kindsOf_append c [] cs _ (hgap cs) hscan

/-- A word, up to where it ends. -/
theorem kindsOf_word (hc : isWordStart c) (hcs : ∀ d ∈ cs, isWordChar d) (h : EndsWord rest) :
    kindsOf (c :: (cs ++ rest)) = (Scan.word c cs).kind :: kindsOf rest := by
  have hall : (cs ++ []).takeWhile isWordChar = cs := takeWhile_append_of_head? hcs nofun
  rw [List.append_nil] at hall
  have hword : Scan.word c (cs ++ rest) = ⟨(Scan.word c cs).kind, cs.length⟩ := by
    rw [Scan.word, takeWhile_append_of_head? hcs fun d hd ↦ (h d hd).1, Scan.word, hall]
  refine kindsOf_append (Scan.length_trivia_of_isWordChar (isWordChar_of_isWordStart hc) _) ?_
  rw [Scan.scan_of_isWordStart hc, hword]
  rintro ⟨-, hquote⟩
  rcases cs with _ | ⟨d, ds⟩
  · exact (h _ hquote).2 rfl
  · obtain rfl := Option.some.inj hquote
    exact absurd (hcs _ (.head _)) (by decide)

/-- Whether the spelling of the keyword is a word that is read as the keyword. -/
def Keyword.isSpelled (keyword : Keyword) : Bool :=
  match keyword.spelling.toList with
  | c :: cs => isWordStart c && cs.all isWordChar && (Scan.word c cs).kind == .keyword keyword
  | [] => false

/-- A keyword in its own spelling. -/
theorem kindsOf_keyword {keyword : Keyword} (hkeyword : keyword.isSpelled) (h : EndsWord rest) :
    kindsOf (keyword.spelling.toList ++ rest) = .keyword keyword :: kindsOf rest := by
  rw [Keyword.isSpelled] at hkeyword
  split at hkeyword
  · rename_i c cs htext
    simp only [Bool.and_eq_true, beq_iff_eq] at hkeyword
    obtain ⟨⟨hc, hcs⟩, hkind⟩ := hkeyword
    rw [htext, ← hkind]
    exact kindsOf_word hc (List.all_eq_true.1 hcs) h
  · cases hkeyword

/-! ### Delimited pieces -/

/-- The text has tokens of these kinds, in front of what delimits it. -/
def Spells (cs : List Char) (kinds : List Token.Kind) : Prop :=
  ∀ rest, IsDelimited rest → kindsOf (cs ++ rest) = kinds ++ kindsOf rest

/-- A keyword as a piece. -/
theorem spells_keyword {keyword : Keyword} (h : keyword.isSpelled) :
    Spells keyword.spelling.toList [.keyword keyword] :=
  fun _ hrest ↦ kindsOf_keyword h hrest.endsWord

/-- A number as a piece, as long as it is within the range of integers. -/
theorem spells_toDigits {n : Nat} (h : n < 0x8000000000000000) :
    Spells (Nat.toDigits 10 n) [.integer n] := by
  intro rest hrest
  have hrun := hrest.isDigitRun n
  obtain ⟨c, cs, hdigits⟩ := List.exists_cons_of_ne_nil hrun.ne_nil
  have hkind := Scan.integerKind_toDigits h
  rw [hdigits] at hrun hkind ⊢
  have hc := Scan.isWordChar_of_isDigit (hrun.isDigit c (.head _))
  refine kindsOf_append (Scan.length_trivia_of_isWordChar hc _) ?_
  rw [Scan.scan_digits hrun hrest.not_continuesNumber, hkind]

end SqlBatch
