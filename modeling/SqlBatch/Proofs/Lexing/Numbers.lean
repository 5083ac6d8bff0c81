import Mathlib.Data.List.Induction
import Mathlib.Data.Nat.Digits.Defs
import SqlBatch.Proofs.Lexing.Words

/-!
# The values of numbers

A run of digits keeps the value it has in positional notation, whatever its length and however many
zeros it starts with: below `2 ^ 63` as an integer, and from there on by its digits. Nothing wraps,
neither there nor at the largest number of a parameter (`keepsNumbers_tokenize`).

## Two definitions of a value

`digitsValue` is the value by the weights of the digits, from the units up. The lexer reads digits
from the front, and multiplies as it goes; that both agree is `decimalValue_eq`. Whether digits are
a number by themselves or the start of a float is decided by the two characters behind them
(`ContinuesNumber`).
-/

namespace SqlBatch

/-- The number that decimal digits write, the last one being that of the units. -/
def digitsValue (digits : List Char) : Nat :=
  Nat.ofDigits 10 (digits.reverse.map fun d ↦ d.toNat - '0'.toNat)

/-- There are digits, and no further one behind them. -/
structure IsDigitRun (digits behind : List Char) : Prop where
  ne_nil : digits ≠ []
  isDigit : ∀ d ∈ digits, d.isDigit
  head? : ∀ d ∈ behind.head?, d.isDigit = false

/-- Digits in front of the text are those of a float: a point with a digit behind it follows, or an
exponent. -/
def ContinuesNumber : List Char → Prop
  | c :: d :: _ =>
    c = '.' ∧ d.isDigit ∨ (c = 'e' ∨ c = 'E') ∧ (d.isDigit ∨ d = '+' ∨ d = '-')
  | _ => False

namespace Scan

variable {c : Char} {cs more behind : List Char}

/-! ### The value of digits -/

/-- One more digit at the end is that of the units. -/
theorem digitsValue_concat (digits : List Char) (d : Char) :
    digitsValue (digits ++ [d]) = d.toNat - '0'.toNat + 10 * digitsValue digits := by
  rw [digitsValue, List.reverse_append, List.reverse_singleton, List.singleton_append,
    List.map_cons, Nat.ofDigits_cons]
  rfl

/-- **Reading digits from the left gives their value.** -/
theorem decimalValue_eq (digits : List Char) : decimalValue digits = digitsValue digits := by
  induction digits using List.reverseRecOn with
  | nil => rfl
  | append_singleton digits d ih =>
    rw [digitsValue_concat, ← ih, decimalValue, List.foldl_append, Nat.add_comm]
    rfl

/-- Writing a number and reading it again. -/
theorem decimalValue_toDigits (n : Nat) : decimalValue (Nat.toDigits 10 n) = n :=
  Nat.ofDigitChars_toDigits (by decide) (by decide)

/-- The digits of a number in the range of integers make an integer. -/
theorem integerKind_toDigits {n : Nat} (h : n < 0x8000000000000000) :
    integerKind (Nat.toDigits 10 n) = .integer n := by
  simp only [integerKind, decimalValue_toDigits]
  exact if_pos h

/-- A number is written with digits. -/
theorem isDigit_of_mem_toDigits {n : Nat} {d : Char} (h : d ∈ Nat.toDigits 10 n) : d.isDigit :=
  Nat.isDigit_of_mem_toDigits (by decide) (by decide) h

/-! ### Digits at the start of a text -/

/-- A token that starts with a digit is a number. -/
theorem scan_of_isDigit (h : c.isDigit) (cs : List Char) : scan c cs = number c cs := by
  have hne (d : Char) (hd : d.isDigit = false) : c ≠ d := by
    rintro rfl
    rw [h] at hd
    cases hd
  rw [scan, symbol?_eq_none (isWordChar_of_isDigit h)]
  simp [hne, h]

/-- Without a point and a digit, there is no fraction. -/
theorem fraction_eq_nil (h : ¬ ContinuesNumber behind) : fraction behind = [] := by
  unfold fraction
  split
  · rename_i cs
    rcases cs with _ | ⟨d, cs⟩
    · rfl
    · exact List.takeWhile_cons_of_neg fun hd ↦ h (.inl ⟨rfl, hd⟩)
  · rfl

/-- Without a letter and a digit or sign, there is no exponent. -/
theorem exponent?_eq_none (h : ¬ ContinuesNumber behind) : exponent? behind = none := by
  rcases behind with _ | ⟨e, _ | ⟨d, cs⟩⟩
  · rfl
  · rfl
  · rw [exponent?_cons_cons]
    split
    · rename_i he
      rw [if_neg fun hd ↦ h (.inr ⟨he, .inl hd⟩), if_neg fun hd ↦ h (.inr ⟨he, .inr hd⟩)]
    · rfl

/-- **Digits that no fraction and no exponent follows are a number by themselves.** -/
theorem scan_digits (hrun : IsDigitRun (c :: more) behind) (h : ¬ ContinuesNumber behind) :
    scan c (more ++ behind) = ⟨integerKind (c :: more), more.length⟩ := by
  obtain ⟨hc, hmore⟩ := List.forall_mem_cons.1 hrun.isDigit
  have hmantissa : mantissa (more ++ behind) = ⟨more, [], more.length⟩ := by
    rw [mantissa, takeWhile_append_of_head? hmore hrun.head?, List.drop_left, fraction_eq_nil h]
    rfl
  rw [scan_of_isDigit hc, number, hmantissa, List.drop_left, exponent?_eq_none h]
  rfl

/-- Where a number has no fraction and no exponent, it is all digits that stand there. -/
theorem number_of_isBare (h : (number c cs).kind.isBare) :
    number c cs = ⟨integerKind (c :: cs.takeWhile Char.isDigit),
      (cs.takeWhile Char.isDigit).length⟩ := by
  -- A fraction or an exponent makes a float, which has more than digits.
  have hfloat (exponent : Option Exponent) :
      (floatKind (c :: (mantissa cs).whole) (mantissa cs).fraction exponent).isBare = false := by
    rcases exponent with _ | exponent
    · rfl
    · simp only [floatKind]
      split <;> rfl
  simp only [number] at h ⊢
  split at h
  · rw [hfloat] at h
    cases h
  · rename_i hexponent
    dsimp only at h
    split at h
    · rename_i hplaces
      rw [if_pos hplaces]
      simp only [mantissa] at hplaces ⊢
      rw [if_pos hplaces]
    · rw [hfloat] at h
      cases h

/-- **An integer is read from all digits that stand there.** -/
theorem scan_of_isInteger (h : (scan c cs).kind.isBare)
    (hkeyword : ∀ keyword, (scan c cs).kind ≠ .keyword keyword) :
    c.isDigit ∧ scan c cs = ⟨integerKind (c :: cs.takeWhile Char.isDigit),
      (cs.takeWhile Char.isDigit).length⟩ := by
  rcases scan_of_isBare h with ⟨hc, hscan⟩ | ⟨-, hscan⟩
  · rw [hscan] at h ⊢
    exact ⟨hc, number_of_isBare h⟩
  · simp only [hscan, word] at h hkeyword
    split at h
    · rename_i keyword hword
      rw [hword] at hkeyword
      exact absurd rfl (hkeyword keyword)
    · cases h

/-! ### Parameters -/

/-- A dollar starts a parameter. -/
theorem scan_dollar (cs : List Char) : scan '$' cs = .parameter cs := by
  rcases cs with _ | ⟨d, ds⟩ <;> rfl

/-- **A dollar sign and digits are a parameter or an error**, and nothing behind them matters. -/
theorem scan_parameter {digits : List Char} (h : IsDigitRun digits behind) :
    scan '$' (digits ++ behind) =
      ⟨if digitsValue digits < UInt32.size then .parameter (UInt32.ofNat (digitsValue digits))
        else .error .parameterOutOfRange, digits.length⟩ := by
  have hne : ¬ digits.isEmpty = true := fun hnil ↦ h.ne_nil (List.isEmpty_iff.1 hnil)
  simp only [scan_dollar, parameter, takeWhile_append_of_head? h.isDigit h.head?, if_neg hne,
    decimalValue_eq]
  split <;> rfl

end Scan

/-! ### Numbers in a text -/

/-- The kind of a token is the number that digits write, as an integer or by its digits. -/
def Token.Kind.IsNumberOf (kind : Token.Kind) (digits : List Char) : Prop :=
  if digitsValue digits < 0x8000000000000000 then kind = .integer (digitsValue digits)
  else kind = .numeric (String.ofList digits)

/-- The kind of a token is the parameter that digits number, or an error if there is none. -/
def Token.Kind.IsParameterOf (kind : Token.Kind) (digits : List Char) : Prop :=
  if digitsValue digits < UInt32.size then
    ∃ number : UInt32, kind = .parameter number ∧ number.toNat = digitsValue digits
  else kind = .error .parameterOutOfRange

/-- A token of a text starts with some characters of it, and others stand behind these. -/
def Token.StartsWith (t : Token) (source : String) (chars behind : List Char) : Prop :=
  ∃ front, source.toList = front ++ (chars ++ behind) ∧ t.span.start = byteLength front

/-- The numbers of a text are what its digits write. -/
structure KeepsNumbers (source : String) : Prop where
  integer : ∀ t ∈ tokenize source, ∀ n, t.kind = .integer n →
    t.span.chars source ≠ [] ∧ (∀ d ∈ t.span.chars source, d.isDigit) ∧
      digitsValue (t.span.chars source) = n
  numeric : ∀ t ∈ tokenize source, ∀ text, t.kind = .numeric text →
    t.span.slice source = text ∧ (∀ d ∈ text.toList, d.isDigit) ∧
      0x8000000000000000 ≤ digitsValue text.toList
  /-- A run of digits at the start of a token is a number, unless a float goes on behind it. -/
  digits : ∀ t ∈ tokenize source, ∀ digits behind, t.StartsWith source digits behind →
    IsDigitRun digits behind → ¬ ContinuesNumber behind →
      t.span.chars source = digits ∧ t.kind.IsNumberOf digits
  /-- A run of digits behind a dollar sign at the start of a token numbers a parameter. -/
  parameter : ∀ t ∈ tokenize source, ∀ digits behind, t.StartsWith source ('$' :: digits) behind →
    IsDigitRun digits behind →
      t.span.chars source = '$' :: digits ∧ t.kind.IsParameterOf digits

section

variable {source : String} {t : Token}

/-- Digits by themselves are the number that they write. -/
theorem isNumberOf_integerKind (digits : List Char) :
    (Scan.integerKind digits).IsNumberOf digits := by
  simp only [Token.Kind.IsNumberOf, Scan.integerKind, Scan.decimalValue_eq]
  split <;> rfl

/-- An integer token is the number that its characters write. -/
theorem chars_of_isInteger (ht : t ∈ tokenize source) (h : t.kind.isBare)
    (hkeyword : ∀ keyword, t.kind ≠ .keyword keyword) :
    t.span.chars source ≠ [] ∧ (∀ d ∈ t.span.chars source, d.isDigit) ∧
      t.kind.IsNumberOf (t.span.chars source) := by
  have hopen : t.isEof = false := by
    refine Bool.eq_false_iff.2 fun heof ↦ ?_
    rw [beq_iff_eq.1 heof] at h
    cases h
  obtain ⟨c, cs, hstands⟩ := exists_standsAt ht hopen
  rw [hstands.kind] at h hkeyword
  obtain ⟨hc, hscan⟩ := Scan.scan_of_isInteger h hkeyword
  rw [hstands.chars_span, hstands.kind, hscan, take_length_takeWhile]
  refine ⟨List.cons_ne_nil _ _, List.forall_mem_cons.2 ⟨hc, ?_⟩, isNumberOf_integerKind _⟩
  exact fun d hd ↦ List.all_eq_true.1 List.all_takeWhile d hd

/-- A token that starts with some characters is what the lexer makes of them. -/
theorem standsAt_of_startsWith (ht : t ∈ tokenize source) {c : Char} {cs behind : List Char}
    (h : t.StartsWith source (c :: cs) behind) : t.StandsAt source c (cs ++ behind) := by
  obtain ⟨front, hsource, hstart⟩ := h
  exact standsAt_of_start ht hsource hstart

end

/-- **Numbers keep their values**: an integer is the value of its digits, digits that are kept as a
text are too large for one, and all digits that start a token, or stand behind a dollar sign, become
such a number, or such a parameter, or one error if there is no parameter of that number. -/
theorem keepsNumbers_tokenize (source : String) : KeepsNumbers source where
  integer t ht n hkind := by
    -- An integer token is a run of digits, and its kind is the number that they write.
    obtain ⟨hne, hdigits, hvalue⟩ := chars_of_isInteger ht (by rw [hkind]; rfl) (by simp [hkind])
    refine ⟨hne, hdigits, ?_⟩
    rw [Token.Kind.IsNumberOf, hkind] at hvalue
    split at hvalue
    · exact (Token.Kind.integer.inj hvalue).symm
    · cases hvalue
  numeric t ht text hkind := by
    obtain ⟨-, hdigits, hvalue⟩ := chars_of_isInteger ht (by rw [hkind]; rfl) (by simp [hkind])
    rw [Token.Kind.IsNumberOf, hkind] at hvalue
    split at hvalue
    · cases hvalue
    · rename_i hge
      obtain rfl := Token.Kind.numeric.inj hvalue
      rw [String.toList_ofList]
      exact ⟨rfl, hdigits, Nat.le_of_not_lt hge⟩
  digits t ht digits behind hstarts hrun hend := by
    obtain ⟨c, more, rfl⟩ := List.exists_cons_of_ne_nil hrun.ne_nil
    have hstands := standsAt_of_startsWith ht hstarts
    rw [hstands.chars_span, hstands.kind, Scan.scan_digits hrun hend, List.take_left]
    exact ⟨rfl, isNumberOf_integerKind _⟩
  parameter t ht digits behind hstarts hrun := by
    have hstands := standsAt_of_startsWith ht hstarts
    rw [hstands.chars_span, hstands.kind, Scan.scan_parameter hrun, List.take_left]
    refine ⟨rfl, ?_⟩
    rw [Token.Kind.IsParameterOf]
    split
    · rename_i hlt
      exact ⟨_, rfl, UInt32.toNat_ofNat_of_lt hlt⟩
    · rfl

end SqlBatch
