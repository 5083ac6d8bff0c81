import SqlBatch.Lexer.Scan
import SqlBatch.Proofs.Lexing.Trivia

/-!
# Cutting tokens

What one token is, seen from its first character: how far it reaches, how it ends, and of which kind
it can be.

## Cutting the text behind a token

A token is read the same when the text is cut off behind it (`Scan.scan_take`). Some readers look
further than the token reaches, a number for the digit behind a point, say; what they see there is
left to the next token, and whatever else stands there is left too. So each reader has a lemma
`…_take`, with the hypothesis that the cut is not inside of its token.

## Ends of tokens

Unless it is an error, a token does not end with white space (`Scan.trimEnd_scan`): words and
numbers hold none, and what is quoted ends with its quote. An unfinished string, which is an error,
goes on to the end of the text and ends as that does.

## Kinds

What a token's kind says of its characters is collected in `Makes`, by which the later modules go;
they do not look into the readers again.
-/

namespace SqlBatch

/-! ### Characters of a token -/

/-- Classes whose ranges lie apart have no character in common. -/
theorem CodeRanges.covers_eq_false {ranges others : CodeRanges} {c : Char}
    (h : ranges.all fun r ↦ others.all fun s ↦ decide (r.2 < s.1 ∨ s.2 < r.1))
    (hc : ranges.covers c) : others.covers c = false := by
  rw [Bool.eq_false_iff, ne_eq, covers_iff]
  rintro ⟨s, hs, hs₁, hs₂⟩
  obtain ⟨r, hr, hr₁, hr₂⟩ := covers_iff.1 hc
  have := decide_eq_true_iff.1 (List.all_eq_true.1 (List.all_eq_true.1 h r hr) s hs)
  omega

/-- Letters and digits of the basic alphabet are not blank. -/
theorem isBlank_eq_false_of_isAlphanum {c : Char} (h : c.isAlphanum) : isBlank c = false := by
  have hc : CodeRanges.covers [(48, 57), (65, 90), (97, 122)] c := by
    have h : (decide ('A'.val ≤ c.val ∧ c.val ≤ 'Z'.val) ||
      (decide ('a'.val ≤ c.val) && decide (c.val ≤ 'z'.val)) ||
      (decide ('0'.val ≤ c.val) && decide (c.val ≤ '9'.val))) = true := h
    simp only [UInt32.le_iff_toNat_le, Bool.or_eq_true, Bool.and_eq_true, decide_eq_true_eq] at h
    simp only [CodeRanges.covers, List.any_cons, List.any_nil, Bool.or_eq_true, Bool.and_eq_true,
      decide_eq_true_eq, Char.toNat]
    simp only [Char.reduceVal, UInt32.reduceToNat, Bool.false_eq_true, or_false] at h ⊢
    omega
  exact CodeRanges.covers_eq_false (by decide) hc

/-- The characters of a word are not blank. -/
theorem isBlank_eq_false_of_isWordChar {c : Char} (h : isWordChar c) : isBlank c = false := by
  have halphabetic : alphabeticRanges.covers c → isBlank c = false :=
    CodeRanges.covers_eq_false (by decide +kernel)
  have hnumeric : numericRanges.covers c → isBlank c = false :=
    CodeRanges.covers_eq_false (by decide +kernel)
  simp only [isWordChar, isLetter, isNumeric, Bool.or_eq_true, Bool.and_eq_true] at h
  rcases h with ((h | h) | (h | h)) | h
  · exact isBlank_eq_false_of_isAlphanum (by simp [Char.isAlphanum, h])
  · exact halphabetic h.2
  · exact isBlank_eq_false_of_isAlphanum (by simp [Char.isAlphanum, h])
  · exact hnumeric h.2
  · rw [beq_iff_eq.1 h]
    decide

/-! ### Cutting a text behind its token -/

/-- What is taken while a property holds, of a text that is cut behind it. -/
theorem takeWhile_take {p : Char → Bool} {cs : List Char} {n : Nat}
    (h : (cs.takeWhile p).length ≤ n) : (cs.take n).takeWhile p = cs.takeWhile p := by
  rw [← List.take_takeWhile, List.take_of_length_le h]

namespace Scan

theorem word_take {c : Char} {cs : List Char} {n : Nat} (h : (word c cs).extra ≤ n) :
    word c (cs.take n) = word c cs := by
  rw [word, takeWhile_take h, word]

/-- What stands between quotes, up to the second of them. -/
theorem quotedBody?_take {quote : Char} {cs body : List Char} {width n : Nat}
    (h : quotedBody? quote cs = some (body, width)) (hn : width ≤ n) :
    quotedBody? quote (cs.take n) = some (body, width) := by
  fun_induction quotedBody? quote cs generalizing body width n with
  | case1 => cases h
  | case2 =>
    cases h
    obtain ⟨n, rfl⟩ : ∃ k, n = k + 1 := ⟨n - 1, by omega⟩
    simp [quotedBody?]
  | case3 ds ih =>
    obtain ⟨⟨inner, k⟩, hinner, hmap⟩ := Option.map_eq_some_iff.1 h
    cases hmap
    obtain ⟨n, rfl⟩ : ∃ k, n = k + 2 := ⟨n - 2, by omega⟩
    have := ih hinner (Nat.le_of_add_le_add_right hn)
    simp [quotedBody?, this]
  | case4 d ds hd =>
    cases h
    obtain ⟨n, rfl⟩ : ∃ k, n = k + 1 := ⟨n - 1, by omega⟩
    cases n <;> simp [quotedBody?, hd]
  | case5 c cs hc ih =>
    obtain ⟨⟨inner, k⟩, hinner, hmap⟩ := Option.map_eq_some_iff.1 h
    cases hmap
    obtain ⟨n, rfl⟩ : ∃ k, n = k + 1 := ⟨n - 1, by omega⟩
    have := ih hinner (Nat.le_of_add_le_add_right hn)
    rw [List.take_succ_cons, quotedBody?.eq_def]
    simp [hc, this]

theorem string_take {cs : List Char} {n : Nat} (h : (string cs).extra ≤ n) :
    string (cs.take n) = string cs := by
  rw [string] at h
  split at h
  · rename_i body width hbody
    rw [string, quotedBody?_take hbody h, string, hbody]
  · rw [List.take_of_length_le h]

theorem quotedName_take {quote : Char} {cs : List Char} {n : Nat}
    (h : (quotedName quote cs).extra ≤ n) :
    quotedName quote (cs.take n) = quotedName quote cs := by
  rw [quotedName] at h
  split at h
  · rename_i body width hbody
    rw [quotedName, quotedBody?_take hbody h, quotedName, hbody]
  · rw [List.take_of_length_le h]

theorem blob_take {cs : List Char} {n : Nat} (h : (blob cs).extra ≤ n) :
    blob (cs.take n) = blob cs := by
  rw [blob] at h
  split at h
  · rw [List.take_of_length_le h]
  · rename_i hclosed
    have htake := takeWhile_take (Nat.le_of_succ_le h)
    have hlength : (cs.takeWhile (· != '\'')).length ≤ cs.length :=
      (List.takeWhile_prefix _).length_le
    rw [blob, blob, htake, List.length_take, if_neg hclosed, if_neg]
    simp only at h
    omega

/-- The digits behind a point. A point without digits is looked at, but not taken. -/
theorem fraction_take {cs : List Char} {n : Nat}
    (h : fraction cs = [] ∨ (fraction cs).length + 1 ≤ n) :
    fraction (cs.take n) = fraction cs := by
  unfold fraction at h ⊢
  split at h
  · rename_i cs
    cases n with
    | zero =>
      rw [List.take_zero]
      exact (h.resolve_right (by omega)).symm
    | succ n =>
      rw [List.take_succ_cons]
      refine takeWhile_take (h.elim (fun hnil ↦ ?_) Nat.le_of_succ_le_succ)
      rw [hnil]
      exact Nat.zero_le n
  · rename_i hpoint
    split
    · rename_i ds htake
      exact (Trivia.ne_cons_of_prefix (List.take_prefix n cs) hpoint ds htake).elim
    · rfl

/-- An exponent by its first two characters, which decide whether there is one. -/
theorem exponent?_cons_cons (e c : Char) (cs : List Char) :
    exponent? (e :: c :: cs) =
      if e = 'e' ∨ e = 'E' then
        if c.isDigit then
          some ⟨false, (c :: cs).takeWhile Char.isDigit,
            ((c :: cs).takeWhile Char.isDigit).length + 1⟩
        else if c = '+' ∨ c = '-' then
          some ⟨c = '-', cs.takeWhile Char.isDigit, (cs.takeWhile Char.isDigit).length + 2⟩
        else none
      else none :=
  rfl

/-- An exponent has a letter and a digit or a sign. -/
theorem two_le_width {cs : List Char} {e : Exponent} (h : exponent? cs = some e) :
    2 ≤ e.width := by
  match cs with
  | [] | [_] => cases h
  | d :: c :: cs =>
    rw [exponent?_cons_cons] at h
    by_cases he : d = 'e' ∨ d = 'E'
    · by_cases hdigit : c.isDigit
      · rw [if_pos he, if_pos hdigit] at h
        cases h
        simp [hdigit]
      · rw [if_pos he, if_neg hdigit] at h
        split at h <;> cases h
        exact Nat.le_add_left 2 _
    · rw [if_neg he] at h
      cases h

theorem exponent?_take {cs : List Char} {n : Nat} (h : ∀ e ∈ exponent? cs, e.width ≤ n) :
    exponent? (cs.take n) = exponent? cs := by
  match cs, n with
  | [], _ => rw [List.take_nil]
  | [_], 0 => rfl
  | [_], n + 1 => rw [List.take_succ_cons, List.take_nil]
  | e :: c :: cs, n + 2 =>
    rw [List.take_succ_cons, List.take_succ_cons]
    rw [exponent?_cons_cons] at h ⊢
    rw [exponent?_cons_cons]
    by_cases he : e = 'e' ∨ e = 'E'
    · simp only [if_pos he] at h ⊢
      by_cases hdigit : c.isDigit
      · rw [if_pos hdigit] at h ⊢
        have hwidth := h _ rfl
        have htake : ((c :: cs).take (n + 1)).takeWhile Char.isDigit =
            (c :: cs).takeWhile Char.isDigit :=
          takeWhile_take (Nat.le_of_succ_le_succ hwidth)
        rw [List.take_succ_cons] at htake
        rw [if_pos hdigit, htake]
      · rw [if_neg hdigit] at h ⊢
        rw [if_neg hdigit]
        by_cases hsign : c = '+' ∨ c = '-'
        · rw [if_pos hsign] at h ⊢
          rw [if_pos hsign, takeWhile_take (Nat.le_of_add_le_add_right (h _ rfl))]
        · rw [if_neg hsign, if_neg hsign]
    · rw [if_neg he, if_neg he]
  | e :: c :: cs, 0 | e :: c :: cs, 1 =>
    refine (Option.eq_none_iff_forall_ne_some.2 fun e he ↦ ?_).symm
    have := two_le_width he
    have := h e he
    omega

/-- What stands behind the first digits of a number. -/
theorem mantissa_take {cs : List Char} {n : Nat} (h : (mantissa cs).width ≤ n) :
    mantissa (cs.take n) = mantissa cs := by
  have hwhole : (cs.takeWhile Char.isDigit).length ≤ n := by
    refine Nat.le_trans ?_ h
    simp only [mantissa]
    split <;> omega
  have hfraction : fraction ((cs.take n).drop (cs.takeWhile Char.isDigit).length) =
      fraction (cs.drop (cs.takeWhile Char.isDigit).length) := by
    rw [List.drop_take]
    refine fraction_take ?_
    simp only [mantissa] at h
    split at h
    · rename_i hempty
      exact .inl (List.isEmpty_iff.1 hempty)
    · exact .inr (by omega)
  rw [mantissa, takeWhile_take hwhole, hfraction, mantissa]

theorem number_take {c : Char} {cs : List Char} {n : Nat} (h : (number c cs).extra ≤ n) :
    number c (cs.take n) = number c cs := by
  have hwidth : (mantissa cs).width ≤ n := by
    refine Nat.le_trans ?_ h
    simp only [number]
    split <;> simp
  have hexponent : exponent? ((cs.take n).drop (mantissa cs).width) =
      exponent? (cs.drop (mantissa cs).width) := by
    rw [List.drop_take]
    refine exponent?_take fun e he ↦ ?_
    simp only [number, Option.mem_def.1 he] at h
    omega
  rw [number, mantissa_take hwidth, hexponent, number]

theorem parameter_take {cs : List Char} {n : Nat} (h : (parameter cs).extra ≤ n) :
    parameter (cs.take n) = parameter cs := by
  have hdigits : (cs.takeWhile Char.isDigit).length ≤ n := by
    simp only [parameter] at h
    split at h
    · rename_i hempty
      simp [List.isEmpty_iff.1 hempty]
    · split at h <;> exact h
  rw [parameter, parameter, takeWhile_take hdigits]

/-- Symbols, of which some are the beginnings of others. -/
theorem symbol?_take {c : Char} {cs : List Char} {n : Nat}
    (h : ∀ found ∈ symbol? c cs, found.2 ≤ n) : symbol? c (cs.take n) = symbol? c cs := by
  simp only [symbol?] at h ⊢
  split
  · rfl
  · rename_i hsingle
    simp only [hsingle] at h
    cases n with
    | succ n => rw [List.head?_take, if_neg (Nat.succ_ne_zero n)]
    | zero =>
      cases hlonger : cs.head?.bind fun d ↦ (double c).1.lookup d with
      | some symbol => simp [hlonger] at h
      | none => rfl

end Scan

/-- **Two texts are read alike** where the tests on their characters come out the same, and the
reader that is called for the first one reads the same in the second. -/
theorem scan_congr {c : Char} {cs ds : List Char} (hsymbol : Scan.symbol? c ds = Scan.symbol? c cs)
    (hparameter : scan c cs = .parameter cs → Scan.parameter ds = .parameter cs)
    (hstring : scan c cs = .string cs → Scan.string ds = .string cs)
    (hname : c = '\x22' ∨ c = '\x60' → scan c cs = .quotedName c cs →
      Scan.quotedName c ds = .quotedName c cs)
    (hblob : ∀ es, cs = '\'' :: es → scan c cs = ⟨(Scan.blob es).kind, (Scan.blob es).extra + 1⟩ →
      ∃ fs, ds = '\'' :: fs ∧ Scan.blob fs = Scan.blob es)
    (hopens : ds.head? = some '\'' → cs.head? = some '\'')
    (hnumber : scan c cs = .number c cs → Scan.number c ds = .number c cs)
    (hword : scan c cs = .word c cs → Scan.word c ds = .word c cs) : scan c ds = scan c cs := by
  rw [scan] at hparameter hstring hname hblob hnumber hword
  rw [scan, scan, hsymbol]
  split
  · rfl
  rename_i hnone
  rw [hnone] at hparameter hstring hname hblob hnumber hword
  dsimp only at hparameter hstring hname hblob hnumber hword
  -- From here on the cases are those of the scan, in its order.
  by_cases hdollar : c = '$'
  · rw [if_pos hdollar, if_pos hdollar, hparameter (if_pos hdollar)]
  rw [if_neg hdollar] at hstring hname hblob hnumber hword
  rw [if_neg hdollar, if_neg hdollar]
  by_cases hquote : c = '\''
  · rw [if_pos hquote, if_pos hquote, hstring (if_pos hquote)]
  rw [if_neg hquote] at hname hblob hnumber hword
  rw [if_neg hquote, if_neg hquote]
  by_cases hquoted : c = '\x22' ∨ c = '\x60'
  · rw [if_pos hquoted, if_pos hquoted, hname hquoted (if_pos hquoted)]
  rw [if_neg hquoted] at hblob hnumber hword
  rw [if_neg hquoted, if_neg hquoted]
  by_cases hhex : (c = 'X' ∨ c = 'x') ∧ cs.head? = some '\''
  · obtain ⟨es, rfl⟩ := List.head?_eq_some_iff.1 hhex.2
    obtain ⟨fs, rfl, hsame⟩ := hblob es rfl (if_pos hhex)
    rw [if_pos ⟨hhex.1, rfl⟩, if_pos hhex, List.tail_cons, List.tail_cons, hsame]
  rw [if_neg hhex] at hnumber hword
  rw [if_neg fun h ↦ hhex ⟨h.1, hopens h.2⟩, if_neg hhex]
  by_cases hdigit : c.isDigit
  · rw [if_pos hdigit, if_pos hdigit, hnumber (if_pos hdigit)]
  rw [if_neg hdigit] at hword
  rw [if_neg hdigit, if_neg hdigit]
  by_cases hstart : isWordStart c
  · rw [if_pos hstart, if_pos hstart, hword (if_pos hstart)]
  · rw [if_neg hstart, if_neg hstart]

/-- **A token that is read is read from the characters up to its end**, whatever is behind it. -/
theorem scan_take {c : Char} {cs : List Char} {n : Nat} (h : (scan c cs).extra ≤ n) :
    scan c (cs.take n) = scan c cs := by
  have hsymbol : Scan.symbol? c (cs.take n) = Scan.symbol? c cs := by
    refine Scan.symbol?_take fun found hfound ↦ ?_
    rwa [scan, Option.mem_def.1 hfound] at h
  refine scan_congr hsymbol ?_ ?_ ?_ ?_ ?_ ?_ ?_
  · exact fun hscan ↦ Scan.parameter_take (hscan ▸ h)
  · exact fun hscan ↦ Scan.string_take (hscan ▸ h)
  · exact fun _ hscan ↦ Scan.quotedName_take (hscan ▸ h)
  · rintro es rfl hscan
    rw [hscan] at h
    obtain ⟨m, rfl⟩ := Nat.exists_eq_add_of_le' (Nat.le_trans (Nat.le_add_left 1 _) h)
    exact ⟨es.take m, List.take_succ_cons, Scan.blob_take (Nat.le_of_succ_le_succ h)⟩
  · rw [List.head?_take]
    split
    · exact nofun
    · exact id
  · exact fun hscan ↦ Scan.number_take (hscan ▸ h)
  · exact fun hscan ↦ Scan.word_take (hscan ▸ h)

/-! ### How a token ends -/

/-- What is taken while a property holds, as the front of the text. -/
theorem take_length_takeWhile (p : Char → Bool) (cs : List Char) :
    cs.take (cs.takeWhile p).length = cs.takeWhile p :=
  (List.prefix_iff_eq_take.1 (List.takeWhile_prefix p)).symm

/-- Digits are not blank. -/
theorem isBlank_eq_false_of_mem_digits {c : Char} {cs : List Char}
    (h : c ∈ cs.takeWhile Char.isDigit) : isBlank c = false := by
  have hdigit := List.all_eq_true.1 List.all_takeWhile c h
  exact isBlank_eq_false_of_isAlphanum (by simp [Char.isAlphanum, hdigit])

namespace Scan

/-- A word does not end with white space. -/
theorem trimEnd_word (c : Char) (cs : List Char) :
    trimEnd (cs.take (word c cs).extra) = cs.take (word c cs).extra := by
  refine trimEnd_eq_self fun d hd ↦ isBlank_eq_false_of_isWordChar ?_
  rw [word, take_length_takeWhile] at hd
  exact List.all_eq_true.1 List.all_takeWhile d hd

/-- A quoted text ends with its quote. -/
theorem take_of_quotedBody? {quote : Char} {cs body : List Char} {width : Nat}
    (h : quotedBody? quote cs = some (body, width)) :
    ∃ front, cs.take width = front ++ [quote] := by
  fun_induction quotedBody? quote cs generalizing body width with
  | case1 => cases h
  | case2 | case4 =>
    cases h
    exact ⟨[], rfl⟩
  | case3 ds ih =>
    obtain ⟨⟨inner, k⟩, hinner, hmap⟩ := Option.map_eq_some_iff.1 h
    cases hmap
    obtain ⟨front, hfront⟩ := ih hinner
    exact ⟨quote :: quote :: front, by simp [hfront]⟩
  | case5 c cs hc ih =>
    obtain ⟨⟨inner, k⟩, hinner, hmap⟩ := Option.map_eq_some_iff.1 h
    cases hmap
    obtain ⟨front, hfront⟩ := ih hinner
    exact ⟨c :: front, by simp [hfront]⟩

/-- A finished string ends with its quote. -/
theorem trimEnd_string {cs : List Char} (h : ∀ cause, (string cs).kind ≠ .error cause) :
    trimEnd (cs.take (string cs).extra) = cs.take (string cs).extra := by
  rw [string] at h ⊢
  split
  · rename_i body width hbody
    obtain ⟨front, hfront⟩ := take_of_quotedBody? hbody
    rw [hfront]
    exact trimEnd_concat (by decide) front
  · rename_i hbody
    simp [hbody, ofError] at h

/-- A finished name ends with its quote. -/
theorem trimEnd_quotedName {quote : Char} {cs : List Char} (hquote : isBlank quote = false)
    (h : ∀ cause, (quotedName quote cs).kind ≠ .error cause) :
    trimEnd (cs.take (quotedName quote cs).extra) = cs.take (quotedName quote cs).extra := by
  rw [quotedName] at h ⊢
  split
  · rename_i body width hbody
    obtain ⟨front, hfront⟩ := take_of_quotedBody? hbody
    rw [hfront]
    exact trimEnd_concat hquote front
  · rename_i hbody
    simp [hbody, ofError] at h

/-- A finished blob ends with its quote. -/
theorem trimEnd_blob {cs : List Char} (h : ∀ cause, (blob cs).kind ≠ .error cause) :
    trimEnd (cs.take (blob cs).extra) = cs.take (blob cs).extra := by
  simp only [blob] at h ⊢
  split
  · rename_i hopen
    simp [hopen, ofError] at h
  · rename_i hclosed
    -- Behind the body stands the closing quote, or else the body were everything.
    cases hbehind : cs.dropWhile (· != '\'') with
    | nil =>
      have hall := @List.takeWhile_append_dropWhile _ (· != '\'') cs
      rw [hbehind, List.append_nil] at hall
      exact absurd (congrArg List.length hall) hclosed
    | cons d ds =>
      have hd : d = '\'' := by simpa [hbehind] using List.head?_dropWhile_not (· != '\'') cs
      have hdrop := congrArg (List.drop (cs.takeWhile (· != '\'')).length)
        (@List.takeWhile_append_dropWhile _ (· != '\'') cs)
      rw [List.drop_left, hbehind] at hdrop
      have htake : cs.take ((cs.takeWhile (· != '\'')).length + 1) =
          cs.takeWhile (· != '\'') ++ [d] := by
        rw [List.take_add, take_length_takeWhile, ← hdrop, List.take_succ_cons, List.take_zero]
      rw [htake, hd]
      exact trimEnd_concat (by decide) _

/-- A fraction starts with a point. -/
theorem eq_cons_of_fraction {cs : List Char} (h : fraction cs ≠ []) : ∃ ds, cs = '.' :: ds := by
  unfold fraction at h
  split at h
  · exact ⟨_, rfl⟩
  · exact absurd rfl h

/-- What stands behind the first digits of a number is not blank. -/
theorem isBlank_eq_false_of_mem_mantissa {c : Char} {cs : List Char}
    (h : c ∈ cs.take (mantissa cs).width) : isBlank c = false := by
  simp only [mantissa] at h
  split at h
  · rw [take_length_takeWhile] at h
    exact isBlank_eq_false_of_mem_digits h
  · rename_i hplaces
    rw [Nat.add_assoc, List.take_add, take_length_takeWhile, List.mem_append] at h
    refine h.elim isBlank_eq_false_of_mem_digits fun h ↦ ?_
    obtain ⟨es, hpoint⟩ := eq_cons_of_fraction (mt List.isEmpty_iff.2 hplaces)
    rw [hpoint, fraction, Nat.add_comm, List.take_succ_cons, take_length_takeWhile] at h
    rcases List.mem_cons.1 h with rfl | h
    · decide
    · exact isBlank_eq_false_of_mem_digits h

/-- The characters of an exponent are not blank. -/
theorem isBlank_eq_false_of_mem_exponent {c : Char} {cs : List Char} {e : Exponent}
    (he : exponent? cs = some e) (h : c ∈ cs.take e.width) : isBlank c = false := by
  match cs with
  | [] | [_] => cases he
  | d :: d' :: cs =>
    rw [exponent?_cons_cons] at he
    by_cases hletter : d = 'e' ∨ d = 'E'
    · have hd : isBlank d = false := by rcases hletter with rfl | rfl <;> decide
      by_cases hdigit : d'.isDigit
      · rw [if_pos hletter, if_pos hdigit] at he
        cases he
        rw [List.take_succ_cons, take_length_takeWhile] at h
        exact (List.mem_cons.1 h).elim (· ▸ hd) isBlank_eq_false_of_mem_digits
      · rw [if_pos hletter, if_neg hdigit] at he
        by_cases hsign : d' = '+' ∨ d' = '-'
        · have hd' : isBlank d' = false := by rcases hsign with rfl | rfl <;> decide
          rw [if_pos hsign] at he
          cases he
          rw [List.take_succ_cons, List.take_succ_cons, take_length_takeWhile] at h
          rcases List.mem_cons.1 h with rfl | h
          · exact hd
          · exact (List.mem_cons.1 h).elim (· ▸ hd') isBlank_eq_false_of_mem_digits
        · rw [if_neg hsign] at he
          cases he
    · rw [if_neg hletter] at he
      cases he

/-- A number does not end with white space. -/
theorem trimEnd_number (c : Char) (cs : List Char) :
    trimEnd (cs.take (number c cs).extra) = cs.take (number c cs).extra := by
  refine trimEnd_eq_self fun d hd ↦ ?_
  simp only [number] at hd
  split at hd
  · rename_i e he
    rw [List.take_add, List.mem_append] at hd
    exact hd.elim isBlank_eq_false_of_mem_mantissa (isBlank_eq_false_of_mem_exponent he)
  · exact isBlank_eq_false_of_mem_mantissa hd

/-- A parameter does not end with white space. -/
theorem trimEnd_parameter (cs : List Char) :
    trimEnd (cs.take (parameter cs).extra) = cs.take (parameter cs).extra := by
  have hdigits : trimEnd (cs.takeWhile Char.isDigit) = cs.takeWhile Char.isDigit :=
    trimEnd_eq_self fun d hd ↦ isBlank_eq_false_of_mem_digits hd
  rw [← take_length_takeWhile] at hdigits
  simp only [parameter]
  split
  · rfl
  · split <;> exact hdigits

/-- A symbol does not end with white space. -/
theorem trimEnd_symbol {c : Char} {cs : List Char} {symbol : Symbol} {extra : Nat}
    (h : symbol? c cs = some (symbol, extra)) : trimEnd (cs.take extra) = cs.take extra := by
  have hsecond (c d : Char) (symbol : Symbol) (h : (double c).1.lookup d = some symbol) :
      isBlank d = false := by
    obtain ⟨before, behind, hd, -⟩ := List.lookup_eq_some_iff.1 h
    have hmem : (d, symbol) ∈ (double c).1 := by simp [hd]
    have hall : ∀ p ∈ (double c).1, isBlank p.1 = false := by
      unfold double
      split <;> decide
    exact hall _ hmem
  simp only [symbol?] at h
  split at h
  · cases h
    rfl
  · split at h
    · rename_i hlonger
      cases h
      obtain ⟨d, hd, hlookup⟩ := Option.bind_eq_some_iff.1 hlonger
      obtain ⟨ds, rfl⟩ := List.head?_eq_some_iff.1 hd
      exact trimEnd_concat (hsecond c d _ hlookup) []
    · obtain ⟨symbol, -, hmap⟩ := Option.map_eq_some_iff.1 h
      cases hmap
      rfl

end Scan

/-- A token does not end with white space unless it is an error. -/
theorem trimEnd_scan {c : Char} {cs : List Char} (hc : isBlank c = false)
    (h : ∀ cause, (scan c cs).kind ≠ .error cause) :
    trimEnd (c :: cs.take (scan c cs).extra) = c :: cs.take (scan c cs).extra := by
  rw [trimEnd_cons_of_not_blank hc]
  congr 1
  unfold scan at h ⊢
  -- The cases of the scan, in its order; what is an error is excluded by `h`.
  split
  · rename_i symbol extra hsymbol
    exact Scan.trimEnd_symbol hsymbol
  · rename_i hsymbol
    simp only [hsymbol] at h
    by_cases hdollar : c = '$'
    · rw [if_pos hdollar]
      exact Scan.trimEnd_parameter cs
    rw [if_neg hdollar] at h ⊢
    by_cases hquote : c = '\''
    · rw [if_pos hquote] at h ⊢
      exact Scan.trimEnd_string h
    rw [if_neg hquote] at h ⊢
    by_cases hname : c = '\x22' ∨ c = '\x60'
    · rw [if_pos hname] at h ⊢
      exact Scan.trimEnd_quotedName hc h
    rw [if_neg hname] at h ⊢
    by_cases hblob : (c = 'X' ∨ c = 'x') ∧ cs.head? = some '\''
    · obtain ⟨ds, rfl⟩ := List.head?_eq_some_iff.1 hblob.2
      rw [if_pos hblob] at h ⊢
      rw [List.take_succ_cons, trimEnd_cons_of_not_blank (by decide)]
      exact congrArg _ (Scan.trimEnd_blob h)
    rw [if_neg hblob] at h ⊢
    by_cases hdigit : c.isDigit
    · rw [if_pos hdigit]
      exact Scan.trimEnd_number c cs
    rw [if_neg hdigit]
    by_cases hword : isWordStart c
    · rw [if_pos hword]
      exact Scan.trimEnd_word c cs
    · rw [if_neg hword]
      rfl

/-! ### Readers -/

/-- What a token that starts with `c` is read as, by the reader that is called for it. -/
inductive Scan.Reads (c : Char) (cs : List Char) : Scan → Prop
  | symbol {symbol : Symbol} {extra : Nat} : symbol? c cs = some (symbol, extra) →
    Reads c cs (.ofSymbol symbol extra)
  | parameter : c = '$' → Reads c cs (parameter cs)
  | string : c = '\'' → Reads c cs (string cs)
  | quotedName : Reads c cs (quotedName c cs)
  | blob : Reads c cs ⟨(blob cs.tail).kind, (blob cs.tail).extra + 1⟩
  | number : c.isDigit → Reads c cs (number c cs)
  | word : isWordStart c → Reads c cs (word c cs)
  | unexpected : Reads c cs (.ofError (.unexpectedCharacter c) 0)

/-- Some reader is called for every token. -/
theorem reads_scan (c : Char) (cs : List Char) : Scan.Reads c cs (scan c cs) := by
  rw [scan]
  split
  · rename_i hsymbol
    exact .symbol hsymbol
  split
  · rename_i hdollar
    exact .parameter hdollar
  split
  · rename_i hquote
    exact .string hquote
  split
  · exact .quotedName
  split
  · exact .blob
  split
  · rename_i hdigit
    exact .number hdigit
  split
  · rename_i hword
    exact .word hword
  · exact .unexpected

/-! ### Kinds of tokens -/

namespace Scan

/-- What is known of a token by its kind: which symbol was found, what stands between the quotes of
a string, and what number the digits make, which are all that is kept of a number too large for an
integer. -/
inductive Makes (c : Char) (cs : List Char) : Token.Kind → Prop
  | symbol {symbol : Symbol} {extra : Nat} : symbol? c cs = some (symbol, extra) →
    Makes c cs (.symbol symbol)
  | integer {value : Nat} : value < 0x8000000000000000 → Makes c cs (.integer value)
  | numeric {digits : List Char} : (∀ d ∈ digits, d.isDigit) →
    0x8000000000000000 ≤ decimalValue digits → Makes c cs (.numeric (.ofList digits))
  | float (value : Binary64) : Makes c cs (.float value)
  | string {body : List Char} {width : Nat} : c = '\'' → quotedBody? '\'' cs = some (body, width) →
    Makes c cs (.string (.ofList body))
  | blob (bytes : List UInt8) : Makes c cs (.blob bytes)
  | identifier (name : String) : Makes c cs (.identifier name)
  | keyword (keyword : Keyword) : Makes c cs (.keyword keyword)
  | parameter (number : UInt32) : Makes c cs (.parameter number)
  | error (cause : LexicalError) : Makes c cs (.error cause)

variable {c : Char} {cs : List Char}

/-- Digits of a blob make a blob, or an error. -/
theorem makes_blobKind (body : List Char) : Makes c cs (blobKind body) := by
  rw [blobKind]
  split
  · exact .error _
  · split
    · exact .error _
    · exact .blob _

/-- Digits with a point or an exponent make a float, or an error. -/
theorem makes_floatKind (whole places : List Char) (exponent : Option Exponent) :
    Makes c cs (floatKind whole places exponent) := by
  unfold floatKind
  rcases exponent with _ | exponent
  · exact .float _
  · dsimp only
    split
    · exact .error _
    · exact .float _

/-- Digits make an integer, or are kept as they are. -/
theorem makes_integerKind {digits : List Char} (h : ∀ d ∈ digits, d.isDigit) :
    Makes c cs (integerKind digits) := by
  simp only [integerKind]
  split
  · rename_i hlt
    exact .integer hlt
  · rename_i hge
    exact .numeric h (Nat.le_of_not_lt hge)

/-- What the reader of numbers makes. -/
theorem makes_number (hc : c.isDigit) : Makes c cs (number c cs).kind := by
  have hwhole : ∀ d ∈ c :: (mantissa cs).whole, d.isDigit :=
    List.forall_mem_cons.2 ⟨hc, fun d hd ↦ List.all_eq_true.1 List.all_takeWhile d hd⟩
  simp only [number]
  split <;> dsimp only
  · exact makes_floatKind _ _ _
  · split
    · exact makes_integerKind hwhole
    · exact makes_floatKind _ _ _

end Scan

/-- **A token is of the kind that its reader makes.** -/
theorem makes_scan (c : Char) (cs : List Char) : Scan.Makes c cs (scan c cs).kind := by
  have hreads := reads_scan c cs
  generalize scan c cs = found at hreads ⊢
  -- By the reader that was called for the token.
  rcases hreads with hsymbol | - | hquote | - | - | hdigit | -
  · exact .symbol hsymbol
  · simp only [Scan.parameter]
    split
    · exact .error _
    · split
      · exact .parameter _
      · exact .error _
  · rw [Scan.string]
    split
    · rename_i hbody
      exact .string hquote hbody
    · exact .error _
  · rw [Scan.quotedName]
    split
    · exact .identifier _
    · exact .error _
  · simp only [Scan.blob]
    split
    · exact .error _
    · exact Scan.makes_blobKind _
  · exact Scan.makes_number hdigit
  · simp only [Scan.word]
    split
    · exact .keyword _
    · exact .identifier _
  · exact .error _

/-- Whether the kind is that of numbers without a fraction, or that of keywords. -/
def Token.Kind.isBare : Token.Kind → Bool
  | .integer _ | .numeric _ | .keyword _ => true
  | _ => false

/-- **Integers and keywords are read by the readers of numbers and of words.** -/
theorem scan_of_isBare {c : Char} {cs : List Char} (h : (scan c cs).kind.isBare) :
    c.isDigit ∧ scan c cs = .number c cs ∨ isWordStart c ∧ scan c cs = .word c cs := by
  have hreads := reads_scan c cs
  generalize scan c cs = found at hreads h ⊢
  rcases hreads with - | - | - | - | - | hdigit | hword | -
  · cases h
  · simp only [Scan.parameter] at h
    split at h
    · cases h
    · split at h <;> cases h
  · rw [Scan.string] at h
    split at h <;> cases h
  · rw [Scan.quotedName] at h
    split at h <;> cases h
  · simp only [Scan.blob, Scan.blobKind] at h
    split at h
    · cases h
    · dsimp only at h
      split at h
      · cases h
      · split at h <;> cases h
  · exact .inl ⟨hdigit, rfl⟩
  · exact .inr ⟨hword, rfl⟩
  · cases h

/-- No text is the end of the batch. -/
theorem kind_scan_ne_eof (c : Char) (cs : List Char) : (scan c cs).kind ≠ .eof := by
  intro heof
  have hmakes := makes_scan c cs
  rw [heof] at hmakes
  cases hmakes

end SqlBatch
