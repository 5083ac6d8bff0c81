import SqlBatch.Proofs.Lexing.Reads

/-!
# White space behind a token

Which white space stands behind a token does not matter. Reading looks past the end of a token, for
a digit behind a point or a second quote, say, but never finds white space there that it would take
into the token; so tokens in front of a blank character stay the same when another one, and any
other text, stands there (`Lexer.Reads.exists_behind_blank`). What is blank is skipped in front of a
token.

## Two kinds of readers

Words, numbers, parameters and symbols never reach a blank character, so they are read as if the
text ended there. What is quoted may hold blank characters and go past the first of them. For these,
the lemmas ask that the token ends before the blank character, as they do in the text that is known
to be cut into the tokens; then the character behind it may be exchanged for another blank one.
-/

namespace SqlBatch

variable {c w w' : Char} {cs rest rest' : List Char}

/-- A blank character is none that is not blank. -/
theorem ne_of_isBlank {d : Char} (hw : isBlank w) (hd : isBlank d = false) : w ≠ d := by
  rintro rfl
  rw [hw] at hd
  cases hd

/-- A blank character is in no word. -/
theorem isWordChar_eq_false_of_isBlank (hw : isBlank w) : isWordChar w = false := by
  rw [Bool.eq_false_iff]
  intro hword
  rw [isBlank_eq_false_of_isWordChar hword] at hw
  cases hw

/-- A blank character is no digit. -/
theorem isDigit_eq_false_of_isBlank (hw : isBlank w) : w.isDigit = false := by
  rw [Bool.eq_false_iff]
  intro hdigit
  rw [isBlank_eq_false_of_isAlphanum (by simp [Char.isAlphanum, hdigit])] at hw
  cases hw

/-! ### Trivia -/

namespace Trivia

/-- Trivia that ends in front of a blank character ends there whatever that character is. -/
theorem lengthFrom_append {mode : Mode} (hw : isBlank w) (h : lengthFrom mode cs < cs.length) :
    lengthFrom mode (cs ++ w :: rest) = lengthFrom mode cs := by
  have hminus := ne_of_isBlank hw (d := '-') (by decide)
  have hstar := ne_of_isBlank hw (d := '*') (by decide)
  have hslash := ne_of_isBlank hw (d := '/') (by decide)
  -- What starts behind a character that is there already does not come to start with another one.
  have hstart {d : Char} {ds : List Char} (hd : w ≠ d) (hds : ∀ es, ds = d :: es → False)
      (es : List Char) : ds ++ w :: rest = d :: es → False := by
    intro heq
    cases ds with
    | nil => exact hd (List.cons.inj heq).1
    | cons e ds => exact hds ds (by rw [(List.cons.inj heq).1])
  fun_induction lengthFrom mode cs with
  | case1 mode => cases h
  | case2 cs ih | case3 cs ih | case8 cs ih =>
    rw [List.cons_append, List.cons_append, lengthFrom, ih (by simpa using h)]
  | case4 c cs hline hblock hblank ih =>
    rw [List.cons_append, lengthFrom, if_pos hblank, ih (by simpa using h)]
    · exact fun ds hc ↦ hstart hminus (fun es ↦ hline es hc) ds
    · exact fun ds hc ↦ hstart hstar (fun es ↦ hblock es hc) ds
  | case5 c cs hline hblock hblank =>
    rw [List.cons_append, lengthFrom, if_neg hblank]
    · exact fun ds hc ↦ hstart hminus (fun es ↦ hline es hc) ds
    · exact fun ds hc ↦ hstart hstar (fun es ↦ hblock es hc) ds
  | case6 c cs hend ih =>
    rw [List.cons_append, lengthFrom, if_pos hend, ih (by simpa using h)]
  | case7 c cs hend ih =>
    rw [List.cons_append, lengthFrom, if_neg hend, ih (by simpa using h)]
  | case9 c cs hclose ih =>
    rw [List.cons_append, lengthFrom, ih (by simpa using h)]
    exact fun ds hc ↦ hstart hslash (fun es ↦ hclose es hc) ds

/-- A blank character is trivia. -/
theorem length_cons_of_isBlank (hw : isBlank w) : length (w :: cs) = length cs + 1 := by
  rw [length, lengthFrom, if_pos hw, length]
  · exact fun _ hc ↦ absurd hc (ne_of_isBlank hw (by decide))
  · exact fun _ hc ↦ absurd hc (ne_of_isBlank hw (by decide))

/-- The trivia in front of a token stays the same with a blank character behind the token. -/
theorem length_behind_blank {gap text : List Char}
    (hgap : length (gap ++ c :: (text ++ rest)) = gap.length) (hw' : isBlank w') :
    length (gap ++ c :: (text ++ w' :: rest')) = gap.length := by
  have hsplit (behind : List Char) : gap ++ c :: (text ++ behind) = gap ++ c :: text ++ behind := by
    rw [List.append_assoc, List.cons_append]
  rw [hsplit] at hgap ⊢
  have hcut : length (gap ++ c :: text) = gap.length := by
    have hle : length (gap ++ c :: text ++ rest) ≤ (gap ++ c :: text).length := by
      rw [hgap]
      simp
    have htake := length_take hle
    rwa [hgap, List.take_left] at htake
  have hlt : length (gap ++ c :: text) < (gap ++ c :: text).length := by
    rw [hcut]
    simp
  have happend : length (gap ++ c :: text ++ w' :: rest') = _ := lengthFrom_append hw' hlt
  rw [happend, ← length, hcut]

end Trivia

/-! ### Tokens -/

/-- What is taken while a property holds ends in front of a character without it. -/
theorem takeWhile_append_cons {p : Char → Bool} (hw : p w = false) :
    (cs ++ w :: rest).takeWhile p = cs.takeWhile p := by
  rw [List.takeWhile_append, List.takeWhile_cons, hw]
  split
  · rename_i hall
    rw [(List.takeWhile_prefix p).eq_of_length hall]
    exact List.append_nil cs
  · rfl

namespace Scan

/-- A word ends in front of a blank character. -/
theorem word_append (hw : isBlank w) : word c (cs ++ w :: rest) = word c cs := by
  rw [word, takeWhile_append_cons (isWordChar_eq_false_of_isBlank hw), word]

/-- A parameter ends in front of a blank character. -/
theorem parameter_append (hw : isBlank w) : parameter (cs ++ w :: rest) = parameter cs := by
  rw [parameter, takeWhile_append_cons (isDigit_eq_false_of_isBlank hw), parameter]

/-- A quoted text that is closed stays so, unless a second quote comes directly behind it. -/
theorem quotedBody?_append {quote : Char} {body : List Char} {width : Nat} (hw : w ≠ quote)
    (h : quotedBody? quote cs = some (body, width)) :
    quotedBody? quote (cs ++ w :: rest) = some (body, width) := by
  fun_induction quotedBody? quote cs generalizing body width with
  | case1 => cases h
  | case2 =>
    cases h
    simp [quotedBody?, hw]
  | case3 ds ih =>
    obtain ⟨⟨inner, k⟩, hinner, hmap⟩ := Option.map_eq_some_iff.1 h
    cases hmap
    simp [quotedBody?, ih hinner]
  | case4 d ds hd =>
    cases h
    simp [quotedBody?, hd]
  | case5 c cs hc ih =>
    obtain ⟨⟨inner, k⟩, hinner, hmap⟩ := Option.map_eq_some_iff.1 h
    cases hmap
    rw [List.cons_append, quotedBody?.eq_def]
    simp [hc, ih hinner]

/-- A quoted text that ends in front of a blank character is closed there. -/
theorem quotedBody?_eq {quote : Char} {body : List Char} {width : Nat} (hw' : w' ≠ quote)
    (h : quotedBody? quote (cs ++ w :: rest) = some (body, width)) (hwidth : width ≤ cs.length) :
    quotedBody? quote (cs ++ w' :: rest') = some (body, width) := by
  have htake := quotedBody?_take h hwidth
  rw [List.take_left] at htake
  exact quotedBody?_append hw' htake

/-- A string that ends before a blank character does not depend on it. -/
theorem string_append (hw' : isBlank w') (h : (string (cs ++ w :: rest)).extra ≤ cs.length) :
    string (cs ++ w' :: rest') = string (cs ++ w :: rest) := by
  rw [string] at h
  split at h
  · rename_i body width hbody
    rw [string, quotedBody?_eq (ne_of_isBlank hw' (by decide)) hbody h, string, hbody]
  · simp only [ofError, List.length_append, List.length_cons] at h
    omega

/-- A name that ends before a blank character does not depend on it. -/
theorem quotedName_append {quote : Char} (hquote : isBlank quote = false) (hw' : isBlank w')
    (h : (quotedName quote (cs ++ w :: rest)).extra ≤ cs.length) :
    quotedName quote (cs ++ w' :: rest') = quotedName quote (cs ++ w :: rest) := by
  rw [quotedName] at h
  split at h
  · rename_i body width hbody
    rw [quotedName, quotedBody?_eq (ne_of_isBlank hw' hquote) hbody h, quotedName, hbody]
  · simp only [ofError, List.length_append, List.length_cons] at h
    omega

/-- A blob that ends before a blank character does not depend on it. -/
theorem blob_append (h : (blob (cs ++ w :: rest)).extra ≤ cs.length) :
    blob (cs ++ w' :: rest') = blob (cs ++ w :: rest) := by
  have htake := blob_take h
  rw [List.take_left] at htake
  rw [← htake] at h ⊢
  -- The closing quote stands in the common part, so what is behind that part is not looked at.
  have hclosed : (cs.takeWhile (· != '\'')).length ≠ cs.length := by
    intro hopen
    have hsame := congrArg Scan.extra htake
    rw [blob, if_pos hopen, blob] at hsame
    rw [List.takeWhile_append, if_pos hopen] at hsame
    split at hsame
    · simp [ofError] at hsame
    · simp only [ofError, List.length_append] at hsame
      omega
  have hbody : (cs ++ w' :: rest').takeWhile (· != '\'') = cs.takeWhile (· != '\'') := by
    rw [List.takeWhile_append, if_neg hclosed]
  have hlength : (cs.takeWhile (· != '\'')).length ≤ cs.length :=
    (List.takeWhile_prefix _).length_le
  rw [blob, hbody, if_neg, blob, if_neg hclosed]
  rw [List.length_append]
  omega

/-- A fraction ends in front of a blank character. -/
theorem fraction_append (hw : isBlank w) : fraction (cs ++ w :: rest) = fraction cs := by
  cases cs with
  | nil =>
    have hpoint := ne_of_isBlank hw (d := '.') (by decide)
    simp [fraction, hpoint]
  | cons d ds =>
    by_cases hd : d = '.'
    · subst hd
      exact takeWhile_append_cons (isDigit_eq_false_of_isBlank hw)
    · simp [fraction, hd]

/-- An exponent ends in front of a blank character. -/
theorem exponent?_append (hw : isBlank w) : exponent? (cs ++ w :: rest) = exponent? cs := by
  have hdigit := isDigit_eq_false_of_isBlank hw
  have hplus := ne_of_isBlank hw (d := '+') (by decide)
  have hminus := ne_of_isBlank hw (d := '-') (by decide)
  match cs with
  | [] =>
    have hlower := ne_of_isBlank hw (d := 'e') (by decide)
    have hupper := ne_of_isBlank hw (d := 'E') (by decide)
    cases rest with
    | nil => rfl
    | cons d ds => simp [exponent?, hlower, hupper]
  | [e] => simp [exponent?, hdigit, hplus, hminus]
  | e :: d :: ds =>
    have hdigits : (d :: (ds ++ w :: rest)).takeWhile Char.isDigit =
        (d :: ds).takeWhile Char.isDigit :=
      @takeWhile_append_cons w (d :: ds) rest Char.isDigit hdigit
    rw [List.cons_append, List.cons_append, exponent?_cons_cons, exponent?_cons_cons, hdigits,
      takeWhile_append_cons hdigit]

/-- What stands behind the first digits of a number ends in front of a blank character. -/
theorem mantissa_append (hw : isBlank w) : mantissa (cs ++ w :: rest) = mantissa cs := by
  have hdigits : (cs ++ w :: rest).takeWhile Char.isDigit = cs.takeWhile Char.isDigit :=
    takeWhile_append_cons (isDigit_eq_false_of_isBlank hw)
  have hlength : (cs.takeWhile Char.isDigit).length ≤ cs.length :=
    (List.takeWhile_prefix _).length_le
  rw [mantissa, hdigits, List.drop_append_of_le_length hlength, fraction_append hw, mantissa]

/-- What is taken of a number is there. -/
theorem width_mantissa_le (cs : List Char) : (mantissa cs).width ≤ cs.length := by
  have hwhole : (cs.takeWhile Char.isDigit).length ≤ cs.length :=
    (List.takeWhile_prefix _).length_le
  simp only [mantissa]
  split
  · exact hwhole
  · rename_i hplaces
    obtain ⟨ds, hpoint⟩ := eq_cons_of_fraction (mt List.isEmpty_iff.2 hplaces)
    have hdrop := congrArg List.length hpoint
    rw [List.length_drop, List.length_cons] at hdrop
    have hdigits : (ds.takeWhile Char.isDigit).length ≤ ds.length :=
      (List.takeWhile_prefix _).length_le
    rw [hpoint, fraction]
    omega

/-- A number ends in front of a blank character. -/
theorem number_append (hw : isBlank w) : number c (cs ++ w :: rest) = number c cs := by
  rw [number, mantissa_append hw, List.drop_append_of_le_length (width_mantissa_le cs),
    exponent?_append hw, number]

/-- A symbol ends in front of a blank character. -/
theorem symbol?_append (hw : isBlank w) : symbol? c (cs ++ w :: rest) = symbol? c cs := by
  cases cs with
  | cons d ds => rfl
  | nil =>
    have hlonger : (double c).1.lookup w = none := by
      have hne (d : Char) (hd : isBlank d = false) : (w == d) = false :=
        beq_false_of_ne (ne_of_isBlank hw hd)
      unfold double
      split <;> simp [List.lookup_cons, hne ':' (by decide), hne '|' (by decide),
        hne '=' (by decide), hne '>' (by decide), hne '<' (by decide)]
    simp [symbol?, hlonger]

end Scan

/-- **A token in front of a blank character does not depend on which one it is**, nor on what
stands behind it. -/
theorem scan_append (hw : isBlank w) (hw' : isBlank w')
    (h : (scan c (cs ++ w :: rest)).extra ≤ cs.length) :
    scan c (cs ++ w' :: rest') = scan c (cs ++ w :: rest) := by
  have hsymbol : Scan.symbol? c (cs ++ w' :: rest') = Scan.symbol? c (cs ++ w :: rest) := by
    rw [Scan.symbol?_append hw', Scan.symbol?_append hw]
  have hquote {v : Char} (hv : isBlank v) : v ≠ '\'' := ne_of_isBlank hv (by decide)
  refine scan_congr hsymbol ?_ ?_ ?_ ?_ ?_ ?_ ?_
  · exact fun _ ↦ by rw [Scan.parameter_append hw', Scan.parameter_append hw]
  · exact fun hscan ↦ Scan.string_append hw' (hscan ▸ h)
  · intro hname hscan
    have hblank : isBlank c = false := by
      rcases hname with rfl | rfl <;> decide
    exact Scan.quotedName_append hblank hw' (hscan ▸ h)
  · intro es hes hscan
    rw [hscan] at h
    cases cs with
    | nil => exact absurd (List.cons.inj hes).1 (hquote hw)
    | cons d cs =>
      obtain ⟨rfl, rfl⟩ := List.cons.inj hes
      exact ⟨_, List.cons_append, Scan.blob_append (Nat.le_of_succ_le_succ h)⟩
  · cases cs with
    | nil => exact fun hhead ↦ absurd (Option.some.inj hhead) (hquote hw')
    | cons d cs => exact id
  · exact fun _ ↦ by rw [Scan.number_append hw', Scan.number_append hw]
  · exact fun _ ↦ by rw [Scan.word_append hw', Scan.word_append hw]

/-! ### All tokens of a text -/

namespace Lexer

/-- White space in front of a token is skipped. -/
theorem read?_cons_of_isBlank {offset : Nat} {finished : Bool} (hw : isBlank w) :
    (⟨w :: cs, offset, finished⟩ : Lexer).read? =
      (⟨cs, offset + w.utf8Size, finished⟩ : Lexer).read? := by
  simp only [read?, Trivia.length_cons_of_isBlank hw, List.drop_succ_cons, List.take_succ_cons,
    byteLength_cons, Nat.add_assoc]

/-- A blank character in front of a text moves its tokens. -/
theorem tokens_cons_of_isBlank {offset : Nat} {finished : Bool} (hw : isBlank w) :
    (⟨w :: cs, offset, finished⟩ : Lexer).tokens =
      (⟨cs, offset + w.utf8Size, finished⟩ : Lexer).tokens := by
  rw [tokens_eq, read?_cons_of_isBlank hw, tokens_eq]
  simp only [byteLength_cons, Nat.add_assoc]

/-- Blank characters in front of a text move its tokens. -/
theorem tokens_append_of_isBlank {blanks : List Char} {offset : Nat} {finished : Bool}
    (h : ∀ b ∈ blanks, isBlank b) :
    (⟨blanks ++ cs, offset, finished⟩ : Lexer).tokens =
      (⟨cs, offset + byteLength blanks, finished⟩ : Lexer).tokens := by
  induction blanks generalizing offset with
  | nil => rfl
  | cons b blanks ih =>
    obtain ⟨hb, hblanks⟩ := List.forall_mem_cons.1 h
    rw [List.cons_append, tokens_cons_of_isBlank hb, ih hblanks, byteLength_cons, Nat.add_assoc]

/-- A token in front of a blank character is read the same in front of any other. -/
theorem read?_behind_blank {lexer after : Lexer} {token : Token} {more : List Char}
    (h : lexer.read? = some (token, after)) (hahead : after.ahead = more ++ w :: rest)
    (hw : isBlank w) (hw' : isBlank w') : ∃ text, lexer.ahead = text ++ after.ahead ∧
      ({ lexer with ahead := text ++ (more ++ w' :: rest') } : Lexer).read? =
        some (token, { after with ahead := more ++ w' :: rest' }) := by
  obtain ⟨ahead, offset, finished⟩ := lexer
  obtain ⟨gap, c, cs, hsplit, hgap⟩ := exists_of_read? h
  simp only at hsplit
  subst hsplit
  rw [read?_eq_some hgap] at h
  cases h
  obtain ⟨front, hfront⟩ : ∃ front, cs.take (scan c cs).extra = front := ⟨_, rfl⟩
  have hcs : cs = front ++ more ++ w :: rest := by
    rw [List.append_assoc, ← hahead, ← hfront, List.take_append_drop]
  have hextra : (scan c cs).extra = front.length := by
    have hle : (scan c cs).extra ≤ cs.length := by
      have hlength := congrArg List.length hahead
      simp only [List.length_drop, List.length_append, List.length_cons] at hlength
      omega
    rw [← hfront, List.length_take, Nat.min_eq_left hle]
  -- The token ends before the blank character, which may then be any other.
  have hscan : scan c (front ++ more ++ w' :: rest') = scan c cs := by
    rw [hcs] at hextra ⊢
    refine scan_append hw hw' ?_
    rw [hextra, List.length_append]
    exact Nat.le_add_right _ _
  have hgap' : Trivia.length (gap ++ c :: (front ++ more ++ w' :: rest')) = gap.length :=
    Trivia.length_behind_blank (hcs ▸ hgap) hw'
  refine ⟨gap ++ c :: front, ?_, ?_⟩
  · show gap ++ c :: cs = gap ++ c :: front ++ cs.drop (scan c cs).extra
    rw [List.append_assoc, List.cons_append, ← hfront, List.take_append_drop]
  · have hread := @read?_eq_some gap _ c offset finished hgap'
    rw [hscan, hextra, List.append_assoc, List.take_left, List.drop_left] at hread
    rw [hfront, List.append_assoc, List.cons_append]
    exact hread

/-- **Tokens in front of a blank character do not depend on which one it is**, nor on what stands
behind it. -/
theorem Reads.exists_behind_blank {lexer after : Lexer} {ts : List Token}
    (h : Reads lexer ts after) (hahead : after.ahead = w :: rest) (hw : isBlank w)
    (hw' : isBlank w') : ∃ text, lexer.ahead = text ++ after.ahead ∧
      Reads { lexer with ahead := text ++ w' :: rest' } ts
        { after with ahead := w' :: rest' } := by
  induction h with
  | nil lexer => exact ⟨[], rfl, .nil _⟩
  | @cons lexer mid after token ts hread _ ih =>
    obtain ⟨more, hmore, hreads⟩ := ih hahead
    rw [hahead] at hmore
    obtain ⟨text, htext, hread'⟩ := read?_behind_blank hread hmore hw hw'
    refine ⟨text ++ more, ?_, ?_⟩
    · rw [htext, hmore, hahead, List.append_assoc]
    · rw [List.append_assoc]
      exact .cons hread' hreads

end Lexer

end SqlBatch
