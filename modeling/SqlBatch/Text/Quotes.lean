/-!
# Quotes inside quotes

A text in quotes ends at the first quote that is not followed by another one. So a quote that
belongs to its contents is written twice: in a string between apostrophes as in a name between
double quotes. `doubled` writes contents that way, for any quote.

The equations follow the contents character by character, as the reader of quoted text does. A text
without the quote in it is written as it is (`doubled_of_not_mem`).
-/

namespace SqlBatch

/-- The contents of a quoted text as they are to be written: with every quote twice. -/
def doubled (quote : Char) (body : List Char) : List Char :=
  body.flatMap fun c ↦ if c = quote then [quote, quote] else [c]

variable {quote c : Char} {body : List Char}

/-- A quote is written twice. -/
theorem doubled_cons_self :
    doubled quote (quote :: body) = quote :: quote :: doubled quote body := by
  rw [doubled, List.flatMap_cons, if_pos rfl]
  rfl

/-- Any other character is written once. -/
theorem doubled_cons_of_ne (h : c ≠ quote) :
    doubled quote (c :: body) = c :: doubled quote body := by
  rw [doubled, List.flatMap_cons, if_neg h]
  rfl

/-- Contents without quotes are written as they are. -/
theorem doubled_of_not_mem (h : quote ∉ body) : doubled quote body = body := by
  induction body with
  | nil => rfl
  | cons c body ih =>
    obtain ⟨hc, hbody⟩ := not_or.1 (mt List.mem_cons.2 h)
    rw [doubled_cons_of_ne (Ne.symm hc), ih hbody]

end SqlBatch
