import SqlBatch.Proofs.Completion
import SqlBatch.Proofs.Reading

/-!
# Reading lists and brackets

What rules for lists and bracketed forms read of tokens of known kinds, given what the rules for
their items read. `Cursor.Passes` says which kinds the tokens between two cursors have; tokens of a
list of kinds are passed in the order of the list (`Cursor.passes_append`).

## Lists

A list is read item by item (`Repeats`), by induction on the items: each moves the cursor on, and
behind the last one the item's rule finds none. Whether commas stand between the items is a matter
of what one round is (`run_many`, `run_commaSeparated`).

What is read is said of cursors and not of lists of tokens, so that the laws chain: the cursor
behind one part is the one in front of the next.
-/

namespace SqlBatch

/-! ### Tokens between two cursors -/

namespace Cursor

/-- The tokens between two cursors have the given kinds, and a statement may go past them. -/
def Passes : Cursor → List Token.Kind → Cursor → Prop
  | c, [], d => c = d
  | c, kind :: kinds, d => c.current.kind = kind ∧ c.current.isOpen ∧ c.advance.Passes kinds d

variable {c d : Cursor} {kinds kinds' : List Token.Kind}

/-- Passing kinds in sequence is passing each part, with a cursor in between. -/
theorem passes_append :
    c.Passes (kinds ++ kinds') d ↔ ∃ mid, c.Passes kinds mid ∧ mid.Passes kinds' d := by
  induction kinds generalizing c with
  | nil => exact ⟨fun h ↦ ⟨c, rfl, h⟩, fun ⟨_, hmid, h⟩ ↦ hmid ▸ h⟩
  | cons kind kinds ih =>
    rw [List.cons_append, Passes, ih]
    constructor
    · rintro ⟨hkind, hopen, mid, hmid, h⟩
      exact ⟨mid, ⟨hkind, hopen, hmid⟩, h⟩
    · rintro ⟨mid, ⟨hkind, hopen, hmid⟩, h⟩
      exact ⟨hkind, hopen, mid, hmid, h⟩

/-- As many tokens are passed as there are kinds. -/
theorem Passes.position_eq (h : c.Passes kinds d) : d.position = c.position + kinds.length := by
  induction kinds generalizing c with
  | nil =>
    obtain rfl : c = d := h
    rfl
  | cons kind kinds ih =>
    obtain ⟨-, hopen, h⟩ := h
    rw [ih h, position_advance_of_isOpen hopen, List.length_cons]
    omega

/-- Tokens that a statement may go past are passed. -/
theorem exists_passes {tokens behind : List Token} (hahead : c.ahead = tokens ++ behind)
    (hopen : ∀ kind ∈ tokens.map (·.kind), kind.isOpen) :
    ∃ d, c.Passes (tokens.map (·.kind)) d ∧ d.ahead = behind := by
  induction tokens generalizing c with
  | nil => exact ⟨c, rfl, hahead⟩
  | cons token tokens ih =>
    obtain ⟨htoken, htokens⟩ := List.forall_mem_cons.1 hopen
    rw [← Token.isOpen_eq] at htoken
    have hcurrent := Completion.current_eq_of_ahead hahead
    obtain ⟨d, hpasses, hbehind⟩ := ih (Completion.ahead_advance hahead htoken) htokens
    exact ⟨d, ⟨by rw [hcurrent], hcurrent ▸ htoken, hpasses⟩, hbehind⟩

end Cursor

/-! ### Lists and brackets -/

namespace Rule

variable {α β : Type} {c d mid after : Cursor}

/-- What a rule reads again and again, up to where it reads nothing. -/
inductive Repeats (item : Rule (Option α)) : Cursor → List α → Cursor → Prop
  | nil {c d : Cursor} : item.run c = .done none d → Repeats item c [] d
  | cons {c mid d : Cursor} {a : α} {as : List α} : item.run c = .done (some a) mid →
    c.position < mid.position → Repeats item mid as d → Repeats item c (a :: as) d

/-- Items without commas, up to where none follows. -/
theorem run_many {item : Rule (Option α)} {as : List α} (h : Repeats item c as d) :
    (many item).run c = .done as d := by
  have hiterate (front : List α) :
      (iterate (fun items ↦ Option.map (· :: items) <$> item) front).run c =
        .done (as.reverse ++ front) d := by
    induction h generalizing front with
    | nil hrun => exact run_iterate_of_none (run_map_of_done hrun)
    | cons hrun hlt _ ih =>
      rw [run_iterate_of_some (run_map_of_done hrun) hlt, ih, List.reverse_cons,
        List.append_assoc]
      rfl
  rw [many, run_map_of_done (hiterate []), List.append_nil, List.reverse_reverse]

/-- One more item of a list, behind a comma. -/
theorem run_commaSeparated {item : Rule α} {a : α} {as : List α}
    (h : item.run c = .done a mid)
    (hmore : Repeats (another item) mid as d) :
    (commaSeparated item).run c = .done (a :: as) d := by
  rw [commaSeparated_eq, run_bind_of_done h, run_bind_of_done (run_many hmore)]
  rfl

/-- What stands in parentheses. -/
theorem run_parenthesized {r : Rule α} {a : α} (hopen : c.current.isSymbol .leftParen)
    (h : r.run c.advance = .done a mid) (hclose : mid.current.isSymbol .rightParen) :
    (parenthesized r).run c = .done a mid.advance := by
  rw [parenthesized, run_bind_of_done (run_symbol hopen), run_bind_of_done h,
    run_bind_of_done (run_symbol hclose)]
  rfl

/-- A clause whose keyword is there. -/
theorem run_clause_eq_some {keyword : Keyword} {r : Rule α} {a : α}
    (hkeyword : c.current.isKeyword keyword) (h : r.run c.advance = .done a d) :
    (clause keyword r).run c = .done (some a) d := by
  rw [clause, run_bind_of_done (run_acceptKeyword_eq_true hkeyword), if_pos rfl]
  exact run_map_of_done h

end Rule

end SqlBatch
