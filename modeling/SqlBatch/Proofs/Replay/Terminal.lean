import SqlBatch.Proofs.Replay
import SqlBatch.Proofs.Stages

/-!
# Terminals and lists replay

The rules for single tokens replay because they look at the current token alone and never tell a
semicolon from the end of the batch; the forms that clauses are built from replay whenever the rules
inside them do.

## Two symbols that are left out

No rule asks for a semicolon, and the one that reads a placeholder does not ask for a symbol, but
looks at the kind of the token. So the laws for symbols leave both out, and every use of them states
which symbol it is. A semicolon may stand in one list where the other has its end, and a `?` where
the other has a numbered parameter; any other symbol is in both lists or in neither.

## Failures

Where a token is missing, it is missing in both lists, and the failure is worded alike. The one case
with more to it is a bracket that is not closed, since its wording depends on whether the statement
ends there; but whether it does is the same in both lists, whatever ends it (`symbol`).
-/

namespace SqlBatch.Replay.Replays

variable {R : Replay} {α α' : Type} {φ : α → α'} {r : Rule α} {s : Rule α'}

/-! ### Terminals -/

/-- Both lists have the symbol, or neither has. -/
theorem sees {symbol : Symbol} (h : symbol ≠ .semicolon ∧ symbol ≠ .question) :
    R.Replays id (.sees symbol) (.sees symbol) := by
  refine bind_current fun t u htu ↦ ?_
  rw [htu.isSymbol h]
  exact .pure _

/-- Both lists have the keyword, or neither has. -/
theorem seesKeyword (keyword : Keyword) :
    R.Replays id (.seesKeyword keyword) (.seesKeyword keyword) := by
  refine bind_current fun t u htu ↦ ?_
  rw [htu.isKeyword]
  exact .pure _

/-- The symbol is passed in both lists or in neither. -/
theorem accept {symbol : Symbol} (h : symbol ≠ .semicolon ∧ symbol ≠ .question) :
    R.Replays id (.accept symbol) (.accept symbol) :=
  (sees h).bind_id fun _ ↦ .ite (advance.bind_id fun _ ↦ .pure _) (.pure _)

/-- The keyword is passed in both lists or in neither. -/
theorem acceptKeyword (keyword : Keyword) :
    R.Replays id (.acceptKeyword keyword) (.acceptKeyword keyword) :=
  (seesKeyword keyword).bind_id fun _ ↦ .ite (advance.bind_id fun _ ↦ .pure _) (.pure _)

/-- Where the symbol is missing, it is missing in both lists, and so is the closing bracket that the
statement ends in front of. -/
theorem symbol {symbol : Symbol} (h : symbol ≠ .semicolon ∧ symbol ≠ .question) :
    R.Replays id (.symbol symbol) (.symbol symbol) := by
  refine (accept h).bind_id fun _ ↦ .ite (.pure _) (bind_current fun t u htu ↦ ?_)
  rw [htu.endsStatement]
  exact .ite (.fail trivial) (.fail trivial)

/-- Where the keyword is missing, it is missing in both lists. -/
theorem keyword (keyword : Keyword) : R.Replays id (.keyword keyword) (.keyword keyword) :=
  (acceptKeyword keyword).bind_id fun _ ↦ .ite (.pure _) (.fail trivial)

/-- A name has no label, so it is the same in both readings. -/
theorem identifier : R.Replays id .identifier .identifier := by
  refine bind_current fun t u htu ↦ ?_
  rw [htu.name?]
  split
  · exact advance.bind_id fun _ ↦ .pure _
  · exact .fail trivial

/-- A number for a size has no label either. -/
theorem size (limit : Nat) : R.Replays id (.size limit) (.size limit) := by
  refine bind_current fun t u htu ↦ ?_
  rcases htu.eq_or_kind with rfl | ⟨ht, n, hu⟩ | ⟨ht | ht, hu | hu⟩
  · rw [token_kind]
    split
    · exact .ite (advance.bind_id fun _ ↦ .pure _) (.fail trivial)
    · exact .fail trivial
  all_goals
    simp only [ht, hu]
    exact .fail trivial

/-! ### Clauses and lists -/

/-- The keyword is there in both lists or in neither; then the body replays. -/
theorem clause (keyword : Keyword) (h : R.Replays φ r s) :
    R.Replays (Option.map φ) (.clause keyword r) (.clause keyword s) :=
  (acceptKeyword keyword).bind_id fun _ ↦ .ite h.some (.pure none)

/-- Without the keyword both lists are empty. -/
theorem listClause (keyword : Keyword) {r : Rule (List α)} {s : Rule (List α')}
    (h : R.Replays (List.map φ) r s) :
    R.Replays (List.map φ) (.listClause keyword r) (.listClause keyword s) := by
  refine (clause keyword h).bind fun items ↦ ?_
  cases items with
  | none => exact .pure []
  | some items => exact .pure items

/-- As many items are read from both lists. -/
theorem many {r : Rule (Option α)} {s : Rule (Option α')} (h : R.Replays (Option.map φ) r s) :
    R.Replays (List.map φ) (.many r) (.many s) := by
  have step (items : List α) : R.Replays (Option.map (List.map φ))
      (Option.map (· :: items) <$> r) (Option.map (· :: items.map φ) <$> s) :=
    h.map fun item ↦ by cases item <;> rfl
  have repeated : R.Replays (List.map φ) (.iterate (fun items ↦ Option.map (· :: items) <$> r) [])
      (.iterate (fun items ↦ Option.map (· :: items) <$> s) []) :=
    iterate step []
  exact repeated.map fun _ ↦ List.map_reverse.symm

/-- A comma is there in both lists or in neither. -/
theorem another (h : R.Replays φ r s) :
    R.Replays (Option.map φ) (.another r) (.another s) :=
  (accept (by decide)).bind_id fun _ ↦ .ite h.some (.pure none)

/-- The first item and the others, whose labels change one by one. -/
theorem commaSeparated (h : R.Replays φ r s) :
    R.Replays (List.map φ) (.commaSeparated r) (.commaSeparated s) :=
  h.bind fun first ↦ (many (another h)).bind fun others ↦ .pure (first :: others)

/-- What is enclosed replays between corresponding parentheses. -/
theorem parenthesized (h : R.Replays φ r s) :
    R.Replays φ (.parenthesized r) (.parenthesized s) := by
  refine (symbol (by decide)).bind_id fun _ ↦ h.bind fun value ↦ ?_
  exact (symbol (by decide)).bind_id fun _ ↦ .pure value

theorem identifiers : R.Replays id .identifiers .identifiers := by
  have h : R.Replays (List.map id) .identifiers .identifiers := commaSeparated identifier
  rwa [List.map_id_fun] at h

/-- As many parts of a name are read from both lists. -/
theorem dottedName : R.Replays id .dottedName .dottedName := by
  refine identifier.bind_id fun first ↦ iterate (fun name ↦ ?_) first
  refine (accept (by decide)).bind_id fun _ ↦ .ite ?_ (.pure none)
  exact identifier.bind_id fun _ ↦ .pure (some _)

/-- With a schema in both lists or in neither. -/
theorem tableName : R.Replays id .tableName .tableName := by
  refine identifier.bind_id fun first ↦ (accept (by decide)).bind_id fun _ ↦ .ite ?_ (.pure _)
  exact identifier.bind_id fun name ↦ .pure _

theorem tableNames : R.Replays id (.commaSeparated .tableName) (.commaSeparated .tableName) := by
  have h := commaSeparated (tableName (R := R))
  rwa [List.map_id_fun] at h

/-- A bare name is a token with a name, so it is the same in both lists. -/
theorem alias? : R.Replays id .alias? .alias? := by
  have rest (bare : Bool) : R.Replays id
      (do if (← Rule.acceptKeyword .AS) || bare then some <$> Rule.identifier else return none)
      (do if (← Rule.acceptKeyword .AS) || bare then some <$> Rule.identifier else return none) :=
    (acceptKeyword .AS).bind_id fun _ ↦ .ite (identifier.map fun _ ↦ rfl) (.pure none)
  refine bind_current fun t u htu ↦ ?_
  rcases htu.eq_or_kind with rfl | ⟨ht, n, hu⟩ | ⟨ht | ht, hu | hu⟩
  · exact rest _
  all_goals
    simp only [ht, hu]
    exact rest false

end SqlBatch.Replay.Replays
