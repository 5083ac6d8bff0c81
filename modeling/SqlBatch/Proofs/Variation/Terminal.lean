import SqlBatch.Proofs.Variation

/-!
# Terminals tell names and values apart

A token that differs carries a name or a value, so it is neither a word nor a symbol: rules that
read these are silent, in both readings alike. A name and a size tell the readings apart, for what
they answer with is what the token carries.

## Names with a dot

Settings and dotted names are answered as one text, `a.b`. Joined texts do not determine their parts
in general, yet here only one of the parts differs, and one is then determined by the other and the
text (`Apart.joined`, `Apart.extended`).
-/

namespace SqlBatch

/-- A token that varies stands for a name only if it is an identifier. -/
theorem Token.Kind.Varies.name?_cases {t u : Token} (h : t.kind.Varies u.kind) :
    t.name? = none ∨ ∃ a b, t.name? = some a ∧ u.name? = some b ∧ a ≠ b := by
  rw [Token.name?, Token.name?]
  generalize t.kind = k at h
  generalize u.kind = l at h
  cases h with
  | identifier hne => exact .inr ⟨_, _, rfl, rfl, hne⟩
  | _ => exact .inl rfl

namespace Variation

variable {V : Variation}

/-! ### Words and symbols -/

/-- Moving past another token does not pass the one that differs. -/
theorem not_passes_advance {c : Cursor} (h : c.position ≠ V.index) : ¬ V.Passes c c.advance := by
  intro hpasses
  have hle : c.position < V.index := Nat.lt_of_le_of_ne hpasses.1 h
  have hlt := hpasses.2
  by_cases hopen : c.current.isOpen
  · rw [Cursor.position_advance_of_isOpen hopen] at hlt
    omega
  · rw [Cursor.advance_of_not_isOpen hopen] at hlt
    omega

namespace Lockstep

variable {c d : Cursor}

/-- At a symbol, the token that differs is elsewhere. -/
theorem ne_of_isSymbol {symbol : Symbol} (h : V.Lockstep c d) (hc : c.current.isSymbol symbol) :
    c.position ≠ V.index := by
  rcases h.current_cases with ⟨hne, -⟩ | ⟨-, hvaries⟩
  · exact hne
  · rw [hvaries.isSymbol_eq_false] at hc
    cases hc

/-- At a keyword, the token that differs is elsewhere. -/
theorem ne_of_isKeyword {keyword : Keyword} (h : V.Lockstep c d)
    (hc : c.current.isKeyword keyword) : c.position ≠ V.index := by
  rcases h.current_cases with ⟨hne, -⟩ | ⟨-, hvaries⟩
  · exact hne
  · rw [hvaries.isKeyword_eq_false] at hc
    cases hc

/-- Moving past another token, or not, passes nothing that differs. -/
theorem advance_if {found : Bool} (h : V.Lockstep c d) (hne : found → c.position ≠ V.index) :
    V.Lockstep (if found then c.advance else c) (if found then d.advance else d) ∧
      ¬ V.Passes c (if found then c.advance else c) := by
  cases found with
  | false => exact ⟨h, not_passes_self c⟩
  | true => exact ⟨h.advance, not_passes_advance (hne rfl)⟩

/-- A symbol that may be there is there in both readings or in neither. -/
theorem accept {symbol : Symbol} {c' d' : Cursor} {found found' : Bool} (h : V.Lockstep c d)
    (hrun : (Rule.accept symbol).run c = .done found c')
    (hrun' : (Rule.accept symbol).run d = .done found' d') :
    V.Lockstep c' d' ∧ found = found' ∧ ¬ V.Passes c c' := by
  rw [Rule.run_accept] at hrun hrun'
  rw [h.current.isSymbol] at hrun'
  cases hrun
  cases hrun'
  obtain ⟨hadvance, hpasses⟩ := h.advance_if h.ne_of_isSymbol
  exact ⟨hadvance, rfl, hpasses⟩

end Lockstep

namespace Tells

theorem sees (symbol : Symbol) : V.Silent (.sees symbol) :=
  .bind_current fun _ _ htu ↦ .pure (htu.isSymbol symbol).symm fun _ ↦ trivial

theorem seesKeyword (keyword : Keyword) : V.Silent (.seesKeyword keyword) :=
  .bind_current fun _ _ htu ↦ .pure (htu.isKeyword keyword).symm fun _ ↦ trivial

/-- A symbol that may be there is silent. -/
theorem accept (symbol : Symbol) : V.Silent (.accept symbol) := by
  intro c d a b c' d' hcd _ hrun hrun'
  obtain ⟨hcd', hab, hpasses⟩ := hcd.accept hrun hrun'
  exact ⟨hcd', hab, fun _ ↦ ⟨trivial, fun h ↦ (hpasses h).elim⟩⟩

/-- Going on behind a symbol that may be there; if it is not, nothing is passed. -/
theorem bind_accept {β : Type} {A : Nat → Prop} {D F : β → β → Prop} {P : Prop} {symbol : Symbol}
    {k l : Bool → Rule β} (htrue : V.Tells (fun _ ↦ True) D F P (k true) (l true))
    (hfalse : V.Tells A D F P (k false) (l false)) :
    V.Tells A D F P (Rule.accept symbol >>= k) (Rule.accept symbol >>= l) := by
  intro c d a b c' d' hcd hA hrun hrun'
  obtain ⟨found, mid, hfound, hrest⟩ := Rule.exists_of_run_bind hrun
  obtain ⟨found', mid', hfound', hrest'⟩ := Rule.exists_of_run_bind hrun'
  obtain ⟨hmid, rfl, hpasses⟩ := hcd.accept hfound hfound'
  cases found with
  | true =>
    obtain ⟨hcd', hD, hF⟩ := htrue hmid trivial hrest hrest'
    exact ⟨hcd', hD, fun hab ↦ ⟨(hF hab).1, fun h ↦
      (hF hab).2 (h.trans_cases.resolve_left hpasses)⟩⟩
  | false =>
    rw [Rule.run_accept] at hfound
    cases hsees : c.current.isSymbol symbol with
    | true =>
      rw [hsees] at hfound
      cases hfound
    | false =>
      rw [hsees] at hfound
      cases hfound
      exact hfalse hmid hA hrest hrest'

/-- A keyword that may be there is silent. -/
theorem acceptKeyword (keyword : Keyword) : V.Silent (.acceptKeyword keyword) := by
  intro c d a b c' d' hcd _ hrun hrun'
  rw [Rule.run_acceptKeyword] at hrun hrun'
  rw [hcd.current.isKeyword] at hrun'
  cases hrun
  cases hrun'
  obtain ⟨hadvance, hpasses⟩ := hcd.advance_if hcd.ne_of_isKeyword
  exact ⟨hadvance, rfl, fun _ ↦ ⟨trivial, fun h ↦ (hpasses h).elim⟩⟩

/-- A constant answer is silent. -/
theorem silent {α : Type} (a : α) : V.Silent (pure a) :=
  .pure rfl fun _ ↦ trivial

/-- A symbol is silent. -/
theorem symbol (symbol : Symbol) : V.Silent (.symbol symbol) := by
  refine (accept symbol).bind_silent fun found ↦ .ite (silent ()) ?_
  refine .bind_current fun _ _ _ ↦ ?_
  split <;> exact .fail

/-- A keyword is silent. -/
theorem keyword (keyword : Keyword) : V.Silent (.keyword keyword) :=
  (acceptKeyword keyword).bind_silent fun _ ↦ .ite (silent ()) .fail

/-! ### Names and sizes -/

/-- A name reveals the token: both readings answer with what it carries. -/
theorem identifier : V.Reveals id .identifier := by
  refine .bind_current_cases (fun t ↦ ?_) fun t u hvaries ↦ ?_
  · split
    · exact .advance_of_ne (.pure trivial fun _ ↦ trivial)
    · exact .fail
  · rcases hvaries.name?_cases with ht | ⟨a, b, ht, hu, hne⟩
    · rw [ht]
      exact .fail
    · rw [ht, hu]
      exact .advance_of_eq (.pure trivial hne)

/-- Two sizes within a limit. -/
def Within (limit a b : Nat) : Prop :=
  a ≤ limit ∧ b ≤ limit

/-- A size reveals the token, and stays within its limit in both readings. -/
theorem size (limit : Nat) :
    V.Tells (fun _ ↦ True) (Within limit) (Same id) True (.size limit) (.size limit) := by
  refine .bind_current_cases (fun t ↦ ?_) fun t u hvaries ↦ ?_
  · split
    · split
      · rename_i hle
        exact .advance_of_ne (.pure ⟨hle, hle⟩ fun _ ↦ trivial)
      · exact .fail
    · exact .fail
  · generalize t.kind = k at hvaries
    generalize u.kind = l at hvaries
    cases hvaries with
    | @integer a b hne =>
      by_cases ha : a ≤ limit
      · by_cases hb : b ≤ limit
        · simp only [ha, hb, if_true]
          exact .advance_of_eq (.pure ⟨ha, hb⟩ hne)
        · simp only [hb, if_false]
          exact .fail_right
      · simp only [ha, if_false]
        exact .fail
    | _ => exact .fail

/-! ### Clauses and lists -/

variable {α γ : Type} {f : α → γ} {r : Rule α}

/-- A value that is always there. -/
protected theorem some (h : V.Reveals f r) : V.Reveals? f (Option.some <$> r) :=
  h.map (fun _ _ hab ↦ .some hab) fun _ _ _ heq ↦ ⟨trivial, Option.some.inj heq⟩

/-- A clause is there in both readings or in neither, and reveals what its rule does. -/
theorem clause (keyword : Keyword) (h : V.Reveals f r) :
    V.Reveals? f (.clause keyword r) :=
  (acceptKeyword keyword).bind_silent fun _ ↦ .ite h.some (.pure .none fun _ ↦ trivial)

/-- A clause with a list; a missing one reads as the empty list. -/
theorem listClause (keyword : Keyword) {r : Rule (List α)} (h : V.Reveals (List.map f) r) :
    V.Reveals (List.map f) (.listClause keyword r) := by
  refine (clause keyword h).bind fun as bs hboth ↦ .pure trivial fun heq ↦ ⟨trivial, ?_⟩
  cases hboth with
  | none => rfl
  | some _ => exact congrArg Option.some heq

/-- As many items are read in both readings, and each of them reveals what it does. -/
theorem many {r : Rule (Option α)} (h : V.Reveals? f r) : V.Reveals (List.map f) (.many r) := by
  have hround (as bs : List α) (_ : Any as bs) : V.Tells (fun _ ↦ True) (Both Any)
      (fun xs ys ↦ Same (List.map f) (xs.getD as) (ys.getD bs)) (Same (List.map f) as bs)
      (Option.map (· :: as) <$> r) (Option.map (· :: bs) <$> r) := by
    refine h.map (fun x y hboth ↦ ?_) fun x y hboth heq ↦ ?_
    · cases hboth with
      | none => exact .none
      | some _ => exact .some trivial
    · cases hboth with
      | none => exact ⟨heq, rfl⟩
      | some _ =>
        obtain ⟨hitem, hitems⟩ := List.cons.inj heq
        exact ⟨hitems, congrArg Option.some hitem⟩
  have hitems : V.Reveals (List.map f) (.iterate (fun as ↦ Option.map (· :: as) <$> r) []) :=
    (Tells.iterate hround trivial).mono fun _ ↦ trivial
  refine hitems.map (fun _ _ _ ↦ trivial) fun as bs _ heq ↦ ⟨trivial, ?_⟩
  exact List.reverse_inj.1 (by rwa [← List.map_reverse, ← List.map_reverse])

theorem another (h : V.Reveals f r) : V.Reveals? f (.another r) :=
  (accept .comma).bind_silent fun _ ↦ .ite h.some (.pure .none fun _ ↦ trivial)

/-- A list with commas reveals what its items do. -/
theorem commaSeparated (h : V.Reveals f r) :
    V.Reveals (List.map f) (.commaSeparated r) := by
  refine h.bind_any fun a b ↦ (many (another h)).bind_any fun as bs ↦ .pure trivial fun heq ↦ ?_
  obtain ⟨hfirst, hothers⟩ := List.cons.inj heq
  exact ⟨⟨trivial, hfirst⟩, hothers⟩

/-- Parentheses are silent around what they hold. -/
theorem parenthesized {C E : α → α → Prop} {s : Rule α}
    (h : V.Tells (fun _ ↦ True) C E True r s) :
    V.Tells (fun _ ↦ True) C E True (.parenthesized r) (.parenthesized s) := by
  refine (symbol .leftParen).bind_silent fun _ ↦ h.bind fun a b hab ↦ ?_
  exact (symbol .rightParen).bind_silent fun _ ↦ .pure hab fun heq ↦ ⟨trivial, heq⟩

/-! ### Compound names -/

theorem identifiers : V.Reveals (List.map id) .identifiers :=
  commaSeparated identifier

/-- Either the names are the same, or the token in which the lists differ is passed. -/
def Apart (V : Variation) (c : Cursor) (a b : String) (c' : Cursor) : Prop :=
  a = b ∧ ¬ V.Passes c c' ∨ a ≠ b ∧ V.Passes c c'

/-- The parts that two names contribute to a joined text. -/
theorem apart_of_identifier {c d c' d' : Cursor} {a b : String} (hcd : V.Lockstep c d)
    (hrun : Rule.identifier.run c = .done a c') (hrun' : Rule.identifier.run d = .done b d') :
    Apart V c a b c' := by
  obtain ⟨ha, rfl⟩ := Rule.of_run_identifier hrun
  obtain ⟨hb, rfl⟩ := Rule.of_run_identifier hrun'
  rcases hcd.current_cases with ⟨hne, heq⟩ | ⟨hindex, hvaries⟩
  · rw [heq, ha] at hb
    exact .inl ⟨Option.some.inj hb, not_passes_advance hne⟩
  · refine .inr ⟨?_, Nat.le_of_eq hindex, ?_⟩
    · rcases hvaries.name?_cases with hnone | ⟨a', b', ha', hb', hne⟩
      · rw [hnone] at ha
        cases ha
      · rw [ha'] at ha
        rw [hb'] at hb
        exact Option.some.inj ha ▸ Option.some.inj hb ▸ hne
    · rw [Cursor.position_advance_of_isOpen hvaries.isOpen, hindex]
      exact Nat.lt_succ_self _

/-- Joined names are told apart by the one part in which they differ: the token in which the lists
differ is passed once. -/
theorem Apart.joined {c mid c' : Cursor} {a b a' b' : String} (h : Apart V c a b mid)
    (h' : Apart V mid a' b' c') (hle : c.position ≤ mid.position)
    (hle' : mid.position ≤ c'.position) :
    Apart V c (a ++ "." ++ a') (b ++ "." ++ b') c' := by
  rcases h with ⟨rfl, hpasses⟩ | ⟨hne, hpasses⟩
  · rcases h' with ⟨rfl, hpasses'⟩ | ⟨hne', hpasses'⟩
    · exact .inl ⟨rfl, fun h ↦ h.trans_cases.elim hpasses hpasses'⟩
    · refine .inr ⟨fun heq ↦ hne' ((String.append_right_inj _).1 heq), ?_, hpasses'.2⟩
      exact Nat.le_trans hle hpasses'.1
  · rcases h' with ⟨rfl, -⟩ | ⟨-, hpasses'⟩
    · refine .inr ⟨fun heq ↦ hne ?_, hpasses.1, Nat.lt_of_lt_of_le hpasses.2 hle'⟩
      exact (String.append_left_inj _).1 ((String.append_left_inj _).1 heq)
    · exact absurd hpasses'.1 (Nat.not_le.2 hpasses.2)

/-- What stands behind the names without the token keeps them apart. -/
theorem Apart.extended {c mid c' : Cursor} {a b : String} (h : Apart V c a b mid)
    (hpasses : ¬ V.Passes mid c') (hle : mid.position ≤ c'.position) : Apart V c a b c' := by
  rcases h with ⟨heq, hnot⟩ | ⟨hne, hpassed⟩
  · exact .inl ⟨heq, fun h ↦ h.trans_cases.elim hnot hpasses⟩
  · exact .inr ⟨hne, hpassed.1, Nat.lt_of_lt_of_le hpassed.2 hle⟩

/-- The names that have been read since a cursor are told apart. -/
structure ApartSince (V : Variation) (c : Cursor) (a b : String) (mid : Cursor) : Prop where
  position_le : c.position ≤ mid.position
  apart : Apart V c a b mid

/-- A name with dots in it, although it is answered as a single text. -/
theorem dottedName : V.Reveals id .dottedName := by
  intro c d x y c' d' hcd _ hrun hrun'
  obtain ⟨a, mid, hfirst, hloop⟩ := Rule.exists_of_run_bind hrun
  obtain ⟨b, mid', hfirst', hloop'⟩ := Rule.exists_of_run_bind hrun'
  obtain ⟨hmid, -, -⟩ := identifier hcd trivial hfirst hfirst'
  -- The texts are apart since the first name, and each part keeps them so.
  have hstart : ApartSince V c a b mid :=
    ⟨(Rule.reaches_of_run hfirst).position_le, apart_of_identifier hcd hfirst hfirst'⟩
  obtain ⟨hcd', -, hapart⟩ : V.Lockstep c' d' ∧ ApartSince V c x y c' := by
    refine hmid.iterate (I := ApartSince V c) ?_ hstart hloop hloop'
    rintro a b c₁ d₁ z w c₂ d₂ hcd₁ ⟨hle, hapart⟩ hz hw
    obtain ⟨found, c₃, hdot, hz⟩ := Rule.exists_of_run_bind hz
    obtain ⟨found', d₃, hdot', hw⟩ := Rule.exists_of_run_bind hw
    obtain ⟨hcd₃, rfl, hpasses⟩ := hcd₁.accept hdot hdot'
    have hle₃ := (Rule.reaches_of_run hdot).position_le
    have hapart₃ := hapart.extended hpasses hle₃
    cases found with
    | false =>
      cases hz
      cases hw
      exact ⟨hcd₃, rfl, Nat.le_trans hle hle₃, hapart₃⟩
    | true =>
      obtain ⟨part, c₄, hpart, hz⟩ := Rule.exists_of_run_bind hz
      obtain ⟨part', d₄, hpart', hw⟩ := Rule.exists_of_run_bind hw
      cases hz
      cases hw
      obtain ⟨hcd₄, -, -⟩ := identifier hcd₃ trivial hpart hpart'
      have hle₄ := (Rule.reaches_of_run hpart).position_le
      exact ⟨hcd₄, rfl, Nat.le_trans hle (Nat.le_trans hle₃ hle₄),
        hapart₃.joined (apart_of_identifier hcd₃ hpart hpart') (Nat.le_trans hle hle₃) hle₄⟩
  refine ⟨hcd', trivial, fun heq ↦ ⟨trivial, fun hpasses ↦ ?_⟩⟩
  rcases hapart with ⟨-, hnot⟩ | ⟨hne, -⟩
  · exact (hnot hpasses).elim
  · exact (hne heq).elim

/-- A table with or without its schema. -/
theorem tableName : V.Reveals id .tableName := by
  refine identifier.bind_any fun a b ↦ (accept .dot).bind_silent fun _ ↦ .ite ?_ ?_
  · refine identifier.bind_any fun a' b' ↦ .pure trivial fun heq ↦ ?_
    cases heq
    exact ⟨⟨trivial, rfl⟩, rfl⟩
  · refine .pure trivial fun heq ↦ ?_
    cases heq
    exact ⟨trivial, rfl⟩

/-- A name given to an item, which may be left out. -/
theorem alias? : V.Reveals? id .alias? := by
  have rest (bare : Bool) : V.Reveals? id
      (do if (← Rule.acceptKeyword .AS) || bare then Option.some <$> Rule.identifier
          else return none) :=
    (acceptKeyword .AS).bind_silent fun _ ↦ .ite identifier.some (.pure .none fun _ ↦ trivial)
  refine .bind_current fun t u htu ↦ ?_
  rcases htu with rfl | hvaries
  · exact rest _
  · generalize t.kind = k at hvaries
    generalize u.kind = l at hvaries
    cases hvaries with
    | identifier => exact rest true
    | _ => exact rest false

end Tells

end Variation

end SqlBatch
