import SqlBatch.Proofs.Yields

/-!
# Reading a statement with another name or value in it

Two lists of tokens differ in one token alone, and there only in the name or the value that the
token carries. No rule looks at names and values to decide what to read next, so both readings take
the same course (`Variation.Lockstep`). What they answer with differs wherever the token is part of
what is kept of the statement: `Variation.Tells` is the two-run statement of that.

## What a rule owes

A rule that goes on behind a value owes it: what the whole answers with has to determine the value.
So `Tells` carries a proposition that has to follow from equal answers, and a sequence adds to it
that the answers of its first part are equal. The special forms, by what is compared:

* `Reveals f`: answers that are the same for `f` mean that the token was not passed. This is what is
  proved of every construct of the grammar, with `f` forgetting the places of the source.
* `Keeps f P`: the same behind values that were read before and are owed as `P`.
* `Silent`: both readings answer with the same and never pass the token. Words and symbols are
  silent, for a token that carries a name or a value is none.

## Loss

A clause that can be given twice replaces the earlier one, and the names in that one are in no tree.
So every conclusion allows for `lost`, which a variation brings with it; the reasons for a loss are
stated in `SqlBatch.Proofs.Variation.Replacement`.
-/

namespace SqlBatch

/-- Two kinds of tokens of one sort that carry different names or values. -/
inductive Token.Kind.Varies : Token.Kind → Token.Kind → Prop where
  | integer {a b : Nat} : a ≠ b → Varies (.integer a) (.integer b)
  | float {a b : Binary64} : a ≠ b → Varies (.float a) (.float b)
  | numeric {a b : String} : a ≠ b → Varies (.numeric a) (.numeric b)
  | string {a b : String} : a ≠ b → Varies (.string a) (.string b)
  | blob {a b : List UInt8} : a ≠ b → Varies (.blob a) (.blob b)
  | identifier {a b : String} : a ≠ b → Varies (.identifier a) (.identifier b)
  | parameter {a b : UInt32} : a ≠ b → Varies (.parameter a) (.parameter b)

/-- The lists have the same tokens except at an index, and there tokens of one sort that carry
different names or values. -/
structure DifferAt (index : Nat) (ts us : List Token) : Prop where
  elsewhere : ∀ j, j ≠ index → us[j]? = ts[j]?
  varies : ∃ t u, ts[index]? = some t ∧ us[index]? = some u ∧ t.kind.Varies u.kind

/-- Replacing one token by another of its sort. -/
theorem DifferAt.set {tokens : List Token} {index : Nat} {t u : Token}
    (ht : tokens[index]? = some t) (h : t.kind.Varies u.kind) :
    DifferAt index tokens (tokens.set index u) where
  elsewhere j hj := List.getElem?_set_ne hj.symm
  varies := by
    obtain ⟨hlt, -⟩ := List.getElem?_eq_some_iff.1 ht
    exact ⟨t, u, ht, List.getElem?_set_self hlt, h⟩

/-- Two lists of tokens that differ in one name or value, to be read from a cursor on. -/
structure Variation where
  first : List Token
  second : List Token
  index : Nat
  differ : DifferAt index first second
  /-- Where the first reading starts. -/
  start : Cursor
  /-- What may be the reason that the name or value is not kept. -/
  lost : Prop

namespace Variation

/-- The tokens are the same, or differ in the names or values that they carry. -/
def Alike (t u : Token) : Prop :=
  u = t ∨ t.kind.Varies u.kind

variable (V : Variation)

/-- Both readings have come to the same place. -/
structure Lockstep (c d : Cursor) : Prop where
  reaches : V.start.Reaches c
  ahead : c.ahead = V.first.drop c.position
  ahead' : d.ahead = V.second.drop c.position
  position : d.position = c.position
  placeholders : d.placeholders = c.placeholders

/-- The token in which the lists differ is passed. -/
def Passes (c c' : Cursor) : Prop :=
  c.position ≤ V.index ∧ V.index < c'.position

/-- **Both readings of a rule take the same course**, and tell the lists apart if they pass the
token in which these differ. From certain positions on, values with `C` are read; if they are also
equal in the sense of `E`, then `P` holds, which is owed to what was read before, and the token is
not passed, or else lost. -/
def Tells {α β : Type} (A : Nat → Prop) (C E : α → β → Prop) (P : Prop) (r : Rule α)
    (s : Rule β) : Prop :=
  ∀ ⦃c d a b c' d'⦄, V.Lockstep c d → A c.position → r.run c = .done a c' →
    s.run d = .done b d' → V.Lockstep c' d' ∧ C a b ∧ (E a b → P ∧ (V.Passes c c' → V.lost))

/-- Values that have nothing in common by themselves. -/
def Any {α β : Type} (_ : α) (_ : β) : Prop :=
  True

/-- Values that are the same for a function. -/
def Same {α γ : Type} (f : α → γ) (a b : α) : Prop :=
  f a = f b

/-- Two values that are both missing, or both there and related. -/
inductive Both {α : Type} (C : α → α → Prop) : Option α → Option α → Prop
  | none : Both C none none
  | some {a b : α} : C a b → Both C (some a) (some b)

/-- Both readings of rules that go on behind different values: answers that are the same for a
function imply what is owed to these values. -/
abbrev Keeps {α γ : Type} (f : α → γ) (P : Prop) (r s : Rule α) : Prop :=
  V.Tells (fun _ ↦ True) Any (Same f) P r s

/-- Both readings of a rule take the same course, and answers that are the same for a function
reveal that the token in which the lists differ is not passed, or else lost. -/
abbrev Reveals {α γ : Type} (f : α → γ) (r : Rule α) : Prop :=
  V.Keeps f True r r

/-- The same of a rule that may answer with nothing, in both readings. -/
abbrev Reveals? {α γ : Type} (f : α → γ) (r : Rule (Option α)) : Prop :=
  V.Tells (fun _ ↦ True) (Both Any) (Same (Option.map f)) True r r

/-- Both readings of a rule answer with the same and do not pass the token in which the lists
differ. -/
abbrev Silent {α : Type} (r : Rule α) : Prop :=
  V.Tells (fun _ ↦ True) Eq Any True r r

/-! ### Tokens that carry different names or values -/

end Variation

namespace Token.Kind.Varies

variable {k l : Token.Kind}

/-- Varying is the same in both directions. -/
theorem symm (h : k.Varies l) : l.Varies k := by
  cases h with
  | integer h => exact .integer h.symm
  | float h => exact .float h.symm
  | numeric h => exact .numeric h.symm
  | string h => exact .string h.symm
  | blob h => exact .blob h.symm
  | identifier h => exact .identifier h.symm
  | parameter h => exact .parameter h.symm

/-- A token that varies is no keyword. -/
theorem ne_keyword (h : k.Varies l) (keyword : Keyword) : k ≠ .keyword keyword := by
  rintro rfl
  cases h

/-- A token that varies is no symbol. -/
theorem ne_symbol (h : k.Varies l) (symbol : Symbol) : k ≠ .symbol symbol := by
  rintro rfl
  cases h

/-- A token that varies stands for no keyword, so no rule chooses its way by it. -/
theorem keyword?_eq_none {t : Token} (h : t.kind.Varies l) : t.keyword? = none := by
  rw [Token.keyword?]
  split
  · rename_i keyword hkind
    exact absurd hkind (h.ne_keyword keyword)
  · rfl

/-- A token that varies is not the keyword asked for. -/
theorem isKeyword_eq_false {t : Token} (h : t.kind.Varies l) (keyword : Keyword) :
    t.isKeyword keyword = false := by
  rw [Token.isKeyword, beq_eq_false_iff_ne]
  exact h.ne_keyword keyword

/-- A token that varies is not the symbol asked for. -/
theorem isSymbol_eq_false {t : Token} (h : t.kind.Varies l) (symbol : Symbol) :
    t.isSymbol symbol = false := by
  rw [Token.isSymbol, beq_eq_false_iff_ne]
  exact h.ne_symbol symbol

/-- A token that varies belongs to its statement: it is no semicolon, no end and no error. -/
theorem isOpen {t : Token} (h : t.kind.Varies l) : t.isOpen := by
  rw [Token.isOpen, Token.endsStatement, h.isSymbol_eq_false, Token.isEof, Token.isError]
  generalize t.kind = k at h
  cases h <;> rfl

end Token.Kind.Varies

namespace Variation

variable {V : Variation}

namespace Alike

variable {t u : Token}

/-- Alike tokens are the same keyword, if any. -/
theorem keyword? (h : Alike t u) : u.keyword? = t.keyword? := by
  rcases h with rfl | h
  · rfl
  · rw [h.keyword?_eq_none, h.symm.keyword?_eq_none]

/-- Alike tokens are, or are not, the keyword asked for. -/
theorem isKeyword (h : Alike t u) (keyword : Keyword) :
    u.isKeyword keyword = t.isKeyword keyword := by
  rcases h with rfl | h
  · rfl
  · rw [h.isKeyword_eq_false, h.symm.isKeyword_eq_false]

/-- Alike tokens are, or are not, the symbol asked for. -/
theorem isSymbol (h : Alike t u) (symbol : Symbol) : u.isSymbol symbol = t.isSymbol symbol := by
  rcases h with rfl | h
  · rfl
  · rw [h.isSymbol_eq_false, h.symm.isSymbol_eq_false]

/-- Alike tokens both belong to a statement, or neither does. -/
theorem isOpen (h : Alike t u) : u.isOpen = t.isOpen := by
  rcases h with rfl | h
  · rfl
  · rw [h.isOpen, h.symm.isOpen]

/-- Alike tokens both start a statement, or neither does. -/
theorem startsStatement (h : Alike t u) : u.startsStatement = t.startsStatement := by
  rw [Token.startsStatement, h.keyword?, Token.startsStatement]

end Alike

/-! ### Cursors in lockstep -/

/-- The current token in terms of the list that is read. -/
theorem current_eq {c : Cursor} {tokens : List Token} (h : c.ahead = tokens.drop c.position) :
    c.current = (tokens[c.position]?).getD (.eofAt 0) := by
  rw [Cursor.current, h, List.headD_eq_head?_getD, List.head?_drop]

/-- The token behind the current one in terms of the list that is read. -/
theorem following_eq {c : Cursor} {tokens : List Token} (h : c.ahead = tokens.drop c.position) :
    c.following = (tokens[c.position + 1]?).getD (.eofAt 0) := by
  rw [Cursor.following, h, List.tail_drop, List.headD_eq_head?_getD, List.head?_drop]

/-- At every index the lists have the same token, or it is the one in which they differ. -/
theorem token_cases (V : Variation) (i : Nat) :
    i ≠ V.index ∧ (V.second[i]?).getD (.eofAt 0) = (V.first[i]?).getD (.eofAt 0) ∨
      i = V.index ∧ ((V.first[i]?).getD (.eofAt 0)).kind.Varies
        ((V.second[i]?).getD (.eofAt 0)).kind := by
  by_cases hindex : i = V.index
  · obtain ⟨t, u, ht, hu, hvaries⟩ := V.differ.varies
    rw [hindex, ht, hu]
    exact .inr ⟨rfl, hvaries⟩
  · rw [V.differ.elsewhere _ hindex]
    exact .inl ⟨hindex, rfl⟩

namespace Lockstep

variable {c d : Cursor}

/-- The current tokens are the same, or they are those in which the lists differ. -/
theorem current_cases (h : V.Lockstep c d) :
    c.position ≠ V.index ∧ d.current = c.current ∨
      c.position = V.index ∧ c.current.kind.Varies d.current.kind := by
  have hd := h.ahead'
  rw [← h.position] at hd
  rw [current_eq h.ahead, current_eq hd, h.position]
  exact V.token_cases c.position

/-- In lockstep, the current tokens are alike. -/
theorem current (h : V.Lockstep c d) : Alike c.current d.current :=
  h.current_cases.imp And.right And.right

/-- In lockstep, the tokens behind the current ones are the same or the ones that differ. -/
theorem following_cases (h : V.Lockstep c d) :
    c.position + 1 ≠ V.index ∧ d.following = c.following ∨
      c.position + 1 = V.index ∧ c.following.kind.Varies d.following.kind := by
  have hd := h.ahead'
  rw [← h.position] at hd
  rw [following_eq h.ahead, following_eq hd, h.position]
  exact V.token_cases (c.position + 1)

/-- In lockstep, the tokens behind the current ones are alike. -/
theorem following (h : V.Lockstep c d) : Alike c.following d.following :=
  h.following_cases.imp And.right And.right

/-- Moving past a token keeps the lockstep, whatever the token is. -/
theorem advance (h : V.Lockstep c d) : V.Lockstep c.advance d.advance := by
  by_cases hopen : c.current.isOpen
  · have hopen' : d.current.isOpen := by rwa [h.current.isOpen]
    have hc := h.ahead
    have hd := h.ahead'
    rw [Cursor.ahead_eq_cons_of_isOpen hopen] at hc
    rw [Cursor.ahead_eq_cons_of_isOpen hopen'] at hd
    have hquestion : d.current.isSymbol .question = c.current.isSymbol .question :=
      h.current.isSymbol .question
    refine ⟨h.reaches.trans (.advance c), ?_, ?_, ?_, ?_⟩
    · rw [Cursor.position_advance_of_isOpen hopen, ← List.tail_drop, ← hc, List.tail_cons]
    · rw [Cursor.position_advance_of_isOpen hopen, ← List.tail_drop, ← hd, List.tail_cons]
    · rw [Cursor.position_advance_of_isOpen hopen, Cursor.position_advance_of_isOpen hopen',
        h.position]
    · rw [Cursor.placeholders_advance_of_isOpen hopen, Cursor.placeholders_advance_of_isOpen hopen',
        hquestion, h.placeholders]
  · have hopen' : ¬ d.current.isOpen := by rwa [h.current.isOpen]
    rwa [Cursor.advance_of_not_isOpen hopen, Cursor.advance_of_not_isOpen hopen']

end Lockstep

/-! ### How readings compare -/

/-- Where nothing is read, the token is not passed. -/
theorem not_passes_self (c : Cursor) : ¬ V.Passes c c :=
  fun h ↦ absurd h.2 (Nat.not_lt.2 h.1)

/-- A token that is passed in two steps is passed in one of them. -/
theorem Passes.trans_cases {c mid c' : Cursor} (h : V.Passes c c') :
    V.Passes c mid ∨ V.Passes mid c' := by
  rcases Nat.lt_or_ge V.index mid.position with hlt | hge
  · exact .inl ⟨h.1, hlt⟩
  · exact .inr ⟨hge, h.2⟩

namespace Tells

variable {α β γ : Type} {A : Nat → Prop} {C : α → α → Prop} {E : α → α → Prop} {P P' : Prop}
  {D F : β → β → Prop}

/-- What holds from all positions on holds from those with a property. -/
theorem weaken {r s : Rule α} (h : V.Tells (fun _ ↦ True) C E P r s) : V.Tells A C E P r s :=
  fun _ _ _ _ _ _ hcd _ hr hs ↦ h hcd trivial hr hs

/-- Owing less. -/
theorem mono {r s : Rule α} (h : V.Tells A C E P r s) (hP : P → P') : V.Tells A C E P' r s := by
  intro c d a b c' d' hcd hA hr hs
  obtain ⟨hcd', hC, hE⟩ := h hcd hA hr hs
  exact ⟨hcd', hC, fun hab ↦ ⟨hP (hE hab).1, (hE hab).2⟩⟩

/-- An answer without reading passes nothing, so only what is owed is left to show. -/
protected theorem pure {a b : α} (hC : C a b) (hE : E a b → P) :
    V.Tells A C E P (pure a) (pure b) := by
  rintro c d _ _ _ _ hcd - ⟨⟩ ⟨⟩
  exact ⟨hcd, hC, fun hab ↦ ⟨hE hab, fun hpasses ↦ (not_passes_self _ hpasses).elim⟩⟩

/-- A rule that fails has no answers to compare. -/
theorem fail {cause : SyntaxError.Cause} {s : Rule α} : V.Tells A C E P (.fail cause) s := by
  rintro c d _ _ _ _ - - ⟨⟩

/-- A rule that fails, in front of more. -/
theorem fail_bind {cause : SyntaxError.Cause} {k : β → Rule α} {s : Rule α} :
    V.Tells A C E P (.fail cause >>= k) s := by
  rintro c d _ _ _ _ - - ⟨⟩

/-- A second reading that fails, in front of more. -/
theorem fail_bind_right {cause : SyntaxError.Cause} {r : Rule α} {k : β → Rule α} :
    V.Tells A C E P r (.fail cause >>= k) := by
  rintro c d _ _ _ _ - - - ⟨⟩

/-- A second reading that fails. -/
theorem fail_right {cause : SyntaxError.Cause} {r : Rule α} :
    V.Tells A C E P r (.fail cause) := by
  rintro c d _ _ _ _ - - - ⟨⟩

/-- **A sequence owes the answers of its first part** besides what it owes already. -/
protected theorem bind {r s : Rule α} {k l : α → Rule β} (hr : V.Tells A C E True r s)
    (hk : ∀ a b, C a b → V.Tells (fun _ ↦ True) D F (P ∧ E a b) (k a) (l b)) :
    V.Tells A D F P (r >>= k) (s >>= l) := by
  intro c d a b c' d' hcd hA hrun hrun'
  obtain ⟨x, mid, hx, hk₁⟩ := Rule.exists_of_run_bind hrun
  obtain ⟨y, mid', hy, hk₂⟩ := Rule.exists_of_run_bind hrun'
  obtain ⟨hmid, hC, hfirst⟩ := hr hcd hA hx hy
  obtain ⟨hcd', hD, hrest⟩ := hk x y hC hmid trivial hk₁ hk₂
  refine ⟨hcd', hD, fun hab ↦ ?_⟩
  obtain ⟨⟨hP, hE⟩, hlater⟩ := hrest hab
  exact ⟨hP, fun hpasses ↦ hpasses.trans_cases.elim (hfirst hE).2 hlater⟩

/-- Going on behind values that have nothing in common by themselves. -/
theorem bind_any {r s : Rule α} {k l : α → Rule β} (hr : V.Tells A Any E True r s)
    (hk : ∀ a b, V.Tells (fun _ ↦ True) D F (P ∧ E a b) (k a) (l b)) :
    V.Tells A D F P (r >>= k) (s >>= l) :=
  hr.bind fun a b _ ↦ hk a b

/-- Going on behind the same value. -/
theorem bind_silent {r : Rule α} {k l : α → Rule β} (hr : V.Silent r)
    (hk : ∀ a, V.Tells (fun _ ↦ True) D F P (k a) (l a)) :
    V.Tells A D F P (r >>= k) (r >>= l) := by
  refine hr.weaken.bind fun a b hab ↦ ?_
  subst hab
  exact (hk a).mono fun hP ↦ ⟨hP, trivial⟩

/-- A rule that does not pass the token in which the lists differ tells them apart. -/
theorem reveals {f : α → γ} {r : Rule α} (h : V.Silent r) : V.Reveals f r := by
  intro c d a b c' d' hcd hA hr hs
  obtain ⟨hcd', -, hE⟩ := h hcd hA hr hs
  exact ⟨hcd', trivial, fun _ ↦ hE trivial⟩

/-- A value made of another one: equal results must come from equal values. -/
theorem map {r s : Rule α} {f g : α → β} (hr : V.Tells A C E True r s)
    (hD : ∀ a b, C a b → D (f a) (g b)) (hF : ∀ a b, C a b → F (f a) (g b) → P ∧ E a b) :
    V.Tells A D F P (f <$> r) (g <$> s) := by
  rw [Rule.map_eq_bind, Rule.map_eq_bind]
  exact hr.bind fun a b hab ↦ .pure (hD a b hab) (hF a b hab)

/-- Answering with a function of the answer owes what the answer owes. -/
theorem map_owed {r s : Rule α} {f g : α → β} (hr : V.Tells A C E P r s)
    (hD : ∀ a b, C a b → D (f a) (g b)) (hF : ∀ a b, F (f a) (g b) → E a b) :
    V.Tells A D F P (f <$> r) (g <$> s) := by
  intro c d x y c' d' hcd hA hrun hrun'
  obtain ⟨a, ha, rfl⟩ := Rule.exists_of_run_map hrun
  obtain ⟨b, hb, rfl⟩ := Rule.exists_of_run_map hrun'
  obtain ⟨hcd', hC, hE⟩ := hr hcd hA ha hb
  exact ⟨hcd', hD a b hC, fun hab ↦ hE (hF a b hab)⟩

/-- A choice that both readings make in the same way. -/
theorem ite {p : Prop} [Decidable p] {r r' s s' : Rule α} (hr : V.Tells A C E P r s)
    (hr' : V.Tells A C E P r' s') :
    V.Tells A C E P (if p then r else r') (if p then s else s') := by
  split
  · exact hr
  · exact hr'

/-- Going on unless something is wrong, be it in one reading alone. -/
theorem unless_fail {p q : Prop} [Decidable p] [Decidable q] {cause : SyntaxError.Cause}
    {k l : β → Rule α} {r s : Rule α} (h : V.Tells A C E P r s) :
    V.Tells A C E P (if p then .fail cause >>= k else r) (if q then .fail cause >>= l else s) := by
  split
  · exact .fail_bind
  · split
    · exact .fail_bind_right
    · exact h

/-! ### Looking at tokens and moving past them -/

/-- Going on behind a look at the current token, in which the lists may differ. -/
theorem bind_current {k l : Token → Rule β}
    (hk : ∀ t u, Alike t u → V.Tells (fun _ ↦ True) D F P (k t) (l u)) :
    V.Tells A D F P (Rule.current >>= k) (Rule.current >>= l) :=
  fun _ _ _ _ _ _ hcd _ hrun hrun' ↦ hk _ _ hcd.current hcd trivial hrun hrun'

/-- Going on behind a look at the token behind the current one. -/
theorem bind_following {k l : Token → Rule β}
    (hk : ∀ t u, Alike t u → V.Tells A D F P (k t) (l u)) :
    V.Tells A D F P (Rule.following >>= k) (Rule.following >>= l) :=
  fun _ _ _ _ _ _ hcd hA hrun hrun' ↦ hk _ _ hcd.following hcd hA hrun hrun'

/-- What is read behind a look at the current token, whose name or value may be used: away from the
token in which the lists differ, and at that token. -/
theorem of_run_current {k l : Token → Rule β} {D F : Token → β → β → Prop}
    (hsame : ∀ t, V.Tells (· ≠ V.index) (D t) (F t) P (k t) (l t))
    (hvaries : ∀ t u, t.kind.Varies u.kind → V.Tells (· = V.index) (D t) (F t) P (k t) (l u))
    {c d c' d' : Cursor} {a b : β} (hcd : V.Lockstep c d)
    (hrun : (Rule.current >>= k).run c = .done a c')
    (hrun' : (Rule.current >>= l).run d = .done b d') :
    V.Lockstep c' d' ∧ D c.current a b ∧ (F c.current a b → P ∧ (V.Passes c c' → V.lost)) := by
  rw [Rule.run_bind, Rule.run_current] at hrun hrun'
  simp only at hrun hrun'
  rcases hcd.current_cases with ⟨hne, heq⟩ | ⟨hindex, hkind⟩
  · rw [heq] at hrun'
    exact hsame _ hcd hne hrun hrun'
  · exact hvaries _ _ hkind hcd hindex hrun hrun'

/-- Going on behind a look at the current token whose name or value is used. -/
theorem bind_current_cases {k l : Token → Rule β}
    (hsame : ∀ t, V.Tells (· ≠ V.index) D F P (k t) (l t))
    (hvaries : ∀ t u, t.kind.Varies u.kind → V.Tells (· = V.index) D F P (k t) (l u)) :
    V.Tells A D F P (Rule.current >>= k) (Rule.current >>= l) :=
  fun _ _ _ _ _ _ hcd _ hrun hrun' ↦ of_run_current hsame hvaries hcd hrun hrun'

/-- The same for the token behind the current one. -/
theorem bind_following_cases {k l : Token → Rule β}
    (hsame : ∀ t, V.Tells (fun p ↦ A p ∧ p + 1 ≠ V.index) D F P (k t) (l t))
    (hvaries : ∀ t u, t.kind.Varies u.kind → V.Tells A D F P (k t) (l u)) :
    V.Tells A D F P (Rule.following >>= k) (Rule.following >>= l) := by
  intro c d a b c' d' hcd hA hrun hrun'
  rw [Rule.run_bind, Rule.run_following] at hrun hrun'
  simp only at hrun hrun'
  rcases hcd.following_cases with ⟨hne, heq⟩ | ⟨-, hkind⟩
  · rw [heq] at hrun'
    exact hsame _ hcd ⟨hA, hne⟩ hrun hrun'
  · exact hvaries _ _ hkind hcd hA hrun hrun'

/-- Moving past a token that is the same in both lists, from positions with `A` to positions with
`B`. -/
theorem advance_to {B : Nat → Prop} {k l : Unit → Rule β} (hA : ∀ p, A p → p ≠ V.index)
    (hB : ∀ p, A p → B p ∧ B (p + 1)) (hk : V.Tells B D F P (k ()) (l ())) :
    V.Tells A D F P (Rule.advance >>= k) (Rule.advance >>= l) := by
  intro c d a b c' d' hcd hposition hrun hrun'
  have hle : c.position < V.index → c.advance.position ≤ V.index := by
    intro hlt
    by_cases hopen : c.current.isOpen
    · rwa [Cursor.position_advance_of_isOpen hopen]
    · rw [Cursor.advance_of_not_isOpen hopen]
      exact Nat.le_of_lt hlt
  have hBadvance : B c.advance.position := by
    by_cases hopen : c.current.isOpen
    · rw [Cursor.position_advance_of_isOpen hopen]
      exact (hB _ hposition).2
    · rw [Cursor.advance_of_not_isOpen hopen]
      exact (hB _ hposition).1
  obtain ⟨hcd', hD, hF⟩ := hk hcd.advance hBadvance hrun hrun'
  refine ⟨hcd', hD, fun hab ↦ ⟨(hF hab).1, fun hpasses ↦ (hF hab).2 ⟨?_, hpasses.2⟩⟩⟩
  exact hle (Nat.lt_of_le_of_ne hpasses.1 (hA _ hposition))

/-- Moving past a token that is the same in both lists. -/
theorem advance_of_ne {k l : Unit → Rule β}
    (hk : V.Tells (fun _ ↦ True) D F P (k ()) (l ())) :
    V.Tells (· ≠ V.index) D F P (Rule.advance >>= k) (Rule.advance >>= l) :=
  advance_to (fun _ h ↦ h) (fun _ _ ↦ ⟨trivial, trivial⟩) hk

/-- Moving past the token in which the lists differ: what is read next has to tell. -/
theorem advance_of_eq {k l : Unit → Rule β}
    (hk : V.Tells (fun _ ↦ True) D F False (k ()) (l ())) :
    V.Tells (· = V.index) D F P (Rule.advance >>= k) (Rule.advance >>= l) := by
  intro c d a b c' d' hcd _ hrun hrun'
  obtain ⟨hcd', hD, hF⟩ := hk hcd.advance trivial hrun hrun'
  exact ⟨hcd', hD, fun hab ↦ (hF hab).1.elim⟩

end Tells

/-! ### Repetition -/

/-- Both values are there, or neither is. -/
theorem Both.isSome_eq {α : Type} {C : α → α → Prop} {x y : Option α} (h : Both C x y) :
    x.isSome = y.isSome := by
  cases h <;> rfl

/-- A missing value is filled in on both sides. -/
theorem Both.getD {α : Type} {C : α → α → Prop} {x y : Option α} {a b : α} (h : Both C x y)
    (hab : C a b) : C (x.getD a) (y.getD b) := by
  cases h with
  | none => exact hab
  | some h => exact h

section

variable {α : Type} {step : α → Rule (Option α)}

/-- A repetition that is done has gone on behind its first round, or stopped there. -/
theorem exists_round {a x : α} {c c' : Cursor} (h : Rule.iterateFrom step a c = .done x c') :
    ∃ next? after, (step a).run c = .done next? after ∧
      if next?.isSome ∧ c.position < after.position then
        Rule.iterateFrom step (next?.getD a) after = .done x c'
      else next?.getD a = x ∧ after = c' := by
  rw [Rule.iterateFrom_eq] at h
  split at h
  · cases h
  · rename_i after hround
    cases h
    exact ⟨none, _, hround, rfl, rfl⟩
  · rename_i b after hround
    refine ⟨some b, after, hround, ?_⟩
    by_cases hlt : c.position < after.position
    · rw [if_pos ⟨rfl, hlt⟩]
      rwa [if_pos hlt] at h
    · rw [if_neg fun hgoes ↦ hlt hgoes.2]
      rw [if_neg hlt] at h
      cases h
      exact ⟨rfl, rfl⟩

/-- **An invariant of both readings of a repetition.** Both take as many rounds, and what every
round preserves holds in the end. -/
theorem Lockstep.iterate {I : α → α → Cursor → Prop}
    (hstep : ∀ ⦃a b c d x y c' d'⦄, V.Lockstep c d → I a b c → (step a).run c = .done x c' →
      (step b).run d = .done y d' →
      V.Lockstep c' d' ∧ x.isSome = y.isSome ∧ I (x.getD a) (y.getD b) c')
    {a b x y : α} {c d c' d' : Cursor} (hcd : V.Lockstep c d) (hI : I a b c)
    (hrun : (Rule.iterate step a).run c = .done x c')
    (hrun' : (Rule.iterate step b).run d = .done y d') : V.Lockstep c' d' ∧ I x y c' := by
  change Rule.iterateFrom step a c = _ at hrun
  change Rule.iterateFrom step b d = _ at hrun'
  -- The induction follows the first reading; the second one goes on where it does.
  fun_induction Rule.iterateFrom step a c generalizing b d with
  | case1 => cases hrun
  | case2 a c after hround =>
    obtain ⟨next?, after', hround', hrest⟩ := exists_round hrun'
    obtain ⟨hafter, hsome, hlast⟩ := hstep hcd hI hround hround'
    rw [if_neg fun hgoes ↦ Bool.false_ne_true (hsome.trans hgoes.1)] at hrest
    obtain ⟨rfl, rfl⟩ := hrest
    cases hrun
    exact ⟨hafter, hlast⟩
  | case3 a c a' after hround hlt ih =>
    obtain ⟨next?, after', hround', hrest⟩ := exists_round hrun'
    obtain ⟨hafter, hsome, hnext⟩ := hstep hcd hI hround hround'
    rw [hcd.position, hafter.position, if_pos ⟨hsome.symm, hlt⟩] at hrest
    exact ih hafter hnext hrun hrest
  | case4 a c a' after hround hle =>
    obtain ⟨next?, after', hround', hrest⟩ := exists_round hrun'
    obtain ⟨hafter, -, hlast⟩ := hstep hcd hI hround hround'
    rw [hcd.position, hafter.position, if_neg fun hgoes ↦ hle hgoes.2] at hrest
    obtain ⟨rfl, rfl⟩ := hrest
    cases hrun
    exact ⟨hafter, hlast⟩

/-- What the rounds of a repetition have made of what it starts with: values with `C`. If they are
the same for `E`, the first ones were, and the token has not been passed or is lost. -/
structure Owes (V : Variation) (C E : α → α → Prop) (c : Cursor) (a b a' b' : α) (mid : Cursor) :
    Prop where
  related : C a' b'
  owed : E a' b' → E a b ∧ (V.Passes c mid → V.lost)

/-- **A repetition owes what it starts with**, if every round owes what it takes. -/
theorem Tells.iterate {A : Nat → Prop} {C E : α → α → Prop}
    (hstep : ∀ a b, C a b → V.Tells (fun _ ↦ True) (Both C)
      (fun x y ↦ E (x.getD a) (y.getD b)) (E a b) (step a) (step b)) {a b : α} (hab : C a b) :
    V.Tells A C E (E a b) (Rule.iterate step a) (Rule.iterate step b) := by
  intro c d x y c' d' hcd _ hrun hrun'
  have hstart : V.Owes C E c a b a b c :=
    ⟨hab, fun hE ↦ ⟨hE, fun hpasses ↦ (not_passes_self _ hpasses).elim⟩⟩
  have hround ⦃a' b' : α⦄ ⦃mid mid' : Cursor⦄ ⦃z w : Option α⦄ ⦃after after' : Cursor⦄
      (hmid : V.Lockstep mid mid') (howes : V.Owes C E c a b a' b' mid)
      (hz : (step a').run mid = .done z after) (hw : (step b').run mid' = .done w after') :
      V.Lockstep after after' ∧ z.isSome = w.isSome ∧
        V.Owes C E c a b (z.getD a') (w.getD b') after := by
    obtain ⟨hafter, hboth, hround⟩ := hstep a' b' howes.related hmid trivial hz hw
    refine ⟨hafter, hboth.isSome_eq, hboth.getD howes.related, fun hE ↦ ?_⟩
    obtain ⟨hE', hthis⟩ := hround hE
    obtain ⟨howed, hbefore⟩ := howes.owed hE'
    exact ⟨howed, fun hpasses ↦ hpasses.trans_cases.elim hbefore hthis⟩
  obtain ⟨hcd', howes⟩ := hcd.iterate hround hstart hrun hrun'
  exact ⟨hcd', howes.related, howes.owed⟩

end

end Variation

end SqlBatch
