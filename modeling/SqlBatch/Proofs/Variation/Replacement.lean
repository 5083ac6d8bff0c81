import Mathlib.Logic.Relation
import SqlBatch.Proofs.Allowance
import SqlBatch.Proofs.Variation.Terminal

/-!
# Clauses that are replaced

A column keeps one default and one expression that it is computed from, and a table one primary key.
The grammar lets each of them be given several times, and the last one replaces those before it: of
these the tree keeps nothing (`IsReplaced`). No other clause can be given twice.

## Slots

What can be given again fills a slot, and which one is told by the first token of the clause
(`Token.columnSlot?`, `Token.keySlot?`). That a clause is replaced is said by the readings of
clauses alone: one is read that has the token in it, further ones of the same list follow, and one
of these fills the same slot (`ReplacedIn`). The tree has no part in it.

## The loop

A list of such clauses is read in a loop. What both readings have told apart so far is `Told`: they
disagree on something that stays, or on a slot that the clause with the token in it has filled. The
loop keeps this as long as no later clause fills the slot again (`Told.step`); if one does, the
clause with the token is replaced, which is what the theorem excepts.
-/

namespace SqlBatch

/-! ### Replaced clauses -/

/-- What a column keeps one of. -/
inductive ColumnSlot where
  | default
  | generated

/-- What the constraint that starts with a token gives, if it can be replaced. -/
def Token.columnSlot? (token : Token) : Option ColumnSlot :=
  match token.keyword? with
  | some .DEFAULT => some .default
  | some .GENERATED | some .AS => some .generated
  | _ => none

/-- Whether the element of a table definition that starts with a token is a primary key. -/
def Token.keySlot? (token : Token) : Option Unit :=
  if token.isKeyword .PRIMARY then some () else none

/-- A constraint of a column is read from one cursor to another. -/
def ReadsConstraint (inner : Nested) (c e : Cursor) : Prop :=
  ∃ column column', (Rule.columnConstraint inner column).run c = .done (some column') e

/-- An element of a table definition is read from one cursor to another. -/
def ReadsElement (inner : Nested) (c e : Cursor) : Prop :=
  ∃ element, (Rule.tableElement inner).run c = .done element e

/-- Behind one element of a table definition, another one starts at the cursor. -/
def BehindComma (e c : Cursor) : Prop :=
  e.current.isSymbol .comma ∧ c = e.advance

/-- The token at an index is part of a clause that is given again: `clause` says from where to where
a clause is read, `behind` where the next one of the same list starts, and `slot` what it gives, by
its first token. -/
inductive ReplacedIn {σ : Type} (slot : Token → Option σ) (clause behind : Cursor → Cursor → Prop)
    (start : Cursor) (index : Nat) : Prop where
  | intro {c e mid later : Cursor} {s : σ} : start.Reaches c → clause c e → c.position ≤ index →
    index < e.position → Relation.ReflTransGen (Relation.Comp behind clause) e mid →
    behind mid later → slot c.current = some s → slot later.current = some s →
    ReplacedIn slot clause behind start index

/-- The token at an index of a statement is part of a default, a generated expression or a table's
primary key that a later one of the same column or table replaces. -/
def IsReplaced (tokens : List Token) (start index : Nat) : Prop :=
  ∃ allowance,
    ReplacedIn Token.columnSlot? (ReadsConstraint (.ofAllowance allowance)) Eq
      (.ofTokens tokens start) index ∨
    ReplacedIn Token.keySlot? (ReadsElement (.ofAllowance allowance)) BehindComma
      (.ofTokens tokens start) index

/-! ### Reading clauses that may be replaced -/

namespace Variation

variable (V : Variation) {σ α : Type} (slot : Token → Option σ)
  (clause behind : Cursor → Cursor → Prop)

/-- The token in which the lists differ is part of a clause for a slot, and nothing but further
clauses stands between that one and the cursor. -/
def Fills (s : σ) (mid : Cursor) : Prop :=
  ∃ c e, V.start.Reaches c ∧ clause c e ∧ V.Passes c e ∧ slot c.current = some s ∧
    Relation.ReflTransGen (Relation.Comp behind clause) e mid

/-- What has been read of a list of clauses since `p` tells the token apart: the readings disagree
on a part of it, which is kept for good, or on a slot that the clause with the token has filled. -/
def Told (agree : Option σ → α → α → Prop) (p : Cursor) (a b : α) (mid : Cursor) : Prop :=
  V.Passes p mid → V.lost ∨ ∃ q, ¬ agree q a b ∧ ∀ s ∈ q, V.Fills slot clause behind s mid

variable {V slot clause behind} {agree : Option σ → α → α → Prop} {p : Cursor} {a b : α}

/-- The first clause that is read tells the token apart by what it gives. -/
theorem Told.first {mid : Cursor} (hclause : clause p mid) (hreaches : V.start.Reaches p)
    (hnew : agree (slot p.current) a b → V.Passes p mid → V.lost) :
    V.Told slot clause behind agree p a b mid := by
  intro hpasses
  by_cases hagree : agree (slot p.current) a b
  · exact .inl (hnew hagree hpasses)
  · exact .inr ⟨slot p.current, hagree, fun s hs ↦ ⟨p, mid, hreaches, hclause, hpasses, hs, .refl⟩⟩

/-- **One more clause.** It keeps what the readings disagree on, unless it replaces the clause with
the token. -/
theorem Told.step {c c₁ c' : Cursor} {a' b' : α} (h : V.Told slot clause behind agree p a b c)
    (hlost : ReplacedIn slot clause behind V.start V.index → V.lost)
    (hbehind : behind c c₁) (hclause : clause c₁ c') (hreaches : V.start.Reaches c₁)
    (hpasses : ¬ V.Passes c c₁)
    (hkept : ∀ q, q = none ∨ q ≠ slot c₁.current → agree q a' b' → agree q a b)
    (hnew : agree (slot c₁.current) a' b' → V.Passes c₁ c' → V.lost) :
    V.Told slot clause behind agree p a' b' c' := by
  intro hp
  rcases (hp.trans_cases : V.Passes p c ∨ V.Passes c c') with hbefore | hnow
  · rcases h hbefore with hlost' | ⟨q, hdisagree, hfills⟩
    · exact .inl hlost'
    · by_cases hq : q = none ∨ q ≠ slot c₁.current
      · refine .inr ⟨q, fun hagree ↦ hdisagree (hkept q hq hagree), fun s hs ↦ ?_⟩
        obtain ⟨c₀, e, hreach, hc₀, hin, hslot, hchain⟩ := hfills s hs
        exact ⟨c₀, e, hreach, hc₀, hin, hslot, hchain.tail ⟨c₁, hbehind, hclause⟩⟩
      · -- The clause with the token is replaced by this one.
        obtain ⟨hsome, hsame⟩ := not_or.1 hq
        obtain ⟨s, hs⟩ := Option.ne_none_iff_exists'.1 hsome
        obtain ⟨c₀, e, hreach, hc₀, hin, hslot, hchain⟩ := hfills s hs
        exact .inl (hlost (.intro hreach hc₀ hin.1 hin.2 hchain hbehind hslot
          ((Classical.not_not.1 hsame).symm.trans hs)))
  · exact Told.first hclause hreaches hnew (hnow.trans_cases.resolve_left hpasses)

/-- Readings that agree in everything have not passed the token, or it is lost. -/
theorem Told.lost {mid : Cursor} (h : V.Told slot clause behind agree p a b mid)
    (hagree : ∀ q, agree q a b) (hpasses : V.Passes p mid) : V.lost := by
  rcases h hpasses with hlost | ⟨q, hdisagree, -⟩
  · exact hlost
  · exact absurd (hagree q) hdisagree

end Variation

end SqlBatch
