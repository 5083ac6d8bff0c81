import SqlBatch.Proofs.Completion.Statement
import SqlBatch.Proofs.Reading.Expression

/-!
# Chains of operators

An operand, and then any number of operators, each with an operand behind it. In the tree that is
read of such a chain, the operator of a node is the last one among the loosest of those in it
(`Expr.IsClimbing`), and there is no other such tree of the chain (`Expr.IsClimbing.eq_of_listed`).

## Why there is one tree only

The operators of a chain are split by their last loosest one: all to the right of it are tighter,
and none to the left is looser. Two such splits of one list are the same, and so are the trees on
both sides, by induction on the tree.

## Why a chain can be of any length

The right operand of an operator is read one level further in, and takes tighter operators alone. So
the levels that are open at once go up the ladder of precedence, and their number does not grow with
the chain (`Rule.exists_climbs`). Never more than eleven are open, however long the chain is
(`chain_is_read`).
-/

namespace SqlBatch

/-! ### The tree of a chain -/

/-- An operand, and operators each with the operand behind it. -/
structure Chain where
  first : Expr
  rest : List (BinaryOp × Expr)

namespace Chain

/-- Two chains with an operator between them. -/
def join (left : Chain) (op : BinaryOp) (right : Chain) : Chain :=
  ⟨left.first, left.rest ++ (op, right.first) :: right.rest⟩

/-- The operators of the chain, in their order. -/
def ops (chain : Chain) : List BinaryOp :=
  chain.rest.map (·.1)

/-- The operators of a chain that is put together. -/
@[simp] theorem ops_join (left : Chain) (op : BinaryOp) (right : Chain) :
    (left.join op right).ops = left.ops ++ op :: right.ops := by
  rw [ops, join, List.map_append, List.map_cons]
  rfl

end Chain

namespace Expr

/-- The operands and operators of an expression as they are written, in their order. -/
def listed : Expr → Chain
  | .binary op left right => left.listed.join op right.listed
  | e => ⟨e, []⟩

/-- Tighter operators group first and those of one level group to the left: no operator on the left
of another one is looser than it, and each one on its right is tighter. -/
def IsClimbing : Expr → Prop
  | .binary op left right =>
    (∀ o ∈ left.listed.ops, op.precedence.rank ≤ o.precedence.rank) ∧
      (∀ o ∈ right.listed.ops, op.precedence.rank < o.precedence.rank) ∧
      left.IsClimbing ∧ right.IsClimbing
  | _ => True

theorem listed_cases (e : Expr) :
    (∃ op left right, e = .binary op left right) ∨ e.listed = ⟨e, []⟩ := by
  cases e with
  | binary op left right => exact .inl ⟨op, left, right, rfl⟩
  | _ => exact .inr rfl

end Expr

/-- The last one among the least items of a list is in one place. -/
theorem eq_of_append_cons {α : Type} {rank : α → Nat} {as bs as' bs' : List α} {x x' : α}
    (h : as ++ x :: bs = as' ++ x' :: bs') (hle : ∀ a ∈ as, rank x ≤ rank a)
    (hlt : ∀ b ∈ bs, rank x < rank b) (hle' : ∀ a ∈ as', rank x' ≤ rank a)
    (hlt' : ∀ b ∈ bs', rank x' < rank b) : as = as' ∧ x = x' ∧ bs = bs' := by
  rcases List.append_eq_append_iff.1 h with ⟨mid, rfl, hmid⟩ | ⟨mid, rfl, hmid⟩
  · rcases mid with _ | ⟨y, mid⟩
    · exact ⟨(List.append_nil as).symm, List.cons.inj hmid⟩
    · obtain ⟨rfl, rfl⟩ := List.cons.inj hmid
      have hge := hle' x (List.mem_append_right as (.head mid))
      exact absurd (hlt x' (List.mem_append_right mid (.head bs'))) (Nat.not_lt.2 hge)
  · rcases mid with _ | ⟨y, mid⟩
    · obtain ⟨rfl, rfl⟩ := List.cons.inj hmid
      exact ⟨List.append_nil as', rfl, rfl⟩
    · obtain ⟨rfl, rfl⟩ := List.cons.inj hmid
      have hge := hle x' (List.mem_append_right as' (.head mid))
      exact absurd (hlt' x (List.mem_append_right mid (.head bs))) (Nat.not_lt.2 hge)

/-- **A chain has one tree** in which operators are grouped by precedence. -/
theorem Expr.IsClimbing.eq_of_listed {e e' : Expr} (h : e.IsClimbing) (h' : e'.IsClimbing)
    (heq : e.listed = e'.listed) : e = e' := by
  induction hn : e.listed.rest.length using Nat.strongRecOn generalizing e e' with
  | ind n ih =>
    subst hn
    have hne (left right : Chain) (op : BinaryOp) : (left.join op right).rest ≠ [] := by
      simp [Chain.join]
    rcases e.listed_cases with ⟨op, left, right, rfl⟩ | hleaf <;>
      rcases e'.listed_cases with ⟨op', left', right', rfl⟩ | hleaf'
    · obtain ⟨hleft, hright, hl, hr⟩ := h
      obtain ⟨hleft', hright', hl', hr'⟩ := h'
      obtain ⟨hfirst, hrest⟩ := Chain.mk.inj heq
      -- The last loosest operator is at one place in the list, whichever tree it is of.
      obtain ⟨hfront, hop, hback⟩ := @eq_of_append_cons (BinaryOp × Expr)
        (fun pair ↦ pair.1.precedence.rank) _ _ _ _ (op, _) (op', _) hrest
        (fun pair hpair ↦ hleft _ (List.mem_map_of_mem hpair))
        (fun pair hpair ↦ hright _ (List.mem_map_of_mem hpair))
        (fun pair hpair ↦ hleft' _ (List.mem_map_of_mem hpair))
        (fun pair hpair ↦ hright' _ (List.mem_map_of_mem hpair))
      obtain ⟨rfl, hmid⟩ := Prod.mk.inj hop
      have hlength : (Expr.binary op left right).listed.rest.length =
          left.listed.rest.length + (right.listed.rest.length + 1) := List.length_append
      rw [ih _ (by omega) hl hl' (Chain.mk.injEq .. ▸ ⟨hfirst, hfront⟩) rfl,
        ih _ (by omega) hr hr' (Chain.mk.injEq .. ▸ ⟨hmid, hback⟩) rfl]
    · rw [hleaf'] at heq
      exact absurd (congrArg Chain.rest heq) (hne _ _ _)
    · rw [hleaf] at heq
      exact absurd (congrArg Chain.rest heq).symm (hne _ _ _)
    · rw [hleaf, hleaf'] at heq
      exact congrArg Chain.first heq

/-! ### The tokens of a chain -/

/-- The operator that a token is between two operands. -/
def BinaryOp.ofKind? (kind : Token.Kind) : Option BinaryOp :=
  match Continuation.ofKind? kind with
  | some (.binary op) => some op
  | _ => none

theorem BinaryOp.ofKind?_eq_some {kind : Token.Kind} {op : BinaryOp} :
    ofKind? kind = some op ↔ Continuation.ofKind? kind = some (.binary op) := by
  rw [ofKind?]
  rcases Continuation.ofKind? kind with _ | form
  · exact iff_of_false nofun nofun
  · cases form with
    | binary op' => simp
    | _ => exact iff_of_false nofun nofun

/-- How many placeholders the token is. -/
def Token.placeholders (token : Token) : Nat :=
  if token.isSymbol .question then 1 else 0

/-- The operators and operands that tokens are, one of each in turn. -/
def Chain.links? (passed : Nat) : List Token → Option (List (BinaryOp × Expr))
  | [] => some []
  | [_] => none
  | operator :: operand :: tokens => do
    let op ← BinaryOp.ofKind? operator.kind
    let e ← operand.operand? passed
    let rest ← links? (passed + operand.placeholders) tokens
    return (op, e) :: rest

/-- The chain that tokens are: an operand, and then operators and operands in turn. -/
def Chain.ofTokens? : List Token → Option Chain
  | [] => none
  | operand :: tokens => do
    let first ← operand.operand? 0
    let rest ← links? operand.placeholders tokens
    return ⟨first, rest⟩

namespace Cursor

/-- The tokens ahead are operators and operands in turn, up to the end of the statement. -/
def Faces : List (BinaryOp × Expr) → Cursor → Prop
  | [], c => c.current.endsStatement
  | (op, e) :: rest, c => Continuation.ofKind? c.current.kind = some (.binary op) ∧
      c.advance.current.operand? c.advance.placeholders = some e ∧ c.advance.advance.Faces rest

end Cursor

/-- A token is an operand without operators. -/
theorem Token.listed_of_operand? {token : Token} {passed : Nat} {e : Expr}
    (h : token.operand? passed = some e) : e.listed = ⟨e, []⟩ ∧ e.IsClimbing := by
  rw [operand?] at h
  split at h
  · obtain rfl := Option.some.inj h
    exact ⟨rfl, trivial⟩
  · obtain rfl := Option.some.inj h
    exact ⟨rfl, trivial⟩
  · obtain rfl := Option.some.inj h
    exact ⟨rfl, trivial⟩
  · obtain ⟨value, -, rfl⟩ := Option.map_eq_some_iff.1 h
    exact ⟨rfl, trivial⟩

/-- An operand is no keyword but that of a literal. -/
theorem Token.isKeyword_eq_false_of_operand? {token : Token} {passed : Nat} {e : Expr}
    {keyword : Keyword} (h : token.operand? passed = some e)
    (hnone : Literal.ofKind? (.keyword keyword) = none) : token.isKeyword keyword = false := by
  refine beq_eq_false_iff_ne.2 fun hkind ↦ ?_
  rw [operand?, hkind] at h
  change (Literal.ofKind? (.keyword keyword)).map _ = _ at h
  rw [hnone] at h
  cases h

namespace Cursor

variable {c : Cursor} {rest : List (BinaryOp × Expr)}

theorem Faces.isSymbol_eq_false {symbol : Symbol} (h : c.Faces rest)
    (hne : symbol ≠ .semicolon) (hnone : Continuation.ofKind? (.symbol symbol) = none) :
    c.current.isSymbol symbol = false := by
  rcases rest with _ | ⟨⟨op, e⟩, rest⟩
  · exact Token.isSymbol_of_endsStatement h hne
  · refine beq_eq_false_iff_ne.2 fun hkind ↦ ?_
    have hop := h.1
    rw [hkind, hnone] at hop
    cases hop

/-- An expression ends in front of an operator that is too loose, and where the statement ends. -/
theorem Faces.stops {power : Nat} (h : c.Faces rest)
    (hloose : ∀ link ∈ rest.head?, link.1.precedence.left < power) : c.Stops power := by
  rcases rest with _ | ⟨⟨op, e⟩, rest⟩
  · exact stops_of_endsStatement h power
  · exact stops_of_ofKind? h.1 (hloose (op, e) rfl)

/-- Tokens that are a chain are faced as that chain. -/
theorem faces_of_links? {tokens behind : List Token} {closing : Token}
    (hahead : c.ahead = tokens ++ closing :: behind) (hclosing : closing.endsStatement)
    (h : Chain.links? c.placeholders tokens = some rest) : c.Faces rest := by
  generalize hpassed : c.placeholders = passed at h
  fun_induction Chain.links? passed tokens generalizing c rest with
  | case1 =>
    obtain rfl := Option.some.inj h
    show c.current.endsStatement
    rw [Completion.current_eq_of_ahead hahead, hclosing]
  | case2 => cases h
  | case3 passed operator operand tokens ih =>
    obtain ⟨op, hop, h⟩ := Option.bind_eq_some_iff.1 h
    obtain ⟨e, he, h⟩ := Option.bind_eq_some_iff.1 h
    obtain ⟨rest', hrest, h⟩ := Option.bind_eq_some_iff.1 h
    obtain rfl := Option.some.inj h
    rw [BinaryOp.ofKind?_eq_some] at hop
    obtain rfl := Completion.current_eq_of_ahead hahead
    have hopen := Token.isOpen_of_continuation hop
    have hahead' := Completion.ahead_advance hahead hopen
    obtain rfl := Completion.current_eq_of_ahead hahead'
    have hopen' := Token.isOpen_of_operand? he
    -- An operator is no placeholder, so it leaves their number as it is.
    have hquestion : c.current.isSymbol .question = false := by
      refine beq_eq_false_iff_ne.2 fun hkind ↦ ?_
      rw [hkind] at hop
      cases hop
    have hcount := placeholders_advance_of_isOpen hopen
    have hcount' := placeholders_advance_of_isOpen hopen'
    rw [hquestion, if_neg Bool.false_ne_true, Nat.add_zero, hpassed] at hcount
    rw [hcount] at hcount'
    exact ⟨hop, hcount ▸ he, ih (Completion.ahead_advance hahead' hopen') hcount' hrest⟩

end Cursor

theorem Chain.length_of_links? {passed : Nat} {tokens : List Token}
    {rest : List (BinaryOp × Expr)} (h : links? passed tokens = some rest) :
    tokens.length = 2 * rest.length := by
  fun_induction links? passed tokens generalizing rest with
  | case1 =>
    obtain rfl := Option.some.inj h
    rfl
  | case2 => cases h
  | case3 passed operator operand tokens ih =>
    obtain ⟨op, -, h⟩ := Option.bind_eq_some_iff.1 h
    obtain ⟨e, -, h⟩ := Option.bind_eq_some_iff.1 h
    obtain ⟨rest', hrest, h⟩ := Option.bind_eq_some_iff.1 h
    obtain rfl := Option.some.inj h
    rw [List.length_cons, List.length_cons, List.length_cons, ih hrest]
    omega

/-! ### Reading a chain -/

/-- There are as many ranks as levels of precedence. -/
theorem BinaryOp.rank_le (op : BinaryOp) : op.precedence.rank ≤ 8 := by
  cases op <;> decide

/-- An operator that is tight enough leaves a level for its right operand, where enough of them are
left for the tighter operators that may follow there. -/
theorem BinaryOp.exists_level {op : BinaryOp} {n power : Nat}
    (hlevels : 9 ≤ n + (power + 1) / 2) (hle : power ≤ op.precedence.left) :
    ∃ m, n = m + 1 ∧ 9 ≤ m + (op.precedence.right + 1) / 2 := by
  have hrank := op.rank_le
  have hleft : op.precedence.left = 2 * op.precedence.rank := rfl
  have hright : op.precedence.right = 2 * op.precedence.rank + 1 := rfl
  exact ⟨n - 1, by omega, by omega⟩

namespace Rule

/-- What reading with some power makes of a chain behind an operand: it takes the operators that are
tight enough, up to the first one that is not, and groups them by precedence. -/
structure Climbs (power : Nat) (e : Expr) (c : Cursor) (taken left : List (BinaryOp × Expr))
    (e' : Expr) (after : Cursor) : Prop where
  listed : e'.listed = ⟨e.listed.first, e.listed.rest ++ taken⟩
  isClimbing : e'.IsClimbing
  tight : ∀ link ∈ taken, power ≤ link.1.precedence.left
  loose : ∀ link ∈ left.head?, link.1.precedence.left < power
  faces : after.Faces left
  position : after.position = c.position + 2 * taken.length

section

variable {power : Nat} {op : BinaryOp} {x e right e' : Expr} {c mid after : Cursor}
  {taken taken' left left' : List (BinaryOp × Expr)}

/-- Nothing is taken where the next operator is too loose. -/
theorem Climbs.stopped (hclimbing : e.IsClimbing)
    (hloose : ∀ link ∈ left.head?, link.1.precedence.left < power) (hfaces : c.Faces left) :
    Climbs power e c [] left e c where
  listed := by rw [List.append_nil]
  isClimbing := hclimbing
  tight := nofun
  loose := hloose
  faces := hfaces
  position := rfl

/-- Every operator is tight enough for the power zero. -/
theorem Climbs.eq_nil (h : Climbs 0 e c taken left e' after) : left = [] := by
  rcases left with _ | ⟨link, left⟩
  · rfl
  · exact absurd (h.loose link rfl) (Nat.not_lt_zero _)

/-- The right operand of an operator is the chain of what has been taken behind it. -/
theorem Climbs.listed_eq (h : Climbs power x c taken left right mid)
    (hx : x.listed = ⟨x, []⟩) : right.listed = ⟨x, taken⟩ := by
  rw [h.listed, hx]
  rfl

/-- An operator with what has been read on its right is a chain in which what goes on behind it
fits: an operator that was too loose for the right operand is none too tight for the whole. -/
theorem Climbs.binary (h : Climbs op.precedence.right x c taken left right mid)
    (hx : x.listed = ⟨x, []⟩) (hclimbing : e.IsClimbing)
    (hfits : ∀ o ∈ e.listed.ops, op.precedence.rank ≤ o.precedence.rank) :
    (Expr.binary op e right).listed = ⟨e.listed.first, e.listed.rest ++ (op, x) :: taken⟩ ∧
      (Expr.binary op e right).IsClimbing ∧
      ∀ link ∈ left.head?, ∀ o ∈ (Expr.binary op e right).listed.ops,
        link.1.precedence.rank ≤ o.precedence.rank := by
  have hlisted := h.listed_eq hx
  have htight : ∀ o ∈ right.listed.ops, op.precedence.rank < o.precedence.rank := by
    rw [hlisted]
    intro o ho
    obtain ⟨link, hlink, rfl⟩ := List.mem_map.1 ho
    have hle : 2 * op.precedence.rank + 1 ≤ 2 * link.1.precedence.rank := h.tight link hlink
    omega
  refine ⟨?_, ⟨hfits, htight, hclimbing, h.isClimbing⟩, fun link hlink o ho ↦ ?_⟩
  · rw [Expr.listed, hlisted]
    rfl
  · have hlt : 2 * link.1.precedence.rank < 2 * op.precedence.rank + 1 := h.loose link hlink
    have hle : link.1.precedence.rank ≤ op.precedence.rank := by omega
    rw [Expr.listed, Chain.ops_join, List.mem_append, List.mem_cons] at ho
    rcases ho with ho | rfl | ho
    · exact Nat.le_trans hle (hfits o ho)
    · exact hle
    · exact Nat.le_trans hle (Nat.le_of_lt (htight o ho))

/-- What is read behind an operator with its operands is read behind its left operand. -/
theorem Climbs.trans (h : Climbs op.precedence.right x c.advance.advance taken left right mid)
    (hx : x.listed = ⟨x, []⟩) (hle : power ≤ op.precedence.left)
    (hposition : c.advance.advance.position = c.position + 2)
    (h' : Climbs power (.binary op e right) mid taken' left' e' after) :
    Climbs power e c ((op, x) :: taken ++ taken') left' e' after where
  listed := by
    rw [h'.listed, Expr.listed, h.listed_eq hx, Chain.join, List.append_assoc]
  isClimbing := h'.isClimbing
  tight link hlink := by
    rcases List.mem_append.1 hlink with hlink | hlink
    · rcases List.mem_cons.1 hlink with rfl | hlink
      · exact hle
      · have hright : power ≤ op.precedence.right := Nat.le_succ_of_le hle
        exact Nat.le_trans hright (h.tight link hlink)
    · exact h'.tight link hlink
  loose := h'.loose
  faces := h'.faces
  position := by
    rw [h'.position, h.position, hposition, List.cons_append, List.length_cons,
      List.length_append]
    omega

/-- The right operand of an operator is what is read from the operand behind it, one level down. -/
theorem run_extension_of_faces {n : Nat} {rest : List (BinaryOp × Expr)}
    (hfaces : c.Faces ((op, x) :: rest)) (hle : power ≤ op.precedence.left)
    (hrun : (iterate (extension (.ofAllowance n) op.precedence.right) x).run c.advance.advance =
      .done right mid) :
    (extension (.ofAllowance (n + 1)) power e).run c = .done (some (.binary op e right)) mid := by
  obtain ⟨hop, hx, hbehind⟩ := hfaces
  have hfirst : (firstOperand (.ofAllowance n)).run c.advance = .done x c.advance.advance :=
    run_firstOperand_of_operand? hx (hbehind.isSymbol_eq_false (by decide) rfl)
      (hbehind.isSymbol_eq_false (by decide) rfl)
  refine run_extension_binary hop hle ?_
  show (expressionFrom (.ofAllowance n) op.precedence.right).run c.advance = _
  rw [expressionFrom, run_bind_of_done hfirst, hrun]

end

/-- **The levels that are open at once go up the ladder of precedence**: an operator that is tight
enough asks for tighter ones on its right, with one level less. So nine levels are enough for the
loosest of a chain, however long it is. -/
theorem exists_climbs {n power : Nat} {e : Expr} {c : Cursor} {rest : List (BinaryOp × Expr)}
    (hlevels : 9 ≤ n + (power + 1) / 2) (hfaces : c.Faces rest) (hclimbing : e.IsClimbing)
    (hfits : ∀ link ∈ rest.head?, ∀ o ∈ e.listed.ops,
      link.1.precedence.rank ≤ o.precedence.rank) :
    ∃ taken left e' after, rest = taken ++ left ∧
      (iterate (extension (.ofAllowance n) power) e).run c = .done e' after ∧
      Climbs power e c taken left e' after := by
  induction hlength : rest.length using Nat.strongRecOn generalizing n power e c rest with
  | ind length ih =>
  subst hlength
  by_cases hloose : ∀ link ∈ rest.head?, link.1.precedence.left < power
  · exact ⟨[], rest, e, c, rfl, run_iterate_of_none (run_extension_of_stops
      (hfaces.stops hloose) e), .stopped hclimbing hloose hfaces⟩
  · obtain ⟨op, x, rest, rfl⟩ : ∃ op x rest', rest = (op, x) :: rest' := by
      rcases rest with _ | ⟨⟨op, x⟩, rest⟩
      · exact absurd nofun hloose
      · exact ⟨op, x, rest, rfl⟩
    have hle : power ≤ op.precedence.left := by
      refine Nat.le_of_not_lt fun hlt ↦ hloose fun link hlink ↦ ?_
      obtain rfl := Option.some.inj hlink
      exact hlt
    replace hfits : ∀ o ∈ e.listed.ops, op.precedence.rank ≤ o.precedence.rank :=
      hfits (op, x) rfl
    have ⟨hop, hx, hbehind⟩ := hfaces
    obtain ⟨hxlisted, hxclimbing⟩ := Token.listed_of_operand? hx
    obtain ⟨m, rfl, hlevels'⟩ := BinaryOp.exists_level hlevels hle
    -- The right operand takes the tighter operators behind it.
    obtain ⟨taken, left, right, mid, rfl, hrun, hmid⟩ :=
      @ih rest.length (Nat.lt_succ_self _) m op.precedence.right x _ rest hlevels' hbehind
        hxclimbing (by rw [hxlisted]; exact fun _ _ ↦ nofun) rfl
    obtain ⟨-, hclimbing', hfits'⟩ := hmid.binary hxlisted hclimbing hfits
    -- Then the loop goes on behind the operator and both of its operands.
    have hshorter : left.length < ((op, x) :: (taken ++ left)).length := by
      rw [List.length_cons, List.length_append]
      omega
    obtain ⟨taken', left', e', after, rfl, hrun', hafter⟩ :=
      @ih left.length hshorter (m + 1) power _ mid left hlevels hmid.faces
        hclimbing' hfits' rfl
    have hposition : c.advance.advance.position = c.position + 2 := by
      rw [Cursor.position_advance_of_isOpen (Token.isOpen_of_operand? hx),
        Cursor.position_advance_of_isOpen (Token.isOpen_of_continuation hop)]
    refine ⟨(op, x) :: taken ++ taken', left', e', after, ?_, ?_,
      hmid.trans hxlisted hle hposition hafter⟩
    · simp only [List.cons_append, List.append_assoc]
    · rw [run_iterate_extension (run_extension_of_faces hfaces hle hrun), hrun']

/-- A query of a chain is a statement with the tree of that chain, in which eleven levels are open
at most: those of the query and its expression, and nine for the operators. -/
theorem exists_run_chain {n : Nat} {c : Cursor} {tokens behind : List Token} {closing : Token}
    {chain : Chain} (hlevels : 9 ≤ n) (hselect : c.current.isKeyword .SELECT)
    (hahead : c.advance.ahead = tokens ++ closing :: behind)
    (hplaceholders : c.advance.placeholders = 0) (hclosing : closing.endsStatement)
    (hchain : Chain.ofTokens? tokens = some chain) :
    ∃ e after, (terminated (statementWithin (n + 2))).run c = .done (.select (.ofExpr e)) after ∧
      e.listed = chain ∧ e.IsClimbing ∧
      after.position = c.position + (tokens.length + 1) ∧ after.current.endsStatement := by
  rcases tokens with _ | ⟨operand, tokens⟩
  · cases hchain
  obtain ⟨first, hfirst, hchain⟩ := Option.bind_eq_some_iff.1 hchain
  obtain ⟨rest, hrest, hchain⟩ := Option.bind_eq_some_iff.1 hchain
  obtain rfl := Option.some.inj hchain
  obtain rfl := Completion.current_eq_of_ahead hahead
  have hopen := Token.isOpen_of_isKeyword hselect
  have hopen' := Token.isOpen_of_operand? hfirst
  have hcount := Cursor.placeholders_advance_of_isOpen hopen'
  rw [hplaceholders, Nat.zero_add] at hcount
  have hfaces : c.advance.advance.Faces rest :=
    Cursor.faces_of_links? (Completion.ahead_advance hahead hopen') hclosing (hcount ▸ hrest)
  obtain ⟨hlisted, hclimbing⟩ := Token.listed_of_operand? hfirst
  obtain ⟨taken, left, e, after, rfl, hrun, hafter⟩ := @exists_climbs n 0 first _ rest hlevels
    hfaces hclimbing (by rw [hlisted]; exact fun _ _ ↦ nofun)
  -- With no power asked for, no operator is left.
  obtain rfl := hafter.eq_nil
  rw [List.append_nil] at hrest
  refine ⟨e, after, run_terminated_ofExpr hselect
    (Token.isKeyword_eq_false_of_operand? hfirst rfl)
    (Token.isKeyword_eq_false_of_operand? hfirst rfl) ?_ hafter.faces, ?_, hafter.isClimbing, ?_,
    hafter.faces⟩
  · rw [expressionFrom, run_bind_of_done (run_firstOperand_of_operand? (hplaceholders ▸ hfirst)
      (hfaces.isSymbol_eq_false (by decide) rfl) (hfaces.isSymbol_eq_false (by decide) rfl)), hrun]
  · rw [hafter.listed, hlisted, List.nil_append, List.append_nil]
  · rw [hafter.position, Cursor.position_advance_of_isOpen hopen',
      Cursor.position_advance_of_isOpen hopen, List.length_cons, Chain.length_of_links? hrest]
    omega

end Rule

/-! ### Statements and batches -/

/-- What is read of a query of a chain, at an index of a list of tokens. -/
theorem exists_parseFrom_chain {batch tokens behind : List Token} {start : Nat}
    {select closing : Token} {chain : Chain} (hselect : select.isKeyword .SELECT)
    (hdrop : batch.drop start = select :: (tokens ++ closing :: behind))
    (hclosing : closing.endsStatement) (hchain : Chain.ofTokens? tokens = some chain) :
    ∃ e, parseFrom batch start =
        ⟨some (.select (.ofExpr e)), [], start + (tokens.length + 1)⟩ ∧
      staysWithin 11 batch start ∧ e.listed = chain ∧ e.IsClimbing := by
  obtain rfl := (Completion.current_eq_of_ahead (d := .ofTokens batch start) hdrop).symm
  have hopen := Token.isOpen_of_isKeyword hselect
  have hquestion : (Cursor.ofTokens batch start).current.isSymbol .question = false := by
    rw [Token.isSymbol, beq_iff_eq.1 hselect]
    rfl
  have hplaceholders := Cursor.placeholders_advance_of_isOpen hopen
  rw [hquestion] at hplaceholders
  have hahead := Completion.ahead_advance (d := .ofTokens batch start) hdrop hopen
  have hread {n : Nat} (hlevels : 9 ≤ n) :=
    Rule.exists_run_chain hlevels hselect hahead hplaceholders hclosing hchain
  obtain ⟨e, after, hrun, hlisted, hclimbing, hposition, -⟩ :=
    @hread (Nested.maxDepth - 2) (by decide)
  obtain ⟨e', after', hrun', -⟩ := @hread 9 (by decide)
  refine ⟨e, ?_, ?_, hlisted, hclimbing⟩
  · change Rule.terminatedStatement.run _ = _ at hrun
    rw [parseFrom_of_run hrun, ← show _ = start + (tokens.length + 1) from hposition]
  · rw [staysWithin, hrun']

/-- **Chains of operators are read, however long they are**, with never more than eleven levels of
nesting open, as the one tree that has their operands and operators in their order, grouped by
precedence: anywhere in a list of tokens, and in a batch of their own. -/
theorem chain_is_read {select : Token} {tokens : List Token} {chain : Chain}
    (hselect : select.isKeyword .SELECT) (hchain : Chain.ofTokens? tokens = some chain) :
    ∃ e : Expr, (∀ e' : Expr, e'.listed = chain ∧ e'.IsClimbing ↔ e' = e) ∧
      (∀ (batch : List Token) (start : Nat) (closing : Token) (behind : List Token),
        batch.drop start = select :: (tokens ++ closing :: behind) → closing.endsStatement →
        parseFrom batch start =
            ⟨some (.select (.ofExpr e)), [], start + (tokens.length + 1)⟩ ∧
          staysWithin 11 batch start) ∧
      ∀ (source : String) (ending : Token), tokenize source = select :: (tokens ++ [ending]) →
        ∃ s, parseBatch source false = .ok [s] ∧ s.tree? = some (.select (.ofExpr e)) := by
  have hread {batch behind : List Token} {start : Nat} {closing : Token}
      (hdrop : batch.drop start = select :: (tokens ++ closing :: behind))
      (hclosing : closing.endsStatement) :=
    exists_parseFrom_chain hselect hdrop hclosing hchain
  obtain ⟨e, -, -, hlisted, hclimbing⟩ :=
    @hread (select :: (tokens ++ [.eofAt 0])) [] 0 (.eofAt 0) rfl rfl
  -- There is one such tree, so what stands around the statement has no part in it.
  have hunique (e' : Expr) : e'.listed = chain ∧ e'.IsClimbing ↔ e' = e := by
    refine ⟨fun ⟨hlisted', hclimbing'⟩ ↦ ?_, ?_⟩
    · exact hclimbing'.eq_of_listed hclimbing (hlisted'.trans hlisted.symm)
    · rintro rfl
      exact ⟨hlisted, hclimbing⟩
  have hparse {batch behind : List Token} {start : Nat} {closing : Token}
      (hdrop : batch.drop start = select :: (tokens ++ closing :: behind))
      (hclosing : closing.endsStatement) :
      parseFrom batch start = ⟨some (.select (.ofExpr e)), [], start + (tokens.length + 1)⟩ ∧
        staysWithin 11 batch start := by
    obtain ⟨e', hattempt, hstays, hlisted', hclimbing'⟩ := hread hdrop hclosing
    obtain rfl := (hunique e').1 ⟨hlisted', hclimbing'⟩
    exact ⟨hattempt, hstays⟩
  refine ⟨e, hunique, fun _ _ _ _ hdrop hclosing ↦ hparse hdrop hclosing,
    fun source ending htokens ↦ ?_⟩
  have htokens : tokenize source = select :: tokens ++ [ending] := htokens
  have hattempt := (@hparse (tokenize source) [] 0 ending htokens
    (endsStatement_of_tokenize htokens)).1
  rw [Nat.zero_add] at hattempt
  exact exists_parseBatch_of_parseFrom htokens hattempt

/-- `AND` groups first and `OR` after it. -/
theorem chain_is_read_or_and :
    Token.isKeyword ⟨.keyword .SELECT, "SELECT", ⟨0, 6⟩⟩ .SELECT ∧
      Chain.ofTokens? [⟨.identifier "a", "a", ⟨7, 8⟩⟩, ⟨.keyword .OR, "OR", ⟨9, 11⟩⟩,
        ⟨.symbol .question, "?", ⟨12, 13⟩⟩, ⟨.keyword .AND, "AND", ⟨14, 17⟩⟩,
        ⟨.integer 1, "1", ⟨18, 19⟩⟩] =
          some ⟨.column none "a" ⟨7, 8⟩, [(.or, .parameter (.anonymous 1)),
            (.and, .literal (.integer 1))]⟩ ∧
      ∃ s, parseBatch "SELECT a OR ? AND 1" false = .ok [s] ∧
        s.tree? = some (.select (.ofExpr (.binary .or (.column none "a" ⟨7, 8⟩)
          (.binary .and (.parameter (.anonymous 1)) (.literal (.integer 1)))))) := by
  refine ⟨rfl, rfl, ?_⟩
  obtain ⟨e, hunique, -, hbatch⟩ := @chain_is_read ⟨.keyword .SELECT, "SELECT", ⟨0, 6⟩⟩
    [⟨.identifier "a", "a", ⟨7, 8⟩⟩, ⟨.keyword .OR, "OR", ⟨9, 11⟩⟩,
      ⟨.symbol .question, "?", ⟨12, 13⟩⟩, ⟨.keyword .AND, "AND", ⟨14, 17⟩⟩,
      ⟨.integer 1, "1", ⟨18, 19⟩⟩] _ rfl rfl
  obtain rfl := (hunique (.binary .or (.column none "a" ⟨7, 8⟩)
    (.binary .and (.parameter (.anonymous 1)) (.literal (.integer 1))))).1
      ⟨rfl, by simp [Expr.IsClimbing, Expr.listed, Chain.join, Chain.ops, BinaryOp.precedence,
        Precedence.rank]⟩
  exact hbatch "SELECT a OR ? AND 1" (.eofAt 19) (by decide +kernel)

end SqlBatch
