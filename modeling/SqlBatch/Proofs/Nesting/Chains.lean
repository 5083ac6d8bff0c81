import SqlBatch.Proofs.Reading.Expression
import SqlBatch.Tree.Height

/-!
# Chains of any length are read

`SELECT 1 IS NULL IS NULL …` is read at one level of nesting, however often `IS NULL` is repeated,
and each repetition puts one more node above the literal.

So there is no bound for the height of a tree (`not_bounded_height`), although there is one for how
deep constructs are nested: what goes on behind an operand is read in a loop, which opens no level.

## The proof

It goes along the text for any number of repetitions. What is evaluated are the kinds of a few
words; everything else is by induction on the number:

* the tokens of the text, word by word (`kindsOf_chainText`),
* the run of the loop, one predicate a round (`run_iterate_chain`),
* the height of the tree that it leaves (`Expr.extent_chain`).

The grammar of the levels inside has no part in it, for a literal and `IS NULL` ask for nothing
there: the loop reads the same whatever is read inside of it.
-/

namespace SqlBatch

/-! ### The text -/

/-- A query of one column with a number of predicates one behind the other. -/
def chainText (n : Nat) : List Char :=
  "SELECT ".toList ++ "1 ".toList ++ (List.replicate n ("IS ".toList ++ "NULL ".toList)).flatten

/-- The kinds of the tokens of a number of predicates. -/
def chainKinds : Nat → List Token.Kind
  | 0 => [.eof]
  | n + 1 => .keyword .IS :: .keyword .NULL :: chainKinds n

/-- The tokens of the text. -/
theorem kindsOf_chainText (n : Nat) :
    kindsOf (chainText n) = .keyword .SELECT :: .integer 1 :: chainKinds n := by
  have hselect (rest : List Char) : kindsOf ("SELECT ".toList ++ rest) =
      .keyword .SELECT :: kindsOf rest :=
    @kindsOf_cons 'S' "ELECT".toList _ (fun _ ↦ rfl) (by decide +kernel) rest
  have hone (rest : List Char) : kindsOf ("1 ".toList ++ rest) = .integer 1 :: kindsOf rest :=
    @kindsOf_cons '1' [] _ (fun _ ↦ rfl) (by decide +kernel) rest
  have his (rest : List Char) : kindsOf ("IS ".toList ++ rest) = .keyword .IS :: kindsOf rest :=
    @kindsOf_cons 'I' "S".toList _ (fun _ ↦ rfl) (by decide +kernel) rest
  have hnull (rest : List Char) :
      kindsOf ("NULL ".toList ++ rest) = .keyword .NULL :: kindsOf rest :=
    @kindsOf_cons 'N' "ULL".toList _ (fun _ ↦ rfl) (by decide +kernel) rest
  have hchain : kindsOf (List.replicate n ("IS ".toList ++ "NULL ".toList)).flatten =
      chainKinds n := by
    induction n with
    | zero => decide +kernel
    | succ n ih =>
      rw [List.replicate_succ, List.flatten_cons, List.append_assoc, his, hnull, ih, chainKinds]
  show kindsOf ("SELECT ".toList ++ ("1 ".toList ++ _)) = _
  rw [hselect, hone, hchain]

/-! ### The tree -/

/-- A number of predicates, one around the other. -/
def Expr.chain : Nat → Expr → Expr
  | 0, e => e
  | n + 1, e => chain n (.isNull e false)

/-- Each repetition puts one node on top. -/
theorem Expr.extent_chain (n : Nat) (e : Expr) :
    (chain n e).extent .height = n + e.extent .height := by
  induction n generalizing e with
  | zero => exact (Nat.zero_add _).symm
  | succ n ih =>
    have hone : (isNull e false).extent .height = 1 + e.extent .height := rfl
    rw [chain, ih, hone]
    omega

namespace Rule

variable {c : Cursor} {rest : List Token.Kind}

/-- One predicate goes around the operand in front of it. -/
theorem run_extension_isNull (inner : Nested) (e : Expr)
    (h : c.kinds = .keyword .IS :: .keyword .NULL :: rest) :
    ∃ after, (extension inner 0 e).run c = .done (some (.isNull e false)) after ∧
      after.kinds = rest := by
  have hnull := Cursor.kinds_advance h (Cursor.isOpen_of_kinds h rfl)
  refine ⟨c.advance.advance, ?_, Cursor.kinds_advance hnull (Cursor.isOpen_of_kinds hnull rfl)⟩
  refine run_extension_of_ofKind? (by rw [Cursor.kind_current h]; rfl) (Nat.zero_le _) ?_
  rw [continuation, run_bind_of_done (run_acceptKeyword_of_ne hnull (by decide)),
    run_bind_of_done (run_keyword_of_kinds hnull)]
  rfl

/-- **A chain of any length is read at one level.** -/
theorem run_iterate_chain (inner : Nested) (n : Nat) (e : Expr) (h : c.kinds = chainKinds n) :
    ∃ after, (iterate (extension inner 0) e).run c = .done (Expr.chain n e) after ∧
      after.kinds = [.eof] := by
  induction n generalizing e c with
  | zero =>
    have hstops := Cursor.stops_of_endsStatement (Cursor.endsStatement_of_eof h) 0
    exact ⟨c, run_iterate_of_none (run_extension_of_stops hstops e), h⟩
  | succ n ih =>
    obtain ⟨mid, hstep, hmid⟩ := run_extension_isNull inner e h
    rw [run_iterate_extension hstep, Expr.chain]
    exact ih (.isNull e false) hmid

/-- An integer is an operand. -/
theorem run_firstOperand_integer (inner : Nested) {value : Nat}
    (h : c.kinds = .integer value :: rest) :
    (firstOperand inner).run c = .done (.literal (.integer value)) c.advance := by
  rw [run_firstOperand (by rw [Cursor.kind_current h]; rfl),
    run_operand (by rw [Cursor.kind_current h]; rfl)]
  rfl

/-- The expression is read up to the end of the batch. -/
theorem run_expression_chain (inner : Nested) (n : Nat)
    (h : c.kinds = .integer 1 :: chainKinds n) :
    ∃ after, (expressionFrom inner 0).run c = .done (.chain n (.literal (.integer 1))) after ∧
      after.kinds = [.eof] := by
  obtain ⟨after, hrun, hafter⟩ := run_iterate_chain inner n (.literal (.integer 1))
    (Cursor.kinds_advance h (Cursor.isOpen_of_kinds h rfl))
  refine ⟨after, ?_, hafter⟩
  rw [expressionFrom, run_bind, run_firstOperand_integer inner h]
  exact hrun

/-- A chain of any length is a statement. -/
theorem run_terminatedStatement_chain (n : Nat)
    (h : c.kinds = .keyword .SELECT :: .integer 1 :: chainKinds n) :
    ∃ after, terminatedStatement.run c =
      .done (.select (.ofExpr (.chain n (.literal (.integer 1))))) after ∧
        after.kinds = [.eof] := by
  have hselect := Cursor.isKeyword_current h
  have hone := Cursor.kinds_advance h (Token.isOpen_of_isKeyword hselect)
  obtain ⟨after, hrun, hafter⟩ := run_expression_chain (.ofAllowance (Nested.maxDepth - 2)) n hone
  exact ⟨after, run_terminated_ofExpr hselect (Cursor.isKeyword_of_ne hone nofun)
    (Cursor.isKeyword_of_ne hone nofun) hrun (Cursor.endsStatement_of_eof hafter), hafter⟩

end Rule

/-! ### The batch -/

/-- A chain of any length is the only statement of its text. -/
theorem exists_parseBatch_chain (n : Nat) : ∃ s tree,
    parseBatch (String.ofList (chainText n)) false = .ok [s] ∧ s.tree? = some tree ∧
      n ≤ tree.height := by
  obtain ⟨source, hsource⟩ : ∃ source, String.ofList (chainText n) = source := ⟨_, rfl⟩
  have hkinds : (tokenize source).map (·.kind) = .keyword .SELECT :: .integer 1 :: chainKinds n :=
    hsource ▸ kindsOf_chainText n
  obtain ⟨after, hrun, hafter⟩ :=
    Rule.run_terminatedStatement_chain (c := .ofTokens (tokenize source) 0) n hkinds
  obtain ⟨s, hparse, htree⟩ := exists_parseBatch_of_run hkinds hrun hafter
  refine ⟨s, _, hsource ▸ hparse, htree, ?_⟩
  have hchain := Expr.extent_chain n (.literal (.integer 1))
  show n ≤ 1 + (1 + max (max (max (Expr.extent .height _) 0) _) _)
  omega

/-- **Trees are not bounded in height** by any number. -/
theorem not_bounded_height : ¬ ∃ bound, ∀ (source : String) (statements : List Statement),
    parseBatch source false = .ok statements → ∀ s ∈ statements, ∀ tree, s.tree? = some tree →
      tree.height ≤ bound := by
  rintro ⟨bound, hbound⟩
  obtain ⟨s, tree, hparse, htree, hheight⟩ := exists_parseBatch_chain (bound + 1)
  have hle := hbound _ _ hparse s (.head _) tree htree
  exact Nat.not_succ_le_self bound (Nat.le_trans hheight hle)

end SqlBatch
