import SqlBatch.Proofs.Origins
import SqlBatch.Proofs.Reuse
import SqlBatch.Proofs.Stopping

/-!
# The numbers of placeholders

The `?` parameters of a statement are numbered in the order in which they are written, from one on,
in whatever order the tree keeps its parts. So a parameter with a number may be written in place of
each placeholder: the statement is read alike, and its tree has those numbers in place of those that
were counted (`parseFrom_numbered`). This is a replay of the statement in which the second list has
numbers.

## No number twice, no number left out

No number is counted twice because a placeholder, once it has been passed, is never met again
(`Cursor.supply_placeholder_le_one`). A number that is in the tree was written at a placeholder, as
its label. That none is left out but those in clauses that are replaced is not claimed of the tree:
the tokens have them all, and the tree has those of what it keeps.
-/

namespace SqlBatch

/-! ### Numbers in place of placeholders -/

/-- The second list has parameters with numbers in place of the placeholders of the first one, of
which `k` more stand in front. -/
inductive Numbered : Nat → List Token → List Token → Prop
  | nil {k : Nat} : Numbered k [] []
  | placeholder {k : Nat} {t u : Token} {ts us : List Token} {number : UInt32} :
    t.isSymbol .question → u.kind = .parameter number → number.toNat = k + 1 →
    Numbered (k + 1) ts us → Numbered k (t :: ts) (u :: us)
  | other {k : Nat} {t : Token} {ts us : List Token} :
    t.isSymbol .question = false → Numbered k ts us → Numbered k (t :: ts) (t :: us)

/-- Write the numbers of `?` parameters out. -/
def Relabeling.positional : Relabeling where
  span s := s
  parameter
    | .anonymous n => .positional (.ofNat n)
    | p => p

/-- The second reading is of the same tokens with numbers in place of placeholders. -/
def Replay.numbered (stop : Nat) : Replay :=
  { itself stop with numbers := some .ofNat }

theorem Replay.labels_numbered (stop : Nat) : (numbered stop).labels = .positional := by
  rfl

namespace Numbered

variable {k : Nat} {ts us : List Token}

/-- All placeholders can be written as numbers, as long as these fit into a word. -/
theorem exists_of_countP_lt (h : k + ts.countP (·.isSymbol .question) < UInt32.size) :
    ∃ us, Numbered k ts us := by
  induction ts generalizing k with
  | nil => exact ⟨[], .nil⟩
  | cons t ts ih =>
    rw [List.countP_cons] at h
    by_cases ht : t.isSymbol .question
    · rw [if_pos ht] at h
      obtain ⟨us, hus⟩ := @ih (k + 1) (by omega)
      have hnumber : (UInt32.ofNat (k + 1)).toNat = k + 1 :=
        UInt32.toNat_ofNat_of_lt' (by omega)
      exact ⟨{ t with kind := .parameter (.ofNat (k + 1)) } :: us, .placeholder ht rfl hnumber hus⟩
    · rw [if_neg ht] at h
      obtain ⟨us, hus⟩ := ih h
      exact ⟨t :: us, .other (Bool.eq_false_iff.2 ht) hus⟩

/-- The lists correspond in front of the end of a statement. -/
theorem common (h : Numbered k ts us) (stop : Nat) {rest : List Token}
    (hends : (rest.headD (.eofAt 0)).endsStatement) :
    (Replay.numbered stop).Common k ts.length (ts ++ rest) (us ++ rest) := by
  induction h with
  | nil => exact ⟨.inr ⟨hends, hends⟩, .inl hends⟩
  | placeholder ht hu hnumber _ ih =>
    refine ⟨.numbered rfl ht ?_, by rwa [if_pos ht]⟩
    rw [hu, ← hnumber, UInt32.ofNat_toNat]
  | @other k t ts us ht _ ih =>
    have hne : ¬ t.isSymbol .question := Bool.eq_false_iff.1 ht
    exact ⟨.same rfl fun hquestion ↦ absurd hquestion hne, by rwa [if_neg hne]⟩

end Numbered

/-! ### The supply of numbers -/

namespace Cursor

variable {c after : Cursor} {n : Nat}

theorem Reaches.placeholders_le (h : c.Reaches after) : c.placeholders ≤ after.placeholders :=
  h.placeholders_eq ▸ Nat.le_add_right _ _

/-- Moving past a placeholder counts it. -/
theorem Spells.placeholders_advance (h : c.Spells (.placeholder n)) :
    c.advance.placeholders = n := by
  obtain ⟨hquestion, rfl⟩ := h
  have hopen := Token.isOpen_of_isSpoken (Token.isSpoken_of_isSymbol hquestion rfl)
  rw [placeholders_advance_of_isOpen hopen, if_pos hquestion]

/-- A number that has been counted is not written any more. -/
theorem supplyIn_placeholder_eq_zero (h : n ≤ c.placeholders) (k : Nat) :
    c.supplyIn (.placeholder n) k = 0 := by
  induction k generalizing c with
  | zero => rfl
  | succ k ih =>
    have hspells : ¬ c.Spells (.placeholder n) := fun hspells ↦ by
      have := hspells.2
      omega
    rw [supplyIn, if_neg hspells, ih (Nat.le_trans h (Reaches.advance c).placeholders_le)]

theorem supplyIn_placeholder_le_one (n k : Nat) (c : Cursor) :
    c.supplyIn (.placeholder n) k ≤ 1 := by
  induction k generalizing c with
  | zero => exact Nat.zero_le _
  | succ k ih =>
    rw [supplyIn]
    split
    · rename_i hspells
      refine Nat.le_of_eq ?_
      rw [supplyIn_placeholder_eq_zero (Nat.le_of_eq hspells.placeholders_advance.symm)]
    · exact (Nat.zero_add _).symm ▸ ih c.advance

/-- **Every number is written once at most.** -/
theorem supply_placeholder_le_one (n : Nat) (c : Cursor) : c.supply (.placeholder n) ≤ 1 :=
  supplyIn_placeholder_le_one n _ c

end Cursor

/-- The number of a node that is a `?` parameter. -/
def Node.placeholder? : Node → Option Nat
  | .expr (.parameter (.anonymous n)) => some n
  | _ => none

/-- The numbers of the `?` parameters of a tree. -/
def Command.placeholders (tree : Command) : List Nat :=
  tree.nodes.filterMap Node.placeholder?

theorem Node.placeholder?_eq_some {node : Node} {n : Nat} :
    node.placeholder? = some n ↔ node.label? = some (.placeholder n) := by
  unfold placeholder? label?
  split
  · simp
  · rename_i hnone
    split
    · simp
    · exact absurd rfl (hnone _)
    · simp

theorem Command.count_placeholders (tree : Command) (n : Nat) :
    tree.placeholders.count n = (labels tree.nodes).count (.placeholder n) := by
  rw [placeholders, labels, List.count_filterMap, List.count_filterMap]
  refine List.countP_congr fun node _ ↦ ?_
  rw [beq_iff_eq, beq_iff_eq]
  exact Node.placeholder?_eq_some

/-- The placeholders of a tree are labels of it. -/
theorem Command.mem_placeholders {tree : Command} {n : Nat} :
    n ∈ tree.placeholders ↔ .placeholder n ∈ labels tree.nodes := by
  rw [← List.count_pos_iff, ← List.count_pos_iff, count_placeholders]

/-! ### Statements with placeholders -/

/-- The placeholders of the tree that is read from the tokens `inside` are numbered in the order in
which they are written. -/
structure Command.NumbersPlaceholders (tree : Command) (before inside rest : List Token) :
    Prop where
  attempt : parseFrom (before ++ (inside ++ rest)) before.length =
    ⟨some tree, [], before.length + inside.length⟩
  exists_numbered : inside.countP (·.isSymbol .question) < UInt32.size →
    ∃ numbered, Numbered 0 inside numbered
  /-- With numbers in place of placeholders, the statement is read alike. -/
  attempt_numbered : ∀ numbered, Numbered 0 inside numbered →
    parseFrom (before ++ (numbered ++ rest)) before.length =
      ⟨some (tree.relabel .positional), [], before.length + inside.length⟩
  nodup : tree.placeholders.Nodup
  bounds : ∀ n ∈ tree.placeholders, 1 ≤ n ∧ n ≤ inside.countP (·.isSymbol .question)

section

variable {before inside rest : List Token} {tree : Command}

/-- A statement stops in front of what stands behind it. -/
theorem exists_run_inside (h : parseFrom (before ++ (inside ++ rest)) before.length =
      ⟨some tree, [], before.length + inside.length⟩) : ∃ after,
    Rule.terminatedStatement.run (.ofTokens (before ++ (inside ++ rest)) before.length) =
        .done tree after ∧
      after.ahead = rest ∧ after.position = before.length + inside.length := by
  obtain ⟨after, hrun, hattempt⟩ := exists_run_of_parseFrom (congrArg Attempt.tree h)
  obtain ⟨passed, hahead, hposition, -⟩ := (Rule.reaches_of_run hrun).exists_passed
  rw [Cursor.ahead_ofTokens] at hahead
  have hstop : after.position = before.length + inside.length :=
    congrArg Attempt.stop (hattempt.symm.trans h)
  have hlength : inside.length = passed.length :=
    Nat.add_left_cancel (hstop.symm.trans hposition)
  exact ⟨after, hrun, (List.append_inj hahead hlength).2.symm, hstop⟩

/-- **Numbers may be written in place of placeholders.** -/
theorem parseFrom_numbered (h : parseFrom (before ++ (inside ++ rest)) before.length =
      ⟨some tree, [], before.length + inside.length⟩) {numbered : List Token}
    (hnumbered : Numbered 0 inside numbered) :
    parseFrom (before ++ (numbered ++ rest)) before.length =
      ⟨some (tree.relabel .positional), [], before.length + inside.length⟩ := by
  obtain ⟨after, hrun, rfl, hstop⟩ := exists_run_inside h
  let R := Replay.numbered (before.length + inside.length)
  have hagree : R.Agree (.ofTokens (before ++ (inside ++ after.ahead)) before.length)
      (.ofTokens (before ++ (numbered ++ after.ahead)) before.length) := by
    refine ⟨rfl, nofun, Nat.le_add_right _ _, ?_, nofun⟩
    rw [Cursor.ahead_ofTokens, Cursor.ahead_ofTokens]
    show R.Common 0 (before.length + inside.length - before.length) _ _
    rw [Nat.add_sub_cancel_left]
    exact hnumbered.common _ (endsStatement_of_terminated hrun)
  obtain ⟨after', hrun', hafter⟩ :=
    Replay.Replays.terminatedStatement.run_of_done hagree hrun (Nat.le_of_eq hstop)
  have hposition : after.position = after'.position := hafter.position
  rw [parseFrom_of_run hrun', Replay.labels_numbered, ← hposition, hstop]

/-- As many placeholders are counted as are passed. -/
theorem placeholders_of_run {after : Cursor}
    (hrun : Rule.terminatedStatement.run (.ofTokens (before ++ (inside ++ rest)) before.length) =
      .done tree after) (hstop : after.position = before.length + inside.length) :
    after.placeholders = inside.countP (·.isSymbol .question) := by
  have hcount := (Rule.reaches_of_run hrun).placeholders_eq
  rw [Outcome.cursor_done, Cursor.ahead_ofTokens, hstop] at hcount
  refine hcount.trans (Nat.zero_add _ |>.trans ?_)
  show ((inside ++ rest).take (before.length + inside.length - before.length)).countP _ = _
  rw [Nat.add_sub_cancel_left, List.take_left]

/-- **The placeholders of a statement are numbered as they are written.** -/
theorem numbersPlaceholders (h : parseFrom (before ++ (inside ++ rest)) before.length =
      ⟨some tree, [], before.length + inside.length⟩) :
    tree.NumbersPlaceholders before inside rest := by
  obtain ⟨after, hrun, rfl, hstop⟩ := exists_run_inside h
  refine ⟨h, fun hlt ↦ Numbered.exists_of_countP_lt ((Nat.zero_add _).symm ▸ hlt),
    fun _ ↦ parseFrom_numbered h, List.nodup_iff_count.2 fun n ↦ ?_, fun n hn ↦ ?_⟩
  · have hle := Request.terminated.count_labels_le hrun (.placeholder n)
    have hone := Cursor.supply_placeholder_le_one n
      (.ofTokens (before ++ (inside ++ after.ahead)) before.length)
    rw [tree.count_placeholders]
    omega
  · obtain ⟨mid, hmid, hopen, hspells, hlater⟩ :=
      Request.terminated.exists_spells_of_mem_labels hrun (Command.mem_placeholders.1 hn)
    refine ⟨hspells.2 ▸ Nat.le_add_left _ _, ?_⟩
    rw [← hspells.placeholders_advance, ← placeholders_of_run hrun hstop]
    exact hlater.placeholders_le

end

/-- What an attempt at reading a statement passes, if it answers with a tree. -/
theorem exists_inside_of_parseFrom {tokens : List Token} {start : Nat} {tree : Command}
    (h : (parseFrom tokens start).tree = some tree) : ∃ before inside rest,
      tokens = before ++ (inside ++ rest) ∧ before.length = start ∧
        parseFrom tokens start = ⟨some tree, [], start + inside.length⟩ := by
  obtain ⟨after, hrun, hattempt⟩ := exists_run_of_parseFrom h
  obtain ⟨inside, hahead, hposition, -⟩ := (Rule.reaches_of_run hrun).exists_passed
  have hdrop : tokens.drop start = inside ++ after.ahead := hahead
  have hstop : after.position = start + inside.length := hposition
  have hlt : start < after.position := Rule.position_lt_of_terminatedStatement hrun
  have hstart : start ≤ tokens.length := by
    have := congrArg List.length hdrop
    rw [List.length_drop, List.length_append] at this
    omega
  refine ⟨tokens.take start, inside, after.ahead, ?_, List.length_take_of_le hstart, ?_⟩
  · rw [← hdrop, List.take_append_drop]
  · rw [hattempt, hstop]

/-- **Placeholders are numbered by their place in their own statement.** This holds of every
statement that is read from whatever tokens, and of every statement of a batch, which is read from
the tokens in its span: numbers start anew in each statement, and none is used twice in a tree. -/
theorem placeholders_numbered :
    (∀ (tokens : List Token) (start : Nat) (tree : Command),
      (parseFrom tokens start).tree = some tree → ∃ before inside rest,
        tokens = before ++ (inside ++ rest) ∧ before.length = start ∧
          tree.NumbersPlaceholders before inside rest) ∧
    ∀ source : String, ∃ statements, parseBatch source false = .ok statements ∧
      ∀ s ∈ statements, ∀ tree, s.tree? = some tree → ∃ before inside rest,
        tokenize source = before ++ (inside ++ rest) ∧
          inside = (tokenize source).filter
            (fun t ↦ !t.endsStatement && s.span.Covers t.span) ∧
          tree.NumbersPlaceholders before inside rest := by
  constructor
  · intro tokens start tree htree
    obtain ⟨before, inside, rest, rfl, rfl, hattempt⟩ := exists_inside_of_parseFrom htree
    exact ⟨before, inside, rest, rfl, rfl, numbersPlaceholders hattempt⟩
  · intro source
    obtain ⟨ps, hps⟩ := exists_splits_tokenize source
    refine ⟨_, parseBatch_of_splits hps, fun s hs tree htree ↦ ?_⟩
    obtain ⟨before, inside, closing, behind, hread⟩ :=
      exists_isReadFrom (parseBatch_of_splits hps) hs htree
    refine ⟨before, inside, closing :: behind, hread.tokens_eq, hread.inside_eq_filter, ?_⟩
    exact numbersPlaceholders (hread.tokens_eq ▸ hread.attempt)

/-- Two placeholders behind another statement with one. -/
theorem placeholders_numbered_two :
    ∃ (tree : Command) (before inside rest numbered : List Token),
      tokenize "SELECT ?; SELECT ?, ?" = before ++ (inside ++ rest) ∧ before.length = 3 ∧
        tree.placeholders = [1, 2] ∧ Numbered 0 inside numbered ∧
          parseFrom (before ++ (numbered ++ rest)) 3 =
            ⟨some (tree.relabel .positional), [], 3 + inside.length⟩ := by
  have hread : (parseFrom (tokenize "SELECT ?; SELECT ?, ?") 3).tree.map Command.placeholders =
      some [1, 2] := by
    decide +kernel
  have hcount : (tokenize "SELECT ?; SELECT ?, ?").countP (·.isSymbol .question) = 3 := by
    decide +kernel
  obtain ⟨tree, htree, hplaceholders⟩ := Option.map_eq_some_iff.1 hread
  obtain ⟨before, inside, rest, htokens, hbefore, hnumbers⟩ :=
    placeholders_numbered.1 (tokenize "SELECT ?; SELECT ?, ?") 3 tree htree
  have hlt : inside.countP (·.isSymbol .question) < UInt32.size := by
    rw [htokens, List.countP_append, List.countP_append] at hcount
    have hsize : 3 < UInt32.size := by decide
    omega
  obtain ⟨numbered, hnumbered⟩ := hnumbers.exists_numbered hlt
  have hattempt := hnumbers.attempt_numbered numbered hnumbered
  rw [hbefore] at hattempt
  exact ⟨tree, before, inside, rest, numbered, htokens, hbefore, hplaceholders, hnumbered, hattempt⟩

end SqlBatch
