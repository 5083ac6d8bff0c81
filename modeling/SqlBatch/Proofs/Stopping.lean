import SqlBatch.Dialect
import SqlBatch.Proofs.Attempt
import SqlBatch.Proofs.Vocabulary.Grammar

/-!
# Where an attempt stops

An attempt at reading a statement passes tokens that the grammar has a use for and stops in front of
the end of the statement. It answers with a tree if the statement ends there, and otherwise with one
error, which tells of the token where it stopped (`crateDb_stopsAt`). None of this depends on how
the tokens come about, nor on whether they end.

## What each part rests on

The parts of the contract come from different laws of rules, each proved along the grammar in a
module of its own:

* what a rule passes, from its vocabulary (`Rule.passes_terminatedStatement`);
* that a failure quotes its token, from replaying (`Rule.isQuoting_of_run`);
* that a statement has at least one token, from what its first word can be: where a statement ends,
  none starts (`Rule.run_topStatement_of_endsStatement`).

An error at a token that the lexer could not read says so, whatever the rule that failed there was
looking for; and this wording quotes the token too (`SyntaxError.tells_atToken`).
-/

namespace SqlBatch

/-- The token at an index; behind the last one, an end of the batch at offset zero. -/
def tokenAt (tokens : List Token) (i : Nat) : Token :=
  tokens[i]?.getD (.eofAt 0)

/-- The error tells of a token: where it lies, and its text, which the message quotes. -/
structure SyntaxError.Tells (error : SyntaxError) (t : Token) : Prop where
  span_eq : error.span = t.span
  text_eq : error.text = t.displayText
  quotes : ∃ before behind, error.message = before ++ "'" ++ t.displayText ++ "'" ++ behind
  recognition : t.isError → error.message = "token recognition error at: '" ++ t.displayText ++ "'"

/-- An attempt at reading a statement from an index of a list of tokens goes no further than the
statement, and says where it stopped and why. -/
structure Attempt.StopsAt (tokens : List Token) (start : Nat) (attempt : Attempt) : Prop where
  start_le : start ≤ attempt.stop
  stop_le : attempt.stop ≤ max start tokens.length
  /-- The tokens that are passed end no statement and could be read by the lexer. -/
  passed : ∀ i, start ≤ i → i < attempt.stop →
    (tokenAt tokens i).isSymbol .semicolon = false ∧ (tokenAt tokens i).isEof = false ∧
      (tokenAt tokens i).isError = false
  spoken : ∀ i, start ≤ i → i < attempt.stop → (tokenAt tokens i).isSpoken
  clean : attempt.isClean → attempt.tree.isSome ∧ start < attempt.stop ∧
    ((tokenAt tokens attempt.stop).isSymbol .semicolon ∨ (tokenAt tokens attempt.stop).isEof)
  failed : attempt.isClean = false → attempt.tree = none ∧
    ∃ error, attempt.errors = [error] ∧ error.Tells (tokenAt tokens attempt.stop)

/-! ### What errors tell -/

theorem SyntaxError.Cause.exists_quote {cause : Cause} (h : cause.IsQuoting) (found : String) :
    ∃ before behind, cause.message found = before ++ "'" ++ found ++ "'" ++ behind := by
  cases cause with
  | mismatched expected =>
    refine ⟨"mismatched input ", " expecting " ++ expectedText expected, ?_⟩
    show "mismatched input '" ++ found ++ "' expecting " ++ expectedText expected = _
    simp [← String.toList_inj]
  | missing expected =>
    refine ⟨"missing " ++ expected ++ " at ", "", ?_⟩
    show "missing " ++ expected ++ " at '" ++ found ++ "'" = _
    simp [← String.toList_inj]
  | noViableAlternative =>
    refine ⟨"no viable alternative at input ", "", ?_⟩
    show "no viable alternative at input '" ++ found ++ "'" = _
    simp
  | unrecognized =>
    refine ⟨"token recognition error at: ", "", ?_⟩
    show "token recognition error at: '" ++ found ++ "'" = _
    simp
  | tooDeep limit =>
    refine ⟨"maximum nesting depth of " ++ toString limit ++ " exceeded at ", "", ?_⟩
    show "maximum nesting depth of " ++ toString limit ++ " exceeded at '" ++ found ++ "'" = _
    simp [← String.toList_inj]
  | stated message => cases h

/-- An error at a token tells of it, whatever rule failed there. -/
theorem SyntaxError.tells_atToken {cause : Cause} (h : cause.IsQuoting) (t : Token) :
    (SyntaxError.atToken (if t.isError then .unrecognized else cause) t).Tells t where
  span_eq := rfl
  text_eq := rfl
  quotes := by
    refine Cause.exists_quote ?_ _
    split
    · trivial
    · exact h
  recognition herror := by
    rw [herror]
    rfl

/-! ### Where reading stops -/

/-- No statement starts where one ends. -/
theorem Rule.run_topStatement_of_endsStatement {c : Cursor} (h : c.current.endsStatement) :
    ∃ cause, topStatement.run c = .failed cause c := by
  have hkeyword : c.current.keyword? = none := by
    rcases Token.endsStatement_iff.1 h with hkind | hkind <;> rw [Token.keyword?, hkind]
  refine ⟨.mismatched (Keyword.statementStarts.map Keyword.quoted), ?_⟩
  rw [topStatement, statementWithin, statement, run_bind, run_current]
  simp only [hkeyword, noStatement, run_bind, run_current, Token.startsStatement, Option.any_none,
    Bool.false_eq_true, if_false, run_fail]

/-- A statement that is read has a token. -/
theorem Rule.position_lt_of_terminatedStatement {c after : Cursor} {tree : Command}
    (h : terminatedStatement.run c = .done tree after) : c.position < after.position := by
  obtain ⟨passed, hahead, hposition, -⟩ := (reaches_of_run h).exists_passed
  cases passed with
  | cons first passed =>
    rw [Outcome.cursor_done] at hposition
    rw [hposition, List.length_cons]
    omega
  | nil =>
    -- Reading would end where it started, in front of the end of a statement.
    have hends := endsStatement_of_terminated h
    have hcurrent : c.current = after.current := congrArg (·.headD (.eofAt 0)) hahead
    rw [← hcurrent] at hends
    obtain ⟨cause, hfailed⟩ := run_topStatement_of_endsStatement hends
    rw [terminatedStatement, terminated, run_bind, hfailed] at h
    cases h

/-- What a cursor passes of a list of tokens lies between the index where it started and the one
where it stands. -/
theorem Cursor.PassesTo.of_ofTokens {tokens : List Token} {start : Nat} {after : Cursor}
    (h : (ofTokens tokens start).PassesTo after) :
    start ≤ after.position ∧ after.position ≤ max start tokens.length ∧
      (∀ i, start ≤ i → i < after.position → (tokenAt tokens i).isSpoken) ∧
      after.current = tokenAt tokens after.position := by
  obtain ⟨passed, hahead, hposition, hspoken⟩ := h
  have hdrop : tokens.drop start = passed ++ after.ahead := hahead
  have hstop : after.position = start + passed.length := hposition
  refine ⟨by omega, ?_, fun i hle hlt ↦ ?_, ?_⟩
  · have hlength := congrArg List.length hdrop
    rw [List.length_drop, List.length_append] at hlength
    omega
  · have hindex : i - start < passed.length := by omega
    have htoken : tokens[i]? = some passed[i - start] := by
      rw [← List.getElem?_eq_getElem hindex, ← List.getElem?_append_left hindex, ← hdrop,
        List.getElem?_drop, Nat.add_sub_cancel' hle]
    rw [tokenAt, htoken]
    exact hspoken _ (List.getElem_mem hindex)
  · have hbehind : tokens.drop after.position = after.ahead := by
      rw [hstop, ← List.drop_drop, hdrop, List.drop_left]
    rw [current, ← hbehind, List.headD_eq_head?_getD, List.head?_drop]
    rfl

/-- A token that the grammar has a use for ends no statement. -/
theorem Token.not_ends_of_isSpoken {t : Token} (h : t.isSpoken) :
    t.isSymbol .semicolon = false ∧ t.isEof = false ∧ t.isError = false := by
  have hopen := isOpen_of_isSpoken h
  simp only [isOpen, endsStatement, Bool.and_eq_true, Bool.not_eq_true',
    Bool.or_eq_false_iff] at hopen
  exact ⟨hopen.1.1, hopen.1.2, hopen.2⟩

/-- **An attempt goes no further than its statement and tells where it stopped.** -/
theorem crateDb_stopsAt (source : String) (tokens : List Token) (start : Nat) :
    (Dialect.crateDb.parseFrom source tokens start).StopsAt tokens start := by
  have hpasses := Rule.passes_terminatedStatement (.ofTokens tokens start)
  show (parseFrom tokens start).StopsAt tokens start
  rw [Rule.PassesAt] at hpasses
  rw [parseFrom_eq, Rule.parse]
  -- Where it stops is the same for both; what it answers with is told by the outcome.
  cases hrun : Rule.terminatedStatement.run (.ofTokens tokens start) with
  | done tree after =>
    show (Attempt.mk (some tree) [] after.position).StopsAt tokens start
    rw [hrun, Outcome.cursor_done] at hpasses
    obtain ⟨hstart, hstop, hspoken, hcurrent⟩ := hpasses.of_ofTokens
    have hends := endsStatement_of_terminated hrun
    rw [hcurrent] at hends
    refine ⟨hstart, hstop, fun i hle hlt ↦ Token.not_ends_of_isSpoken (hspoken i hle hlt), hspoken,
      fun _ ↦ ?_, fun hfailed ↦ ?_⟩
    · exact ⟨rfl, Rule.position_lt_of_terminatedStatement hrun, Bool.or_eq_true_iff.1 hends⟩
    · cases hfailed
  | failed cause after =>
    show (Attempt.mk none [.atToken (if after.current.isError then .unrecognized else cause)
      after.current] after.position).StopsAt tokens start
    rw [hrun, Outcome.cursor_failed] at hpasses
    obtain ⟨hstart, hstop, hspoken, hcurrent⟩ := hpasses.of_ofTokens
    have htells := SyntaxError.tells_atToken (Rule.isQuoting_of_run hrun) after.current
    refine ⟨hstart, hstop, fun i hle hlt ↦ Token.not_ends_of_isSpoken (hspoken i hle hlt), hspoken,
      fun hclean ↦ ?_, fun _ ↦ ⟨rfl, _, rfl, ?_⟩⟩
    · cases hclean
    · exact hcurrent ▸ htells

end SqlBatch
