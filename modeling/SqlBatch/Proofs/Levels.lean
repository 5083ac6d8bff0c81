import SqlBatch.Proofs.Completion.Statement
import SqlBatch.Proofs.Reading
import SqlBatch.Proofs.Reuse
import SqlBatch.Proofs.Stopping

/-!
# Levels of nesting that are open already

How many levels are open where a request is answered has no part in the answer, but for failures:
where fewer levels may be opened, reading goes the same way up to a token that would open one too
many, and no rule takes such a failure back (`Request.run_of_le`). The answer is then a failure for
too many levels, or for the token itself if the lexer could not read it
(`Request.limited_answerAt`).

## Two forms of one answer

An answer with some levels open is that of a cursor which has counted them, and also that of the
grammar in which so many fewer may be opened (`Request.parse_eq_answerAt`). The second form is the
one that the proofs are about, for there two grammars are compared on the same tokens.

## A statement that is explained

A statement that can be explained can stand alone: what is read inside `EXPLAIN`, with one level
less to open, is read without it (`exists_parseBatch_of_explain`). Both parts together are
`limit_only_fails`.

A failure for too many levels is not the only one that a lower limit can bring: the token that would
open the level may be one that the lexer could not read, and then that is what the failure says
(`answerAt_unread`).
-/

namespace SqlBatch

/-! ### Fewer levels and more -/

/-- A token that a statement may not go past is where every reading stops that comes to it. -/
theorem Cursor.Reaches.eq_of_not_isOpen {c a b : Cursor} (h : c.Reaches a) (h' : c.Reaches b)
    (hopen : a.current.isOpen = false) (hle : a.position ≤ b.position) : b = a := by
  obtain ⟨passed, hahead, hposition, -⟩ := h.exists_passed
  obtain ⟨passed', hahead', hposition', hopen'⟩ := h'.exists_passed
  refine h'.eq_of_position h (Nat.le_antisymm (Nat.le_of_not_lt fun hlt ↦ ?_) hle)
  have hlength : passed.length < passed'.length := by omega
  have hcurrent : a.current = passed'[passed.length] := by
    have hindex : (passed ++ a.ahead)[passed.length]? = (passed' ++ b.ahead)[passed.length]? := by
      rw [← hahead, ← hahead']
    rw [List.getElem?_append_right (Nat.le_refl _), Nat.sub_self,
      List.getElem?_append_left hlength, List.getElem?_eq_getElem hlength] at hindex
    rw [Cursor.current, List.headD_eq_head?_getD, List.head?_eq_getElem?, hindex]
    rfl
  rw [hcurrent, hopen' _ (List.getElem_mem hlength)] at hopen
  cases hopen

theorem Token.isError_of_endsStatement {token : Token} (h : token.endsStatement) :
    token.isError = false := by
  rcases endsStatement_iff.1 h with h | h <;> rw [isError, h]

/-- Reading with fewer levels left changes no label. -/
theorem Replay.labels_deeper {stop : Nat} : (deeper stop).labels = .id :=
  labels_eq rfl rfl

namespace Request

/-- **More levels make the same of a request, unless fewer are too few**, and then they lead at
least as far. -/
theorem run_of_le (request : Request) {fewer more : Nat} (hle : fewer ≤ more) (c : Cursor) :
    (request.ruleWithin more).run c = (request.ruleWithin fewer).run c ∨
      ∃ after, (request.ruleWithin fewer).run c = .failed (.tooDeep Nested.maxDepth) after ∧
        after.position ≤ ((request.ruleWithin more).run c).cursor.position := by
  have hreaches := (request.ruleWithin fewer).forward c
  have hreaches' := (request.ruleWithin more).forward c
  obtain ⟨stop, hstop⟩ : ∃ stop, ((request.ruleWithin fewer).run c).cursor.position = stop :=
    ⟨_, rfl⟩
  have hagree : (Replay.deeper stop).Agree c c := hstop ▸ Replay.agree_deeper hreaches
  have hstatement : (Replay.deeper stop).Replays (Command.relabel (Replay.deeper stop).labels)
      (.statementWithin fewer) (.statementWithin more) :=
    .statement (.ofAllowance_of_le rfl hle)
  have hmatch : (Replay.deeper stop).Matches (Command.relabel (Replay.deeper stop).labels)
      ((request.ruleWithin fewer).run c) ((request.ruleWithin more).run c) := by
    rcases request with _ | _
    · exact hstatement hagree (Nat.le_of_eq hstop)
    · exact hstatement.terminated hagree (Nat.le_of_eq hstop)
  rw [Replay.labels_deeper] at hmatch
  revert hmatch hreaches hreaches'
  generalize (request.ruleWithin fewer).run c = limited
  generalize (request.ruleWithin more).run c = outcome
  -- The same value, the same failure, or the first that has run out of levels.
  rintro hreaches hreaches' (⟨hafter⟩ | ⟨-, hafter⟩ | ⟨hcause, hafter, hfurther⟩)
  · obtain rfl := hreaches.eq_of_position hreaches' hafter.position
    rw [Command.relabel_id]
    exact .inl rfl
  · obtain rfl := hreaches.eq_of_position hreaches' hafter.position
    exact .inl rfl
  · rename_i cause after after'
    obtain rfl : cause = _ := hcause
    refine .inr ⟨after, rfl, ?_⟩
    have hposition : after.position = after'.position := hafter.position
    exact hposition ▸ hfurther.position_le

/-- The answer to a request of a cursor around which a number of levels are open. -/
def answerAt (request : Request) (depth : Nat) (c : Cursor) :
    Except SyntaxError Command × Cursor :=
  (request.ruleWithin (Nested.maxDepth - depth)).parse c

/-- **That is what a cursor answers that has so many levels open**, and it leaves them open. -/
theorem parse_eq_answerAt (request : Request) (depth : Nat) (c : Cursor) :
    request.rule.parse (c.recounted 0 depth) =
      ((request.answerAt depth c).1, (request.answerAt depth c).2.recounted 0 depth) := by
  have hid : Relabeling.renumber 0 = .id :=
    (@Replay.labels_renumbered 0 0).symm.trans (Replay.labels_eq rfl rfl)
  have hparse := request.parse_ruleWithin_recounted (Nested.maxDepth - depth) c 0 depth
  rw [hid] at hparse
  refine (request.parse_rule _).trans (hparse.trans ?_)
  rw [answerAt]
  cases ((request.ruleWithin (Nested.maxDepth - depth)).parse c).1 with
  | error error => rfl
  | ok tree => rw [Except.map, Command.relabel_id]

/-- What more open levels make of an answer. -/
inductive Limited (request : Request) :
    Except SyntaxError Command × Cursor → Except SyntaxError Command × Cursor → Prop
  | same (answer : Except SyntaxError Command × Cursor) : Limited request answer answer
  | tooDeep {error : SyntaxError} (after : Cursor)
    (answer : Except SyntaxError Command × Cursor) :
    error.cause = .tooDeep Nested.maxDepth → Limited request (.error error, after) answer
  /-- A statement is read up to a token that the lexer could not read, where the next level would
  be opened, and nothing is required to stand behind it. -/
  | unread (tree : Command) {after : Cursor} : request = statement → after.current.isError →
    Limited request (.error (.atToken .unrecognized after.current), after) (.ok tree, after)

/-- Where the token that would open one level too many is unreadable, more levels are of no use:
reading cannot go past the token, so it stops there too. -/
theorem limited_of_isError (request : Request) {fewer more : Nat} {c after : Cursor}
    (hfailed : (request.ruleWithin fewer).run c = .failed (.tooDeep Nested.maxDepth) after)
    (hposition : after.position ≤ ((request.ruleWithin more).run c).cursor.position)
    (herror : after.current.isError) :
    request.Limited (.error (.atToken .unrecognized after.current), after)
      ((request.ruleWithin more).parse c) := by
  have hreaches := (request.ruleWithin fewer).forward c
  rw [hfailed, Outcome.cursor_failed] at hreaches
  have hopen : after.current.isOpen = false := by
    rw [Token.isOpen, herror, Bool.not_true, Bool.and_false]
  have hsame := hreaches.eq_of_not_isOpen ((request.ruleWithin more).forward c) hopen hposition
  rw [Rule.parse]
  generalize hrun : (request.ruleWithin more).run c = outcome at hsame
  rcases outcome with ⟨tree, after'⟩ | ⟨cause, after'⟩
  · obtain rfl : after' = after := hsame
    rcases request with _ | _
    · exact .unread tree rfl herror
    · have hends := endsStatement_of_terminated hrun
      rw [Token.isError_of_endsStatement hends] at herror
      cases herror
  · obtain rfl : after' = after := hsame
    dsimp only
    rw [if_pos herror]
    exact .same _

/-- **The limit turns answers into failures and into nothing else**: for too many levels, or, where
the token that would open one too many is unreadable, for that token. -/
theorem limited_answerAt (request : Request) {shallow deep : Nat} (hle : shallow ≤ deep)
    (c : Cursor) : request.Limited (request.answerAt deep c) (request.answerAt shallow c) := by
  rw [answerAt, answerAt]
  rcases request.run_of_le (Nat.sub_le_sub_left hle Nested.maxDepth) c with
    hsame | ⟨after, hfailed, hposition⟩
  · rw [Rule.parse, Rule.parse, hsame]
    exact .same _
  · rw [Rule.parse.eq_def (request.ruleWithin (Nested.maxDepth - deep)), hfailed]
    dsimp only
    by_cases herror : after.current.isError
    · rw [if_pos herror]
      exact request.limited_of_isError hfailed hposition herror
    · rw [if_neg herror]
      exact .tooDeep _ _ rfl

end Request

/-! ### A statement that is explained -/

theorem tokenize_explain (source : String) :
    tokenize ("EXPLAIN " ++ source) = ⟨.keyword .EXPLAIN, "EXPLAIN", ⟨0, 7⟩⟩ ::
      (tokenize source).map (·.move (.shift 8)) := by
  have hword := @Lexer.tokens_word 'E' "XPLAIN".toList (.keyword .EXPLAIN) (fun _ ↦ rfl)
    (by decide +kernel) source.toList 0
  rw [tokenize, Lexer.ofSource, String.toList_append]
  refine hword.trans (congrArg (_ :: ·) ?_)
  have hmove := map_move_tokenize source.toList 8
  rw [String.ofList_toList] at hmove
  exact hmove.symm

/-- What is explained is read behind `EXPLAIN`, with one level less to open. -/
theorem Rule.run_of_explain {c after : Cursor} {tree : Command}
    (hexplain : c.current.isKeyword .EXPLAIN)
    (h : topStatement.run c = .done (.explain false tree) after) :
    (statementWithin (Nested.maxDepth - 1)).run c.advance = .done tree after := by
  have hkeyword : c.current.keyword? = some .EXPLAIN := by
    rw [Token.keyword?, beq_iff_eq.1 hexplain]
  rw [topStatement, statementWithin, statement, run_bind_of_done (run_current c), hkeyword] at h
  change (explain (.ofAllowance Nested.maxDepth)).run c = _ at h
  rw [explain, run_bind_of_done (run_keyword hexplain), run_bind_of_done (run_current _),
    run_bind_of_done (run_following _)] at h
  generalize (c.advance.current.isKeyword .ANALYZE && c.advance.following.startsStatement) =
    analyze at h
  rcases analyze with _ | _
  · obtain ⟨command, mid, hcommand, hpure⟩ := exists_of_run_bind h
    cases hpure
    exact hcommand
  · obtain ⟨_, _, -, h⟩ := exists_of_run_bind h
    obtain ⟨command, mid, -, hpure⟩ := exists_of_run_bind h
    cases hpure

/-- A statement that is read up to its end is read. -/
theorem Rule.run_of_terminated {r : Rule Command} {c after : Cursor} {tree : Command}
    (h : (terminated r).run c = .done tree after) : r.run c = .done tree after := by
  obtain ⟨tree', mid, hrun, hrest⟩ := exists_of_run_bind h
  rw [run_bind_of_done (run_current mid)] at hrest
  generalize mid.current.endsStatement = ends at hrest
  rcases ends with _ | _
  · cases hrest
  · cases hrest
    exact hrun

/-- What is explained is read by itself behind the `EXPLAIN`: where a statement has been read, one
level more changes nothing. -/
theorem parseFrom_of_explain {token : Token} {tokens : List Token} {after : Cursor}
    {tree : Command} (hexplain : token.isKeyword .EXPLAIN)
    (h : Rule.terminatedStatement.run (.ofTokens (token :: tokens) 0) =
      .done (.explain false tree) after) :
    parseFrom (token :: tokens) 1 = ⟨some tree, [], after.position⟩ := by
  have hadvance : (Cursor.ofTokens (token :: tokens) 0).advance =
      .ofTokens (token :: tokens) 1 := by
    have hquestion : token.isSymbol .question = false := by
      rw [Token.isSymbol, beq_iff_eq.1 hexplain]
      rfl
    show (if token.isOpen then _ else _) = _
    rw [if_pos (Token.isOpen_of_isKeyword hexplain), hquestion]
    rfl
  have hinside := Rule.run_of_explain (c := .ofTokens (token :: tokens) 0) hexplain
    (Rule.run_of_terminated h)
  rw [hadvance] at hinside
  have hstatement : Rule.topStatement.run (.ofTokens (token :: tokens) 1) = .done tree after := by
    rcases Request.statement.run_of_le (Nat.sub_le Nested.maxDepth 1)
      (.ofTokens (token :: tokens) 1) with hsame | ⟨_, hfailed, -⟩
    · exact hsame.trans hinside
    · cases hinside.symm.trans hfailed
  exact parseFrom_of_run (Rule.run_terminated_of_done hstatement (endsStatement_of_terminated h))

/-- Without the `EXPLAIN` in front of it, a statement is read as far. -/
theorem readFirst_of_explain {token : Token} {tokens : List Token} {tree : Command} {n : Nat}
    (hexplain : token.isKeyword .EXPLAIN) (hends : ∃ t ∈ tokens, t.endsStatement)
    (h : readFirst (token :: tokens) = (.ok (.explain false tree), n + 1)) :
    readFirst tokens = (.ok tree, n) := by
  rw [readFirst] at h
  split at h
  · rename_i command after hrun
    obtain ⟨hcommand, hposition⟩ := Prod.mk.inj h
    obtain rfl := Except.ok.inj hcommand
    have hparse := parseFrom_of_explain hexplain hrun
    obtain ⟨passed, closing, behind, rfl, hstop, -⟩ := exists_passed_readFirst hends
    rw [parseFrom_of_drop rfl hstop] at hparse
    generalize hfirst : readFirst (passed ++ closing :: behind) = answer at hparse hstop ⊢
    obtain ⟨result, stop⟩ := answer
    obtain rfl : stop = passed.length := hstop
    rcases result with cause | command
    · cases hparse
    · obtain ⟨htree, -, hafter⟩ := Attempt.mk.inj hparse
      obtain rfl := Option.some.inj htree
      have hafter : 1 + passed.length = n + 1 := hafter.trans hposition
      rw [show passed.length = n by omega]
  · cases h

theorem pos_of_readFirst {tokens : List Token} {tree : Command} {n : Nat}
    (h : readFirst tokens = (.ok tree, n)) : 0 < n := by
  rw [readFirst] at h
  split at h
  · rename_i tree' after hrun
    have hlt : 0 < after.position := Rule.position_lt_of_terminatedStatement hrun
    rwa [(Prod.mk.inj h).2] at hlt
  · cases h

/-- What is explained is a piece of its own where nothing else stands in front of it. -/
theorem Splits.of_explain {token : Token} {tokens : List Token} {p : Piece} {tree : Command}
    (hexplain : token.isKeyword .EXPLAIN) (h : Splits (token :: tokens) [p])
    (hresult : p.result = .ok (.explain false tree)) :
    ∃ q : Piece, Splits tokens [q] ∧ q.result = .ok tree := by
  generalize htokens : token :: tokens = ts at h
  rcases h with _ | ⟨hsemicolon, -⟩ | ⟨hread, hbehind⟩
  · obtain ⟨rfl, -⟩ := List.cons.inj htokens
    rw [Token.isSymbol, beq_iff_eq.1 hexplain] at hsemicolon
    cases hsemicolon
  · rename_i behind
    obtain ⟨rfl, hmore⟩ := List.cons.inj htokens
    have hends := hbehind.exists_endsStatement
    obtain ⟨hstop, hclosing⟩ := hread.stop_eq_of_isOk hends (hresult ▸ rfl)
    have hattempt := hread.attempt
    rw [hresult, hstop] at hattempt
    -- Behind its first word the piece is read as the statement that is explained.
    have hinside : readFirst (p.more ++ p.closing :: behind) = (.ok tree, p.more.length) :=
      readFirst_of_explain hexplain ⟨p.closing, List.mem_append_right _ (.head _), hclosing⟩
        hattempt
    obtain ⟨first, more, hcons⟩ := List.exists_cons_of_length_pos (pos_of_readFirst hinside)
    let q : Piece := ⟨first, more, p.closing, .ok tree, p.more.length⟩
    have hq : q.IsRead behind := by
      refine ⟨?_, .atEnd (congrArg List.length hcons) hclosing⟩
      show readFirst (first :: more ++ p.closing :: behind) = _
      rw [← hcons, hinside]
    have hsplits : Splits (first :: more ++ p.closing :: behind) [q] := .cons hq hbehind
    refine ⟨q, ?_, rfl⟩
    rwa [← hcons, ← show tokens = p.more ++ p.closing :: behind from hmore] at hsplits

/-- **A statement that can be explained can stand alone.** -/
theorem exists_parseBatch_of_explain {source : String} {s : Statement} {tree : Command}
    (h : parseBatch ("EXPLAIN " ++ source) false = .ok [s])
    (htree : s.tree? = some (.explain false tree)) :
    ∃ s' tree', parseBatch source false = .ok [s'] ∧ s'.tree? = some tree' ∧
      tree'.relabel (.shift 8) = tree := by
  obtain ⟨ps, hsplits⟩ := exists_splits_tokenize ("EXPLAIN " ++ source)
  rw [parseBatch_of_splits hsplits] at h
  obtain ⟨p, rfl, rfl⟩ := List.map_eq_singleton_iff.1 (Except.ok.inj h)
  rw [tokenize_explain] at hsplits
  obtain ⟨q, hq, hresult⟩ := hsplits.of_explain rfl (Piece.tree?_statement_eq_some.1 htree)
  -- The tokens of the rest are those of the source alone, at other places.
  obtain ⟨qs, hqs, hmove⟩ := hq.of_map fun _ _ ↦ rfl
  obtain ⟨q', rfl, rfl⟩ := List.map_eq_singleton_iff.1 hmove.symm
  have hresult : q'.result.map (Command.relabel (.shift 8)) = .ok tree := hresult
  match hq' : q'.result, hresult with
  | .ok tree', hresult =>
    exact ⟨_, tree', parseBatch_of_splits hqs, Piece.tree?_statement_eq_some.2 hq',
      Except.ok.inj hresult⟩

/-- **The limit on nesting only ever turns answers into failures**: for too many levels, or for a
token that would open one too many and cannot be read. And what is explained can stand alone. -/
theorem limit_only_fails :
    (∀ (request : Request) (shallow deep : Nat) (c : Cursor), shallow ≤ deep →
      deep ≤ Nested.maxDepth →
      request.Limited (request.answerAt deep c) (request.answerAt shallow c)) ∧
    ∀ (source : String) (s : Statement) (tree : Command),
      parseBatch ("EXPLAIN " ++ source) false = .ok [s] → s.tree? = some (.explain false tree) →
      ∃ s' tree', parseBatch source false = .ok [s'] ∧ s'.tree? = some tree' ∧
        tree'.relabel (.shift 8) = tree :=
  ⟨fun request _ _ c hle _ ↦ request.limited_answerAt hle c,
    fun _ _ _ h htree ↦ exists_parseBatch_of_explain h htree⟩

/-- A statement is read up to a token that cannot be read, which is reported where one level less
may be opened. -/
theorem answerAt_unread :
    (match (Request.statement.answerAt 62 (.ofTokens (tokenize "SELECT x::OBJECT #") 0)).1 with
      | .error error => some error.cause
      | .ok _ => none) = some .unrecognized ∧
      (Request.statement.answerAt 0 (.ofTokens (tokenize "SELECT x::OBJECT #") 0)).1.isOk := by
  refine ⟨?_, ?_⟩ <;> decide +kernel

end SqlBatch
