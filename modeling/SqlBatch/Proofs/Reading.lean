import SqlBatch.Proofs.Extension
import SqlBatch.Proofs.Lexing.Spacing
import SqlBatch.Proofs.ParseBatch

/-!
# Reading by kinds

What rules make of tokens whose kinds are known. A text has the kinds of its tokens (`kindsOf`), a
cursor those of the tokens ahead (`Cursor.kinds`), and a rule that looks for a keyword or a symbol
goes by them.

## From a text to its tree

To show that a text is read as a tree, one goes along three steps, each with its lemmas below:

* the kinds of its tokens, word by word (`kindsOf_cons`);
* what each rule does at a cursor with these kinds ahead, as equations of runs that are composed
  along the rule (`Rule.run_bind_of_done`);
* the end of the statement. Where it ends, no clause, no list and no alias goes on, so a query of
  one expression is read as soon as its expression is (`Rule.run_terminated_ofExpr`); and a
  statement that is read up to the end of the batch is all of the batch
  (`exists_parseBatch_of_run`).

Spans do not matter for what is read, and so kinds are enough until the tree is looked at.
-/

namespace SqlBatch

/-! ### The kinds of the tokens of a text -/

/-- The kinds of the tokens of a text. -/
def kindsOf (cs : List Char) : List Token.Kind :=
  (tokenize (String.ofList cs)).map (·.kind)

/-- The kinds of tokens do not depend on where the lexer has started. -/
theorem map_kind_tokens (cs : List Char) (offset : Nat) :
    (⟨cs, offset, false⟩ : Lexer).tokens.map (·.kind) = kindsOf cs := by
  rw [← map_move_tokenize, List.map_map]
  rfl

/-- An empty text has the end alone. -/
theorem kindsOf_nil : kindsOf [] = [.eof] := by
  decide +kernel

/-- Where no trivia stands in front, the first token is what is scanned there. -/
theorem kindsOf_scan {c : Char} {cs : List Char} (hgap : Trivia.length (c :: cs) = 0) :
    kindsOf (c :: cs) = (scan c cs).kind :: kindsOf (cs.drop (scan c cs).extra) := by
  have hread := Lexer.tokens_of_read? (@Lexer.read?_eq_some [] cs c 0 false hgap)
  rw [List.nil_append] at hread
  rw [kindsOf, tokenize, Lexer.ofSource, String.toList_ofList, hread, List.map_cons,
    map_kind_tokens]

/-- A word in front of a space is one token, with the tokens of what stands behind the space. -/
theorem Lexer.tokens_word {c : Char} {cs : List Char} {kind : Token.Kind}
    (hgap : ∀ rest, Trivia.length (c :: rest) = 0)
    (hscan : scan c (cs ++ [' ']) = ⟨kind, cs.length⟩) (rest : List Char) (offset : Nat) :
    (⟨c :: (cs ++ ' ' :: rest), offset, false⟩ : Lexer).tokens =
      ⟨kind, String.ofList (c :: cs), ⟨offset, offset + byteLength (c :: cs)⟩⟩ ::
        (⟨rest, offset + byteLength (c :: cs) + 1, false⟩ : Lexer).tokens := by
  have hblank : isBlank ' ' := by decide
  have hword : scan c (cs ++ ' ' :: rest) = ⟨kind, cs.length⟩ := by
    rw [← hscan]
    exact scan_append hblank hblank (Nat.le_of_eq (congrArg Scan.extra hscan))
  have hread := Lexer.tokens_of_read?
    (@Lexer.read?_eq_some [] (cs ++ ' ' :: rest) c offset false (hgap _))
  rw [List.nil_append] at hread
  rw [hread, hword, List.take_left, List.drop_left, Lexer.tokens_cons_of_isBlank hblank]
  rfl

/-- A word in front of a space gives its kind. -/
theorem kindsOf_cons {c : Char} {cs : List Char} {kind : Token.Kind}
    (hgap : ∀ rest, Trivia.length (c :: rest) = 0)
    (hscan : scan c (cs ++ [' ']) = ⟨kind, cs.length⟩) (rest : List Char) :
    kindsOf (c :: (cs ++ ' ' :: rest)) = kind :: kindsOf rest := by
  rw [kindsOf, tokenize, Lexer.ofSource, String.toList_ofList, Lexer.tokens_word hgap hscan,
    List.map_cons, map_kind_tokens]

/-! ### The kinds of the tokens ahead -/

/-- Whether a statement may go past tokens of the kind. -/
def Token.Kind.isOpen : Token.Kind → Bool
  | .symbol .semicolon | .eof | .error _ => false
  | _ => true

/-- Whether a statement may go past a token is a matter of its kind. -/
theorem Token.isOpen_eq (token : Token) : token.isOpen = token.kind.isOpen := by
  obtain ⟨kind, text, span⟩ := token
  cases kind with
  | symbol symbol => cases symbol <;> rfl
  | _ => rfl

namespace Cursor

/-- The kinds of the tokens ahead. -/
def kinds (c : Cursor) : List Token.Kind :=
  c.ahead.map (·.kind)

variable {c : Cursor} {kind : Token.Kind} {rest : List Token.Kind}

/-- The first kind ahead is that of the current token. -/
theorem kind_current (h : c.kinds = kind :: rest) : c.current.kind = kind := by
  obtain ⟨token, ahead, hahead, hkind, -⟩ := List.map_eq_cons_iff.1 h
  rw [current, hahead]
  exact hkind

/-- Moving past a token leaves the other kinds. -/
theorem kinds_advance (h : c.kinds = kind :: rest) (hopen : c.current.isOpen) :
    c.advance.kinds = rest := by
  rw [kinds, ahead_eq_cons_of_isOpen hopen] at h
  exact (List.cons.inj h).2

/-- The current token can be passed if its kind allows for it. -/
theorem isOpen_of_kinds (h : c.kinds = kind :: rest) (hopen : kind.isOpen) : c.current.isOpen := by
  rw [Token.isOpen_eq, kind_current h, hopen]

/-- The current token is the keyword of the first kind. -/
theorem isKeyword_current {keyword : Keyword} (h : c.kinds = .keyword keyword :: rest) :
    c.current.isKeyword keyword :=
  beq_iff_eq.2 (kind_current h)

/-- The current token is no keyword but that of the first kind. -/
theorem isKeyword_of_ne {keyword : Keyword} (h : c.kinds = kind :: rest)
    (hne : kind ≠ .keyword keyword) : c.current.isKeyword keyword = false := by
  rw [Token.isKeyword, kind_current h]
  exact beq_eq_false_iff_ne.2 hne

/-- The current token is no symbol but that of the first kind. -/
theorem isSymbol_of_ne {symbol : Symbol} (h : c.kinds = kind :: rest)
    (hne : kind ≠ .symbol symbol) : c.current.isSymbol symbol = false := by
  rw [Token.isSymbol, kind_current h]
  exact beq_eq_false_iff_ne.2 hne

/-- At the end of the batch, the statement ends. -/
theorem endsStatement_of_eof (h : c.kinds = [.eof]) : c.current.endsStatement :=
  Token.endsStatement_iff.2 (.inr (kind_current h))

end Cursor

/-! ### Words and clauses -/

/-- What ends a statement is no keyword. -/
theorem Token.isKeyword_of_endsStatement {token : Token} (h : token.endsStatement)
    (keyword : Keyword) : token.isKeyword keyword = false := by
  rcases endsStatement_iff.1 h with h | h <;> rw [isKeyword, h] <;> rfl

/-- What ends a statement stands for no keyword. -/
theorem Token.keyword?_of_endsStatement {token : Token} (h : token.endsStatement) :
    token.keyword? = none := by
  rcases endsStatement_iff.1 h with h | h <;> rw [keyword?, h]

namespace Rule

variable {α β : Type} {c after : Cursor} {kind : Token.Kind} {rest : List Token.Kind}

/-- A first part that is read goes over into the second. -/
theorem run_bind_of_done {r : Rule α} {k : α → Rule β} {a : α} (h : r.run c = .done a after) :
    (r >>= k).run c = (k a).run after := by
  rw [run_bind, h]

/-- A value made of the one that is read. -/
theorem run_map_of_done {r : Rule α} {f : α → β} {a : α} (h : r.run c = .done a after) :
    (f <$> r).run c = .done (f a) after := by
  rw [map_eq_bind, run_bind_of_done h]
  rfl

/-- A symbol that is there is passed. -/
theorem run_accept_eq_true {symbol : Symbol} (h : c.current.isSymbol symbol) :
    (accept symbol).run c = .done true c.advance := by
  rw [run_accept, h]
  rfl

/-- A symbol that is not there is not missed. -/
theorem run_accept_eq_false {symbol : Symbol} (h : c.current.isSymbol symbol = false) :
    (accept symbol).run c = .done false c := by
  rw [run_accept, h]
  rfl

/-- A keyword that is there is passed. -/
theorem run_acceptKeyword_eq_true {keyword : Keyword} (h : c.current.isKeyword keyword) :
    (acceptKeyword keyword).run c = .done true c.advance := by
  rw [run_acceptKeyword, h]
  rfl

/-- A keyword that is not there is not missed. -/
theorem run_acceptKeyword_eq_false {keyword : Keyword}
    (h : c.current.isKeyword keyword = false) :
    (acceptKeyword keyword).run c = .done false c := by
  rw [run_acceptKeyword, h]
  rfl

/-- A keyword is not there if the first kind is another one. -/
theorem run_acceptKeyword_of_ne {keyword : Keyword} (h : c.kinds = kind :: rest)
    (hne : kind ≠ .keyword keyword) : (acceptKeyword keyword).run c = .done false c :=
  run_acceptKeyword_eq_false (Cursor.isKeyword_of_ne h hne)

/-- A keyword that is asked for and there. -/
theorem run_keyword {keyword : Keyword} (h : c.current.isKeyword keyword) :
    (Rule.keyword keyword).run c = .done () c.advance := by
  rw [Rule.keyword, run_bind_of_done (run_acceptKeyword_eq_true h)]
  rfl

theorem run_keyword_of_kinds {keyword : Keyword} (h : c.kinds = .keyword keyword :: rest) :
    (Rule.keyword keyword).run c = .done () c.advance :=
  run_keyword (Cursor.isKeyword_current h)

/-- A symbol that is asked for and there. -/
theorem run_symbol {symbol : Symbol} (h : c.current.isSymbol symbol) :
    (Rule.symbol symbol).run c = .done () c.advance := by
  rw [Rule.symbol, run_bind_of_done (run_accept_eq_true h)]
  rfl

/-- An identifier is read as what it contains. -/
theorem run_identifier_of_kind {name : String} (h : c.current.kind = .identifier name) :
    identifier.run c = .done name c.advance := by
  have hname : c.current.name? = some name := by
    rw [Token.name?, h]
  rw [identifier, run_bind_of_done (run_current c), hname]
  rfl

/-- A clause whose keyword is not there is left out. -/
theorem run_clause_eq_none {keyword : Keyword} (h : c.current.isKeyword keyword = false)
    (body : Rule α) : (clause keyword body).run c = .done none c := by
  rw [clause, run_bind_of_done (run_acceptKeyword_eq_false h)]
  rfl

/-- A list clause whose keyword is not there is the empty list. -/
theorem run_listClause_eq_nil {keyword : Keyword} (h : c.current.isKeyword keyword = false)
    (body : Rule (List α)) : (listClause keyword body).run c = .done [] c := by
  rw [listClause, run_bind_of_done (run_clause_eq_none h body)]
  rfl

/-- A loop ends where its step does nothing. -/
theorem run_iterate_of_none {step : α → Rule (Option α)} {a : α}
    (h : (step a).run c = .done none after) : (iterate step a).run c = .done a after := by
  show iterateFrom step a c = _
  rw [iterateFrom_eq, h]

/-- A loop goes round again where its step has moved on. -/
theorem run_iterate_of_some {step : α → Rule (Option α)} {a b : α}
    (h : (step a).run c = .done (some b) after) (hlt : c.position < after.position) :
    (iterate step a).run c = (iterate step b).run after := by
  show iterateFrom step a c = iterateFrom step b after
  rw [iterateFrom_eq, h]
  exact if_pos hlt

/-- Without a comma, no further item. -/
theorem run_another_eq_none (h : c.current.isSymbol .comma = false) (item : Rule α) :
    (another item).run c = .done none c := by
  rw [another, run_bind_of_done (run_accept_eq_false h)]
  rfl

/-- Behind a comma, a further item. -/
theorem run_another_of_done {item : Rule α} {a : α} (h : c.current.isSymbol .comma)
    (hrun : item.run c.advance = .done a after) : (another item).run c = .done (some a) after := by
  rw [another, run_bind_of_done (run_accept_eq_true h)]
  exact run_map_of_done hrun

/-- A list ends where no comma stands. -/
theorem run_commaSeparated_of_done {item : Rule α} {a : α} (h : item.run c = .done a after)
    (hcomma : after.current.isSymbol .comma = false) :
    (commaSeparated item).run c = .done [a] after := by
  have hmany : (many (another item)).run after = .done [] after := by
    rw [many, run_map_of_done (run_iterate_of_none _)]
    · rfl
    · exact run_map_of_done (run_another_eq_none hcomma item)
  rw [commaSeparated_eq, run_bind_of_done h, run_bind_of_done hmany]
  rfl

/-! ### The end of a statement -/

/-- No alias stands at the end of a statement. -/
theorem run_alias?_of_endsStatement (h : c.current.endsStatement) :
    alias?.run c = .done none c := by
  rw [alias?, run_bind_of_done (run_current c),
    run_bind_of_done (run_acceptKeyword_eq_false (Token.isKeyword_of_endsStatement h .AS))]
  rcases Token.endsStatement_iff.1 h with h | h <;> rw [h] <;> rfl

/-- Where the statement ends, no set operation follows. -/
theorem run_compound_of_endsStatement (inner : Nested) (h : c.current.endsStatement) :
    (compound inner).run c = .done none c := by
  rw [compound, run_bind_of_done (run_current c), Token.keyword?_of_endsStatement h]
  rfl

end Rule

/-- The query of one expression, without any clause. -/
def Query.ofExpr (e : Expr) : Query :=
  ⟨false, [⟨e, none⟩], none, none, [], none, none, [], none, none⟩

namespace Rule

variable {c after : Cursor} {e : Expr} {command : Command}

/-- A query of one expression ends with that expression. -/
theorem run_query_ofExpr {inner : Nested} (hselect : c.current.isKeyword .SELECT)
    (hdistinct : c.advance.current.isKeyword .DISTINCT = false)
    (hall : c.advance.current.isKeyword .ALL = false)
    (h : inner.expression.run c.advance = .done e after) (hafter : after.current.endsStatement) :
    (Rule.query inner).run c = .done (.ofExpr e) after := by
  have hitem : (selectItem inner).run c.advance = .done ⟨e, none⟩ after := by
    rw [selectItem, run_bind_of_done h, run_bind_of_done (run_alias?_of_endsStatement hafter)]
    rfl
  have hbody : (queryBody inner false).run c.advance = .done (.ofExpr e) after := by
    have hcomma : after.current.isSymbol .comma = false :=
      Token.isSymbol_of_endsStatement hafter (by decide)
    -- No clause goes on, for each of them starts with a word.
    have hnone := Token.isKeyword_of_endsStatement hafter
    rw [queryBody, run_bind_of_done (run_commaSeparated_of_done hitem hcomma),
      run_bind_of_done (run_clause_eq_none (hnone .FROM) _),
      run_bind_of_done (run_clause_eq_none (hnone .WHERE) _),
      run_bind_of_done (run_listClause_eq_nil (hnone .GROUP) _),
      run_bind_of_done (run_clause_eq_none (hnone .HAVING) _),
      run_bind_of_done (run_compound_of_endsStatement inner hafter),
      run_bind_of_done (run_listClause_eq_nil (hnone .ORDER) _),
      run_bind_of_done (run_clause_eq_none (hnone .LIMIT) _),
      run_bind_of_done (run_clause_eq_none (hnone .OFFSET) _)]
    rfl
  rw [Rule.query, run_bind_of_done (run_keyword hselect),
    run_bind_of_done (run_acceptKeyword_eq_false hdistinct)]
  show (acceptKeyword .ALL >>= fun _ ↦ queryBody inner false).run c.advance = _
  rw [run_bind_of_done (run_acceptKeyword_eq_false hall)]
  exact hbody

/-- A statement that is read up to where one ends. -/
theorem run_terminated_of_done {r : Rule Command} (h : r.run c = .done command after)
    (hafter : after.current.endsStatement) : (terminated r).run c = .done command after := by
  rw [terminated, run_bind_of_done h, run_bind_of_done (run_current after), hafter]
  rfl

/-- **A query of one expression is a statement**, as soon as its expression is read, which may open
two levels less. -/
theorem run_terminated_ofExpr {n : Nat} (hselect : c.current.isKeyword .SELECT)
    (hdistinct : c.advance.current.isKeyword .DISTINCT = false)
    (hall : c.advance.current.isKeyword .ALL = false)
    (h : (expressionFrom (.ofAllowance n) 0).run c.advance = .done e after)
    (hafter : after.current.endsStatement) :
    (terminated (statementWithin (n + 2))).run c = .done (.select (.ofExpr e)) after := by
  refine run_terminated_of_done ?_ hafter
  have hkeyword : c.current.keyword? = some .SELECT := by
    rw [Token.keyword?, beq_iff_eq.1 hselect]
  have hquery : (Rule.query (.around (.ofAllowance n))).run c = .done (.ofExpr e) after :=
    run_query_ofExpr hselect hdistinct hall h hafter
  rw [statementWithin, statement, run_bind_of_done (run_current c), hkeyword]
  exact run_map_of_done hquery

end Rule

/-! ### A batch of one statement -/

/-- The answer that a run gives. -/
theorem parseFrom_of_run {tokens : List Token} {start : Nat} {tree : Command} {after : Cursor}
    (h : Rule.terminatedStatement.run (.ofTokens tokens start) = .done tree after) :
    parseFrom tokens start = ⟨some tree, [], after.position⟩ := by
  rw [parseFrom_eq, Rule.parse, h]

/-- What is read of a batch first, if nothing is wrong with it. -/
theorem readFirst_of_parseFrom {tokens : List Token} {tree : Command} {n : Nat}
    (h : parseFrom tokens 0 = ⟨some tree, [], n⟩) : readFirst tokens = (.ok tree, n) := by
  rw [parseFrom_eq, Rule.parse] at h
  rw [readFirst]
  generalize Rule.terminatedStatement.run (.ofTokens tokens 0) = outcome at h
  rcases outcome with ⟨command, after⟩ | ⟨cause, after⟩
  · obtain ⟨hcommand, -, hstop⟩ := Attempt.mk.inj h
    obtain rfl := Option.some.inj hcommand
    exact congrArg (Prod.mk _) hstop
  · cases (Attempt.mk.inj h).1

/-- The last token of a batch is its end. -/
theorem eq_eofAt_of_tokenize {source : String} {tokens : List Token} {closing : Token}
    (h : tokenize source = tokens ++ [closing]) :
    closing = .eofAt (byteLength source.toList) := by
  obtain ⟨ts, hts, -⟩ := tokenize_eq_append source
  exact List.singleton_inj.1 (List.append_inj' (h.symm.trans hts) rfl).2

/-- The last token of a text ends a statement. -/
theorem endsStatement_of_tokenize {source : String} {tokens : List Token} {closing : Token}
    (h : tokenize source = tokens ++ [closing]) : closing.endsStatement := by
  rw [eq_eofAt_of_tokenize h]
  rfl

/-- A statement that takes all tokens of a batch but the last one is the only one of the batch. -/
theorem exists_parseBatch_of_parseFrom {source : String} {first closing : Token}
    {more : List Token} {tree : Command} (htokens : tokenize source = first :: more ++ [closing])
    (h : parseFrom (tokenize source) 0 = ⟨some tree, [], (first :: more).length⟩) :
    ∃ s, parseBatch source false = .ok [s] ∧ s.tree? = some tree := by
  obtain rfl := eq_eofAt_of_tokenize htokens
  let p : Piece := ⟨first, more, .eofAt (byteLength source.toList), .ok tree,
    (first :: more).length⟩
  have hread : p.IsRead [] := by
    refine ⟨?_, .atEnd rfl rfl⟩
    show readFirst (first :: more ++ [.eofAt (byteLength source.toList)]) = _
    rw [← htokens, readFirst_of_parseFrom h]
  have hsplits : Splits (tokenize source) [p] := htokens ▸ .cons hread (.nil rfl)
  exact ⟨_, parseBatch_of_splits hsplits, Piece.tree?_statement_eq_some.2 rfl⟩

/-- A statement that is read up to the end of the batch is the only one of the batch. -/
theorem exists_parseBatch_of_run {source : String} {keyword : Keyword} {rest : List Token.Kind}
    {tree : Command} {after : Cursor}
    (hkinds : (tokenize source).map (·.kind) = .keyword keyword :: rest)
    (h : Rule.terminatedStatement.run (.ofTokens (tokenize source) 0) = .done tree after)
    (hafter : after.kinds = [.eof]) :
    ∃ s, parseBatch source false = .ok [s] ∧ s.tree? = some tree := by
  obtain ⟨passed, hahead, hposition, -⟩ := (Rule.reaches_of_run h).exists_passed
  obtain ⟨closing, hclosing, heof⟩ := List.map_eq_singleton_iff.1 hafter
  have htokens : tokenize source = passed ++ [closing] := by
    rw [← hclosing]
    exact hahead
  -- The first token is a word, so it is not the end of the batch and a piece can start with it.
  obtain ⟨first, more, rfl⟩ : ∃ first more, passed = first :: more := by
    refine List.exists_cons_of_ne_nil ?_
    rintro rfl
    rw [htokens, List.nil_append, List.map_singleton, heof] at hkinds
    cases hkinds
  refine exists_parseBatch_of_parseFrom htokens ?_
  rw [parseFrom_of_run h, ← show after.position = _ from hposition.trans (Nat.zero_add _)]

end SqlBatch
