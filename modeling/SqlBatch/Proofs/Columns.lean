import SqlBatch.Proofs.Excerpts
import SqlBatch.Proofs.Origins
import SqlBatch.Proofs.Reuse

/-!
# The places of columns

A column of a tree is placed at the tokens that spell it: its name, or the name of its table, a dot
and its name. Those tokens lie in the span of the statement, and the excerpt of the batch from the
first to the last of them is cut into the same tokens again, whatever stands between them
(`column_spans`).

## Where two facts meet

* A column is a label of the tree, and every label is written at a token that was passed
  (`Request.exists_spells_of_mem_labels`). This gives the tokens.
* An excerpt of a text that starts and ends with tokens has these and the tokens between them
  (`exists_map_tokenize_slice`). This gives the text.

The tokens that were passed are those of the statement and not of the one behind it, since a reading
stays in front of the token that ends its statement (`Cursor.Reaches.exists_inside`). What a name
may be is left to `Token.Names`: an identifier, of which quotes are no part, or a keyword that is
not reserved, in which case the name is what is written.
-/

namespace SqlBatch

/-! ### What spells a column -/

/-- The token stands for a name: it is an identifier with that name, or a keyword that is not
reserved, written like it. -/
def Token.Names (t : Token) (name : String) : Prop :=
  t.kind = .identifier name ∨
    ∃ keyword : Keyword, t.kind = .keyword keyword ∧ keyword.isReserved = false ∧ t.text = name

theorem Token.names_of_name? {t : Token} {name : String} (h : t.name? = some name) :
    t.Names name := by
  rw [name?] at h
  split at h
  · rename_i hkind
    exact .inl (hkind.trans (congrArg Kind.identifier (Option.some.inj h)))
  · rename_i keyword hkind
    split at h
    · cases h
    · rename_i hreserved
      exact .inr ⟨keyword, hkind, Bool.eq_false_iff.2 hreserved, Option.some.inj h⟩
  · cases h

/-- The tokens of a text that spells a column. -/
inductive SpellsColumn : List Token → Option String → String → Prop
  | plain {t eof : Token} {name : String} :
    t.Names name → eof.isEof → SpellsColumn [t, eof] none name
  | qualified {t dot u eof : Token} {table name : String} :
    t.Names table → dot.isSymbol .dot → u.Names name → eof.isEof →
    SpellsColumn [t, dot, u, eof] (some table) name

/-- Tokens spell the same column wherever they lie. -/
theorem SpellsColumn.of_move {place : Span → Span} {ts : List Token} {table? : Option String}
    {name : String} (h : SpellsColumn (ts.map (·.move place)) table? name) :
    SpellsColumn ts table? name := by
  generalize htokens : ts.map (·.move place) = us at h
  cases h with
  | plain ht heof =>
    simp only [List.map_eq_cons_iff, List.map_eq_nil_iff] at htokens
    obtain ⟨t, _, rfl, rfl, eof, _, rfl, rfl, rfl⟩ := htokens
    exact .plain ht heof
  | qualified ht hdot hu heof =>
    simp only [List.map_eq_cons_iff, List.map_eq_nil_iff] at htokens
    obtain ⟨t, _, rfl, rfl, dot, _, rfl, rfl, u, _, rfl, rfl, eof, _, rfl, rfl, rfl⟩ := htokens
    exact .qualified ht hdot hu heof

/-! ### Excerpts from one token to another -/

/-- What tokens of a batch take up, from the first to the last of them, is cut into the same tokens
again. -/
theorem exists_map_tokenize_slice {source : String} {before more ts behind : List Token}
    {first last next : Token} (h : tokenize source = before ++ (first :: more ++ next :: behind))
    (hlast : first :: more = ts ++ [last]) : ∃ eof, eof.isEof ∧
      (tokenize ((first.span.through last.span).slice source)).map
        (·.move (.shift first.span.start)) = first :: more ++ [eof] := by
  obtain ⟨text, gap, hexcerpt⟩ := exists_excerpt h
  have hchars := hexcerpt.chars_eq (List.nil_prefix (l := gap))
  have htokens := hexcerpt.tokenize_append [] List.nil_prefix rfl
  rw [List.append_nil] at hchars htokens
  have hspan : first.span.through last.span =
      ⟨first.span.start, first.span.start + byteLength text⟩ :=
    congrArg (Span.mk first.span.start) (hexcerpt.of_last ts last hlast).1
  rw [hspan, Span.slice, hchars]
  exact ⟨.eofAt (first.span.start + byteLength text + byteLength []), rfl, htokens⟩

/-- A reading of a statement stays in front of the token that ends it. -/
theorem Cursor.Reaches.exists_inside {c d : Cursor} {inside behind : List Token} {closing : Token}
    (h : c.Reaches d) (hahead : c.ahead = inside ++ closing :: behind)
    (hends : closing.endsStatement) :
    ∃ passed rest, inside = passed ++ rest ∧ d.ahead = rest ++ closing :: behind := by
  obtain ⟨passed, hpassed, hposition, -⟩ := h.exists_passed
  have hclosing : c.ahead[inside.length]? = some closing := by
    rw [hahead, List.getElem?_append_right (Nat.le_refl _), Nat.sub_self]
    rfl
  have hle := h.position_le_of_endsStatement hclosing hends
  have hlength : passed.length ≤ inside.length := by omega
  rw [hahead] at hpassed
  obtain ⟨rest, rfl⟩ : passed <+: inside := List.prefix_of_prefix_length_le
    (hpassed ▸ List.prefix_append passed d.ahead) (List.prefix_append inside _) hlength
  rw [List.append_assoc] at hpassed
  exact ⟨passed, rest, rfl, (List.append_cancel_left hpassed).symm⟩

/-! ### The columns of a statement -/

namespace Statement.IsReadFrom

variable {s : Statement} {source : String} {tree : Command} {before inside behind : List Token}
  {closing : Token}

/-- What tokens of a statement take up lies in its span, and spells what they spell. -/
theorem spellsColumn_of_tokens (h : s.IsReadFrom source tree before inside closing behind)
    {front more rest ts : List Token} {first last : Token} (hlast : first :: more = ts ++ [last])
    (hinside : inside = front ++ (first :: more ++ rest))
    {table? : Option String} {name : String}
    (hspells : ∀ eof : Token, eof.isEof → SpellsColumn (first :: more ++ [eof]) table? name) :
    s.span.Covers (first.span.through last.span) ∧
      SpellsColumn (tokenize ((first.span.through last.span).slice source)) table? name := by
  have hcovers : ∀ t ∈ first :: more, s.span.Covers t.span := fun t ht ↦
    h.covers t (hinside ▸ List.mem_append_right _ (List.mem_append_left _ ht))
  have hfirst := hcovers first (.head _)
  have hstop := hcovers last (hlast ▸ List.mem_append_right _ (.head _))
  refine ⟨⟨hfirst.1, hstop.2⟩, ?_⟩
  obtain ⟨next, behind', hnext⟩ : ∃ next behind', rest ++ closing :: behind = next :: behind' :=
    List.exists_cons_of_ne_nil (List.append_ne_nil_of_right_ne_nil _ (List.cons_ne_nil _ _))
  have htokens : tokenize source = before ++ front ++ (first :: more ++ next :: behind') := by
    rw [h.tokens_eq, hinside, ← hnext]
    simp only [List.append_assoc]
  obtain ⟨eof, heof, hslice⟩ := exists_map_tokenize_slice htokens hlast
  exact .of_move (hslice ▸ hspells eof heof)

/-- **Columns are placed at the tokens that spell them.** -/
theorem spellsColumn (h : s.IsReadFrom source tree before inside closing behind)
    {table? : Option String} {name : String} {span : Span}
    (hcolumn : .column table? name span ∈ labels tree.nodes) :
    s.span.Covers span ∧ SpellsColumn (tokenize (span.slice source)) table? name := by
  obtain ⟨after, hrun, -⟩ := exists_run_of_parseFrom (congrArg Attempt.tree h.attempt)
  obtain ⟨mid, hmid, hopen, hspells, -⟩ :=
    Request.terminated.exists_spells_of_mem_labels hrun hcolumn
  have hcut {later : Cursor} (hlater : mid.Reaches later) :=
    (hmid.trans hlater).exists_inside h.ahead_ofTokens h.endsStatement_closing
  obtain ⟨front, rest, hinside, hrest⟩ := hcut (.here mid)
  rw [Cursor.ahead_eq_cons_of_isOpen hopen] at hrest
  -- One token for a plain column, three for a qualified one.
  rcases table? with _ | table
  · obtain ⟨hname, rfl⟩ := hspells
    obtain ⟨-, rest', -, hrest'⟩ := hcut (.advance mid)
    rw [hrest', ← List.cons_append] at hrest
    obtain rfl := List.append_cancel_right hrest
    have hlast : [mid.current] = [] ++ [mid.current] := rfl
    exact h.spellsColumn_of_tokens hlast hinside fun eof heof ↦
      .plain (Token.names_of_name? hname) heof
  · obtain ⟨htable, hdot, hname, rfl⟩ := hspells
    have hopenDot := Token.isOpen_of_isSpoken (Token.isSpoken_of_isSymbol hdot rfl)
    have hopenName := Token.isOpen_of_isSpoken (Token.isSpoken_of_name? hname)
    have hthird : mid.Reaches mid.advance.advance.advance := .onward (.onward (.advance _))
    obtain ⟨-, rest', -, hrest'⟩ := hcut hthird
    rw [Cursor.ahead_eq_cons_of_isOpen hopenDot, Cursor.ahead_eq_cons_of_isOpen hopenName, hrest',
      ← List.cons_append, ← List.cons_append, ← List.cons_append] at hrest
    obtain rfl := List.append_cancel_right hrest
    have hlast : [mid.current, mid.advance.current, mid.advance.advance.current] =
        [mid.current, mid.advance.current] ++ [mid.advance.advance.current] := rfl
    exact h.spellsColumn_of_tokens hlast hinside fun eof heof ↦
      .qualified (Token.names_of_name? htable) hdot (Token.names_of_name? hname) heof

end Statement.IsReadFrom

/-- **The places of columns locate their names.** In every batch, the place of a column in the tree
of a statement lies in the span of that statement, and the text there is cut into the tokens that
spell the column. -/
theorem column_spans (source : String) : ∃ statements,
    parseBatch source false = .ok statements ∧
      ∀ s ∈ statements, ∀ tree, s.tree? = some tree →
        ∀ (table? : Option String) (name : String) (span : Span),
          .expr (.column table? name span) ∈ tree.nodes →
            s.span.Covers span ∧ SpellsColumn (tokenize (span.slice source)) table? name := by
  obtain ⟨ps, hps⟩ := exists_splits_tokenize source
  refine ⟨_, parseBatch_of_splits hps, fun s hs tree htree table? name span hnode ↦ ?_⟩
  obtain ⟨before, inside, closing, behind, hread⟩ :=
    exists_isReadFrom (parseBatch_of_splits hps) hs htree
  exact hread.spellsColumn (column_mem_labels.2 hnode)

/-- A column behind its table, with trivia around the dot, in the second statement of a batch. -/
theorem column_spans_qualified :
    let source := "SELECT 1; SELECT t /**/ . \"b c\" FROM t"
    ∃ statements, parseBatch source false = .ok statements ∧ ∃ s ∈ statements, ∃ tree,
      s.tree? = some tree ∧ .expr (.column (some "t") "b c" ⟨17, 31⟩) ∈ tree.nodes ∧
        s.span.Covers ⟨17, 31⟩ ∧
          SpellsColumn (tokenize (Span.slice ⟨17, 31⟩ source)) (some "t") "b c" := by
  intro source
  obtain ⟨statements, hparse, hspans⟩ := column_spans source
  have hcolumns : (parseBatch source false).toOption.map (·.map fun s ↦ s.tree?.map fun tree ↦
      decide (.column (some "t") "b c" ⟨17, 31⟩ ∈ labels tree.nodes)) =
        some [some false, some true] := by
    decide +kernel
  rw [hparse] at hcolumns
  obtain ⟨first, _, rfl, -, hsecond⟩ := List.map_eq_cons_iff.1 (Option.some.inj hcolumns)
  obtain ⟨s, others, rfl, hs, -⟩ := List.map_eq_cons_iff.1 hsecond
  obtain ⟨tree, htree, hcolumn⟩ := Option.map_eq_some_iff.1 hs
  have hmem : s ∈ first :: s :: others := .tail _ (.head _)
  have hnode := column_mem_labels.1 (of_decide_eq_true hcolumn)
  exact ⟨_, hparse, s, hmem, tree, htree, hnode, hspans s hmem tree htree _ _ _ hnode⟩

end SqlBatch
