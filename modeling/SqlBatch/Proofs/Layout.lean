import Mathlib.Data.List.Forall2
import SqlBatch.Proofs.Lexing.Spacing
import SqlBatch.Proofs.ParseBatch

/-!
# Layout does not matter

Batches that are cut into the same tokens are read as the same statements, wherever the tokens lie
and whatever stands between them. The statements of both are those of the tokens with all places
forgotten, since the pieces that tokens split into do not depend on places (`Splits.move`,
`Splits.of_map`). Changing one blank character in a gap into another leaves the tokens the same.

## What is compared

Trees are compared with the places of their columns forgotten, errors by their message and the text
of their token, and metadata as they are: no fact about a statement depends on a place
(`Metadata.ofCommand_relabel`).

## Blank characters

One direction takes the tokens as given (`SameTokens.readAlike`). The other changes a text: where a
blank character between two tokens is replaced by another, what is in front of it is cut as before,
by `Lexer.Reads.exists_behind_blank`, and what is behind has been moved at most.
-/

namespace SqlBatch

/-! ### The facts about a statement do not depend on places -/

section

variable (f : Relabeling)

mutual

/-- The tables of an expression do not depend on places. -/
theorem Expr.tables_relabel : (expr : Expr) → (expr.relabel f).tables = expr.tables
  | .literal _ | .column _ _ _ | .parameter _ | .wildcard _ => rfl
  | .binary _ left right => by
    rw [Expr.relabel, Expr.tables, left.tables_relabel, right.tables_relabel, Expr.tables]
  | .unary _ operand | .isNull operand _ | .paren operand => by
    rw [Expr.relabel, Expr.tables, operand.tables_relabel, Expr.tables]
  | .call _ _ exprs | .array exprs => by
    rw [Expr.relabel, Expr.tables, tablesOfExprs_relabel exprs, Expr.tables]
  | .subquery query | .exists query => by
    rw [Expr.relabel, Expr.tables, query.tables_relabel, Expr.tables]
  | .isIn operand list _ => by
    rw [Expr.relabel, Expr.tables, operand.tables_relabel, tablesOfExprs_relabel list, Expr.tables]
  | .between operand low high _ => by
    rw [Expr.relabel, Expr.tables, operand.tables_relabel, low.tables_relabel,
      high.tables_relabel, Expr.tables]
  | .case operand branches otherwise => by
    rw [Expr.relabel, Expr.tables, tablesOfExpr?_relabel operand, tablesOfBranches_relabel branches,
      tablesOfExpr?_relabel otherwise, Expr.tables]
  | .cast operand _ => by rw [Expr.relabel, Expr.tables, operand.tables_relabel, Expr.tables]
  | .subscript base index => by
    rw [Expr.relabel, Expr.tables, base.tables_relabel, index.tables_relabel, Expr.tables]

theorem Query.tables_relabel : (query : Query) → (query.relabel f).tables = query.tables
  | ⟨_, items, source, filter, grouping, having, compound, _, _, _⟩ => by
    rw [Query.relabel, Query.tables, tablesOfItems_relabel items, tablesOfFrom?_relabel source,
      tablesOfExpr?_relabel filter, tablesOfExprs_relabel grouping, tablesOfExpr?_relabel having,
      tablesOfCompound?_relabel compound, Query.tables]

theorem FromItem.tables_relabel : (item : FromItem) → (item.relabel f).tables = item.tables
  | .table _ _ => rfl
  | .subquery query _ => by
    rw [FromItem.relabel, FromItem.tables, query.tables_relabel, FromItem.tables]
  | .join left _ right condition => by
    rw [FromItem.relabel, FromItem.tables, left.tables_relabel, right.tables_relabel,
      condition.tables_relabel, FromItem.tables]

theorem JoinCondition.tables_relabel : (condition : JoinCondition) →
    (condition.relabel f).tables = condition.tables
  | .none | .using _ => rfl
  | .on condition => by
    rw [JoinCondition.relabel, JoinCondition.tables, condition.tables_relabel, JoinCondition.tables]

theorem tablesOfExprs_relabel : (exprs : List Expr) →
    tablesOfExprs (relabelExprs f exprs) = tablesOfExprs exprs
  | [] => rfl
  | expr :: exprs => by
    rw [relabelExprs, tablesOfExprs, expr.tables_relabel, tablesOfExprs_relabel exprs,
      tablesOfExprs]

theorem tablesOfExpr?_relabel : (expr : Option Expr) →
    tablesOfExpr? (relabelExpr? f expr) = tablesOfExpr? expr
  | none => rfl
  | some expr => by rw [relabelExpr?, tablesOfExpr?, expr.tables_relabel, tablesOfExpr?]

theorem tablesOfBranches_relabel : (branches : List Branch) →
    tablesOfBranches (relabelBranches f branches) = tablesOfBranches branches
  | [] => rfl
  | ⟨condition, result⟩ :: branches => by
    rw [relabelBranches, tablesOfBranches, condition.tables_relabel, result.tables_relabel,
      tablesOfBranches_relabel branches, tablesOfBranches]

theorem tablesOfItems_relabel : (items : List SelectItem) →
    tablesOfItems (relabelItems f items) = tablesOfItems items
  | [] => rfl
  | ⟨expr, _⟩ :: items => by
    rw [relabelItems, tablesOfItems, expr.tables_relabel, tablesOfItems_relabel items,
      tablesOfItems]

theorem tablesOfFrom?_relabel : (item : Option FromItem) →
    tablesOfFrom? (relabelFrom? f item) = tablesOfFrom? item
  | none => rfl
  | some item => by rw [relabelFrom?, tablesOfFrom?, item.tables_relabel, tablesOfFrom?]

theorem tablesOfCompound?_relabel : (compound : Option Compound) →
    tablesOfCompound? (relabelCompound? f compound) = tablesOfCompound? compound
  | none => rfl
  | some ⟨_, _, right⟩ => by
    rw [relabelCompound?, tablesOfCompound?, right.tables_relabel, tablesOfCompound?]

end

/-- The tables of what is inserted do not depend on places. -/
theorem InsertSource.tables_relabel (source : InsertSource) :
    (source.relabel f).tables = source.tables := by
  cases source with
  | rows rs =>
    have hrow (exprs : List Expr) := tablesOfExprs_relabel f exprs
    simp only [InsertSource.relabel, InsertSource.tables, List.flatMap_map, hrow]
  | query q => exact q.tables_relabel f
  | defaults => rfl

/-- Labels say nothing about tables. -/
theorem Command.tables_relabel (command : Command) :
    (command.relabel f).tables = command.tables := by
  induction command with
  | select q => exact q.tables_relabel f
  | insert i => exact congrArg (i.table :: ·) (i.source.tables_relabel f)
  | update u =>
    have hvalues : (u.assignments.map (·.relabel f)).map (·.value) =
        relabelExprs f (u.assignments.map (·.value)) := by
      rw [relabelExprs_eq_map, List.map_map, List.map_map]
      rfl
    simp only [Command.relabel, Command.tables, hvalues, tablesOfExprs_relabel,
      tablesOfFrom?_relabel, tablesOfExpr?_relabel]
  | delete d => exact congrArg (d.table :: ·) (tablesOfExpr?_relabel f d.filter)
  | explain _ command ih => exact ih
  | _ => rfl

/-- The properties of a statement are those of the relabeled one, relabeled. -/
theorem Metadata.propertiesOf_relabel (command : Command) :
    propertiesOf (command.relabel f) = (propertiesOf command).map (·.relabel f) := by
  induction command with
  | explain _ command ih => exact ih
  | _ => rfl

end

section

variable (place : Span → Span)

/-- Moving columns does not change the text of a literal. -/
theorem Expr.literalText?_relabel : (expr : Expr) →
    (expr.relabel ⟨place, fun p ↦ p⟩).literalText? = expr.literalText?
  | .unary .neg operand => by
    rw [Expr.relabel, Expr.literalText?, operand.literalText?_relabel, Expr.literalText?]
  | .literal _ => by rw [Expr.relabel]
  | .column none _ _ | .column (some _) _ _ | .parameter _ | .unary .not _ | .unary .bitNot _
  | .binary _ _ _ | .call _ _ _ | .subquery _ | .exists _ | .isNull _ _ | .isIn _ _ _
  | .between _ _ _ _ | .case _ _ _ | .cast _ _ | .array _ | .subscript _ _ | .paren _
  | .wildcard _ => rfl

theorem Expr.isParameter_relabel (f : Relabeling) (expr : Expr) :
    (expr.relabel f).isParameter = expr.isParameter := by
  cases expr <;> rfl

/-- Places are no part of the facts about a statement. -/
theorem Metadata.ofCommand_relabel (command : Command) :
    ofCommand (command.relabel ⟨place, fun p ↦ p⟩) = ofCommand command := by
  have hproperty (metadata : Metadata) (property : Property) :
      metadata.addProperty (property.relabel ⟨place, fun p ↦ p⟩) =
        metadata.addProperty property := by
    simp only [addProperty, Property.relabel, Expr.literalText?_relabel, Expr.isParameter_relabel]
  rw [ofCommand, propertiesOf_relabel, List.foldl_map, Command.tables_relabel, ofCommand]
  simp only [hproperty]

end

/-! ### Statements that agree -/

/-- The statements are read alike, up to places: both are read or both fail, with the same tree and
the same facts, or with the same message at a token with the same text. -/
structure Statement.AgreesWith (s t : Statement) : Prop where
  isOk : s.isOk = t.isOk
  tree : s.tree?.map (·.relabel .forgetPlaces) = t.tree?.map (·.relabel .forgetPlaces)
  message : s.error?.map (·.message) = t.error?.map (·.message)
  text : s.error?.map (·.text) = t.error?.map (·.text)
  metadata : s.metadata = t.metadata

/-- Statements with one tree, up to places, agree. -/
theorem Statement.agreesWith_of_ok {s t : Statement} {tree tree' : Command}
    (hs : s.outcome = .ok tree) (ht : t.outcome = .ok tree')
    (h : tree.relabel .forgetPlaces = tree'.relabel .forgetPlaces) : s.AgreesWith t := by
  have hmetadata : Metadata.ofCommand tree = Metadata.ofCommand tree' := by
    rw [← Metadata.ofCommand_relabel fun _ ↦ ⟨0, 0⟩]
    exact (congrArg Metadata.ofCommand h).trans (Metadata.ofCommand_relabel _ tree')
  constructor
  · rw [isOk, isOk, hs, ht]
    rfl
  · rw [tree?, tree?, hs, ht]
    exact congrArg some h
  · rw [error?, error?, hs, ht]
  · rw [error?, error?, hs, ht]
  · rw [metadata, metadata, tree?, tree?, hs, ht]
    exact hmetadata

/-- Statements with one error, up to places, agree. -/
theorem Statement.agreesWith_of_error {s t : Statement} {e e' : LocatedError}
    (hs : s.outcome = .error e) (ht : t.outcome = .error e') (hmessage : e.message = e'.message)
    (htext : e.text = e'.text) : s.AgreesWith t := by
  constructor
  · rw [isOk, isOk, hs, ht]
    rfl
  · rw [tree?, tree?, hs, ht]
    rfl
  · rw [error?, error?, hs, ht]
    exact congrArg some hmessage
  · rw [error?, error?, hs, ht]
    exact congrArg some htext
  · rw [metadata, metadata, tree?, tree?, hs, ht]
    rfl

/-- Pieces that differ in places alone are read alike. -/
theorem Piece.agreesWith_statement {p q : Piece} (index index' : LineIndex)
    (h : p.move (fun _ ↦ ⟨0, 0⟩) = q.move fun _ ↦ ⟨0, 0⟩) :
    (p.statement index).AgreesWith (q.statement index') := by
  have hresult : p.result.map (·.relabel .forgetPlaces) = q.result.map (·.relabel .forgetPlaces) :=
    congrArg Piece.result h
  have hstopped : p.stopped.displayText = q.stopped.displayText := by
    have hmove := congrArg (·.stopped.displayText) h
    simp only [stopped_move] at hmove
    exact hmove
  rcases hp : p.result with cause | tree <;> rcases hq : q.result with cause' | tree' <;>
    rw [hp, hq] at hresult
  · obtain rfl : cause = cause' := Except.error.inj hresult
    refine Statement.agreesWith_of_error (by rw [statement, hp]) (by rw [statement, hq]) ?_ hstopped
    exact congrArg (cause.message ·) hstopped
  · cases hresult
  · cases hresult
  · exact Statement.agreesWith_of_ok (by rw [statement, hp]) (by rw [statement, hq])
      (Except.ok.inj hresult)

/-! ### Batches that are cut alike -/

/-- The texts are cut into tokens of the same kinds with the same texts. -/
def SameTokens (a b : String) : Prop :=
  (tokenize a).map (fun t ↦ (t.kind, t.text)) = (tokenize b).map (fun t ↦ (t.kind, t.text))

/-- The second text is the first one with a blank character changed into a line end, a tab or a
space. Only white space stands between the end of the token in front, or the start of the text, and
that character, so it is part of no comment. -/
def Respaced (a b : String) : Prop :=
  ∃ before blanks behind : List Char, ∃ c d : Char,
    a.toList = before ++ (blanks ++ c :: behind) ∧ b.toList = before ++ (blanks ++ d :: behind) ∧
    (before = [] ∨ ∃ t ∈ tokenize a, t.span.stop = byteLength before) ∧
    (∀ x ∈ c :: blanks, isBlank x) ∧ d ∈ ['\n', '\r', '\t', ' ']

/-- Both texts are read, as statements that agree one by one. -/
def ReadAlike (a b : String) : Prop :=
  ∃ ss ts, parseBatch a false = .ok ss ∧ parseBatch b false = .ok ts ∧
    List.Forall₂ Statement.AgreesWith ss ts

/-- **Batches of the same tokens are read alike.** -/
theorem SameTokens.readAlike {a b : String} (h : SameTokens a b) : ReadAlike a b := by
  have hmove : (tokenize a).map (·.move fun _ ↦ ⟨0, 0⟩) =
      (tokenize b).map (·.move fun _ ↦ ⟨0, 0⟩) := by
    have hcontent : (fun t : Token ↦ t.move fun _ ↦ ⟨0, 0⟩) =
        (fun content : Token.Kind × String ↦ ⟨content.1, content.2, ⟨0, 0⟩⟩) ∘
          fun t ↦ (t.kind, t.text) := rfl
    rw [hcontent, ← List.map_map, ← List.map_map, h]
  obtain ⟨ps, hps⟩ := exists_splits_tokenize a
  -- Both batches split as the tokens do that have forgotten their places.
  have hforgotten : Splits ((tokenize a).map (·.move fun _ ↦ ⟨0, 0⟩))
      (ps.map (·.move fun _ ↦ ⟨0, 0⟩)) := hps.move fun _ _ ↦ rfl
  rw [hmove] at hforgotten
  obtain ⟨qs, hqs, hpieces⟩ := hforgotten.of_map fun _ _ ↦ rfl
  refine ⟨_, _, parseBatch_of_splits hps, parseBatch_of_splits hqs, ?_⟩
  rw [List.forall₂_map_left_iff, List.forall₂_map_right_iff]
  have hagree : List.Forall₂ (fun p q : Piece ↦ p.move (fun _ ↦ ⟨0, 0⟩) = q.move fun _ ↦ ⟨0, 0⟩)
      ps qs := by
    rw [← List.forall₂_map_right_iff, ← List.forall₂_map_left_iff, hpieces]
    exact List.forall₂_eq_eq_eq ▸ rfl
  exact hagree.imp fun _ _ ↦ Piece.agreesWith_statement _ _

/-! ### Texts that differ in white space -/

theorem contents_tokens (cs : List Char) (offset offset' : Nat) (finished : Bool) :
    (⟨cs, offset, finished⟩ : Lexer).tokens.map (fun t ↦ (t.kind, t.text)) =
      (⟨cs, offset', finished⟩ : Lexer).tokens.map fun t ↦ (t.kind, t.text) := by
  have hcontents (n : Nat) : (⟨cs, n, finished⟩ : Lexer).tokens.map (fun t ↦ (t.kind, t.text)) =
      (⟨cs, 0, finished⟩ : Lexer).tokens.map fun t ↦ (t.kind, t.text) := by
    have hshift := Lexer.tokens_shift ⟨cs, 0, finished⟩ n
    simp only [Nat.zero_add] at hshift
    rw [hshift, List.map_map]
    rfl
  rw [hcontents, hcontents offset']

/-- A text is read up to the end of any of its tokens. -/
theorem exists_reads_of_stop {source : String} {before rest : List Char}
    (hsource : source.toList = before ++ rest) (hrest : rest ≠ [])
    (h : before = [] ∨ ∃ t ∈ tokenize source, t.span.stop = byteLength before) :
    ∃ ts after, (Lexer.ofSource source).Reads ts after ∧ after.ahead = rest := by
  rcases h with rfl | ⟨t, ht, hstop⟩
  · exact ⟨[], _, .nil _, hsource⟩
  · have hopen : t.isEof = false := by
      rw [Bool.eq_false_iff]
      intro heof
      rw [eq_eofAt_of_mem_tokenize ht heof, hsource, byteLength_append] at hstop
      have hlength : byteLength before + byteLength rest = byteLength before := hstop
      have := byteLength_pos hrest
      omega
    obtain ⟨ts, us, htokens⟩ := List.append_of_mem ht
    obtain ⟨next, us, rfl⟩ := exists_next_of_tokenize htokens hopen
    have hsplit : (Lexer.ofSource source).tokens = (ts ++ [t]) ++ next :: us := by
      rw [List.append_assoc]
      exact htokens
    obtain ⟨after, hreads, -⟩ := Lexer.exists_reads hsplit
    obtain ⟨text, hahead, hoffset, -⟩ := hreads.exists_text
    obtain ⟨hend, -⟩ := hreads.trimEnd_text hahead
    have hlength : byteLength text = byteLength before := by
      rw [← hstop, hend, hoffset]
      exact (Nat.zero_add _).symm
    have hsame : text ++ after.ahead = before ++ rest := hahead.symm.trans hsource
    exact ⟨ts ++ [t], after, hreads, (append_inj_of_byteLength hsame hlength).2⟩

/-- Behind some tokens, white space is skipped. -/
theorem contents_tokens_of_isBlank {blanks cs : List Char} {offset offset' : Nat}
    {finished : Bool} (h : ∀ x ∈ blanks, isBlank x) :
    (⟨blanks ++ cs, offset, finished⟩ : Lexer).tokens.map (fun t ↦ (t.kind, t.text)) =
      (⟨cs, offset', finished⟩ : Lexer).tokens.map fun t ↦ (t.kind, t.text) := by
  rw [Lexer.tokens_append_of_isBlank h, contents_tokens]

/-- Another blank character in a gap leaves the tokens the same. -/
theorem Respaced.sameTokens {a b : String} (h : Respaced a b) : SameTokens a b := by
  obtain ⟨before, blanks, behind, c, d, ha, hb, hbefore, hblank, hd⟩ := h
  obtain ⟨hc, hblanks⟩ := List.forall_mem_cons.1 hblank
  have hd : isBlank d := by
    simp only [List.mem_cons, List.not_mem_nil, or_false] at hd
    rcases hd with rfl | rfl | rfl | rfl <;> decide
  have hgap {x : Char} (hx : isBlank x) : ∀ y ∈ blanks ++ [x], isBlank y := by
    intro y hy
    rcases List.mem_append.1 hy with hy | hy
    · exact hblanks y hy
    · rwa [List.mem_singleton.1 hy]
  have hfirst {x : Char} (hx : isBlank x) : ∃ w rest, blanks ++ x :: behind = w :: rest ∧
      isBlank w := by
    cases blanks with
    | nil => exact ⟨x, behind, rfl, hx⟩
    | cons w ws => exact ⟨w, ws ++ x :: behind, rfl, hblanks w (.head _)⟩
  -- The tokens in front are the same, and all that is blank behind them is skipped.
  obtain ⟨ts, after, hreads, hahead⟩ := exists_reads_of_stop ha (by simp) hbefore
  obtain ⟨w, rest, hw, hblankw⟩ := hfirst hc
  obtain ⟨w', rest', hw', hblankw'⟩ := hfirst hd
  obtain ⟨text, htext, hreads'⟩ : ∃ text, (Lexer.ofSource a).ahead = text ++ after.ahead ∧
      Lexer.Reads { Lexer.ofSource a with ahead := text ++ w' :: rest' } ts
        { after with ahead := w' :: rest' } :=
    hreads.exists_behind_blank (hahead.trans hw) hblankw hblankw'
  obtain rfl : text = before := by
    rw [hahead, Lexer.ofSource] at htext
    exact List.append_cancel_right (htext.symm.trans ha)
  have hsource : { Lexer.ofSource a with ahead := text ++ w' :: rest' } = Lexer.ofSource b := by
    rw [Lexer.ofSource, Lexer.ofSource, hb, hw']
  rw [hsource] at hreads'
  have hleft := @contents_tokens_of_isBlank _ behind after.offset 0 after.finished (hgap hc)
  have hright := @contents_tokens_of_isBlank _ behind after.offset 0 after.finished (hgap hd)
  rw [List.append_assoc, List.singleton_append] at hleft hright
  rw [SameTokens, tokenize, hreads.tokens_eq, tokenize, hreads'.tokens_eq, List.map_append,
    List.map_append, ← hw', hright, ← hleft, ← hahead]

/-- **Layout does not matter.** Two batches of which the tokens have the same kinds and texts, or
that differ in one blank character of a gap, are read as the same statements up to places. -/
theorem parseBatch_layout {a b : String} (h : SameTokens a b ∨ Respaced a b) : ReadAlike a b :=
  (h.elim id Respaced.sameTokens).readAlike

/-- A statement that is read and one that is not, with other white space and comments, and with a
line end in place of a no-break space. -/
theorem parseBatch_layout_select :
    (SameTokens "SELECT a\u00a0FROM t;SELECT" "\tSELECT a -- ;\r FROM/* */t ; SELECT " ∧
      ReadAlike "SELECT a\u00a0FROM t;SELECT" "\tSELECT a -- ;\r FROM/* */t ; SELECT ") ∧
    Respaced "SELECT a\u00a0FROM t;SELECT" "SELECT a\nFROM t;SELECT" ∧
      ReadAlike "SELECT a\u00a0FROM t;SELECT" "SELECT a\nFROM t;SELECT" := by
  have hsame : SameTokens "SELECT a\u00a0FROM t;SELECT"
      "\tSELECT a -- ;\r FROM/* */t ; SELECT " := by
    unfold SameTokens
    decide +kernel
  have hspaced : Respaced "SELECT a\u00a0FROM t;SELECT" "SELECT a\nFROM t;SELECT" := by
    have hend : ∃ t ∈ tokenize "SELECT a\u00a0FROM t;SELECT",
        t.span.stop = byteLength "SELECT a".toList := by
      decide +kernel
    exact ⟨"SELECT a".toList, [], "FROM t;SELECT".toList, '\u00a0', '\n', rfl, rfl, .inr hend,
      List.forall_mem_singleton.2 (by decide +kernel), by decide⟩
  exact ⟨⟨hsame, parseBatch_layout (.inl hsame)⟩, hspaced, parseBatch_layout (.inr hspaced)⟩

end SqlBatch
