import SqlBatch.Proofs.Levels
import SqlBatch.Proofs.Lexing.Numbers
import SqlBatch.Proofs.Origins
import SqlBatch.Proofs.Reports
import SqlBatch.Proofs.Stages

/-!
# The first word of a statement

A statement that was read starts with a keyword, and its tree is one that this keyword introduces.
Its type, a word cut from the text with no regard to tokens, is that keyword again, whatever case it
is written in and whatever stands behind it (`types_agree`).

## Two readings of one word

The type is the longest run of word characters at the start of the text, in upper case. The keyword
is a token. The two meet for two reasons:

* A keyword token is a whole word: the lexer takes all word characters that follow
  (`takeWhile_of_keyword`), so the run ends where the token does.
* Only ASCII letters spell a keyword, so its upper-case form is the same under the full Unicode
  mapping (`Keyword.upperCase_eq_spelling`).
-/

namespace SqlBatch

/-- The keywords with which a statement of the tree may start. -/
def Command.keywords : Command → List Keyword
  | .select _ => [.SELECT]
  | .insert _ => [.INSERT]
  | .update _ => [.UPDATE]
  | .delete _ => [.DELETE]
  | .createTable _ => [.CREATE]
  | .dropTable _ _ => [.DROP]
  | .explain _ _ => [.EXPLAIN]
  | .refresh _ => [.REFRESH]
  | .optimize _ _ => [.OPTIMIZE]
  | .show _ => [.SHOW]
  | .set _ _ _ => [.SET]
  | .reset _ => [.RESET]
  | .begin => [.BEGIN, .START]
  | .commit => [.COMMIT, .END]
  | .kill _ => [.KILL]
  | .analyze => [.ANALYZE]
  | .discard _ => [.DISCARD]
  | .deallocate _ => [.DEALLOCATE]
  | .close _ => [.CLOSE]

/-! ### Trees and the keywords in front of them -/

namespace Rule

variable {inner : Nested} {keyword : Keyword}

/-- The keyword may introduce what the rule answers with. -/
abbrev IsIntroducedBy (r : Rule Command) (keyword : Keyword) : Prop :=
  r.Yields (keyword ∈ ·.keywords)

theorem isIntroducedBy_dropTable : dropTable.IsIntroducedBy .DROP := by
  have ending (ifExists : Bool) : (dropped ifExists).IsIntroducedBy .DROP :=
    .bind_any fun _ ↦ .pure (.head _)
  refine .bind_any fun _ ↦ .bind_any fun _ ↦ .bind_any fun ifExists ↦ ?_
  exact .ite (.bind_any fun _ ↦ ending ifExists) (ending ifExists)

theorem isIntroducedBy_explain : (explain inner).IsIntroducedBy .EXPLAIN := by
  have ending (analyze : Bool) : (explaining inner analyze).IsIntroducedBy .EXPLAIN :=
    .bind_any fun _ ↦ .pure (.head _)
  refine .bind_any fun _ ↦ .bind_any fun token ↦ .bind_any fun next ↦ .ite ?_ ?_
  · exact .bind_any fun _ ↦ ending _
  · exact ending _

theorem isIntroducedBy_set : (set inner).IsIntroducedBy .SET := by
  refine .bind_any fun _ ↦ .bind_any fun scope ↦ .bind_any fun name ↦ .bind_any fun _ ↦ ?_
  have value : (settingValue inner scope name).IsIntroducedBy .SET :=
    .bind_any fun _ ↦ .ite (.pure (.head _)) (.bind_any fun _ ↦ .pure (.head _))
  exact .ite value (.bind_any fun _ ↦ .ite value (.bind_any fun _ ↦ value))

theorem isIntroducedBy_discard : discard.IsIntroducedBy .DISCARD := by
  refine .bind_any fun _ ↦ .bind_any fun token ↦ ?_
  split
  · exact .bind_any fun _ ↦ .pure (.head _)
  · exact .fail

theorem isIntroducedBy_commit (first : Keyword) (h : first ∈ Command.commit.keywords) :
    (commit first).IsIntroducedBy first :=
  .bind_any fun _ ↦ .bind_any fun _ ↦ .pure h

/-- **The first keyword of a statement introduces its tree.** -/
theorem exists_keyword_of_run_statement {c after : Cursor} {tree : Command}
    (h : (statement inner).run c = .done tree after) :
    ∃ keyword ∈ tree.keywords, c.current.kind = .keyword keyword := by
  obtain ⟨token, mid, hcurrent, hrun⟩ := exists_of_run_bind h
  obtain ⟨rfl, rfl⟩ : c.current = token ∧ c = mid := by
    rw [run_current] at hcurrent
    cases hcurrent
    exact ⟨rfl, rfl⟩
  suffices hkeyword : ∃ keyword, c.current.keyword? = some keyword ∧ keyword ∈ tree.keywords by
    obtain ⟨keyword, hkeyword, hmem⟩ := hkeyword
    exact ⟨keyword, hmem, Token.kind_of_keyword? hkeyword⟩
  have of {r : Rule Command} {keyword : Keyword} (hr : r.IsIntroducedBy keyword)
      (hkeyword : c.current.keyword? = some keyword) (hrun : r.run c = .done tree after) :
      ∃ keyword, c.current.keyword? = some keyword ∧ keyword ∈ tree.keywords :=
    ⟨keyword, hkeyword, hr hrun⟩
  -- One case for each keyword that may start a statement, in the order of the rule.
  split at hrun <;> rename_i hkeyword
  · exact of (.map (.any _) fun _ _ ↦ .head _) hkeyword hrun
  · exact of (.map (.any _) fun _ _ ↦ .head _) hkeyword hrun
  · exact of (.map (.any _) fun _ _ ↦ .head _) hkeyword hrun
  · exact of (.map (.any _) fun _ _ ↦ .head _) hkeyword hrun
  · exact of (.map (.any _) fun _ _ ↦ .head _) hkeyword hrun
  · exact of isIntroducedBy_dropTable hkeyword hrun
  · exact of isIntroducedBy_explain hkeyword hrun
  · exact of (.map (.any _) fun _ _ ↦ .head _) hkeyword hrun
  · exact of isIntroducedBy_set hkeyword hrun
  · exact of isIntroducedBy_discard hkeyword hrun
  · exact of (.bind_any fun _ ↦ .bind_any fun _ ↦ .bind_any fun _ ↦ .pure (.head _)) hkeyword hrun
  · refine of (.bind_any fun _ ↦ .bind_any fun _ ↦ .bind_any fun _ ↦ ?_) hkeyword hrun
    exact .bind_any fun _ ↦ .pure (.head _)
  · refine of (.bind_any fun _ ↦ .bind_any fun _ ↦ ?_) hkeyword hrun
    exact .ite (.pure (.head _)) (.bind_any fun _ ↦ .pure (.head _))
  · exact of (.bind_any fun _ ↦ .bind_any fun _ ↦ .pure (.head _)) hkeyword hrun
  · exact of (.bind_any fun _ ↦ .bind_any fun _ ↦ .pure (.tail _ (.head _))) hkeyword hrun
  · exact of (isIntroducedBy_commit .COMMIT (.head _)) hkeyword hrun
  · exact of (isIntroducedBy_commit .END (.tail _ (.head _))) hkeyword hrun
  · refine of (.bind_any fun _ ↦ .bind_any fun _ ↦ ?_) hkeyword hrun
    exact .ite (.pure (.head _)) (.bind_any fun _ ↦ .pure (.head _))
  · exact of (.bind_any fun _ ↦ .pure (.head _)) hkeyword hrun
  · refine of (.bind_any fun _ ↦ .bind_any fun _ ↦ ?_) hkeyword hrun
    exact .bind_any fun _ ↦ .pure (.head _)
  · exact of (.bind_any fun _ ↦ .bind_any fun _ ↦ .pure (.head _)) hkeyword hrun
  · have hnone : noStatement.Yields fun _ ↦ False := .bind_any fun _ ↦ .ite .fail .fail
    exact (hnone hrun).elim

end Rule

/-! ### Keywords in upper case -/

/-- A character whose upper case is an ASCII letter is one itself. -/
theorem toNat_lt_of_toUpper {c : Char} (h : c.toUpper.toNat < 128) : c.toNat < 128 := by
  by_cases hlower : c.val ≥ 'a'.val ∧ c.val ≤ 'z'.val
  · have hle : c.toNat ≤ 'z'.toNat := UInt32.le_iff_toNat_le.1 hlower.2
    exact Nat.lt_of_le_of_lt hle (by decide)
  · have hkeep : c.toUpper = c := dif_neg hlower
    exact hkeep ▸ h

/-- A word of ASCII letters has one upper-case form. -/
theorem upperCase_eq_foldCase {word : String}
    (h : ∀ c ∈ (Keyword.foldCase word).toList, c.toNat < 128) :
    upperCase word = Keyword.foldCase word := by
  rw [Keyword.foldCase, String.toList_ofList] at h
  have hupper : ∀ c ∈ word.toList, upperChars c = [c.toUpper] := fun c hc ↦ by
    rw [upperChars, if_pos (toNat_lt_of_toUpper (h _ (List.mem_map_of_mem hc)))]
  rw [upperCase, Keyword.foldCase, List.flatMap_congr hupper, List.map_eq_flatMap]

namespace Keyword

/-- Keywords are spelled with ASCII letters. -/
theorem toNat_lt_of_mem_spelling {keyword : Keyword} :
    ∀ c ∈ keyword.spelling.toList, c.toNat < 128 := by
  have hall : keyword.spelling.toList.all fun c ↦ decide (c.toNat < 128) := by
    cases keyword <;> decide +kernel
  exact fun c hc ↦ of_decide_eq_true (List.all_eq_true.1 hall c hc)

/-- A word that is a keyword is its spelling in upper case. -/
theorem upperCase_eq_spelling {word : String} {keyword : Keyword}
    (h : ofWord? word = some keyword) : upperCase word = keyword.spelling := by
  rw [spelling_of_ofWord? h]
  refine upperCase_eq_foldCase ?_
  rw [← spelling_of_ofWord? h]
  exact toNat_lt_of_mem_spelling

end Keyword

/-! ### Keywords in a text -/

/-- **A keyword is a whole word.** -/
theorem Scan.word_of_keyword {c : Char} {cs : List Char} {keyword : Keyword}
    (h : (scan c cs).kind = .keyword keyword) :
    isWordStart c ∧ (scan c cs).extra = (cs.takeWhile isWordChar).length ∧
      Keyword.ofWord? (String.ofList (c :: cs.takeWhile isWordChar)) = some keyword := by
  have hbare : (scan c cs).kind.isBare := by
    rw [h]
    rfl
  rcases scan_of_isBare hbare with ⟨-, hscan⟩ | ⟨hc, hscan⟩
  · rw [hscan] at h hbare
    rw [number_of_isBare hbare] at h
    simp only [integerKind] at h
    split at h <;> cases h
  · rw [hscan]
    refine ⟨hc, rfl, ?_⟩
    rw [hscan] at h
    simp only [word] at h
    split at h
    · rename_i other hword
      rw [hword, Token.Kind.keyword.inj h]
    · cases h

namespace Statement

variable {s : Statement} {source : String} {tree : Command} {before inside more behind : List Token}
  {first closing : Token}

/-- The text of a statement that is read goes at least from the start to the end of its first
token. -/
theorem IsReadFrom.exists_chars (h : s.IsReadFrom source tree before (first :: more) closing behind)
    (hstart : first.span.start = s.span.start) : ∃ c text rest,
      first.StandsAt source c (text ++ rest) ∧ s.span.chars source = c :: text ∧
        byteLength ((text ++ rest).take (scan c (text ++ rest)).extra) ≤ byteLength text := by
  have hmem {t : Token} (ht : t ∈ first :: more ++ closing :: behind) : t ∈ tokenize source := by
    rw [h.tokens_eq]
    exact List.mem_append_right _ ht
  -- The statement stops where its closing token starts, and the first token lies in front of that.
  have hopen := Token.isEof_eq_false (h.endsStatement_inside first (.head _))
  obtain ⟨c, cs, hstands⟩ := exists_standsAt (hmem (.head _)) hopen
  have hclosing : closing ∈ first :: more ++ closing :: behind :=
    List.mem_append_right _ (.head _)
  obtain ⟨front, chars, rest, hlies⟩ := exists_stands (hmem hclosing)
  have hle : first.span.stop ≤ byteLength front := by
    rw [← hlies.start_eq, h.start_closing]
    exact (h.covers first (.head _)).2
  obtain ⟨text, rfl, hlength, htoken⟩ := hstands.exists_text hlies.source_eq hle
  refine ⟨c, text, _, hstands, ?_, htoken⟩
  have hspan : s.span = ⟨first.span.start, first.span.start + byteLength (c :: text)⟩ := by
    rw [← hlength, ← hlies.start_eq, h.start_closing, hstart]
  rw [hspan]
  exact hstands.chars_eq (List.prefix_append _ _)

/-- A text that goes at least up to the end of a keyword starts with that word. -/
theorem takeWhile_of_keyword {c : Char} {text rest : List Char} {keyword : Keyword}
    (h : (scan c (text ++ rest)).kind = .keyword keyword)
    (hle : byteLength ((text ++ rest).take (scan c (text ++ rest)).extra) ≤ byteLength text) :
    ∃ word, (c :: text).takeWhile isWordChar = c :: word ∧
      Keyword.ofWord? (String.ofList (c :: word)) = some keyword := by
  obtain ⟨hc, hextra, hword⟩ := Scan.word_of_keyword h
  rw [hextra, take_length_takeWhile] at hle
  obtain ⟨mid, hmid, -⟩ := exists_between List.takeWhile_append_dropWhile hle
  have hlength : ((text ++ rest).takeWhile isWordChar).length ≤ text.length :=
    (List.prefix_iff_exists_append_eq.2 ⟨mid, hmid.symm⟩).length_le
  refine ⟨_, ?_, hword⟩
  rw [List.takeWhile_cons_of_pos (isWordChar_of_isWordStart hc), ← takeWhile_take hlength,
    List.take_left]

/-- The statement starts with a keyword, which introduces its tree and is its type. -/
structure IsTypedBy (s : Statement) (source : String) (tree : Command) (keyword : Keyword) :
    Prop where
  exists_token : ∃ token ∈ tokenize source,
    token.span.start = s.span.start ∧ token.kind = .keyword keyword
  mem_keywords : keyword ∈ tree.keywords
  type?_eq : s.type? = some keyword.spelling

/-- A statement that was read is typed by the keyword at its start. -/
theorem IsReadFrom.exists_isTypedBy
    (h : s.IsReadFrom source tree before inside closing behind) (hbatch : s.batch = source) :
    ∃ keyword, s.IsTypedBy source tree keyword := by
  obtain ⟨first, more, rfl, hstart⟩ := h.exists_first
  have htree : (parseFrom (tokenize source) before.length).tree = some tree := by
    rw [h.attempt]
  obtain ⟨after, hrun, -⟩ := exists_run_of_parseFrom htree
  obtain ⟨keyword, hmem, hkind⟩ :=
    Rule.exists_keyword_of_run_statement (Rule.run_of_terminated hrun)
  have hfirst : (Cursor.ofTokens (tokenize source) before.length).current = first := by
    rw [Cursor.current, h.ahead_ofTokens]
    rfl
  rw [hfirst] at hkind
  obtain ⟨c, text, rest, hstands, hchars, hle⟩ := h.exists_chars hstart
  obtain ⟨word, htakeWhile, hword⟩ := takeWhile_of_keyword (hstands.kind ▸ hkind) hle
  refine ⟨keyword, ⟨first, ?_, hstart, hkind⟩, hmem, ?_⟩
  · rw [h.tokens_eq]
    exact List.mem_append_right _ (.head _)
  · have hquery := takeWhile_query (hbatch ▸ hchars) hstands.isBlank
    rw [type?_eq_some (hquery.trans htakeWhile) (List.cons_ne_nil _ _),
      Keyword.upperCase_eq_spelling hword]

end Statement

/-- A statement of a batch keeps the batch. -/
theorem batch_of_mem {source : String} {statements : List Statement}
    (h : parseBatch source false = .ok statements) {s : Statement} (hs : s ∈ statements) :
    s.batch = source := by
  obtain ⟨ps, hps⟩ := exists_splits_tokenize source
  obtain rfl := Except.ok.inj ((parseBatch_of_splits hps).symm.trans h)
  obtain ⟨p, -, rfl⟩ := List.mem_map.1 hs
  rfl

/-- **The type of a statement agrees with its tree**: it is the keyword that the statement starts
with, and that keyword introduces the tree. -/
theorem types_agree (source : String) : ∃ statements, parseBatch source false = .ok statements ∧
    ∀ s ∈ statements, ∀ tree, s.tree? = some tree →
      ∃ keyword, s.IsTypedBy source tree keyword := by
  obtain ⟨ps, hps⟩ := exists_splits_tokenize source
  have hparse := parseBatch_of_splits hps
  refine ⟨_, hparse, fun s hs tree htree ↦ ?_⟩
  obtain ⟨before, inside, closing, behind, hread⟩ := exists_isReadFrom hparse hs htree
  exact hread.exists_isTypedBy (batch_of_mem hparse hs)

end SqlBatch
