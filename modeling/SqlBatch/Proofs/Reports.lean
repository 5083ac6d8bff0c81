import Mathlib.Data.List.TakeWhile
import SqlBatch.Proofs.Contract
import SqlBatch.Proofs.Lexing.Spacing
import SqlBatch.Proofs.Lexing.Words
import SqlBatch.Proofs.Reproduction
import SqlBatch.Report

/-!
# Reports of a failure that is raised

A batch whose first failure is raised has no statements, so its report makes one up from the error:
the text read up to the offending token stands for the statement. The report of a batch that
collects its errors cuts the statement out of the batch, up to where the next one may start. Both
texts start at the first token of the statement, and of the end of the shorter one all that shows in
a report, beside the text itself, is the word at the start (`Splits.exists_texts`).

## The word at the start

That word is the same unless the text ends inside it. The lexer does not end a word inside a word,
but a number it does: a statement that starts with `1abc` fails at the number `1`. This is what
`StatementReport.IsCut` says, and `StatementReport.SharesType` keeps both alternatives apart: where
the word is not cut, the types are equal; where it is, each report gives the type of its own text.

## The whole report

All else that reports tell of the failed statement is equal, and the statements in front of it are
not reported when the failure is raised (`reports_agree`).
-/

namespace SqlBatch

/-! ### Texts that start alike -/

/-- White space at the end is no part of the word at the start. -/
theorem takeWhile_trimEnd (cs : List Char) :
    (trimEnd cs).takeWhile isWordChar = cs.takeWhile isWordChar := by
  induction cs with
  | nil => rfl
  | cons c cs ih =>
    rw [trimEnd_cons]
    split
    · rename_i hcs
      rw [hcs] at ih
      by_cases hblank : isBlank c
      · rw [if_pos hblank, List.takeWhile_cons, isWordChar_eq_false_of_isBlank hblank]
        rfl
      · rw [if_neg hblank, List.takeWhile_cons, List.takeWhile_cons, ih]
    · rw [List.takeWhile_cons, List.takeWhile_cons, ih]

/-- White space around a text that starts with none does not change its first word. -/
theorem takeWhile_trim {c : Char} (h : isBlank c = false) (cs : List Char) :
    (trim (c :: cs)).takeWhile isWordChar = (c :: cs).takeWhile isWordChar := by
  have hneg : ¬ isBlank c = true := by rw [h]; exact Bool.false_ne_true
  rw [trim, List.dropWhile_cons_of_neg hneg, takeWhile_trimEnd]

/-- The word at the start of a text is that of any longer text, unless the text ends inside it. -/
theorem takeWhile_append_eq_or (cs ds : List Char) :
    (cs ++ ds).takeWhile isWordChar = cs.takeWhile isWordChar ∨
      (∀ c ∈ cs, isWordChar c) ∧ ∃ d ds', ds = d :: ds' ∧ isWordChar d := by
  rw [List.takeWhile_append]
  by_cases hall : (cs.takeWhile isWordChar).length = cs.length
  · rw [if_pos hall]
    have hcs : cs.takeWhile isWordChar = cs := (List.takeWhile_prefix _).eq_of_length hall
    rcases ds with _ | ⟨d, ds⟩
    · exact .inl (by rw [List.takeWhile_nil, List.append_nil, hcs])
    · by_cases hd : isWordChar d
      · refine .inr ⟨fun c hc ↦ ?_, d, ds, rfl, hd⟩
        rw [← hcs] at hc
        exact List.all_eq_true.1 List.all_takeWhile c hc
      · exact .inl (by rw [List.takeWhile_cons_of_neg hd, List.append_nil, hcs])
  · exact .inl (if_neg hall)

/-- How the text that stands for a failed statement where its error is raised, `short`, and the one
where errors are collected, `long`, begin. Both begin with the same character. -/
inductive SharesWord (c : Char) (short long : List Char) : Prop
  /-- They begin with the same word. -/
  | same : (c :: short).takeWhile isWordChar = (c :: long).takeWhile isWordChar →
    SharesWord c short long
  /-- They begin with a digit, and the shorter text ends inside the word of the longer one. -/
  | cut {w : Char} {rest : List Char} : isNumeric c → isWordStart c = false →
    (∀ d ∈ c :: short, isWordChar d) → isWordChar w → long = short ++ w :: rest →
    SharesWord c short long

/-! ### The texts of a failed statement -/

/-- Reading stops at one of the tokens of a piece, or at the one that closes it. -/
theorem Piece.stopped_cases {p : Piece} (h : p.IsBounded) :
    p.stopped ∈ p.tokens ∨ p.stopped = p.closing ∧ p.closing.endsStatement := by
  rcases h with ⟨hstop, hends⟩ | ⟨hstop, -⟩
  · exact .inr ⟨stopped_of_stop_eq hstop, hends⟩
  · refine .inl (List.mem_of_mem_drop (?_ : p.stopped ∈ p.tokens.drop p.stop))
    rw [drop_stop_eq_cons hstop]
    exact .head _

/-- A token at which a statement ends, other than the end of the batch, continues no word. -/
theorem isWordChar_eq_false_of_semicolon {c : Char} {cs : List Char}
    (h : (scan c cs).kind = .symbol .semicolon) : isWordChar c = false := by
  have hmakes := makes_scan c cs
  rw [h] at hmakes
  rcases hmakes with ⟨hsymbol⟩
  rw [Bool.eq_false_iff]
  intro hword
  rw [Scan.symbol?_eq_none hword] at hsymbol
  cases hsymbol

/-- **A text that ends behind its first token, or further on, ends inside a word only if it starts
with a digit.** -/
theorem sharesWord_of_scan {c : Char} {cs short more rest : List Char}
    (hcs : cs = short ++ (more ++ rest))
    (hle : byteLength (cs.take (scan c cs).extra) ≤ byteLength short) :
    SharesWord c short (short ++ more) := by
  rcases takeWhile_append_eq_or (c :: short) more with heq | ⟨hword, w, more, rfl, hw⟩
  · exact .same heq.symm
  have hstart : isWordStart c = false := by
    rw [Bool.eq_false_iff]
    intro hstart
    -- The first token is part of the text, so the character behind it is in the same word.
    have hsplit := (List.take_append_drop (scan c cs).extra cs).trans hcs
    obtain ⟨mid, rfl, hdrop⟩ := exists_between hsplit hle
    obtain ⟨hc, hshort⟩ := List.forall_mem_cons.1 hword
    obtain ⟨htake, hmid⟩ := List.forall_mem_append.1 hshort
    have hnext := Scan.head?_drop_of_isWordStart hstart htake
    rw [hdrop] at hnext
    rcases mid with _ | ⟨d, mid⟩
    · exact absurd hw (by simp [hnext w rfl])
    · exact absurd (hmid d (.head _)) (by simp [hnext d rfl])
  have hnumeric : isNumeric c := by
    have hc := hword c (.head _)
    simp only [isWordStart, Bool.or_eq_false_iff] at hstart
    simpa [isWordChar, hstart.1, hstart.2] using hc
  exact .cut hnumeric hstart hword hw rfl

section

variable {source : String} {first t : Token} {c : Char} {cs : List Char}

/-- The text of an error at a token behind the start of the statement. -/
theorem exists_short (cause : SyntaxError.Cause) (hfirst : first.StandsAt source c cs)
    (ht : t ∈ tokenize source) (hopen : t.isEof = false) (hle : first.span.stop ≤ t.span.stop) :
    ∃ short behind,
      (LocatedError.ofSyntaxError (.atToken cause t) first.span.start (.ofSource source)).query =
        String.ofList (c :: short) ∧ cs = short ++ behind ∧
      t.span.stop = first.span.start + byteLength (c :: short) ∧
      byteLength (cs.take (scan c cs).extra) ≤ byteLength short := by
  obtain ⟨front, text, behind, hstands⟩ := exists_stands ht
  have hcut := hstands.source_eq.trans (List.append_assoc _ _ _).symm
  have hstop : t.span.stop = byteLength (front ++ text) := by
    rw [byteLength_append, hstands.stop_eq]
  obtain ⟨short, hcs, hlength, hscan⟩ := hfirst.exists_text hcut (hstop ▸ hle)
  rw [← hstop] at hlength
  refine ⟨short, behind, ?_, hcs, hlength, hscan⟩
  rw [query_ofSyntaxError ht, consumed, hopen, hlength, hfirst.chars_eq ⟨_, hcs.symm⟩]
  rfl

/-- What stands for a statement that fails at a token where its error is raised, if `long` does
where errors are collected. -/
def HasShort (source : String) (first t : Token) (cause : SyntaxError.Cause) (c : Char)
    (cs long : List Char) : Prop :=
  ∃ short, (LocatedError.ofSyntaxError (.atToken cause t) first.span.start (.ofSource source)).query
      = String.ofList (c :: short) ∧ short <+: cs ∧ SharesWord c short long

/-- The statement fails at one of its tokens. -/
theorem hasShort_of_token (cause : SyntaxError.Cause) (hfirst : first.StandsAt source c cs)
    (ht : t ∈ tokenize source) (hopen : t.isEof = false) (hle : first.span.stop ≤ t.span.stop)
    {long behind : List Char} (hcs : cs = long ++ behind)
    (hlong : t.span.stop ≤ first.span.start + byteLength (c :: long)) :
    HasShort source first t cause c cs long := by
  obtain ⟨short, behind', hquery, hcs', hstop, hscan⟩ := exists_short cause hfirst ht hopen hle
  have hshorter : byteLength short ≤ byteLength long := by
    simp only [byteLength_cons] at hstop hlong
    omega
  obtain ⟨more, rfl, -⟩ := exists_between (hcs'.symm.trans hcs) hshorter
  rw [List.append_assoc] at hcs
  exact ⟨short, hquery, ⟨_, hcs.symm⟩, sharesWord_of_scan hcs hscan⟩

/-- The statement fails at the semicolon behind it, which continues no word. -/
theorem hasShort_of_semicolon (cause : SyntaxError.Cause) (hfirst : first.StandsAt source c cs)
    (ht : t ∈ tokenize source) (hkind : t.kind = .symbol .semicolon)
    (hle : first.span.stop ≤ t.span.start) {long behind : List Char} (hcs : cs = long ++ behind)
    (hlong : t.span.start = first.span.start + byteLength (c :: long)) :
    HasShort source first t cause c cs long := by
  have hopen : t.isEof = false := by simp [Token.isEof, hkind]
  have hlt := (inOrder_tokenize source).start_lt_stop _ ht hopen
  obtain ⟨short, behind', hquery, hcs', hstop, -⟩ :=
    exists_short cause hfirst ht hopen (Nat.le_trans hle (Nat.le_of_lt hlt))
  refine ⟨short, hquery, ⟨_, hcs'.symm⟩, .same ?_⟩
  obtain ⟨more, rfl, hmore⟩ : ∃ more, short = long ++ more ∧ behind = more ++ behind' := by
    refine exists_between (hcs.symm.trans hcs') ?_
    simp only [byteLength_cons] at hstop hlong
    omega
  obtain ⟨d, ds, hd⟩ := exists_standsAt ht hopen
  have hbehind : behind = d :: ds := by
    obtain ⟨front, hsource, hfront⟩ := hfirst.source_eq
    obtain ⟨front', hsource', hfront'⟩ := hd.source_eq
    rw [hcs, ← List.cons_append, ← List.append_assoc] at hsource
    refine (append_inj_of_byteLength (hsource.symm.trans hsource') ?_).2
    rw [byteLength_append, hfront, hfront', hlong]
  rcases takeWhile_append_eq_or (c :: long) more with heq | ⟨-, w, more, rfl, hw⟩
  · exact heq
  · obtain ⟨rfl, -⟩ := List.cons.inj (hbehind.symm.trans hmore)
    rw [isWordChar_eq_false_of_semicolon (hd.kind.symm.trans hkind)] at hw
    cases hw

/-- The statement fails at the end of the batch, and blanks in front of it are left out. -/
theorem hasShort_of_eof (cause : SyntaxError.Cause) (hfirst : first.StandsAt source c cs)
    (ht : t ∈ tokenize source) (hkind : t.kind = .eof) {long behind : List Char}
    (hcs : cs = long ++ behind) (hlong : t.span.start = first.span.start + byteLength (c :: long)) :
    HasShort source first t cause c cs long := by
  have heof : t = .eofAt (byteLength source.toList) :=
    eq_eofAt_of_mem_tokenize ht (by simp [Token.isEof, hkind])
  have hchars := hfirst.chars_eq ⟨_, hcs.symm⟩
  refine ⟨trimEnd long, ?_, (isPrefix_trimEnd _).trans ⟨_, hcs.symm⟩, .same ?_⟩
  · rw [← hlong, heof] at hchars
    rw [heof] at ht
    rw [heof, query_ofSyntaxError ht, ← trimEnd_cons_of_not_blank hfirst.isBlank, ← hchars]
    rfl
  · rw [List.takeWhile_cons, List.takeWhile_cons, takeWhile_trimEnd]

end

/-- **The texts that stand for a failed statement**, from its error and from the batch, begin with
the same word, or the first one ends inside a number in front of a word. -/
theorem Splits.exists_texts {source : String} {ps : List Piece} (h : Splits (tokenize source) ps)
    {p : Piece} (hp : p ∈ ps) (cause : SyntaxError.Cause) : ∃ c short long,
    isBlank c = false ∧
      (Span.mk p.first.span.start p.closing.span.start).chars source = c :: long ∧
      (LocatedError.ofSyntaxError (.atToken cause p.stopped) p.first.span.start
        (.ofSource source)).query = String.ofList (c :: short) ∧
      (Span.mk p.first.span.start (p.first.span.start + byteLength (c :: short))).chars source =
        c :: short ∧
      SharesWord c short long := by
  obtain ⟨before, behind, htokens, hread, hends⟩ := h.isRead_of_mem hp
  have hmem {t : Token} (ht : t ∈ p.tokens) : t ∈ tokenize source := by
    rw [htokens]
    exact List.mem_append_right _ (List.mem_append_left _ ht)
  have hclosing := h.closing_mem hp
  have hopen {t : Token} (ht : t ∈ p.tokens) : t.isEof = false :=
    Token.isEof_eq_false (hread.endsStatement_eq_false hends t ht)
  have horder : InOrder (p.tokens ++ p.closing :: behind) :=
    InOrder.of_append (htokens ▸ inOrder_tokenize source)
  have hle {t : Token} (ht : t ∈ p.tokens) : t.span.stop ≤ p.closing.span.start :=
    horder.stop_le_start t ht _ (.head _)
  obtain ⟨c, cs, hfirst⟩ := exists_standsAt (hmem (.head _)) (hopen (.head _))
  -- The text of the batch ends in front of the closing token.
  obtain ⟨front, text, rest, hlies⟩ := exists_stands hclosing
  obtain ⟨long, hcs, hlength, -⟩ :=
    hfirst.exists_text hlies.source_eq (hlies.start_eq ▸ hle (.head _))
  rw [← hlies.start_eq] at hlength
  have hshort : HasShort source p.first p.stopped cause c cs long := by
    rcases Piece.stopped_cases hread.bounded with hstopped | ⟨hstopped, hends⟩
    · exact hasShort_of_token cause hfirst (hmem hstopped) (hopen hstopped)
        (horder.left.stop_le _ hstopped) hcs (hlength ▸ hle hstopped)
    · rw [hstopped]
      rcases Token.endsStatement_iff.1 hends with hsemicolon | heof
      · exact hasShort_of_semicolon cause hfirst hclosing hsemicolon (hle (.head _)) hcs hlength
      · exact hasShort_of_eof cause hfirst hclosing heof hcs hlength
  obtain ⟨short, hquery, hshorter, hshares⟩ := hshort
  exact ⟨c, short, long, hfirst.isBlank, hlength ▸ hfirst.chars_eq ⟨_, hcs.symm⟩, hquery,
    hfirst.chars_eq hshorter, hshares⟩

/-! ### What a report tells of a failed statement -/

namespace Statement

variable {s t : Statement} {c : Char} {cs ds : List Char}

/-- The word at the start of a statement, from the text of its span. -/
theorem takeWhile_query (h : s.span.chars s.batch = c :: cs) (hc : isBlank c = false) :
    s.query.toList.takeWhile isWordChar = (c :: cs).takeWhile isWordChar := by
  rw [query, String.toList_ofList, h, takeWhile_trim hc]

/-- The type of a statement that starts with a word character. -/
theorem type?_eq_some {word : List Char} (h : s.query.toList.takeWhile isWordChar = word)
    (hne : word ≠ []) : s.type? = some (upperCase (String.ofList word)) := by
  have hempty : word.isEmpty = false := by simpa using hne
  simp only [type?, h, hempty, Bool.false_eq_true, if_false]

theorem type?_congr (h : s.query.toList.takeWhile isWordChar =
    t.query.toList.takeWhile isWordChar) : s.type? = t.type? := by
  rw [type?, type?, h]

end Statement

@[simp] theorem StatementReport.type?_ofStatement (s : Statement) :
    (ofStatement s).type? = s.type? := rfl

/-- A failed statement that is cut inside a number: it starts with a digit, and the run of word
characters at its start goes on directly behind the offending token. Up to there the run is
`c :: run`. -/
structure StatementReport.IsCut (collected : StatementReport) (c : Char) (run more : List Char) :
    Prop where
  isNumeric : isNumeric c
  isWordStart : isWordStart c = false
  more_ne_nil : more ≠ []
  query : collected.query.toList.takeWhile isWordChar = c :: run ++ more
  /-- The text that is read for the error ends behind the offending token. -/
  error : collected.error?.map (·.query) = some (String.ofList (c :: run))

/-- What the report of a raised failure, `raised`, tells of the type of a statement that failed: it
is the same, unless the statement is cut inside a number, and only the part of the number's run up
to the cut if it is. -/
structure StatementReport.SharesType (collected raised : StatementReport) : Prop where
  same : (∀ c run more, ¬ collected.IsCut c run more) → raised.type? = collected.type?
  cut : ∀ c run more, collected.IsCut c run more →
    collected.type? = some (upperCase (String.ofList (c :: run ++ more))) ∧
      raised.type? = some (upperCase (String.ofList (c :: run)))

theorem SharesWord.sharesType {s r : Statement} {c : Char} {short long : List Char}
    (h : SharesWord c short long) (hc : isBlank c = false)
    (hs : s.span.chars s.batch = c :: long) (hr : r.span.chars r.batch = c :: short)
    (herror : s.error?.map (·.query) = some (String.ofList (c :: short))) :
    (StatementReport.ofStatement s).SharesType (.ofStatement r) where
  same hnot := by
    have hlong := Statement.takeWhile_query hs hc
    have hshort := Statement.takeWhile_query hr hc
    rcases h with hsame | ⟨hnumeric, hstart, hword, hw, rfl⟩
    · rw [StatementReport.type?_ofStatement, StatementReport.type?_ofStatement]
      exact Statement.type?_congr (hshort.trans (hsame.trans hlong.symm))
    · rename_i w rest
      rw [← List.cons_append, List.takeWhile_append_of_pos hword, List.takeWhile_cons_of_pos hw]
        at hlong
      refine absurd ⟨hnumeric, hstart, List.cons_ne_nil _ _, hlong, ?_⟩ (hnot _ _ _)
      rw [← herror, StatementReport.ofStatement, Option.map_map]
      rfl
  cut c' run more hcut := by
    have hword : ∀ d ∈ c' :: run, isWordChar d := fun d hd ↦
      List.all_eq_true.1 List.all_takeWhile d (hcut.query ▸ List.mem_append_left more hd)
    -- The text up to the offending token is the one that is read for the error.
    have hrun : c' :: run = c :: short := by
      have htext : (StatementReport.ofStatement s).error?.map (·.query) =
          some (String.ofList (c :: short)) := by
        rw [← herror, StatementReport.ofStatement, Option.map_map]
        rfl
      exact String.ofList_injective (Option.some.inj (hcut.error.symm.trans htext))
    have hshort := Statement.takeWhile_query hr hc
    rw [← hrun, List.takeWhile_eq_self_iff.2 hword] at hshort
    rw [StatementReport.type?_ofStatement, StatementReport.type?_ofStatement]
    exact ⟨Statement.type?_eq_some hcut.query (List.cons_ne_nil _ _),
      Statement.type?_eq_some hshort (List.cons_ne_nil _ _)⟩

theorem Splits.sharesType {source : String} {ps : List Piece} (h : Splits (tokenize source) ps)
    {p : Piece} (hp : p ∈ ps) {e : LocatedError}
    (he : (p.statement (.ofSource source)).error? = some e) :
    (StatementReport.ofStatement (p.statement (.ofSource source))).SharesType
      (.ofStatement (Report.raisedStatement e)) := by
  obtain ⟨cause, hcause, rfl⟩ := Piece.error?_statement_eq_some.1 he
  obtain ⟨c, short, long, hblank, hlong, hquery, hshort, hshares⟩ := h.exists_texts hp cause
  refine hshares.sharesType hblank hlong ?_ ?_
  · rw [← hshort, Report.raisedStatement, hquery, String.toList_ofList]
    rfl
  · rw [he, Option.map_some, hquery]

/-! ### Both reports -/

/-- What the reports of a batch have in common that collects its errors, `collected`, and that
raises the first one, `raised`. -/
structure Report.Agrees (collected raised : Report) : Prop where
  isOk : raised.isOk = collected.isOk
  eq_of_isOk : collected.isOk → raised = collected
  failed : collected.isOk = false → ∃ before s behind r,
    collected.statements = before ++ s :: behind ∧ (∀ t ∈ before, t.error? = none) ∧
      s.error?.isSome ∧ raised.statements = [r] ∧ r.error? = s.error? ∧
      r.span.start = s.span.start ∧ s.SharesType r

/-- A report is good if no statement has failed. -/
theorem Report.isOk_iff {report : Report} :
    report.isOk ↔ ∀ s ∈ report.statements, s.error? = none := by
  rw [isOk, failed, beq_iff_eq, List.countP_eq_zero]
  simp

theorem Report.isOk_eq_false {report : Report} {s : StatementReport} (hs : s ∈ report.statements)
    (h : s.error?.isSome) : report.isOk = false := by
  rw [Bool.eq_false_iff, ne_eq, isOk_iff]
  intro hnone
  rw [hnone s hs] at h
  cases h

theorem Report.Agrees.of_failed {path : String} {before behind : List StatementReport}
    {s r : StatementReport} (hbefore : ∀ t ∈ before, t.error? = none) (hsome : s.error?.isSome)
    (herror : r.error? = s.error?) (hstart : r.span.start = s.span.start) (htype : s.SharesType r) :
    Agrees ⟨path, before ++ s :: behind⟩ ⟨path, [r]⟩ := by
  have hs : (Report.mk path (before ++ s :: behind)).isOk = false :=
    isOk_eq_false (List.mem_append_right _ (.head _)) hsome
  have hr : (Report.mk path [r]).isOk = false := isOk_eq_false (.head _) (herror ▸ hsome)
  refine ⟨hr.trans hs.symm, fun hok ↦ ?_, fun _ ↦ ?_⟩
  · rw [hs] at hok
    cases hok
  · exact ⟨before, s, behind, r, rfl, hbefore, hsome, rfl, herror, hstart, htype⟩

theorem StatementReport.error?_eq_none {s : Statement} (h : s.isOk) :
    (ofStatement s).error? = none := by
  obtain ⟨batch, span, outcome⟩ := s
  rcases outcome with error | tree
  · cases h
  · rfl

/-- **Raising the first failure reports the same** as collecting all, up to that failure: its error,
the start of its statement, and its type, unless that is cut inside a number. -/
theorem reports_agree (path source : String) : ∃ collected raised,
    Report.ofParse path (parseBatch source false) = .ok collected ∧
      Report.ofParse path (parseBatch source true) = .ok raised ∧ collected.Agrees raised := by
  obtain ⟨ps, hps⟩ := exists_splits_tokenize source
  have hcollected := parseBatch_of_splits hps
  have hraises : Raises (parseBatch source false) (parseBatch source true) :=
    Configuration.raises_parse .crateDb source
  rw [hcollected] at hraises ⊢
  generalize hss : ps.map (·.statement (.ofSource source)) = ss at hraises ⊢
  generalize parseBatch source true = answer at hraises ⊢
  -- Either nothing has failed, or the two reports share the first failure.
  rcases hraises with hok | @⟨before, behind, s, e, hbefore, he⟩
  · have hnone : ∀ r ∈ ss.map StatementReport.ofStatement, r.error? = none :=
      List.forall_mem_map.2 fun s hs ↦ StatementReport.error?_eq_none (hok s hs)
    refine ⟨_, _, rfl, rfl, rfl, fun _ ↦ rfl, fun hfailed ↦ ?_⟩
    rw [Report.isOk_iff.2 hnone] at hfailed
    cases hfailed
  · have hs : s ∈ ps.map (·.statement (.ofSource source)) := by
      rw [hss]
      exact List.mem_append_right _ (.head _)
    obtain ⟨p, hp, rfl⟩ := List.mem_map.1 hs
    have herror : (StatementReport.ofStatement (p.statement (.ofSource source))).error? =
        some (.ofError e) := by
      rw [StatementReport.ofStatement, he, Option.map_some]
    have hstart : e.statementStart = p.first.span.start := by
      obtain ⟨cause, -, rfl⟩ := Piece.error?_statement_eq_some.1 he
      rfl
    refine ⟨_, _, rfl, rfl, ?_⟩
    rw [List.map_append, List.map_cons]
    refine .of_failed ?_ ?_ herror.symm hstart (hps.sharesType hp he)
    · exact List.forall_mem_map.2 fun s hs ↦ StatementReport.error?_eq_none (hbefore s hs)
    · rw [herror]
      rfl

/-- The type of a statement that fails at a number in front of a word. -/
theorem type?_number_word :
    (Report.ofParse "x.sql" (parseBatch "1abc" false)).toOption.map
        (·.statements.map fun s ↦ (s.type?, s.error?.isSome)) = some [(some "1ABC", true)] ∧
      (Report.ofParse "x.sql" (parseBatch "1abc" true)).toOption.map
        (·.statements.map fun s ↦ (s.type?, s.error?.isSome)) = some [(some "1", true)] := by
  decide +kernel

end SqlBatch
