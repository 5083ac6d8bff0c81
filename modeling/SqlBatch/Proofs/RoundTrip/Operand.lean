import SqlBatch.Proofs.Reading.Expression
import SqlBatch.Proofs.Reading.Lists
import SqlBatch.Proofs.Rendering
import SqlBatch.Tree.Relabel

/-!
# Reading operands that are written

There are two ways in which a written expression may stand somewhere: as an operand, behind which
anything may go on (`Expr.IsTerm`), or as a whole, behind which nothing may (`Expr.IsWhole`).
Literals, columns, parameters, arrays, calls and case expressions are operands if the expressions
inside them are whole ones, and parentheses make an operand of a whole one.

## What surrounds an expression

Three conditions on the next token are enough for all of it. Behind a name, nothing stands that
would make a call or a longer name of it (`Cursor.EndsName`). Behind a whole expression, a token
stands that goes on behind none (`Cursor.Closes`). And in front of an expression, its own first
token is none by which a rule would take it for something else (`Cursor.Leads`). Each is a decidable
property of the kind of a token.
-/

namespace SqlBatch

/-! ### In front of an expression and behind it -/

/-- Whether a token of the kind may be the first one of an expression, and is not taken for anything
else where one is read. -/
def Token.Kind.leads : Token.Kind → Bool
  | .keyword .SELECT | .keyword .DISTINCT | .keyword .ALL | .keyword .WHEN => false
  | .symbol .rightParen | .symbol .rightBracket | .symbol .star => false
  | _ => true

/-- Whether a token of the kind goes on behind a name: as the bracket of arguments, or as the point
in front of another name. -/
def Token.Kind.extendsName : Token.Kind → Bool
  | .symbol .leftParen | .symbol .dot => true
  | _ => false

/-- Whether every expression ends in front of a token of the kind. -/
def Token.Kind.closes : Token.Kind → Bool
  | .symbol .comma | .symbol .rightParen | .symbol .rightBracket | .symbol .semicolon => true
  | .keyword .WHEN | .keyword .THEN | .keyword .ELSE | .keyword .END => true
  | .eof => true
  | _ => false

namespace Cursor

variable {c d : Cursor} {kind : Token.Kind}

/-- A name that ends there is all of a column. -/
def EndsName (c : Cursor) : Prop :=
  c.current.kind.extendsName = false

/-- A name ends in front of a token of a kind that extends none. -/
theorem EndsName.of_kind (hkind : c.current.kind = kind) (h : kind.extendsName = false) :
    c.EndsName := by
  rw [EndsName, hkind, h]

theorem EndsName.isSymbol_eq_false (h : c.EndsName) {symbol : Symbol}
    (hsymbol : Token.Kind.extendsName (.symbol symbol)) : c.current.isSymbol symbol = false := by
  refine beq_eq_false_iff_ne.2 fun hkind ↦ ?_
  rw [EndsName, hkind, hsymbol] at h
  cases h

/-- Every expression ends there. -/
def Closes (c : Cursor) : Prop :=
  c.current.kind.closes

/-- An expression ends in front of a token of a kind that closes it. -/
theorem Closes.of_kind (hkind : c.current.kind = kind) (h : kind.closes) : c.Closes := by
  rw [Closes, hkind, h]

/-- An expression ends with its statement. -/
theorem Closes.of_endsStatement (h : c.current.endsStatement) : c.Closes := by
  rcases Token.endsStatement_iff.1 h with hkind | hkind <;> exact .of_kind hkind rfl

theorem Closes.ne (h : c.Closes) (hkind : kind.closes = false) : c.current.kind ≠ kind := by
  rintro rfl
  rw [Closes, hkind] at h
  cases h

/-- What closes an expression extends no name. -/
theorem Closes.endsName (h : c.Closes) : c.EndsName := by
  rw [Closes] at h
  rw [EndsName]
  generalize c.current.kind = kind at h ⊢
  unfold Token.Kind.closes at h
  split at h <;> first | rfl | cases h

/-- What closes an expression goes on behind none. -/
theorem Closes.stops (h : c.Closes) (power : Nat) : c.Stops power := by
  refine stops_of_ofKind?_eq_none rfl ?_ (h.ne rfl) (h.ne rfl) (h.ne rfl) power
  rw [Closes] at h
  generalize c.current.kind = kind at h
  unfold Token.Kind.closes at h
  split at h <;> first | rfl | cases h

/-- The first token ahead is one that an expression may start with. -/
def Leads (c : Cursor) : Prop :=
  c.current.kind.leads

/-- What leads an expression is of no kind that leads none. -/
theorem Leads.ne (h : c.Leads) (hkind : kind.leads = false) : c.current.kind ≠ kind := by
  rintro rfl
  rw [Leads, hkind] at h
  cases h

theorem Leads.isKeyword_eq_false (h : c.Leads) {keyword : Keyword}
    (hkeyword : Token.Kind.leads (.keyword keyword) = false) :
    c.current.isKeyword keyword = false :=
  beq_eq_false_iff_ne.2 (h.ne hkeyword)

theorem Leads.isSymbol_eq_false (h : c.Leads) {symbol : Symbol}
    (hsymbol : Token.Kind.leads (.symbol symbol) = false) : c.current.isSymbol symbol = false :=
  beq_eq_false_iff_ne.2 (h.ne hsymbol)

end Cursor

namespace Expr

/-! ### Where columns are written -/

/-- The expressions are the same but for where their columns are written. -/
def AgreesWith (e t : Expr) : Prop :=
  e.relabel .forgetPlaces = t.relabel .forgetPlaces

/-! ### Operands and whole expressions -/

/-- The expression is read by a rule from its tokens, in front of what ends it. -/
structure IsReadBy (rule : Nested → Rule Expr) (ends : Cursor → Prop) (style : Style) (t : Expr) :
    Prop where
  leads : ∃ kind ∈ (t.kinds style).head?, kind.leads
  run {n : Nat} {c d : Cursor} : t.extent .nesting ≤ n + 1 → c.Passes (t.kinds style) d →
    ends d → ∃ e, (rule (.ofAllowance n)).run c = .done e d ∧ e.AgreesWith t

/-- The expression is an operand: it is read whatever goes on behind it. -/
abbrev IsTerm (style : Style) (t : Expr) : Prop :=
  t.IsReadBy Rule.firstOperand Cursor.EndsName style

/-- The expression is read where nothing goes on behind it. -/
abbrev IsWhole (style : Style) (t : Expr) : Prop :=
  t.IsReadBy (Rule.expressionFrom · 0) Cursor.Closes style

namespace IsReadBy

variable {style : Style} {rule : Nested → Rule Expr} {ends : Cursor → Prop} {t : Expr} {n : Nat}
  {c d : Cursor}

/-- A written expression starts with a token that leads one. -/
theorem cursor_leads (h : t.IsReadBy rule ends style) (hpasses : c.Passes (t.kinds style) d) :
    c.Leads := by
  obtain ⟨kind, hkind, hleads⟩ := h.leads
  obtain ⟨kinds, hkinds⟩ := List.head?_eq_some_iff.1 hkind
  rw [hkinds] at hpasses
  rw [Cursor.Leads, hpasses.1, hleads]

theorem leads_append (h : t.IsReadBy rule ends style) (kinds : List Token.Kind) :
    ∃ kind ∈ (t.kinds style ++ kinds).head?, kind.leads := by
  obtain ⟨kind, hkind, hleads⟩ := h.leads
  obtain ⟨kinds', hkinds⟩ := List.head?_eq_some_iff.1 hkind
  exact ⟨kind, by rw [hkinds]; rfl, hleads⟩

/-- Reading an expression moves forward. -/
theorem position_lt (h : t.IsReadBy rule ends style) (hpasses : c.Passes (t.kinds style) d) :
    c.position < d.position := by
  obtain ⟨kind, hkind, -⟩ := h.leads
  obtain ⟨kinds, hkinds⟩ := List.head?_eq_some_iff.1 hkind
  rw [hpasses.position_eq, hkinds, List.length_cons]
  omega

end IsReadBy

variable {style : Style} {t : Expr} {n : Nat} {c d : Cursor}

/-- An operand is an expression of any power, in front of what does not go on with that power. -/
theorem IsTerm.run_from (h : t.IsTerm style) {power : Nat}
    (hle : t.extent .nesting ≤ n) (hpasses : c.Passes (t.kinds style) d) (hname : d.EndsName)
    (hstops : d.Stops power) :
    ∃ e, ((Nested.ofAllowance n).expressionFrom power).run c = .done e d ∧ e.AgreesWith t := by
  rcases n with _ | n
  · exact absurd t.extent_pos (Nat.not_lt.2 hle)
  · obtain ⟨e, hrun, hagrees⟩ := h.run hle hpasses hname
    exact ⟨e, Rule.run_expressionFrom_of_stops hrun hstops, hagrees⟩

/-- An operand is an expression by itself. -/
theorem IsTerm.isWhole (h : t.IsTerm style) : t.IsWhole style where
  leads := h.leads
  run hle hpasses hcloses := by
    obtain ⟨e, hrun, hagrees⟩ := h.run hle hpasses hcloses.endsName
    exact ⟨e, Rule.run_expressionFrom_of_stops hrun (hcloses.stops 0), hagrees⟩

/-- A whole expression is read inside another one, with one level less. -/
theorem IsWhole.run_inside (h : t.IsWhole style) (hle : t.extent .nesting ≤ n)
    (hpasses : c.Passes (t.kinds style) d) (hcloses : d.Closes) :
    ∃ e, (Nested.ofAllowance n).expression.run c = .done e d ∧ e.AgreesWith t := by
  rcases n with _ | n
  · exact absurd t.extent_pos (Nat.not_lt.2 hle)
  · exact h.run hle hpasses hcloses

/-! ### Operands -/

/-- What one token is by itself is an operand. -/
theorem isTerm_of_operand? {kind : Token.Kind} (hkinds : t.kinds style = [kind])
    (hleads : kind.leads) (h : ∀ token : Token, token.kind = kind →
      ∀ passed, ∃ e, token.operand? passed = some e ∧ e.AgreesWith t) : t.IsTerm style where
  leads := ⟨kind, by rw [hkinds]; rfl, hleads⟩
  run := by
    rintro n c d - hpasses hname
    rw [hkinds] at hpasses
    obtain ⟨hkind, -, rfl⟩ := hpasses
    obtain ⟨e, he, hagrees⟩ := h c.current hkind c.placeholders
    exact ⟨e, Rule.run_firstOperand_of_operand? he (hname.isSymbol_eq_false rfl)
      (hname.isSymbol_eq_false rfl), hagrees⟩

/-- Literals are operands. -/
theorem isTerm_literal (value : Literal) : (literal value).IsTerm style := by
  refine isTerm_of_operand? rfl ?_ fun token hkind passed ↦ ⟨.literal value, ?_, rfl⟩
  · rcases value with _ | _ | _ | _ | _ | _ | _ <;> first | rfl | (rename_i b; cases b <;> rfl)
  · rw [Token.operand?, hkind]
    rcases value with _ | _ | _ | _ | _ | _ | _ <;> first | rfl | (rename_i b; cases b <;> rfl)

theorem isTerm_positional (number : UInt32) : (parameter (.positional number)).IsTerm style :=
  isTerm_of_operand? rfl rfl fun token hkind passed ↦
    ⟨.parameter (.positional number), by rw [Token.operand?, hkind], rfl⟩

theorem run_firstOperand_of_identifier {inner : Nested} {name : String} {c : Cursor}
    (hkind : c.current.kind = .identifier name) :
    (Rule.firstOperand inner).run c = (Rule.named inner name c.current.span).run c := by
  rw [Rule.run_firstOperand (by rw [hkind]; rfl), Rule.run_operand_of_identifier hkind]

/-- Columns are operands, with or without their table. -/
theorem isTerm_column (table : Option String) (name : String) (span : Span) :
    (column table name span).IsTerm style := by
  rcases table with _ | table
  · exact isTerm_of_operand? rfl rfl fun token hkind passed ↦
      ⟨.column none name token.span, by rw [Token.operand?, hkind], rfl⟩
  · refine ⟨⟨_, rfl, rfl⟩, ?_⟩
    rintro n c d - ⟨hkind, -, hdot, -, hkind', -, rfl⟩ -
    refine ⟨.column (some table) name
      (c.current.span.through c.advance.advance.current.span), ?_, rfl⟩
    rw [run_firstOperand_of_identifier hkind]
    exact Rule.run_named_dot (beq_iff_eq.2 hdot) hkind'

/-- Named parameters are operands. -/
theorem isTerm_named (name : String) : (parameter (.named name)).IsTerm style where
  leads := ⟨_, rfl, rfl⟩
  run := by
    rintro n c d - ⟨hkind, -, hname, -, rfl⟩ -
    refine ⟨.parameter (.named name), ?_, rfl⟩
    rw [Rule.run_firstOperand (by rw [hkind]; rfl), Rule.run_operand (by rw [hkind]; rfl)]
    show (Rule.advance >>= _).run c = _
    rw [Rule.run_bind_of_done (Rule.run_advance c),
      Rule.run_bind_of_done (Rule.run_identifier_of_kind hname)]
    rfl

/-- Parentheses make an operand of a whole expression. -/
theorem IsWhole.paren (h : t.IsWhole style) : t.paren.IsTerm style where
  leads := ⟨_, rfl, rfl⟩
  run := by
    rintro n c d hle ⟨hkind, -, hpasses⟩ -
    obtain ⟨mid, hinner, hclose, -, rfl⟩ := Cursor.passes_append.1 hpasses
    have hlevels : t.extent .nesting ≤ n := by
      have hle : 1 + t.extent .nesting ≤ n + 1 := hle
      omega
    obtain ⟨e, hrun, hagrees⟩ := h.run_inside hlevels hinner (.of_kind hclose rfl)
    refine ⟨.paren e, ?_, congrArg Expr.paren hagrees⟩
    rw [Rule.run_firstOperand (by rw [hkind]; rfl), Rule.run_operand (by rw [hkind]; rfl)]
    refine Rule.run_parenthesized (beq_iff_eq.2 hkind) ?_ (beq_iff_eq.2 hclose)
    rw [Rule.run_bind_of_done (Rule.run_seesKeyword _ _),
      (h.cursor_leads hinner).isKeyword_eq_false rfl]
    show (Rule.bind _ _).run c.advance = _
    exact Rule.run_map_of_done hrun

/-! ### Lists -/

/-- Expressions that are the same, one by one, but for where their columns are written. -/
def ListAgrees (es ts : List Expr) : Prop :=
  es.map (·.relabel .forgetPlaces) = ts.map (·.relabel .forgetPlaces)

/-- Where more expressions or the end of them follow, an expression ends. -/
theorem closes_of_others {ts : List Expr} (hpasses : c.Passes (kindsOfOthers style ts) d)
    (hcloses : d.Closes) : c.Closes := by
  rcases ts with _ | ⟨t, ts⟩
  · obtain rfl : c = d := hpasses
    exact hcloses
  · exact .of_kind hpasses.1 rfl

/-- The expressions of a list behind the first one are read with their commas. -/
theorem exists_repeats {ts : List Expr} (hts : ∀ t ∈ ts, t.IsWhole style)
    (hle : extentOfExprs .nesting ts ≤ n) (hpasses : c.Passes (kindsOfOthers style ts) d)
    (hcloses : d.Closes) (hcomma : d.current.isSymbol .comma = false) :
    ∃ es, Rule.Repeats (.another (Nested.ofAllowance n).expression) c es d ∧
      ListAgrees es ts := by
  induction ts generalizing c with
  | nil =>
    obtain rfl : c = d := hpasses
    exact ⟨[], .nil (Rule.run_another_eq_none hcomma _), rfl⟩
  | cons t ts ih =>
    obtain ⟨ht, hts⟩ := List.forall_mem_cons.1 hts
    obtain ⟨htle, htsle⟩ := Nat.max_le.1 hle
    obtain ⟨hkind, hopen, hpasses⟩ := hpasses
    obtain ⟨mid, hfirst, hothers⟩ := Cursor.passes_append.1 hpasses
    obtain ⟨e, hrun, hagrees⟩ := ht.run_inside htle hfirst (closes_of_others hothers hcloses)
    obtain ⟨es, hrepeats, hagree⟩ := ih hts htsle hothers
    have hlt : c.position < mid.position := by
      have hadvance := Cursor.position_advance_of_isOpen hopen
      have hmid := ht.position_lt hfirst
      omega
    have hmore := Rule.run_another_of_done (beq_iff_eq.2 hkind) hrun
    exact ⟨e :: es, .cons hmore hlt hrepeats, congrArg₂ List.cons hagrees hagree⟩

/-- Expressions with commas between them are read, up to a bracket that closes. -/
theorem exists_run_expressions {ts : List Expr} (hnil : ts ≠ [])
    (hts : ∀ t ∈ ts, t.IsWhole style) (hle : extentOfExprs .nesting ts ≤ n)
    (hpasses : c.Passes (kindsOfExprs style ts) d) (hcloses : d.Closes)
    (hcomma : d.current.isSymbol .comma = false) :
    ∃ es, (Nested.ofAllowance n).expressions.run c = .done es d ∧ ListAgrees es ts ∧ c.Leads := by
  obtain ⟨t, ts, rfl⟩ := List.exists_cons_of_ne_nil hnil
  obtain ⟨ht, hts⟩ := List.forall_mem_cons.1 hts
  obtain ⟨htle, htsle⟩ := Nat.max_le.1 hle
  obtain ⟨mid, hfirst, hothers⟩ := Cursor.passes_append.1 hpasses
  obtain ⟨e, hrun, hagrees⟩ := ht.run_inside htle hfirst (closes_of_others hothers hcloses)
  obtain ⟨es, hrepeats, hagree⟩ := exists_repeats hts htsle hothers hcloses hcomma
  exact ⟨e :: es, Rule.run_commaSeparated hrun hrepeats, congrArg₂ List.cons hagrees hagree,
    ht.cursor_leads hfirst⟩

/-! ### Arrays and calls -/

theorem exists_run_arrayLiteral {items : List Expr} (hitems : ∀ t ∈ items, t.IsWhole style)
    (hle : extentOfExprs .nesting items ≤ n)
    (hpasses : c.Passes (.symbol .leftBracket ::
      (kindsOfExprs style items ++ [.symbol .rightBracket])) d) :
    ∃ es, (Rule.arrayLiteral (.ofAllowance n)).run c = .done (.array es) d ∧
      ListAgrees es items := by
  obtain ⟨hbracket, -, hpasses⟩ := hpasses
  obtain ⟨mid, hlist, hclose, -, rfl⟩ := Cursor.passes_append.1 hpasses
  have hsymbol : mid.current.isSymbol .rightBracket := beq_iff_eq.2 hclose
  rcases items with _ | ⟨item, items⟩
  · obtain rfl : c.advance = mid := hlist
    refine ⟨[], ?_, rfl⟩
    rw [Rule.arrayLiteral, Rule.run_bind_of_done (Rule.run_symbol (beq_iff_eq.2 hbracket)),
      Rule.run_bind_of_done (Rule.run_sees _ _), hsymbol]
    show (Rule.symbol .rightBracket >>= _).run c.advance = _
    rw [Rule.run_bind_of_done (Rule.run_symbol hsymbol)]
    rfl
  · have hcomma : mid.current.isSymbol .comma = false := by
      rw [Token.isSymbol, hclose]
      rfl
    obtain ⟨es, hrun, hagree, hleads⟩ := exists_run_expressions (List.cons_ne_nil item items)
      hitems hle hlist (.of_kind hclose rfl) hcomma
    refine ⟨es, ?_, hagree⟩
    rw [Rule.arrayLiteral, Rule.run_bind_of_done (Rule.run_symbol (beq_iff_eq.2 hbracket)),
      Rule.run_bind_of_done (Rule.run_sees _ _), hleads.isSymbol_eq_false rfl]
    show ((Nested.ofAllowance n).expressions >>= _).run c.advance = _
    rw [Rule.run_bind_of_done hrun, Rule.run_bind_of_done (Rule.run_symbol hsymbol)]
    rfl

/-- An array of whole expressions is an operand. -/
theorem isTerm_array {items : List Expr} (hitems : ∀ t ∈ items, t.IsWhole style) :
    (array items).IsTerm style := by
  have hle {n : Nat} (hle : (array items).extent .nesting ≤ n + 1) :
      extentOfExprs .nesting items ≤ n := by
    have hle : 1 + extentOfExprs .nesting items ≤ n + 1 := hle
    omega
  have hagrees {es : List Expr} (h : ListAgrees es items) :
      (array es).AgreesWith (array items) := by
    rw [AgreesWith, relabel, relabel, relabelExprs_eq_map, relabelExprs_eq_map, h]
  constructor
  · rw [kinds, wordIf]
    split <;> exact ⟨_, rfl, rfl⟩
  · intro n c d hextent hpasses _
    rw [kinds, wordIf] at hpasses
    by_cases hword : style.arrayWord
    · rw [if_pos hword] at hpasses
      obtain ⟨hkind, hopen, hpasses⟩ := hpasses
      obtain ⟨es, hrun, hagree⟩ := exists_run_arrayLiteral hitems (hle hextent) hpasses
      refine ⟨.array es, ?_, hagrees hagree⟩
      have hfollowing : c.following.isSymbol .leftBracket := by
        rw [← Cursor.current_advance hopen, Token.isSymbol, hpasses.1]
        rfl
      rw [Rule.run_firstOperand (by rw [hkind]; rfl)]
      exact Rule.run_operand_of_array (beq_iff_eq.2 hkind) hfollowing hrun
    · rw [if_neg hword] at hpasses
      obtain ⟨es, hrun, hagree⟩ := exists_run_arrayLiteral hitems (hle hextent) hpasses
      refine ⟨.array es, ?_, hagrees hagree⟩
      rw [Rule.run_firstOperand (by rw [hpasses.1]; rfl),
        Rule.run_operand (by rw [hpasses.1]; rfl)]
      exact hrun

theorem run_acceptKeyword_wordIf {written : Bool} {word : Keyword} {mid : Cursor}
    (hpasses : c.Passes (wordIf written word) mid) (hmid : mid.current.isKeyword word = false) :
    (Rule.acceptKeyword word).run c = .done written mid := by
  cases written with
  | false =>
    obtain rfl : c = mid := hpasses
    exact Rule.run_acceptKeyword_eq_false hmid
  | true =>
    obtain ⟨hkind, -, rfl⟩ := hpasses
    exact Rule.run_acceptKeyword_eq_true (beq_iff_eq.2 hkind)

/-- Arguments are read with the word in front of them, up to the bracket that closes. -/
theorem exists_run_arguments {distinct : Bool} {arguments : List Expr}
    (harguments : ∀ t ∈ arguments, t.IsWhole style) (hle : extentOfExprs .nesting arguments ≤ n)
    (hpasses : c.Passes (.symbol .leftParen :: (wordIf distinct .DISTINCT ++
      (kindsOfExprs style arguments ++ [.symbol .rightParen]))) d) :
    ∃ es, (Rule.arguments (.ofAllowance n)).run c = .done (distinct, es) d ∧
      ListAgrees es arguments := by
  obtain ⟨hparen, -, hpasses⟩ := hpasses
  obtain ⟨start, hdistinct, hpasses⟩ := Cursor.passes_append.1 hpasses
  obtain ⟨mid, hlist, hclose, -, rfl⟩ := Cursor.passes_append.1 hpasses
  have hsymbol : mid.current.isSymbol .rightParen := beq_iff_eq.2 hclose
  rcases arguments with _ | ⟨argument, arguments⟩
  · obtain rfl : start = mid := hlist
    have hkeyword : start.current.isKeyword .DISTINCT = false := by
      rw [Token.isKeyword, hclose]
      rfl
    refine ⟨[], Rule.run_parenthesized (beq_iff_eq.2 hparen) ?_ hsymbol, rfl⟩
    rw [Rule.run_bind_of_done (run_acceptKeyword_wordIf hdistinct hkeyword),
      Rule.run_bind_of_done (Rule.run_sees _ _), hsymbol]
    rfl
  · have hcomma : mid.current.isSymbol .comma = false := by
      rw [Token.isSymbol, hclose]
      rfl
    obtain ⟨es, hrun, hagree, hleads⟩ := exists_run_expressions
      (List.cons_ne_nil argument arguments) harguments hle hlist (.of_kind hclose rfl) hcomma
    refine ⟨es, Rule.run_parenthesized (beq_iff_eq.2 hparen) ?_ hsymbol, hagree⟩
    rw [Rule.run_bind_of_done
        (run_acceptKeyword_wordIf hdistinct (hleads.isKeyword_eq_false rfl)),
      Rule.run_bind_of_done (Rule.run_sees _ _), hleads.isSymbol_eq_false rfl]
    show (Rule.accept .star >>= _).run start = _
    rw [Rule.run_bind_of_done (Rule.run_accept_eq_false (hleads.isSymbol_eq_false rfl))]
    show ((Nested.ofAllowance n).expressions >>= _).run start = _
    rw [Rule.run_bind_of_done hrun]
    rfl

/-- A call with whole expressions is an operand. -/
theorem isTerm_call (name : String) (distinct : Bool) {arguments : List Expr}
    (harguments : ∀ t ∈ arguments, t.IsWhole style) :
    (call name distinct arguments).IsTerm style where
  leads := ⟨_, rfl, rfl⟩
  run := by
    rintro n c d hle ⟨hkind, -, hpasses⟩ -
    have hlevels : extentOfExprs .nesting arguments ≤ n := by
      have hle : 1 + extentOfExprs .nesting arguments ≤ n + 1 := hle
      omega
    obtain ⟨es, hrun, hagree⟩ := exists_run_arguments harguments hlevels hpasses
    refine ⟨.call name distinct es, ?_, ?_⟩
    · rw [run_firstOperand_of_identifier hkind]
      exact Rule.run_named_call (beq_iff_eq.2 hpasses.1) hrun
    · rw [AgreesWith, relabel, relabel, relabelExprs_eq_map, relabelExprs_eq_map, hagree]

/-! ### Case expressions -/

/-- What a rule for an expression that may be missing reads of it. -/
def OptionAgrees (e? t? : Option Expr) : Prop :=
  e?.map (·.relabel .forgetPlaces) = t?.map (·.relabel .forgetPlaces)

theorem closes_of_else {t? : Option Expr}
    (hpasses : c.Passes (kindsOfElse style t? ++ [.keyword .END]) d) : c.Closes := by
  rcases t? with _ | t <;> exact .of_kind hpasses.1 rfl

/-- The arms of a case expression are read, up to its last part. -/
theorem exists_repeats_branch {branches : List Branch} {otherwise : Option Expr}
    (hconditions : ∀ branch ∈ branches, branch.condition.IsWhole style)
    (hresults : ∀ branch ∈ branches, branch.result.IsWhole style)
    (hle : extentOfBranches .nesting branches ≤ n) {mid : Cursor}
    (hpasses : c.Passes (kindsOfBranches style branches) mid)
    (hpasses' : mid.Passes (kindsOfElse style otherwise ++ [.keyword .END]) d) :
    ∃ bs, Rule.Repeats (Rule.branch (.ofAllowance n)) c bs mid ∧
      bs.map (·.relabel .forgetPlaces) = branches.map (·.relabel .forgetPlaces) ∧ c.Closes := by
  induction branches generalizing c with
  | nil =>
    obtain rfl : c = mid := hpasses
    have hcloses := closes_of_else hpasses'
    refine ⟨[], .nil (Rule.run_clause_eq_none ?_ _), rfl, hcloses⟩
    rcases otherwise with _ | t <;> rw [Token.isKeyword, hpasses'.1] <;> rfl
  | cons branch branches ih =>
    obtain ⟨condition, result⟩ := branch
    obtain ⟨hcondition, hconditions⟩ := List.forall_mem_cons.1 hconditions
    obtain ⟨hresult, hresults⟩ := List.forall_mem_cons.1 hresults
    obtain ⟨hbranchle, hle⟩ := Nat.max_le.1 hle
    obtain ⟨hconditionle, hresultle⟩ := Nat.max_le.1 hbranchle
    obtain ⟨hwhen, hopen, hpasses⟩ := hpasses
    obtain ⟨between, hfirst, hthen, hopen', hpasses⟩ := Cursor.passes_append.1 hpasses
    obtain ⟨behind, hsecond, hothers⟩ := Cursor.passes_append.1 hpasses
    obtain ⟨bs, hrepeats, hagree, hcloses⟩ := ih hconditions hresults hle hothers
    obtain ⟨a, hrun, hagrees⟩ := hcondition.run_inside hconditionle hfirst (.of_kind hthen rfl)
    obtain ⟨b, hrun', hagrees'⟩ := hresult.run_inside hresultle hsecond hcloses
    -- Each arm moves on, so that the repetition goes round again.
    have hlt : c.position < behind.position := by
      have hadvance := Cursor.position_advance_of_isOpen hopen
      have hadvance' := Cursor.position_advance_of_isOpen hopen'
      have hmid := hcondition.position_lt hfirst
      have hend := hresult.position_lt hsecond
      omega
    refine ⟨⟨a, b⟩ :: bs, .cons (Rule.run_clause_eq_some (beq_iff_eq.2 hwhen) ?_) hlt hrepeats,
      congrArg₂ List.cons (congrArg₂ Branch.mk hagrees hagrees') hagree, .of_kind hwhen rfl⟩
    rw [Rule.run_bind_of_done hrun, Rule.run_bind_of_done (Rule.run_keyword (beq_iff_eq.2 hthen)),
      Rule.run_bind_of_done hrun']
    rfl

theorem exists_run_else {otherwise : Option Expr} (hotherwise : ∀ t ∈ otherwise, t.IsWhole style)
    (hle : extentOfExpr? .nesting otherwise ≤ n)
    (hpasses : c.Passes (kindsOfElse style otherwise ++ [.keyword .END]) d) :
    ∃ e? mid, (Rule.clause .ELSE (Nested.ofAllowance n).expression).run c = .done e? mid ∧
      mid.current.isKeyword .END ∧ mid.advance = d ∧ OptionAgrees e? otherwise := by
  rcases otherwise with _ | t
  · obtain ⟨hend, -, rfl⟩ := hpasses
    refine ⟨none, c, Rule.run_clause_eq_none ?_ _, beq_iff_eq.2 hend, rfl, rfl⟩
    rw [Token.isKeyword, hend]
    rfl
  · obtain ⟨helse, -, hpasses⟩ := hpasses
    obtain ⟨mid, hresult, hend, -, rfl⟩ := Cursor.passes_append.1 hpasses
    obtain ⟨e, hrun, hagrees⟩ := (hotherwise t rfl).run_inside hle hresult (.of_kind hend rfl)
    exact ⟨some e, mid, Rule.run_clause_eq_some (beq_iff_eq.2 helse) hrun, beq_iff_eq.2 hend, rfl,
      congrArg some hagrees⟩

/-- What a case expression looks at is read, up to its first arm. -/
theorem exists_run_caseOperand {operand : Option Expr} (hoperand : ∀ t ∈ operand, t.IsWhole style)
    (hle : extentOfExpr? .nesting operand ≤ n) (hpasses : c.Passes (kindsOfExpr? style operand) d)
    (hwhen : d.current.kind = .keyword .WHEN) :
    ∃ e?, (Rule.caseOperand (.ofAllowance n)).run c = .done e? d ∧ OptionAgrees e? operand := by
  rcases operand with _ | t
  · obtain rfl : c = d := hpasses
    refine ⟨none, ?_, rfl⟩
    rw [Rule.caseOperand, Rule.run_bind_of_done (Rule.run_seesKeyword _ _), Token.isKeyword, hwhen]
    rfl
  · obtain ⟨e, hrun, hagrees⟩ := (hoperand t rfl).run_inside hle hpasses (.of_kind hwhen rfl)
    refine ⟨some e, ?_, congrArg some hagrees⟩
    rw [Rule.caseOperand, Rule.run_bind_of_done (Rule.run_seesKeyword _ _),
      ((hoperand t rfl).cursor_leads hpasses).isKeyword_eq_false rfl]
    exact Rule.run_map_of_done hrun

/-- A `CASE` of whole expressions is an operand. -/
theorem isTerm_case {operand otherwise : Option Expr} {branches : List Branch}
    (hoperand : ∀ t ∈ operand, t.IsWhole style) (hnil : branches ≠ [])
    (hconditions : ∀ branch ∈ branches, branch.condition.IsWhole style)
    (hresults : ∀ branch ∈ branches, branch.result.IsWhole style)
    (hotherwise : ∀ t ∈ otherwise, t.IsWhole style) :
    (case operand branches otherwise).IsTerm style where
  leads := ⟨_, rfl, rfl⟩
  run := by
    rintro n c d hle ⟨hcase, -, hpasses⟩ -
    obtain ⟨hoperandle, hbranchesle, hotherwisele⟩ : extentOfExpr? .nesting operand ≤ n ∧
        extentOfBranches .nesting branches ≤ n ∧ extentOfExpr? .nesting otherwise ≤ n := by
      have hle : 1 + max (extentOfExpr? .nesting operand) (max (extentOfBranches .nesting branches)
        (extentOfExpr? .nesting otherwise)) ≤ n + 1 := hle
      omega
    obtain ⟨start, hfirst, hpasses⟩ := Cursor.passes_append.1 hpasses
    obtain ⟨mid, harms, hpasses⟩ := Cursor.passes_append.1 hpasses
    have hwhen : start.current.kind = .keyword .WHEN := by
      obtain ⟨⟨condition, result⟩, branches, rfl⟩ := List.exists_cons_of_ne_nil hnil
      exact harms.1
    obtain ⟨operand', hrun, hoperand'⟩ := exists_run_caseOperand hoperand hoperandle hfirst hwhen
    obtain ⟨bs, hrepeats, hbs, -⟩ :=
      exists_repeats_branch hconditions hresults hbranchesle harms hpasses
    obtain ⟨otherwise', behind, hrun', hend, rfl, hotherwise'⟩ :=
      exists_run_else hotherwise hotherwisele hpasses
    have hbranches : bs.isEmpty = false := by
      rw [← List.isEmpty_map, hbs, List.isEmpty_map, List.isEmpty_eq_false_iff]
      exact hnil
    refine ⟨.case operand' bs otherwise', ?_, ?_⟩
    · rw [Rule.run_firstOperand (by rw [hcase]; rfl), Rule.run_operand (by rw [hcase]; rfl)]
      exact Rule.run_caseExpression (beq_iff_eq.2 hcase) hrun (Rule.run_many hrepeats) hbranches
        hrun' hend
    · rw [AgreesWith, relabel, relabel, relabelExpr?_eq_map, relabelExpr?_eq_map,
        relabelExpr?_eq_map, relabelExpr?_eq_map, relabelBranches_eq_map, relabelBranches_eq_map,
        hoperand', hbs, hotherwise']

end Expr

end SqlBatch
