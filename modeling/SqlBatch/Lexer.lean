import SqlBatch.Lexer.Scan
import SqlBatch.Lexer.Trivia

/-!
# The lexer

A lexer stands at a byte offset of a batch with the characters ahead of it. Reading a token skips
the trivia in front of it, so tokens and the trivia between them lay out the text end to end. The
lexer never fails: text that is no token becomes an error token.

It can be driven token by token (`nextToken`), as a stream that ends after the end-of-batch token
(`next`), or for all that is left (`tokenize`). The stream remembers that it has ended. Calls for
single tokens do not: behind the text they answer with the end again and again.

Each token has at least one character, and this is why reading all of them comes to an end
(`length_ahead_lt_of_read?`).
-/

namespace SqlBatch

/-- A lexer at a place in a batch. -/
structure Lexer where
  /-- The characters not read yet. -/
  ahead : List Char
  /-- The byte offset of the first of them. -/
  offset : Nat
  /-- Whether the stream has handed out the end of the batch. -/
  finished : Bool
deriving DecidableEq, Repr

namespace Lexer

/-- The lexer at the start of a batch. -/
def ofSource (source : String) : Lexer :=
  ⟨source.toList, 0, false⟩

/-- The lexer behind all of its text. -/
def atEnd (lexer : Lexer) : Lexer :=
  { lexer with ahead := [], offset := lexer.offset + byteLength lexer.ahead }

/-- Read a token and stand behind it; nothing if only trivia is left. -/
def read? (lexer : Lexer) : Option (Token × Lexer) :=
  let gap := Trivia.length lexer.ahead
  match lexer.ahead.drop gap with
  | [] => none
  | c :: cs =>
    let start := lexer.offset + byteLength (lexer.ahead.take gap)
    let found := scan c cs
    let text := c :: cs.take found.extra
    let stop := start + byteLength text
    some (⟨found.kind, String.ofList text, ⟨start, stop⟩⟩,
      { lexer with ahead := cs.drop found.extra, offset := stop })

/-- Reading a token uses up characters. -/
theorem length_ahead_lt_of_read? {lexer after : Lexer} {token : Token}
    (h : lexer.read? = some (token, after)) : after.ahead.length < lexer.ahead.length := by
  simp only [read?] at h
  split at h
  · cases h
  · rename_i c cs hdrop
    cases h
    have := congrArg List.length hdrop
    simp only [List.length_drop, List.length_cons] at this ⊢
    omega

/-- Read a token; at the end of the batch, its end, as often as asked. -/
def nextToken (lexer : Lexer) : Token × Lexer :=
  match lexer.read? with
  | some result => result
  | none => (Token.eofAt lexer.atEnd.offset, lexer.atEnd)

/-- The next element of the token stream, which ends after the end of the batch. -/
def next (lexer : Lexer) : Option Token × Lexer :=
  if lexer.finished then (none, lexer)
  else
    let (token, after) := lexer.nextToken
    (some token, { after with finished := token.isEof })

/-- The tokens ahead, with the end of the batch as the last. -/
def tokens (lexer : Lexer) : List Token :=
  match _h : lexer.read? with
  | some (token, after) => token :: after.tokens
  | none => [Token.eofAt lexer.atEnd.offset]
termination_by lexer.ahead.length
decreasing_by exact length_ahead_lt_of_read? ‹_›

/-- The rest of the token stream, and the lexer behind it. -/
def tokenize (lexer : Lexer) : List Token × Lexer :=
  if lexer.finished then ([], lexer)
  else (lexer.tokens, { lexer.atEnd with finished := true })

/-! ### Sequences of calls -/

/-- What can be asked of a lexer. -/
inductive Call where
  | next
  | nextToken
  | tokenize
deriving DecidableEq, Repr

/-- What a lexer answers. -/
inductive Answer where
  /-- The next element of the stream, if it has not ended. -/
  | streamed (token : Option Token)
  | token (token : Token)
  | rest (tokens : List Token)
deriving DecidableEq, Repr

/-- Answer one call and stand behind what was read for it. -/
def answer (lexer : Lexer) : Call → Answer × Lexer
  | .next => let (token, after) := lexer.next; (.streamed token, after)
  | .nextToken => let (token, after) := lexer.nextToken; (.token token, after)
  | .tokenize => let (tokens, after) := lexer.tokenize; (.rest tokens, after)

/-- Answer calls one after the other. -/
def answers (lexer : Lexer) : List Call → List Answer
  | [] => []
  | call :: calls =>
    let (answer, after) := lexer.answer call
    answer :: after.answers calls

end Lexer

/-- The tokens of a batch. -/
def tokenize (source : String) : List Token :=
  (Lexer.ofSource source).tokens

end SqlBatch
