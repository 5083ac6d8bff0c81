/-!
# Keywords

The words with a role in the grammar. A *reserved* keyword is never a name; the others (type names,
ordering and session vocabulary) are accepted wherever a name is expected. Case does not matter,
and only ASCII letters fold: a word with any other letter is never a keyword.
-/

namespace SqlBatch

/-- A keyword, named by its upper-case spelling: the reserved ones first. -/
inductive Keyword where
  | SELECT | FROM | WHERE | ORDER | BY | GROUP | HAVING | LIMIT | OFFSET | DISTINCT | ALL
  | WITH | JOIN | INNER | LEFT | RIGHT | FULL | OUTER | CROSS | ON | USING | UNION | INTERSECT
  | EXCEPT | AS | CASE | WHEN | THEN | ELSE | END | CAST | INSERT | INTO | VALUES | UPDATE
  | SET | DELETE | COPY | CREATE | DROP | ALTER | TABLE | DEFAULT | ANALYZE | CLOSE
  | DEALLOCATE | DECLARE | DISCARD | EXPLAIN | FETCH | KILL | OPTIMIZE | REFRESH | RESET
  | RESTORE | SHOW | GRANT | DENY | REVOKE | BEGIN | START | COMMIT | AND | OR | NOT | IN
  | BETWEEN | LIKE | IS | NULL | TRUE | FALSE | EXISTS
  | PRIMARY | KEY | GENERATED | ALWAYS | IF | SESSION | LOCAL | TO | TABLES | SCHEMAS | PREPARE
  | PLANS | SEQUENCES | TEMP | TEMPORARY | TRANSACTION | WORK | ASC | DESC | NULLS | FIRST
  | LAST | INT | INTEGER | SMALLINT | BIGINT | REAL | DOUBLE | PRECISION | FLOAT | DECIMAL
  | NUMERIC | CHAR | VARCHAR | TEXT | BOOLEAN | DATE | TIME | TIMESTAMP | OBJECT | ARRAY
  | DYNAMIC | STRICT | IGNORED
deriving DecidableEq, Repr

namespace Keyword

/-- The reserved keywords. -/
def reserved : List Keyword :=
  [.SELECT, .FROM, .WHERE, .ORDER, .BY, .GROUP, .HAVING, .LIMIT, .OFFSET, .DISTINCT, .ALL,
    .WITH, .JOIN, .INNER, .LEFT, .RIGHT, .FULL, .OUTER, .CROSS, .ON, .USING, .UNION,
    .INTERSECT, .EXCEPT, .AS, .CASE, .WHEN, .THEN, .ELSE, .END, .CAST, .INSERT, .INTO, .VALUES,
    .UPDATE, .SET, .DELETE, .COPY, .CREATE, .DROP, .ALTER, .TABLE, .DEFAULT, .ANALYZE, .CLOSE,
    .DEALLOCATE, .DECLARE, .DISCARD, .EXPLAIN, .FETCH, .KILL, .OPTIMIZE, .REFRESH, .RESET,
    .RESTORE, .SHOW, .GRANT, .DENY, .REVOKE, .BEGIN, .START, .COMMIT, .AND, .OR, .NOT, .IN,
    .BETWEEN, .LIKE, .IS, .NULL, .TRUE, .FALSE, .EXISTS]

/-- The keywords that can also be names. -/
def unreserved : List Keyword :=
  [.PRIMARY, .KEY, .GENERATED, .ALWAYS, .IF, .SESSION, .LOCAL, .TO, .TABLES, .SCHEMAS,
    .PREPARE, .PLANS, .SEQUENCES, .TEMP, .TEMPORARY, .TRANSACTION, .WORK, .ASC, .DESC, .NULLS,
    .FIRST, .LAST, .INT, .INTEGER, .SMALLINT, .BIGINT, .REAL, .DOUBLE, .PRECISION, .FLOAT,
    .DECIMAL, .NUMERIC, .CHAR, .VARCHAR, .TEXT, .BOOLEAN, .DATE, .TIME, .TIMESTAMP, .OBJECT,
    .ARRAY, .DYNAMIC, .STRICT, .IGNORED]

/-- Every keyword, the reserved ones first. -/
def all : List Keyword :=
  reserved ++ unreserved

/-- Whether the keyword can never be a name. -/
def isReserved (keyword : Keyword) : Bool :=
  reserved.contains keyword

/-- The upper-case spelling. -/
def spelling : Keyword → String
  | .SELECT => "SELECT"
  | .FROM => "FROM"
  | .WHERE => "WHERE"
  | .ORDER => "ORDER"
  | .BY => "BY"
  | .GROUP => "GROUP"
  | .HAVING => "HAVING"
  | .LIMIT => "LIMIT"
  | .OFFSET => "OFFSET"
  | .DISTINCT => "DISTINCT"
  | .ALL => "ALL"
  | .WITH => "WITH"
  | .JOIN => "JOIN"
  | .INNER => "INNER"
  | .LEFT => "LEFT"
  | .RIGHT => "RIGHT"
  | .FULL => "FULL"
  | .OUTER => "OUTER"
  | .CROSS => "CROSS"
  | .ON => "ON"
  | .USING => "USING"
  | .UNION => "UNION"
  | .INTERSECT => "INTERSECT"
  | .EXCEPT => "EXCEPT"
  | .AS => "AS"
  | .CASE => "CASE"
  | .WHEN => "WHEN"
  | .THEN => "THEN"
  | .ELSE => "ELSE"
  | .END => "END"
  | .CAST => "CAST"
  | .INSERT => "INSERT"
  | .INTO => "INTO"
  | .VALUES => "VALUES"
  | .UPDATE => "UPDATE"
  | .SET => "SET"
  | .DELETE => "DELETE"
  | .COPY => "COPY"
  | .CREATE => "CREATE"
  | .DROP => "DROP"
  | .ALTER => "ALTER"
  | .TABLE => "TABLE"
  | .DEFAULT => "DEFAULT"
  | .ANALYZE => "ANALYZE"
  | .CLOSE => "CLOSE"
  | .DEALLOCATE => "DEALLOCATE"
  | .DECLARE => "DECLARE"
  | .DISCARD => "DISCARD"
  | .EXPLAIN => "EXPLAIN"
  | .FETCH => "FETCH"
  | .KILL => "KILL"
  | .OPTIMIZE => "OPTIMIZE"
  | .REFRESH => "REFRESH"
  | .RESET => "RESET"
  | .RESTORE => "RESTORE"
  | .SHOW => "SHOW"
  | .GRANT => "GRANT"
  | .DENY => "DENY"
  | .REVOKE => "REVOKE"
  | .BEGIN => "BEGIN"
  | .START => "START"
  | .COMMIT => "COMMIT"
  | .AND => "AND"
  | .OR => "OR"
  | .NOT => "NOT"
  | .IN => "IN"
  | .BETWEEN => "BETWEEN"
  | .LIKE => "LIKE"
  | .IS => "IS"
  | .NULL => "NULL"
  | .TRUE => "TRUE"
  | .FALSE => "FALSE"
  | .EXISTS => "EXISTS"
  | .PRIMARY => "PRIMARY"
  | .KEY => "KEY"
  | .GENERATED => "GENERATED"
  | .ALWAYS => "ALWAYS"
  | .IF => "IF"
  | .SESSION => "SESSION"
  | .LOCAL => "LOCAL"
  | .TO => "TO"
  | .TABLES => "TABLES"
  | .SCHEMAS => "SCHEMAS"
  | .PREPARE => "PREPARE"
  | .PLANS => "PLANS"
  | .SEQUENCES => "SEQUENCES"
  | .TEMP => "TEMP"
  | .TEMPORARY => "TEMPORARY"
  | .TRANSACTION => "TRANSACTION"
  | .WORK => "WORK"
  | .ASC => "ASC"
  | .DESC => "DESC"
  | .NULLS => "NULLS"
  | .FIRST => "FIRST"
  | .LAST => "LAST"
  | .INT => "INT"
  | .INTEGER => "INTEGER"
  | .SMALLINT => "SMALLINT"
  | .BIGINT => "BIGINT"
  | .REAL => "REAL"
  | .DOUBLE => "DOUBLE"
  | .PRECISION => "PRECISION"
  | .FLOAT => "FLOAT"
  | .DECIMAL => "DECIMAL"
  | .NUMERIC => "NUMERIC"
  | .CHAR => "CHAR"
  | .VARCHAR => "VARCHAR"
  | .TEXT => "TEXT"
  | .BOOLEAN => "BOOLEAN"
  | .DATE => "DATE"
  | .TIME => "TIME"
  | .TIMESTAMP => "TIMESTAMP"
  | .OBJECT => "OBJECT"
  | .ARRAY => "ARRAY"
  | .DYNAMIC => "DYNAMIC"
  | .STRICT => "STRICT"
  | .IGNORED => "IGNORED"

/-- The keyword as it is quoted in a list of what the grammar expects. -/
def quoted (keyword : Keyword) : String :=
  s!"'{keyword.spelling}'"

/-- A word with its ASCII letters in upper case. -/
def foldCase (word : String) : String :=
  String.ofList (word.toList.map Char.toUpper)

/-- The keyword that a word spells in any case. -/
def ofWord? (word : String) : Option Keyword :=
  all.find? fun keyword ↦ keyword.spelling == foldCase word

/-- The keywords that can start a statement, in the order in which the grammar lists them where
none is found. It has rules for most of them; the rest are known only as starts. -/
def statementStarts : List Keyword :=
  [.SELECT, .DEALLOCATE, .FETCH, .END, .WITH, .CREATE, .ALTER, .KILL, .CLOSE, .BEGIN, .START,
    .COMMIT, .ANALYZE, .DISCARD, .EXPLAIN, .SHOW, .OPTIMIZE, .REFRESH, .RESTORE, .DROP,
    .INSERT, .VALUES, .DELETE, .UPDATE, .SET, .RESET, .COPY, .GRANT, .DENY, .REVOKE, .DECLARE]

/-- The keyword found for a word is spelled like it, up to case. -/
theorem spelling_of_ofWord? {word : String} {keyword : Keyword}
    (h : ofWord? word = some keyword) : keyword.spelling = foldCase word := by
  simpa using List.find?_some h

end Keyword

end SqlBatch
