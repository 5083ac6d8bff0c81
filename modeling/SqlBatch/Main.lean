import SqlBatch.Report

/-!
# The command line

`main` checks the SQL files that it is given, or the standard input without any, and writes a report
for each. It exits with 0 if every statement was read and with 1 otherwise.

Whatever is decided about an input is decided in `SqlBatch.Report`; here inputs are read, and
reports are written.
-/

namespace SqlBatch.Main

/-- What the command line asks for. -/
structure Options where
  files : List String
  strict : Bool
  format : Format

/-- The format of a given name. -/
def format? : String → Option Format
  | "text" => some .text
  | "json" => some .json
  | _ => none

/-- Read the command line; nothing if it has an unknown flag or format. -/
def options? : List String → Option Options
  | [] => some ⟨[], false, .text⟩
  | "--strict" :: args => (options? args).map fun o ↦ { o with strict := true }
  | "--verbose" :: args => options? args
  | "-v" :: args => options? args
  | "--format" :: name :: args => do
    let format ← format? name
    let options ← options? args
    return { options with format }
  | arg :: args =>
    if arg.startsWith "-" then none
    else (options? args).map fun o ↦ { o with files := arg :: o.files }

/-- How the program is called. -/
def usage : String :=
  "usage: sqlbatch [--strict] [--format text|json] [FILE...]"

/-- The contents of a file, if it can be read. -/
def contents? (path : String) : IO (Option String) := do
  try return some (← IO.FS.readFile path)
  catch _ => return none

/-- The inputs with their names: the files, or the standard input. -/
def inputs (files : List String) : IO (List (String × Option String)) := do
  if files.isEmpty then
    let source ← (← IO.getStdin).readToEnd
    return [("<stdin>", some source)]
  else files.mapM fun path ↦ do return (path, ← contents? path)

end SqlBatch.Main

/-- Check the inputs that the command line names. -/
def main (args : List String) : IO UInt32 := do
  match SqlBatch.Main.options? args with
  | none =>
    IO.eprintln SqlBatch.Main.usage
    return 2
  | some options =>
    let configuration : SqlBatch.Configuration := ⟨.crateDb, options.strict⟩
    let result :=
      SqlBatch.checkAll configuration options.format (← SqlBatch.Main.inputs options.files)
    IO.print result.out
    match result.verdict with
    | .ok ok => return if ok then 0 else 1
    | .error message =>
      IO.eprintln s!"Error: {message}"
      return 1
