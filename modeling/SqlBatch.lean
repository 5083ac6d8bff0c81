import SqlBatch.Main
import SqlBatch.Tree.DataTypeText
import SqlBatch.Text.Quotes
import SqlBatch.Tree.Nodes
import SqlBatch.Tree.Height
import SqlBatch.Tree.Relabel
import SqlBatch.Proofs.Stages
import SqlBatch.Proofs.Replay
import SqlBatch.Proofs.Replay.DataType
import SqlBatch.Proofs.Replay.Expression
import SqlBatch.Proofs.Replay.Command
import SqlBatch.Proofs.Attempt
import SqlBatch.Proofs.Allowance
import SqlBatch.Proofs.Depth
import SqlBatch.Proofs.Reuse
import SqlBatch.Proofs.Lexing.Trivia
import SqlBatch.Proofs.Lexing.Scan
import SqlBatch.Proofs.Lexing.Reads
import SqlBatch.Proofs.Lexing.Gaps
import SqlBatch.Proofs.Lexing.Tiling
import SqlBatch.Proofs.Lexing.Calls
import SqlBatch.Proofs.Pieces
import SqlBatch.Proofs.ParseBatch
import SqlBatch.Proofs.Coverage
import SqlBatch.Proofs.Boundaries
import SqlBatch.Proofs.Lines
import SqlBatch.Proofs.Lines.Cut
import SqlBatch.Proofs.Lines.Place
import SqlBatch.Proofs.Lines.TwoWay
import SqlBatch.Proofs.Lines.Carets
import SqlBatch.Proofs.Isolation
import SqlBatch.Proofs.Excerpts
import SqlBatch.Proofs.Resplitting
import SqlBatch.Proofs.Reproduction
import SqlBatch.Proofs.TableReferences
import SqlBatch.Proofs.Runs
import SqlBatch.Proofs.Raising
import SqlBatch.Proofs.Progress
import SqlBatch.Proofs.Contract
import SqlBatch.Proofs.Lexing.Words
import SqlBatch.Proofs.Lexing.Numbers
import SqlBatch.Proofs.Reports
import SqlBatch.Proofs.Layout
import SqlBatch.Proofs.Vocabulary
import SqlBatch.Proofs.Vocabulary.Grammar
import SqlBatch.Proofs.Stopping
import SqlBatch.Proofs.Extension
import SqlBatch.Proofs.Grouping
import SqlBatch.Proofs.Grouping.Expression
import SqlBatch.Proofs.Grouping.Statement
import SqlBatch.Proofs.Variation
import SqlBatch.Proofs.Variation.Terminal
import SqlBatch.Proofs.Variation.Replacement
import SqlBatch.Proofs.Variation.DataType
import SqlBatch.Proofs.Variation.Expression
import SqlBatch.Proofs.Variation.Query
import SqlBatch.Proofs.Variation.Command
import SqlBatch.Proofs.Variation.Statement
import SqlBatch.Proofs.Completion
import SqlBatch.Proofs.Completion.Terminal
import SqlBatch.Proofs.Completion.DataType
import SqlBatch.Proofs.Completion.Expression
import SqlBatch.Proofs.Completion.Query
import SqlBatch.Proofs.Completion.Command
import SqlBatch.Proofs.Completion.Statement
import SqlBatch.Proofs.Assembly
import SqlBatch.Proofs.Assembly.Expression
import SqlBatch.Proofs.Assembly.Statement
import SqlBatch.Proofs.Assembly.Nodes
import SqlBatch.Proofs.WellFormed
import SqlBatch.Proofs.Nesting
import SqlBatch.Proofs.Nesting.Chains
import SqlBatch.Proofs.Quoting
import SqlBatch.Proofs.Levels
import SqlBatch.Proofs.Operators
import SqlBatch.Proofs.Reading.Lists
import SqlBatch.Proofs.Rendering
import SqlBatch.Proofs.RoundTrip
import SqlBatch.Proofs.Properties
import SqlBatch.Proofs.LiteralText
import SqlBatch.Proofs.Labels
import SqlBatch.Proofs.Labels.Expression
import SqlBatch.Proofs.Labels.Statement
import SqlBatch.Proofs.Origins
import SqlBatch.Proofs.Columns
import SqlBatch.Proofs.Numbering
import SqlBatch.Proofs.FirstWords
import SqlBatch.Proofs.Reading.Texts
import SqlBatch.Proofs.TypeNames
import SqlBatch.Proofs.TypeNames.Tokens
