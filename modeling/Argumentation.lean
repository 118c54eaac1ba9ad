import Argumentation.Calendar
import Argumentation.Canonical
import Argumentation.CommandLine.Environment
import Argumentation.CommandLine.FileStore
import Argumentation.CommandLine.Invocation
import Argumentation.CommandLine.Option
import Argumentation.CommandLine.Run
import Argumentation.CommandLine.Settings
import Argumentation.CommandLine.Word
import Argumentation.Decimal.Numeral
import Argumentation.Decimal.Reading
import Argumentation.Decimal.Shortest
import Argumentation.Decimal.Style
import Argumentation.Decimal.Whole
import Argumentation.Declaration
import Argumentation.Document
import Argumentation.Exhibit
import Argumentation.Extension.Families
import Argumentation.Extension.Labelling
import Argumentation.Extension.Semantics
import Argumentation.Framework
import Argumentation.Framework.Mask
import Argumentation.Framework.OfValues
import Argumentation.Framework.Tables
import Argumentation.Json
import Argumentation.Json.Encoding
import Argumentation.Json.Reader
import Argumentation.Json.Writer
import Argumentation.Loading
import Argumentation.Main
import Argumentation.Markup.Cursor
import Argumentation.Markup.Fault
import Argumentation.Markup.Graph
import Argumentation.Markup.Kind
import Argumentation.Markup.Meaning
import Argumentation.Markup.Reading
import Argumentation.Markup.Scalar
import Argumentation.Markup.Token
import Argumentation.Markup.Token.Block
import Argumentation.Markup.Token.Flow
import Argumentation.Markup.Token.Lexer
import Argumentation.Markup.Token.Names
import Argumentation.Markup.Token.Word
import Argumentation.Markup.Tree
import Argumentation.Path
import Argumentation.Proofs.Acceptance
import Argumentation.Proofs.Acyclic
import Argumentation.Proofs.Appearance
import Argumentation.Proofs.Approach
import Argumentation.Proofs.Canonical
import Argumentation.Proofs.Carrying
import Argumentation.Proofs.Conclusion
import Argumentation.Proofs.Construction
import Argumentation.Proofs.Decision
import Argumentation.Proofs.Direction
import Argumentation.Proofs.Distance
import Argumentation.Proofs.Elements
import Argumentation.Proofs.Embedding
import Argumentation.Proofs.Entries
import Argumentation.Proofs.Enumeration
import Argumentation.Proofs.Evolution
import Argumentation.Proofs.Excerpt
import Argumentation.Proofs.Families
import Argumentation.Proofs.Grounding
import Argumentation.Proofs.Indentation
import Argumentation.Proofs.Intake
import Argumentation.Proofs.Interning
import Argumentation.Proofs.Limit
import Argumentation.Proofs.Mask
import Argumentation.Proofs.Numeral
import Argumentation.Proofs.Outcome
import Argumentation.Proofs.Outline
import Argumentation.Proofs.Payload
import Argumentation.Proofs.Placement
import Argumentation.Proofs.Quotation
import Argumentation.Proofs.RankQuery
import Argumentation.Proofs.Ranking
import Argumentation.Proofs.Refusal
import Argumentation.Proofs.Renaming
import Argumentation.Proofs.Repetition
import Argumentation.Proofs.Restriction
import Argumentation.Proofs.ScriptState
import Argumentation.Proofs.Spelling
import Argumentation.Proofs.Synonyms
import Argumentation.Proofs.Tables
import Argumentation.Proofs.Transcript
import Argumentation.Proofs.Translation
import Argumentation.Proofs.Traversal
import Argumentation.Proofs.Verdict
import Argumentation.Proofs.Visibility
import Argumentation.Rank
import Argumentation.Rank.OfValues
import Argumentation.Rejection
import Argumentation.Report.Name
import Argumentation.Report.Page
import Argumentation.Report.Payload
import Argumentation.Service.Answer
import Argumentation.Service.Message
import Argumentation.Service.Payload
import Argumentation.Text.Blank
import Argumentation.Text.Cased
import Argumentation.Text.Digit
import Argumentation.Text.Escaped
import Argumentation.Text.Lower
import Argumentation.Text.Printable
import Argumentation.Text.Quoted
import Argumentation.Text.Utf8
import Argumentation.Timeline.Plan
import Argumentation.Timeline.Stage
import Argumentation.Validation.Field
import Argumentation.Validation.Issue
import Argumentation.Value
import Argumentation.Value.Key
import Argumentation.Value.Literal
import Argumentation.Value.Order
import Argumentation.Value.SetOrder
import Argumentation.Value.Writable
