import CSharpDraft.Command.Invocation
import CSharpDraft.Command.Report
import CSharpDraft.Command.Run
import CSharpDraft.DataClass.Config
import CSharpDraft.DataClass.Generate
import CSharpDraft.Decl.Access
import CSharpDraft.Decl.Basic
import CSharpDraft.Disk.Basic
import CSharpDraft.Disk.Path
import CSharpDraft.Draft.Basic
import CSharpDraft.Draft.Build
import CSharpDraft.Draft.Call
import CSharpDraft.Draft.Entry
import CSharpDraft.Draft.Member
import CSharpDraft.Draft.Work
import CSharpDraft.Draft.Workspace
import CSharpDraft.Fault
import CSharpDraft.Fragment.Block
import CSharpDraft.Fragment.Grammar
import CSharpDraft.Fragment.Grammar.Declaration
import CSharpDraft.Fragment.Grammar.Expression
import CSharpDraft.Fragment.Grammar.Rule
import CSharpDraft.Fragment.Grammar.Statement
import CSharpDraft.Fragment.Grammar.Type
import CSharpDraft.Fragment.Layout
import CSharpDraft.Fragment.Lexer
import CSharpDraft.Fragment.Parser
import CSharpDraft.Fragment.Pattern
import CSharpDraft.Fragment.Token
import CSharpDraft.Fragment.Tree
import CSharpDraft.Json.Reader
import CSharpDraft.Json.Value
import CSharpDraft.Json.Written
import CSharpDraft.Main
import CSharpDraft.Proofs.Command.Outputs
import CSharpDraft.Proofs.Command.Process
import CSharpDraft.Proofs.DataClass.Clash
import CSharpDraft.Proofs.DataClass.Document
import CSharpDraft.Proofs.DataClass.Layouts
import CSharpDraft.Proofs.DataClass.Mirror
import CSharpDraft.Proofs.DataClass.Outcome
import CSharpDraft.Proofs.DataClass.Shape
import CSharpDraft.Proofs.Disk.Write
import CSharpDraft.Proofs.Draft.AsClass
import CSharpDraft.Proofs.Draft.Builds
import CSharpDraft.Proofs.Draft.Bulk
import CSharpDraft.Proofs.Draft.Checked
import CSharpDraft.Proofs.Draft.FirstFault
import CSharpDraft.Proofs.Draft.FlagValues
import CSharpDraft.Proofs.Draft.Frame
import CSharpDraft.Proofs.Draft.Legal
import CSharpDraft.Proofs.Draft.Membership
import CSharpDraft.Proofs.Draft.Order
import CSharpDraft.Proofs.Draft.Pieces
import CSharpDraft.Proofs.Draft.Plans
import CSharpDraft.Proofs.Draft.Settings
import CSharpDraft.Proofs.Draft.Work
import CSharpDraft.Proofs.Fragment.Alike
import CSharpDraft.Proofs.Fragment.Allman
import CSharpDraft.Proofs.Fragment.Balance
import CSharpDraft.Proofs.Fragment.BodyFile
import CSharpDraft.Proofs.Fragment.Calm
import CSharpDraft.Proofs.Fragment.Dropped
import CSharpDraft.Proofs.Fragment.Fuel
import CSharpDraft.Proofs.Fragment.Idempotent
import CSharpDraft.Proofs.Fragment.Kept
import CSharpDraft.Proofs.Fragment.Law
import CSharpDraft.Proofs.Fragment.Lawful
import CSharpDraft.Proofs.Fragment.Layout
import CSharpDraft.Proofs.Fragment.LineShape
import CSharpDraft.Proofs.Fragment.Lines
import CSharpDraft.Proofs.Fragment.Marks
import CSharpDraft.Proofs.Fragment.Match
import CSharpDraft.Proofs.Fragment.Nesting
import CSharpDraft.Proofs.Fragment.NextToken
import CSharpDraft.Proofs.Fragment.Nodes
import CSharpDraft.Proofs.Fragment.Opened
import CSharpDraft.Proofs.Fragment.Reach
import CSharpDraft.Proofs.Fragment.Reading
import CSharpDraft.Proofs.Fragment.SameCode
import CSharpDraft.Proofs.Fragment.Scan
import CSharpDraft.Proofs.Fragment.Seams
import CSharpDraft.Proofs.Fragment.Settled
import CSharpDraft.Proofs.Fragment.Spacing
import CSharpDraft.Proofs.Fragment.Steady
import CSharpDraft.Proofs.Fragment.Trial
import CSharpDraft.Proofs.Render.Layout
import CSharpDraft.Proofs.Render.Member
import CSharpDraft.Proofs.Render.Parts
import CSharpDraft.Proofs.Render.Rows
import CSharpDraft.Proofs.Render.Summaries
import CSharpDraft.Proofs.Script.Answers
import CSharpDraft.Proofs.Script.Invisible
import CSharpDraft.Proofs.Script.Run
import CSharpDraft.Proofs.Text.Blank
import CSharpDraft.Proofs.Text.Case
import CSharpDraft.Proofs.Text.CodePoint
import CSharpDraft.Proofs.Text.Collapse
import CSharpDraft.Proofs.Text.Comment
import CSharpDraft.Proofs.Text.Ends
import CSharpDraft.Proofs.Text.Lines
import CSharpDraft.Proofs.Text.NormalForm
import CSharpDraft.Proofs.Text.Pascal
import CSharpDraft.Proofs.Text.Raised
import CSharpDraft.Proofs.Text.Without
import CSharpDraft.Render.Basic
import CSharpDraft.Render.Member
import CSharpDraft.Script
import CSharpDraft.Text.Basic
import CSharpDraft.Text.Case
import CSharpDraft.Text.CodePoint
import CSharpDraft.Text.Letter
import CSharpDraft.Text.Literal
import CSharpDraft.Text.Pascal
import CSharpDraft.Text.Utf8
import CSharpDraft.Trace
