import Remedy.Candidate.Basic
import Remedy.Candidate.Extract
import Remedy.Candidate.Html
import Remedy.Candidate.Jsx
import Remedy.Check.Balance
import Remedy.Check.Validate
import Remedy.Component.AttributeText
import Remedy.Component.Block
import Remedy.Component.OpenTag
import Remedy.Config.Basic
import Remedy.Config.File
import Remedy.Css.Condition
import Remedy.Css.InputValue
import Remedy.Css.Match
import Remedy.Css.Parser
import Remedy.Css.Selector
import Remedy.Css.Token
import Remedy.Diff.Matching
import Remedy.Diff.Unified
import Remedy.Edit.LinePlan
import Remedy.Edit.Plan
import Remedy.Edit.Splice
import Remedy.Files.Tree
import Remedy.Fix.Basic
import Remedy.Fix.Distinct
import Remedy.Fix.Notice
import Remedy.Fix.Wire
import Remedy.Grammar.Automaton
import Remedy.Grammar.Language
import Remedy.Grammar.Pattern
import Remedy.Grammar.Rule
import Remedy.Html.Element
import Remedy.Html.Grammar
import Remedy.Html.Scanner
import Remedy.Html.Tag
import Remedy.Json.Access
import Remedy.Json.Binary64
import Remedy.Json.Reader
import Remedy.Json.Shown
import Remedy.Json.Value
import Remedy.Json.Writer
import Remedy.Markup.Event
import Remedy.Markup.Tag
import Remedy.Node.Basic
import Remedy.Node.Source
import Remedy.Page.Basic
import Remedy.Page.Build
import Remedy.Parse.Engine
import Remedy.Parse.Lexer
import Remedy.Parse.Outline
import Remedy.Parse.Stack
import Remedy.Parse.Text
import Remedy.Parse.Tree
import Remedy.Patch.Basic
import Remedy.Patch.Component
import Remedy.Patch.Html
import Remedy.Patch.Jsx
import Remedy.Patch.Strategy
import Remedy.Path.Basic
import Remedy.Record.Artifact
import Remedy.Record.Attempt
import Remedy.Repair.Client
import Remedy.Repair.Heal
import Remedy.Repair.Prompt
import Remedy.Repair.Provider
import Remedy.Repair.Reply
import Remedy.Repair.Request
import Remedy.Run.Apply
import Remedy.Run.Event
import Remedy.Run.Outcome
import Remedy.Run.Target
import Remedy.Run.Verification
import Remedy.Run.Workspace
import Remedy.Schema.Issue
import Remedy.Schema.Reader
import Remedy.Script.Grammar
import Remedy.Script.Jsx
import Remedy.Script.Lexis
import Remedy.Script.Scanner
import Remedy.Script.Typed
import Remedy.Search.Basic
import Remedy.Signature.Basic
import Remedy.Signature.Score
import Remedy.Text.Blank
import Remedy.Text.Case
import Remedy.Text.Position
import Remedy.Text.Printable
import Remedy.Text.Quotation
import Remedy.Text.Ranges
import Remedy.Text.References
import Remedy.Text.Unescape
import Remedy.Text.Utf8
import Remedy.Text.Word
import Remedy.Proofs.Edit.StableOrder
import Remedy.Proofs.Edit.Substitution
import Remedy.Proofs.Edit.PlanOverlap
import Remedy.Proofs.Fix.Distinct
import Remedy.Proofs.Edit.LinePlanOverlap
import Remedy.Proofs.Patch.ComponentTrace
import Remedy.Proofs.Files.Lookup
import Remedy.Proofs.Path.Resolve
import Remedy.Proofs.Run.Guarantee
import Remedy.Proofs.Fix.Identity
import Remedy.Proofs.Node.Layout
import Remedy.Proofs.Patch.Proposal
import Remedy.Proofs.Patch.Rejection
import Remedy.Proofs.Patch.Independence
import Remedy.Proofs.Path.Canonical
import Remedy.Proofs.Search.Found
import Remedy.Proofs.Run.Once
import Remedy.Proofs.Edit.Frame
import Remedy.Proofs.Patch.Placement
import Remedy.Proofs.Edit.LineSubstitution
import Remedy.Proofs.Component.Bounds
import Remedy.Proofs.Patch.ComponentPlacement
import Remedy.Proofs.Patch.Frame
import Remedy.Proofs.Run.Applied
import Remedy.Proofs.Text.Decoding
import Remedy.Proofs.Text.Places
import Remedy.Proofs.Edit.EngineAgreement
import Remedy.Proofs.Search.Target
import Remedy.Proofs.Markup.Places
import Remedy.Proofs.Component.Places
import Remedy.Proofs.Component.Reading
import Remedy.Proofs.Edit.LineFrame
import Remedy.Proofs.Patch.ComponentSequence
import Remedy.Proofs.Check.Nesting
import Remedy.Proofs.Check.Pairing
import Remedy.Proofs.Check.Failures
import Remedy.Proofs.Diff.Application
import Remedy.Proofs.Diff.RoundTrip
import Remedy.Proofs.Search.Best
import Remedy.Proofs.Search.Repeated
import Remedy.Proofs.Run.Partition
import Remedy.Proofs.Repair.Commitment
import Remedy.Proofs.Html.TagReader
import Remedy.Proofs.Html.Lexed
import Remedy.Proofs.Text.Escaping
import Remedy.Proofs.Html.Forms
import Remedy.Proofs.Html.Rewriting
import Remedy.Proofs.Patch.Insertion
import Remedy.Proofs.Text.Words
import Remedy.Proofs.Component.TagText
import Remedy.Proofs.Component.Tokens
import Remedy.Proofs.Component.Lookup
import Remedy.Proofs.Patch.ComponentAttributes
import Remedy.Proofs.Patch.Values
import Remedy.Proofs.Script.Literal
import Remedy.Proofs.Patch.Readback
import Remedy.Proofs.Patch.Completion
import Remedy.Proofs.Repair.Unfencing
import Remedy.Proofs.Markup.Quotes
import Remedy.Proofs.Edit.LineText
import Remedy.Proofs.Component.Scanning
import Remedy.Proofs.Patch.ComponentRepetition
import Remedy.Proofs.Patch.ComponentRenaming
import Remedy.Proofs.Candidate.Gaps
import Remedy.Proofs.Fix.RoundTrip
import Remedy.Proofs.Fix.Accepted
import Remedy.Proofs.Run.SourceCopies
import Remedy.Proofs.Patch.Repeats
import Remedy.Proofs.Signature.Evidence
import Remedy.Proofs.Signature.Dominance
import Remedy.Proofs.Run.Log
import Remedy.Proofs.Text.Inversion
import Remedy.Proofs.Component.LastTag
import Remedy.Proofs.Node.DocumentOrder
import Remedy.Proofs.Patch.Considered
