import ShellPrompt.Action
import ShellPrompt.CommandLine.Arguments
import ShellPrompt.CommandLine.Executable
import ShellPrompt.CommandLine.Invocation
import ShellPrompt.CommandLine.Program
import ShellPrompt.Config.Basic
import ShellPrompt.Config.Files
import ShellPrompt.Data.Basic
import ShellPrompt.Data.Merge
import ShellPrompt.Data.Moment
import ShellPrompt.Dictionary
import ShellPrompt.Fragment.Basic
import ShellPrompt.Fragment.Segment
import ShellPrompt.Git.Command
import ShellPrompt.Git.Repository
import ShellPrompt.Git.StatusSummary
import ShellPrompt.Main
import ShellPrompt.Number.Binary64
import ShellPrompt.Number.DecimalText
import ShellPrompt.Number.Integer
import ShellPrompt.Number.Shortest
import ShellPrompt.Parser.Basic
import ShellPrompt.Parser.Cursor
import ShellPrompt.Path
import ShellPrompt.Prompt.Component
import ShellPrompt.Prompt.Context
import ShellPrompt.Prompt.Directory
import ShellPrompt.Prompt.Evaluate
import ShellPrompt.Prompt.Session
import ShellPrompt.Proofs.CommandLine.Snippet
import ShellPrompt.Proofs.Config.DropIns
import ShellPrompt.Proofs.Config.Layers
import ShellPrompt.Proofs.Config.SameFiles
import ShellPrompt.Proofs.Config.Styles
import ShellPrompt.Proofs.Data.Grouping
import ShellPrompt.Proofs.Data.Keys
import ShellPrompt.Proofs.Data.Merge
import ShellPrompt.Proofs.Dictionary
import ShellPrompt.Proofs.Fragment.Force
import ShellPrompt.Proofs.Fragment.Kind
import ShellPrompt.Proofs.Fragment.Laws
import ShellPrompt.Proofs.Fragment.Segmentation
import ShellPrompt.Proofs.Fragment.Squash
import ShellPrompt.Proofs.Git.Discovery
import ShellPrompt.Proofs.Git.StatusSummary
import ShellPrompt.Proofs.Git.Unforeseen
import ShellPrompt.Proofs.Parser.Advance
import ShellPrompt.Proofs.Parser.Construction
import ShellPrompt.Proofs.Parser.Reading
import ShellPrompt.Proofs.Parser.Suffix
import ShellPrompt.Proofs.Path
import ShellPrompt.Proofs.Prompt.Colorless
import ShellPrompt.Proofs.Prompt.Directory
import ShellPrompt.Proofs.Prompt.Discipline
import ShellPrompt.Proofs.Prompt.DiscoveryOnce
import ShellPrompt.Proofs.Prompt.Flattening
import ShellPrompt.Proofs.Prompt.GitTrouble
import ShellPrompt.Proofs.Prompt.LazyDiscovery
import ShellPrompt.Proofs.Prompt.LiteralValues
import ShellPrompt.Proofs.Prompt.OptionErrors
import ShellPrompt.Proofs.Prompt.Shown
import ShellPrompt.Proofs.Prompt.Unforeseen
import ShellPrompt.Proofs.Shell.InitScript
import ShellPrompt.Proofs.Shell.Literal
import ShellPrompt.Proofs.Shell.Replacement
import ShellPrompt.Proofs.Shell.Unescape
import ShellPrompt.Proofs.Shell.Units
import ShellPrompt.Proofs.Shell.Words
import ShellPrompt.Proofs.Style.Description
import ShellPrompt.Proofs.Style.Parameters
import ShellPrompt.Proofs.Style.Sequence
import ShellPrompt.Proofs.Style.Words
import ShellPrompt.Proofs.Template.Alternatives
import ShellPrompt.Proofs.Template.Composition
import ShellPrompt.Proofs.Template.Joining
import ShellPrompt.Proofs.Template.Lexeme
import ShellPrompt.Proofs.Template.Lexing
import ShellPrompt.Proofs.Template.LongestPart
import ShellPrompt.Proofs.Template.Nesting
import ShellPrompt.Proofs.Template.Reserved
import ShellPrompt.Proofs.Template.RoundTrip
import ShellPrompt.Proofs.Template.StackMachine
import ShellPrompt.Proofs.Template.Termination
import ShellPrompt.Proofs.Template.WellFormed
import ShellPrompt.Proofs.Text.Split
import ShellPrompt.Proofs.Yaml.Keys
import ShellPrompt.Shell.Escape
import ShellPrompt.Shell.InitScript
import ShellPrompt.Shell.Words
import ShellPrompt.Style.Color
import ShellPrompt.Style.Rendition
import ShellPrompt.Style.Table
import ShellPrompt.Template.Grammar
import ShellPrompt.Template.Printer
import ShellPrompt.Template.Recipe
import ShellPrompt.Template.Token
import ShellPrompt.Text.Blank
import ShellPrompt.Text.CodeRanges
import ShellPrompt.Text.Digit
import ShellPrompt.Text.LetterCase
import ShellPrompt.Text.Literal
import ShellPrompt.Text.Printable
import ShellPrompt.Text.Split
import ShellPrompt.Yaml.Lexeme
import ShellPrompt.Yaml.Node
import ShellPrompt.Yaml.Place
import ShellPrompt.Yaml.Scalars
import ShellPrompt.Yaml.Tag
import ShellPrompt.Yaml.Value
