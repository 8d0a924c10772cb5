import Kindred.Age.Conversion
import Kindred.Age.Mapping
import Kindred.Chance.Source
import Kindred.Chance.Twister
import Kindred.Cli.Arguments
import Kindred.Cli.Command
import Kindred.Cli.Run
import Kindred.Cli.Table
import Kindred.Content.Bundled
import Kindred.Content.File
import Kindred.Content.Index
import Kindred.Content.Path
import Kindred.Content.Review
import Kindred.Data.Basic
import Kindred.Dice.Basic
import Kindred.Dice.Record
import Kindred.Dice.Token
import Kindred.Family.Basic
import Kindred.Family.Budget
import Kindred.Family.Session
import Kindred.Family.Start
import Kindred.Fault
import Kindred.Formula.Cache
import Kindred.Formula.Complex
import Kindred.Formula.Dialect
import Kindred.Formula.Error
import Kindred.Formula.Evaluate
import Kindred.Formula.Lexeme
import Kindred.Formula.Names
import Kindred.Formula.Postfix
import Kindred.Formula.Program
import Kindred.Formula.Rounding
import Kindred.Formula.Value
import Kindred.Json.Flaw
import Kindred.Json.Printer
import Kindred.Json.Reader
import Kindred.Log
import Kindred.Main
import Kindred.Number.Basic
import Kindred.Number.Binary
import Kindred.Number.Decimal
import Kindred.Number.Fixed
import Kindred.Number.Shortest
import Kindred.Numeral
import Kindred.Parent.Generation
import Kindred.Parent.Status
import Kindred.Proofs.Age.Lookup
import Kindred.Proofs.Blind
import Kindred.Proofs.Content.Reviewed
import Kindred.Proofs.Dice.Chains
import Kindred.Proofs.Dice.Notation
import Kindred.Proofs.Dice.Rolled
import Kindred.Proofs.Family.BothSides
import Kindred.Proofs.Family.Bounds
import Kindred.Proofs.Family.Economy
import Kindred.Proofs.Family.Failure
import Kindred.Proofs.Family.Generations
import Kindred.Proofs.Family.Kinship
import Kindred.Proofs.Family.Legible
import Kindred.Proofs.Family.Looks
import Kindred.Proofs.Family.Lossless
import Kindred.Proofs.Family.NonNegative
import Kindred.Proofs.Family.Order
import Kindred.Proofs.Family.ParentStatus
import Kindred.Proofs.Family.Reroll
import Kindred.Proofs.Family.Saved
import Kindred.Proofs.Family.Step
import Kindred.Proofs.Family.Tokens
import Kindred.Proofs.Family.View
import Kindred.Proofs.Fixed
import Kindred.Proofs.Formula.Alike
import Kindred.Proofs.Formula.Brackets
import Kindred.Proofs.Formula.Caching
import Kindred.Proofs.Formula.Composed
import Kindred.Proofs.Formula.Containment
import Kindred.Proofs.Formula.Defaults
import Kindred.Proofs.Formula.Leading
import Kindred.Proofs.Formula.Lexing
import Kindred.Proofs.Formula.LoneDice
import Kindred.Proofs.Formula.Meaning
import Kindred.Proofs.Formula.Numerals
import Kindred.Proofs.Formula.Operand
import Kindred.Proofs.Formula.Pieces
import Kindred.Proofs.Formula.Plain
import Kindred.Proofs.Formula.Reach
import Kindred.Proofs.Formula.Reading
import Kindred.Proofs.Formula.Shape
import Kindred.Proofs.Formula.Shown
import Kindred.Proofs.Formula.Spelling
import Kindred.Proofs.Formula.Stray
import Kindred.Proofs.Formula.Substitution
import Kindred.Proofs.Formula.Verdict
import Kindred.Proofs.Json.Integers
import Kindred.Proofs.Json.Layout
import Kindred.Proofs.Json.Number
import Kindred.Proofs.Json.RoundTrip
import Kindred.Proofs.Number.Double
import Kindred.Proofs.Number.Nearest
import Kindred.Proofs.Number.Product
import Kindred.Proofs.Number.Rounding
import Kindred.Proofs.Number.Shortest
import Kindred.Proofs.Number.Size
import Kindred.Proofs.Number.Whole
import Kindred.Proofs.Parent.Eligibility
import Kindred.Proofs.Parent.Selection
import Kindred.Proofs.Race.Loose
import Kindred.Proofs.Race.Normal
import Kindred.Proofs.Record.Check
import Kindred.Proofs.Record.Loose
import Kindred.Proofs.Record.Saved
import Kindred.Proofs.Record.Settled
import Kindred.Proofs.Record.Tame
import Kindred.Proofs.Roll
import Kindred.Proofs.Sibling.GenderForms
import Kindred.Proofs.Sibling.GenderRanges
import Kindred.Proofs.Sibling.LeadingDice
import Kindred.Proofs.Sibling.LitterQuotient
import Kindred.Proofs.Sibling.LitterRecord
import Kindred.Proofs.Sibling.Litters
import Kindred.Proofs.Sibling.Renumbering
import Kindred.Proofs.Stepwise
import Kindred.Proofs.Text.Character
import Kindred.Proofs.Text.Numeral
import Kindred.Proofs.Text.Words
import Kindred.Proofs.Trace
import Kindred.Race.Basic
import Kindred.Race.Rules
import Kindred.Record.Check
import Kindred.Record.Complaint
import Kindred.Record.Numeral
import Kindred.Record.Saved
import Kindred.Roll
import Kindred.Settings
import Kindred.Sibling.Basic
import Kindred.Sibling.Gender
import Kindred.Sibling.Generation
import Kindred.Sibling.Litter
import Kindred.Sibling.Rules
import Kindred.Sort
import Kindred.Text.Blank
import Kindred.Text.CodePoint
import Kindred.Text.Digit
import Kindred.Text.Letter
import Kindred.Text.Markup
import Kindred.Text.Printable
import Kindred.Text.Quoted
import Kindred.Text.Table
import Kindred.Text.Width
import Kindred.Text.Word
import Kindred.Text.Wrap
import Kindred.Trace
import Kindred.Yaml.Block
import Kindred.Yaml.Cursor
import Kindred.Yaml.Document
import Kindred.Yaml.Flaw
import Kindred.Yaml.Node
import Kindred.Yaml.Plain
import Kindred.Yaml.Property
import Kindred.Yaml.Quoted
import Kindred.Yaml.Reader
import Kindred.Yaml.Scalar
import Kindred.Yaml.Tag
import Kindred.Yaml.Time
import Kindred.Yaml.Token
