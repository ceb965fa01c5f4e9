import SceneTemplates.CommandLine.Command
import SceneTemplates.CommandLine.Report
import SceneTemplates.CommandLine.Words
import SceneTemplates.Component.Basic
import SceneTemplates.Component.Classification
import SceneTemplates.Component.Export
import SceneTemplates.Component.Kind
import SceneTemplates.Component.Tree
import SceneTemplates.Document.FileName
import SceneTemplates.Document.Format
import SceneTemplates.Document.Json
import SceneTemplates.Document.Loading
import SceneTemplates.Document.Schema
import SceneTemplates.Expression.Environment
import SceneTemplates.Expression.Error
import SceneTemplates.Expression.Evaluation
import SceneTemplates.Expression.Grouping
import SceneTemplates.Expression.Lexer
import SceneTemplates.Expression.Operation
import SceneTemplates.Expression.Operator
import SceneTemplates.Expression.Options
import SceneTemplates.Expression.Parser
import SceneTemplates.Expression.Sandbox
import SceneTemplates.Expression.Token
import SceneTemplates.Expression.Tree
import SceneTemplates.Expression.Validation
import SceneTemplates.Functions.Apply
import SceneTemplates.Functions.Arguments
import SceneTemplates.Functions.Catalogue
import SceneTemplates.Functions.Integer
import SceneTemplates.Functions.Real
import SceneTemplates.Functions.Rounding
import SceneTemplates.Functions.Sequence
import SceneTemplates.Identity
import SceneTemplates.Main
import SceneTemplates.Notice
import SceneTemplates.Number.Basic
import SceneTemplates.Number.Double
import SceneTemplates.Number.Elementary
import SceneTemplates.Number.ExactSum
import SceneTemplates.Number.Gamma
import SceneTemplates.Number.IntegerText
import SceneTemplates.Number.Layout
import SceneTemplates.Number.Numeral
import SceneTemplates.Number.Power
import SceneTemplates.Number.Reading
import SceneTemplates.Number.Shortest
import SceneTemplates.Number.VectorLength
import SceneTemplates.Scene.Basic
import SceneTemplates.Scene.Resolution
import SceneTemplates.Template.Compilation
import SceneTemplates.Template.Error
import SceneTemplates.Template.Extraction
import SceneTemplates.Template.Leaf
import SceneTemplates.Template.Mixin
import SceneTemplates.Template.Node
import SceneTemplates.Template.Phase
import SceneTemplates.Template.Reading
import SceneTemplates.Text.Base64
import SceneTemplates.Text.Basic
import SceneTemplates.Text.Blank
import SceneTemplates.Text.DecimalDigit
import SceneTemplates.Text.JsonText
import SceneTemplates.Text.Printable
import SceneTemplates.Text.Quoted
import SceneTemplates.Text.Styling
import SceneTemplates.Value.Basic
import SceneTemplates.Value.Comparison
import SceneTemplates.Value.Entries
import SceneTemplates.Value.Function
import SceneTemplates.Proofs.AcceptedDocuments
import SceneTemplates.Proofs.AgreeingEvaluators
import SceneTemplates.Proofs.AlikeCalls
import SceneTemplates.Proofs.AskedSources
import SceneTemplates.Proofs.BoundedCounts
import SceneTemplates.Proofs.CalculatedValues
import SceneTemplates.Proofs.ChangingData
import SceneTemplates.Proofs.CheckedEvaluation
import SceneTemplates.Proofs.CheckedTrees
import SceneTemplates.Proofs.ComparedEvaluations
import SceneTemplates.Proofs.CompiledGuards
import SceneTemplates.Proofs.DecimalIntegers
import SceneTemplates.Proofs.DeclaredNames
import SceneTemplates.Proofs.DoubleRange
import SceneTemplates.Proofs.EqualNumbers
import SceneTemplates.Proofs.EvaluatedData
import SceneTemplates.Proofs.ExpandedTests
import SceneTemplates.Proofs.Expansion
import SceneTemplates.Proofs.ExportedDocuments
import SceneTemplates.Proofs.ExportedTemplates
import SceneTemplates.Proofs.FactorialSizes
import SceneTemplates.Proofs.FirstFailures
import SceneTemplates.Proofs.FirstViolation
import SceneTemplates.Proofs.FixedData
import SceneTemplates.Proofs.GuardAcceptance
import SceneTemplates.Proofs.GuardMeaning
import SceneTemplates.Proofs.GuardParsing
import SceneTemplates.Proofs.GuardSizes
import SceneTemplates.Proofs.GuardValues
import SceneTemplates.Proofs.GuardedComponents
import SceneTemplates.Proofs.HiddenMembers
import SceneTemplates.Proofs.InlinedMixins
import SceneTemplates.Proofs.IntegerPowers
import SceneTemplates.Proofs.Lexemes
import SceneTemplates.Proofs.LiteralAttributes
import SceneTemplates.Proofs.LiteralTexts
import SceneTemplates.Proofs.LocalRuns
import SceneTemplates.Proofs.LocatedErrors
import SceneTemplates.Proofs.LooserBounds
import SceneTemplates.Proofs.MentionedNames
import SceneTemplates.Proofs.MixinCalls
import SceneTemplates.Proofs.NullSafeMembers
import SceneTemplates.Proofs.NumeralValues
import SceneTemplates.Proofs.NumericTexts
import SceneTemplates.Proofs.OpenBodies
import SceneTemplates.Proofs.OperatorGrouping
import SceneTemplates.Proofs.Parentheses
import SceneTemplates.Proofs.ParserLocality
import SceneTemplates.Proofs.ParserNesting
import SceneTemplates.Proofs.PhaseScenes
import SceneTemplates.Proofs.PlainResults
import SceneTemplates.Proofs.PrecedenceClimbing
import SceneTemplates.Proofs.QuotedTexts
import SceneTemplates.Proofs.ReadDecimals
import SceneTemplates.Proofs.ReadDocuments
import SceneTemplates.Proofs.RelatedEvaluations
import SceneTemplates.Proofs.RepeatedBuilds
import SceneTemplates.Proofs.RepeatedCalls
import SceneTemplates.Proofs.ResolutionRuns
import SceneTemplates.Proofs.ResolvedComponents
import SceneTemplates.Proofs.ResolvedTemplates
import SceneTemplates.Proofs.ResolvedTrees
import SceneTemplates.Proofs.RoundedDecimals
import SceneTemplates.Proofs.RoundedValues
import SceneTemplates.Proofs.RoundingIntervals
import SceneTemplates.Proofs.ShortestDecimals
import SceneTemplates.Proofs.StandingNodes
import SceneTemplates.Proofs.Steps
import SceneTemplates.Proofs.SyntaxErrors
import SceneTemplates.Proofs.TemplateWalk
import SceneTemplates.Proofs.TokenSeams
import SceneTemplates.Proofs.VisitedNodes
import SceneTemplates.Proofs.WellFormedTemplates
import SceneTemplates.Proofs.WrittenDoubles
import SceneTemplates.Proofs.WrittenNumerals
import SceneTemplates.Proofs.WrittenTokens
import SceneTemplates.Proofs.WrittenValues
