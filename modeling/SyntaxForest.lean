import SyntaxForest.Data.Assoc
import SyntaxForest.Data.Datum
import SyntaxForest.Data.EnvFile
import SyntaxForest.Data.Json
import SyntaxForest.Data.Lookup
import SyntaxForest.Data.Number
import SyntaxForest.Decimal.Binary64
import SyntaxForest.Decimal.Placed
import SyntaxForest.Decimal.Rounded
import SyntaxForest.Decimal.Shortest
import SyntaxForest.Decimal.Written
import SyntaxForest.Declaration.Basic
import SyntaxForest.Declaration.Classifier
import SyntaxForest.Declaration.Converter
import SyntaxForest.Declaration.Outline
import SyntaxForest.Declaration.Reading
import SyntaxForest.Declaration.Rules
import SyntaxForest.Declaration.Site
import SyntaxForest.Fault
import SyntaxForest.Fault.Kind
import SyntaxForest.Forest.Basic
import SyntaxForest.Forest.Cursor
import SyntaxForest.Forest.Node
import SyntaxForest.Forest.Planting
import SyntaxForest.Forest.Session
import SyntaxForest.Forest.Sweep
import SyntaxForest.Forest.Walk
import SyntaxForest.Lifecycle.Engine
import SyntaxForest.Lifecycle.Lock
import SyntaxForest.Lifecycle.Parser
import SyntaxForest.Lifecycle.Scripted
import SyntaxForest.Lifecycle.Stage
import SyntaxForest.Log.Console
import SyntaxForest.Log.Event
import SyntaxForest.Log.Record
import SyntaxForest.Metrics.Collector
import SyntaxForest.Native.Growth
import SyntaxForest.Native.Tree
import SyntaxForest.ParseResult
import SyntaxForest.Proofs.Data.Assoc
import SyntaxForest.Proofs.Data.Basic
import SyntaxForest.Proofs.Declaration.DeclaredOnce
import SyntaxForest.Proofs.Declaration.Entries
import SyntaxForest.Proofs.Declaration.MemberOwnership
import SyntaxForest.Proofs.Declaration.NearestMatches
import SyntaxForest.Proofs.Declaration.NothingLost
import SyntaxForest.Proofs.Declaration.Ownership
import SyntaxForest.Proofs.Declaration.Reach
import SyntaxForest.Proofs.Declaration.Reading
import SyntaxForest.Proofs.Declaration.ReadingOrder
import SyntaxForest.Proofs.Declaration.Search
import SyntaxForest.Proofs.Declaration.Signatures
import SyntaxForest.Proofs.Declaration.Tokens
import SyntaxForest.Proofs.Forest.Changes
import SyntaxForest.Proofs.Forest.Freezing
import SyntaxForest.Proofs.Forest.Links
import SyntaxForest.Proofs.Forest.Refusals
import SyntaxForest.Proofs.Forest.Sessions
import SyntaxForest.Proofs.Forest.Traversal
import SyntaxForest.Proofs.Forest.Trees
import SyntaxForest.Proofs.Lifecycle.Cancellation
import SyntaxForest.Proofs.Lifecycle.Engagement
import SyntaxForest.Proofs.Lifecycle.Ownership
import SyntaxForest.Proofs.Lifecycle.ParseOutcomes
import SyntaxForest.Proofs.Lifecycle.Retry
import SyntaxForest.Proofs.Metrics.Accounting
import SyntaxForest.Proofs.Native.CapturedText
import SyntaxForest.Proofs.Native.Copying
import SyntaxForest.Proofs.Native.Growth
import SyntaxForest.Proofs.Native.Spans
import SyntaxForest.Proofs.Native.Tokens
import SyntaxForest.Proofs.Registry.Asking
import SyntaxForest.Proofs.Registry.Coherence
import SyntaxForest.Proofs.Registry.EndingHistory
import SyntaxForest.Proofs.Registry.Endings
import SyntaxForest.Proofs.Registry.Entries
import SyntaxForest.Proofs.Registry.FacadeAnswers
import SyntaxForest.Proofs.Registry.OneParser
import SyntaxForest.Proofs.Registry.StaleLoads
import SyntaxForest.Proofs.Service.CallEffects
import SyntaxForest.Proofs.Service.Calls
import SyntaxForest.Proofs.Service.Effects
import SyntaxForest.Proofs.Service.Faults
import SyntaxForest.Proofs.Service.Footing
import SyntaxForest.Proofs.Service.Goals
import SyntaxForest.Proofs.Service.Keeping
import SyntaxForest.Proofs.Service.Lives
import SyntaxForest.Proofs.Service.Locking
import SyntaxForest.Proofs.Service.Moves
import SyntaxForest.Proofs.Service.Registering
import SyntaxForest.Proofs.Service.Runs
import SyntaxForest.Proofs.Service.Steady
import SyntaxForest.Proofs.Service.Steps
import SyntaxForest.Proofs.Service.Waiting
import SyntaxForest.Proofs.Source.ByteOffsets
import SyntaxForest.Proofs.Source.LineIndex
import SyntaxForest.Proofs.Source.Places
import SyntaxForest.Proofs.Text.LetterCase
import SyntaxForest.Proofs.Text.Slice
import SyntaxForest.Proofs.Text.Words
import SyntaxForest.Proofs.Tree.Adoption
import SyntaxForest.Proofs.Tree.Census
import SyntaxForest.Proofs.Tree.Frozen
import SyntaxForest.Proofs.Tree.Metrics
import SyntaxForest.Proofs.Tree.Positions
import SyntaxForest.Registry.Basic
import SyntaxForest.Registry.Catalogue
import SyntaxForest.Registry.LanguageConfig
import SyntaxForest.Registry.LanguageTable
import SyntaxForest.Schema.Checked
import SyntaxForest.Schema.Scalar
import SyntaxForest.Service.Basic
import SyntaxForest.Service.FacadeCall
import SyntaxForest.Service.GetParser
import SyntaxForest.Service.Initialize
import SyntaxForest.Service.Parse
import SyntaxForest.Service.Registering
import SyntaxForest.Service.Schedule
import SyntaxForest.Settings
import SyntaxForest.Settings.Variables
import SyntaxForest.Source.ByteOffsets
import SyntaxForest.Source.FilePath
import SyntaxForest.Source.Folder
import SyntaxForest.Source.LineIndex
import SyntaxForest.Source.Position
import SyntaxForest.Source.Span
import SyntaxForest.Text.Affix
import SyntaxForest.Text.Blank
import SyntaxForest.Text.CaseFold
import SyntaxForest.Text.CaseRun
import SyntaxForest.Text.Digit
import SyntaxForest.Text.LetterCase
import SyntaxForest.Text.Lines
import SyntaxForest.Text.Printable
import SyntaxForest.Text.Quoted
import SyntaxForest.Text.Slice
import SyntaxForest.Text.Template
import SyntaxForest.Text.Utf8
import SyntaxForest.Text.WideText
import SyntaxForest.Tree.Census
import SyntaxForest.Tree.Diagnostic
import SyntaxForest.Tree.Metrics
import SyntaxForest.Tree.SyntaxNode
import SyntaxForest.Tree.SyntaxTree
import SyntaxForest.Yaml.Atom
import SyntaxForest.Yaml.Bare
import SyntaxForest.Yaml.BareWord
import SyntaxForest.Yaml.BlockText
import SyntaxForest.Yaml.Cursor
import SyntaxForest.Yaml.Document
import SyntaxForest.Yaml.Moment
import SyntaxForest.Yaml.Node
import SyntaxForest.Yaml.Property
import SyntaxForest.Yaml.Quoted
import SyntaxForest.Yaml.Token
import SyntaxForest.Yaml.TokenStream
