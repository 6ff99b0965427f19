import CoreWar.Assembly.Draft
import CoreWar.Assembly.Error
import CoreWar.Assembly.Header
import CoreWar.Assembly.Statement
import CoreWar.Assembly.Warrior
import CoreWar.Assertion.Expression
import CoreWar.Assertion.Token
import CoreWar.Battle.Basic
import CoreWar.Battle.Event
import CoreWar.Battle.Generator
import CoreWar.Battle.Summary
import CoreWar.Codec.Event
import CoreWar.Codec.Instruction
import CoreWar.Codec.Limits
import CoreWar.CommandLine.Arguments
import CoreWar.CommandLine.Folder
import CoreWar.CommandLine.Report
import CoreWar.Json.Binary64
import CoreWar.Json.Parser
import CoreWar.Json.Printer
import CoreWar.Json.Record
import CoreWar.Json.Value
import CoreWar.Limits
import CoreWar.Listing
import CoreWar.Machine.Core
import CoreWar.Machine.Execution
import CoreWar.Machine.Instruction
import CoreWar.Machine.Warrior
import CoreWar.Main
import CoreWar.Proofs.Addressing
import CoreWar.Proofs.Assembly.Canonical
import CoreWar.Proofs.Assembly.Items
import CoreWar.Proofs.Assembly.Reading
import CoreWar.Proofs.Assembly.Reference
import CoreWar.Proofs.Assembly.Source
import CoreWar.Proofs.Assembly.Stages
import CoreWar.Proofs.Assertion.Derivation
import CoreWar.Proofs.Assertion.Grammar
import CoreWar.Proofs.Checked
import CoreWar.Proofs.Confinement
import CoreWar.Proofs.History
import CoreWar.Proofs.Linking
import CoreWar.Proofs.Naming
import CoreWar.Proofs.Outcome
import CoreWar.Proofs.Placement
import CoreWar.Proofs.Rotation
import CoreWar.Proofs.Safety
import CoreWar.Proofs.Text.Words
import CoreWar.Text.Alphanumeric
import CoreWar.Text.Blank
import CoreWar.Text.CodePoint
import CoreWar.Text.Decimal
import CoreWar.Text.Glyph
import CoreWar.Text.Quoted
import CoreWar.Text.Uppercase
import CoreWar.Word
import CoreWar.Proofs.Course
import CoreWar.Proofs.Register
import CoreWar.Proofs.Chronicle
import CoreWar.Proofs.Threads
import CoreWar.Proofs.Schedule
import CoreWar.Proofs.Ending
import CoreWar.Proofs.Failure
import CoreWar.Proofs.Edit
import CoreWar.Proofs.Shape
import CoreWar.Proofs.Independence
import CoreWar.Proofs.Truncation
import CoreWar.Proofs.Congruence
import CoreWar.Proofs.Json.RoundTrip
import CoreWar.Proofs.Codec.RoundTrip
import CoreWar.Proofs.CommandLine.Stream
import CoreWar.Proofs.Siting
import CoreWar.Proofs.Damage
import CoreWar.Proofs.Assertion.Lexemes
import CoreWar.Proofs.Assertion.Exactness
import CoreWar.Proofs.Assembly.Layout
import CoreWar.Proofs.Resolution
import CoreWar.Proofs.Assembly.Faults
import CoreWar.Proofs.Assembly.Directives
import CoreWar.Proofs.Assembly.Judgement
import CoreWar.Proofs.Assembly.Stopping
import CoreWar.Proofs.Assembly.Mentions
import CoreWar.Proofs.Assembly.Labelling
import CoreWar.Proofs.Listing
import CoreWar.Proofs.Loading
import CoreWar.Proofs.Obtaining
import CoreWar.Proofs.Json.Grammar
import CoreWar.Proofs.Json.Completeness
import CoreWar.Proofs.Codec.Configuration
import CoreWar.Proofs.CommandLine.Configuration
