import TestScaffold.Main
import TestScaffold.Json.Fault
import TestScaffold.Json.Shape
import TestScaffold.Proofs.TypeExpr.RoundTrip
import TestScaffold.Proofs.Model.Parameter
import TestScaffold.Proofs.Model.Member
import TestScaffold.Proofs.Model.Class
import TestScaffold.Proofs.Declaration.ParameterList
import TestScaffold.Proofs.Document.Intake
import TestScaffold.Proofs.Json.Token
import TestScaffold.Proofs.Json.Printed
import TestScaffold.Proofs.Json.Record
import TestScaffold.Proofs.Model.Json
import TestScaffold.Proofs.Command.Report
import TestScaffold.Proofs.Model.Grouping
import TestScaffold.Proofs.Suite.TestNames
import TestScaffold.Proofs.Suite.PrimaryConstructor
import TestScaffold.Proofs.Suite.Respelling
import TestScaffold.Proofs.Command.Session
import TestScaffold.Proofs.Command.Write
import TestScaffold.Proofs.Command.Batch
import TestScaffold.Proofs.Command.Preservation
import TestScaffold.Proofs.Settings.Layer
import TestScaffold.Proofs.Settings.Environment
import TestScaffold.Proofs.Settings.Values
import TestScaffold.Proofs.Settings.Load
import TestScaffold.Proofs.Document.Declared
import TestScaffold.Proofs.Command.Journal
import TestScaffold.Proofs.Command.FreshFiles
import TestScaffold.Proofs.Command.CompleteReport
import TestScaffold.Proofs.Command.History
import TestScaffold.Proofs.Scan.Splitting
import TestScaffold.Proofs.Scan.Partner
import TestScaffold.Proofs.Suite.Identifier
import TestScaffold.Proofs.Model.Constrained
import TestScaffold.Proofs.Declaration.Cleaning
import TestScaffold.Proofs.Declaration.Attributes
import TestScaffold.Proofs.Document.Position
import TestScaffold.Proofs.Document.Using
import TestScaffold.Proofs.TypeExpr.Outline
import TestScaffold.Proofs.Declaration.DisplayName
import TestScaffold.Proofs.TypeExpr.Shape
import TestScaffold.Proofs.Document.Namespaces
import TestScaffold.Proofs.Document.Pruning
import TestScaffold.Proofs.Suite.Collection
import TestScaffold.Proofs.Suite.TypePolicy
import TestScaffold.Proofs.Suite.Lines
import TestScaffold.Proofs.Suite.Scope
import TestScaffold.Proofs.Suite.Expectation
import TestScaffold.Proofs.Suite.Untestable
import TestScaffold.Proofs.Command.Effect
import TestScaffold.Proofs.Declaration.Keywords
import TestScaffold.Proofs.TypeExpr.Nodes
