import ClassAtlas.Main
import ClassAtlas.Project.Request
import ClassAtlas.Proofs.Plain.Names
import ClassAtlas.Proofs.Source.LinesAbove
import ClassAtlas.Proofs.Source.Spans
import ClassAtlas.Proofs.Plain.Unit
import ClassAtlas.Proofs.Plain.Missed
import ClassAtlas.Proofs.Plain.Header
import ClassAtlas.Proofs.Plain.Members
import ClassAtlas.Proofs.Plain.Fields
import ClassAtlas.Proofs.Plain.Methods
import ClassAtlas.Proofs.Plain.Dependencies
import ClassAtlas.Proofs.Plain.RoundTrip
import ClassAtlas.Proofs.Plain.Controller
import ClassAtlas.Proofs.Plain.Mappings
import ClassAtlas.Proofs.Graph.Edges
import ClassAtlas.Proofs.Graph.Resolution
import ClassAtlas.Proofs.Source.AnnotationText
import ClassAtlas.Proofs.Plain.Endpoints
import ClassAtlas.Proofs.Plain.InlineFields
import ClassAtlas.Proofs.Graph.Growth
import ClassAtlas.Proofs.Graph.Library
import ClassAtlas.Proofs.Role.Consistency
import ClassAtlas.Proofs.Project.Scanning
import ClassAtlas.Proofs.Usage.Mining
import ClassAtlas.Proofs.Usage.Acceptance
import ClassAtlas.Proofs.Usage.Samples
import ClassAtlas.Proofs.Usage.Recognition
import ClassAtlas.Proofs.Json.Grammar
import ClassAtlas.Proofs.Json.Reading
import ClassAtlas.Proofs.Json.Writing
import ClassAtlas.Proofs.Model.Lossless
import ClassAtlas.Proofs.Summary.Accounting
import ClassAtlas.Proofs.Source.AnnotationGrammar
import ClassAtlas.Proofs.Source.AnnotationScan
import ClassAtlas.Proofs.Source.AnnotationWindow
import ClassAtlas.Proofs.Pattern.Locality
import ClassAtlas.Proofs.Source.CommentAbove
import ClassAtlas.Proofs.Source.LineLexer
import ClassAtlas.Proofs.Plain.GenericHeader
import ClassAtlas.Proofs.Usage.Arity
import ClassAtlas.Proofs.Usage.TopArguments
import ClassAtlas.Proofs.Usage.ClassMentions
import ClassAtlas.Proofs.Usage.Context
import ClassAtlas.Proofs.Usage.MemberCalls
import ClassAtlas.Proofs.Source.ImportStatements
import ClassAtlas.Proofs.Role.Paths
import ClassAtlas.Proofs.Usage.KeptResults
import ClassAtlas.Proofs.Plain.Creation
import ClassAtlas.Proofs.Text.Upper
import ClassAtlas.Proofs.Settings.RoundTrip
import ClassAtlas.Proofs.Source.BlockEnds
import ClassAtlas.Proofs.Source.TypeLists
import ClassAtlas.Proofs.Source.Calls
import ClassAtlas.Proofs.Disk.Tree
import ClassAtlas.Proofs.Disk.Expansion
