import ReferenceGraph.Analysis.Event
import ReferenceGraph.Analysis.Extract
import ReferenceGraph.Analysis.Run
import ReferenceGraph.Command.Arguments
import ReferenceGraph.Command.Options
import ReferenceGraph.Command.Run
import ReferenceGraph.Error
import ReferenceGraph.Graph.Basic
import ReferenceGraph.Graph.Dot
import ReferenceGraph.Graph.Format
import ReferenceGraph.Graph.Json
import ReferenceGraph.Name.Granularity
import ReferenceGraph.Name.Qualified
import ReferenceGraph.Path.Basic
import ReferenceGraph.Path.Name
import ReferenceGraph.Source.Import
import ReferenceGraph.Source.Reference
import ReferenceGraph.Source.Summary
import ReferenceGraph.Text.Control
import ReferenceGraph.Text.Lines
import ReferenceGraph.Text.Utf8
import ReferenceGraph.Tree.Access
import ReferenceGraph.Tree.Basic
import ReferenceGraph.Tree.Build
import ReferenceGraph.Tree.Resolve
import ReferenceGraph.Tree.Scan
import ReferenceGraph.Unicode.Alphabetic
import ReferenceGraph.Unicode.Class
import ReferenceGraph.Unicode.CodeRange
import ReferenceGraph.Unicode.Later
import ReferenceGraph.Unicode.Mark
import ReferenceGraph.Unicode.Number
import ReferenceGraph.Main
import ReferenceGraph.Proofs.Graph.Builder
import ReferenceGraph.Proofs.Lists.Joined
import ReferenceGraph.Proofs.Source.Boundary
import ReferenceGraph.Proofs.Source.Scan
import ReferenceGraph.Proofs.Source.Import
import ReferenceGraph.Proofs.Source.Redundancy
import ReferenceGraph.Proofs.Analysis.Imports
import ReferenceGraph.Proofs.Analysis.Collect
import ReferenceGraph.Proofs.Tree.WellFormed
import ReferenceGraph.Proofs.Tree.Findings
import ReferenceGraph.Proofs.Tree.Build
import ReferenceGraph.Proofs.Tree.Alike
import ReferenceGraph.Proofs.Tree.Scan
import ReferenceGraph.Proofs.Analysis.Meaning
import ReferenceGraph.Proofs.Analysis.Quotient
import ReferenceGraph.Proofs.Text.Lines
import ReferenceGraph.Proofs.Source.Latest
import ReferenceGraph.Proofs.Json.Token
import ReferenceGraph.Proofs.Json.Reader
import ReferenceGraph.Proofs.Json.Lossless
import ReferenceGraph.Proofs.Graph.Formats
import ReferenceGraph.Proofs.Name.Grammar
import ReferenceGraph.Proofs.Source.Recognisers
import ReferenceGraph.Proofs.Source.Separator
import ReferenceGraph.Proofs.Analysis.Layout
import ReferenceGraph.Proofs.Tree.Walk
import ReferenceGraph.Proofs.Tree.Root
import ReferenceGraph.Proofs.Text.Ascii
import ReferenceGraph.Proofs.Path.Name
import ReferenceGraph.Proofs.Analysis.Ends
import ReferenceGraph.Proofs.Graph.Growth
import ReferenceGraph.Proofs.Analysis.Replay
import ReferenceGraph.Proofs.Analysis.Union
import ReferenceGraph.Proofs.Analysis.Rewritten
import ReferenceGraph.Proofs.Command.Runs
import ReferenceGraph.Proofs.Command.Repeat
import ReferenceGraph.Proofs.Source.Longest
import ReferenceGraph.Proofs.Source.Position
import ReferenceGraph.Proofs.Source.Reserved
import ReferenceGraph.Proofs.Command.Delivery
import ReferenceGraph.Proofs.Path.Strip
import ReferenceGraph.Proofs.Analysis.Spelling
import ReferenceGraph.Proofs.Unicode.WordClass
import ReferenceGraph.Proofs.Source.NameEnd
import ReferenceGraph.Proofs.Source.Division
import ReferenceGraph.Proofs.Source.Declaration
import ReferenceGraph.Proofs.Path.Views
import ReferenceGraph.Proofs.Path.Segments
import ReferenceGraph.Proofs.Text.Decoded
import ReferenceGraph.Proofs.Text.Written
import ReferenceGraph.Proofs.Text.Encoded
import ReferenceGraph.Proofs.Analysis.Log
