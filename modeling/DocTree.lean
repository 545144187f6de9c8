import DocTree.Main
import DocTree.Sinks
import DocTree.Source.Build
import DocTree.Proofs.Mdast.Splice
import DocTree.Proofs.Mdast.Correspondence
import DocTree.Proofs.Mdast.Schema
import DocTree.Proofs.Mdast.Decoration
import DocTree.Proofs.Mdast.Pruning
import DocTree.Proofs.Plain.Reports
import DocTree.Proofs.TextEquivalence
import DocTree.Proofs.InlineText
import DocTree.Proofs.Source.RoundTrip
import DocTree.Proofs.Registry
import DocTree.Proofs.CommandLine.InputLine
import DocTree.Proofs.Files
import DocTree.Proofs.Program.Reading
import DocTree.Proofs.Program.Run
import DocTree.Proofs.Config.Loading
import DocTree.Proofs.NormalText
import DocTree.Proofs.JoinedTexts
import DocTree.Proofs.Mdast.Missing
import DocTree.Proofs.Mdast.Siblings
import DocTree.Proofs.Mdast.Trace
import DocTree.Proofs.Fragment
import DocTree.Proofs.Serialization
import DocTree.Proofs.Threaded
