import JackSyntax.Editor.Server
import JackSyntax.Main
import JackSyntax.Proofs.CommandLine.ExitStatus
import JackSyntax.Proofs.Diagnostic.ShownLine
import JackSyntax.Proofs.Layout.Insertion
import JackSyntax.Proofs.Layout.LineEnds
import JackSyntax.Proofs.Lexer.Lookahead
import JackSyntax.Proofs.Lexer.Places
import JackSyntax.Proofs.Lexer.RoundTrip
import JackSyntax.Proofs.Markup.Determinacy
import JackSyntax.Proofs.Parser.Locality
import JackSyntax.Proofs.Parser.Truncation
import JackSyntax.Proofs.Parser.WholeClass
import JackSyntax.Proofs.Store.Locations
import JackSyntax.Proofs.Artifact.Writing
import JackSyntax.Proofs.CommandLine.Turns
import JackSyntax.Proofs.Store.Sources
import JackSyntax.Proofs.Store.Removal
import JackSyntax.Proofs.CommandLine.Isolation
import JackSyntax.Proofs.Artifact.Complaints
import JackSyntax.Proofs.CommandLine.Flags
import JackSyntax.Proofs.Artifact.Names
import JackSyntax.Proofs.CommandLine.Targets
import JackSyntax.Proofs.CommandLine.Collisions
import JackSyntax.Proofs.Artifact.Effects
import JackSyntax.Proofs.Markup.Nesting
import JackSyntax.Proofs.Diagnostic.Carets
import JackSyntax.Proofs.Grammar.Wording
import JackSyntax.Proofs.Parser.Hints
import JackSyntax.Proofs.Event.Forest
import JackSyntax.Proofs.Lexer.Endings
import JackSyntax.Proofs.Lexer.Integers
import JackSyntax.Proofs.Diagnostic.Extent
import JackSyntax.Proofs.Editor.Publications
import JackSyntax.Proofs.Parser.Effort
import JackSyntax.Proofs.Dump.Faithful
