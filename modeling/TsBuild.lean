import TsBuild.Bundle.Rounds
import TsBuild.Main
import TsBuild.Proofs.Bundle.Failure
import TsBuild.Proofs.Bundle.Isolation
import TsBuild.Proofs.Bundle.Resolvers
import TsBuild.Proofs.Command.Spelling
import TsBuild.Proofs.Config.Circularity
import TsBuild.Proofs.Program.Reachable
import TsBuild.Proofs.Program.Unresolved
import TsBuild.Proofs.Bundle.Silence
import TsBuild.Proofs.Bundle.Acts
import TsBuild.Proofs.Bundle.Emission
import TsBuild.Proofs.Bundle.Reports
import TsBuild.Proofs.Program.Strictness
import TsBuild.Proofs.Program.TypeRoots
import TsBuild.Proofs.Program.TypePackages
import TsBuild.Proofs.Program.RootOrder
import TsBuild.Proofs.Json.Reading
import TsBuild.Proofs.Config.Blanks
import TsBuild.Proofs.Config.SyntaxError
import TsBuild.Proofs.Json.Agreement
import TsBuild.Proofs.Json.Phrase
import TsBuild.Proofs.Config.Decoration
import TsBuild.Proofs.Config.Lexemes
import TsBuild.Proofs.Config.KeyScan
import TsBuild.Proofs.Config.OptionKeys
import TsBuild.Proofs.Bundle.Sequence
import TsBuild.Proofs.Options.WriteRead
import TsBuild.Proofs.Options.Outcomes
import TsBuild.Proofs.Bundle.Resolved
import TsBuild.Proofs.Diagnostic.Frame
import TsBuild.Proofs.Command.Verdict
import TsBuild.Proofs.Options.Layering
import TsBuild.Proofs.Bundle.Chain
import TsBuild.Proofs.Program.Literals
import TsBuild.Proofs.Program.Declarations
import TsBuild.Proofs.Program.Spellings
import TsBuild.Proofs.Diagnostic.RoundTrip
import TsBuild.Proofs.Diagnostic.Layout
import TsBuild.Proofs.Diagnostic.Flattening
import TsBuild.Proofs.Bundle.Choices
import TsBuild.Proofs.Config.FoundKeys
