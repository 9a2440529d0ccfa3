import ThreeAddress.Main
import ThreeAddress.Proofs.Analysis.Verdict
import ThreeAddress.Proofs.Code.ControlFlow
import ThreeAddress.Proofs.Compilation
import ThreeAddress.Proofs.Listing.Identity
import ThreeAddress.Proofs.Lexer.LongestMatch
import ThreeAddress.Proofs.Lexer.Lossless
import ThreeAddress.Proofs.Lexer.TokenCursor
import ThreeAddress.Proofs.Listing.Decoding
import ThreeAddress.Proofs.Analysis.Scope
import ThreeAddress.Proofs.Program.Placeholders
import ThreeAddress.Proofs.Renaming.Invariance
import ThreeAddress.Proofs.Lexer.Retraction
import ThreeAddress.Proofs.Program.Provenance
import ThreeAddress.Proofs.Files.Writing
import ThreeAddress.Proofs.CommandLine.Effects
import ThreeAddress.Proofs.CommandLine.Verbosity
import ThreeAddress.Proofs.Lexer.Positions
import ThreeAddress.Proofs.Lexer.Recovery
import ThreeAddress.Proofs.Lexer.Kinds
import ThreeAddress.Proofs.Lexer.Printing
import ThreeAddress.Proofs.CommandLine.Output
import ThreeAddress.Proofs.Analysis.Descent
import ThreeAddress.Proofs.Analysis.OpenCategories
import ThreeAddress.Proofs.Analysis.Depth
import ThreeAddress.Proofs.Analysis.Exhaustion
import ThreeAddress.Proofs.Lexer.Blanking
import ThreeAddress.Proofs.Syntax.Separation
import ThreeAddress.Proofs.Analysis.Semicolons
import ThreeAddress.Proofs.Location.Coordinates
import ThreeAddress.Proofs.Location.Excerpt
import ThreeAddress.Proofs.Analysis.Markers
import ThreeAddress.Proofs.Code.Census
import ThreeAddress.Proofs.Analysis.Narrowing
