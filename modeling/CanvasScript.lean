import CanvasScript.Host.Extras
import CanvasScript.Main
import CanvasScript.Marker
import CanvasScript.Proofs.Assignments
import CanvasScript.Proofs.Blame
import CanvasScript.Proofs.Capabilities
import CanvasScript.Proofs.Counting
import CanvasScript.Proofs.Descents.Progress
import CanvasScript.Proofs.Display.Joined
import CanvasScript.Proofs.Documents
import CanvasScript.Proofs.Equality
import CanvasScript.Proofs.Frames.Simulation
import CanvasScript.Proofs.Grammar.Completeness
import CanvasScript.Proofs.Grammar.Prefixes
import CanvasScript.Proofs.Identity
import CanvasScript.Proofs.Indexing
import CanvasScript.Proofs.Interpolation
import CanvasScript.Proofs.Interrupts
import CanvasScript.Proofs.Layout
import CanvasScript.Proofs.Numerals
import CanvasScript.Proofs.ObjectLiterals
import CanvasScript.Proofs.Objects
import CanvasScript.Proofs.Pieces.Blanking
import CanvasScript.Proofs.Pieces.Numerals
import CanvasScript.Proofs.ReadBack
import CanvasScript.Proofs.Scoping
import CanvasScript.Proofs.Slices
import CanvasScript.Proofs.Segments.Cursors
import CanvasScript.Proofs.Spelling
import CanvasScript.Proofs.Termination
import CanvasScript.Proofs.Writing
