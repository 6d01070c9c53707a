import Stencil.Library
import Stencil.Main
import Stencil.Value.Mapping
import Stencil.Proofs.Cut
import Stencil.Proofs.Stream
import Stencil.Proofs.OnePass
import Stencil.Proofs.Nesting
import Stencil.Proofs.Kept
import Stencil.Proofs.Rendering
import Stencil.Proofs.LockStep
import Stencil.Proofs.Thresholds
import Stencil.Proofs.CallDepth
import Stencil.Proofs.Asked
import Stencil.Proofs.IncludeGraph
import Stencil.Proofs.Causes
import Stencil.Proofs.Records
import Stencil.Proofs.Skeleton
import Stencil.Proofs.Refine
import Stencil.Proofs.Seams
import Stencil.Proofs.Walks
import Stencil.Proofs.Levels
import Stencil.Proofs.Pasting
import Stencil.Proofs.LoopFree
import Stencil.Proofs.FreeNames
import Stencil.Proofs.Printing
import Stencil.Proofs.Answers
import Stencil.Proofs.Places
import Stencil.Proofs.Recovery
import Stencil.Proofs.Calls
import Stencil.Proofs.Confinement
import Stencil.Proofs.Resolution
import Stencil.Proofs.ChainOrder
import Stencil.Proofs.Substitution
import Stencil.Proofs.Later
import Stencil.Proofs.Concatenation
import Stencil.Proofs.Unrolling
import Stencil.Proofs.Positions
import Stencil.Proofs.Scoping
import Stencil.Proofs.Documents
import Stencil.Proofs.CompactText
import Stencil.Proofs.Canonical
import Stencil.Proofs.Guards
import Stencil.Proofs.TagGrammar
