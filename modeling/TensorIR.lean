import TensorIR.Builder.Session
import TensorIR.Uniform
import TensorIR.Program.Listing
import TensorIR.Proofs.Builder.Acceptance
import TensorIR.Proofs.Builder.Agreement
import TensorIR.Proofs.Builder.Atomicity
import TensorIR.Proofs.Builder.Blame
import TensorIR.Proofs.Builder.Permanence
import TensorIR.Proofs.Builder.Representation
import TensorIR.Proofs.Builder.StraightLine
import TensorIR.Proofs.Builder.Allocation
import TensorIR.Proofs.Builder.ShapeRules
import TensorIR.Proofs.Builder.Uniquing
import TensorIR.Proofs.Builder.Conservation
import TensorIR.Proofs.Builder.Inspection
import TensorIR.Proofs.Builder.Definitions
import TensorIR.Proofs.Builder.Naming
import TensorIR.Proofs.Builder.Oversize
import TensorIR.Proofs.Builder.Limits
import TensorIR.Proofs.Builder.Initialisation
import TensorIR.Proofs.Builder.Listing
import TensorIR.Proofs.Builder.FirstViolation
import TensorIR.Proofs.Builder.Handles
import TensorIR.Proofs.Builder.Layouts
import TensorIR.Proofs.Builder.Parameters
import TensorIR.Proofs.Shape.Zeros
import TensorIR.Proofs.Shape.Transposition
import TensorIR.Proofs.Shape.Stacking
import TensorIR.Proofs.Unambiguity
