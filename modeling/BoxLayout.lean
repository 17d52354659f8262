import BoxLayout.Attempt.Lemmas
import BoxLayout.OrderedMap.Lemmas
import BoxLayout.Scalar.Exact
import BoxLayout.Solver.Command
import BoxLayout.Layer.Command
import BoxLayout.Proofs.Invariants
import BoxLayout.Proofs.ClosedForm
import BoxLayout.Proofs.Contents
import BoxLayout.Proofs.Required
import BoxLayout.Proofs.Refusals
import BoxLayout.Proofs.Reads
import BoxLayout.Proofs.Bookkeeping
import BoxLayout.Proofs.Retries
import BoxLayout.Proofs.Orientations
import BoxLayout.Proofs.Frames
import BoxLayout.Proofs.Integrity
import BoxLayout.Proofs.Overlap
import BoxLayout.Proofs.Decision
import BoxLayout.Proofs.Translation
import BoxLayout.Proofs.Tolerance
