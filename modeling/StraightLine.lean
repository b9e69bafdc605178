import StraightLine.Proofs.Fixpoint.Least
import StraightLine.Proofs.Liveness.Reachability
import StraightLine.Proofs.Liveness.Reinsertion
import StraightLine.Proofs.Ranges.Checked
import StraightLine.Proofs.Ranges.Narrowing
import StraightLine.Proofs.Search.Count
import StraightLine.Proofs.Search.Enumeration
import StraightLine.Proofs.Search.Pruning
import StraightLine.Proofs.Search.Schedule
import StraightLine.Proofs.Segment.Placement
import StraightLine.Proofs.Solve.Answer
import StraightLine.Proofs.Solve.Failure
import StraightLine.Proofs.Solve.Observation
import StraightLine.Proofs.Source.RoundTrip
import StraightLine.Proofs.Interval.Remainder
import StraightLine.Proofs.Segment.Sequence
import StraightLine.Proofs.Segment.Uniqueness
import StraightLine.Proofs.Source.Grammar
import StraightLine.Proofs.Text.Word
import StraightLine.Proofs.Source.FirstFault
import StraightLine.Proofs.Division
import StraightLine.Proofs.Ranges.Sharpening
import StraightLine.Proofs.Simplify.Replacement
import StraightLine.Proofs.Source.Joined
