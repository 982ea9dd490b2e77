import TrackedHeap.Output.Line
import TrackedHeap.Tracking.Event

/-!
# The standard output

* `Device` : an output that takes everything, or one without space;
* `Device.print` : what reaches the output when a value is printed, and what is on record. A failed
  write is recorded and otherwise ignored.
-/

namespace TrackedHeap.Output

/-- Where printed values go. -/
inductive Device where
  | working
  | full
  deriving DecidableEq, Repr

/-- Prints pieces. Without any piece the device is not touched. -/
def Device.print (device : Device) (pieces : Pieces) : Bytes × List Event :=
  match device, pieces with
  | _, [] => ([], [])
  | working, pieces => (bytesOf pieces, [])
  | full, _ => ([], [.outputFailed .noSpace])

end TrackedHeap.Output
