import TrackedHeap.Memory.Heap
import TrackedHeap.Tracking.Ledger

/-!
# Diagnostic lines

* `Location` : where in a program memory is asked for or given back;
* `Line` : one line of the diagnostic stream;
* `Line.text` : the line as it is written, without its line feed;
* `Line.stream` : lines as they follow one another in the stream;
* `Sink` : where diagnostic lines go, and `Sink.write` what becomes of one.
-/

namespace TrackedHeap

/-- Where a request or a release comes from. -/
inductive Location where
  /-- A place in the calling program that only the program itself knows. -/
  | caller
  /-- A place inside the C interface. -/
  | boundary
  /-- A line of a file, as the caller names it. -/
  | place (file : String) (line : UInt32)
  deriving DecidableEq, Repr

namespace Location

def unknownFile : String := "<unknown>"

def unknown : Location := .place unknownFile 0

def text : Location → String
  | caller => "@caller"
  | boundary => "@ffi"
  | place file line => file ++ ":" ++ line.toNat.repr

end Location

/-- A line of the diagnostic stream. -/
inductive Line where
  | alloc (size : Size) (address : Address) (location : Location)
  | free (address : Address) (location : Location)
  | stats (ledger : Ledger)
  deriving DecidableEq, Repr

namespace Line

def text : Line → String
  | alloc size address location =>
    "ALLOC: " ++ size.text ++ " bytes at " ++ address.text ++ " (" ++ location.text ++ ")"
  | free address location => "FREE: " ++ address.text ++ " (" ++ location.text ++ ")"
  | stats ledger => ledger.statistics

/-- The diagnostic stream: every line with a line feed after it. -/
def stream (lines : List Line) : String :=
  String.join (lines.map fun line => line.text ++ "\n")

end Line

/-- Where diagnostic lines go. -/
inductive Sink where
  | standardError
  /-- A writer of the caller's own, which may be failing. -/
  | writer (failing : Bool)
  deriving DecidableEq, Repr

/-- What becomes of a line that is written. -/
inductive Delivery where
  | taken
  | failed
  deriving DecidableEq, Repr

namespace Sink

/-- A sink takes what is written unless it is failing. -/
def isWorking : Sink → Bool
  | standardError => true
  | writer failing => !failing

/-- Writes a line: what becomes of it, and what of it reaches the stream. -/
def write (sink : Sink) (line : Line) : Delivery × List Line :=
  if sink.isWorking then (.taken, [line]) else (.failed, [])

end Sink

end TrackedHeap
