import TrackedHeap.Configuration
import TrackedHeap.Tracking.Diagnostic

/-!
# Events

* `Level` : how severe an event is;
* `Event` : what happens inside the library that is worth a record;
* `Event.text` : the event in one line, its level first;
* `Event.atLeast` : the events of at least a level;
* `Mark` : an event with the layer that recorded it.
-/

namespace TrackedHeap

/-- The severity of an event. -/
inductive Level where
  | trace
  | debug
  | warn
  deriving DecidableEq, Repr

namespace Level

def rank : Level → Nat
  | trace => 0
  | debug => 1
  | warn => 2

def text : Level → String
  | trace => "TRACE"
  | debug => "DEBUG"
  | warn => "WARN"

end Level

/-- Why a write to the standard output fails. -/
inductive DeviceError where
  | noSpace
  deriving DecidableEq, Repr

def DeviceError.message : DeviceError → String
  | .noSpace => "No space left on device (os error 28)"

/-- What happens inside the library that is worth a record. -/
inductive Event where
  | creatingManager (debugMemory : Bool)
  | environmentIgnored (error : ConfigError)
  | trackedAllocation (size : Size) (address : Address) (location : Location)
  | trackedRelease (address : Address) (location : Location) (live : Int64)
  | ledgerOverdrawn (live : Int64)
  | blockRefused (error : AllocError)
  | arrayRefused (error : AllocError)
  | nullBlock (error : AllocError)
  | nullString (error : AllocError)
  | outputFailed (error : DeviceError)
  deriving DecidableEq, Repr

namespace Event

def level : Event → Level
  | trackedAllocation .. => .trace
  | trackedRelease .. => .trace
  | environmentIgnored _ => .warn
  | ledgerOverdrawn _ => .warn
  | _ => .debug

def flagText (b : Bool) : String :=
  if b then "true" else "false"

/-- The message of an event and its fields, each with its name. -/
def body : Event → String
  | creatingManager debugMemory => "creating runtime debug_memory=" ++ flagText debugMemory
  | environmentIgnored error =>
    "ignoring runtime configuration from environment err=" ++ error.message
  | trackedAllocation size address location =>
    "tracked allocation size=" ++ size.text ++ " addr=" ++ address.text ++ " location=" ++
      location.text
  | trackedRelease address location live =>
    "tracked release addr=" ++ address.text ++ " location=" ++ location.text ++ " live=" ++
      live.toInt.repr
  | ledgerOverdrawn live =>
    "allocation ledger went negative (double free or untracked block) live=" ++ live.toInt.repr
  | blockRefused error => "allocation failed err=" ++ error.message
  | arrayRefused error => "array allocation failed err=" ++ error.message
  | nullBlock error => "allocation failed, returning NULL err=" ++ error.message
  | nullString error => "string allocation failed, returning NULL err=" ++ error.message
  | outputFailed error => "failed to write to stdout err=" ++ error.message

def text (e : Event) : String :=
  e.level.text ++ " " ++ e.body

def atLeast (level : Level) (events : List Event) : List Event :=
  events.filter fun e => level.rank ≤ e.level.rank

end Event

/-- An event, and the layer that recorded it, known by the number of layers inside that one. What no
layer recorded has none. The layer appears in no text. -/
structure Mark where
  layer : Option Nat
  event : Event
  deriving DecidableEq, Repr

end TrackedHeap
