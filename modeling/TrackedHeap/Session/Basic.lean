import TrackedHeap.Manager.Strings
import TrackedHeap.Memory.Operand

/-!
# Sessions

* `Session` : one heap, and the managers that share it;
* `Op` : what a caller asks of a manager, of the heap, or of a string;
* `Session.Step` : what is asked, through which manager, and the name for what that makes;
* `Reply` : what the caller is told;
* `Outcome` : a reply, the session after it, and what is on record.
-/

namespace TrackedHeap

/-- One heap and the managers that share it. -/
structure Session where
  heap : Heap
  managers : List Manager

/-- How a caller is told of a refusal: by nothing at all, or by the error. -/
inductive Form where
  | option
  | result
  deriving DecidableEq, Repr

/-- What a caller can ask for. -/
inductive Op where
  | allocate (request : Request) (form : Form) (location : Location)
  | release (target : Option Address) (location : Location)
  | makeString (source : Operand)
  | concat (first second : Operand)
  | compare (first second : Operand)
  | describe (target : Address)
  | releaseString (target : Address)
  | intoRaw (target : Address)
  | rawToBlock (target : Address)
  | rawToString (target : Address)
  | convertNull
  | write (target : Address) (offset : Nat) (bytes : Bytes)
  | read (target : Address) (offset length : Nat)
  | size (target : Address)
  | distinct (first second : Address)
  | ledger
  | report
  | isTracking
  | describeManager
  | setFailing (failing : Bool)
  deriving DecidableEq

/-- One step: what is asked, through the manager at an index, and the name that memory gets if any
is made. A step may carry a name that it has no use for. -/
structure Session.Step where
  index : Nat
  op : Op
  name : Option Address
  deriving DecidableEq

/-- A string as its holder sees it. -/
structure StringView where
  address : Address
  length : Size
  bytes : Bytes
  withNul : Bytes
  deriving DecidableEq, Repr

namespace StringView

def isEmpty (s : StringView) : Bool :=
  s.length == 0

/-- A string with its fields by name, its bytes in quotes. -/
def fields (s : StringView) : String :=
  "OwnedString \x7b ptr: " ++ s.address.text ++ ", value: " ++
    String.ofList (Text.quoteBytes s.bytes) ++ " \x7d"

end StringView

/-- What a caller is told. -/
inductive Reply where
  | done
  | block
  | absent
  | refused (error : AllocError)
  | string (view : StringView)
  | order (sign : Int)
  | description (view : StringView)
  | kept (sameAddress : Bool)
  /-- Whether a null pointer makes a block, and whether it makes a string. -/
  | conversions (block string : Bool)
  | cells (cells : List Cell)
  | size (size : Size)
  | flag (b : Bool)
  | ledger (ledger? : Option Ledger)
  | text (text : String)
  deriving DecidableEq, Repr

/-- A reply, the session after it, and what is on record. -/
structure Outcome where
  session : Session
  reply : Reply
  trail : Trail

end TrackedHeap
