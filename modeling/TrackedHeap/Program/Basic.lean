import TrackedHeap.Manager.Environment
import TrackedHeap.Manager.Strings
import TrackedHeap.Memory.Access
import TrackedHeap.Memory.Operand
import TrackedHeap.Output.Device

/-!
# Programs that use the C interface

* `Program` : one manager for the whole program, its heap, and whether the debugging functions are
  there;
* `Program.start` : the program with the manager that the environment asks for;
* `Call` : a call of a C function with its arguments, or an access to memory it has handed out;
* `Program.Statement` : a call, and the name for the memory it makes;
* `Answer` : what a call gives back;
* `Returned` : the program after a call, what it gave back and printed, and what is on record;
* `Location.named` : the location that a file and a line name.

All memory is held raw: a caller in C knows addresses only.
-/

namespace TrackedHeap

/-- A program that uses the C interface. -/
structure Program where
  debugFunctions : Bool
  heap : Heap
  manager : Manager

/-- A program on the base of its host with no memory in use, and the record of its manager's
creation. The debugging functions are there when tracking is the default. -/
def Program.start (base : Base) (default : Configuration) (value? : Option Bytes) :
    Program × Trail :=
  let (manager, trail) := Manager.ofVariable base default value?
  (⟨default.debugMemory, [], manager⟩, trail)

/-- A call with its arguments. -/
inductive Call where
  | malloc (size : Size)
  | allocArray (elementSize count : Size)
  | free (target : Pointer)
  | printInt (value : Int32)
  | printDouble (value : Double)
  | printString (source : Operand)
  | allocString (source : Operand)
  | concatString (first second : Operand)
  | compareString (first second : Operand)
  | debugMalloc (size : Size) (file : Operand) (line : Int32)
  | debugFree (target : Pointer) (file : Operand) (line : Int32)
  | printMemoryStats
  /-- A release by a caller that is not in C. -/
  | release (target : Pointer)
  | write (target : Address) (offset : Nat) (bytes : Bytes)
  | read (target : Address) (offset length : Nat)
  | isTracking
  deriving DecidableEq

/-- A call, and the name that memory gets if the call makes any. A statement may carry a name that
it has no use for. -/
structure Program.Statement where
  call : Call
  name : Option Address
  deriving DecidableEq

/-- What a call gives back. -/
inductive Answer where
  | done
  | null
  | pointer
  | text (bytes : Bytes)
  | number (n : Int)
  | cells (cells : List Cell)
  | flag (b : Bool)
  deriving DecidableEq, Repr

/-- The program after a call, what it gave back and printed, and what is on record. -/
structure Returned where
  program : Program
  answer : Answer
  printed : Bytes
  trail : Trail

/-- The location that a file and a line name. No file is an unknown one, a file that is not UTF-8 is
shown with replacement characters, and a negative line counts as zero. -/
def Location.named (file : Option CText) (line : Int32) : Location :=
  let name :=
    match file with
    | none => unknownFile
    | some text => String.ofList (Utf8.decodeLossy text.bytes)
  .place name (UInt32.ofNat line.toInt.toNat)

end TrackedHeap
