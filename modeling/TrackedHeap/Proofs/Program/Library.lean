import TrackedHeap.Program.Run
import TrackedHeap.Proofs.Tracking.Relocation
import TrackedHeap.Session.Run

/-!
# The library in place of C

A caller of the library who does what a C call does is handed new memory as a block or a string,
which he holds raw from then on, and gives raw memory back as a block.

* `LibraryCall`, `Session.library` : what a caller of the library does in place of one C call;
* `Call.counterpart?` : the library call in place of a C call;
* `Reply.answer?` : what a reply is to a caller who knows addresses only;
* `Session.libraryPerform`, `Session.libraryRun` : the library in place of a statement, and of a run;
* `Program.Entry.Agrees` : two entries that show the same, up to the locations of their lines.
-/

namespace TrackedHeap

/-! ## The library in place of C -/

/-- What a caller of the library does in place of one C call. -/
inductive LibraryCall where
  /-- Makes something and holds it as raw memory. -/
  | make (op : Op) (name : Address)
  /-- Holds raw memory as a block and releases that. -/
  | giveBack (target : Pointer)
  | ask (op : Op)
  | print (pieces : Output.Pieces)

/-- A text that may be absent, as an operand. -/
def Operand.ofText : Option CText → Operand
  | none => absent
  | some t => text t

/-- The library call in place of a C call, if the arguments of that are valid. All C strings are read
up to their first NUL. -/
def Call.counterpart? (debugFunctions : Bool) (heap : Heap) (name : Option Address) :
    Call → Option LibraryCall
  | .malloc size => do
    let name ← name
    return .make (.allocate (.block size) .option .caller) name
  | .allocArray elementSize count => do
    let name ← name
    return .make (.allocate (.array elementSize count) .option .caller) name
  | .free target => if Program.isValid heap target then some (.giveBack target) else none
  | .printInt value => some (.print (Output.intLine value))
  | .printDouble value => some (.print (Output.doubleLine value))
  | .printString source => do
    let source ← source.upToNul? heap
    return .print (Output.stringLine (source.map CText.bytes))
  | .allocString source => do
    let name ← name
    let source ← source.upToNul? heap
    return .make (.makeString (.ofText source)) name
  | .concatString first second => do
    let name ← name
    let first ← first.upToNul? heap
    let second ← second.upToNul? heap
    return .make (.concat (.ofText first) (.ofText second)) name
  | .compareString first second => do
    let first ← first.upToNul? heap
    let second ← second.upToNul? heap
    return .ask (.compare (.ofText first) (.ofText second))
  | .debugMalloc size file _ =>
    if debugFunctions then do
      let name ← name
      let _ ← file.upToNul? heap
      return .make (.allocate (.block size) .option .caller) name
    else none
  | .debugFree target file _ =>
    if debugFunctions then do
      let _ ← file.upToNul? heap
      if Program.isValid heap target then some (.giveBack target) else none
    else none
  | .printMemoryStats => if debugFunctions then some (.ask .report) else none
  | .release target => if Program.isValid heap target then some (.giveBack target) else none
  | .write target offset bytes => some (.ask (.write target offset bytes))
  | .read target offset length => some (.ask (.read target offset length))
  | .isTracking => some (.ask .isTracking)

/-- What a reply is to a caller who knows addresses only: nothing at all and an error are both
null. -/
def Reply.answer? : Reply → Option Answer
  | .done => some .done
  | .block => some .pointer
  | .absent => some .null
  | .refused _ => some .null
  | .string view => some (.text view.bytes)
  | .order sign => some (.number sign)
  | .cells read => some (.cells read)
  | .flag b => some (.flag b)
  | _ => none

def Session.Entry.answered (e : Session.Entry) : Program.Entry :=
  ⟨e.reply.bind Reply.answer?, [], e.trail, e.ledger⟩

namespace Session

/-- One call on the library, through the first manager of a session. -/
def library (s : Session) : LibraryCall → Session × Program.Entry
  | .make op name =>
    let (s, entry) := s.perform ⟨0, op, some name⟩
    ((s.perform ⟨0, .intoRaw name, none⟩).1, entry.answered)
  | .giveBack none =>
    let (s, entry) := s.perform ⟨0, .release none .caller, none⟩
    (s, entry.answered)
  | .giveBack (some address) =>
    let (s, _) := s.perform ⟨0, .rawToBlock address, none⟩
    let (s, entry) := s.perform ⟨0, .release (some address) .caller, none⟩
    (s, entry.answered)
  | .ask op =>
    let (s, entry) := s.perform ⟨0, op, none⟩
    (s, entry.answered)
  | .print pieces =>
    let (printed, events) := Output.Device.working.print pieces
    (s, ⟨some .done, printed, .ofEvents events, s.ledger? 0⟩)

/-- The library call in place of one statement. Where the statement is not valid, nothing is
called. -/
def libraryPerform (debugFunctions : Bool) (s : Session) (statement : Program.Statement) :
    Session × Program.Entry :=
  if statement.name.all s.heap.isFree then
    match statement.call.counterpart? debugFunctions s.heap statement.name with
    | some call => s.library call
    | none => (s, (s.rejection 0).answered)
  else (s, (s.rejection 0).answered)

def libraryRun (debugFunctions : Bool) (s : Session) :
    List Program.Statement → Session × List Program.Entry
  | [] => (s, [])
  | statement :: rest =>
    let (s, entry) := s.libraryPerform debugFunctions statement
    let (s, entries) := s.libraryRun debugFunctions rest
    (s, entry :: entries)

end Session

/-! ## Agreement -/

/-- Two entries show the same, up to the events and to the locations of the lines. -/
structure Program.Entry.Agrees (e e' : Program.Entry) : Prop where
  answer : e.answer = e'.answer
  printed : e.printed = e'.printed
  lines : e.trail.unlocated = e'.trail.unlocated
  ledger : e.ledger = e'.ledger

end TrackedHeap
