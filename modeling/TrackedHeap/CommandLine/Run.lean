import TrackedHeap.CommandLine.Command
import TrackedHeap.Manager.Environment
import TrackedHeap.Manager.Strings
import TrackedHeap.Output.Device

/-!
# Running a command

* `Failure` : why a command fails, with its sentence (`Failure.message`);
* `configure` : the configuration of a command, which the flag or the environment may turn on;
* `Finished` : what a command printed, what is on record, and how it ended;
* `Command.run` : a command with a manager;
* `Invocation.execute` : a command line with its host and environment, from the configuration to the
  report.
-/

namespace TrackedHeap.CommandLine

/-- Why a command fails. -/
inductive Failure where
  | configuration (error : ConfigError)
  /-- An argument with a NUL, and where the first one is. -/
  | nulInArgument (position : Nat)
  | concatenation (error : AllocError)
  | allocation (error : AllocError)
  deriving DecidableEq, Repr

def Failure.message : Failure → String
  | configuration error => "Invalid configuration: " ++ error.message
  | nulInArgument position =>
    "Invalid string argument: nul byte found in provided data at position: " ++ position.repr
  | concatenation error => "Concat failed: " ++ error.message
  | allocation error => "Allocation failed: " ++ error.message

/-- The configuration of a command. The flag turns tracking on, whatever the environment says, but
the environment has to say something valid. -/
def configure (default : Configuration) (value? : Option Bytes) (flag : Bool) :
    Except Failure Configuration :=
  match Configuration.ofVariable default value? with
  | .ok c => .ok ⟨c.debugMemory || flag⟩
  | .error e => .error (.configuration e)

def toText (argument : Option String) : Except Failure (Option CText) :=
  match argument with
  | none => .ok none
  | some s =>
    match CText.ofBytes? (Utf8.ofString s) with
    | some t => .ok (some t)
    | none => .error (.nulInArgument ((Utf8.ofString s).idxOf 0))

/-- What a command printed, what is on record, and how it ended. -/
structure Finished where
  manager : Manager
  heap : Heap
  printed : Bytes
  trail : Trail
  result : Except Failure Unit

/-- The address of the only memory that a command asks for. -/
def onlyAddress : Address := ⟨"1"⟩

namespace Command

def printed (m : Manager) (heap : Heap) (pieces : Output.Pieces) : Finished :=
  let (bytes, events) := Output.Device.working.print pieces
  ⟨m, heap, bytes, .ofEvents events, .ok ()⟩

def failed (m : Manager) (heap : Heap) (trail : Trail) (failure : Failure) : Finished :=
  ⟨m, heap, [], trail, .error failure⟩

/-- A command that prints while it holds memory, and then gives the memory back. -/
def printedHolding (m : Manager) (heap : Heap) (trail : Trail) (pieces : Output.Pieces) :
    Finished :=
  let (bytes, events) := Output.Device.working.print pieces
  let result := m.release heap (some onlyAddress) .caller
  ⟨result.manager, result.heap, bytes, trail ++ .ofEvents events ++ result.trail, .ok ()⟩

/-- Joins two texts, prints what they make, and gives it back. -/
def runConcat (m : Manager) (heap : Heap) (a b : Option CText) : Finished :=
  match m.concat heap a b onlyAddress .caller with
  | ⟨.error e, m, heap, trail⟩ => failed m heap trail (.concatenation e)
  | ⟨.ok none, m, heap, trail⟩ => ⟨m, heap, [], trail, .ok ()⟩
  | ⟨.ok (some _), m, heap, trail⟩ =>
    printedHolding m heap trail
      (Output.stringLine ((heap.find? onlyAddress).bind Slot.string?))

/-- Asks for memory, prints its address, and gives it back. -/
def runAlloc (m : Manager) (heap : Heap) (request : Request) : Finished :=
  match m.request heap request onlyAddress .caller with
  | ⟨.error e, m, heap, trail⟩ => failed m heap trail (.allocation e)
  | ⟨.ok (), m, heap, trail⟩ =>
    printedHolding m heap trail
      (Output.stringLine (some (Utf8.ofString onlyAddress.text)))

def run (m : Manager) (heap : Heap) : Command → Finished
  | printInt value => printed m heap (Output.intLine value)
  | printDouble value => printed m heap (Output.doubleLine value)
  | printString value =>
    match toText value with
    | .error e => failed m heap .empty e
    | .ok text => printed m heap (Output.stringLine (text.map CText.bytes))
  | concat a b =>
    match toText a, toText b with
    | .error e, _ => failed m heap .empty e
    | .ok _, .error e => failed m heap .empty e
    | .ok a, .ok b => runConcat m heap a b
  | compare a b =>
    match toText a, toText b with
    | .error e, _ => failed m heap .empty e
    | .ok _, .error e => failed m heap .empty e
    | .ok a, .ok b => printed m heap (Output.intLine (Int32.ofInt (CText.compare a b)))
  | alloc size none => runAlloc m heap (.block size)
  | alloc size (some count) => runAlloc m heap (.array size count)

end Command

/-- How a command line ended. Whether memory was tracked is known unless the configuration
failed. -/
structure Report where
  tracking : Option Bool
  printed : Bytes
  trail : Trail
  result : Except Failure Unit

/-- Runs a command line on the base of a host, in an environment. A manager that is tracking reports
its ledger after success. -/
def Invocation.execute (i : Invocation) (base : Base) (default : Configuration)
    (value? : Option Bytes) : Report :=
  match configure default value? i.debugMemory with
  | .error e => ⟨none, [], .empty, .error e⟩
  | .ok c =>
    let f := i.command.run (Manager.ofConfiguration base c) []
    let report : Trail :=
      match f.result with
      | .ok () => f.manager.report
      | .error _ => .empty
    ⟨some f.manager.isTracking, f.printed, Manager.creationTrail c ++ f.trail ++ report,
      f.result⟩

end TrackedHeap.CommandLine
