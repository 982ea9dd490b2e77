import TrackedHeap.Memory.Access
import TrackedHeap.Session.Basic

/-!
# Steps of a session

* `Session.view?` : the string at an address;
* `Session.through?`, `Session.operate?` : what one operation does through one manager, with the name
  for what it makes;
* `Session.step?` : what one step does. It is `none`, and the session stays as it is, when the step
  does not apply: a name that is missing or in use already, an address that is not in use, or memory
  held in another way.
-/

namespace TrackedHeap

namespace Session

def after (s : Session) (index : Nat) {α : Type} (result : After α) : Session :=
  ⟨result.heap, s.managers.set index result.manager⟩

def view? (heap : Heap) (address : Address) : Option StringView := do
  let slot ← heap.find? address
  let bytes ← slot.string?
  let withNul ← slot.stringWithNul?
  match slot.kind with
  | .string length => some ⟨address, length, bytes, withNul⟩
  | _ => none

/-- Whether a release can take its target: nothing, or a block. -/
def isReleasable (heap : Heap) : Option Address → Bool
  | none => true
  | some address => (heap.find? address).any fun slot => slot.kind == .block

def stringReply? (heap : Heap) (address : Address) :
    Except AllocError (Option Size) → Option Reply
  | .error e => some (.refused e)
  | .ok none => some .absent
  | .ok (some _) => (view? heap address).map .string

/-- The heap with a changed slot at an address, unless the change does not apply. -/
def replace? (heap : Heap) (address : Address) (changed : Option Slot) : Option Heap :=
  changed.map fun slot => heap.update address fun _ => slot

def answer (s : Session) (reply : Reply) : Outcome :=
  ⟨s, reply, .empty⟩

def allocate (s : Session) (index : Nat) (m : Manager) (request : Request) (form : Form)
    (location : Location) (name : Address) : Outcome :=
  match form with
  | .option =>
    let result := m.tryRequest s.heap request name location
    let reply : Reply := if result.value.isSome then .block else .absent
    ⟨s.after index result, reply, result.trail⟩
  | .result =>
    let result := m.request s.heap request name location
    let reply : Reply :=
      match result.value with
      | .ok () => .block
      | .error e => .refused e
    ⟨s.after index result, reply, result.trail⟩

def release (s : Session) (index : Nat) (m : Manager) (target : Option Address)
    (location : Location) : Outcome :=
  let result := m.release s.heap target location
  ⟨s.after index result, .done, result.trail⟩

def build? (s : Session) (index : Nat) (name : Address)
    (result : After (Except AllocError (Option Size))) : Option Outcome := do
  let reply ← stringReply? result.heap name result.value
  return ⟨s.after index result, reply, result.trail⟩

/-- What an operation does through a manager, the one at the given index. What it makes gets the
given name, which is a free one. -/
def through? (s : Session) (index : Nat) (m : Manager) (name : Option Address) :
    Op → Option Outcome
  | .allocate request form location => do
    let name ← name
    return s.allocate index m request form location name
  | .release target location =>
    if isReleasable s.heap target then some (s.release index m target location) else none
  | .makeString source => do
    let name ← name
    let source ← source.string? s.heap
    s.build? index name (m.makeString s.heap source name .caller)
  | .concat first second => do
    let name ← name
    let first ← first.string? s.heap
    let second ← second.string? s.heap
    s.build? index name (m.concat s.heap first second name .caller)
  | .compare first second => do
    let first ← first.string? s.heap
    let second ← second.string? s.heap
    return s.answer (.order (CText.compare first second))
  | .describe target => do
    let view ← view? s.heap target
    return s.answer (.description view)
  | .releaseString target => do
    let slot ← s.heap.find? target
    if slot.kind.isString then some (s.release index m (some target) .caller) else none
  | .intoRaw target => do
    let heap ← replace? s.heap target ((s.heap.find? target).bind Slot.toRaw?)
    return ⟨{ s with heap }, .kept (heap.find? target).isSome, .empty⟩
  | .rawToBlock target => do
    let heap ← replace? s.heap target (s.heap.blockOf? (some target))
    return ⟨{ s with heap }, .block, .empty⟩
  | .rawToString target => do
    let heap ← replace? s.heap target (s.heap.stringOf? (some target))
    let view ← view? heap target
    return ⟨{ s with heap }, .string view, .empty⟩
  | .convertNull =>
    some (s.answer
      (.conversions (s.heap.blockOf? none).isSome (s.heap.stringOf? none).isSome))
  | .write target offset bytes => do
    let heap ← replace? s.heap target ((s.heap.find? target).bind (·.write? offset bytes))
    return ⟨{ s with heap }, .done, .empty⟩
  | .read target offset length => do
    let slot ← s.heap.find? target
    let cells ← slot.read? offset length
    return s.answer (.cells cells)
  | .size target => do
    let slot ← s.heap.find? target
    return s.answer (.size slot.region.size)
  | .distinct first second => do
    let _ ← s.heap.find? first
    let _ ← s.heap.find? second
    return s.answer (.flag (first ≠ second))
  | .ledger => some (s.answer (.ledger m.ledger?))
  | .report => some ⟨s, .done, m.report⟩
  | .isTracking => some (s.answer (.flag m.isTracking))
  | .describeManager => some (s.answer (.text m.fields))
  | .setFailing failing =>
    match m.sink with
    | .standardError => none
    | .writer _ =>
      some ⟨{ s with managers := s.managers.set index { m with sink := .writer failing } },
        .done, .empty⟩

/-- What an operation does through the manager at an index. -/
def operate? (s : Session) (index : Nat) (op : Op) (name : Option Address) : Option Outcome := do
  let m ← s.managers[index]?
  s.through? index m name op

/-- What one step does. The name that it carries has to be free, also where nothing is made. -/
def step? (s : Session) (step : Step) : Option Outcome :=
  if step.name.all s.heap.isFree then s.operate? step.index step.op step.name else none

end Session

end TrackedHeap
