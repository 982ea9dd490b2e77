import TrackedHeap.Memory.Base
import TrackedHeap.Tracking.Event

/-!
# Allocators

* `Trail` : what a call leaves on record, its events with the layers that recorded them and its
  diagnostic lines, each in order;
* `Allocator` : an allocator without a ledger, or a tracking layer around an allocator;
* `Allocator.stack` : a base with a number of layers;
* `Allocator.After` : what a call on an allocator leaves, also when it fails;
* `Allocator.emit` : a line that a layer writes, whatever becomes of it;
* `Allocator.request` : asks for memory. The base decides and puts the block into the heap, then every
  layer records the allocation, the innermost first;
* `Allocator.release` : gives memory back. Every layer records the release, the outermost first, and
  hands the memory on to the base, which takes it out of the heap;
* `Allocator.report` : the outermost layer writes its ledger.
-/

namespace TrackedHeap

/-- What a call leaves on record: its events, marked by the layers, and its diagnostic lines. -/
structure Trail where
  marks : List Mark
  lines : List Line
  deriving DecidableEq, Repr

namespace Trail

def events (t : Trail) : List Event := t.marks.map Mark.event

def empty : Trail := ⟨[], []⟩

/-- Events that no layer recorded. -/
def ofEvents (events : List Event) : Trail := ⟨events.map (Mark.mk none), []⟩

/-- Events that one layer recorded. -/
def ofLayer (layer : Nat) (events : List Event) : Trail := ⟨events.map (Mark.mk (some layer)), []⟩

def append (a b : Trail) : Trail := ⟨a.marks ++ b.marks, a.lines ++ b.lines⟩

instance : Append Trail := ⟨append⟩

@[simp] theorem marks_append (a b : Trail) : (a ++ b).marks = a.marks ++ b.marks := rfl

@[simp] theorem lines_append (a b : Trail) : (a ++ b).lines = a.lines ++ b.lines := rfl

@[simp] theorem events_append (a b : Trail) : (a ++ b).events = a.events ++ b.events :=
  List.map_append

@[simp] theorem events_empty : empty.events = [] := rfl

@[simp] theorem events_ofEvents (events : List Event) : (ofEvents events).events = events := by
  rw [Trail.events, ofEvents, List.map_map]
  exact List.map_id events

@[simp] theorem events_ofLayer (layer : Nat) (events : List Event) :
    (ofLayer layer events).events = events := by
  rw [Trail.events, ofLayer, List.map_map]
  exact List.map_id events

@[ext] theorem ext {a b : Trail} (marks : a.marks = b.marks) (lines : a.lines = b.lines) :
    a = b := by
  cases a
  cases b
  simp_all

@[simp] theorem append_empty (a : Trail) : a ++ empty = a := by
  ext1
  · rw [marks_append, empty, List.append_nil]
  · rw [lines_append, empty, List.append_nil]

end Trail

/-- An allocator without a ledger, or a layer that keeps a ledger around another allocator. -/
inductive Allocator where
  | base (answers : Answers)
  | tracked (inner : Allocator) (ledger : Ledger)

namespace Allocator

/-- A base with a number of layers around it, their ledgers empty. -/
def stack (b : Base) : Nat → Allocator
  | 0 => base b.answers
  | n + 1 => tracked (stack b n) Ledger.empty

/-- The number of layers. -/
def depth : Allocator → Nat
  | base _ => 0
  | tracked inner _ => inner.depth + 1

/-- The ledger of the outermost layer. -/
def ledger? : Allocator → Option Ledger
  | base _ => none
  | tracked _ ledger => some ledger

def isTracking (a : Allocator) : Bool :=
  a.ledger?.isSome

/-- What a call on an allocator leaves: its value, which may be an error, the allocator and the heap,
and what is on record. -/
structure After (α : Type) where
  value : α
  allocator : Allocator
  heap : Heap
  trail : Trail

/-- A layer writes a line. It goes on in the same way when that fails. -/
def emit (sink : Sink) (line : Line) : Trail :=
  let (_, lines) := sink.write line
  ⟨[], lines⟩

/-- What a layer puts on record for an allocation. -/
def allocationTrail (sink : Sink) (layer : Nat) (size : Size) (address : Address)
    (location : Location) : Trail :=
  .ofLayer layer [.trackedAllocation size address location] ++
    emit sink (.alloc size address location)

/-- What a layer puts on record for a release, after which its ledger stands as given. A warning
comes first when the ledger is overdrawn. -/
def releaseTrail (sink : Sink) (layer : Nat) (ledger : Ledger) (address : Address)
    (location : Location) : Trail :=
  .ofLayer layer
      ((if ledger.isOverdrawn then [.ledgerOverdrawn ledger.liveAllocations] else []) ++
        [.trackedRelease address location ledger.liveAllocations]) ++
    emit sink (.free address location)

/-- Asks for memory at a free address. A layer records the allocation once what is inside it has
granted the request, and leaves a refusal as it is. -/
def request (sink : Sink) (r : Request) (address : Address) (location : Location) :
    Allocator → Heap → After (Except AllocError Unit)
  | base answers, heap =>
    match answers r with
    | .ok () => ⟨.ok (), base answers, heap.insert address ⟨.block, .ofRequest r⟩, .empty⟩
    | .error e => ⟨.error e, base answers, heap, .empty⟩
  | tracked inner ledger, heap =>
    match inner.request sink r address location heap with
    | ⟨.ok (), inner', heap, trail⟩ =>
      ⟨.ok (), tracked inner' (ledger.recordAllocation r.product), heap,
        trail ++ allocationTrail sink inner.depth r.product address location⟩
    | ⟨.error e, inner', heap, trail⟩ => ⟨.error e, tracked inner' ledger, heap, trail⟩

/-- Gives memory back. Nothing happens without an address. -/
def release (sink : Sink) (location : Location) :
    Allocator → Heap → (target : Option Address) → After Unit
  | base answers, heap, none => ⟨(), base answers, heap, .empty⟩
  | base answers, heap, some address => ⟨(), base answers, heap.erase address, .empty⟩
  | tracked inner ledger, heap, none => ⟨(), tracked inner ledger, heap, .empty⟩
  | tracked inner ledger, heap, some address =>
    let ledger := ledger.recordRelease
    let trail := releaseTrail sink inner.depth ledger address location
    let after := inner.release sink location heap (some address)
    ⟨(), tracked after.allocator ledger, after.heap, trail ++ after.trail⟩

/-- The report of the outermost layer. -/
def report (sink : Sink) : Allocator → Trail
  | base _ => .empty
  | tracked _ ledger => emit sink (.stats ledger)

end Allocator

end TrackedHeap
