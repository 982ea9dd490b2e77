import TrackedHeap.Tracking.Allocator

/-!
# Memory managers

* `Manager` : an allocator and the sink of its layers;
* `After` : what a call on a manager leaves;
* `Manager.layered` : a base in any number of layers; `Manager.plain`, `Manager.tracked` : in none,
  and in one;
* `Manager.ofConfiguration` : the manager that a configuration asks for, on the base of the host;
* `Manager.request`, `Manager.tryRequest` : asks for memory and gives the error or nothing;
* `Manager.release` : gives memory back;
* `Manager.report` : writes the ledger to the sink.
-/

namespace TrackedHeap

/-- A memory manager: an allocator and the sink of its diagnostic lines. -/
structure Manager where
  allocator : Allocator
  sink : Sink

/-- What a call on a manager leaves: its value, the manager and the heap, and what is on record. -/
structure After (α : Type) where
  value : α
  manager : Manager
  heap : Heap
  trail : Trail

namespace Manager

/-- A base in a number of layers, which share a sink. -/
def layered (base : Base) (layers : Nat) (sink : Sink) : Manager := ⟨.stack base layers, sink⟩

def plain (base : Base) : Manager := layered base 0 .standardError

def tracked (base : Base) (sink : Sink) : Manager := layered base 1 sink

/-- The manager of a configuration, on the base that the host provides. -/
def ofConfiguration (base : Base) (c : Configuration) : Manager :=
  if c.debugMemory then tracked base .standardError else plain base

def creationTrail (c : Configuration) : Trail :=
  .ofEvents [.creatingManager c.debugMemory]

def ledger? (m : Manager) : Option Ledger :=
  m.allocator.ledger?

def isTracking (m : Manager) : Bool :=
  m.allocator.isTracking

/-- The fields of a manager by name, of which it shows the ledger alone. -/
def fieldsOf : Option Ledger → String
  | none => "Runtime \x7b ledger: None \x7d"
  | some ledger => "Runtime \x7b ledger: Some(" ++ ledger.fields ++ ") \x7d"

def fields (m : Manager) : String :=
  fieldsOf m.ledger?

/-- A call on the allocator of a manager, as one on the manager. -/
def afterCall (m : Manager) {α : Type} (after : Allocator.After α) : After α :=
  ⟨after.value, { m with allocator := after.allocator }, after.heap, after.trail⟩

/-- Asks for memory at a free address. -/
def request (m : Manager) (heap : Heap) (r : Request) (address : Address) (location : Location) :
    After (Except AllocError Unit) :=
  m.afterCall (m.allocator.request m.sink r address location heap)

def refusal : Request → AllocError → Event
  | .block _, e => .blockRefused e
  | .array _ _, e => .arrayRefused e

/-- Asks for memory at a free address, and records a refusal instead of giving its reason. -/
def tryRequest (m : Manager) (heap : Heap) (r : Request) (address : Address)
    (location : Location) : After (Option Unit) :=
  match m.request heap r address location with
  | ⟨.ok (), m, heap, trail⟩ => ⟨some (), m, heap, trail⟩
  | ⟨.error e, m, heap, trail⟩ => ⟨none, m, heap, trail ++ .ofEvents [refusal r e]⟩

/-- Gives memory back. Nothing happens without an address. -/
def release (m : Manager) (heap : Heap) (target : Option Address) (location : Location) :
    After Unit :=
  m.afterCall (m.allocator.release m.sink location heap target)

def report (m : Manager) : Trail :=
  m.allocator.report m.sink

end Manager

end TrackedHeap
