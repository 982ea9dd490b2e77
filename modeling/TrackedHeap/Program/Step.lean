import TrackedHeap.Program.Basic

/-!
# Calls of the C interface

* `After.orNull`, `After.stringOrNull` : the result of a call on the manager as a pointer, null
  where it failed;
* `Program.call?` : what a call does, with the name for what it makes;
* `Program.statement?` : what a statement does. It is `none`, and the program stays as it is, when
  its name is missing or in use already, the arguments of its call are not valid or the function is
  not there.
-/

namespace TrackedHeap

namespace After

/-- A result as a pointer to raw memory. A refusal is null, with the given event on record. -/
def orNull {α : Type} (result : After (Except AllocError α)) (name : Address)
    (refusal : AllocError → Event) : After Bool :=
  match result with
  | ⟨.ok _, m, heap, trail⟩ =>
    ⟨true, m, heap.update name fun slot => { slot with kind := .raw }, trail⟩
  | ⟨.error e, m, heap, trail⟩ => ⟨false, m, heap, trail ++ .ofEvents [refusal e]⟩

/-- A string as a pointer to raw memory. No string at all is null too. -/
def stringOrNull (result : After (Except AllocError (Option Size))) (name : Address) :
    After Bool :=
  match result with
  | ⟨.ok none, m, heap, trail⟩ => ⟨false, m, heap, trail⟩
  | result => result.orNull name .nullString

end After

namespace Program

/-- Whether a pointer can be given back: null, or an address in use. -/
def isValid (heap : Heap) : Pointer → Bool
  | none => true
  | some address => !heap.isFree address

/-- The program after a call on its manager that printed nothing. -/
def returned (p : Program) {α : Type} (result : After α) (answer : Answer) : Returned :=
  ⟨{ p with manager := result.manager, heap := result.heap }, answer, [], result.trail⟩

def answer (p : Program) (answer : Answer) : Returned :=
  ⟨p, answer, [], .empty⟩

def allocate (p : Program) (r : Request) (name : Address) (location : Location) : Returned :=
  let result := (p.manager.request p.heap r name location).orNull name .nullBlock
  p.returned result (if result.value then .pointer else .null)

def free? (p : Program) (target : Pointer) (location : Location) : Option Returned :=
  if isValid p.heap target then
    some (p.returned (p.manager.release p.heap target location) .done)
  else none

def build? (p : Program) (name : Address) (result : After (Except AllocError (Option Size))) :
    Option Returned :=
  let result := result.stringOrNull name
  if result.value then do
    let slot ← result.heap.find? name
    let bytes ← slot.region.text?
    return p.returned result (.text bytes)
  else some (p.returned result .null)

def print (p : Program) (pieces : Output.Pieces) : Returned :=
  let (printed, events) := Output.Device.working.print pieces
  ⟨p, .done, printed, .ofEvents events⟩

/-- What a call does. Memory that it makes gets the given name, which is a free one. -/
def call? (p : Program) (name : Option Address) : Call → Option Returned
  | .malloc size => do
    let name ← name
    return p.allocate (.block size) name .unknown
  | .allocArray elementSize count => do
    let name ← name
    return p.allocate (.array elementSize count) name .unknown
  | .free target => p.free? target .unknown
  | .printInt value => some (p.print (Output.intLine value))
  | .printDouble value => some (p.print (Output.doubleLine value))
  | .printString source => do
    let source ← source.upToNul? p.heap
    return p.print (Output.stringLine (source.map CText.bytes))
  | .allocString source => do
    let name ← name
    let source ← source.upToNul? p.heap
    p.build? name (p.manager.makeString p.heap source name .boundary)
  | .concatString first second => do
    let name ← name
    let first ← first.upToNul? p.heap
    let second ← second.upToNul? p.heap
    p.build? name (p.manager.concat p.heap first second name .boundary)
  | .compareString first second => do
    let first ← first.upToNul? p.heap
    let second ← second.upToNul? p.heap
    return p.answer (.number (CText.compare first second))
  | .debugMalloc size file line =>
    if p.debugFunctions then do
      let name ← name
      let file ← file.upToNul? p.heap
      return p.allocate (.block size) name (.named file line)
    else none
  | .debugFree target file line =>
    if p.debugFunctions then do
      let file ← file.upToNul? p.heap
      p.free? target (.named file line)
    else none
  | .printMemoryStats =>
    if p.debugFunctions then some ⟨p, .done, [], p.manager.report⟩ else none
  | .release target => p.free? target .caller
  | .write target offset bytes => do
    let slot ← p.heap.find? target
    let changed ← slot.write? offset bytes
    return ⟨{ p with heap := p.heap.update target fun _ => changed }, .done, [], .empty⟩
  | .read target offset length => do
    let slot ← p.heap.find? target
    let cells ← slot.read? offset length
    return p.answer (.cells cells)
  | .isTracking => some (p.answer (.flag p.manager.isTracking))

/-- What a statement does. The name that it carries has to be free, also where the call makes
nothing. -/
def statement? (p : Program) (s : Statement) : Option Returned :=
  if s.name.all p.heap.isFree then p.call? s.name s.call else none

end Program

end TrackedHeap
