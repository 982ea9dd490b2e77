import TrackedHeap.Manager.Basic

/-!
# Strings in managed memory

* `totalLength` : the sum of the lengths of parts;
* `copyPlan` : which bytes go where when parts are joined, the NUL last;
* `Manager.joined` : one new string that holds parts one after another;
* `Manager.makeString`, `Manager.concat` : a copy of a text, and two texts joined. An absent text
  counts as nothing, and no text at all makes no string.
-/

namespace TrackedHeap

/-- The sum of the lengths of parts, which wraps. -/
def totalLength (parts : List CText) : Size :=
  parts.foldl (fun sum part => sum + UInt64.ofNat part.bytes.length) 0

/-- The stores that join byte strings from an offset on, and end them with a NUL. -/
def copyPlan : (offset : Nat) → List Bytes → List (Nat × Bytes)
  | offset, [] => [(offset, [0])]
  | offset, part :: rest => (offset, part) :: copyPlan (offset + part.length) rest

def Region.storeAll (r : Region) (plan : List (Nat × Bytes)) : Region :=
  plan.foldl (fun r store => r.store store.1 store.2) r

namespace Manager

/-- A new string that holds parts one after another. Its value is the length. -/
def joined (m : Manager) (heap : Heap) (parts : List CText) (address : Address)
    (location : Location) : After (Except AllocError Size) :=
  let length := totalLength parts
  match m.request heap (.block (length + 1)) address location with
  | ⟨.ok (), m, heap, trail⟩ =>
    let fill (slot : Slot) : Slot :=
      ⟨.string length, slot.region.storeAll (copyPlan 0 (parts.map CText.bytes))⟩
    ⟨.ok length, m, heap.update address fill, trail⟩
  | ⟨.error e, m, heap, trail⟩ => ⟨.error e, m, heap, trail⟩

def present (after : After (Except AllocError Size)) : After (Except AllocError (Option Size)) :=
  ⟨after.value.map some, after.manager, after.heap, after.trail⟩

def makeString (m : Manager) (heap : Heap) (source : Option CText) (address : Address)
    (location : Location) : After (Except AllocError (Option Size)) :=
  match source with
  | none => ⟨.ok none, m, heap, .empty⟩
  | some text => present (m.joined heap [text] address location)

def concat (m : Manager) (heap : Heap) (first second : Option CText) (address : Address)
    (location : Location) : After (Except AllocError (Option Size)) :=
  match first, second with
  | none, none => ⟨.ok none, m, heap, .empty⟩
  | some only, none => m.makeString heap (some only) address location
  | none, some only => m.makeString heap (some only) address location
  | some a, some b => present (m.joined heap [a, b] address location)

end Manager

end TrackedHeap
