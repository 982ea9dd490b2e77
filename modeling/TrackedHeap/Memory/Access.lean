import TrackedHeap.Memory.Heap

/-!
# Access to memory by offset

* `Region.spans` : whether bytes at an offset lie in a piece of memory;
* `Slot.read?`, `Slot.write?` : bytes at an offset, if all of them lie there. A string is not written
  to;
* `Slot.toRaw?`, `Slot.toBlock?`, `Slot.toString?` : the same memory held in another way;
* `Heap.blockOf?`, `Heap.stringOf?` : what a raw pointer gives, which may be null.
-/

namespace TrackedHeap

/-- Whether the bytes from an offset on lie in a region. -/
def Region.spans (r : Region) (offset length : Nat) : Bool :=
  offset + length ≤ r.size.toNat

namespace Slot

def read? (s : Slot) (offset length : Nat) : Option (List Cell) :=
  if s.region.spans offset length then some (s.region.read offset length) else none

def write? (s : Slot) (offset : Nat) (bytes : Bytes) : Option Slot :=
  match s.kind with
  | .string _ => none
  | _ =>
    if s.region.spans offset bytes.length then
      some { s with region := s.region.store offset bytes }
    else none

def toRaw? (s : Slot) : Option Slot :=
  match s.kind with
  | .raw => none
  | _ => some { s with kind := .raw }

def toBlock? (s : Slot) : Option Slot :=
  match s.kind with
  | .raw => some { s with kind := .block }
  | _ => none

/-- Raw memory held as a string, up to its first NUL. -/
def toString? (s : Slot) : Option Slot :=
  match s.kind with
  | .raw => s.region.text?.map fun bytes => { s with kind := .string (UInt64.ofNat bytes.length) }
  | _ => none

end Slot

/-- A raw pointer: an address, or null. -/
abbrev Pointer := Option Address

namespace Heap

/-- What a raw pointer gives as a block. Null gives none. -/
def blockOf? (heap : Heap) (p : Pointer) : Option Slot :=
  p.bind fun address => (heap.find? address).bind Slot.toBlock?

/-- What a raw pointer gives as a string. Null gives none. -/
def stringOf? (heap : Heap) (p : Pointer) : Option Slot :=
  p.bind fun address => (heap.find? address).bind Slot.toString?

end Heap

end TrackedHeap
