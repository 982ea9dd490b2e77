import TrackedHeap.Memory.Heap

/-!
# Text operands

* `Operand` : a text argument, absent, given as it is, or lying in the heap;
* `Operand.string?` : the text that it stands for where strings are named;
* `Operand.upToNul?` : the text that it stands for where any memory may be pointed to.
-/

namespace TrackedHeap

/-- A text argument. -/
inductive Operand where
  | absent
  | text (text : CText)
  | held (address : Address)
  deriving DecidableEq

namespace Operand

/-- The text of an operand, when the bytes of a slot are known; the outer `none` when no text is
there. -/
def resolve? (bytesOf : Slot → Option Bytes) (heap : Heap) : Operand → Option (Option CText)
  | absent => some none
  | text t => some (some t)
  | held address => do
    let slot ← heap.find? address
    let bytes ← bytesOf slot
    let t ← CText.ofBytes? bytes
    return some t

def string? (heap : Heap) (operand : Operand) : Option (Option CText) :=
  operand.resolve? Slot.string? heap

/-- The text of an operand that points to memory, up to the first NUL there. -/
def upToNul? (heap : Heap) (operand : Operand) : Option (Option CText) :=
  operand.resolve? (fun slot => slot.region.text?) heap

end Operand

end TrackedHeap
