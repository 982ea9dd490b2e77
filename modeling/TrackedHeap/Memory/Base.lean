import TrackedHeap.Memory.Request

/-!
# Allocators under all layers

* `Answers` : what an allocator without a ledger says to each request;
* `Base` : such an allocator when the number of bytes alone decides, known by the sizes that it
  accepts, with what it says (`Base.answers`). An overflow is found before the sizes are looked at;
* `Base.unbounded`, `Base.limited` : one that accepts every size, and one under a largest size.
-/

namespace TrackedHeap

/-- What an allocator without a ledger says to a request: that there is memory, or why there is
none. -/
abbrev Answers := Request → Except AllocError Unit

/-- Whether a block of a size is granted. -/
def Answers.accepts (answers : Answers) (size : Size) : Bool :=
  (answers (.block size)).isOk

/-- An allocator that keeps no ledger and decides by the number of bytes: which sizes it has memory
for. -/
structure Base where
  accepts : Size → Bool

namespace Base

def unbounded : Base := ⟨fun _ => true⟩

/-- An allocator that refuses every size above a limit, and asks another one for the rest. -/
def limited (base : Base) (limit : Size) : Base :=
  ⟨fun size => size ≤ limit && base.accepts size⟩

def answers (base : Base) : Answers := fun request =>
  match request.size? with
  | .error e => .error e
  | .ok size => if base.accepts size then .ok () else .error (.outOfMemory size)

end Base

end TrackedHeap
