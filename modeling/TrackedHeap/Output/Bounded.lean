import TrackedHeap.Output.Line

/-!
# Writers that fill up

* `Bounded` : a writer in memory with room for a number of bytes;
* `Bounded.writeAll` : one piece, of which what fits is kept when it does not fit as a whole;
* `Bounded.writePieces` : piece after piece, up to the first that does not fit.
-/

namespace TrackedHeap.Output

/-- A writer in memory: its capacity in bytes, and what it holds. -/
structure Bounded where
  capacity : Nat
  written : Bytes
  deriving DecidableEq, Repr

/-- How a write ended: complete, or cut off because the writer took no more bytes. -/
inductive WriteResult where
  | complete
  | writeZero
  deriving DecidableEq, Repr

namespace Bounded

def ofCapacity (capacity : Nat) : Bounded := ⟨capacity, []⟩

/-- The bytes that still fit. -/
def room (w : Bounded) : Nat := w.capacity - w.written.length

/-- Writes one piece, or as much of it as fits. -/
def writeAll (w : Bounded) (piece : Bytes) : Bounded × WriteResult :=
  (⟨w.capacity, w.written ++ piece.take w.room⟩,
    if piece.length ≤ w.room then .complete else .writeZero)

/-- Writes piece after piece, and nothing after the first that does not fit. -/
def writePieces (w : Bounded) : Pieces → Bounded × WriteResult
  | [] => (w, .complete)
  | piece :: rest =>
    match w.writeAll piece with
    | (w, .complete) => w.writePieces rest
    | (w, .writeZero) => (w, .writeZero)

end Bounded

end TrackedHeap.Output
