import TrackedHeap.Memory.Request

/-!
# Ledgers

* `Ledger` : the bytes allocated so far and the allocations that are live;
* `Ledger.recordAllocation`, `Ledger.recordRelease` : one allocation, one release;
* `Ledger.isBalanced` : nothing is live;
* `Ledger.statistics`, `Ledger.fields` : the ledger as a line and with its fields by name.

The live count is signed: it is negative when more was released than allocated.
-/

namespace TrackedHeap

/-- What a tracking layer counts. Both counts wrap. -/
structure Ledger where
  cumulativeBytes : Size
  liveAllocations : Int64
  deriving DecidableEq, Repr

namespace Ledger

def empty : Ledger := ⟨0, 0⟩

def recordAllocation (l : Ledger) (size : Size) : Ledger :=
  ⟨l.cumulativeBytes + size, l.liveAllocations + 1⟩

def recordRelease (l : Ledger) : Ledger :=
  { l with liveAllocations := l.liveAllocations - 1 }

/-- A ledger is balanced when as much was released as allocated. -/
def isBalanced (l : Ledger) : Bool :=
  l.liveAllocations == 0

def isOverdrawn (l : Ledger) : Bool :=
  l.liveAllocations < 0

def liveText (l : Ledger) : String :=
  l.liveAllocations.toInt.repr

def statistics (l : Ledger) : String :=
  "Memory Stats - Allocated: " ++ l.cumulativeBytes.text ++ " bytes, Active allocations: " ++
    l.liveText

def fields (l : Ledger) : String :=
  "LedgerSnapshot \x7b cumulative_bytes: " ++ l.cumulativeBytes.text ++ ", live_allocations: " ++
    l.liveText ++ " \x7d"

end Ledger

end TrackedHeap
