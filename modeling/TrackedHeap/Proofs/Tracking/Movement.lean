import TrackedHeap.Tracking.Ledger

/-!
# Movements of a ledger

A ledger is the sum of its history, as far as its words can hold that.

* `Movement` : memory of an exact number of bytes is taken, or memory is given back;
* `Movement.totalBytes`, `Movement.takings`, `Movement.returns` : the exact totals of a history, and
  `Movement.balance` what is left;
* `Ledger.replay` : the ledger after a history;
* `replay_eq` : it adds up the history, its bytes modulo `2 ^ 64` and its balance as a signed word.
-/

namespace TrackedHeap

/-- One movement of a ledger. -/
inductive Movement where
  /-- Memory is taken, of an exact number of bytes. -/
  | taken (bytes : Nat)
  | returned
  deriving DecidableEq, Repr

namespace Movement

def bytes : Movement → Nat
  | taken bytes => bytes
  | returned => 0

/-- The exact number of bytes taken in a history. -/
def totalBytes : List Movement → Nat
  | [] => 0
  | movement :: rest => movement.bytes + totalBytes rest

/-- How often memory is taken in a history. -/
def takings (history : List Movement) : Nat :=
  history.countP (· ≠ returned)

def returns (history : List Movement) : Nat :=
  history.count returned

/-- How much more often memory is taken than given back. -/
def balance (history : List Movement) : Int :=
  takings history - returns history

/-! ## Totals -/

@[simp] theorem totalBytes_append (a b : List Movement) :
    totalBytes (a ++ b) = totalBytes a + totalBytes b := by
  induction a with
  | nil => exact (Nat.zero_add _).symm
  | cons movement rest ih => rw [List.cons_append, totalBytes, ih, totalBytes, Nat.add_assoc]

@[simp] theorem balance_nil : balance [] = 0 := rfl

@[simp] theorem balance_append (a b : List Movement) :
    balance (a ++ b) = balance a + balance b := by
  rw [balance, takings, returns, List.countP_append, List.count_append]
  push_cast
  rw [balance, balance, takings, takings, returns, returns]
  omega

theorem totalBytes_taken (bytes : Nat) : totalBytes [taken bytes] = bytes :=
  Nat.add_zero bytes

theorem totalBytes_returned : totalBytes [returned] = 0 := rfl

theorem balance_taken (bytes : Nat) : balance [taken bytes] = 1 := rfl

theorem balance_returned : balance [returned] = -1 := rfl

/-- Every movement moves the balance by one. -/
theorem natAbs_balance_le (history : List Movement) : (balance history).natAbs ≤ history.length := by
  have htaken : takings history ≤ history.length := List.countP_le_length
  have hreturned : returns history ≤ history.length := List.count_le_length
  rw [balance]
  omega

end Movement

namespace Ledger

def record (l : Ledger) : Movement → Ledger
  | .taken bytes => l.recordAllocation (UInt64.ofNat bytes)
  | .returned => l.recordRelease

def replay (l : Ledger) (history : List Movement) : Ledger :=
  history.foldl record l

theorem replay_append (l : Ledger) (a b : List Movement) :
    l.replay (a ++ b) = (l.replay a).replay b :=
  List.foldl_append

theorem record_eq (l : Ledger) (movement : Movement) :
    l.record movement =
      ⟨l.cumulativeBytes + UInt64.ofNat (Movement.totalBytes [movement]),
        l.liveAllocations + Int64.ofInt (Movement.balance [movement])⟩ := by
  cases movement with
  | taken bytes =>
    have hone : Int64.ofInt 1 = 1 := rfl
    rw [Movement.totalBytes_taken, Movement.balance_taken, hone]
    rfl
  | returned =>
    have hzero : UInt64.ofNat 0 = 0 := rfl
    have hminus : Int64.ofInt (-1) = -1 := by decide
    rw [Movement.totalBytes_returned, Movement.balance_returned, hzero, hminus, UInt64.add_zero,
      ← Int64.sub_eq_add_neg]
    rfl

/-- **A ledger adds up its history**, in words that wrap. -/
theorem replay_eq (l : Ledger) (history : List Movement) :
    l.replay history =
      ⟨l.cumulativeBytes + UInt64.ofNat (Movement.totalBytes history),
        l.liveAllocations + Int64.ofInt (Movement.balance history)⟩ := by
  induction history generalizing l with
  | nil =>
    have hbytes : UInt64.ofNat (Movement.totalBytes []) = 0 := rfl
    have hbalance : Int64.ofInt 0 = 0 := rfl
    rw [hbytes, Movement.balance_nil, hbalance, UInt64.add_zero, Int64.add_zero]
    rfl
  | cons movement rest ih =>
    have hbytes := Movement.totalBytes_append [movement] rest
    have hbalance := Movement.balance_append [movement] rest
    rw [List.singleton_append] at hbytes hbalance
    have hreplay : l.replay (movement :: rest) = (l.record movement).replay rest := rfl
    rw [hreplay, ih, record_eq, hbytes, hbalance, UInt64.ofNat_add, Int64.ofInt_add,
      UInt64.add_assoc, Int64.add_assoc]

end Ledger

/-- The product of a request is the word that holds its exact number of bytes. -/
theorem Request.ofNat_exact (r : Request) : UInt64.ofNat r.exact = r.product := by
  cases r with
  | block size => exact UInt64.ofNat_toNat
  | array elementSize count =>
    rw [exact, UInt64.ofNat_mul, UInt64.ofNat_toNat, UInt64.ofNat_toNat, product]

end TrackedHeap
