import Mathlib.Algebra.BigOperators.Ring.Finset
import TrackedHeap.Proofs.Memory.Addresses
import TrackedHeap.Proofs.Session.Accounting

/-!
# Who made the memory in use

Ledgers count without knowing what they count. The makers of the memory in use are kept beside a run
instead, and every balance is compared with them.

* `Turnover` : a step makes memory at one address, takes it away at one, or leaves all addresses;
* `Owners`, `Session.owners` : the manager that made the memory at each address, after a run;
* `Session.outstanding` : how much of the memory in use a manager made;
* `Session.ReturnsOwn` : in a run, managers are given back only what they made themselves;
* `balance_add_outstanding` : then a balance is what is outstanding;
* `sum_balance_add_length` : all balances together are the memory in use, whoever gives it back.
-/

namespace TrackedHeap.Session

/-! ## Turnover -/

/-- How a step changes the addresses in use, and the movement that tells of it. -/
inductive Turnover (s : Session) (step : Step) : Prop
  | makes {a : Address} {bytes : Nat} (index_lt : step.index < s.managers.length)
      (free : s.heap.isFree a = true)
      (addresses : (s.perform step).1.heap.addresses = a :: s.heap.addresses)
      (moved : step.movement? s.heap (s.perform step).2.reply = some (.taken bytes))
  | takesAway {a : Address} (index_lt : step.index < s.managers.length)
      (used : a ∈ s.heap.addresses) (heap : (s.perform step).1.heap = s.heap.erase a)
      (moved : step.movement? s.heap (s.perform step).2.reply = some .returned)
  | keeps (addresses : (s.perform step).1.heap.addresses = s.heap.addresses)
      (moved : step.movement? s.heap (s.perform step).2.reply = none)

theorem index_lt_of_manager {s : Session} {index : Nat} {m : Manager}
    (manager : s.managers[index]? = some m) : index < s.managers.length := by
  obtain ⟨hindex, _⟩ := List.getElem?_eq_some_iff.1 manager
  exact hindex

theorem turnover (s : Session) (step : Step) : s.Turnover step := by
  obtain hperform | ⟨o, effect, hperform⟩ := s.perform_cases step
  · apply Turnover.keeps
    · rw [hperform]
    · rw [hperform]
      rfl
  cases effect with
  | make manager free asked given granted made =>
    apply Turnover.makes (index_lt_of_manager manager) free
    · rw [hperform]
      rfl
    · rw [hperform]
      exact Step.movement?_of_made asked made
  | refuse manager asked given refused told =>
    apply Turnover.keeps
    · rw [hperform]
    · rw [hperform]
      obtain ⟨rfl, -⟩ | ⟨rfl, -⟩ := told
      · rfl
      · rfl
  | giveBack manager found asked given ends =>
    apply Turnover.takesAway (index_lt_of_manager manager) (Heap.mem_addresses.2 ⟨_, found⟩)
    · rw [hperform]
    · rw [hperform]
      exact congrArg (Option.map fun _ => Movement.returned) given
  | @hold a _ slot' _ found asked given held =>
    apply Turnover.keeps
    · rw [hperform]
      exact s.heap.addresses_update a fun _ => slot'
    · exact Step.movement?_eq_none asked given _
  | redirect failing manager asked given =>
    apply Turnover.keeps
    · rw [hperform]
    · exact Step.movement?_eq_none asked given _
  | still asked given quiet =>
    apply Turnover.keeps
    · rw [hperform]
    · exact Step.movement?_eq_none asked given _

theorem nodup_perform (s : Session) (step : Step) (nodup : s.heap.addresses.Nodup) :
    (s.perform step).1.heap.addresses.Nodup := by
  cases s.turnover step with
  | makes index_lt free addresses moved =>
    rw [addresses, List.nodup_cons]
    exact ⟨Heap.isFree_iff.1 free, nodup⟩
  | takesAway index_lt used heap moved =>
    rw [heap]
    exact Heap.nodup_addresses_erase nodup _
  | keeps addresses moved => rwa [addresses]

theorem nodup_run_start (setups : List Setup) (steps : List Step) :
    ((start setups).run steps).1.heap.addresses.Nodup := by
  have hstart : (start setups).heap.addresses.Nodup := List.nodup_nil
  exact run_keeps (P := fun s => s.heap.addresses.Nodup) nodup_perform hstart steps

theorem length_managers_perform (s : Session) (step : Step) :
    (s.perform step).1.managers.length = s.managers.length := by
  obtain hperform | ⟨o, effect, hperform⟩ := s.perform_cases step
  · rw [hperform]
  rw [hperform]
  cases effect with
  | make => exact List.length_set
  | refuse => rfl
  | giveBack => exact List.length_set
  | hold => rfl
  | redirect => exact List.length_set
  | still => rfl

/-! ## Owners -/

/-- The index of the manager that made the memory at an address, if any is there. -/
abbrev Owners := Address → Option Nat

/-- The owners after a step through a manager changed the heap. Memory that was not there before is
made by that manager, and memory that is gone has no owner. -/
def Owners.next (owner : Owners) (before after : Heap) (index : Nat) : Owners := fun a =>
  if after.isFree a then none else if before.isFree a then some index else owner a

def owners (s : Session) (owner : Owners) : List Step → Owners
  | [] => owner
  | step :: rest =>
    (s.perform step).1.owners (owner.next s.heap (s.perform step).1.heap step.index) rest

/-- How many addresses in use have a manager as their owner. -/
def outstanding (s : Session) (owner : Owners) (index : Nat) : Nat :=
  s.heap.addresses.countP fun a => owner a = some index

/-- Each step of a run takes away only what its own manager made. -/
def ReturnsOwn (s : Session) (owner : Owners) : List Step → Prop
  | [] => True
  | step :: rest =>
    (∀ a ∈ s.heap.addresses, (s.perform step).1.heap.isFree a = true →
        owner a = some step.index) ∧
      (s.perform step).1.ReturnsOwn (owner.next s.heap (s.perform step).1.heap step.index) rest

instance decidableReturnsOwn (s : Session) (owner : Owners) (steps : List Step) :
    Decidable (s.ReturnsOwn owner steps) :=
  match steps with
  | [] => inferInstanceAs (Decidable True)
  | step :: rest =>
    have := decidableReturnsOwn (s.perform step).1
      (owner.next s.heap (s.perform step).1.heap step.index) rest
    inferInstanceAs (Decidable (_ ∧ _))

theorem ReturnsOwn.take {s : Session} {owner : Owners} {steps : List Step}
    (h : s.ReturnsOwn owner steps) (k : Nat) : s.ReturnsOwn owner (steps.take k) := by
  induction steps generalizing s owner k with
  | nil => rwa [List.take_nil]
  | cons step rest ih =>
    cases k with
    | zero => trivial
    | succ k => exact ⟨h.1, ih h.2 k⟩

namespace Owners
variable (owner : Owners) {before after : Heap} (index : Nat) {a : Address}

theorem next_of_made (used : a ∈ after.addresses) (free : before.isFree a = true) :
    owner.next before after index a = some index := by
  rw [next, if_neg (by rw [Heap.isFree_eq_false_iff.2 used]; decide), if_pos free]

theorem next_of_kept (used : a ∈ after.addresses) (used' : a ∈ before.addresses) :
    owner.next before after index a = owner a := by
  rw [next, if_neg (by rw [Heap.isFree_eq_false_iff.2 used]; decide),
    if_neg (by rw [Heap.isFree_eq_false_iff.2 used']; decide)]

theorem countP_next {addresses : List Address} (used : ∀ b ∈ addresses, b ∈ after.addresses)
    (used' : ∀ b ∈ addresses, b ∈ before.addresses) (i : Nat) :
    addresses.countP (fun b => owner.next before after index b = some i) =
      addresses.countP fun b => owner b = some i := by
  apply List.countP_congr
  intro b hb
  rw [next_of_kept owner index (used b hb) (used' b hb)]

end Owners

/-! ## Balances -/

theorem balance_movement? (s : Session) (i : Nat) (step : Step) :
    Movement.balance (s.movement? i step).toList =
      if step.index = i then
        Movement.balance (step.movement? s.heap (s.perform step).2.reply).toList
      else 0 := by
  rw [movement?]
  split <;> rfl

/-- A step that returns only its own changes each balance as it changes what is outstanding. -/
theorem balance_movement?_add_outstanding {s : Session} {owner : Owners} {step : Step}
    (nodup : s.heap.addresses.Nodup)
    (own : ∀ a ∈ s.heap.addresses, (s.perform step).1.heap.isFree a = true →
      owner a = some step.index) (i : Nat) :
    Movement.balance (s.movement? i step).toList + s.outstanding owner i =
      (s.perform step).1.outstanding (owner.next s.heap (s.perform step).1.heap step.index) i := by
  rw [balance_movement?]
  cases s.turnover step with
  | @makes a bytes index_lt free addresses moved =>
    -- The new address counts for the manager of the step, and all others count as before.
    have hmade : owner.next s.heap (s.perform step).1.heap step.index a = some step.index :=
      owner.next_of_made step.index (by rw [addresses]; exact List.mem_cons_self) free
    have hsub : ∀ b ∈ s.heap.addresses, b ∈ (s.perform step).1.heap.addresses := by
      intro b hb
      rw [addresses]
      exact List.mem_cons_of_mem a hb
    have hkept := owner.countP_next step.index hsub (fun b hb => hb) i
    rw [moved, outstanding, outstanding, addresses, List.countP_cons, hmade, hkept]
    by_cases hi : step.index = i
    · simp [hi, Movement.balance_taken, add_comm]
    · simp [hi]
  | @takesAway a index_lt used heap moved =>
    have hsub : ∀ b ∈ (s.heap.erase a).addresses, b ∈ s.heap.addresses := by
      intro b hb
      rw [Heap.addresses_erase] at hb
      exact List.mem_of_mem_filter hb
    have howner : owner a = some step.index := by
      apply own a used
      rw [heap, Heap.isFree, Heap.find?_erase_self]
      rfl
    have hkept := owner.countP_next step.index (fun b hb => hb) hsub i
    have herase := Heap.countP_addresses_erase nodup used fun b => owner b = some i
    rw [moved, outstanding, outstanding, heap, hkept, ← herase, howner]
    by_cases hi : step.index = i
    · simp [hi, Movement.balance_returned]
    · simp [hi]
  | keeps addresses moved =>
    have hsub : ∀ b ∈ s.heap.addresses, b ∈ (s.perform step).1.heap.addresses := by
      intro b hb
      rwa [addresses]
    have hkept := owner.countP_next step.index hsub (fun b hb => hb) i
    rw [moved, outstanding, outstanding, addresses, hkept]
    split
    · exact zero_add _
    · exact zero_add _

/-- **A balance is what is outstanding**, in a run that returns only its own. -/
theorem balance_add_outstanding {s : Session} {owner : Owners} {steps : List Step}
    (nodup : s.heap.addresses.Nodup) (own : s.ReturnsOwn owner steps) (i : Nat) :
    Movement.balance (s.movements i steps) + s.outstanding owner i =
      (s.run steps).1.outstanding (s.owners owner steps) i := by
  induction steps generalizing s owner with
  | nil => exact zero_add _
  | cons step rest ih =>
    have hstep := balance_movement?_add_outstanding nodup own.1 i
    have hrest := ih (s.nodup_perform step nodup) own.2
    rw [movements, Movement.balance_append, run_cons, owners, ← hrest, ← hstep]
    omega

/-- A step changes all balances together as it changes the number of addresses in use. -/
theorem sum_balance_movement?_add_length {s : Session} (nodup : s.heap.addresses.Nodup)
    (step : Step) :
    ∑ i ∈ Finset.range s.managers.length, Movement.balance (s.movement? i step).toList +
      s.heap.length = (s.perform step).1.heap.length := by
  simp only [balance_movement?, Finset.sum_ite_eq, Finset.mem_range]
  cases s.turnover step with
  | makes index_lt free addresses moved =>
    have hlength := congrArg List.length addresses
    rw [List.length_cons, Heap.length_addresses, Heap.length_addresses] at hlength
    rw [if_pos index_lt, moved, hlength, Option.toList_some, Movement.balance_taken]
    omega
  | takesAway index_lt used heap moved =>
    have hlength := Heap.length_erase nodup used
    rw [if_pos index_lt, moved, heap, ← hlength, Option.toList_some, Movement.balance_returned]
    omega
  | keeps addresses moved =>
    have hlength := congrArg List.length addresses
    rw [Heap.length_addresses, Heap.length_addresses] at hlength
    rw [moved, hlength]
    simp

/-- **All balances together are the memory in use**, whoever gives it back. -/
theorem sum_balance_add_length {s : Session} (nodup : s.heap.addresses.Nodup)
    (steps : List Step) :
    ∑ i ∈ Finset.range s.managers.length, Movement.balance (s.movements i steps) +
      s.heap.length = (s.run steps).1.heap.length := by
  induction steps generalizing s with
  | nil => simp [movements, run]
  | cons step rest ih =>
    have hstep := sum_balance_movement?_add_length nodup step
    have hrest := ih (s.nodup_perform step nodup)
    rw [length_managers_perform] at hrest
    simp only [movements, Movement.balance_append, Finset.sum_add_distrib]
    rw [run_cons, ← hrest, ← hstep]
    omega

end TrackedHeap.Session
