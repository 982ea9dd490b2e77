import Mathlib.Algebra.Group.Nat.Defs
import TrackedHeap.Manager.Strings
import TrackedHeap.Proofs.Memory.Addresses
import TrackedHeap.Proofs.Memory.Conversions
import TrackedHeap.Proofs.Tracking.Calls

/-!
# The memory of new strings

* `joinedBytes` : the bytes of parts, one part after another;
* `toNat_totalLength` : their number is what the sum of the lengths gives, up to wrapping;
* `cell_storeAll_copyPlan` : the stores of a plan lay the bytes out in order and end them with a NUL;
* `writesAt_copyPlan` : they write every cell once, and none outside;
* `Slot.joined` : the slot of a new string, which holds the parts (`holds_joined`) as a string
  (`Slot.holdsString_joined`);
* `Manager.joined_of_granted`, `Manager.joined_of_refused` : what joining leaves, by what the base
  says;
* `Manager.assembled` : joins the parts if there are any. `makeString_eq_assembled` and
  `concat_eq_assembled` : both calls that make strings are of this form.
-/

namespace TrackedHeap

/-- The bytes of parts, one part after another. -/
def joinedBytes (parts : List CText) : Bytes :=
  (parts.map CText.bytes).flatten

theorem joinedBytes_noNul (parts : List CText) : 0 ∉ joinedBytes parts := by
  intro h
  obtain ⟨bytes, hbytes, hnul⟩ := List.mem_flatten.1 h
  obtain ⟨part, _, rfl⟩ := List.mem_map.1 hbytes
  exact part.noNul hnul

theorem joinedBytes_cons (part : CText) (rest : List CText) :
    joinedBytes (part :: rest) = part.bytes ++ joinedBytes rest := by
  rw [joinedBytes, List.map_cons, List.flatten_cons, joinedBytes]

theorem joinedBytes_append (first second : List CText) :
    joinedBytes (first ++ second) = joinedBytes first ++ joinedBytes second := by
  rw [joinedBytes, List.map_append, List.flatten_append]
  rfl

/-! ## Lengths -/

theorem toNat_foldl_length (parts : List CText) (sum : Size) :
    (parts.foldl (fun sum part => sum + UInt64.ofNat part.bytes.length) sum).toNat =
      (sum.toNat + (joinedBytes parts).length) % 2 ^ 64 := by
  induction parts generalizing sum with
  | nil =>
    rw [List.foldl_nil, joinedBytes, List.map_nil, List.flatten_nil, List.length_nil, Nat.add_zero,
      Nat.mod_eq_of_lt sum.toNat_lt]
  | cons part rest ih =>
    rw [List.foldl_cons, ih, joinedBytes_cons, List.length_append, UInt64.toNat_add,
      UInt64.toNat_ofNat']
    omega

theorem toNat_totalLength (parts : List CText) :
    (totalLength parts).toNat = (joinedBytes parts).length % 2 ^ 64 := by
  rw [totalLength, toNat_foldl_length]
  exact congrArg (· % 2 ^ 64) (Nat.zero_add _)

/-- The memory for parts is as large as the parts and a NUL, when a size can hold that. -/
theorem toNat_totalLength_succ {parts : List CText}
    (fits : (joinedBytes parts).length + 1 < 2 ^ 64) :
    (totalLength parts).toNat = (joinedBytes parts).length ∧
      (totalLength parts + 1).toNat = (joinedBytes parts).length + 1 := by
  have hlength : (totalLength parts).toNat = (joinedBytes parts).length := by
    rw [toNat_totalLength, Nat.mod_eq_of_lt (by omega)]
  refine ⟨hlength, ?_⟩
  rw [UInt64.toNat_add, hlength]
  exact Nat.mod_eq_of_lt fits

theorem totalLength_eq (parts : List CText) :
    totalLength parts = UInt64.ofNat (joinedBytes parts).length := by
  apply UInt64.toNat_inj.1
  rw [toNat_totalLength, UInt64.toNat_ofNat']

theorem totalLength_succ_eq (parts : List CText) :
    totalLength parts + 1 = UInt64.ofNat ((joinedBytes parts).length + 1) := by
  rw [totalLength_eq, UInt64.ofNat_add]
  rfl

/-- One text fits in half of the address space, with a NUL. -/
theorem length_joinedBytes_toList_lt (text : Option CText) :
    (joinedBytes text.toList).length + 1 < 2 ^ 63 := by
  cases text with
  | none => decide
  | some text =>
    have := text.length_lt
    simpa [joinedBytes] using this

/-- Two texts fit in memory together, with a NUL. -/
theorem length_joinedBytes_pair_lt (first second : Option CText) :
    (joinedBytes (first.toList ++ second.toList)).length + 1 < 2 ^ 64 := by
  have hfirst := length_joinedBytes_toList_lt first
  have hsecond := length_joinedBytes_toList_lt second
  rw [joinedBytes_append, List.length_append]
  omega

/-! ## Stores -/

theorem storeAll_cons (r : Region) (store : Nat × Bytes) (plan : List (Nat × Bytes)) :
    r.storeAll (store :: plan) = (r.store store.1 store.2).storeAll plan := rfl

@[simp] theorem size_storeAll (r : Region) (plan : List (Nat × Bytes)) :
    (r.storeAll plan).size = r.size := by
  induction plan generalizing r with
  | nil => rfl
  | cons store plan ih => rw [storeAll_cons, ih, Region.size_store]

theorem cell_storeAll_of_lt (parts : List Bytes) {r : Region} {offset i : Nat} (h : i < offset) :
    (r.storeAll (copyPlan offset parts)).cell i = r.cell i := by
  induction parts generalizing r offset with
  | nil => exact r.cell_store_of_lt [0] h
  | cons part rest ih =>
    rw [copyPlan, storeAll_cons, ih (by omega), r.cell_store_of_lt part h]

/-- A plan lays the parts out one after another, with a NUL after the last. -/
theorem cell_storeAll_copyPlan (parts : List Bytes) (r : Region) (offset : Nat) {i : Nat}
    (h : i < (parts.flatten ++ [0]).length) :
    (r.storeAll (copyPlan offset parts)).cell (offset + i) = (parts.flatten ++ [0])[i]? := by
  induction parts generalizing r offset i with
  | nil =>
    rw [List.flatten_nil, List.nil_append] at h ⊢
    rw [List.getElem?_eq_getElem h]
    exact r.cell_store_of_mem offset h
  | cons part rest ih =>
    rw [List.flatten_cons, List.append_assoc] at h ⊢
    rw [copyPlan, storeAll_cons]
    by_cases hi : i < part.length
    · rw [cell_storeAll_of_lt rest (by omega), r.cell_store_of_mem offset hi,
        List.getElem?_append_left hi, List.getElem?_eq_getElem hi]
    · rw [List.length_append] at h
      have hrest := ih (r.store offset part) (offset + part.length) (i := i - part.length) (by omega)
      rw [List.getElem?_append_right (by omega), ← hrest]
      congr 1
      omega

/-- How often the stores of a plan write the cell at an offset. -/
def writesAt (plan : List (Nat × Bytes)) (i : Nat) : Nat :=
  plan.countP fun store => store.1 ≤ i ∧ i < store.1 + store.2.length

theorem writesAt_cons (store : Nat × Bytes) (plan : List (Nat × Bytes)) (i : Nat) :
    writesAt (store :: plan) i =
      writesAt plan i + if store.1 ≤ i ∧ i < store.1 + store.2.length then 1 else 0 := by
  rw [writesAt, List.countP_cons, writesAt]
  simp only [decide_eq_true_eq]

/-- A plan writes every cell of the parts and of the NUL once, and no other cell. -/
theorem writesAt_copyPlan (parts : List Bytes) (offset i : Nat) :
    writesAt (copyPlan offset parts) i =
      if offset ≤ i ∧ i < offset + (parts.flatten.length + 1) then 1 else 0 := by
  induction parts generalizing offset with
  | nil =>
    rw [copyPlan, writesAt_cons, List.flatten_nil, List.length_nil, List.length_singleton]
    exact Nat.zero_add _
  | cons part rest ih =>
    -- The stores of the rest start where this one ends.
    rw [copyPlan, writesAt_cons, ih, List.flatten_cons, List.length_append]
    dsimp only
    split <;> split <;> split <;> omega

/-- The slot of a new string that holds parts one after another. -/
def Slot.joined (parts : List CText) : Slot :=
  ⟨.string (totalLength parts),
    (Region.unset (totalLength parts + 1)).storeAll (copyPlan 0 (parts.map CText.bytes))⟩

theorem holds_joined {parts : List CText} (fits : (joinedBytes parts).length + 1 < 2 ^ 64) :
    (Slot.joined parts).region.Holds (joinedBytes parts) := by
  have hcell : ∀ i < (joinedBytes parts ++ [0]).length,
      (Slot.joined parts).region.cell i = (joinedBytes parts ++ [0])[i]? := by
    intro i hi
    have := cell_storeAll_copyPlan (parts.map CText.bytes) (.unset (totalLength parts + 1)) 0 hi
    rwa [Nat.zero_add] at this
  rw [List.length_append, List.length_singleton] at hcell
  refine ⟨?_, fun i hi => ?_, ?_, joinedBytes_noNul parts⟩
  · rw [Slot.joined, size_storeAll, Region.unset, (toNat_totalLength_succ fits).2]
    omega
  · rw [hcell i (by omega), List.getElem?_append_left hi]
  · rw [hcell _ (Nat.lt_succ_self _), List.getElem?_append_right (Nat.le_refl _), Nat.sub_self]
    rfl

theorem Slot.holdsString_joined {parts : List CText}
    (fits : (joinedBytes parts).length + 1 < 2 ^ 64) :
    (joined parts).HoldsString (totalLength parts) (joinedBytes parts) :=
  ⟨rfl, (toNat_totalLength_succ fits).1.symm, holds_joined fits⟩

/-! ## Calls -/

namespace Manager
variable {m : Manager} {heap : Heap} {address : Address} {location : Location}

/-- Joining puts a new string in the heap when its memory is granted. -/
theorem joined_of_granted {parts : List CText} {allocator : Allocator} {t : Trail}
    (free : heap.isFree address = true)
    (granted : Allocator.Granted (.block (totalLength parts + 1)) address location m.allocator
      allocator t) :
    m.joined heap parts address location =
      ⟨.ok (totalLength parts), { m with allocator }, heap.insert address (.joined parts),
        m.sink.pass t⟩ := by
  rw [joined, request_of_granted granted]
  dsimp only
  rw [Heap.update_insert_self free]
  rfl

/-- Joining changes nothing when its memory is refused. -/
theorem joined_of_refused {parts : List CText} {e : AllocError}
    (refused : m.allocator.core (.block (totalLength parts + 1)) = .error e) :
    m.joined heap parts address location = ⟨.error e, m, heap, .empty⟩ := by
  rw [joined, request_of_refused refused]

/-- Joins parts into a new string, if there are any. -/
def assembled (m : Manager) (heap : Heap) (parts : List CText) (address : Address)
    (location : Location) : After (Except AllocError (Option Size)) :=
  if parts = [] then ⟨.ok none, m, heap, .empty⟩
  else present (m.joined heap parts address location)

theorem makeString_eq_assembled (source : Option CText) :
    m.makeString heap source address location =
      m.assembled heap source.toList address location := by
  cases source with
  | none => rfl
  | some text => exact (if_neg (List.cons_ne_nil _ _)).symm

theorem concat_eq_assembled (first second : Option CText) :
    m.concat heap first second address location =
      m.assembled heap (first.toList ++ second.toList) address location := by
  cases first with
  | none => cases second with
    | none => rfl
    | some b => exact (if_neg (List.cons_ne_nil _ _)).symm
  | some a => cases second with
    | none => exact (if_neg (List.cons_ne_nil _ _)).symm
    | some b => exact (if_neg (List.cons_ne_nil _ _)).symm

end Manager

end TrackedHeap
