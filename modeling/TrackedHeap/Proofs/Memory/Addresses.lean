import Mathlib.Data.List.Nodup
import TrackedHeap.Memory.Heap

/-!
# The addresses of a heap

* `Heap.addresses` : the addresses in use, one for each entry;
* `mem_addresses` : an address is in use when a slot is found there, and free otherwise
  (`isFree_iff`, `ne_of_isFree`);
* `addresses_insert`, `addresses_update`, `addresses_erase` : what each edit does to them;
* `length_erase`, `countP_addresses_erase` : as long as no address is in use twice, an
  erased slot takes one address away.
-/

namespace TrackedHeap.Heap

/-- The addresses in use. -/
def addresses (heap : Heap) : List Address :=
  heap.map Prod.fst

@[simp] theorem length_addresses (heap : Heap) : heap.addresses.length = heap.length :=
  List.length_map _

@[simp] theorem addresses_insert (heap : Heap) (a : Address) (slot : Slot) :
    (heap.insert a slot).addresses = a :: heap.addresses := rfl

@[simp] theorem addresses_update (heap : Heap) (a : Address) (change : Slot → Slot) :
    (heap.update a change).addresses = heap.addresses := by
  simp only [addresses, update, List.map_map]
  apply List.map_congr_left
  intro entry _
  by_cases h : entry.1 = a
  · simp [h]
  · simp [h]

theorem addresses_erase (heap : Heap) (a : Address) :
    (heap.erase a).addresses = heap.addresses.filter (· ≠ a) := by
  simp only [addresses, erase, List.filter_map]
  rfl

theorem isFree_iff {heap : Heap} {a : Address} : heap.isFree a = true ↔ a ∉ heap.addresses := by
  rw [isFree, Option.isNone_iff_eq_none, find?, List.lookup_eq_none_iff]
  simp only [addresses, List.mem_map, not_exists, not_and]
  constructor
  · rintro h entry hentry rfl
    exact absurd (h entry hentry) (by simp)
  · intro h entry hentry
    have := h entry hentry
    simpa using Ne.symm this

theorem isFree_eq_false_iff {heap : Heap} {a : Address} :
    heap.isFree a = false ↔ a ∈ heap.addresses := by
  rw [← not_iff_not, Bool.not_eq_false, isFree_iff]

theorem mem_addresses {heap : Heap} {a : Address} :
    a ∈ heap.addresses ↔ ∃ slot, heap.find? a = some slot := by
  rw [← Option.isSome_iff_exists, ← isFree_eq_false_iff, isFree]
  cases heap.find? a <;> simp

/-- What lies in a heap is not at a free address. -/
theorem ne_of_isFree {heap : Heap} {a b : Address} {slot : Slot} (found : heap.find? a = some slot)
    (free : heap.isFree b = true) : a ≠ b := by
  rintro rfl
  rw [isFree, found] at free
  cases free

/-! ## Edits -/

/-- A slot put at a free address leaves all others where they are. -/
theorem find?_insert_of_found {heap : Heap} {a b : Address} {slot : Slot}
    (found : heap.find? a = some slot) (free : heap.isFree b = true) (slot' : Slot) :
    (heap.insert b slot').find? a = some slot :=
  (find?_insert_of_ne heap slot' (ne_of_isFree found free)).trans found

/-- Where a slot lies, another one lies after it is put there. -/
theorem find?_update_of_found {heap : Heap} {a : Address} {slot : Slot}
    (found : heap.find? a = some slot) (slot' : Slot) :
    (heap.update a fun _ => slot').find? a = some slot' := by
  rw [find?_update_self, found]
  rfl

theorem update_of_isFree {heap : Heap} {a : Address} (free : heap.isFree a = true)
    (change : Slot → Slot) : heap.update a change = heap := by
  rw [isFree_iff] at free
  rw [update, List.map_congr_left (g := id), List.map_id]
  intro entry hentry
  have hne : entry.1 ≠ a := fun h => free (List.mem_map.2 ⟨entry, hentry, h⟩)
  rw [if_neg hne, id]

theorem update_insert_self {heap : Heap} {a : Address} (free : heap.isFree a = true)
    (slot : Slot) (change : Slot → Slot) :
    (heap.insert a slot).update a change = heap.insert a (change slot) := by
  have hrest : heap.update a change = heap := update_of_isFree free change
  rw [update] at hrest
  rw [update, insert, List.map_cons, if_pos rfl, hrest, insert]

theorem nodup_addresses_erase {heap : Heap} (nodup : heap.addresses.Nodup) (a : Address) :
    (heap.erase a).addresses.Nodup := by
  rw [addresses_erase]
  exact nodup.filter _

/-- Erasing a slot takes its address away once. -/
theorem countP_addresses_erase {heap : Heap} {a : Address} (nodup : heap.addresses.Nodup)
    (used : a ∈ heap.addresses) (p : Address → Bool) :
    (heap.erase a).addresses.countP p + (if p a then 1 else 0) = heap.addresses.countP p := by
  have herase : (heap.erase a).addresses = heap.addresses.erase a := by
    rw [addresses_erase, nodup.erase_eq_filter]
    exact List.filter_congr fun b _ => decide_not
  have hperm : heap.addresses.Perm (a :: heap.addresses.erase a) := List.perm_cons_erase used
  rw [herase, hperm.countP_eq p, List.countP_cons]

theorem length_erase {heap : Heap} {a : Address} (nodup : heap.addresses.Nodup)
    (used : a ∈ heap.addresses) : (heap.erase a).length + 1 = heap.length := by
  have h := countP_addresses_erase nodup used fun _ => true
  simpa using h

end TrackedHeap.Heap
