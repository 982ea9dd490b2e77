import TrackedHeap.Memory.Region
import TrackedHeap.Memory.CText

/-!
# The heap

* `Address` : where a piece of memory lies, known by the name that its caller gives it;
* `Kind` : how a piece of memory is held, as a block, as a string with its length, or raw;
* `Slot` : a piece of memory and how it is held, with the bytes of a string (`Slot.string?`);
* `Heap` : the slots by address, each address in use once.
-/

namespace TrackedHeap

/-- An address. The host may place a block wherever nothing else lies; its caller names the
place. -/
structure Address where
  name : String
  deriving DecidableEq, Repr

def Address.text (a : Address) : String :=
  "@" ++ a.name

/-- How a piece of memory is held. -/
inductive Kind where
  | block
  /-- A string, by the number of bytes before its NUL. -/
  | string (length : Size)
  | raw
  deriving DecidableEq, Repr

def Kind.isString : Kind → Bool
  | .string _ => true
  | _ => false

/-- A piece of memory and how it is held. -/
structure Slot where
  kind : Kind
  region : Region
  deriving DecidableEq, Repr

namespace Slot

/-- The bytes of a string with its NUL, as they lie in memory. -/
def stringWithNul? (s : Slot) : Option Bytes :=
  match s.kind with
  | .string length => Region.setBytes? (s.region.read 0 (length.toNat + 1))
  | _ => none

/-- The bytes of a string without its NUL, as they lie in memory. -/
def string? (s : Slot) : Option Bytes :=
  match s.kind with
  | .string length => Region.setBytes? (s.region.read 0 length.toNat)
  | _ => none

end Slot

/-- The memory in use: slots by address. -/
abbrev Heap := List (Address × Slot)

namespace Heap

def find? (heap : Heap) (a : Address) : Option Slot :=
  heap.lookup a

def isFree (heap : Heap) (a : Address) : Bool :=
  (heap.find? a).isNone

/-- A slot put at an address where nothing lay. -/
def insert (heap : Heap) (a : Address) (slot : Slot) : Heap :=
  (a, slot) :: heap

def erase (heap : Heap) (a : Address) : Heap :=
  heap.filter fun entry => entry.1 ≠ a

def update (heap : Heap) (a : Address) (change : Slot → Slot) : Heap :=
  heap.map fun entry => if entry.1 = a then (a, change entry.2) else entry

theorem find?_cons (entry : Address × Slot) (rest : Heap) (a : Address) :
    find? (entry :: rest) a = if a = entry.1 then some entry.2 else find? rest a := by
  obtain ⟨b, slot⟩ := entry
  unfold find?
  rw [List.lookup_cons]
  by_cases h : a = b
  · simp [h]
  · have h' : (a == b) = false := beq_eq_false_iff_ne.2 h
    rw [h', if_neg h]

@[simp] theorem find?_insert_self (heap : Heap) (a : Address) (slot : Slot) :
    (heap.insert a slot).find? a = some slot := by
  rw [insert, find?_cons, if_pos rfl]

theorem find?_insert_of_ne (heap : Heap) {a b : Address} (slot : Slot) (h : b ≠ a) :
    (heap.insert a slot).find? b = heap.find? b := by
  rw [insert, find?_cons, if_neg h]

@[simp] theorem find?_erase_self (heap : Heap) (a : Address) :
    (heap.erase a).find? a = none := by
  induction heap with
  | nil => rfl
  | cons entry rest ih =>
    by_cases h : entry.1 = a
    · rw [erase, List.filter_cons_of_neg (by simp [h])]
      exact ih
    · rw [erase, List.filter_cons_of_pos (by simp [h]), find?_cons, if_neg (Ne.symm h)]
      exact ih

theorem find?_erase_of_ne (heap : Heap) {a b : Address} (h : b ≠ a) :
    (heap.erase a).find? b = heap.find? b := by
  induction heap with
  | nil => rfl
  | cons entry rest ih =>
    rw [find?_cons, ← ih]
    by_cases e : entry.1 = a
    · have hne : b ≠ entry.1 := by rwa [e]
      rw [erase, List.filter_cons_of_neg (by simp [e]), if_neg hne]
      rfl
    · rw [erase, List.filter_cons_of_pos (by simp [e]), find?_cons]
      rfl

@[simp] theorem find?_update_self (heap : Heap) (a : Address) (change : Slot → Slot) :
    (heap.update a change).find? a = (heap.find? a).map change := by
  induction heap with
  | nil => rfl
  | cons entry rest ih =>
    rw [update, List.map_cons, find?_cons, find?_cons]
    by_cases h : entry.1 = a
    · rw [if_pos h, if_pos rfl, if_pos h.symm]
      rfl
    · rw [if_neg h, if_neg (Ne.symm h), if_neg (Ne.symm h)]
      exact ih

theorem find?_update_of_ne (heap : Heap) {a b : Address} (change : Slot → Slot) (h : b ≠ a) :
    (heap.update a change).find? b = heap.find? b := by
  induction heap with
  | nil => rfl
  | cons entry rest ih =>
    rw [update, List.map_cons, find?_cons, find?_cons, ← ih]
    by_cases e : entry.1 = a
    · have hne : b ≠ entry.1 := by rwa [e]
      rw [if_pos e, if_neg h, if_neg hne]
      rfl
    · rw [if_neg e]
      rfl

end Heap

end TrackedHeap
