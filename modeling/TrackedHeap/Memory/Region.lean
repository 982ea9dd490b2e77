import TrackedHeap.Memory.Request
import TrackedHeap.Text.Utf8

/-!
# Regions of memory

* `Cell` : a byte that may be unset;
* `Region` : the cells of one piece of memory, the first of them listed and the rest alike;
* `Region.unset`, `Region.zeroed`, `Region.ofRequest` : new memory;
* `Region.store`, `Region.read` : bytes at an offset;
* `Region.text?` : the bytes before the first NUL;
* `Region.cell` : the cell at an offset, which a store sets inside (`cell_store_of_mem`) and leaves
  before (`cell_store_of_lt`), and which a read gives (`getElem?_read`).
-/

namespace TrackedHeap

/-- A byte of memory, `none` before anything is stored in it. -/
abbrev Cell := Option UInt8

/-- A piece of memory: its size, its first cells, and what every cell after those holds. -/
structure Region where
  size : Size
  cells : List Cell
  beyond : Cell
  deriving DecidableEq, Repr

namespace Region

def unset (size : Size) : Region := ⟨size, [], none⟩

def zeroed (size : Size) : Region := ⟨size, [], some 0⟩

/-- The memory that answers a request: a block unset, an array zero. -/
def ofRequest : Request → Region
  | .block size => unset size
  | r@(.array _ _) => zeroed r.product

def cell (r : Region) (offset : Nat) : Cell :=
  r.cells.getD offset r.beyond

def read (r : Region) (offset length : Nat) : List Cell :=
  ((r.cells.rightpad (offset + length) r.beyond).drop offset).take length

def store (r : Region) (offset : Nat) (bytes : Bytes) : Region :=
  { r with
    cells := (r.cells.rightpad offset r.beyond).take offset ++ bytes.map some ++
      r.cells.drop (offset + bytes.length) }

/-- The bytes of cells that are all set. -/
def setBytes? (cells : List Cell) : Option Bytes :=
  if cells.all Option.isSome then some (cells.filterMap id) else none

/-- A cell that a text goes on with: set, and no NUL. -/
def isTextCell (c : Cell) : Bool :=
  c.isSome && c != some 0

/-- The cells that decide where a text ends: the listed ones and one that stands for the rest. -/
def scanned (r : Region) : List Cell :=
  if r.cells.length < r.size.toNat then r.cells ++ [r.beyond] else r.cells.take r.size.toNat

/-- The bytes before the first NUL, unless an unset cell or the end comes first. -/
def text? (r : Region) : Option Bytes :=
  match r.scanned.dropWhile isTextCell with
  | some 0 :: _ => some ((r.scanned.takeWhile isTextCell).filterMap id)
  | _ => none

@[simp] theorem size_store (r : Region) (offset : Nat) (bytes : Bytes) :
    (r.store offset bytes).size = r.size := rfl

theorem length_read (r : Region) (offset length : Nat) :
    (r.read offset length).length = length := by
  simp [read, List.rightpad]
  omega

/-! ## Cells after a store -/

/-- A padded list: its own cells, then the fill. -/
theorem getElem?_rightpad (cells : List Cell) (n i : Nat) (fill : Cell) :
    (cells.rightpad n fill)[i]? =
      if i < cells.length then cells[i]? else if i < n then some fill else none := by
  rw [List.rightpad, List.getElem?_append]
  split
  · rfl
  · rw [List.getElem?_replicate]
    by_cases h : i < n
    · rw [if_pos h, if_pos (by omega)]
    · rw [if_neg h, if_neg (by omega)]

theorem getElem?_read (r : Region) {offset length i : Nat} (h : i < length) :
    (r.read offset length)[i]? = some (r.cell (offset + i)) := by
  rw [read, List.getElem?_take_of_lt h, List.getElem?_drop, getElem?_rightpad, cell]
  split
  · rename_i h'
    simp [List.getElem?_eq_getElem h']
  · rename_i h'
    simp [h', h]

theorem length_take_rightpad (r : Region) (offset : Nat) :
    ((r.cells.rightpad offset r.beyond).take offset).length = offset := by
  simp [List.rightpad]; omega

theorem cell_store_of_lt (r : Region) {offset i : Nat} (bytes : Bytes) (h : i < offset) :
    (r.store offset bytes).cell i = r.cell i := by
  simp only [cell, store, List.getD_eq_getElem?_getD, List.append_assoc]
  rw [List.getElem?_append_left (by rw [length_take_rightpad]; exact h), List.getElem?_take_of_lt h,
    getElem?_rightpad]
  split
  · rfl
  · rename_i hi
    simp [List.getElem?_eq_none (Nat.not_lt.1 hi)]

theorem cell_store_of_mem (r : Region) (offset : Nat) {bytes : Bytes} {i : Nat}
    (h : i < bytes.length) : (r.store offset bytes).cell (offset + i) = some bytes[i] := by
  simp only [cell, store, List.getD_eq_getElem?_getD, List.append_assoc]
  rw [List.getElem?_append_right (by rw [length_take_rightpad]; omega), length_take_rightpad,
    Nat.add_sub_cancel_left, List.getElem?_append_left (by simpa using h)]
  simp [List.getElem?_eq_getElem h]

end Region

end TrackedHeap
