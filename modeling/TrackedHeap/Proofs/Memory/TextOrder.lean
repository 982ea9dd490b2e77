import Mathlib.Order.Compare
import TrackedHeap.Memory.CText
import TrackedHeap.Proofs.Memory.Text

/-!
# The order of texts

* `order_eq_compareLex` : the order of byte strings is the lexicographic one, so it is total;
* `order_swap`, `order_append_left` : the other way around it is the opposite one, and a common
  start makes no difference;
* `sign_le_zero`, `sign_lt_zero`, `sign_eq_zero`, `sign_swap` : an order as a sign;
* `Region.Scan r r' offset v` : two memories, read in step from an offset on until they differ or
  both are at a NUL, give the sign `v`. They give one sign at most (`Scan.unique`);
* `Region.scan_iff` : memories that hold texts give the sign of their order;
* `CText.compare_trans`, `CText.compare_eq_zero_iff` : texts that may be absent.
-/

namespace TrackedHeap

namespace CText

/-! ## The order of byte strings -/

theorem compare_byte (x y : UInt8) :
    Ord.compare x y = if x < y then .lt else if y < x then .gt else .eq := by
  have h : Ord.compare x y = compareOfLessAndEq x y := rfl
  rw [h, compareOfLessAndEq]
  grind

theorem order_eq_compareLex (a b : Bytes) : order a b = List.compareLex Ord.compare a b := by
  induction a generalizing b with
  | nil => cases b <;> rfl
  | cons x a ih =>
    cases b with
    | nil => rfl
    | cons y b =>
      rw [order, List.compareLex_cons_cons, compare_byte, ih]
      split
      · rfl
      · split <;> rfl

theorem order_swap (a b : Bytes) : order b a = (order a b).swap := by
  rw [order_eq_compareLex, order_eq_compareLex]
  exact Std.OrientedCmp.eq_swap

theorem order_append_left (start a b : Bytes) : order (start ++ a) (start ++ b) = order a b := by
  induction start with
  | nil => rfl
  | cons x start ih =>
    rw [List.cons_append, List.cons_append, order, if_neg (UInt8.lt_irrefl x),
      if_neg (UInt8.lt_irrefl x), ih]

/-! ## Signs -/

theorem sign_swap (o : Ordering) : sign o.swap = -sign o := by
  cases o <;> rfl

theorem sign_eq_zero {o : Ordering} : sign o = 0 ↔ o = .eq := by
  cases o <;> decide

theorem sign_lt_zero {o : Ordering} : sign o < 0 ↔ o = .lt := by
  cases o <;> decide

theorem sign_le_zero {o : Ordering} : sign o ≤ 0 ↔ o.isLE = true := by
  cases o <;> decide

end CText

namespace Region
open CText

/-! ## Reading two memories in step -/

/-- The byte at an offset, if it lies inside the memory and is set. -/
def byte? (r : Region) (offset : Nat) : Option UInt8 :=
  if offset < r.size.toNat then r.cell offset else none

/-- Two memories are read in step from an offset on, until their bytes differ or both are at a NUL.
What is found is the sign of the difference. -/
inductive Scan (r r' : Region) : (offset : Nat) → Int → Prop
  | differ {offset : Nat} {x y : UInt8} (left : r.byte? offset = some x)
      (right : r'.byte? offset = some y) (ne : x ≠ y) :
    Scan r r' offset (Int.sign (x.toNat - y.toNat))
  | ended {offset : Nat} (left : r.byte? offset = some 0) (right : r'.byte? offset = some 0) :
    Scan r r' offset 0
  | next {offset : Nat} {x : UInt8} {v : Int} (left : r.byte? offset = some x)
      (right : r'.byte? offset = some x) (goes_on : x ≠ 0) (rest : Scan r r' (offset + 1) v) :
    Scan r r' offset v

variable {r r' : Region} {offset : Nat} {v w : Int}

theorem Scan.unique (h : Scan r r' offset v) (h' : Scan r r' offset w) : v = w := by
  induction h generalizing w with
  | differ left right ne =>
    cases h' with
    | differ left' right' => simp_all
    | ended left' right' => simp_all
    | next left' right' => simp_all
  | ended left right =>
    cases h' with
    | differ left' right' ne => simp_all
    | ended => rfl
    | next left' right' goes_on => simp_all
  | next left right goes_on rest ih =>
    cases h' with
    | differ left' right' ne => simp_all
    | ended left' right' => simp_all
    | next left' right' goes_on' rest' => exact ih rest'

theorem Holds.byte?_eq {bytes : Bytes} (h : r.Holds bytes) {i : Nat} (hi : i ≤ bytes.length) :
    r.byte? i = (bytes ++ [0])[i]? := by
  have hlt := h.length_lt
  have hi' : i < (bytes ++ [0]).length := by
    rw [List.length_append, List.length_singleton]
    omega
  rw [byte?, if_pos (by omega), h.cell_eq_succ hi']

/-- From an offset on, what two memories give is the order of what is left of their texts. -/
theorem scan_order {a b : Bytes} (noNul : 0 ∉ a) (noNul' : 0 ∉ b)
    (left : ∀ i ≤ a.length, r.byte? (offset + i) = (a ++ [0])[i]?)
    (right : ∀ i ≤ b.length, r'.byte? (offset + i) = (b ++ [0])[i]?) :
    Scan r r' offset (sign (order a b)) := by
  induction a generalizing b offset with
  | nil =>
    have hleft : r.byte? offset = some 0 := left 0 (Nat.le_refl 0)
    cases b with
    | nil => exact .ended hleft (right 0 (Nat.le_refl 0))
    | cons y b =>
      have hy : y ≠ 0 := fun h => noNul' (h ▸ List.mem_cons_self)
      have hpos : 0 < y.toNat := UInt8.pos_iff_ne_zero.2 hy
      have hsign : Int.sign ((0 : UInt8).toNat - y.toNat) = -1 :=
        Int.sign_eq_neg_one_of_neg (by simpa using hpos)
      have hscan := Scan.differ hleft (right 0 (Nat.zero_le _)) (Ne.symm hy)
      rwa [hsign] at hscan
  | cons x a ih =>
    have hx : x ≠ 0 := fun h => noNul (h ▸ List.mem_cons_self)
    have hleft : r.byte? offset = some x := left 0 (Nat.zero_le _)
    cases b with
    | nil =>
      have hpos : 0 < x.toNat := UInt8.pos_iff_ne_zero.2 hx
      have hsign : Int.sign (x.toNat - (0 : UInt8).toNat) = 1 :=
        Int.sign_eq_one_of_pos (by simpa using hpos)
      have hscan := Scan.differ hleft (right 0 (Nat.le_refl 0)) hx
      rwa [hsign] at hscan
    | cons y b =>
      have hright : r'.byte? offset = some y := right 0 (Nat.zero_le _)
      rw [order]
      split <;> rename_i hlt
      · have hsign : Int.sign (x.toNat - y.toNat) = -1 :=
          Int.sign_eq_neg_one_of_neg (by have := UInt8.lt_iff_toNat_lt.1 hlt; omega)
        have hscan := Scan.differ hleft hright (UInt8.ne_of_lt hlt)
        rwa [hsign] at hscan
      · split <;> rename_i hgt
        · have hsign : Int.sign (x.toNat - y.toNat) = 1 :=
            Int.sign_eq_one_of_pos (by have := UInt8.lt_iff_toNat_lt.1 hgt; omega)
          have hscan := Scan.differ hleft hright (UInt8.ne_of_lt hgt).symm
          rwa [hsign] at hscan
        · -- Equal bytes are passed over, and the rest decides.
          obtain rfl : x = y := UInt8.le_antisymm (UInt8.not_lt.1 hgt) (UInt8.not_lt.1 hlt)
          refine .next hleft hright hx (ih (fun h => noNul (List.mem_cons_of_mem x h))
            (fun h => noNul' (List.mem_cons_of_mem x h)) (fun i hi => ?_) (fun i hi => ?_))
          · rw [Nat.add_assoc, Nat.add_comm 1 i]
            exact left (i + 1) (Nat.succ_le_succ hi)
          · rw [Nat.add_assoc, Nat.add_comm 1 i]
            exact right (i + 1) (Nat.succ_le_succ hi)

/-- **Memories that hold two texts, read in step, give the sign of their order** and no other. -/
theorem scan_iff {a b : Bytes} (left : r.Holds a) (right : r'.Holds b) :
    Scan r r' 0 v ↔ v = sign (order a b) := by
  have hscan : Scan r r' 0 (sign (order a b)) := by
    apply scan_order left.noNul right.noNul
    · intro i hi
      rw [Nat.zero_add, left.byte?_eq hi]
    · intro i hi
      rw [Nat.zero_add, right.byte?_eq hi]
  constructor
  · intro h
    exact h.unique hscan
  · rintro rfl
    exact hscan

end Region

namespace CText

/-! ## Texts that may be absent -/

theorem compare_trans {a b c : CText} (h : compare (some a) (some b) ≤ 0)
    (h' : compare (some b) (some c) ≤ 0) :
    compare (some a) (some c) ≤ 0 ∧
      (compare (some a) (some b) < 0 ∨ compare (some b) (some c) < 0 →
        compare (some a) (some c) < 0) := by
  simp only [compare, sign_le_zero, sign_lt_zero, order_eq_compareLex] at h h' ⊢
  refine ⟨Std.TransCmp.isLE_trans h h', ?_⟩
  rintro (hlt | hlt)
  · exact Std.TransCmp.lt_of_lt_of_isLE hlt h'
  · exact Std.TransCmp.lt_of_isLE_of_lt h hlt

/-- Texts that may be absent compare as equal when they are. -/
theorem compare_eq_zero_iff {a b : Option CText} : compare a b = 0 ↔ a = b := by
  cases a with
  | none =>
    cases b with
    | none => simp [compare]
    | some b => simp [compare]
  | some a =>
    cases b with
    | none => simp [compare]
    | some b =>
      rw [compare, sign_eq_zero, order_eq_compareLex, Std.LawfulEqCmp.compare_eq_iff_eq,
        Option.some.injEq]
      exact ⟨ext, fun h => h ▸ rfl⟩

end CText

end TrackedHeap
