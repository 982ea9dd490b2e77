import TrackedHeap.Memory.Access
import TrackedHeap.Proofs.Memory.Text

/-!
# Memory held in other ways

* `Slot.HoldsString` : a slot is a string of some bytes, as which it is read back
  (`HoldsString.string?`, `HoldsString.stringWithNul?`);
* `toRaw?_eq_some`, `toBlock?_eq_some`, `toString?_eq_some` : when memory can be held in another way.
  Only how it is held changes;
* `write?_eq_some` : when bytes can be stored in it.
-/

namespace TrackedHeap

theorem Kind.isString_eq_false {kind : Kind} : kind.isString = false ↔ ∀ n, kind ≠ .string n := by
  cases kind with
  | block => simp [isString]
  | string length => simp [isString]
  | raw => simp [isString]

namespace Slot
variable {slot slot' : Slot} {length : Size} {bytes : Bytes}

/-- A slot is a string of the given bytes. -/
structure HoldsString (slot : Slot) (length : Size) (bytes : Bytes) : Prop where
  kind_eq : slot.kind = .string length
  length_eq : bytes.length = length.toNat
  holds : slot.region.Holds bytes

theorem HoldsString.string? (h : slot.HoldsString length bytes) : slot.string? = some bytes := by
  rw [Slot.string?, h.kind_eq]
  dsimp only
  rw [← h.length_eq, h.holds.setBytes?_read]

theorem HoldsString.stringWithNul? (h : slot.HoldsString length bytes) :
    slot.stringWithNul? = some (bytes ++ [0]) := by
  rw [Slot.stringWithNul?, h.kind_eq]
  dsimp only
  rw [← h.length_eq, h.holds.setBytes?_read_succ]

/-- Memory that holds a text is a string when it is held as one. -/
theorem holdsString_of_holds {r : Region} (h : r.Holds bytes) :
    HoldsString ⟨.string (UInt64.ofNat bytes.length), r⟩ (UInt64.ofNat bytes.length) bytes := by
  refine ⟨rfl, ?_, h⟩
  have hlt := h.length_lt
  have hsize := r.size.toNat_lt
  rw [UInt64.toNat_ofNat', Nat.mod_eq_of_lt (by omega)]

/-! ## Conversions -/

theorem toRaw?_eq_some :
    slot.toRaw? = some slot' ↔ slot.kind ≠ .raw ∧ slot' = { slot with kind := .raw } := by
  unfold toRaw?
  split <;> rename_i hkind
  · simp [hkind]
  · have hne : slot.kind ≠ .raw := hkind
    simp [hne, eq_comm]

theorem toBlock?_eq_some :
    slot.toBlock? = some slot' ↔ slot.kind = .raw ∧ slot' = { slot with kind := .block } := by
  unfold toBlock?
  split <;> rename_i hkind
  · simp [hkind, eq_comm]
  · have hne : slot.kind ≠ .raw := hkind
    simp [hne]

/-- Raw memory is held as a string exactly when it holds a text. -/
theorem toString?_eq_some :
    slot.toString? = some slot' ↔ slot.kind = .raw ∧ ∃ bytes, slot.region.Holds bytes ∧
      slot' = ⟨.string (UInt64.ofNat bytes.length), slot.region⟩ := by
  unfold toString?
  split <;> rename_i hkind
  · constructor
    · intro h
      obtain ⟨bytes, hbytes, rfl⟩ := Option.map_eq_some_iff.1 h
      exact ⟨hkind, bytes, Region.text?_eq_some_iff.1 hbytes, rfl⟩
    · rintro ⟨-, bytes, holds, rfl⟩
      rw [Region.text?_eq_some_iff.2 holds]
      rfl
  · have hne : slot.kind ≠ .raw := hkind
    simp [hne]

theorem write?_eq_some {offset : Nat} :
    slot.write? offset bytes = some slot' ↔ slot.kind.isString = false ∧
      slot.region.spans offset bytes.length = true ∧
      slot' = { slot with region := slot.region.store offset bytes } := by
  unfold write?
  split <;> rename_i hkind
  · simp [hkind, Kind.isString]
  · have hstring : slot.kind.isString = false := Kind.isString_eq_false.2 hkind
    by_cases haccess : slot.region.spans offset bytes.length = true
    · simp [hstring, haccess, eq_comm]
    · simp [haccess]

end Slot

end TrackedHeap
