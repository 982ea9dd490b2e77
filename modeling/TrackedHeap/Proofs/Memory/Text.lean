import TrackedHeap.Memory.Region

/-!
# Text in a region

* `Region.Holds r bytes` : the bytes lie at the start of `r`, none of them a NUL, with a NUL after
  them that still lies inside;
* `exists_holds` : what lies before the first NUL is such a text;
* `Holds.setBytes?_read`, `Holds.setBytes?_read_succ` : what is read back, without and with the NUL;
* `text?_eq_some_iff` : the scan for the first NUL finds exactly the text that a region holds.
-/

namespace TrackedHeap.Region

/-- The region holds a text: its bytes at the start, a NUL after them, and no NUL among them. -/
structure Holds (r : Region) (bytes : Bytes) : Prop where
  length_lt : bytes.length < r.size.toNat
  cell_eq : ∀ i < bytes.length, r.cell i = bytes[i]?
  cell_length : r.cell bytes.length = some 0
  noNul : 0 ∉ bytes

/-- What lies before the first NUL is a text, as long as all of it is set. -/
theorem exists_holds {r : Region} {n : Nat} (inside : n < r.size.toNat)
    (text : ∀ k < n, ∃ b, r.cell k = some b ∧ b ≠ 0) (nul : r.cell n = some 0) :
    ∃ bytes : Bytes, bytes.length = n ∧ r.Holds bytes := by
  have hcell : ∀ k < n, r.cell k = (List.ofFn fun k : Fin n => (r.cell k).getD 0)[k]? := by
    intro k hk
    obtain ⟨b, hb, -⟩ := text k hk
    rw [List.getElem?_ofFn, dif_pos hk]
    simp only [hb, Option.getD_some]
  have hlength : (List.ofFn fun k : Fin n => (r.cell k).getD 0).length = n := List.length_ofFn
  refine ⟨_, hlength, ?_, ?_, ?_, ?_⟩
  · rwa [hlength]
  · rwa [hlength]
  · rwa [hlength]
  · intro hnul
    obtain ⟨k, hk⟩ := List.mem_ofFn.1 hnul
    obtain ⟨b, hb, hne⟩ := text k k.isLt
    rw [hb] at hk
    exact hne hk

/-! ## Reading -/

theorem setBytes?_map_some (bytes : Bytes) : setBytes? (bytes.map some) = some bytes := by
  have hset : (bytes.map some).all Option.isSome = true := by simp
  rw [setBytes?, if_pos hset, List.filterMap_map]
  exact congrArg some List.filterMap_some

theorem setBytes?_read_of_cell {r : Region} {bytes : Bytes}
    (h : ∀ i < bytes.length, r.cell i = bytes[i]?) :
    setBytes? (r.read 0 bytes.length) = some bytes := by
  have hread : r.read 0 bytes.length = bytes.map some := by
    apply List.ext_getElem?
    intro i
    by_cases hi : i < bytes.length
    · rw [getElem?_read r hi, Nat.zero_add, h i hi, List.getElem?_map,
        List.getElem?_eq_getElem hi]
      rfl
    · rw [List.getElem?_eq_none (by rw [length_read]; omega),
        List.getElem?_eq_none (by rw [List.length_map]; omega)]
  rw [hread, setBytes?_map_some]

namespace Holds
variable {r : Region} {bytes : Bytes}

theorem setBytes?_read (h : r.Holds bytes) : setBytes? (r.read 0 bytes.length) = some bytes :=
  setBytes?_read_of_cell h.cell_eq

theorem cell_eq_succ (h : r.Holds bytes) {i : Nat} (hi : i < (bytes ++ [0]).length) :
    r.cell i = (bytes ++ [0])[i]? := by
  rw [List.length_append, List.length_singleton] at hi
  by_cases hlt : i < bytes.length
  · rw [List.getElem?_append_left hlt, h.cell_eq i hlt]
  · obtain rfl : i = bytes.length := by omega
    rw [h.cell_length, List.getElem?_append_right (Nat.le_refl _), Nat.sub_self]
    rfl

theorem setBytes?_read_succ (h : r.Holds bytes) :
    setBytes? (r.read 0 (bytes.length + 1)) = some (bytes ++ [0]) := by
  have hread := setBytes?_read_of_cell (r := r) fun i => h.cell_eq_succ (i := i)
  rwa [List.length_append, List.length_singleton] at hread

end Holds

/-! ## Scanning -/

theorem length_scanned_le (r : Region) : r.scanned.length ≤ r.size.toNat := by
  unfold scanned
  split
  · rw [List.length_append, List.length_singleton]
    omega
  · rw [List.length_take]
    omega

theorem getElem?_scanned {r : Region} {i : Nat} (h : i < r.scanned.length) :
    r.scanned[i]? = some (r.cell i) := by
  unfold scanned cell at *
  rw [List.getD_eq_getElem?_getD]
  split at h <;> rename_i hsize
  · rw [List.length_append, List.length_singleton] at h
    rw [if_pos hsize]
    by_cases hi : i < r.cells.length
    · rw [List.getElem?_append_left hi, List.getElem?_eq_getElem hi]
      rfl
    · obtain rfl : i = r.cells.length := by omega
      rw [List.getElem?_append_right (Nat.le_refl _), Nat.sub_self,
        List.getElem?_eq_none (Nat.le_refl _)]
      rfl
  · rw [List.length_take] at h
    rw [if_neg hsize, List.getElem?_take_of_lt (by omega),
      List.getElem?_eq_getElem (by omega : i < r.cells.length)]
    rfl

theorem map_some_filterMap_id {cells : List Cell} (h : ∀ c ∈ cells, c.isSome) :
    (cells.filterMap id).map some = cells := by
  induction cells with
  | nil => rfl
  | cons c rest ih =>
    obtain ⟨b, rfl⟩ := Option.isSome_iff_exists.1 (h c List.mem_cons_self)
    have hcons : (some b :: rest).filterMap id = b :: rest.filterMap id :=
      List.filterMap_cons_some rfl
    rw [hcons, List.map_cons, ih fun c hc => h c (List.mem_cons_of_mem _ hc)]

/-- The scan finds a text when the cells it looks at start with it and a NUL. -/
theorem text?_eq_some_iff_scanned {r : Region} {bytes : Bytes} :
    r.text? = some bytes ↔ 0 ∉ bytes ∧ ∃ rest, r.scanned = bytes.map some ++ some 0 :: rest := by
  constructor
  · intro h
    unfold text? at h
    split at h <;> rename_i hdrop
    · rename_i rest
      have htext : ∀ c ∈ r.scanned.takeWhile isTextCell, isTextCell c = true :=
        fun c hc => List.all_eq_true.1 List.all_takeWhile c hc
      have hmap : bytes.map some = r.scanned.takeWhile isTextCell := by
        rw [← Option.some.inj h]
        refine map_some_filterMap_id fun c hc => ?_
        have := htext c hc
        rw [isTextCell, Bool.and_eq_true] at this
        exact this.1
      refine ⟨fun hnul => ?_, rest, ?_⟩
      · have := htext (some 0) (hmap ▸ List.mem_map_of_mem hnul)
        simp [isTextCell] at this
      · rw [hmap, ← hdrop, List.takeWhile_append_dropWhile]
    · cases h
  · rintro ⟨noNul, rest, hscanned⟩
    have htext : ∀ c ∈ bytes.map some, isTextCell c = true := by
      intro c hc
      obtain ⟨b, hb, rfl⟩ := List.mem_map.1 hc
      have hne : b ≠ 0 := fun h => noNul (h ▸ hb)
      simpa [isTextCell] using hne
    have hstop : isTextCell (some 0) = false := rfl
    have hdrop : r.scanned.dropWhile isTextCell = some 0 :: rest := by
      rw [hscanned, List.dropWhile_append_of_pos htext, List.dropWhile_cons, hstop]
      rfl
    have htake : r.scanned.takeWhile isTextCell = bytes.map some := by
      rw [hscanned, List.takeWhile_append_of_pos htext, List.takeWhile_cons, hstop]
      simp
    rw [text?, hdrop, htake, List.filterMap_map]
    exact congrArg some List.filterMap_some

/-- A text in a region ends before the scan does: the cells past the listed ones are alike. -/
theorem Holds.length_lt_scanned {r : Region} {bytes : Bytes} (h : r.Holds bytes) :
    bytes.length < r.scanned.length := by
  unfold scanned
  split <;> rename_i hsize
  · rw [List.length_append, List.length_singleton]
    refine Nat.lt_of_not_le fun hlong => ?_
    have hbeyond : ∀ i, r.cells.length ≤ i → r.cell i = r.beyond := by
      intro i hi
      rw [cell, List.getD_eq_getElem?_getD, List.getElem?_eq_none hi]
      rfl
    have hnul := h.cell_eq r.cells.length (by omega)
    rw [hbeyond _ (Nat.le_refl _), ← hbeyond bytes.length (by omega), h.cell_length] at hnul
    exact h.noNul (List.mem_of_getElem? hnul.symm)
  · have := h.length_lt
    rw [List.length_take]
    omega

/-- **The scan for the first NUL finds exactly the text that a region holds.** -/
theorem text?_eq_some_iff {r : Region} {bytes : Bytes} :
    r.text? = some bytes ↔ r.Holds bytes := by
  rw [text?_eq_some_iff_scanned]
  constructor
  · rintro ⟨noNul, rest, hscanned⟩
    have hlength : bytes.length < r.scanned.length := by
      rw [hscanned, List.length_append, List.length_map, List.length_cons]
      omega
    have hcell : ∀ i ≤ bytes.length, some (r.cell i) = (bytes.map some ++ some 0 :: rest)[i]? := by
      intro i hi
      rw [← hscanned, getElem?_scanned (by omega)]
    refine ⟨Nat.lt_of_lt_of_le hlength r.length_scanned_le, fun i hi => ?_, ?_, noNul⟩
    · have := hcell i (Nat.le_of_lt hi)
      rw [List.getElem?_append_left (by simpa using hi), List.getElem?_map,
        List.getElem?_eq_getElem hi] at this
      rw [List.getElem?_eq_getElem hi]
      exact Option.some.inj this
    · have := hcell bytes.length (Nat.le_refl _)
      rw [List.getElem?_append_right (by simp), List.length_map, Nat.sub_self] at this
      exact Option.some.inj this
  · intro h
    have hlength := h.length_lt_scanned
    refine ⟨h.noNul, r.scanned.drop (bytes.length + 1), ?_⟩
    have htake : r.scanned.take bytes.length = bytes.map some := by
      apply List.ext_getElem?
      intro i
      by_cases hi : i < bytes.length
      · rw [List.getElem?_take_of_lt hi, getElem?_scanned (by omega), h.cell_eq i hi,
          List.getElem?_map, List.getElem?_eq_getElem hi]
        rfl
      · rw [List.getElem?_eq_none (by rw [List.length_take]; omega),
          List.getElem?_eq_none (by rw [List.length_map]; omega)]
    have hdrop : r.scanned.drop bytes.length = some 0 :: r.scanned.drop (bytes.length + 1) := by
      rw [List.drop_eq_getElem_cons hlength]
      congr 1
      have := getElem?_scanned hlength
      rw [List.getElem?_eq_getElem hlength, h.cell_length] at this
      exact Option.some.inj this
    rw [← htake, ← hdrop, List.take_append_drop]

end TrackedHeap.Region
