import TrackedHeap.Proofs.Number.FixedTexts

/-!
# Reading integers back

* `not_mem_toDigits` : the digits of a number are nothing but digits;
* `Number.intText_eq` : the text of an integer is its decimal numeral;
* `Number.readSigned_repr`, `Number.readSigned_intText` : an integer is read back from its text.
-/

namespace TrackedHeap

theorem not_mem_toDigits {n : Nat} {c : Char} (h : c.isDigit = false) : c ∉ Nat.toDigits 10 n := by
  intro hc
  have hdigit := Number.isDigit_of_mem_toDigits hc
  rw [h] at hdigit
  cases hdigit

namespace Number

theorem readSigned_toDigits (n : Nat) :
    readSigned (Nat.toDigits 10 n) = some (Int.ofNat n) := by
  have hread := readDigits_toDigits n
  have hplus : '+' ∉ Nat.toDigits 10 n := not_mem_toDigits rfl
  have hminus : '-' ∉ Nat.toDigits 10 n := not_mem_toDigits rfl
  unfold readSigned
  split
  · rename_i h
    exact absurd (h ▸ List.mem_cons_self) hplus
  · rename_i h
    exact absurd (h ▸ List.mem_cons_self) hminus
  · rw [hread, Option.map_some]

/-- An integer is read back from its text. -/
theorem readSigned_repr (n : Int) : readSigned n.repr.toList = some n := by
  rw [Int.repr_eq_if]
  split <;> rename_i h
  · rw [Nat.toList_repr, readSigned_toDigits, Int.ofNat_eq_natCast, Int.toNat_of_nonneg h]
  · have htext : ("-" ++ (-n).toNat.repr).toList = '-' :: Nat.toDigits 10 (-n).toNat := by
      rw [String.toList_append, Nat.toList_repr]
      rfl
    rw [htext, readSigned, readDigits_toDigits, Option.map_some, Int.ofNat_eq_natCast,
      Int.toNat_of_nonneg (by omega), Int.neg_neg]

/-- What is printed of an integer is its decimal numeral. -/
theorem intText_eq (n : Int) : intText n = n.repr.toList := by
  rw [intText, Int.repr_eq_if]
  split <;> rename_i h
  · have habs : (-n).toNat = n.natAbs := by omega
    rw [if_neg (by omega), String.toList_append, Nat.toList_repr, habs]
    rfl
  · have habs : n.toNat = n.natAbs := by omega
    rw [if_pos (by omega), Nat.toList_repr, habs]

theorem readSigned_intText (n : Int) : readSigned (intText n) = some n := by
  rw [intText_eq, readSigned_repr]

end Number

end TrackedHeap
