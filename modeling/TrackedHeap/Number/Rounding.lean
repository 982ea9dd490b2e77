/-!
# Rounding a quotient

* `roundDiv` : the natural number nearest to a quotient, the even one of two that are equally near;
* `two_mul_roundDiv_le` and `le_two_mul_roundDiv` : it is at most half a unit away;
* `roundDiv_mul` : a whole quotient is its own rounding.
-/

namespace TrackedHeap.Number

/-- The natural number nearest to `num / den`; of two equally near ones the even one. -/
def roundDiv (num den : Nat) : Nat :=
  if den < 2 * (num % den) ∨ (2 * (num % den) = den ∧ num / den % 2 = 1) then num / den + 1
  else num / den

theorem roundDiv_eq_or (num den : Nat) :
    roundDiv num den = num / den ∨ roundDiv num den = num / den + 1 := by
  unfold roundDiv
  split <;> simp

theorem roundDiv_mul (n : Nat) {den : Nat} (h : 0 < den) : roundDiv (n * den) den = n := by
  simp [roundDiv, Nat.mul_div_cancel _ h]
  omega

theorem two_mul_roundDiv_le (num : Nat) {den : Nat} (h : 0 < den) :
    2 * (den * roundDiv num den) ≤ 2 * num + den := by
  have e := Nat.div_add_mod num den
  have l := Nat.mod_lt num h
  unfold roundDiv
  split
  · rw [Nat.mul_add]; omega
  · omega

theorem le_two_mul_roundDiv (num : Nat) {den : Nat} (h : 0 < den) :
    2 * num ≤ 2 * (den * roundDiv num den) + den := by
  have e := Nat.div_add_mod num den
  have l := Nat.mod_lt num h
  unfold roundDiv
  split
  · rw [Nat.mul_add]; omega
  · omega

end TrackedHeap.Number
