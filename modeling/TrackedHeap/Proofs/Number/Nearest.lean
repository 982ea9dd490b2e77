import Mathlib.Algebra.Group.Nat.Defs
import TrackedHeap.Number.Double

/-!
# The double nearest to a quotient

* `roundDiv_eq_of_lt` : what is strictly within half a unit of a quotient is its rounding;
* `ofParts_eq`, `negative_ofParts`, `exponent_ofParts`, `fraction_ofParts` : a double is its sign, its
  exponent and its fraction;
* `Double.Scaled shift significand` : a significand of 53 bits, or of fewer where nothing is shifted.
  Its bits stand for `significand * 2 ^ shift` units (`magnitude_ofParts`), also when rounding has
  carried, and every finite double is one (`exists_scaled`);
* `significandFor` : the significand that a quotient rounds to, with which `nearestBits` is put
  together (`nearestBits_eq`, `scaled_significandFor`).
-/

namespace TrackedHeap

namespace Number

/-- A number strictly within half a unit of a quotient is its rounding. -/
theorem roundDiv_eq_of_lt {num den n : Nat} (lower : 2 * (n * den) < 2 * num + den)
    (upper : 2 * num < 2 * (n * den) + den) : roundDiv num den = n := by
  have hden : 0 < den := by omega
  have hle := two_mul_roundDiv_le num hden
  have hge := le_two_mul_roundDiv num hden
  have habove : den * roundDiv num den < den * (n + 1) := by
    rw [Nat.mul_add, Nat.mul_comm den n]
    omega
  have hbelow : den * n < den * (roundDiv num den + 1) := by
    rw [Nat.mul_add, Nat.mul_comm den n]
    omega
  have := Nat.lt_of_mul_lt_mul_left habove
  have := Nat.lt_of_mul_lt_mul_left hbelow
  omega

/-- A quotient below a whole number rounds to at most that number. -/
theorem roundDiv_le_of_lt {num den n : Nat} (h : num / den < n) : roundDiv num den ≤ n := by
  obtain h' | h' := roundDiv_eq_or num den <;> omega

theorem div_le_roundDiv (num den : Nat) : num / den ≤ roundDiv num den := by
  obtain h | h := roundDiv_eq_or num den <;> omega

end Number

namespace Double

/-! ## Parts -/

theorem infinityBits_eq : infinityBits = 2047 * 2 ^ 52 := by
  rw [infinityBits, Nat.shiftLeft_eq]

theorem infinityBits_lt : infinityBits < 2 ^ 63 := by
  rw [infinityBits_eq]
  omega

theorem toNat_ofParts (negative : Bool) {bits : Nat} (h : bits < 2 ^ 63) :
    (ofParts negative bits).bits.toNat = if negative then 2 ^ 63 + bits else bits := by
  have hsize : UInt64.size = 2 ^ 64 := rfl
  rw [ofParts, Nat.one_shiftLeft]
  apply UInt64.toNat_ofNat_of_lt'
  split <;> omega

theorem negative_ofParts (negative : Bool) {bits : Nat} (h : bits < 2 ^ 63) :
    (ofParts negative bits).negative = negative := by
  rw [Double.negative, toNat_ofParts negative h, Nat.one_shiftLeft]
  cases negative with
  | true =>
    rw [if_pos rfl]
    exact decide_eq_true (Nat.le_add_right _ _)
  | false =>
    rw [if_neg Bool.false_ne_true]
    exact decide_eq_false (Nat.not_le.2 h)

theorem exponent_ofParts (negative : Bool) {bits : Nat} (h : bits < 2 ^ 63) :
    (ofParts negative bits).exponent = bits / 2 ^ 52 := by
  rw [exponent, toNat_ofParts negative h, Nat.shiftRight_eq_div_pow, Nat.one_shiftLeft]
  split <;> omega

theorem fraction_ofParts (negative : Bool) {bits : Nat} (h : bits < 2 ^ 63) :
    (ofParts negative bits).fraction = bits % 2 ^ 52 := by
  rw [fraction, toNat_ofParts negative h, Nat.one_shiftLeft]
  split <;> omega

/-- A double is put together from its sign bit, its exponent and its fraction. -/
theorem ofParts_eq (x : Double) :
    ofParts x.negative (x.exponent * 2 ^ 52 + x.fraction) = x := by
  have hlt := x.bits.toNat_lt
  rw [ofParts, Double.mk.injEq]
  apply UInt64.toNat_inj.1
  rw [UInt64.toNat_ofNat']
  simp only [Double.negative, exponent, fraction, Nat.one_shiftLeft, Nat.shiftRight_eq_div_pow]
  simp only [decide_eq_true_eq]
  split <;> omega

theorem exponent_le (x : Double) : x.exponent ≤ 2047 := by
  rw [exponent, Nat.one_shiftLeft]
  omega

theorem fraction_lt (x : Double) : x.fraction < 2 ^ 52 := by
  rw [fraction, Nat.one_shiftLeft]
  omega

/-! ## Scaled significands -/

/-- A significand and a number of places to shift it by, as a double keeps them: at most 53 bits,
and as many unless nothing is shifted. A significand of `2 ^ 53` is one that rounding has carried. -/
structure Scaled (shift significand : Nat) : Prop where
  significand_le : significand ≤ 2 ^ 53
  normal : shift = 0 ∨ 2 ^ 52 ≤ significand

/-- What rounding has carried at the greatest shift is infinity; nothing else comes near it. -/
theorem bits_lt_infinityBits {shift significand : Nat} (bound : shift ≤ 2045)
    (scaled : Scaled shift significand) (finite : shift < 2045 ∨ significand < 2 ^ 53) :
    shift * 2 ^ 52 + significand < infinityBits := by
  have := scaled.significand_le
  rw [infinityBits_eq]
  omega

/-- The bits that a shift and a significand add up to stand for the shifted significand. -/
theorem magnitude_ofParts (negative : Bool) {shift significand : Nat}
    (scaled : Scaled shift significand) (finite : shift * 2 ^ 52 + significand < infinityBits) :
    (ofParts negative (shift * 2 ^ 52 + significand)).magnitude =
      .finite (significand * 2 ^ shift) := by
  obtain ⟨hle, hnormal⟩ := scaled
  rw [infinityBits_eq] at finite
  have hbits : shift * 2 ^ 52 + significand < 2 ^ 63 := by omega
  have hexponent := exponent_ofParts negative hbits
  have hfraction := fraction_ofParts negative hbits
  rw [magnitude, hexponent, hfraction, if_neg (by omega), Nat.one_shiftLeft, Nat.shiftLeft_eq]
  by_cases hsub : significand < 2 ^ 52
  · -- A subnormal magnitude is its fraction.
    obtain rfl : shift = 0 := by omega
    rw [if_pos (by omega), Nat.zero_mul, Nat.zero_add, Nat.mod_eq_of_lt hsub, Nat.pow_zero,
      Nat.mul_one]
  · rw [if_neg (by omega)]
    by_cases hcarry : significand = 2 ^ 53
    · have he : (shift * 2 ^ 52 + significand) / 2 ^ 52 - 1 = shift + 1 := by omega
      have hf : (shift * 2 ^ 52 + significand) % 2 ^ 52 = 0 := by omega
      have hsucc : 2 ^ 52 * 2 = 2 ^ 53 := rfl
      rw [he, hf, hcarry, Nat.add_zero, Nat.pow_succ 2 shift, Nat.mul_comm (2 ^ shift),
        ← Nat.mul_assoc, hsucc]
    · have he : (shift * 2 ^ 52 + significand) / 2 ^ 52 - 1 = shift := by omega
      have hf : 2 ^ 52 + (shift * 2 ^ 52 + significand) % 2 ^ 52 = significand := by omega
      rw [he, hf]

/-- Every finite double is a scaled significand. -/
theorem exists_scaled {x : Double} {units : Nat} (finite : x.magnitude = .finite units) :
    ∃ shift significand, Scaled shift significand ∧ significand < 2 ^ 53 ∧ shift ≤ 2045 ∧
      units = significand * 2 ^ shift ∧
      x = ofParts x.negative (shift * 2 ^ 52 + significand) := by
  have hfraction := x.fraction_lt
  have hexponent := x.exponent_le
  have hparts := x.ofParts_eq
  rw [magnitude] at finite
  split at finite
  · split at finite <;> cases finite
  split at finite
  · rename_i hzero
    obtain rfl := Magnitude.finite.inj finite
    refine ⟨0, x.fraction, ⟨by omega, .inl rfl⟩, by omega, by omega, ?_, ?_⟩
    · rw [Nat.pow_zero, Nat.mul_one]
    · rw [← hzero]
      exact hparts.symm
  · rename_i hinfinite hzero
    have hunits := Magnitude.finite.inj finite
    rw [Nat.one_shiftLeft, Nat.shiftLeft_eq] at hunits
    refine ⟨x.exponent - 1, 2 ^ 52 + x.fraction, ⟨by omega, .inr (by omega)⟩, by omega, by omega,
      hunits.symm, ?_⟩
    have hbits : (x.exponent - 1) * 2 ^ 52 + (2 ^ 52 + x.fraction) =
        x.exponent * 2 ^ 52 + x.fraction := by omega
    rw [hbits]
    exact hparts.symm

/-! ## The nearest double -/

theorem lt_two_pow_shiftFor (units : Nat) : units < 2 ^ (shiftFor units + 53) := by
  have hlog := Nat.lt_log2_self (n := units)
  refine Nat.lt_of_lt_of_le hlog (Nat.pow_le_pow_right (by decide) ?_)
  rw [shiftFor]
  omega

theorem two_pow_shiftFor_le {units : Nat} (h : shiftFor units ≠ 0) :
    2 ^ (shiftFor units + 52) ≤ units := by
  have hne : units ≠ 0 := by
    rintro rfl
    exact h rfl
  have hshift : shiftFor units + 52 = Nat.log2 units := by
    rw [shiftFor] at h ⊢
    omega
  rw [hshift]
  exact Nat.log2_self_le hne

/-- The significand that a quotient rounds to, in the places that its shift leaves. -/
def significandFor (num den : Nat) : Nat :=
  Number.roundDiv num (den * 2 ^ shiftFor (num / den))

theorem nearestBits_eq (num den : Nat) :
    nearestBits num den =
      min infinityBits (shiftFor (num / den) * 2 ^ 52 + significandFor num den) := by
  rw [nearestBits, significandFor, Nat.shiftLeft_eq, Nat.shiftLeft_eq]

theorem scaled_significandFor (num den : Nat) :
    Scaled (shiftFor (num / den)) (significandFor num den) := by
  have hdiv : num / (den * 2 ^ shiftFor (num / den)) = num / den / 2 ^ shiftFor (num / den) :=
    (Nat.div_div_eq_div_mul num den _).symm
  constructor
  · apply Number.roundDiv_le_of_lt
    rw [hdiv, Nat.div_lt_iff_lt_mul (Nat.two_pow_pos _), ← Nat.pow_add, Nat.add_comm 53]
    exact lt_two_pow_shiftFor _
  · by_cases h : shiftFor (num / den) = 0
    · exact .inl h
    · right
      refine Nat.le_trans ?_ (Number.div_le_roundDiv _ _)
      rw [hdiv, Nat.le_div_iff_mul_le (Nat.two_pow_pos _), ← Nat.pow_add, Nat.add_comm 52]
      exact two_pow_shiftFor_le h

/-- A quotient whose leading bit is known has the shift that keeps 53 bits of it. -/
theorem shiftFor_eq {units shift : Nat} (lower : 2 ^ (shift + 52) ≤ units)
    (upper : units < 2 ^ (shift + 53)) : shiftFor units = shift := by
  have hpos := Nat.two_pow_pos (shift + 52)
  have hlog : Nat.log2 units = shift + 52 :=
    (Nat.log2_eq_iff (by omega)).2 ⟨lower, upper⟩
  rw [shiftFor, hlog, Nat.add_sub_cancel]

end Double

end TrackedHeap
