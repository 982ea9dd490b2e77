import Mathlib.Tactic.Ring
import TrackedHeap.Proofs.Number.FixedTexts
import TrackedHeap.Proofs.Number.Nearest

/-!
# Printing a double and reading it back

A magnitude is printed as the nearest number of millionths, and that number is read as the nearest
double. Half the spacing of the doubles is less than half a millionth below `2 ^ 33`, and more from
there on. So one of the two roundings undoes the other:

* `millionths_nearest` : below `2 ^ 33` the nearest double prints as the millionths it was read from;
* `nearest_millionths` : from `2 ^ 33` on the nearest double is the one the millionths stand for;
* `readDouble_doubleText` : so what a double prints is read as a double that prints alike.
-/

namespace TrackedHeap

namespace Double

/-- How many binary places below one the unit stands. No proof should multiply out that power. -/
@[irreducible]
def unitPlaces : Nat := 1074

theorem unitPlaces_eq : unitPlaces = 1074 := by
  unfold unitPlaces
  rfl

theorem unitsPerOne_eq : unitsPerOne = 2 ^ unitPlaces := by
  rw [← Nat.one_shiftLeft, unitPlaces_eq, unitsPerOne]

theorem two_pow_mul_unitsPerOne (k : Nat) : 2 ^ k * unitsPerOne = 2 ^ (k + unitPlaces) := by
  rw [unitsPerOne_eq, Nat.pow_add]

theorem unitsPerOne_pos : 0 < unitsPerOne := by
  rw [unitsPerOne_eq]
  exact Nat.two_pow_pos _

end Double

namespace Number
open Double

/-! ## Millionths -/

theorem ten_pow_places : Nat.pow 10 places = 1000000 := rfl

theorem two_mul_millionths_le (units : Nat) :
    2 * (millionths units * unitsPerOne) ≤ 2 * (units * 1000000) + unitsPerOne := by
  have h := two_mul_roundDiv_le (units * 1000000) unitsPerOne_pos
  rwa [Nat.mul_comm unitsPerOne] at h

theorem le_two_mul_millionths (units : Nat) :
    2 * (units * 1000000) ≤ 2 * (millionths units * unitsPerOne) + unitsPerOne := by
  have h := le_two_mul_roundDiv (units * 1000000) unitsPerOne_pos
  rwa [Nat.mul_comm unitsPerOne] at h

/-- Below `2 ^ 33` half the spacing of the doubles is less than half a millionth: the double nearest
to a number of millionths prints as that number. -/
theorem millionths_nearest {n : Nat} (small : n * unitsPerOne / 1000000 < 2 ^ 33 * unitsPerOne) :
    shiftFor (n * unitsPerOne / 1000000) ≤ unitPlaces ∧
      millionths (significandFor (n * unitsPerOne) 1000000 *
        2 ^ shiftFor (n * unitsPerOne / 1000000)) = n := by
  have hshift : shiftFor (n * unitsPerOne / 1000000) + 20 ≤ unitPlaces := by
    rw [two_pow_mul_unitsPerOne] at small
    by_contra hlarge
    have hne : shiftFor (n * unitsPerOne / 1000000) ≠ 0 := by
      have := unitPlaces_eq
      omega
    have hle := two_pow_shiftFor_le hne
    have hpow := (Nat.pow_lt_pow_iff_right Nat.one_lt_two).1 (Nat.lt_of_le_of_lt hle small)
    omega
  refine ⟨by omega, ?_⟩
  generalize hs : shiftFor (n * unitsPerOne / 1000000) = shift at hshift
  have hspacing : 1000000 * 2 ^ shift < unitsPerOne := by
    have hpow := Nat.pow_le_pow_right Nat.two_pos hshift
    have hpos := Nat.two_pow_pos shift
    rw [Nat.pow_add, ← unitsPerOne_eq] at hpow
    omega
  have hden : 0 < 1000000 * 2 ^ shift := Nat.mul_pos (by decide) (Nat.two_pow_pos shift)
  have hle := two_mul_roundDiv_le (n * unitsPerOne) hden
  have hge := le_two_mul_roundDiv (n * unitsPerOne) hden
  rw [significandFor, hs]
  have hscale : 1000000 * 2 ^ shift * roundDiv (n * unitsPerOne) (1000000 * 2 ^ shift) =
      roundDiv (n * unitsPerOne) (1000000 * 2 ^ shift) * 2 ^ shift * 1000000 := by ring
  rw [hscale] at hle hge
  apply roundDiv_eq_of_lt
  · rw [ten_pow_places]
    omega
  · rw [ten_pow_places]
    omega

/-- From `2 ^ 33` on half a millionth is less than half the spacing of the doubles: the double
nearest to the millionths of a double is that double. -/
theorem nearest_millionths {shift significand : Nat} (scaled : Scaled shift significand)
    (full : significand < 2 ^ 53) (large : 2 ^ 33 * unitsPerOne ≤ significand * 2 ^ shift) :
    shiftFor (millionths (significand * 2 ^ shift) * unitsPerOne / 1000000) = shift ∧
      significandFor (millionths (significand * 2 ^ shift) * unitsPerOne) 1000000 = significand := by
  have hshift : unitPlaces ≤ shift + 19 := by
    have hlt : significand * 2 ^ shift < 2 ^ (53 + shift) := by
      rw [Nat.pow_add]
      exact Nat.mul_lt_mul_of_pos_right full (Nat.two_pow_pos shift)
    rw [two_pow_mul_unitsPerOne] at large
    have hpow := (Nat.pow_lt_pow_iff_right Nat.one_lt_two).1 (Nat.lt_of_le_of_lt large hlt)
    omega
  have hnormal : 2 ^ 52 ≤ significand := by
    have := scaled.normal
    have := unitPlaces_eq
    omega
  have hspacing : unitsPerOne < 1000000 * 2 ^ shift := by
    have hpow := Nat.pow_le_pow_right Nat.two_pos hshift
    have hpos := Nat.two_pow_pos shift
    rw [Nat.pow_add, ← unitsPerOne_eq] at hpow
    omega
  have hle := two_mul_millionths_le (significand * 2 ^ shift)
  have hge := le_two_mul_millionths (significand * 2 ^ shift)
  -- The least double of its binade is a whole number, which loses nothing.
  have hexact : significand = 2 ^ 52 →
      millionths (significand * 2 ^ shift) * unitsPerOne = significand * 2 ^ shift * 1000000 := by
    rintro rfl
    have hwhole : 2 ^ 52 * 2 ^ shift = 2 ^ (52 + shift - unitPlaces) * unitsPerOne := by
      rw [two_pow_mul_unitsPerOne, Nat.sub_add_cancel (by omega), Nat.pow_add]
    rw [millionths, ten_pow_places, hwhole, Nat.mul_right_comm, roundDiv_mul _ unitsPerOne_pos]
  generalize millionths (significand * 2 ^ shift) * unitsPerOne = num at hle hge hexact
  have hscale : significand * 2 ^ shift * 1000000 = significand * (1000000 * 2 ^ shift) := by ring
  rw [hscale] at hle hge hexact
  generalize hden : 1000000 * 2 ^ shift = den at hle hge hexact hspacing
  have hquotient : shiftFor (num / 1000000) = shift := by
    apply shiftFor_eq
    · rw [Nat.le_div_iff_mul_le (by decide), Nat.add_comm, Nat.pow_add, Nat.mul_assoc,
        Nat.mul_comm (2 ^ shift), hden]
      obtain heq | hlt := Nat.eq_or_lt_of_le hnormal
      · rw [hexact heq.symm, ← heq]
      · have hnext : (2 ^ 52 + 1) * den ≤ significand * den := Nat.mul_le_mul_right den hlt
        omega
    · rw [Nat.div_lt_iff_lt_mul (by decide), Nat.add_comm, Nat.pow_add, Nat.mul_assoc,
        Nat.mul_comm (2 ^ shift), hden]
      have hnext : (significand + 1) * den ≤ 2 ^ 53 * den := Nat.mul_le_mul_right den full
      rw [Nat.add_mul] at hnext
      omega
  refine ⟨hquotient, ?_⟩
  rw [significandFor, hquotient, hden]
  apply roundDiv_eq_of_lt
  · omega
  · omega

/-! ## Numerals -/

/-- No finite double has more than 316 digits of millionths. -/
theorem length_toDigits_millionths_le {shift significand : Nat} (full : significand < 2 ^ 53)
    (bound : shift ≤ 2045) :
    (Nat.toDigits 10 (millionths (significand * 2 ^ shift))).length ≤ 316 := by
  -- Every 93 binary digits take at most 28 decimal ones.
  obtain ⟨k, hk⟩ : ∃ k, k = 11 := ⟨11, rfl⟩
  have hunits : significand * 2 ^ shift < (2 ^ 93) ^ k * 2 * unitsPerOne := by
    have hplaces : 53 + shift ≤ 93 * k + 1 + unitPlaces := by
      have := unitPlaces_eq
      omega
    have hpow := Nat.pow_le_pow_right Nat.two_pos hplaces
    rw [Nat.pow_add, Nat.pow_add, Nat.pow_add, Nat.pow_mul, ← unitsPerOne_eq] at hpow
    exact Nat.lt_of_lt_of_le (Nat.mul_lt_mul_of_pos_right full (Nat.two_pow_pos shift)) hpow
  have hdecimal : (2 ^ 93) ^ k ≤ (10 ^ 28) ^ k := Nat.pow_le_pow_left (by decide) k
  have hpos : 0 < (10 ^ 28) ^ k := Nat.pow_pos (by decide)
  have hmillionths := two_mul_millionths_le (significand * 2 ^ shift)
  have hdigits : 316 = 28 * k + 8 := by omega
  rw [Nat.length_toDigits_le_iff (by decide) (by decide), hdigits, Nat.pow_add, Nat.pow_mul]
  generalize (2 ^ 93) ^ k = binary at hunits hdecimal
  generalize (10 ^ 28) ^ k = decimal at hdecimal hpos ⊢
  by_contra hlarge
  have hle : decimal * 10 ^ 8 * unitsPerOne ≤
      millionths (significand * 2 ^ shift) * unitsPerOne :=
    Nat.mul_le_mul_right unitsPerOne (by omega)
  have hbinary : binary * unitsPerOne ≤ decimal * unitsPerOne :=
    Nat.mul_le_mul_right unitsPerOne hdecimal
  have hone : unitsPerOne ≤ decimal * unitsPerOne := Nat.le_mul_of_pos_left _ hpos
  rw [Nat.mul_right_comm] at hunits hle
  omega

theorem nearestBits_zero (den : Nat) : nearestBits 0 den = 0 := by
  have hshift : shiftFor (0 / den) = 0 := by
    rw [Nat.zero_div]
    rfl
  rw [nearestBits, hshift, roundDiv, Nat.zero_mod, Nat.zero_div]
  simp

/-- The millionths of a finite double are neither too many nor too few digits for a numeral, so they
are read as the nearest double. -/
theorem magnitudeBits_millionths {shift significand : Nat} (full : significand < 2 ^ 53)
    (bound : shift ≤ 2045) :
    Numeral.magnitudeBits ⟨millionths (significand * 2 ^ shift), -6⟩ =
      nearestBits (millionths (significand * 2 ^ shift) * unitsPerOne) 1000000 := by
  have hlength := length_toDigits_millionths_le full bound
  generalize millionths (significand * 2 ^ shift) = n at hlength ⊢
  have horder : Numeral.order ⟨n, -6⟩ = (Nat.toDigits 10 n).length - 6 := rfl
  by_cases hzero : n = 0
  · rw [Numeral.magnitudeBits, if_pos (.inl hzero), hzero, Nat.zero_mul, nearestBits_zero]
  · have hten : Nat.pow 10 (-(-6 : Int)).toNat = 1000000 := rfl
    have hone : Nat.pow 10 (-6 : Int).toNat = 1 := rfl
    rw [Numeral.magnitudeBits, if_neg (show ¬ (n = 0 ∨ Numeral.order ⟨n, -6⟩ < -330) by omega),
      if_neg (show ¬ 310 < Numeral.order ⟨n, -6⟩ by omega), hten, hone, Nat.mul_one]

/-! ## Round trip -/

/-- The greatest double below `2 ^ 33` is more than half a millionth below it, so it does not round
up to `2 ^ 33`. -/
theorem millionths_small {shift significand : Nat} (scaled : Scaled shift significand)
    (full : significand < 2 ^ 53) (small : significand * 2 ^ shift < 2 ^ 33 * unitsPerOne) :
    millionths (significand * 2 ^ shift) * unitsPerOne / 1000000 < 2 ^ 33 * unitsPerOne := by
  have hshift : shift + 20 ≤ unitPlaces := by
    by_contra hlarge
    have hnormal : 2 ^ 52 ≤ significand := by
      have := scaled.normal
      have := unitPlaces_eq
      omega
    have hle : 2 ^ 52 * 2 ^ shift ≤ significand * 2 ^ shift := Nat.mul_le_mul_right _ hnormal
    rw [two_pow_mul_unitsPerOne] at small
    rw [← Nat.pow_add] at hle
    have hpow := (Nat.pow_lt_pow_iff_right Nat.one_lt_two).1 (Nat.lt_of_le_of_lt hle small)
    omega
  obtain ⟨spacing, hspacing⟩ : ∃ spacing, spacing = 2 ^ (unitPlaces - 20) := ⟨_, rfl⟩
  have hone : unitsPerOne = 2 ^ 20 * spacing := by
    rw [hspacing, ← Nat.pow_add, unitsPerOne_eq, Nat.add_sub_cancel' (by omega)]
  have hpos : 0 < spacing := hspacing ▸ Nat.two_pow_pos _
  have hle : significand * 2 ^ shift ≤ (2 ^ 53 - 1) * spacing := by
    rw [hspacing]
    exact Nat.mul_le_mul (by omega) (Nat.pow_le_pow_right Nat.two_pos (by omega))
  have hmillionths := two_mul_millionths_le (significand * 2 ^ shift)
  rw [Nat.div_lt_iff_lt_mul (by decide)]
  omega

/-- From `2 ^ 33` on a finite double is the nearest one to its millionths. -/
theorem nearestBits_millionths {shift significand : Nat} (scaled : Scaled shift significand)
    (full : significand < 2 ^ 53) (bound : shift ≤ 2045)
    (large : 2 ^ 33 * unitsPerOne ≤ significand * 2 ^ shift) :
    nearestBits (millionths (significand * 2 ^ shift) * unitsPerOne) 1000000 =
      shift * 2 ^ 52 + significand := by
  have hbits := bits_lt_infinityBits bound scaled (.inr full)
  obtain ⟨hshift, hsignificand⟩ := nearest_millionths scaled full large
  rw [nearestBits_eq, hshift, hsignificand, Nat.min_eq_right (Nat.le_of_lt hbits)]

/-- The double nearest to the millionths of a finite magnitude has the same millionths. -/
theorem magnitude_nearestBits {shift significand : Nat} (negative : Bool)
    (scaled : Scaled shift significand) (full : significand < 2 ^ 53) (bound : shift ≤ 2045) :
    ∃ units,
      (ofParts negative
        (nearestBits (millionths (significand * 2 ^ shift) * unitsPerOne) 1000000)).magnitude =
          .finite units ∧
      millionths units = millionths (significand * 2 ^ shift) := by
  by_cases large : 2 ^ 33 * unitsPerOne ≤ significand * 2 ^ shift
  · rw [nearestBits_millionths scaled full bound large,
      magnitude_ofParts negative scaled (bits_lt_infinityBits bound scaled (.inr full))]
    exact ⟨_, rfl, rfl⟩
  · obtain ⟨hshift, hmillionths⟩ :=
      millionths_nearest (millionths_small scaled full (Nat.lt_of_not_le large))
    have hscaled := scaled_significandFor
      (millionths (significand * 2 ^ shift) * unitsPerOne) 1000000
    have hplaces := unitPlaces_eq
    have hbits := bits_lt_infinityBits (by omega) hscaled (.inl (by omega))
    rw [nearestBits_eq, Nat.min_eq_right (Nat.le_of_lt hbits),
      magnitude_ofParts negative hscaled hbits]
    exact ⟨_, rfl, hmillionths⟩

/-- **What a finite double prints is read as a double that prints alike**, with the same sign, and
from `2 ^ 33` on as that double itself. -/
theorem readDouble_doubleText {x : Double} {units : Nat} (finite : x.magnitude = .finite units) :
    ∃ y, readDouble (doubleText x) = some y ∧ doubleText y = doubleText x ∧
      (2 ^ 33 * unitsPerOne ≤ units → y = x) := by
  obtain ⟨shift, significand, scaled, full, bound, rfl, hx⟩ := exists_scaled finite
  obtain ⟨units, hmagnitude, hmillionths⟩ :=
    magnitude_nearestBits x.negative scaled full bound
  have hnegative : ∀ num, (ofParts x.negative (nearestBits num 1000000)).negative = x.negative := by
    intro num
    refine negative_ofParts x.negative (Nat.lt_of_le_of_lt ?_ infinityBits_lt)
    rw [nearestBits_eq]
    exact Nat.min_le_left _ _
  have htext : doubleText x = if x.negative then
      '-' :: fixedText (millionths (significand * 2 ^ shift))
      else fixedText (millionths (significand * 2 ^ shift)) := by
    rw [doubleText, finite, magnitudeText]
  refine ⟨ofParts x.negative
    (nearestBits (millionths (significand * 2 ^ shift) * unitsPerOne) 1000000), ?_, ?_,
    fun large => ?_⟩
  · rw [htext, readDouble_fixedText, magnitudeBits_millionths full bound]
  · rw [htext, doubleText, hnegative, hmagnitude, magnitudeText, hmillionths]
  · rw [nearestBits_millionths scaled full bound large]
    exact hx.symm

end Number

end TrackedHeap
