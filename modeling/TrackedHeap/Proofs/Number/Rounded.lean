import Mathlib.Algebra.Order.Field.Power
import Mathlib.Algebra.Order.Field.Rat
import Mathlib.Tactic.FieldSimp
import Mathlib.Tactic.Linarith
import Mathlib.Tactic.Positivity
import TrackedHeap.Output.Line
import TrackedHeap.Proofs.Number.RoundTrip

/-!
# Printed doubles are exactly rounded

What a double stands for is a rational number, and its six printed places are the nearest such
decimal. No step goes through another approximation.

* `NearestEven n q` : `n` is the integer nearest to `q`, the even one of two that are equally near;
* `nearestEven_roundDiv` : rounding a quotient gives that integer;
* `Double.value` : the number that the sign, the exponent and the fraction of a double stand for;
* `Double.absValue_eq` : counting in units of `2 ^ -1074` is exact;
* `SixPlaces` : decimals with six places and no leading zeros, with their texts and their values;
* `Output.doubleLine_nearestEven` : what is printed for every double.
-/

namespace TrackedHeap

namespace Number

/-! ## The nearest integer -/

/-- The integer nearest to a number, the even one of two that are equally near. -/
structure NearestEven (n : ℤ) (q : ℚ) : Prop where
  nearest : ∀ k : ℤ, |q - n| ≤ |q - k|
  even : ∀ k : ℤ, k ≠ n → |q - k| = |q - n| → Even n

/-- A quotient half-way between two integers rounds to the even one. -/
theorem even_roundDiv {num den : Nat} (h : 0 < den)
    (tie : 2 * num = 2 * (den * roundDiv num den) + den ∨
      2 * num + den = 2 * (den * roundDiv num den)) : roundDiv num den % 2 = 0 := by
  have e := Nat.div_add_mod num den
  have l := Nat.mod_lt num h
  unfold roundDiv at tie ⊢
  split at tie
  · rename_i up
    rw [if_pos up]
    rw [Nat.mul_add] at tie
    omega
  · rename_i down
    rw [if_neg down]
    omega

theorem one_le_abs_sub {k n : ℤ} (h : k ≠ n) : (1 : ℚ) ≤ |(k : ℚ) - n| := by
  have hpos : 0 < |k - n| := abs_pos.2 (sub_ne_zero.2 h)
  exact_mod_cast hpos

/-- Another integer than the one within half a unit is at least half a unit away. -/
theorem half_le_abs_sub {n k : ℤ} {q : ℚ} (near : |q - n| ≤ 1 / 2) (h : k ≠ n) :
    1 / 2 ≤ |q - k| := by
  have hone := one_le_abs_sub h
  have htriangle := abs_sub_le (k : ℚ) q n
  rw [abs_sub_comm (k : ℚ) q] at htriangle
  linarith

theorem abs_sub_roundDiv_le (num : Nat) {den : Nat} (h : 0 < den) :
    |(num : ℚ) / den - roundDiv num den| ≤ 1 / 2 := by
  have hden : (0 : ℚ) < den := by exact_mod_cast h
  have hle : (2 * (den * roundDiv num den) : ℚ) ≤ 2 * num + den := by
    exact_mod_cast two_mul_roundDiv_le num h
  have hge : (2 * num : ℚ) ≤ 2 * (den * roundDiv num den) + den := by
    exact_mod_cast le_two_mul_roundDiv num h
  have hquotient : (num : ℚ) / den * den = num := div_mul_cancel₀ _ hden.ne'
  rw [abs_le]
  constructor
  · refine le_of_mul_le_mul_right ?_ hden
    linarith
  · refine le_of_mul_le_mul_right ?_ hden
    linarith

/-- Half a unit away is half-way between two integers. -/
theorem tie_of_abs_sub_eq {num den n : Nat} (h : 0 < den)
    (half : |(num : ℚ) / den - n| = 1 / 2) :
    2 * num = 2 * (den * n) + den ∨ 2 * num + den = 2 * (den * n) := by
  have hden : (den : ℚ) ≠ 0 := by exact_mod_cast h.ne'
  have hquotient : (num : ℚ) / den * den = num := div_mul_cancel₀ _ hden
  obtain habove | hbelow := (abs_eq (by norm_num)).1 half
  · left
    have hcast : (2 * num : ℚ) = 2 * (den * n) + den := by
      rw [← hquotient, sub_eq_iff_eq_add.1 habove]
      ring
    exact_mod_cast hcast
  · right
    have hcast : (2 * num + den : ℚ) = 2 * (den * n) := by
      rw [← hquotient, sub_eq_iff_eq_add.1 hbelow]
      ring
    exact_mod_cast hcast

/-- **Rounding a quotient gives the nearest integer, and an even one at a tie.** -/
theorem nearestEven_roundDiv (num : Nat) {den : Nat} (h : 0 < den) :
    NearestEven (roundDiv num den) ((num : ℚ) / den) := by
  have near : |(num : ℚ) / den - ((roundDiv num den : ℕ) : ℤ)| ≤ 1 / 2 := by
    exact_mod_cast abs_sub_roundDiv_le num h
  refine ⟨fun k => ?_, fun k hk heq => ?_⟩
  · by_cases hk : k = roundDiv num den
    · rw [hk]
    · exact near.trans (half_le_abs_sub near hk)
  · have far := half_le_abs_sub near hk
    rw [heq] at far
    have half : |(num : ℚ) / den - roundDiv num den| = 1 / 2 := by
      exact_mod_cast le_antisymm near far
    exact_mod_cast Nat.even_iff.2 (even_roundDiv h (tie_of_abs_sub_eq h half))

end Number

namespace Double

/-! ## The number that a double stands for -/

/-- What the exponent and the fraction stand for, unless all bits of the exponent are set. An
exponent of zero leaves out the leading one of the significand. -/
def absValue (x : Double) : ℚ :=
  if x.exponent = 0 then x.fraction / 2 ^ 52 * 2 ^ (-1022 : ℤ)
  else (1 + x.fraction / 2 ^ 52) * 2 ^ ((x.exponent : ℤ) - 1023)

def value (x : Double) : ℚ :=
  if x.negative then -x.absValue else x.absValue

theorem abs_value (x : Double) : |x.value| = x.absValue := by
  have hnonneg : 0 ≤ x.absValue := by
    unfold absValue
    split <;> positivity
  unfold value
  split
  · rw [abs_neg, abs_of_nonneg hnonneg]
  · rw [abs_of_nonneg hnonneg]

theorem cast_unitsPerOne : (unitsPerOne : ℚ) = 2 ^ 52 * 2 ^ (1022 : ℤ) := by
  have hplaces : (unitPlaces : ℤ) = 52 + 1022 := by
    rw [unitPlaces_eq]
    rfl
  rw [unitsPerOne_eq, Nat.cast_pow, ← zpow_natCast, hplaces, zpow_add₀ (by norm_num)]
  rfl

/-- A finite double is exactly its units. -/
theorem absValue_eq {x : Double} {units : Nat} (finite : x.magnitude = .finite units) :
    x.absValue = units / unitsPerOne := by
  have htwo : (2 : ℚ) ≠ 0 := by norm_num
  have hpow : (2 : ℚ) ^ (1022 : ℤ) ≠ 0 := zpow_ne_zero _ htwo
  rw [absValue, cast_unitsPerOne]
  rw [magnitude] at finite
  split at finite
  · split at finite <;> cases finite
  split at finite
  · rename_i hzero
    obtain rfl := Magnitude.finite.inj finite
    rw [if_pos hzero, zpow_neg]
    generalize (2 : ℚ) ^ (1022 : ℤ) = p at hpow
    field_simp
  · rename_i hinfinite hnormal
    have hunits := Magnitude.finite.inj finite
    rw [Nat.one_shiftLeft, Nat.shiftLeft_eq] at hunits
    have hexponent : (x.exponent : ℤ) - 1023 = ((x.exponent - 1 : ℕ) : ℤ) - 1022 := by omega
    rw [if_neg hnormal, ← hunits, hexponent, zpow_sub₀ htwo, zpow_natCast]
    generalize (2 : ℚ) ^ (1022 : ℤ) = p at hpow
    push_cast
    field_simp
    norm_num

end Double

/-! ## Decimals with six places -/

/-- A decimal with six places: the digits before the point and those after it. -/
structure SixPlaces where
  whole : List Char
  fraction : List Char
  isDigit_whole : ∀ c ∈ whole, c.isDigit = true
  whole_ne_nil : whole ≠ []
  /-- A zero comes first only where it is all there is before the point. -/
  leading : whole = ['0'] ∨ whole.head? ≠ some '0'
  isDigit_fraction : ∀ c ∈ fraction, c.isDigit = true
  length_fraction : fraction.length = 6

namespace SixPlaces

def text (d : SixPlaces) : List Char :=
  d.whole ++ '.' :: d.fraction

/-- The number that the digits denote. -/
def value (d : SixPlaces) : ℚ :=
  Nat.ofDigitChars 10 d.whole 0 + Nat.ofDigitChars 10 d.fraction 0 / 10 ^ 6

end SixPlaces

namespace Number

/-- The digits of a number other than zero start with another digit than zero. -/
theorem head?_toDigits_ne {n : Nat} (h : 0 < n) : (Nat.toDigits 10 n).head? ≠ some '0' := by
  induction n using Nat.strongRecOn with
  | ind n ih =>
    by_cases small : n < 10
    · rw [Nat.toDigits_of_lt_base small, List.head?_cons]
      intro hzero
      have := Nat.digitChar_eq_zero.1 (Option.some.inj hzero)
      omega
    · -- The last digit is not the first.
      rw [Nat.toDigits_of_base_le (by decide) (by omega),
        List.head?_append_of_ne_nil _ Nat.toDigits_ne_nil]
      exact ih (n / 10) (by omega) (by omega)

theorem toDigits_leading (n : Nat) :
    Nat.toDigits 10 n = ['0'] ∨ (Nat.toDigits 10 n).head? ≠ some '0' := by
  obtain rfl | h := Nat.eq_zero_or_pos n
  · exact .inl rfl
  · exact .inr (head?_toDigits_ne h)

/-- The decimal with six places that a number of millionths is. -/
def sixPlaces (n : Nat) : SixPlaces where
  whole := Nat.toDigits 10 (n / Nat.pow 10 places)
  fraction := fractionText (n % Nat.pow 10 places)
  isDigit_whole := fun _ => isDigit_of_mem_toDigits
  whole_ne_nil := Nat.toDigits_ne_nil
  leading := toDigits_leading _
  isDigit_fraction := fun _ => isDigit_of_mem_fractionText
  length_fraction := length_fractionText (Nat.mod_lt _ (by decide))

theorem text_sixPlaces (n : Nat) : (sixPlaces n).text = fixedText n := rfl

theorem value_sixPlaces (n : Nat) : (sixPlaces n).value * 10 ^ 6 = n := by
  have hsplit := Nat.div_add_mod n (Nat.pow 10 places)
  have hplaces : Nat.pow 10 places = 1000000 := rfl
  rw [SixPlaces.value, sixPlaces]
  dsimp only
  rw [Nat.ofDigitChars_ten_toDigits, ofDigitChars_fractionText]
  rw [hplaces] at hsplit ⊢
  have hcast : (1000000 * (n / 1000000 : ℕ) + (n % 1000000 : ℕ) : ℚ) = n := by
    exact_mod_cast hsplit
  linarith

end Number

namespace Output
open Number

/-- The sign before a printed double. -/
def signText (x : Double) : List Char :=
  if x.negative then ['-'] else []

theorem bytesOf_doubleLine (x : Double) :
    bytesOf (doubleLine x) = Utf8.encode (signText x ++ magnitudeText x.magnitude ++ ['\n']) := by
  have htext : doubleText x = signText x ++ magnitudeText x.magnitude := by
    rw [doubleText, signText]
    split <;> rfl
  rw [← htext, Utf8.encode, List.flatMap_append]
  rfl

/-- **A printed double is its value, exactly rounded to six places.** The sign is that of the sign
bit, also before a zero; then come the digits of the nearest number of millionths, the even one of
two that are equally near. What is not finite is named. -/
theorem doubleLine_nearestEven (x : Double) :
    ∃ text, bytesOf (doubleLine x) = Utf8.encode (signText x ++ text ++ ['\n']) ∧
      (x.exponent ≠ 2047 → ∃ d : SixPlaces, text = d.text ∧
        ∃ n : ℕ, d.value * 10 ^ 6 = n ∧ NearestEven n (|x.value| * 10 ^ 6)) ∧
      (x.exponent = 2047 → x.fraction = 0 → text = ['i', 'n', 'f']) ∧
      (x.exponent = 2047 → x.fraction ≠ 0 → text = ['n', 'a', 'n']) := by
  refine ⟨magnitudeText x.magnitude, bytesOf_doubleLine x, fun finite => ?_, fun full zero => ?_,
    fun full payload => ?_⟩
  · obtain ⟨units, hunits⟩ : ∃ units, x.magnitude = .finite units := by
      rw [Double.magnitude, if_neg finite]
      split
      · exact ⟨_, rfl⟩
      · exact ⟨_, rfl⟩
    refine ⟨sixPlaces (millionths units), ?_, millionths units, value_sixPlaces _, ?_⟩
    · rw [hunits, magnitudeText, text_sixPlaces]
    · have hscale : |x.value| * 10 ^ 6 =
          ((units * Nat.pow 10 places : ℕ) : ℚ) / Double.unitsPerOne := by
        rw [Double.abs_value, Double.absValue_eq hunits, ten_pow_places]
        push_cast
        ring
      rw [hscale]
      exact nearestEven_roundDiv _ Double.unitsPerOne_pos
  · rw [Double.magnitude, if_pos full, if_pos zero, magnitudeText]
  · rw [Double.magnitude, if_pos full, if_neg payload, magnitudeText]

/-- The double `2 ^ -7` is 7812 millionths and a half. -/
example : bytesOf (doubleLine ⟨0x3f80000000000000⟩) = Utf8.ofString "0.007812\n" := by
  decide +kernel

end Output

end TrackedHeap
