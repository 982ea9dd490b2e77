import TrackedHeap.Proofs.CommandLine.PrintDouble
import TrackedHeap.Proofs.Number.Rounded

/-!
# Printed doubles keep their order

Rounding to the nearest integer turns no two numbers around, whichever way their ties go, and it
keeps numbers apart that are more than one apart. So do the six printed places, in millionths.

* `NearestEven.mono`, `NearestEven.lt_of_one_lt_sub`, `NearestEven.neg` : nearest integers against
  the order and the sign of the numbers they round;
* `Numeral.value`, `Number.denoted?` : the number that a decimal text denotes;
* `Double.negate` : the double with the other sign bit;
* `Output.lineValue?` : the number that is read off a printed line;
* `exists_lineValue?` : for a finite double it is the nearest number of millionths, with its sign;
* `doubleLine_mono` : printed numbers are in the order of the doubles.
-/

namespace TrackedHeap

namespace Number

/-! ## Nearest integers in order -/

namespace NearestEven
variable {m n : ℤ} {p q : ℚ}

theorem neg (h : NearestEven n q) : NearestEven (-n) (-q) := by
  have hflip : ∀ k : ℤ, |-q - k| = |q - (-k : ℤ)| := by
    intro k
    rw [← abs_neg]
    congr 1
    push_cast
    ring
  constructor
  · intro k
    rw [hflip, hflip, neg_neg]
    exact h.nearest (-k)
  · intro k hk heq
    rw [hflip, hflip, neg_neg] at heq
    rw [even_neg]
    exact h.even (-k) (fun hk' => hk (by rw [← hk', neg_neg])) heq

theorem abs_sub_le_half (h : NearestEven n q) : |q - n| ≤ 1 / 2 := by
  have habove := h.nearest (n + 1)
  have hbelow := h.nearest (n - 1)
  push_cast at habove hbelow
  rw [abs_le]
  constructor
  · by_contra hlow
    rw [not_le] at hlow
    rw [abs_of_neg (by linarith : q - n < 0)] at hbelow
    have hnear : |q - (n - 1)| < -(q - n) := abs_lt.2 ⟨by linarith, by linarith⟩
    linarith
  · by_contra hhigh
    rw [not_le] at hhigh
    rw [abs_of_pos (by linarith : 0 < q - n)] at habove
    have hnear : |q - (n + 1)| < q - n := abs_lt.2 ⟨by linarith, by linarith⟩
    linarith

/-- Numbers that are more than one apart have different nearest integers. -/
theorem lt_of_one_lt_sub (hm : NearestEven m p) (hn : NearestEven n q) (far : 1 < q - p) :
    m < n := by
  have hp := abs_le.1 hm.abs_sub_le_half
  have hq := abs_le.1 hn.abs_sub_le_half
  have hlt : (m : ℚ) < n := by linarith
  exact_mod_cast hlt

/-- **Nearest integers are in the order of the numbers.** Only a number half-way between two
integers could have the greater one while its equal has the smaller one, and both would be even. -/
theorem mono (hm : NearestEven m p) (hn : NearestEven n q) (h : p ≤ q) : m ≤ n := by
  by_contra hlt
  rw [not_le] at hlt
  have hp := abs_le.1 hm.abs_sub_le_half
  have hq := abs_le.1 hn.abs_sub_le_half
  have hgap : (n : ℚ) + 1 ≤ m := by exact_mod_cast hlt
  have hmid : p = q := by linarith
  have hnext : (m : ℚ) = n + 1 := by linarith
  have hhalf : p = n + 1 / 2 := by linarith
  have hdist : |p - m| = |p - n| := by
    rw [hnext, hhalf]
    norm_num
  have heven : Even m := hm.even n hlt.ne hdist.symm
  have heven' : Even n := hn.even m hlt.ne' (by rw [← hmid, hdist])
  have hsucc : m = n + 1 := by exact_mod_cast hnext
  rw [hsucc, Int.even_add_one] at heven
  exact heven heven'

end NearestEven

/-! ## Decimal texts -/

/-- The number that a numeral denotes. -/
def Numeral.value (n : Numeral) : ℚ :=
  n.digits * 10 ^ n.exponent

/-- The number that a text denotes: a numeral after a minus sign or after nothing. -/
def denoted? : List Char → Option ℚ
  | '-' :: rest => (Numeral.read? rest).map fun n => -n.value
  | text => (Numeral.read? text).map Numeral.value

theorem value_millionths (n : Nat) : (Numeral.mk n (-6)).value = n / 10 ^ 6 := by
  rw [Numeral.value, zpow_neg, div_eq_mul_inv]
  rfl

/-- A fixed text with a minus sign or none denotes its millionths with that sign. -/
theorem denoted?_fixedText (negative : Bool) (n : Nat) :
    denoted? (if negative then '-' :: fixedText n else fixedText n) =
      some (((if negative then -n else n : ℤ) : ℚ) / 10 ^ 6) := by
  cases negative with
  | true =>
    rw [if_pos rfl, if_pos rfl, denoted?, read?_fixedText, Option.map_some, value_millionths]
    push_cast
    rw [neg_div]
  | false =>
    obtain ⟨c, rest, htext, hdigit⟩ := exists_fixedText_eq_cons n
    have hread := read?_fixedText n
    rw [if_neg Bool.false_ne_true, if_neg Bool.false_ne_true]
    rw [htext] at hread ⊢
    unfold denoted?
    split
    · rename_i h
      obtain ⟨rfl, -⟩ := List.cons.inj h
      cases hdigit
    · rw [hread, Option.map_some, value_millionths]
      rfl

end Number

namespace Double

/-! ## Finite doubles and signs -/

theorem exists_units {x : Double} (finite : x.exponent ≠ 2047) :
    ∃ units, x.magnitude = .finite units := by
  rw [magnitude, if_neg finite]
  split
  · exact ⟨_, rfl⟩
  · exact ⟨_, rfl⟩

/-- The double with the other sign bit. -/
def negate (x : Double) : Double :=
  ⟨x.bits ^^^ 0x8000000000000000⟩

section
variable {x : Double} (positive : x.negative = false)
include positive

theorem toNat_bits_negate : x.negate.bits.toNat = 2 ^ 63 + x.bits.toNat := by
  have hlt : x.bits.toNat < 2 ^ 63 := by
    rw [negative, Nat.one_shiftLeft, decide_eq_false_iff_not] at positive
    exact Nat.not_le.1 positive
  have hsign : (0x8000000000000000 : UInt64).toNat = 2 ^ 63 := rfl
  rw [negate, UInt64.toNat_xor, hsign, ← Nat.div_add_mod (x.bits.toNat ^^^ 2 ^ 63) (2 ^ 63),
    Nat.xor_div_two_pow, Nat.xor_mod_two_pow, Nat.div_eq_of_lt hlt, Nat.mod_eq_of_lt hlt,
    Nat.div_self (Nat.two_pow_pos _), Nat.mod_self, Nat.zero_xor, Nat.xor_zero, Nat.mul_one]

theorem negative_negate : x.negate.negative = true := by
  rw [negative, toNat_bits_negate positive, Nat.one_shiftLeft]
  exact decide_eq_true (Nat.le_add_right _ _)

theorem exponent_negate : x.negate.exponent = x.exponent := by
  rw [exponent, exponent, toNat_bits_negate positive, Nat.shiftRight_eq_div_pow,
    Nat.shiftRight_eq_div_pow, Nat.one_shiftLeft]
  omega

theorem fraction_negate : x.negate.fraction = x.fraction := by
  rw [fraction, fraction, toNat_bits_negate positive, Nat.one_shiftLeft]
  omega

theorem value_negate : x.negate.value = -x.value := by
  rw [value, value, absValue, absValue, negative_negate positive, exponent_negate positive,
    fraction_negate positive, positive]
  rfl

theorem magnitude_negate : x.negate.magnitude = x.magnitude := by
  rw [magnitude, magnitude, exponent_negate positive, fraction_negate positive]

end

end Double

namespace Output
open Number

/-- The number that is read off a printed line, up to its line feed. -/
def lineValue? (pieces : Pieces) : Option ℚ :=
  (Utf8.decode? (bytesOf pieces).dropLast).bind denoted?

/-- A finite double prints as the nearest number of millionths. -/
theorem exists_lineValue? {x : Double} (finite : x.exponent ≠ 2047) :
    ∃ n : ℤ, NearestEven n (x.value * 10 ^ 6) ∧
      lineValue? (doubleLine x) = some ((n : ℚ) / 10 ^ 6) := by
  obtain ⟨units, hunits⟩ := Double.exists_units finite
  refine ⟨if x.negative then -millionths units else millionths units, ?_, ?_⟩
  · have hscale : x.absValue * 10 ^ 6 =
        ((units * Nat.pow 10 places : ℕ) : ℚ) / Double.unitsPerOne := by
      rw [Double.absValue_eq hunits, ten_pow_places]
      push_cast
      ring
    have habs : NearestEven (millionths units) (x.absValue * 10 ^ 6) := by
      rw [hscale]
      exact nearestEven_roundDiv _ Double.unitsPerOne_pos
    rw [Double.value]
    split
    · rw [neg_mul]
      exact habs.neg
    · exact habs
  · rw [lineValue?, CommandLine.dropLast_doubleLine, Utf8.decode?_encode, Option.bind_some,
      doubleText, hunits, magnitudeText]
    exact denoted?_fixedText x.negative (millionths units)

/-- **Printed doubles are in the order of the doubles.** What is printed for the smaller of two
finite doubles is at most what is printed for the other, and less when they are more than a
millionth apart. The opposite of a double without a sign bit prints as a minus sign and the line of
that double, finite or not. -/
theorem doubleLine_mono :
    (∀ x y : Double, x.exponent ≠ 2047 → y.exponent ≠ 2047 → x.value ≤ y.value →
      ∃ p q, lineValue? (doubleLine x) = some p ∧ lineValue? (doubleLine y) = some q ∧ p ≤ q ∧
        (1 / 10 ^ 6 < y.value - x.value →
          p < q ∧ bytesOf (doubleLine x) ≠ bytesOf (doubleLine y))) ∧
    ∀ x : Double, x.negative = false → x.negate.negative = true ∧ x.negate.value = -x.value ∧
      bytesOf (doubleLine x.negate) = Utf8.ofString "-" ++ bytesOf (doubleLine x) := by
  constructor
  · intro x y finite finite' le
    obtain ⟨m, hm, hline⟩ := exists_lineValue? finite
    obtain ⟨n, hn, hline'⟩ := exists_lineValue? finite'
    have hmono : m ≤ n := hm.mono hn (by linarith)
    refine ⟨_, _, hline, hline', ?_, fun far => ?_⟩
    · have hcast : (m : ℚ) ≤ n := by exact_mod_cast hmono
      linarith
    · have hlt : m < n := hm.lt_of_one_lt_sub hn (by linarith)
      have hcast : (m : ℚ) < n := by exact_mod_cast hlt
      have hless : (m : ℚ) / 10 ^ 6 < n / 10 ^ 6 := by linarith
      refine ⟨hless, fun heq => hless.ne ?_⟩
      -- The same line would be read as the same number.
      rw [lineValue?, heq, ← lineValue?, hline'] at hline
      exact (Option.some.inj hline).symm
  · intro x positive
    refine ⟨Double.negative_negate positive, Double.value_negate positive, ?_⟩
    rw [bytesOf_doubleLine, bytesOf_doubleLine, signText, signText, positive,
      Double.negative_negate positive, Double.magnitude_negate positive]
    simp [Utf8.ofString, Utf8.encode]

/-- Two doubles less than two millionths apart, of which the smaller one is half-way between two
millionths. -/
theorem doubleLine_mono_tie :
    ∃ p q, lineValue? (doubleLine ⟨0x3f80000000000000⟩) = some p ∧
      lineValue? (doubleLine ⟨0x3f80010000000000⟩) = some q ∧ p < q := by
  have hexponent : (Double.mk 0x3f80000000000000).exponent = 1016 := by decide
  have hexponent' : (Double.mk 0x3f80010000000000).exponent = 1016 := by decide
  have hvalue : (Double.mk 0x3f80000000000000).value = 2 ^ (-7 : ℤ) := by
    have hfraction : (Double.mk 0x3f80000000000000).fraction = 0 := by decide
    have hsign : (Double.mk 0x3f80000000000000).negative = false := by decide
    rw [Double.value, Double.absValue, hexponent, hfraction, hsign]
    norm_num
  have hvalue' : (Double.mk 0x3f80010000000000).value = 2 ^ (-7 : ℤ) + 2 ^ (-19 : ℤ) := by
    have hfraction : (Double.mk 0x3f80010000000000).fraction = 2 ^ 40 := by decide
    have hsign : (Double.mk 0x3f80010000000000).negative = false := by decide
    rw [Double.value, Double.absValue, hexponent', hfraction, hsign]
    norm_num
  obtain ⟨p, q, hp, hq, -, hless⟩ := doubleLine_mono.1 ⟨0x3f80000000000000⟩ ⟨0x3f80010000000000⟩
    (by rw [hexponent]; decide) (by rw [hexponent']; decide) (by rw [hvalue, hvalue']; norm_num)
  refine ⟨p, q, hp, hq, (hless ?_).1⟩
  rw [hvalue, hvalue']
  norm_num

end Output

end TrackedHeap
