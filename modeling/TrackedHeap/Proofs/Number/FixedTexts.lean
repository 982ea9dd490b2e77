import Mathlib.Data.List.TakeWhile
import TrackedHeap.Number.Fixed
import TrackedHeap.Number.Numeral

/-!
# Reading fixed texts

* `Text.takeWhile_append_cons`, `Text.dropWhile_append_cons` : a list up to the first element that fails
  a test, and from there on;
* `fractionText` : the six digits after the point of a fixed text;
* `ofDigitChars_fixedText` : without the point, the digits of a fixed text are its millionths;
* `read?_fixedText` : a fixed text is the numeral of its millionths;
* `readDouble_fixedText` : with a sign before it or not, it is read as a double of that sign.
-/

namespace TrackedHeap

/-! ## Up to a stop -/

section
variable {α : Type} {p : α → Bool} {first : List α} {stop : α}

theorem Text.takeWhile_append_cons (h : ∀ x ∈ first, p x = true) (hstop : p stop = false)
    (rest : List α) : (first ++ stop :: rest).takeWhile p = first := by
  rw [List.takeWhile_append_of_pos h, List.takeWhile_cons_of_neg (Bool.eq_false_iff.1 hstop),
    List.append_nil]

theorem Text.dropWhile_append_cons (h : ∀ x ∈ first, p x = true) (hstop : p stop = false)
    (rest : List α) : (first ++ stop :: rest).dropWhile p = stop :: rest := by
  rw [List.dropWhile_append_of_pos h, List.dropWhile_cons_of_neg (Bool.eq_false_iff.1 hstop)]

end

namespace Number

/-! ## Digits -/

/-- The six digits after the point. -/
def fractionText (n : Nat) : List Char :=
  (Nat.toDigits 10 n).leftpad places '0'

theorem fixedText_eq (n : Nat) :
    fixedText n =
      Nat.toDigits 10 (n / Nat.pow 10 places) ++ '.' :: fractionText (n % Nat.pow 10 places) := rfl

theorem isDigit_of_mem_toDigits {n : Nat} {c : Char} (h : c ∈ Nat.toDigits 10 n) :
    c.isDigit = true :=
  Nat.isDigit_of_mem_toDigits (by decide) (by decide) h

theorem isDigit_of_mem_fractionText {n : Nat} {c : Char} (h : c ∈ fractionText n) :
    c.isDigit = true := by
  rw [fractionText, List.leftpad, List.mem_append] at h
  obtain h | h := h
  · obtain rfl := List.eq_of_mem_replicate h
    rfl
  · exact isDigit_of_mem_toDigits h

theorem length_fractionText {n : Nat} (h : n < Nat.pow 10 places) :
    (fractionText n).length = places := by
  have hlength : (Nat.toDigits 10 n).length ≤ places :=
    (Nat.length_toDigits_le_iff (by decide) (by decide)).2 h
  rw [fractionText, List.length_leftpad]
  omega

theorem ofDigitChars_fractionText (n : Nat) : Nat.ofDigitChars 10 (fractionText n) 0 = n := by
  rw [fractionText, List.leftpad, Nat.ofDigitChars_append, Nat.ofDigitChars_replicate_zero,
    Nat.mul_zero, Nat.ofDigitChars_ten_toDigits]

/-- The digits of a fixed text, read without the point, are the number it was made from. -/
theorem ofDigitChars_fixedText (n : Nat) :
    Nat.ofDigitChars 10 (Nat.toDigits 10 (n / Nat.pow 10 places) ++
      fractionText (n % Nat.pow 10 places)) 0 = n := by
  have hlength := length_fractionText (Nat.mod_lt n (show 0 < Nat.pow 10 places by decide))
  rw [Nat.ofDigitChars_append, Nat.ofDigitChars_ten_toDigits,
    Nat.ofDigitChars_eq_ofDigitChars_zero, ofDigitChars_fractionText, hlength]
  exact Nat.div_add_mod n _

theorem readDigits_of_isDigit {text : List Char} (nonempty : text ≠ [])
    (digits : ∀ c ∈ text, c.isDigit = true) :
    readDigits text = some (Nat.ofDigitChars 10 text 0) := by
  rw [readDigits, if_pos ⟨nonempty, List.all_eq_true.2 digits⟩]

theorem readDigits_toDigits (n : Nat) : readDigits (Nat.toDigits 10 n) = some n := by
  rw [readDigits_of_isDigit Nat.toDigits_ne_nil fun c hc => isDigit_of_mem_toDigits hc,
    Nat.ofDigitChars_ten_toDigits]

/-! ## Numerals -/

/-- A fixed text is the numeral of its millionths. -/
theorem read?_fixedText (n : Nat) : Numeral.read? (fixedText n) = some ⟨n, -6⟩ := by
  have hpoint : Char.isDigit '.' = false := rfl
  have hwhole : ∀ c ∈ Nat.toDigits 10 (n / Nat.pow 10 places), c.isDigit = true :=
    fun c hc => isDigit_of_mem_toDigits hc
  have hfraction : ∀ c ∈ fractionText (n % Nat.pow 10 places), c.isDigit = true :=
    fun c hc => isDigit_of_mem_fractionText hc
  have hlength := length_fractionText (Nat.mod_lt n (show 0 < Nat.pow 10 places by decide))
  have htake : (fixedText n).takeWhile Char.isDigit = Nat.toDigits 10 (n / Nat.pow 10 places) := by
    rw [fixedText_eq, Text.takeWhile_append_cons hwhole hpoint]
  have hdrop : (fixedText n).dropWhile Char.isDigit =
      '.' :: fractionText (n % Nat.pow 10 places) := by
    rw [fixedText_eq, Text.dropWhile_append_cons hwhole hpoint]
  have htail : (fractionText (n % Nat.pow 10 places)).takeWhile Char.isDigit =
      fractionText (n % Nat.pow 10 places) := List.takeWhile_eq_self_iff.2 hfraction
  have hrest : (fractionText (n % Nat.pow 10 places)).dropWhile Char.isDigit = [] :=
    List.dropWhile_eq_nil_iff.2 hfraction
  have hdigits : readDigits (Nat.toDigits 10 (n / Nat.pow 10 places) ++
      fractionText (n % Nat.pow 10 places)) = some n := by
    rw [readDigits_of_isDigit, ofDigitChars_fixedText]
    · exact fun h => Nat.toDigits_ne_nil (List.append_eq_nil_iff.1 h).1
    · intro c hc
      obtain hc | hc := List.mem_append.1 hc
      · exact hwhole c hc
      · exact hfraction c hc
  simp only [Numeral.read?, htake, hdrop, htail, hrest, hdigits, Numeral.readExponent, hlength]
  rfl

/-- A fixed text starts with a digit, so it has no sign and names nothing. -/
theorem exists_fixedText_eq_cons (n : Nat) :
    ∃ c rest, fixedText n = c :: rest ∧ c.isDigit = true := by
  obtain ⟨c, rest, hdigits⟩ := List.exists_cons_of_ne_nil
    (Nat.toDigits_ne_nil (b := 10) (n := n / Nat.pow 10 places))
  refine ⟨c, rest ++ '.' :: fractionText (n % Nat.pow 10 places), ?_, ?_⟩
  · rw [fixedText_eq, hdigits, List.cons_append]
  · exact isDigit_of_mem_toDigits (hdigits ▸ List.mem_cons_self)

theorem mem_point_fixedText (n : Nat) : '.' ∈ fixedText n := by
  rw [fixedText_eq]
  exact List.mem_append_right _ List.mem_cons_self

theorem readMagnitude_fixedText (n : Nat) :
    readMagnitude (fixedText n) = some (Numeral.magnitudeBits ⟨n, -6⟩) := by
  -- No name has a point.
  have hname : ∀ name : String, '.' ∉ name.toList →
      String.ofList ((fixedText n).map Char.toLower) ≠ name := by
    rintro name hpoint rfl
    rw [String.toList_ofList] at hpoint
    exact hpoint (List.mem_map_of_mem (f := Char.toLower) (mem_point_fixedText n))
  rw [readMagnitude, if_neg, if_neg, read?_fixedText, Option.map_some]
  · exact hname "nan" (by decide)
  · exact fun h => h.elim (hname "inf" (by decide)) (hname "infinity" (by decide))

/-- A fixed text with a minus sign or none is read as a double of that sign. -/
theorem readDouble_fixedText (negative : Bool) (n : Nat) :
    readDouble (if negative then '-' :: fixedText n else fixedText n) =
      some (Double.ofParts negative (Numeral.magnitudeBits ⟨n, -6⟩)) := by
  cases negative with
  | true =>
    rw [if_pos rfl, readDouble, readMagnitude_fixedText, Option.map_some]
  | false =>
    obtain ⟨c, rest, htext, hdigit⟩ := exists_fixedText_eq_cons n
    have hread := readMagnitude_fixedText n
    rw [if_neg Bool.false_ne_true]
    rw [htext] at hread ⊢
    unfold readDouble
    split
    · rename_i h
      obtain ⟨rfl, -⟩ := List.cons.inj h
      cases hdigit
    · rename_i h
      obtain ⟨rfl, -⟩ := List.cons.inj h
      cases hdigit
    · rw [hread, Option.map_some]

end Number

end TrackedHeap
