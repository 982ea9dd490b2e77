import Mathlib.Data.List.Forall2
import Mathlib.Data.List.TakeWhile
import TrackedHeap.Text.Blank

/-!
# Words between blanks, in either case

* `whiteSpace` : the twenty-five code points of blank characters, one by one
  (`isBlank_iff_mem_whiteSpace`);
* `exists_trim`, `trim_between` : trimming takes off blanks at the ends, all of them, and nothing
  else;
* `SameLetter` : one character, or the two cases of one letter of ASCII. These are the characters
  with one lower case (`sameLetter_iff`, `forall₂_sameLetter_iff`).
-/

namespace TrackedHeap.Text

/-! ## Blanks -/

/-- The code points with the property White_Space. -/
def whiteSpace : List Nat :=
  [0x9, 0xa, 0xb, 0xc, 0xd, 0x20, 0x85, 0xa0, 0x1680, 0x2000, 0x2001, 0x2002, 0x2003, 0x2004,
    0x2005, 0x2006, 0x2007, 0x2008, 0x2009, 0x200a, 0x2028, 0x2029, 0x202f, 0x205f, 0x3000]

/-- What a set holds lies in one of its ranges. -/
theorem exists_mem_of_contains {ranges : Ranges} {n : Nat} (h : ranges.contains n = true) :
    ∃ range ∈ ranges, range.1 ≤ n ∧ n ≤ range.2 := by
  induction ranges with
  | nil => exact absurd h (by simp [Ranges.contains])
  | cons range rest ih =>
    rw [Ranges.contains] at h
    split at h
    · exact absurd h Bool.false_ne_true
    case isFalse above =>
      rcases Bool.or_eq_true_iff.1 h with within | later
      · exact ⟨range, List.mem_cons_self, by omega, of_decide_eq_true within⟩
      · obtain ⟨other, hother, bounds⟩ := ih later
        exact ⟨other, List.mem_cons_of_mem _ hother, bounds⟩

/-- The ranges hold a code point exactly when the list has it. -/
theorem isBlank_iff_mem_whiteSpace {c : Char} : isBlank c = true ↔ c.toNat ∈ whiteSpace := by
  have listed : ∀ range ∈ blankRanges, ∀ k < range.2 - range.1 + 1, range.1 + k ∈ whiteSpace := by
    decide
  have held : ∀ n ∈ whiteSpace, blankRanges.contains n = true := by decide
  constructor
  · intro h
    obtain ⟨range, hrange, lower, upper⟩ := exists_mem_of_contains h
    have := listed range hrange (c.toNat - range.1) (by omega)
    rwa [Nat.add_sub_cancel' lower] at this
  · exact held c.toNat

/-- Every text begins and ends with the blanks that trimming takes off. -/
theorem exists_trim (text : List Char) :
    ∃ before after, text = before ++ trim text ++ after ∧
      (∀ c ∈ before, isBlank c = true) ∧ ∀ c ∈ after, isBlank c = true := by
  refine ⟨text.takeWhile isBlank, ((text.dropWhile isBlank).reverse.takeWhile isBlank).reverse,
    ?_, fun c hc => List.mem_takeWhile_imp hc, fun c hc => ?_⟩
  · rw [trim, List.append_assoc, ← List.reverse_append, List.takeWhile_append_dropWhile,
      List.reverse_reverse, List.takeWhile_append_dropWhile]
  · exact List.mem_takeWhile_imp (List.mem_reverse.1 hc)

/-- Blanks at the ends make no difference. -/
theorem trim_between {before after : List Char} (text : List Char)
    (hbefore : ∀ c ∈ before, isBlank c = true) (hafter : ∀ c ∈ after, isBlank c = true) :
    trim (before ++ text ++ after) = trim text := by
  have reversed : ∀ c ∈ after.reverse, isBlank c = true := fun c hc =>
    hafter c (List.mem_reverse.1 hc)
  rw [trim, trim, List.append_assoc, List.dropWhile_append_of_pos hbefore, List.dropWhile_append]
  split
  case isTrue empty =>
    rw [List.isEmpty_iff.1 empty, List.dropWhile_eq_nil_iff.2 hafter]
  case isFalse =>
    rw [List.reverse_append, List.dropWhile_append_of_pos reversed]

/-! ## Letters in either case -/

/-- One character, or the two cases of one letter of ASCII. -/
def SameLetter (c d : Char) : Prop :=
  c = d ∨ (c.isUpper ∧ d.toNat = c.toNat + 32) ∨ (d.isUpper ∧ c.toNat = d.toNat + 32)

theorem isUpper_iff {c : Char} : c.isUpper = true ↔ 65 ≤ c.toNat ∧ c.toNat ≤ 90 := by
  delta Char.isUpper
  rw [decide_eq_true_eq, ge_iff_le, UInt32.le_iff_toNat_le, UInt32.le_iff_toNat_le]
  rfl

theorem toNat_toLower (c : Char) :
    c.toLower.toNat = if 65 ≤ c.toNat ∧ c.toNat ≤ 90 then c.toNat + 32 else c.toNat := by
  delta Char.toLower
  by_cases upper : c.isUpper
  · have bounds := isUpper_iff.1 upper
    rw [dif_pos (of_decide_eq_true upper), if_pos bounds]
    exact Nat.mod_eq_of_lt (show c.toNat + 32 < _ by omega)
  · rw [dif_neg fun h => upper (decide_eq_true h), if_neg (mt isUpper_iff.2 upper)]

/-- Only ASCII has letters of one lower case. -/
theorem sameLetter_iff {c d : Char} : SameLetter c d ↔ c.toLower = d.toLower := by
  rw [← Char.toNat_inj, toNat_toLower, toNat_toLower, SameLetter, ← Char.toNat_inj, isUpper_iff,
    isUpper_iff]
  grind

/-- Two texts are the same letter by letter exactly when they have one lower case. -/
theorem forall₂_sameLetter_iff {s t : List Char} :
    List.Forall₂ SameLetter s t ↔ s.map Char.toLower = t.map Char.toLower := by
  have same : SameLetter = fun c d => c.toLower = d.toLower :=
    funext fun c => funext fun d => propext sameLetter_iff
  rw [same, ← List.forall₂_eq_eq_eq, List.forall₂_map_left_iff, List.forall₂_map_right_iff]

theorem isBlank_toLower (c : Char) : isBlank c.toLower = isBlank c := by
  have letters : ∀ n < 91, 65 ≤ n → blankRanges.contains (n + 32) = blankRanges.contains n := by
    decide
  rw [isBlank, isBlank, toNat_toLower]
  split
  case isTrue bounds => exact letters _ (by omega) bounds.1
  case isFalse => exact Eq.refl _

/-- Blanks have no case, so a text may be put in lower case before it is trimmed or after. -/
theorem trim_map_toLower (text : List Char) :
    trim (text.map Char.toLower) = (trim text).map Char.toLower := by
  have blank : isBlank ∘ Char.toLower = isBlank := funext isBlank_toLower
  rw [trim, trim, List.dropWhile_map, ← List.map_reverse, List.dropWhile_map, ← List.map_reverse,
    blank]

end TrackedHeap.Text
