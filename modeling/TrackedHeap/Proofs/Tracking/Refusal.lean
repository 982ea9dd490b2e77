import Mathlib.Algebra.Group.Nat.Defs
import TrackedHeap.Manager.Basic
import TrackedHeap.Proofs.Tracking.Movement

/-!
# When memory is refused

* `Request.array?` : the elements of an array and their number;
* `Base.Refuses b bytes array? e` : the error with which a base has to refuse a number of bytes, and
  with no other (`Base.answers_eq_error_iff`);
* `Answers.ReportsOverflow` : the contract of an allocator that refuses what no size can hold. What it
  grants fits in a size (`ReportsOverflow.fits`). Every base keeps it (`Base.reportsOverflow`);
* `Event.error?` : the error that an event carries.
-/

namespace TrackedHeap

/-- The size of an element and the number of elements, of an array. -/
def Request.array? : Request → Option (Size × Size)
  | .block _ => none
  | .array elementSize count => some (elementSize, count)

/-- Why a number of bytes has to be refused: no size holds the bytes of the array, whatever the
base, or the base does not accept their number. -/
inductive Base.Refuses (b : Base) (bytes : Nat) (array? : Option (Size × Size)) : AllocError → Prop
  | overflow {elementSize count : Size} (array : array? = some (elementSize, count))
      (large : 2 ^ 64 ≤ bytes) : Refuses b bytes array? (.sizeOverflow elementSize count)
  | outOfMemory (fits : bytes < 2 ^ 64) (refused : b.accepts (UInt64.ofNat bytes) = false) :
    Refuses b bytes array? (.outOfMemory (UInt64.ofNat bytes))

theorem Base.answers_eq_error_iff {b : Base} {r : Request} {e : AllocError} :
    b.answers r = .error e ↔ b.Refuses r.exact r.array? e := by
  by_cases fits : r.exact < 2 ^ 64
  · rw [answers, Request.size?_eq_ok fits]
    dsimp only
    have hsize := r.ofNat_exact
    constructor
    · intro h
      split at h
      · cases h
      · rename_i refused
        obtain rfl := Except.error.inj h
        rw [← hsize] at refused ⊢
        exact .outOfMemory fits (Bool.eq_false_iff.2 refused)
    · rintro (⟨-, large⟩ | ⟨-, refused⟩)
      · omega
      · rw [hsize] at refused ⊢
        rw [if_neg (Bool.eq_false_iff.1 refused)]
  · cases r with
    | block size => exact absurd size.toNat_lt fits
    | array elementSize count =>
      rw [answers, Request.size?_array_eq_error (Nat.not_lt.1 fits)]
      constructor
      · intro h
        obtain rfl := Except.error.inj h
        exact .overflow rfl (Nat.not_lt.1 fits)
      · rintro (⟨array, -⟩ | ⟨fits', -⟩)
        · obtain ⟨rfl, rfl⟩ := Prod.mk.inj (Option.some.inj array)
          rfl
        · exact absurd fits' fits

/-- A size that a base accepts is not refused. -/
theorem Base.not_refuses {b : Base} {size : Size} (granted : b.accepts size = true)
    {array? : Option (Size × Size)} {e : AllocError} : ¬ b.Refuses size.toNat array? e := by
  rintro (⟨-, large⟩ | ⟨-, refused⟩)
  · have := size.toNat_lt
    omega
  · rw [UInt64.ofNat_toNat, granted] at refused
    cases refused

/-! ## Sizes that fit -/

namespace Answers

/-- Every array that no size can hold is refused as an overflow. -/
def ReportsOverflow (answers : Answers) : Prop :=
  ∀ elementSize count : Size, 2 ^ 64 ≤ elementSize.toNat * count.toNat →
    answers (.array elementSize count) = .error (.sizeOverflow elementSize count)

/-- A request that is granted fits in a size. -/
theorem ReportsOverflow.fits {answers : Answers} (h : answers.ReportsOverflow) {r : Request}
    (granted : answers r = .ok ()) : r.exact < 2 ^ 64 := by
  cases r with
  | block size => exact size.toNat_lt
  | array elementSize count =>
    refine Nat.lt_of_not_ge fun large => ?_
    rw [h elementSize count large] at granted
    cases granted

theorem accepts_eq_true {answers : Answers} {size : Size} (h : answers.accepts size = true) :
    answers (.block size) = .ok () := by
  unfold accepts at h
  cases hanswer : answers (.block size) with
  | ok => rfl
  | error e =>
    rw [hanswer] at h
    cases h

end Answers

theorem Base.reportsOverflow (b : Base) : b.answers.ReportsOverflow := fun _ _ large =>
  answers_eq_error_iff.2 (.overflow rfl large)

/-- The error that an event carries. -/
def Event.error? : Event → Option AllocError
  | .blockRefused e => some e
  | .arrayRefused e => some e
  | .nullBlock e => some e
  | .nullString e => some e
  | _ => none

theorem Manager.error?_refusal (r : Request) (e : AllocError) :
    (refusal r e).error? = some e ∧ (refusal r e).level = .debug := by
  cases r with
  | block => exact ⟨rfl, rfl⟩
  | array => exact ⟨rfl, rfl⟩

end TrackedHeap
