import TrackedHeap.Proofs.Manager.Strings
import TrackedHeap.Proofs.Tracking.Overflow

/-!
# Sizes never wrap

Two sizes are computed without a check: that of a new string, as a sum, and that of an array in each
layer, as a product. The sum is exact because half of the address space holds every text with its NUL,
the product because the allocator inside the layer has refused what does not fit.

* `exactLength` : the lengths of parts added up as numbers;
* `mem_copyPlan`, `getLast?_copyPlan` : where the stores of a plan begin and end, and the last of them;
* `JoinsExactly` : parts of which every sum is exact, so that all stores lie inside the memory;
* `Manager.BuildsExactly` : a call that asks for exactly the memory of its parts and ends it with the
  NUL;
* `sizes_never_wrap` : both kinds of size, for every call that makes a string and for every array.
-/

namespace TrackedHeap

/-! ## Sums -/

/-- The sum of the lengths of parts, as a number. -/
def exactLength : List CText → Nat
  | [] => 0
  | part :: rest => part.bytes.length + exactLength rest

theorem length_joinedBytes (parts : List CText) : (joinedBytes parts).length = exactLength parts := by
  induction parts with
  | nil => rfl
  | cons part rest ih => rw [joinedBytes_cons, List.length_append, ih, exactLength]

theorem exactLength_take_le (parts : List CText) (n : Nat) :
    exactLength (parts.take n) ≤ exactLength parts := by
  have hsplit := joinedBytes_append (parts.take n) (parts.drop n)
  rw [List.take_append_drop] at hsplit
  rw [← length_joinedBytes, ← length_joinedBytes, hsplit, List.length_append]
  exact Nat.le_add_right _ _

/-! ## Stores -/

/-- A store of a plan begins before the end of the memory for the parts and a NUL, and ends inside. -/
theorem mem_copyPlan {parts : List Bytes} {offset : Nat} {store : Nat × Bytes}
    (h : store ∈ copyPlan offset parts) :
    store.1 < offset + (parts.flatten.length + 1) ∧
      store.1 + store.2.length ≤ offset + (parts.flatten.length + 1) := by
  induction parts generalizing offset with
  | nil =>
    obtain rfl := List.mem_singleton.1 h
    exact ⟨Nat.lt_succ_self offset, Nat.le_refl _⟩
  | cons part rest ih =>
    rw [List.flatten_cons, List.length_append]
    rcases List.mem_cons.1 h with rfl | h
    · dsimp only
      omega
    · have := ih h
      omega

/-- The last store of a plan puts the NUL behind the parts. -/
theorem getLast?_copyPlan (parts : List Bytes) (offset : Nat) :
    (copyPlan offset parts).getLast? = some (offset + parts.flatten.length, [0]) := by
  induction parts generalizing offset with
  | nil => rfl
  | cons part rest ih =>
    rw [copyPlan, List.getLast?_cons, ih, List.flatten_cons, List.length_append, Nat.add_assoc]
    rfl

/-- Parts whose lengths are added up without a wrap, with room for a NUL. Every store begins and ends
inside the memory asked for, the last of them with the NUL right behind the parts. -/
structure JoinsExactly (parts : List CText) : Prop where
  fits : exactLength parts + 1 < 2 ^ 64
  sums : ∀ n, (totalLength (parts.take n)).toNat = exactLength (parts.take n)
  size : (totalLength parts + 1).toNat = exactLength parts + 1
  stores : ∀ store ∈ copyPlan 0 (parts.map CText.bytes),
    store.1 < (totalLength parts + 1).toNat ∧
      store.1 + store.2.length ≤ (totalLength parts + 1).toNat
  terminator : (copyPlan 0 (parts.map CText.bytes)).getLast? = some ((totalLength parts).toNat, [0])

theorem joinsExactly {parts : List CText} (fits : exactLength parts + 1 < 2 ^ 64) :
    JoinsExactly parts := by
  have hjoined : (joinedBytes parts).length + 1 < 2 ^ 64 := by rwa [length_joinedBytes]
  obtain ⟨hlength, hsize⟩ := toNat_totalLength_succ hjoined
  rw [length_joinedBytes] at hlength hsize
  have hflatten : (parts.map CText.bytes).flatten.length = exactLength parts :=
    length_joinedBytes parts
  refine ⟨fits, fun n => ?_, hsize, fun store hstore => ?_, ?_⟩
  · have := exactLength_take_le parts n
    rw [toNat_totalLength, length_joinedBytes]
    exact Nat.mod_eq_of_lt (by omega)
  · have hinside := mem_copyPlan hstore
    rwa [hflatten, Nat.zero_add, ← hsize] at hinside
  · rw [getLast?_copyPlan, hflatten, Nat.zero_add, hlength]

/-! ## Calls -/

namespace Manager

/-- A call that makes a string of parts. It asks for exactly their bytes and the NUL, and carries the
plan out in the memory that it gets, where the NUL then lies behind the bytes. -/
structure BuildsExactly (m : Manager) (heap : Heap) (address : Address) (location : Location)
    (parts : List CText) (after : After (Except AllocError (Option Size))) : Prop where
  joins : JoinsExactly parts
  asked : ∃ size length : Size,
    size.toNat = exactLength parts + 1 ∧ length.toNat = exactLength parts ∧
      after.value =
        (m.request heap (.block size) address location).value.map (fun _ => some length) ∧
      after.manager = (m.request heap (.block size) address location).manager ∧
      after.trail = (m.request heap (.block size) address location).trail
  placed : heap.isFree address = true → ∀ length : Size, after.value = .ok (some length) →
    ∃ region, after.heap.find? address = some ⟨.string length, region⟩ ∧
      region = (Region.unset region.size).storeAll (copyPlan 0 (parts.map CText.bytes)) ∧
      length.toNat = exactLength parts ∧ region.size.toNat = exactLength parts + 1 ∧
      region.cell (exactLength parts) = some 0

section
variable (m : Manager) (heap : Heap) (address : Address) (location : Location)

/-- Joining succeeds and fails as the request for its memory does. -/
theorem joined_eq_request (parts : List CText) :
    let granted := m.request heap (.block (totalLength parts + 1)) address location
    (m.joined heap parts address location).value = granted.value.map (fun _ => totalLength parts) ∧
      (m.joined heap parts address location).manager = granted.manager ∧
      (m.joined heap parts address location).trail = granted.trail := by
  rw [joined]
  obtain ⟨value, m', heap', t⟩ := m.request heap (.block (totalLength parts + 1)) address location
  cases value <;> exact ⟨rfl, rfl, rfl⟩

theorem buildsExactly_assembled {parts : List CText} (some_part : parts ≠ [])
    (fits : exactLength parts + 1 < 2 ^ 64) :
    BuildsExactly m heap address location parts (m.assembled heap parts address location) := by
  have joins := joinsExactly fits
  have length_eq : (totalLength parts).toNat = exactLength parts := by
    simpa only [List.take_length] using joins.sums parts.length
  obtain ⟨hvalue, hmanager, htrail⟩ := m.joined_eq_request heap address location parts
  rw [assembled, if_neg some_part]
  refine ⟨joins, ⟨_, _, joins.size, length_eq, ?_, hmanager, htrail⟩, fun free length made => ?_⟩
  · rw [present, hvalue]
    cases (m.request heap (.block (totalLength parts + 1)) address location).value <;> rfl
  · obtain ⟨a', t, granted⟩ | ⟨e, refused⟩ :=
      m.allocator.granted_or_refused (.block (totalLength parts + 1)) address location
    · rw [joined_of_granted free granted] at made ⊢
      obtain rfl := Option.some.inj (Except.ok.inj made)
      have hjoined : (joinedBytes parts).length + 1 < 2 ^ 64 := by rwa [length_joinedBytes]
      have holds := holds_joined hjoined
      have hsize : (Slot.joined parts).region.size = totalLength parts + 1 := size_storeAll _ _
      refine ⟨(Slot.joined parts).region, Heap.find?_insert_self _ _ _, ?_, length_eq, ?_, ?_⟩
      · rw [hsize]
        rfl
      · rw [hsize]
        exact joins.size
      · rw [← length_joinedBytes]
        exact holds.cell_length
    · rw [present, joined_of_refused refused] at made
      cases made

end

end Manager

/-! ## Both kinds of size -/

/-- **No size wraps.** Whatever text is copied and whatever two texts are joined, their lengths and the
NUL are added up exactly, all stores lie inside the memory asked for, and the NUL comes right behind
the bytes. Whatever allocator stands under any number of layers, as long as it reports overflow, the
layers report it too, and every layer records and writes the exact product for every array that is
granted. Every base reports overflow. -/
theorem sizes_never_wrap :
    (∀ (m : Manager) (heap : Heap) (address : Address) (location : Location)
        (first second : Option CText),
      (first.toList ≠ [] → m.BuildsExactly heap address location first.toList
        (m.makeString heap first address location)) ∧
      (first.toList ++ second.toList ≠ [] →
        m.BuildsExactly heap address location (first.toList ++ second.toList)
          (m.concat heap first second address location))) ∧
    (∀ (a : Allocator) (sink : Sink) (elementSize count : Size) (address : Address)
        (location : Location) (heap : Heap),
      a.core.ReportsOverflow →
        let after := a.request sink (.array elementSize count) address location heap
        (2 ^ 64 ≤ elementSize.toNat * count.toNat →
          after = ⟨.error (.sizeOverflow elementSize count), a, heap, .empty⟩) ∧
        (after.value = .ok () →
          a.RecordsExactly sink elementSize count address location after)) ∧
    ∀ b : Base, b.answers.ReportsOverflow := by
  refine ⟨fun m heap address location first second => ⟨fun some_part => ?_, fun some_part => ?_⟩,
    fun a sink elementSize count address location heap contract => ⟨fun large => ?_, fun ok => ?_⟩,
    Base.reportsOverflow⟩
  · have fits := length_joinedBytes_toList_lt first
    rw [length_joinedBytes] at fits
    rw [Manager.makeString_eq_assembled]
    exact m.buildsExactly_assembled heap address location some_part (by omega)
  · have fits := length_joinedBytes_pair_lt first second
    rw [length_joinedBytes] at fits
    rw [Manager.concat_eq_assembled]
    exact m.buildsExactly_assembled heap address location some_part fits
  · exact Allocator.request_overflow contract large sink address location heap
  · exact Allocator.recordsExactly_of_granted contract ok

/-- A text joined with itself in a plain manager, an array of half of the address space in two layers
over a base that accepts every size, and one of many empty elements in a layer over an allocator that
has memory for nothing else but reports overflow. -/
theorem sizes_never_wrap_joined :
    let hi : CText := ⟨[104, 105], by decide, by decide⟩
    let after := (Manager.plain .unbounded).concat [] (some hi) (some hi) ⟨"a"⟩ .caller
    let layers := Allocator.tracked (.tracked (.base Base.unbounded.answers) ⟨1, 0⟩) .empty
    let half := layers.request .standardError (.array 0x100000000 0x80000000) ⟨"b"⟩ .boundary []
    let empty := (Allocator.stack (.limited .unbounded 0) 1).request .standardError
      (.array 0 0xffffffffffffffff) ⟨"c"⟩ .boundary []
    (after.value = .ok (some 4) ∧ ∃ region, after.heap.find? ⟨"a"⟩ = some ⟨.string 4, region⟩ ∧
        region.size.toNat = 5 ∧ region.cell 4 = some 0) ∧
      half.value = .ok () ∧
      half.allocator.ledgers = [⟨0x8000000000000000, 1⟩, ⟨0x8000000000000001, 1⟩] ∧
      half.trail.lines.map Line.text =
        List.replicate 2 "ALLOC: 9223372036854775808 bytes at @b (@ffi)" ∧
      empty.value = .ok () ∧
      empty.trail.lines.map Line.text = ["ALLOC: 0 bytes at @c (@ffi)"] := by
  intro hi after layers half empty
  obtain ⟨strings, arrays, bases⟩ := sizes_never_wrap
  have made : after.value = .ok (some 4) := rfl
  have built := (strings (.plain .unbounded) [] ⟨"a"⟩ .caller (some hi) (some hi)).2
    (List.cons_ne_nil _ _)
  obtain ⟨region, found, -, -, size, cell⟩ := built.placed rfl _ made
  have recorded := (arrays layers .standardError 0x100000000 0x80000000 ⟨"b"⟩ .boundary []
    (bases .unbounded)).2 rfl
  have hollow := (arrays (.stack (.limited .unbounded 0) 1) .standardError 0 0xffffffffffffffff
    ⟨"c"⟩ .boundary [] (bases _)).2 rfl
  exact ⟨⟨made, region, found, size, cell⟩, rfl, rfl, (recorded.lines rfl).trans (by decide), rfl,
    (hollow.lines rfl).trans (by decide)⟩

end TrackedHeap
