import TrackedHeap.Proofs.Session.Refusal
import TrackedHeap.Proofs.Tracking.Layers

/-!
# The memory of new strings in a session

Copying a text and joining two of them come down to one allocation and one row of stores, whatever
lies in the heap and wherever the texts come from.

* `perform_of_texts?` : a step that joins texts and is granted its memory;
* `Session.NewString s s' entry index name parts` : from `s` to `s'` a step through one manager has
  made one string of the parts, at an address that was free, in one allocation of exactly its bytes
  and its NUL, and has left all other memory as it was;
* `Session.Builds` : a step makes such a string when its base accepts that size, and makes none
  exactly when there is no text at all;
* `builds_of_texts?` : every step that joins texts does;
* `builds_makeString_concat` : so do both operations on optional texts.
-/

namespace TrackedHeap.Session

/-- A step that joins texts and is granted its memory makes a string of them. -/
theorem perform_of_texts? {s : Session} {step : Step} {m : Manager} {name : Address}
    {parts : List CText} {allocator : Allocator} {t : Trail}
    (manager : s.managers[step.index]? = some m) (named : step.name = some name)
    (free : s.heap.isFree name = true) (texts : step.op.texts? s.heap = some parts)
    (some_part : parts ≠ [])
    (granted : Allocator.Granted (.block (totalLength parts + 1)) name .caller m.allocator
      allocator t) :
    let s' : Session :=
      ⟨s.heap.insert name (.joined parts), s.managers.set step.index { m with allocator }⟩
    s.perform step =
      (s', ⟨some (.string ⟨name, totalLength parts, joinedBytes parts, joinedBytes parts ++ [0]⟩),
        m.sink.pass t, s'.ledger? step.index⟩) := by
  have hstep := step?_of_texts? manager named free texts
  rw [build?_of_granted free some_part (Op.fits_of_texts? texts) granted] at hstep
  exact perform_of_step? hstep

/-- One string is made of the bytes of some parts: at an address that was free, by one allocation of
exactly these bytes and a NUL, in memory of which each byte is written once. -/
structure NewString (s s' : Session) (entry : Entry) (index : Nat) (name : Address)
    (parts : List CText) : Prop where
  reply : entry.reply =
    some (.string ⟨name, UInt64.ofNat (joinedBytes parts).length, joinedBytes parts,
      joinedBytes parts ++ [0]⟩)
  fresh : name ∉ s.heap.addresses
  memory : ∃ region,
    s'.heap.find? name = some ⟨.string (UInt64.ofNat (joinedBytes parts).length), region⟩ ∧
    region.size.toNat = (joinedBytes parts).length + 1 ∧
    (∀ i < (joinedBytes parts).length + 1, region.cell i = (joinedBytes parts ++ [0])[i]?) ∧
    region = (Region.unset region.size).storeAll (copyPlan 0 (parts.map CText.bytes))
  written_once : ∀ i, writesAt (copyPlan 0 (parts.map CText.bytes)) i =
    if i < (joinedBytes parts).length + 1 then 1 else 0
  /-- The memory of the operands is among what stays as it was. -/
  others : ∀ a slot, s.heap.find? a = some slot → s'.heap.find? a = some slot
  addresses : s'.heap.addresses = name :: s.heap.addresses
  /-- All layers of the manager record one allocation, and no other manager does. -/
  ledgers : ∃ m m', s.managers[index]? = some m ∧ s'.managers = s.managers.set index m' ∧
    m'.sink = m.sink ∧ m'.allocator.core = m.allocator.core ∧
    m'.allocator.ledgers =
      m.allocator.ledgers.map (·.recordAllocation (UInt64.ofNat ((joinedBytes parts).length + 1)))

/-- An operation through a manager builds a string of some texts, or nothing where there is
none. -/
structure Builds (s : Session) (index : Nat) (m : Manager) (name : Address) (op : Op)
    (parts : List CText) : Prop where
  absent_iff : (s.perform ⟨index, op, some name⟩).2.reply = some .absent ↔ parts = []
  nothing : parts = [] →
    (s.perform ⟨index, op, some name⟩).1 = s ∧ (s.perform ⟨index, op, some name⟩).2.trail = .empty
  made : parts ≠ [] →
    m.allocator.core.accepts (UInt64.ofNat ((joinedBytes parts).length + 1)) = true →
      s.NewString (s.perform ⟨index, op, some name⟩).1 (s.perform ⟨index, op, some name⟩).2 index
        name parts

section
variable {s : Session} {index : Nat} {m : Manager} {name : Address} {op : Op}
  {parts : List CText} (manager : s.managers[index]? = some m)
  (free : s.heap.isFree name = true) (texts : op.texts? s.heap = some parts)
include manager free texts

theorem newString_of_texts? (some_part : parts ≠ [])
    (accepted :
      m.allocator.core.accepts (UInt64.ofNat ((joinedBytes parts).length + 1)) = true) :
    s.NewString (s.perform ⟨index, op, some name⟩).1 (s.perform ⟨index, op, some name⟩).2 index
      name parts := by
  rw [← totalLength_succ_eq] at accepted
  obtain ⟨allocator, t, granted⟩ :=
    Allocator.exists_granted (Answers.accepts_eq_true accepted) name .caller
  have fits := Op.fits_of_texts? texts
  have hperform : s.perform ⟨index, op, some name⟩ = _ :=
    perform_of_texts? manager rfl free texts some_part granted
  rw [hperform]
  constructor
  case reply => rw [totalLength_eq]
  case fresh => exact Heap.isFree_iff.1 free
  case memory =>
    have hsize : (Slot.joined parts).region.size = totalLength parts + 1 := size_storeAll _ _
    refine ⟨(Slot.joined parts).region, ?_, ?_, fun i hi => ?_, ?_⟩
    · rw [Heap.find?_insert_self, ← totalLength_eq]
      rfl
    · rw [hsize, (toNat_totalLength_succ fits).2]
    · apply (holds_joined fits).cell_eq_succ
      rwa [List.length_append, List.length_singleton]
    · rw [hsize]
      rfl
  case written_once =>
    intro i
    rw [writesAt_copyPlan, Nat.zero_add]
    simp [joinedBytes]
  case others =>
    intro a slot found
    exact Heap.find?_insert_of_found found free _
  case addresses => exact Heap.addresses_insert _ _ _
  case ledgers =>
    refine ⟨m, _, manager, rfl, rfl, granted.core_eq, ?_⟩
    rw [granted.ledgers_eq, ← totalLength_succ_eq]
    rfl

/-- **Every operation that joins texts builds a string of them.** -/
theorem builds_of_texts? : s.Builds index m name op parts := by
  have nothing : parts = [] → s.perform ⟨index, op, some name⟩ =
      (s, ⟨some .absent, .empty, s.ledger? index⟩) := by
    rintro rfl
    exact perform_of_texts?_nil manager rfl free texts
  constructor
  case absent_iff =>
    refine ⟨fun absent => ?_, fun none => by rw [nothing none]⟩
    by_contra some_part
    have hstep : s.step? ⟨index, op, some name⟩ = _ := step?_of_texts? manager rfl free texts
    obtain ⟨allocator, t, granted⟩ | ⟨e, refused⟩ :=
      m.allocator.granted_or_refused (.block (totalLength parts + 1)) name .caller
    · rw [build?_of_granted free some_part (Op.fits_of_texts? texts) granted] at hstep
      rw [perform_of_step? hstep] at absent
      cases absent
    · rw [build?_of_refused manager some_part refused] at hstep
      rw [perform_of_step? hstep] at absent
      cases absent
  case nothing =>
    intro none
    rw [nothing none]
    exact ⟨rfl, rfl⟩
  case made => exact newString_of_texts? manager free texts

end

/-- **A copy and a join are new strings of exactly their bytes**, wherever the texts come from:
given as they are, or held as strings, both in one string too. A copy is of the one text that is
there. No string is made exactly when no text is there, so an empty text is not an absent one. -/
theorem builds_makeString_concat {s : Session} {index : Nat} {m : Manager} {name : Address}
    {first second : Operand} {a b : Option CText} (manager : s.managers[index]? = some m)
    (free : s.heap.isFree name = true) (left : first.string? s.heap = some a)
    (right : second.string? s.heap = some b) :
    s.Builds index m name (.makeString first) a.toList ∧
      s.Builds index m name (.concat first second) (a.toList ++ b.toList) := by
  constructor
  · apply builds_of_texts? manager free
    rw [Op.texts?, left, Option.map_some]
  · apply builds_of_texts? manager free
    rw [Op.texts?, left, right]
    rfl

/-- A string joined with itself is new memory beside its own. -/
theorem builds_makeString_concat_aliased :
    let hi : CText := ⟨[104, 105], by decide, by decide⟩
    let s : Session := ⟨[(⟨"a"⟩, .joined [hi])], [.tracked .unbounded .standardError]⟩
    let entry := s.perform ⟨0, .concat (.held ⟨"a"⟩) (.held ⟨"a"⟩), some ⟨"b"⟩⟩
    entry.2.reply =
        some (.string ⟨⟨"b"⟩, 4, [104, 105, 104, 105], [104, 105, 104, 105, 0]⟩) ∧
      entry.1.heap.find? ⟨"a"⟩ = some (.joined [hi]) := by
  intro hi s entry
  have held : (Operand.held ⟨"a"⟩).string? s.heap = some (some hi) := by decide +kernel
  have bytes : joinedBytes [hi, hi] = [104, 105, 104, 105] := rfl
  have built : s.NewString entry.1 entry.2 0 ⟨"b"⟩ [hi, hi] :=
    (builds_makeString_concat rfl rfl held held).2.made (List.cons_ne_nil _ _) rfl
  refine ⟨?_, built.others ⟨"a"⟩ _ rfl⟩
  rw [built.reply, bytes]
  rfl

end TrackedHeap.Session
