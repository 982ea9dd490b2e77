import TrackedHeap.Proofs.Session.Accounting
import TrackedHeap.Proofs.Session.HeldStrings
import TrackedHeap.Proofs.Session.Refusal

/-!
# Memory held in one way after another

A raw pointer carries no length. Whoever makes a string of one finds the length again by a scan, so
what comes back depends on the bytes that lie there by then.

* `Op.Converts` : the operations that hold the memory at an address in another way;
* `perform_of_held` : what changes how a slot is held applies, with the reply that tells of it;
* `Session.Returns` : steps that all apply and leave all memory held as before, as there and back
  do from a string, a block and raw memory (`returns_of_string`, `returns_of_block`,
  `returns_of_raw`, `returns_of_text`);
* `Session.Reheld` : memory that is held in whatever way has its size and its bytes, and nothing
  else has changed. Every chain of conversions leaves it so (`reheld_run`);
* `Session.releasing`, `Session.ReleasedOnce` : the steps that release memory, by how it is held,
  and what one release leaves;
* `conversions_of_acts_start` : all of this in every reached state.
-/

namespace TrackedHeap

/-- The operation holds the memory at an address in another way. -/
inductive Op.Converts (a : Address) : Op → Prop
  | intoRaw : Converts a (.intoRaw a)
  | rawToBlock : Converts a (.rawToBlock a)
  | rawToString : Converts a (.rawToString a)

namespace Op.Converts
variable {a : Address} {op : Op}

theorem asked?_eq (h : op.Converts a) (heap : Heap) : op.asked? heap = none := by
  cases h <;> rfl

theorem givenBack?_eq (h : op.Converts a) : op.givenBack? = none := by
  cases h <;> rfl

end Op.Converts

namespace Session

/-! ## Conversions that apply -/

/-- What changes how a slot is held, or what it holds, applies and leaves all else. -/
theorem perform_of_held {s : Session} {i : Nat} {a : Address} {slot slot' : Slot} {op : Op}
    {reply : Reply} (index_lt : i < s.managers.length) (found : s.heap.find? a = some slot)
    (held : Held a slot op slot' reply) :
    s.perform ⟨i, op, none⟩ =
      (⟨s.heap.update a fun _ => slot', s.managers⟩, ⟨some reply, .empty, s.ledger? i⟩) := by
  have found' := Heap.find?_update_of_found found slot'
  have hstep : s.step? ⟨i, op, none⟩ =
      some ⟨⟨s.heap.update a fun _ => slot', s.managers⟩, reply, .empty⟩ := by
    have manager : s.managers[i]? = some s.managers[i] := List.getElem?_eq_getElem index_lt
    simp only [step?, Option.all_none, if_true, operate?, manager, Option.bind_eq_bind,
      Option.bind_some]
    cases held with
    | raw h =>
      simp only [through?, found, replace?, h, Option.bind_eq_bind, Option.bind_some,
        Option.map_some, found', Option.isSome_some, Option.pure_def]
    | block h =>
      simp only [through?, found, Heap.blockOf?, replace?, h, Option.bind_eq_bind,
        Option.bind_some, Option.map_some, Option.pure_def]
    | string h string =>
      simp only [through?, found, Heap.stringOf?, replace?, h, Option.bind_eq_bind,
        Option.bind_some, Option.map_some, view?_of_holdsString found' string, Option.pure_def]
    | write offset bytes h =>
      simp only [through?, found, replace?, h, Option.bind_eq_bind, Option.bind_some,
        Option.map_some, Option.pure_def]
  rw [perform_of_step? hstep]
  rfl

/-- Null is no block and no string. -/
theorem perform_convertNull {s : Session} {i : Nat} (index_lt : i < s.managers.length) :
    s.perform ⟨i, .convertNull, none⟩ =
      (s, ⟨some (.conversions false false), .empty, s.ledger? i⟩) := by
  have hstep : s.step? ⟨i, .convertNull, none⟩ = some (s.answer (.conversions false false)) := by
    simp only [step?, Option.all_none, if_true, operate?, List.getElem?_eq_getElem index_lt,
      through?, Heap.blockOf?, Heap.stringOf?, Option.bind_eq_bind, Option.bind_some,
      Option.bind_none, Option.isSome_none]
  rw [perform_of_step? hstep]
  rfl

/-- Steps that all apply, with the given replies, and leave all memory held as it was. -/
def Returns (s : Session) (steps : List Step) (replies : List Reply) : Prop :=
  (s.run steps).2.map Entry.reply = replies.map some ∧
    ∀ b, (s.run steps).1.heap.find? b = s.heap.find? b

theorem returns_of_held {s : Session} {i : Nat} {a : Address} {slot slot' : Slot} {op op' : Op}
    {reply reply' : Reply} (index_lt : i < s.managers.length) (found : s.heap.find? a = some slot)
    (there : Held a slot op slot' reply) (back : Held a slot' op' slot reply') :
    s.Returns [⟨i, op, none⟩, ⟨i, op', none⟩] [reply, reply'] := by
  have found' := Heap.find?_update_of_found found slot'
  have hback : Session.perform ⟨s.heap.update a fun _ => slot', s.managers⟩ ⟨i, op', none⟩ = _ :=
    perform_of_held index_lt found' back
  have hrun : s.run [⟨i, op, none⟩, ⟨i, op', none⟩] =
      (⟨(s.heap.update a fun _ => slot').update a fun _ => slot, s.managers⟩,
        [⟨some reply, .empty, s.ledger? i⟩, ⟨some reply', .empty, s.ledger? i⟩]) := by
    rw [run_cons, run_cons, perform_of_held index_lt found there, hback]
    rfl
  rw [Returns, hrun]
  refine ⟨rfl, fun b => ?_⟩
  by_cases hb : b = a
  · rw [hb, Heap.find?_update_self, found', found]
    rfl
  · rw [Heap.find?_update_of_ne _ _ hb, Heap.find?_update_of_ne _ _ hb]

section
variable {s : Session} {i : Nat} {a : Address} {slot : Slot}

/-- A string comes back from a raw pointer: no byte of it is a NUL, so the scan finds its length. -/
theorem returns_of_string {length : Size} {bytes : Bytes} (index_lt : i < s.managers.length)
    (found : s.heap.find? a = some slot) (string : slot.HoldsString length bytes) :
    s.Returns [⟨i, .intoRaw a, none⟩, ⟨i, .rawToString a, none⟩]
      [.kept true, .string ⟨a, length, bytes, bytes ++ [0]⟩] := by
  have held : slot.kind ≠ .raw := by
    rw [string.kind_eq]
    exact Kind.noConfusion
  have back : Slot.toString? { slot with kind := .raw } = some slot := by
    refine Slot.toString?_eq_some.2 ⟨rfl, bytes, string.holds, ?_⟩
    rw [string.length_eq, UInt64.ofNat_toNat, ← string.kind_eq]
  exact returns_of_held index_lt found (.raw (Slot.toRaw?_eq_some.2 ⟨held, rfl⟩))
    (.string back string)

theorem returns_of_block (index_lt : i < s.managers.length) (found : s.heap.find? a = some slot)
    (kind : slot.kind = .block) :
    s.Returns [⟨i, .intoRaw a, none⟩, ⟨i, .rawToBlock a, none⟩] [.kept true, .block] := by
  have held : slot.kind ≠ .raw := by
    rw [kind]
    exact Kind.noConfusion
  have back : Slot.toBlock? { slot with kind := .raw } = some slot := by
    refine Slot.toBlock?_eq_some.2 ⟨rfl, ?_⟩
    rw [← kind]
  exact returns_of_held index_lt found (.raw (Slot.toRaw?_eq_some.2 ⟨held, rfl⟩)) (.block back)

theorem returns_of_raw (index_lt : i < s.managers.length) (found : s.heap.find? a = some slot)
    (kind : slot.kind = .raw) :
    s.Returns [⟨i, .rawToBlock a, none⟩, ⟨i, .intoRaw a, none⟩] [.block, .kept true] := by
  have back : Slot.toRaw? { slot with kind := .block } = some slot := by
    refine Slot.toRaw?_eq_some.2 ⟨Kind.noConfusion, ?_⟩
    rw [← kind]
  exact returns_of_held index_lt found (.block (Slot.toBlock?_eq_some.2 ⟨kind, rfl⟩)) (.raw back)

/-- Raw memory is a string up to its first NUL, and comes back with what lies behind that. -/
theorem returns_of_text {bytes : Bytes} (index_lt : i < s.managers.length)
    (found : s.heap.find? a = some slot) (kind : slot.kind = .raw)
    (holds : slot.region.Holds bytes) :
    s.Returns [⟨i, .rawToString a, none⟩, ⟨i, .intoRaw a, none⟩]
      [.string ⟨a, UInt64.ofNat bytes.length, bytes, bytes ++ [0]⟩, .kept true] := by
  have there : slot.toString? = some ⟨.string (UInt64.ofNat bytes.length), slot.region⟩ :=
    Slot.toString?_eq_some.2 ⟨kind, bytes, holds, rfl⟩
  have back : Slot.toRaw? ⟨.string (UInt64.ofNat bytes.length), slot.region⟩ = some slot := by
    refine Slot.toRaw?_eq_some.2 ⟨Kind.noConfusion, ?_⟩
    rw [← kind]
  exact returns_of_held index_lt found (.string there (Slot.holdsString_of_holds holds)) (.raw back)

end

/-! ## Chains of conversions -/

/-- The memory at an address has its size and its bytes, in whatever way it is held. Nothing else
has changed, and no manager. -/
structure Reheld (a : Address) (s s' : Session) : Prop where
  region : (s'.heap.find? a).map Slot.region = (s.heap.find? a).map Slot.region
  others : ∀ b ≠ a, s'.heap.find? b = s.heap.find? b
  addresses : s'.heap.addresses = s.heap.addresses
  managers : s'.managers = s.managers

namespace Reheld
variable {a : Address} {s s' s'' : Session}

theorem refl (a : Address) (s : Session) : Reheld a s s := ⟨rfl, fun _ _ => rfl, rfl, rfl⟩

theorem trans (h : Reheld a s s') (h' : Reheld a s' s'') : Reheld a s s'' :=
  ⟨h'.region.trans h.region, fun b hb => (h'.others b hb).trans (h.others b hb),
    h'.addresses.trans h.addresses, h'.managers.trans h.managers⟩

/-- The slot at the address is still there. -/
theorem exists_found {slot : Slot} (h : Reheld a s s') (found : s.heap.find? a = some slot) :
    ∃ kind, s'.heap.find? a = some { slot with kind } := by
  have hregion := h.region
  rw [found] at hregion
  obtain ⟨slot', found', heq⟩ := Option.map_eq_some_iff.1 hregion
  exact ⟨slot'.kind, by rw [found', ← heq]⟩

end Reheld

/-- A conversion changes how a slot is held, and not its memory. -/
theorem Held.region_eq {a : Address} {slot slot' : Slot} {op : Op} {reply : Reply}
    (held : Held a slot op slot' reply) (converts : op.Converts a) :
    slot'.region = slot.region := by
  cases held with
  | raw h =>
    obtain ⟨-, rfl⟩ := Slot.toRaw?_eq_some.1 h
    rfl
  | block h =>
    obtain ⟨-, rfl⟩ := Slot.toBlock?_eq_some.1 h
    rfl
  | string h =>
    obtain ⟨-, _, -, rfl⟩ := Slot.toString?_eq_some.1 h
    rfl
  | write => cases converts

/-- **A conversion leaves the memory, every ledger and the diagnostic stream as they were.** -/
theorem reheld_perform {a : Address} (s : Session) {step : Step} (converts : step.op.Converts a) :
    s.Reheld a (s.perform step).1 ∧ (s.perform step).2.trail.lines = [] := by
  have hasked := converts.asked?_eq s.heap
  have hgiven := converts.givenBack?_eq
  obtain hperform | ⟨o, effect, hperform⟩ := s.perform_cases step <;> rw [hperform]
  · exact ⟨.refl a s, rfl⟩
  cases effect with
  | make manager free asked =>
    rw [hasked] at asked
    cases asked
  | refuse manager asked =>
    rw [hasked] at asked
    cases asked
  | giveBack manager found asked given =>
    rw [hgiven] at given
    cases given
  | @hold b slot slot' reply found asked given held =>
    -- What is held in another way is the memory that the conversion names.
    obtain rfl : b = a := by
      generalize step.op = op at held converts
      cases converts <;> cases held <;> rfl
    refine ⟨⟨?_, ?_, ?_, rfl⟩, rfl⟩
    · rw [Heap.find?_update_self, found]
      exact congrArg some (held.region_eq converts)
    · intro c hc
      exact s.heap.find?_update_of_ne (fun _ => slot') hc
    · exact s.heap.addresses_update b fun _ => slot'
  | redirect failing manager asked given redirects =>
    rw [redirects] at converts
    cases converts
  | still asked given quiet silent =>
    refine ⟨.refl a s, silent ?_⟩
    intro report
    rw [report] at converts
    cases converts

theorem reheld_run {a : Address} (s : Session) {chain : List Step}
    (converts : ∀ step ∈ chain, step.op.Converts a) :
    s.Reheld a (s.run chain).1 ∧ ∀ e ∈ (s.run chain).2, e.trail.lines = [] := by
  induction chain generalizing s with
  | nil => exact ⟨.refl a s, fun _ he => absurd he List.not_mem_nil⟩
  | cons step rest ih =>
    rw [List.forall_mem_cons] at converts
    obtain ⟨hstep, hlines⟩ := s.reheld_perform converts.1
    obtain ⟨hrest, hlines'⟩ := ih (s.perform step).1 converts.2
    rw [run_cons]
    exact ⟨hstep.trans hrest, List.forall_mem_cons.2 ⟨hlines, hlines'⟩⟩

theorem movements_of_converts {a : Address} (s : Session) {chain : List Step}
    (converts : ∀ step ∈ chain, step.op.Converts a) (i : Nat) : s.movements i chain = [] := by
  induction chain generalizing s with
  | nil => rfl
  | cons step rest ih =>
    rw [List.forall_mem_cons] at converts
    have hmoved : s.movement? i step = none := by
      rw [movement?, Step.movement?_eq_none (converts.1.asked?_eq _) converts.1.givenBack?_eq,
        ite_self]
    rw [movements, hmoved, ih _ converts.2]
    rfl

/-! ## Releasing at the end -/

/-- The steps that release the memory at an address through one manager, by how it is held. Raw
memory is a block first. -/
def releasing (a : Address) (location : Location) (i : Nat) : Kind → List Step
  | .block => [⟨i, .release (some a) location, none⟩]
  | .string _ => [⟨i, .releaseString a, none⟩]
  | .raw => [⟨i, .rawToBlock a, none⟩, ⟨i, .release (some a) location, none⟩]

/-- The memory at an address is gone, and one manager has recorded one release, in each of its
layers. -/
structure ReleasedOnce (a : Address) (i : Nat) (s s' : Session) : Prop where
  free : s'.heap.isFree a = true
  others : ∀ b ≠ a, s'.heap.find? b = s.heap.find? b
  ledgers : ∃ m m', s.managers[i]? = some m ∧ s'.managers = s.managers.set i m' ∧
    m'.sink = m.sink ∧ m'.allocator.core = m.allocator.core ∧
    m'.allocator.ledgers = m.allocator.ledgers.map Ledger.recordRelease

/-- What is released after conversions is released once. -/
theorem Reheld.releasedOnce {a : Address} {i : Nat} {s s' s'' : Session} (h : Reheld a s s')
    (released : ReleasedOnce a i s' s'') : ReleasedOnce a i s s'' where
  free := released.free
  others b hb := (released.others b hb).trans (h.others b hb)
  ledgers := by rw [← h.managers]; exact released.ledgers

/-- **A step that releases something and applies releases it once**, and no other ledger counts
it. -/
theorem releasedOnce_of_step? {a : Address} {s : Session} {step : Step}
    (given : step.op.givenBack? = some a) (applies : (s.step? step).isSome = true) :
    s.ReleasedOnce a step.index (s.run [step]).1 ∧
      ∀ k, s.movements k [step] = if k = step.index then [.returned] else [] := by
  obtain ⟨o, ho⟩ := Option.isSome_iff_exists.1 applies
  have hperform := perform_of_step? ho
  suffices h : s.ReleasedOnce a step.index (s.perform step).1 ∧
      (s.perform step).2.reply = some .done by
    refine ⟨h.1, fun k => ?_⟩
    have moved : step.movement? s.heap (some .done) = some .returned :=
      congrArg (Option.map fun _ => Movement.returned) given
    rw [movements, movement?, h.2, moved]
    by_cases hk : k = step.index
    · rw [if_pos hk.symm, if_pos hk]
      rfl
    · rw [if_neg (Ne.symm hk), if_neg hk]
      rfl
  rw [hperform]
  cases effect_of_step? ho with
  | make manager free asked given' =>
    rw [given'] at given
    cases given
  | refuse manager asked given' =>
    rw [given'] at given
    cases given
  | giveBack manager found asked given' =>
    obtain rfl := Option.some.inj (given'.symm.trans given)
    refine ⟨⟨?_, fun b hb => Heap.find?_erase_of_ne _ hb, ?_⟩, rfl⟩
    · rw [Heap.isFree, Heap.find?_erase_self]
      rfl
    · exact ⟨_, _, manager, rfl, rfl, Allocator.core_released _ _ _,
        Allocator.ledgers_released _ _ _⟩
  | hold found asked given' =>
    rw [given'] at given
    cases given
  | redirect failing manager asked given' =>
    rw [given'] at given
    cases given
  | still asked given' =>
    rw [given'] at given
    cases given

section
variable {s : Session} {i : Nat} {a : Address} {slot : Slot}

theorem isSome_step?_release (index_lt : i < s.managers.length)
    (found : s.heap.find? a = some slot) (block : slot.kind = .block) (location : Location) :
    (s.step? ⟨i, .release (some a) location, none⟩).isSome = true := by
  have releasable : isReleasable s.heap (some a) = true := by
    rw [isReleasable, found, Option.any_some, block]
    rfl
  simp only [step?, Option.all_none, if_true, operate?, List.getElem?_eq_getElem index_lt, through?,
    releasable, Option.bind_eq_bind, Option.bind_some, Option.isSome_some]

theorem isSome_step?_releaseString (index_lt : i < s.managers.length)
    (found : s.heap.find? a = some slot) (string : slot.kind.isString = true) :
    (s.step? ⟨i, .releaseString a, none⟩).isSome = true := by
  simp only [step?, Option.all_none, if_true, operate?, List.getElem?_eq_getElem index_lt, through?,
    found, string, Option.bind_eq_bind, Option.bind_some, Option.isSome_some]

/-- **Memory that is held in any way can be released, and is released once.** -/
theorem releasedOnce_releasing (index_lt : i < s.managers.length)
    (found : s.heap.find? a = some slot) (location : Location) :
    s.ReleasedOnce a i (s.run (releasing a location i slot.kind)).1 ∧
      ∀ k, s.movements k (releasing a location i slot.kind) =
        if k = i then [.returned] else [] := by
  cases hkind : slot.kind with
  | block => exact releasedOnce_of_step? rfl (isSome_step?_release index_lt found hkind location)
  | string length =>
    have string : slot.kind.isString = true := by rw [hkind]; rfl
    exact releasedOnce_of_step? rfl (isSome_step?_releaseString index_lt found string)
  | raw =>
    have converts : ∀ step ∈ [Step.mk i (.rawToBlock a) none], step.op.Converts a :=
      List.forall_mem_singleton.2 .rawToBlock
    have held : Held a slot (.rawToBlock a) { slot with kind := .block } .block :=
      .block (Slot.toBlock?_eq_some.2 ⟨hkind, rfl⟩)
    obtain ⟨reheld, -⟩ := s.reheld_run converts
    have found' : (s.run [⟨i, .rawToBlock a, none⟩]).1.heap.find? a =
        some { slot with kind := .block } := by
      rw [run_cons, perform_of_held index_lt found held]
      exact Heap.find?_update_of_found found _
    have index_lt' : i < (s.run [⟨i, .rawToBlock a, none⟩]).1.managers.length := by
      rwa [reheld.managers]
    obtain ⟨released, moved⟩ := releasedOnce_of_step? rfl
      (isSome_step?_release index_lt' found' rfl location)
    constructor
    · exact reheld.releasedOnce released
    · intro k
      rw [← moved k]
      exact (s.movements_append k [⟨i, .rawToBlock a, none⟩] _).trans
        (by rw [movements_of_converts s converts, List.nil_append])

end

/-! ## Reached states -/

/-- **Memory that is held in one way after another loses nothing.** A string comes back from a raw
pointer as it was. Raw memory with whatever bytes is a string up to its first NUL, and comes back
from that with all its bytes. A chain of conversions keeps the memory, every ledger and the
diagnostic stream, and what is released at its end is released once. Null makes nothing. -/
theorem conversions_of_acts_start {setups : List Setup} {actions : List Action} {a : Address}
    {slot : Slot} {i : Nat}
    (found : ((start setups).acts actions).heap.find? a = some slot)
    (index_lt : i < ((start setups).acts actions).managers.length) :
    let s := (start setups).acts actions
    (∀ length, slot.kind = .string length → ∃ bytes : Bytes,
      view? s.heap a = some ⟨a, length, bytes, bytes ++ [0]⟩ ∧
      s.Returns [⟨i, .intoRaw a, none⟩, ⟨i, .rawToString a, none⟩]
        [.kept true, .string ⟨a, length, bytes, bytes ++ [0]⟩]) ∧
    (slot.kind = .block →
      s.Returns [⟨i, .intoRaw a, none⟩, ⟨i, .rawToBlock a, none⟩] [.kept true, .block]) ∧
    (slot.kind = .raw →
      s.Returns [⟨i, .rawToBlock a, none⟩, ⟨i, .intoRaw a, none⟩] [.block, .kept true] ∧
      ∀ n < slot.region.size.toNat, (∀ k < n, ∃ b, slot.region.cell k = some b ∧ b ≠ 0) →
        slot.region.cell n = some 0 → ∃ bytes : Bytes, bytes.length = n ∧
          (∀ k < n, slot.region.cell k = bytes[k]?) ∧
          s.Returns [⟨i, .rawToString a, none⟩, ⟨i, .intoRaw a, none⟩]
            [.string ⟨a, UInt64.ofNat n, bytes, bytes ++ [0]⟩, .kept true]) ∧
    (∀ chain, (∀ step ∈ chain, step.op.Converts a) →
      s.Reheld a (s.run chain).1 ∧ (∀ e ∈ (s.run chain).2, e.trail.lines = []) ∧
      ∃ kind, (s.run chain).1.heap.find? a = some { slot with kind } ∧
        ∀ location, let steps := chain ++ releasing a location i kind
          s.ReleasedOnce a i (s.run steps).1 ∧
            ∀ k, s.movements k steps = if k = i then [.returned] else []) ∧
    s.perform ⟨i, .convertNull, none⟩ =
      (s, ⟨some (.conversions false false), .empty, s.ledger? i⟩) := by
  intro s
  refine ⟨fun length kind => ?_, returns_of_block index_lt found,
    fun kind => ⟨returns_of_raw index_lt found kind, fun n hn text nul => ?_⟩,
    fun chain converts => ?_, perform_convertNull index_lt⟩
  · have hstart : StringsSound (start setups).heap := fun _ _ h => nomatch h
    obtain ⟨bytes, string⟩ := stringsSound_acts hstart actions a slot found length kind
    exact ⟨bytes, view?_of_holdsString found string, returns_of_string index_lt found string⟩
  · obtain ⟨bytes, rfl, holds⟩ := Region.exists_holds hn text nul
    exact ⟨bytes, rfl, holds.cell_eq, returns_of_text index_lt found kind holds⟩
  · obtain ⟨reheld, silent⟩ := s.reheld_run converts
    obtain ⟨kind, found'⟩ := reheld.exists_found found
    refine ⟨reheld, silent, kind, found', fun location => ?_⟩
    have index_lt' : i < (s.run chain).1.managers.length := by rwa [reheld.managers]
    obtain ⟨released, moved⟩ := releasedOnce_releasing index_lt' found' location
    constructor
    · rw [run_append]
      exact reheld.releasedOnce released
    · intro k
      rw [movements_append, movements_of_converts s converts, List.nil_append, moved]

/-- A string that is cut short while it is raw, and released through a manager that did not make
it. -/
theorem conversions_of_acts_start_cut :
    let setups : List Setup := [⟨.unbounded, 1, .standardError⟩, ⟨.unbounded, 2, .standardError⟩]
    let actions : List Action :=
      [.step ⟨0, .makeString (.text ⟨[104, 105, 33], by decide, by decide⟩), some ⟨"a"⟩⟩,
        .step ⟨0, .intoRaw ⟨"a"⟩, none⟩, .store ⟨"a"⟩ 1 [0]]
    let chain : List Step := [⟨0, .rawToString ⟨"a"⟩, none⟩, ⟨1, .intoRaw ⟨"a"⟩, none⟩]
    let s := (start setups).acts actions
    s.Returns [⟨1, .rawToString ⟨"a"⟩, none⟩, ⟨1, .intoRaw ⟨"a"⟩, none⟩]
        [.string ⟨⟨"a"⟩, 1, [104], [104, 0]⟩, .kept true] ∧
      s.movements 1 (chain ++ releasing ⟨"a"⟩ .unknown 1 .raw) = [.returned] ∧
      s.movements 0 (chain ++ releasing ⟨"a"⟩ .unknown 1 .raw) = [] := by
  intro setups actions chain s
  have found : s.heap.find? ⟨"a"⟩ =
      some ⟨.raw, ⟨4, [some 104, some 0, some 33, some 0], none⟩⟩ := by
    decide +kernel
  have index_lt : 1 < s.managers.length := by decide +kernel
  obtain ⟨-, -, hraw, hchain, -⟩ := conversions_of_acts_start found index_lt
  obtain ⟨bytes, hlength, hcell, returns⟩ :=
    (hraw rfl).2 1 (by decide) (fun k hk => ⟨104, by rw [Nat.lt_one_iff.1 hk]; rfl, by decide⟩) rfl
  obtain ⟨b, rfl⟩ := List.length_eq_one_iff.1 hlength
  obtain rfl : 104 = b := Option.some.inj (hcell 0 Nat.one_pos)
  have converts : ∀ step ∈ chain, step.op.Converts ⟨"a"⟩ := by
    rw [List.forall_mem_cons, List.forall_mem_singleton]
    exact ⟨.rawToString, .intoRaw⟩
  obtain ⟨-, -, kind, found', release⟩ := hchain chain converts
  have raw : ((((start setups).acts actions).run chain).1.heap.find? ⟨"a"⟩).map Slot.kind =
      some .raw := by
    decide +kernel
  rw [found'] at raw
  obtain rfl : kind = .raw := Option.some.inj raw
  obtain ⟨-, moved⟩ := release .unknown
  exact ⟨returns, moved 1, moved 0⟩

end Session

end TrackedHeap
