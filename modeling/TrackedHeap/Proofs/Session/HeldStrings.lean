import TrackedHeap.Proofs.Memory.Addresses
import TrackedHeap.Proofs.Session.Effect
import TrackedHeap.Proofs.Session.Setup

/-!
# Strings while they are held

A string is given out with a length, and its memory is read by that length ever after. So the bytes,
the NUL and the length have to stay in step, whatever else is done.

* `Session.Action` : a step, or bytes stored anywhere in memory that is held as a block or raw;
* `Slot.IsSound` : if a slot is a string, then of some bytes;
* `stringsSound_act` : every action keeps all strings sound;
* `Session.EndsString`, `Session.Spares` : an action takes a string from its holder, and actions that
  never do;
* `find?_act_of_string`, `find?_acts_of_string` : all other actions leave the string as it is;
* `string_of_acts_start` : what is true of every string in every reached state.
-/

namespace TrackedHeap

/-- A slot that is held as a string is a string of some bytes. -/
def Slot.IsSound (slot : Slot) : Prop :=
  ∀ length, slot.kind = .string length → ∃ bytes, slot.HoldsString length bytes

namespace Slot
variable {slot : Slot}

theorem isSound_of_not_isString (h : slot.kind.isString = false) : slot.IsSound := by
  intro length kind
  rw [kind] at h
  cases h

theorem HoldsString.isSound {length : Size} {bytes : Bytes} (h : slot.HoldsString length bytes) :
    slot.IsSound := by
  intro length' kind
  rw [h.kind_eq] at kind
  obtain rfl := Kind.string.inj kind
  exact ⟨bytes, h⟩

end Slot

namespace Session

/-! ## Actions -/

/-- A step, or bytes that someone stores in memory. -/
inductive Action where
  | step (step : Step)
  | store (target : Address) (offset : Nat) (bytes : Bytes)

/-- The session after an action. One that does not apply changes nothing. -/
def act (s : Session) : Action → Session
  | .step step => (s.perform step).1
  | .store target offset bytes =>
    match (s.heap.find? target).bind (·.write? offset bytes) with
    | some slot => { s with heap := s.heap.update target fun _ => slot }
    | none => s

def acts (s : Session) (actions : List Action) : Session :=
  actions.foldl act s

/-! ## Soundness -/

def StringsSound (heap : Heap) : Prop :=
  ∀ a slot, heap.find? a = some slot → slot.IsSound

variable {heap : Heap} {a : Address} {slot slot' : Slot}

theorem StringsSound.insert (h : StringsSound heap) (sound : slot.IsSound) :
    StringsSound (heap.insert a slot) := by
  intro b found hfound
  by_cases hb : b = a
  · rw [hb, Heap.find?_insert_self] at hfound
    obtain rfl := Option.some.inj hfound
    exact sound
  · rw [Heap.find?_insert_of_ne heap slot hb] at hfound
    exact h b found hfound

theorem StringsSound.erase (h : StringsSound heap) (a : Address) :
    StringsSound (heap.erase a) := by
  intro b found hfound
  by_cases hb : b = a
  · rw [hb, Heap.find?_erase_self] at hfound
    cases hfound
  · rw [Heap.find?_erase_of_ne heap hb] at hfound
    exact h b found hfound

theorem StringsSound.update (h : StringsSound heap) (sound : slot.IsSound) :
    StringsSound (heap.update a fun _ => slot) := by
  intro b found hfound
  by_cases hb : b = a
  · rw [hb, Heap.find?_update_self] at hfound
    obtain ⟨_, _, rfl⟩ := Option.map_eq_some_iff.1 hfound
    exact sound
  · rw [Heap.find?_update_of_ne heap _ hb] at hfound
    exact h b found hfound

theorem Made.isSound {name : Address} {r : Request} {reply : Reply}
    (made : Made name r slot reply) : slot.IsSound := by
  cases made with
  | block => exact Slot.isSound_of_not_isString rfl
  | string parts fits => exact (Slot.holdsString_joined fits).isSound

theorem Held.isSound {op : Op} {reply : Reply} (held : Held a slot op slot' reply) :
    slot'.IsSound := by
  cases held with
  | raw toRaw =>
    obtain ⟨-, rfl⟩ := Slot.toRaw?_eq_some.1 toRaw
    exact Slot.isSound_of_not_isString rfl
  | block toBlock =>
    obtain ⟨-, rfl⟩ := Slot.toBlock?_eq_some.1 toBlock
    exact Slot.isSound_of_not_isString rfl
  | string toString string => exact string.isSound
  | write offset bytes write =>
    obtain ⟨notString, -, rfl⟩ := Slot.write?_eq_some.1 write
    exact Slot.isSound_of_not_isString notString

/-- **Every action keeps all strings sound.** -/
theorem stringsSound_act {s : Session} (h : StringsSound s.heap) (action : Action) :
    StringsSound (s.act action).heap := by
  cases action with
  | step step =>
    rw [act]
    obtain hperform | ⟨o, effect, hperform⟩ := s.perform_cases step
    · rw [hperform]
      exact h
    rw [hperform]
    cases effect with
    | make manager free asked given granted made => exact h.insert made.isSound
    | refuse => exact h
    | giveBack => exact h.erase _
    | hold found asked given held => exact h.update held.isSound
    | redirect => exact h
    | still => exact h
  | store target offset bytes =>
    rw [act]
    split <;> rename_i hstore
    · obtain ⟨slot, _, store⟩ := Option.bind_eq_some_iff.1 hstore
      obtain ⟨notString, -, rfl⟩ := Slot.write?_eq_some.1 store
      exact h.update (Slot.isSound_of_not_isString notString)
    · exact h

theorem stringsSound_acts {s : Session} (h : StringsSound s.heap) (actions : List Action) :
    StringsSound (s.acts actions).heap := by
  induction actions generalizing s with
  | nil => exact h
  | cons action rest ih => exact ih (stringsSound_act h action)

/-! ## Steadiness -/

/-- A step that applies, and by which the string at an address is released or held raw. -/
def EndsString (s : Session) (a : Address) : Action → Prop
  | .step step =>
    (step.op = .releaseString a ∨ step.op = .intoRaw a) ∧ (s.step? step).isSome = true
  | .store .. => False

/-- None of the actions ends the string at an address. -/
def Spares (s : Session) (a : Address) : List Action → Prop
  | [] => True
  | action :: rest => ¬ s.EndsString a action ∧ (s.act action).Spares a rest

/-- A slot that is held as a string changes only when it is held raw. -/
theorem Held.eq_intoRaw {op : Op} {reply : Reply} (held : Held a slot op slot' reply)
    (string : slot.kind.isString = true) : op = .intoRaw a := by
  cases held with
  | raw toRaw => rfl
  | block toBlock =>
    rw [(Slot.toBlock?_eq_some.1 toBlock).1] at string
    cases string
  | string toString =>
    rw [(Slot.toString?_eq_some.1 toString).1] at string
    cases string
  | write offset bytes write =>
    rw [(Slot.write?_eq_some.1 write).1] at string
    cases string

/-- **An action that does not end a string leaves it as it is**, with its length and all bytes of
its memory. -/
theorem find?_act_of_string {s : Session} {action : Action}
    (found : s.heap.find? a = some slot) (string : slot.kind.isString = true)
    (spared : ¬ s.EndsString a action) : (s.act action).heap.find? a = some slot := by
  cases action with
  | step step =>
    rw [act]
    rw [EndsString] at spared
    cases hstep : s.step? step with
    | none =>
      rw [perform, hstep]
      exact found
    | some o =>
      have hop : ¬ (step.op = .releaseString a ∨ step.op = .intoRaw a) := by
        intro hop
        exact spared ⟨hop, by rw [hstep]; rfl⟩
      rw [not_or] at hop
      rw [perform, hstep]
      cases effect_of_step? hstep with
      | @make m name r new reply allocator t manager free asked given granted made =>
        -- Memory is made only where nothing lies, so not where the string does.
        exact Heap.find?_insert_of_found found free new
      | refuse => exact found
      | @giveBack m b slot' manager found' asked given ends =>
        have hne : a ≠ b := by
          rintro rfl
          obtain rfl := Option.some.inj (found.symm.trans found')
          exact hop.1 (ends string)
        exact (Heap.find?_erase_of_ne s.heap hne).trans found
      | @hold b slot' new reply found' asked given held =>
        have hne : a ≠ b := by
          rintro rfl
          obtain rfl := Option.some.inj (found.symm.trans found')
          exact hop.2 (held.eq_intoRaw string)
        exact (Heap.find?_update_of_ne s.heap (fun _ => new) hne).trans found
      | redirect => exact found
      | still => exact found
  | store target offset bytes =>
    rw [act]
    split
    · rename_i new hstore
      obtain ⟨slot', found', store⟩ := Option.bind_eq_some_iff.1 hstore
      have hne : a ≠ target := by
        rintro rfl
        obtain rfl := Option.some.inj (found.symm.trans found')
        rw [(Slot.write?_eq_some.1 store).1] at string
        cases string
      exact (Heap.find?_update_of_ne s.heap (fun _ => new) hne).trans found
    · exact found

theorem find?_acts_of_string {s : Session} {actions : List Action}
    (found : s.heap.find? a = some slot) (string : slot.kind.isString = true)
    (spared : s.Spares a actions) : (s.acts actions).heap.find? a = some slot := by
  induction actions generalizing s with
  | nil => exact found
  | cons action rest ih => exact ih (find?_act_of_string found string spared.1) spared.2

/-! ## Reached states -/

/-- **Every string in every reached state** lies inside its memory with its NUL, all its bytes set
and none of them a NUL. So its length is where the first NUL is, it is shown with exactly its
bytes, and it is empty when it starts with the NUL. No later action changes it, or any byte of its
memory, until one releases it or holds it raw. -/
theorem string_of_acts_start {setups : List Setup} {actions : List Action} {a : Address}
    {slot : Slot} {length : Size}
    (found : ((start setups).acts actions).heap.find? a = some slot)
    (kind : slot.kind = .string length) :
    length < slot.region.size ∧
      (∀ i < length.toNat, ∃ b, slot.region.cell i = some b ∧ b ≠ 0) ∧
      slot.region.cell length.toNat = some 0 ∧
      (∃ bytes : Bytes, bytes.length = length.toNat ∧ 0 ∉ bytes ∧
        (∀ i < length.toNat, slot.region.cell i = bytes[i]?) ∧
        slot.region.text? = some bytes ∧
        view? ((start setups).acts actions).heap a = some ⟨a, length, bytes, bytes ++ [0]⟩) ∧
      (∀ view, view? ((start setups).acts actions).heap a = some view →
        (view.isEmpty = true ↔ slot.region.cell 0 = some 0)) ∧
      ∀ later, ((start setups).acts actions).Spares a later →
        (((start setups).acts actions).acts later).heap.find? a = some slot := by
  have hstart : StringsSound (start setups).heap := fun _ _ h => nomatch h
  obtain ⟨bytes, hstring⟩ := stringsSound_acts hstart actions a slot found length kind
  have hholds := hstring.holds
  have hlength := hstring.length_eq
  have hcell : ∀ i < length.toNat, ∃ b, slot.region.cell i = some b ∧ b ≠ 0 := by
    intro i hi
    rw [← hlength] at hi
    refine ⟨bytes[i], ?_, fun hnul => hholds.noNul (hnul ▸ List.getElem_mem hi)⟩
    rw [hholds.cell_eq i hi, List.getElem?_eq_getElem hi]
  have hnul : slot.region.cell length.toNat = some 0 := by
    rw [← hlength]
    exact hholds.cell_length
  have hview := view?_of_holdsString found hstring
  refine ⟨?_, hcell, hnul, ⟨bytes, hlength, hholds.noNul, ?_, ?_, hview⟩, ?_, ?_⟩
  · rw [UInt64.lt_iff_toNat_lt, ← hlength]
    exact hholds.length_lt
  · intro i hi
    exact hholds.cell_eq i (by rw [hlength]; exact hi)
  · exact Region.text?_eq_some_iff.2 hholds
  · intro view hview'
    obtain rfl := Option.some.inj (hview.symm.trans hview')
    rw [StringView.isEmpty, beq_iff_eq]
    constructor
    · rintro rfl
      exact hnul
    · intro hfirst
      by_contra hne
      have hpos : 0 < length.toNat := Nat.pos_of_ne_zero fun h => hne (UInt64.toNat_inj.1 h)
      obtain ⟨b, hb, hb'⟩ := hcell 0 hpos
      rw [hfirst] at hb
      exact hb' (Option.some.inj hb).symm
  · intro later spared
    have string : slot.kind.isString = true := by rw [kind]; rfl
    exact find?_acts_of_string found string spared

/-- A string found in memory that holds more than its NUL, and that survives its neighbour. -/
theorem string_of_acts_start_scanned :
    let setups : List Setup := [⟨.unbounded, 1, .standardError⟩]
    let actions : List Action :=
      [.step ⟨0, .allocate (.block 8) .option .caller, some ⟨"a"⟩⟩,
        .store ⟨"a"⟩ 0 [104, 105, 0, 33], .step ⟨0, .intoRaw ⟨"a"⟩, none⟩,
        .step ⟨0, .rawToString ⟨"a"⟩, none⟩,
        .step ⟨0, .concat (.held ⟨"a"⟩) .absent, some ⟨"b"⟩⟩]
    let later : List Action :=
      [.step ⟨0, .releaseString ⟨"b"⟩, none⟩, .store ⟨"a"⟩ 0 [0]]
    let s := (start setups).acts actions
    view? s.heap ⟨"a"⟩ = some ⟨⟨"a"⟩, 2, [104, 105], [104, 105, 0]⟩ ∧
      (s.acts later).heap.find? ⟨"a"⟩ = s.heap.find? ⟨"a"⟩ := by
  intro setups actions later s
  have found : s.heap.find? ⟨"a"⟩ =
      some ⟨.string 2, ⟨8, [some 104, some 105, some 0, some 33], none⟩⟩ := by
    decide +kernel
  obtain ⟨-, -, -, ⟨bytes, -, -, -, htext, hview⟩, -, hlater⟩ := string_of_acts_start found rfl
  obtain rfl : [104, 105] = bytes := Option.some.inj htext
  have spared : s.Spares ⟨"a"⟩ later := by
    have released : ¬ s.EndsString ⟨"a"⟩ (.step ⟨0, .releaseString ⟨"b"⟩, none⟩) := by
      rintro ⟨hop | hop, -⟩
      · exact absurd hop (by decide)
      · exact absurd hop (by decide)
    rw [Spares, Spares, Spares]
    exact ⟨released, not_false, True.intro⟩
  constructor
  · exact hview
  · rw [found]
    exact hlater later spared

end Session

end TrackedHeap
