import TrackedHeap.Proofs.Program.Alongside

/-!
# What lies behind a NUL

A call that takes text reads memory up to the first NUL there and no further.

* `Region.SameText` : two regions alike up to their first NUL. They hold one text
  (`SameText.exists_holds`);
* `Operand.Alike` : an operand that points to such regions in two heaps. It stands for one text
  (`upToNul?_of_alike`);
* `Call.operands?` : the operands of the calls on strings;
* `Program.SameOutcome` : a statement gives back, prints and records the same with either heap, and
  leaves all memory that it found. What it makes has one NUL, its last byte;
* `sameOutcome_of_alike` : so it is for every call on strings with operands alike.
-/

namespace TrackedHeap

/-! ## Operands -/

/-- Two regions with the same bytes up to the first NUL and that NUL at the same place. Their sizes,
and all that follows, may differ. -/
def Region.SameText (r r' : Region) : Prop :=
  ∃ n, n < r.size.toNat ∧ n < r'.size.toNat ∧
    (∀ k < n, ∃ b, b ≠ 0 ∧ r.cell k = some b ∧ r'.cell k = some b) ∧
    r.cell n = some 0 ∧ r'.cell n = some 0

/-- A region in which every byte is set and the last one alone is a NUL. -/
def Region.EndsAtNul (r : Region) : Prop :=
  0 < r.size.toNat ∧ ∀ k < r.size.toNat, ∃ b, r.cell k = some b ∧ (b = 0 ↔ k + 1 = r.size.toNat)

theorem Region.SameText.exists_holds {r r' : Region} (h : r.SameText r') :
    ∃ bytes, r.Holds bytes ∧ r'.Holds bytes := by
  obtain ⟨n, inside, inside', start, nul, nul'⟩ := h
  obtain ⟨bytes, rfl, holds⟩ := Region.exists_holds inside
    (fun k hk => (start k hk).imp fun b hb => ⟨hb.2.1, hb.1⟩) nul
  refine ⟨bytes, holds, inside', fun k hk => ?_, nul', holds.noNul⟩
  obtain ⟨b, -, hb, hb'⟩ := start k hk
  rw [← holds.cell_eq k hk, hb, hb']

theorem Region.Holds.endsAtNul {r : Region} {bytes : Bytes} (holds : r.Holds bytes)
    (exact : r.size.toNat = bytes.length + 1) : r.EndsAtNul := by
  refine ⟨by omega, fun k hk => ?_⟩
  by_cases last : k = bytes.length
  · exact ⟨0, last ▸ holds.cell_length, iff_of_true rfl (by omega)⟩
  · have inside : k < bytes.length := by omega
    refine ⟨bytes[k], by rw [holds.cell_eq k inside, List.getElem?_eq_getElem inside], ?_⟩
    refine ⟨fun hnul => absurd (hnul ▸ List.getElem_mem inside) holds.noNul, by omega⟩

namespace Operand
variable {heap heap' : Heap} {operand : Operand}

/-- An operand that two heaps agree on up to the first NUL of what it points to. -/
def Alike (heap heap' : Heap) : Operand → Prop
  | held a => ∃ slot slot', heap.find? a = some slot ∧ heap'.find? a = some slot' ∧
    slot.region.SameText slot'.region
  | _ => True

theorem upToNul?_of_holds {a : Address} {slot : Slot} {bytes : Bytes}
    (found : heap.find? a = some slot) (holds : slot.region.Holds bytes) :
    (held a).upToNul? heap = (CText.ofBytes? bytes).map some := by
  simp only [upToNul?, resolve?, found, Region.text?_eq_some_iff.2 holds, Option.bind_eq_bind,
    Option.bind_some, Option.pure_def]
  cases CText.ofBytes? bytes <;> constructor

/-- The two heaps give one text. -/
theorem upToNul?_of_alike (alike : operand.Alike heap heap') :
    operand.upToNul? heap' = operand.upToNul? heap := by
  cases operand with
  | absent => rfl
  | text => rfl
  | held a =>
    obtain ⟨slot, slot', found, found', same⟩ := alike
    obtain ⟨bytes, holds, holds'⟩ := same.exists_holds
    rw [upToNul?_of_holds found holds, upToNul?_of_holds found' holds']

/-- Memory of any size that can be asked for holds a text that can be taken. -/
theorem isSome_upToNul?_of_alike (alike : operand.Alike heap heap')
    (small : ∀ a slot, operand = held a → heap.find? a = some slot →
      slot.region.size.toNat < 2 ^ 63) :
    (operand.upToNul? heap).isSome := by
  cases operand with
  | absent => rfl
  | text => rfl
  | held a =>
    obtain ⟨slot, slot', found, -, same⟩ := alike
    obtain ⟨bytes, holds, -⟩ := same.exists_holds
    have inside := holds.length_lt
    have hsmall := small a slot rfl found
    have text : CText.ofBytes? bytes = some ⟨bytes, holds.noNul, by omega⟩ :=
      dif_pos ⟨holds.noNul, by omega⟩
    rw [upToNul?_of_holds found holds, text]
    rfl

end Operand

/-- The operands of the calls on strings. -/
def Call.operands? : Call → Option (List Operand)
  | .printString source => some [source]
  | .allocString source => some [source]
  | .concatString first second => some [first, second]
  | .compareString first second => some [first, second]
  | _ => none

/-- The calls that answer with a new string. -/
def Call.makesString : Call → Bool
  | .allocString _ => true
  | .concatString _ _ => true
  | _ => false

namespace Program

/-- A statement shows the same with either of two heaps, and leaves the same manager and all memory
as it was. Where it answers with text it has put that text, with a NUL after it, at the address that
it names. -/
structure SameOutcome (p : Program) (heap' : Heap) (name : Option Address)
    (result result' : Program × Entry) : Prop where
  entry : result'.2 = result.2
  manager : result'.1.manager = result.1.manager
  kept : ∀ a slot, p.heap.find? a = some slot → result.1.heap.find? a = some slot
  kept' : ∀ a slot, heap'.find? a = some slot → result'.1.heap.find? a = some slot
  made : ∀ bytes, result.2.answer = some (.text bytes) →
    ∃ a slot, name = some a ∧ result.1.heap = p.heap.insert a slot ∧
      result'.1.heap = heap'.insert a slot ∧ slot.region.size.toNat = bytes.length + 1 ∧
      slot.region.Holds bytes ∧ slot.region.EndsAtNul
  unmade : (∀ bytes, result.2.answer ≠ some (.text bytes)) →
    result.1.heap = p.heap ∧ result'.1.heap = heap'

section
variable {p : Program} {heap' : Heap}

/-- What answers without text leaves both programs as they were. -/
theorem sameOutcome_still (name : Option Address) (entry : Entry)
    (silent : ∀ bytes, entry.answer ≠ some (.text bytes)) :
    SameOutcome p heap' name (p, entry) ({ p with heap := heap' }, entry) :=
  ⟨rfl, rfl, fun _ _ found => found, fun _ _ found => found,
    fun bytes answer => absurd answer (silent bytes), fun _ => ⟨rfl, rfl⟩⟩

/-- Joining the same texts makes the same memory in both heaps, or none in either. -/
theorem sameOutcome_build? {parts : List CText} {name : Address} {location : Location}
    (fits : (joinedBytes parts).length + 1 < 2 ^ 64) (free : p.heap.isFree name = true)
    (free' : heap'.isFree name = true) :
    SameOutcome p heap' (some name)
      (p.shown (p.build? name (p.manager.assembled p.heap parts name location)))
      (shown { p with heap := heap' }
        (build? { p with heap := heap' } name
          (p.manager.assembled heap' parts name location))) := by
  by_cases hparts : parts = []
  · subst hparts
    rw [build?_nil, build?_nil (p := { p with heap := heap' })]
    exact sameOutcome_still _ _ (by simp)
  obtain ⟨allocator, t, granted⟩ | ⟨e, refused⟩ :=
    p.manager.allocator.granted_or_refused (.block (totalLength parts + 1)) name location
  · rw [build?_of_granted free hparts fits granted,
      build?_of_granted (p := { p with heap := heap' }) free' hparts fits granted]
    refine ⟨rfl, rfl, fun _ _ found => Heap.find?_insert_of_found found free _,
      fun _ _ found => Heap.find?_insert_of_found found free' _, ?_,
      fun silent => absurd rfl (silent _)⟩
    intro bytes answer
    obtain rfl : joinedBytes parts = bytes := by simpa [shown] using answer
    have holds := holds_joined fits
    have size : (Slot.joined parts).region.size.toNat = (joinedBytes parts).length + 1 := by
      rw [Slot.joined, size_storeAll]
      exact (toNat_totalLength_succ fits).2
    exact ⟨name, _, rfl, rfl, rfl, size, holds, holds.endsAtNul size⟩
  · rw [build?_of_refused hparts refused,
      build?_of_refused (p := { p with heap := heap' }) hparts refused]
    exact sameOutcome_still _ _ (by simp)

/-- A call that makes a string joins texts, when they and a name for it are there. -/
theorem call?_eq_build? (p : Program) (name : Option Address) {call : Call}
    (makes : call.makesString = true) :
    p.call? name call =
      name.bind fun name => (call.texts? p.heap).bind fun parts =>
        p.build? name (p.manager.assembled p.heap parts name .boundary) := by
  cases name with
  | none =>
    cases call with
    | allocString => rfl
    | concatString => rfl
    | _ => cases makes
  | some name =>
    cases texts : call.texts? p.heap with
    | some parts =>
      rw [call?_of_texts? texts]
      cases call with
      | allocString => rfl
      | concatString => rfl
      | _ => cases makes
    | none =>
      cases call with
      | allocString source =>
        have untaken : source.upToNul? p.heap = none := Option.map_eq_none_iff.1 texts
        simp only [call?, untaken, Option.bind_eq_bind, Option.bind_some, Option.bind_none]
      | concatString first second =>
        cases hfirst : first.upToNul? p.heap with
        | none =>
          simp only [call?, hfirst, Option.bind_eq_bind, Option.bind_some, Option.bind_none]
        | some a =>
          have untaken : second.upToNul? p.heap = none := by
            rw [Call.texts?, hfirst, Option.bind_some, Option.map_eq_none_iff] at texts
            exact texts
          simp only [call?, hfirst, untaken, Option.bind_eq_bind, Option.bind_some,
            Option.bind_none]
      | _ => cases makes

theorem sameOutcome_makesString {call : Call} {name : Option Address}
    (makes : call.makesString = true) (texts : call.texts? heap' = call.texts? p.heap)
    (free : name.all p.heap.isFree = true) (free' : name.all heap'.isFree = true) :
    SameOutcome p heap' name (p.shown (p.call? name call))
      (shown { p with heap := heap' } (call? { p with heap := heap' } name call)) := by
  rw [call?_eq_build? p name makes, call?_eq_build? { p with heap := heap' } name makes]
  cases name with
  | none => exact sameOutcome_still none p.rejection (by simp [rejection])
  | some name =>
    rw [texts]
    cases h : call.texts? p.heap with
    | none => exact sameOutcome_still (some name) p.rejection (by simp [rejection])
    | some parts => exact sameOutcome_build? (Call.fits_of_texts? h) free free'

/-- Joining texts always comes to an answer. -/
theorem isSome_answer_build? {parts : List CText} {name : Address} {location : Location}
    (fits : (joinedBytes parts).length + 1 < 2 ^ 64) (free : p.heap.isFree name = true) :
    (p.shown (p.build? name (p.manager.assembled p.heap parts name location))).2.answer.isSome := by
  by_cases hparts : parts = []
  · rw [hparts, build?_nil]
    rfl
  obtain ⟨allocator, t, granted⟩ | ⟨e, refused⟩ :=
    p.manager.allocator.granted_or_refused (.block (totalLength parts + 1)) name location
  · rw [build?_of_granted free hparts fits granted]
    rfl
  · rw [build?_of_refused hparts refused]
    rfl

/-- Texts that can be taken are joined, and shown, printed and compared. -/
theorem isSome_answer_of_operands {s : Statement} {operands : List Operand}
    (strings : s.call.operands? = some operands)
    (taken : ∀ operand ∈ operands, (operand.upToNul? p.heap).isSome)
    (free : s.name.all p.heap.isFree = true) (named : s.call.makesString = true → s.name.isSome) :
    (p.perform s).2.answer.isSome := by
  rw [perform_eq_shown, statement?, if_pos free]
  obtain ⟨call, name⟩ := s
  by_cases makes : call.makesString = true
  · obtain ⟨name, rfl⟩ := Option.isSome_iff_exists.1 (named makes)
    have texts : ∃ parts, call.texts? p.heap = some parts := by
      cases call with
      | allocString source =>
        obtain rfl := Option.some.inj strings
        obtain ⟨text, htext⟩ := Option.isSome_iff_exists.1 (taken source List.mem_cons_self)
        exact ⟨_, by rw [Call.texts?, htext, Option.map_some]⟩
      | concatString first second =>
        obtain rfl := Option.some.inj strings
        obtain ⟨a, ha⟩ := Option.isSome_iff_exists.1 (taken first List.mem_cons_self)
        obtain ⟨b, hb⟩ := Option.isSome_iff_exists.1 (taken second (by simp))
        exact ⟨_, by rw [Call.texts?, ha, hb, Option.bind_some, Option.map_some]⟩
      | _ => cases makes
    obtain ⟨parts, texts⟩ := texts
    rw [call?_of_texts? texts]
    exact isSome_answer_build? (Call.fits_of_texts? texts) free
  · cases call with
    | printString source =>
      obtain rfl := Option.some.inj strings
      obtain ⟨text, htext⟩ := Option.isSome_iff_exists.1 (taken source List.mem_cons_self)
      simp only [call?, htext, Option.bind_eq_bind, Option.bind_some, Option.pure_def]
      rfl
    | compareString first second =>
      obtain rfl := Option.some.inj strings
      obtain ⟨a, ha⟩ := Option.isSome_iff_exists.1 (taken first List.mem_cons_self)
      obtain ⟨b, hb⟩ := Option.isSome_iff_exists.1 (taken second (by simp))
      simp only [call?, ha, hb, Option.bind_eq_bind, Option.bind_some, Option.pure_def]
      rfl
    | allocString => exact absurd rfl makes
    | concatString => exact absurd rfl makes
    | _ => cases strings

/-- **A call on strings sees nothing behind the first NUL of an operand.** With two heaps that give
each operand the same bytes up to there it shows and makes the same, and it writes to no memory that
it finds. It applies where memory has a size that can be asked for and a new string has a name. -/
theorem sameOutcome_of_alike {s : Statement} {operands : List Operand}
    (strings : s.call.operands? = some operands)
    (alike : ∀ operand ∈ operands, operand.Alike p.heap heap')
    (free : s.name.all p.heap.isFree = true) (free' : s.name.all heap'.isFree = true) :
    SameOutcome p heap' s.name (p.perform s) (perform { p with heap := heap' } s) ∧
      ((s.call.makesString = true → s.name.isSome) →
        (∀ a slot, .held a ∈ operands → p.heap.find? a = some slot →
          slot.region.size.toNat < 2 ^ 63) →
        (p.perform s).2.answer.isSome) := by
  have same : ∀ operand ∈ operands, operand.upToNul? heap' = operand.upToNul? p.heap :=
    fun operand h => Operand.upToNul?_of_alike (alike operand h)
  refine ⟨?_, fun named small => isSome_answer_of_operands strings (fun operand h =>
    Operand.isSome_upToNul?_of_alike (alike operand h) fun a slot hheld =>
      small a slot (hheld ▸ h)) free named⟩
  have hstatement : p.statement? s = p.call? s.name s.call := if_pos free
  have hstatement' : statement? { p with heap := heap' } s =
      call? { p with heap := heap' } s.name s.call := if_pos free'
  rw [perform_eq_shown, perform_eq_shown, hstatement, hstatement']
  obtain ⟨call, name⟩ := s
  cases call with
  | printString source =>
    obtain rfl := Option.some.inj strings
    have hsource := same source List.mem_cons_self
    simp only [call?, hsource]
    cases source.upToNul? p.heap with
    | none => exact sameOutcome_still name p.rejection (by simp [rejection])
    | some text => exact sameOutcome_still name _ (by simp [print])
  | allocString source =>
    obtain rfl := Option.some.inj strings
    refine sameOutcome_makesString rfl ?_ free free'
    rw [Call.texts?, Call.texts?, same source List.mem_cons_self]
  | concatString first second =>
    obtain rfl := Option.some.inj strings
    refine sameOutcome_makesString rfl ?_ free free'
    rw [Call.texts?, Call.texts?, same first List.mem_cons_self, same second (by simp)]
  | compareString first second =>
    obtain rfl := Option.some.inj strings
    have hfirst := same first List.mem_cons_self
    have hsecond := same second (by simp)
    simp only [call?, hfirst, hsecond]
    cases first.upToNul? p.heap with
    | none => exact sameOutcome_still name p.rejection (by simp [rejection])
    | some a =>
      cases second.upToNul? p.heap with
      | none => exact sameOutcome_still name p.rejection (by simp [rejection])
      | some b => exact sameOutcome_still name _ (by simp [answer])
  | _ => cases strings

/-- One pointer for both operands, into memory of three bytes and into memory of five of which two
are unset. -/
theorem sameOutcome_of_alike_samePointer :
    let short : Heap := [(⟨"a"⟩, ⟨.raw, ⟨3, [some 0x41, some 0, some 0x42], none⟩⟩)]
    let long : Heap := [(⟨"a"⟩, ⟨.raw, ⟨5, [some 0x41, some 0, some 0], none⟩⟩)]
    let p : Program := ⟨true, short, .tracked .unbounded .standardError⟩
    let s : Statement := ⟨.concatString (.held ⟨"a"⟩) (.held ⟨"a"⟩), some ⟨"b"⟩⟩
    (perform { p with heap := long } s).2 = (p.perform s).2 ∧
      (p.perform s).2.answer = some (.text [0x41, 0x41]) := by
  intro short long p s
  have same : (Region.mk 3 [some 0x41, some 0, some 0x42] none).SameText
      ⟨5, [some 0x41, some 0, some 0], none⟩ :=
    ⟨1, by decide, by decide, fun k hk => ⟨0x41, by decide, by decide +revert⟩, rfl, rfl⟩
  have alike : ∀ operand ∈ [Operand.held ⟨"a"⟩, .held ⟨"a"⟩], operand.Alike short long := by
    rintro operand (_ | ⟨_, _ | ⟨_, ⟨⟩⟩⟩)
    · exact ⟨_, _, rfl, rfl, same⟩
    · exact ⟨_, _, rfl, rfl, same⟩
  have outcome : SameOutcome p long s.name (p.perform s) (perform { p with heap := long } s) :=
    (sameOutcome_of_alike rfl alike (by decide) (by decide)).1
  exact ⟨outcome.entry, by decide⟩

end

end Program

end TrackedHeap
