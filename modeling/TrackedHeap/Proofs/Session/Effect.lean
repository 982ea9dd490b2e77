import TrackedHeap.Proofs.Manager.Strings
import TrackedHeap.Proofs.Memory.Conversions
import TrackedHeap.Session.Run

/-!
# What a step can do

* `Op.texts?`, `Op.asked?`, `Op.givenBack?`, `Op.location` : what an operation joins, how many bytes
  it asks for, what it gives back and from where, read off the operation and the heap;
* `Made` : the slot that answers a request, and the reply that tells of it;
* `Held` : a slot that is held in another way, or written to, and the reply that tells of it;
* `Effect` : one of six things that a step does when it applies, with all that it leaves;
* `effect_of_step?` : no step does anything else;
* `getElem?_managers_perform` : a step leaves all managers but its own as they were.
-/

namespace TrackedHeap

namespace Op

/-- The texts that an operation joins into a new string. -/
def texts? (heap : Heap) : Op → Option (List CText)
  | .makeString source => (source.string? heap).map Option.toList
  | .concat first second =>
    (first.string? heap).bind fun a => (second.string? heap).map fun b => a.toList ++ b.toList
  | _ => none

/-- The exact number of bytes that an operation asks for, if it asks for any memory: a string takes
the bytes of all texts that are there, and a NUL. -/
def asked? (heap : Heap) (op : Op) : Option Nat :=
  match op with
  | .allocate request _ _ => some request.exact
  | op =>
    match op.texts? heap with
    | some (text :: rest) => some ((joinedBytes (text :: rest)).length + 1)
    | _ => none

def givenBack? : Op → Option Address
  | .release target _ => target
  | .releaseString target => some target
  | _ => none

/-- The location that an operation puts on record. -/
def location : Op → Location
  | .allocate _ _ location => location
  | .release _ location => location
  | _ => .caller

theorem asked?_of_texts? {heap : Heap} {op : Op} {parts : List CText}
    (h : op.texts? heap = some parts) :
    op.asked? heap = if parts = [] then none else some ((joinedBytes parts).length + 1) := by
  unfold asked?
  split
  · cases h
  · rw [h]
    cases parts with
    | nil => rfl
    | cons text rest => exact (if_neg (List.cons_ne_nil _ _)).symm

theorem givenBack?_of_texts? {heap : Heap} {op : Op} {parts : List CText}
    (h : op.texts? heap = some parts) : op.givenBack? = none := by
  unfold givenBack?
  split
  · cases h
  · cases h
  · rfl

theorem location_of_texts? {heap : Heap} {op : Op} {parts : List CText}
    (h : op.texts? heap = some parts) : op.location = .caller := by
  unfold location
  split
  · cases h
  · cases h
  · rfl

theorem ne_report_of_texts? {heap : Heap} {op : Op} {parts : List CText}
    (h : op.texts? heap = some parts) : op ≠ .report := by
  rintro rfl
  cases h

theorem ne_report_of_givenBack? {op : Op} {a : Address} (h : op.givenBack? = some a) :
    op ≠ .report := by
  rintro rfl
  cases h

/-- The texts that one operation joins fit in memory together, with a NUL. -/
theorem fits_of_texts? {heap : Heap} {op : Op} {parts : List CText}
    (h : op.texts? heap = some parts) : (joinedBytes parts).length + 1 < 2 ^ 64 := by
  unfold texts? at h
  split at h
  · obtain ⟨text, _, rfl⟩ := Option.map_eq_some_iff.1 h
    have := length_joinedBytes_toList_lt text
    omega
  · obtain ⟨a, _, h⟩ := Option.bind_eq_some_iff.1 h
    obtain ⟨b, _, rfl⟩ := Option.map_eq_some_iff.1 h
    exact length_joinedBytes_pair_lt a b
  · cases h

end Op

theorem Manager.events_report (m : Manager) : m.report.events = [] := by
  rw [report, Allocator.report_eq_pass, Sink.events_pass]
  cases m.allocator <;> rfl

namespace Session

theorem view?_of_holdsString {heap : Heap} {a : Address} {slot : Slot} {length : Size}
    {bytes : Bytes} (found : heap.find? a = some slot) (h : slot.HoldsString length bytes) :
    view? heap a = some ⟨a, length, bytes, bytes ++ [0]⟩ := by
  simp only [view?, found, h.string?, h.stringWithNul?, h.kind_eq, Option.bind_eq_bind,
    Option.bind_some]

theorem replace?_eq_some {heap heap' : Heap} {a : Address} {change : Slot → Option Slot}
    (h : replace? heap a ((heap.find? a).bind change) = some heap') :
    ∃ slot slot', heap.find? a = some slot ∧ change slot = some slot' ∧
      heap' = heap.update a fun _ => slot' := by
  obtain ⟨slot', hchange, rfl⟩ := Option.map_eq_some_iff.1 h
  obtain ⟨slot, found, change_eq⟩ := Option.bind_eq_some_iff.1 hchange
  exact ⟨slot, slot', found, change_eq, rfl⟩

/-- The new slot at an address that answers a request, and the reply that tells of it. -/
inductive Made (name : Address) : Request → Slot → Reply → Prop
  | block (r : Request) : Made name r ⟨.block, .ofRequest r⟩ .block
  | string (parts : List CText) (fits : (joinedBytes parts).length + 1 < 2 ^ 64) :
    Made name (.block (totalLength parts + 1)) (.joined parts)
      (.string ⟨name, totalLength parts, joinedBytes parts, joinedBytes parts ++ [0]⟩)

/-- How an operation changes a slot that stays where it is, and the reply that tells of it. -/
inductive Held (a : Address) (slot : Slot) : Op → Slot → Reply → Prop
  | raw {slot' : Slot} (h : slot.toRaw? = some slot') :
    Held a slot (.intoRaw a) slot' (.kept true)
  | block {slot' : Slot} (h : slot.toBlock? = some slot') :
    Held a slot (.rawToBlock a) slot' .block
  | string {slot' : Slot} {length : Size} {bytes : Bytes} (h : slot.toString? = some slot')
      (string : slot'.HoldsString length bytes) :
    Held a slot (.rawToString a) slot' (.string ⟨a, length, bytes, bytes ++ [0]⟩)
  | write {slot' : Slot} (offset : Nat) (bytes : Bytes) (h : slot.write? offset bytes = some slot') :
    Held a slot (.write a offset bytes) slot' .done

theorem Held.ne_report {a : Address} {slot slot' : Slot} {op : Op} {reply : Reply}
    (held : Held a slot op slot' reply) : op ≠ .report := by
  rintro rfl
  cases held

/-- What a step does when it applies. -/
inductive Effect (s : Session) (step : Step) : Outcome → Prop
  /-- Memory is made at a free address. -/
  | make {m : Manager} {name : Address} {r : Request} {slot : Slot} {reply : Reply}
      {allocator : Allocator} {t : Trail}
      (manager : s.managers[step.index]? = some m) (free : s.heap.isFree name = true)
      (asked : step.op.asked? s.heap = some r.exact) (given : step.op.givenBack? = none)
      (granted : Allocator.Granted r name step.op.location m.allocator allocator t)
      (made : Made name r slot reply) (named : step.name = some name) :
    Effect s step
      ⟨⟨s.heap.insert name slot, s.managers.set step.index { m with allocator }⟩, reply,
        m.sink.pass t⟩
  /-- Memory is refused, and the caller told of the error or of nothing. -/
  | refuse {m : Manager} {r : Request} {e : AllocError} {reply : Reply} {events : List Event}
      (manager : s.managers[step.index]? = some m)
      (asked : step.op.asked? s.heap = some r.exact) (given : step.op.givenBack? = none)
      (refused : m.allocator.core r = .error e)
      (told : reply = .refused e ∧ events = [] ∨
        reply = .absent ∧ events = [Manager.refusal r e]) :
    Effect s step ⟨s, reply, .ofEvents events⟩
  /-- A block or a string is given back. -/
  | giveBack {m : Manager} {a : Address} {slot : Slot}
      (manager : s.managers[step.index]? = some m) (found : s.heap.find? a = some slot)
      (asked : step.op.asked? s.heap = none) (given : step.op.givenBack? = some a)
      (ends : slot.kind.isString = true → step.op = .releaseString a) :
    Effect s step
      ⟨⟨s.heap.erase a, s.managers.set step.index
          { m with allocator := (m.allocator.released a step.op.location).1 }⟩, .done,
        m.sink.pass (m.allocator.released a step.op.location).2⟩
  /-- A slot is held in another way, or written to. -/
  | hold {a : Address} {slot slot' : Slot} {reply : Reply} (found : s.heap.find? a = some slot)
      (asked : step.op.asked? s.heap = none) (given : step.op.givenBack? = none)
      (held : Held a slot step.op slot' reply) :
    Effect s step ⟨{ s with heap := s.heap.update a fun _ => slot' }, reply, .empty⟩
  /-- A writer fails, or works again. -/
  | redirect {m : Manager} (failing : Bool) (manager : s.managers[step.index]? = some m)
      (asked : step.op.asked? s.heap = none) (given : step.op.givenBack? = none)
      (redirects : step.op = .setFailing failing) :
    Effect s step
      ⟨{ s with managers := s.managers.set step.index { m with sink := .writer failing } }, .done,
        .empty⟩
  /-- The session is left as it is, and so are all ledgers. A report is all that is written. -/
  | still {reply : Reply} {t : Trail} (asked : step.op.asked? s.heap = none)
      (given : step.op.givenBack? = none) (quiet : t.events = [])
      (silent : step.op ≠ .report → t.lines = [])
      (reports : step.op = .report →
        ∃ m, s.managers[step.index]? = some m ∧ reply = .done ∧ t = m.report) :
    Effect s step ⟨s, reply, t⟩

/-! ## Calls that may make a string -/

section Build
variable {s : Session} {index : Nat} {m : Manager} {name : Address} {location : Location}
  {parts : List CText}

/-- A call that leaves its manager and the heap as they were leaves the session as it was. -/
theorem after_self (manager : s.managers[index]? = some m) {α : Type} (value : α) (t : Trail) :
    s.after index ⟨value, m, s.heap, t⟩ = s := by
  obtain ⟨hindex, rfl⟩ := List.getElem?_eq_some_iff.1 manager
  simp only [after, List.set_getElem_self]

theorem build?_of_granted {allocator : Allocator} {t : Trail} (free : s.heap.isFree name = true)
    (some_part : parts ≠ []) (fits : (joinedBytes parts).length + 1 < 2 ^ 64)
    (granted : Allocator.Granted (.block (totalLength parts + 1)) name location m.allocator
      allocator t) :
    s.build? index name (m.assembled s.heap parts name location) =
      some ⟨⟨s.heap.insert name (.joined parts), s.managers.set index { m with allocator }⟩,
        .string ⟨name, totalLength parts, joinedBytes parts, joinedBytes parts ++ [0]⟩,
        m.sink.pass t⟩ := by
  have hview : view? (s.heap.insert name (.joined parts)) name =
      some ⟨name, totalLength parts, joinedBytes parts, joinedBytes parts ++ [0]⟩ :=
    view?_of_holdsString (Heap.find?_insert_self _ _ _) (Slot.holdsString_joined fits)
  rw [Manager.assembled, if_neg some_part, Manager.joined_of_granted free granted]
  simp only [build?, Manager.present, Except.map, stringReply?, hview, Option.map_some,
    Option.bind_eq_bind, Option.bind_some, Option.pure_def, after]

theorem build?_of_refused {e : AllocError} (manager : s.managers[index]? = some m)
    (some_part : parts ≠ [])
    (refused : m.allocator.core (.block (totalLength parts + 1)) = .error e) :
    s.build? index name (m.assembled s.heap parts name location) =
      some ⟨s, .refused e, .ofEvents []⟩ := by
  rw [Manager.assembled, if_neg some_part, Manager.joined_of_refused refused]
  simp only [build?, Manager.present, Except.map, stringReply?, Option.bind_eq_bind,
    Option.bind_some, Option.pure_def, after_self manager]
  rfl

theorem build?_nil (manager : s.managers[index]? = some m) :
    s.build? index name (m.assembled s.heap [] name location) = some ⟨s, .absent, .empty⟩ := by
  rw [Manager.assembled, if_pos rfl]
  simp only [build?, stringReply?, Option.bind_eq_bind, Option.bind_some, Option.pure_def,
    after_self manager]

end Build

/-! ## Every step -/

theorem allocate_of_granted {s : Session} {index : Nat} {m : Manager} {request : Request} (form : Form)
    {location : Location} {name : Address} {allocator : Allocator} {t : Trail}
    (granted : Allocator.Granted request name location m.allocator allocator t) :
    s.allocate index m request form location name =
      ⟨⟨s.heap.insert name ⟨.block, .ofRequest request⟩,
        s.managers.set index { m with allocator }⟩, .block, m.sink.pass t⟩ := by
  cases form with
  | option => rw [allocate, Manager.tryRequest, Manager.request_of_granted granted]; rfl
  | result => rw [allocate, Manager.request_of_granted granted]; rfl

theorem allocate_of_refused {s : Session} {index : Nat} {m : Manager} {request : Request}
    (form : Form) {location : Location} {name : Address} {e : AllocError}
    (manager : s.managers[index]? = some m)
    (refused : m.allocator.core request = .error e) :
    s.allocate index m request form location name =
      match form with
      | .option => ⟨s, .absent, .ofEvents [Manager.refusal request e]⟩
      | .result => ⟨s, .refused e, .ofEvents []⟩ := by
  cases form with
  | option =>
    simp only [allocate, Manager.tryRequest, Manager.request_of_refused refused,
      after_self manager]
    rfl
  | result =>
    simp only [allocate, Manager.request_of_refused refused, after_self manager]
    rfl

/-- What records nothing and is no report has no effect. -/
theorem effect_answer {s : Session} {step : Step} (reply : Reply)
    (asked : step.op.asked? s.heap = none) (given : step.op.givenBack? = none)
    (other : step.op ≠ .report) : Effect s step (s.answer reply) :=
  .still asked given rfl (fun _ => rfl) fun report => absurd report other

section Step
variable {s : Session} {step : Step} {m : Manager} {o : Outcome}
  (manager : s.managers[step.index]? = some m)
include manager

theorem effect_allocate {request : Request} {form : Form} {location : Location} {name : Address}
    (op : step.op = .allocate request form location) (free : s.heap.isFree name = true)
    (named : step.name = some name) :
    Effect s step (s.allocate step.index m request form location name) := by
  have asked : step.op.asked? s.heap = some request.exact := by rw [op]; rfl
  have given : step.op.givenBack? = none := by rw [op]; rfl
  have hlocation : step.op.location = location := by rw [op]; rfl
  obtain ⟨allocator, t, granted⟩ | ⟨e, refused⟩ :=
    m.allocator.granted_or_refused request name location
  · rw [allocate_of_granted form granted]
    rw [← hlocation] at granted
    exact .make manager free asked given granted (.block request) named
  · rw [allocate_of_refused form manager refused]
    cases form with
    | option => exact .refuse manager asked given refused (.inr ⟨rfl, rfl⟩)
    | result => exact .refuse manager asked given refused (.inl ⟨rfl, rfl⟩)

/-- Joining texts makes a string, is refused, or finds no text to join. -/
theorem effect_build? {parts : List CText} {name : Address}
    (texts : step.op.texts? s.heap = some parts) (free : s.heap.isFree name = true)
    (named : step.name = some name)
    (h : s.build? step.index name (m.assembled s.heap parts name .caller) = some o) :
    Effect s step o := by
  have fits := Op.fits_of_texts? texts
  have given := Op.givenBack?_of_texts? texts
  have asked := Op.asked?_of_texts? texts
  by_cases hparts : parts = []
  · rw [if_pos hparts] at asked
    rw [hparts, build?_nil manager] at h
    obtain rfl := Option.some.inj h
    exact effect_answer .absent asked given (Op.ne_report_of_texts? texts)
  · have exact_eq : (Request.block (totalLength parts + 1)).exact = (joinedBytes parts).length + 1 :=
      (toNat_totalLength_succ fits).2
    rw [if_neg hparts, ← exact_eq] at asked
    obtain ⟨allocator, t, granted⟩ | ⟨e, refused⟩ :=
      m.allocator.granted_or_refused (.block (totalLength parts + 1)) name .caller
    · rw [build?_of_granted free hparts fits granted] at h
      obtain rfl := Option.some.inj h
      rw [← Op.location_of_texts? texts] at granted
      exact .make manager free asked given granted (.string parts fits) named
    · rw [build?_of_refused manager hparts refused] at h
      obtain rfl := Option.some.inj h
      exact .refuse manager asked given refused (.inl ⟨rfl, rfl⟩)

/-- Giving back nothing changes nothing, and a block or a string is erased. -/
theorem effect_release {target : Option Address}
    (asked : step.op.asked? s.heap = none) (given : step.op.givenBack? = target)
    (other : step.op ≠ .report)
    (used : ∀ a, target = some a → ∃ slot, s.heap.find? a = some slot ∧
      (slot.kind.isString = true → step.op = .releaseString a)) :
    Effect s step (s.release step.index m target step.op.location) := by
  cases target with
  | none =>
    rw [release, Manager.release_none, after_self manager]
    exact effect_answer .done asked given other
  | some a =>
    obtain ⟨slot, found, ends⟩ := used a rfl
    rw [release, Manager.release_some]
    exact .giveBack manager found asked given ends

/-- **Every operation that applies has one of the six effects.** -/
theorem effect_of_through? (free : step.name.all s.heap.isFree = true)
    (h : s.through? step.index m step.name step.op = some o) : Effect s step o := by
  obtain ⟨index, op, name⟩ := step
  dsimp only at h manager free
  -- Whatever an operation looks up has to be there, or it would not apply.
  cases op with
  | allocate request form location =>
    obtain ⟨name, rfl, h⟩ := Option.bind_eq_some_iff.1 h
    obtain rfl := Option.some.inj h
    exact effect_allocate manager rfl free rfl
  | release target location =>
    rw [through?] at h
    split at h <;> rename_i releasable
    · obtain rfl := Option.some.inj h
      refine effect_release manager rfl rfl (by simp) fun a ha => ?_
      subst ha
      obtain ⟨slot, found, block⟩ := (Option.any_eq_true _ _).1 releasable
      refine ⟨slot, found, fun string => ?_⟩
      rw [beq_iff_eq.1 block] at string
      cases string
    · cases h
  | makeString source =>
    obtain ⟨name, rfl, h⟩ := Option.bind_eq_some_iff.1 h
    obtain ⟨text, htext, h⟩ := Option.bind_eq_some_iff.1 h
    rw [Manager.makeString_eq_assembled] at h
    exact effect_build? manager (congrArg (Option.map Option.toList) htext) free rfl h
  | concat first second =>
    obtain ⟨name, rfl, h⟩ := Option.bind_eq_some_iff.1 h
    obtain ⟨a, ha, h⟩ := Option.bind_eq_some_iff.1 h
    obtain ⟨b, hb, h⟩ := Option.bind_eq_some_iff.1 h
    rw [Manager.concat_eq_assembled] at h
    refine effect_build? manager ?_ free rfl h
    rw [Op.texts?, ha, hb]
    rfl
  | compare first second =>
    obtain ⟨a, _, h⟩ := Option.bind_eq_some_iff.1 h
    obtain ⟨b, _, h⟩ := Option.bind_eq_some_iff.1 h
    obtain rfl := Option.some.inj h
    exact effect_answer _ rfl rfl (by simp)
  | describe target =>
    obtain ⟨view, _, h⟩ := Option.bind_eq_some_iff.1 h
    obtain rfl := Option.some.inj h
    exact effect_answer _ rfl rfl (by simp)
  | releaseString target =>
    obtain ⟨slot, found, h⟩ := Option.bind_eq_some_iff.1 h
    split at h
    · obtain rfl := Option.some.inj h
      refine effect_release manager rfl rfl (by simp) fun a ha => ?_
      obtain rfl := Option.some.inj ha
      exact ⟨slot, found, fun _ => rfl⟩
    · cases h
  | intoRaw target =>
    obtain ⟨heap, replaced, h⟩ := Option.bind_eq_some_iff.1 h
    obtain ⟨slot, slot', found, toRaw, rfl⟩ := replace?_eq_some replaced
    obtain rfl := Option.some.inj h
    rw [Heap.find?_update_of_found found slot', Option.isSome_some]
    exact .hold found rfl rfl (.raw toRaw)
  | rawToBlock target =>
    obtain ⟨heap, replaced, h⟩ := Option.bind_eq_some_iff.1 h
    obtain ⟨slot, slot', found, toBlock, rfl⟩ := replace?_eq_some replaced
    obtain rfl := Option.some.inj h
    exact .hold found rfl rfl (.block toBlock)
  | rawToString target =>
    obtain ⟨heap, replaced, h⟩ := Option.bind_eq_some_iff.1 h
    obtain ⟨slot, slot', found, toString, rfl⟩ := replace?_eq_some replaced
    obtain ⟨-, bytes, holds, hslot'⟩ := Slot.toString?_eq_some.1 toString
    have string := Slot.holdsString_of_holds holds
    rw [← hslot'] at string
    rw [view?_of_holdsString (Heap.find?_update_of_found found slot') string] at h
    obtain rfl := Option.some.inj h
    exact .hold found rfl rfl (.string toString string)
  | convertNull =>
    obtain rfl := Option.some.inj h
    exact effect_answer _ rfl rfl (by simp)
  | write target offset bytes =>
    obtain ⟨heap, replaced, h⟩ := Option.bind_eq_some_iff.1 h
    obtain ⟨slot, slot', found, write, rfl⟩ := replace?_eq_some replaced
    obtain rfl := Option.some.inj h
    exact .hold found rfl rfl (.write offset bytes write)
  | read target offset length =>
    obtain ⟨slot, _, h⟩ := Option.bind_eq_some_iff.1 h
    obtain ⟨cells, _, h⟩ := Option.bind_eq_some_iff.1 h
    obtain rfl := Option.some.inj h
    exact effect_answer _ rfl rfl (by simp)
  | size target =>
    obtain ⟨slot, _, h⟩ := Option.bind_eq_some_iff.1 h
    obtain rfl := Option.some.inj h
    exact effect_answer _ rfl rfl (by simp)
  | distinct first second =>
    obtain ⟨a, _, h⟩ := Option.bind_eq_some_iff.1 h
    obtain ⟨b, _, h⟩ := Option.bind_eq_some_iff.1 h
    obtain rfl := Option.some.inj h
    exact effect_answer _ rfl rfl (by simp)
  | ledger =>
    obtain rfl := Option.some.inj h
    exact effect_answer _ rfl rfl (by simp)
  | report =>
    obtain rfl := Option.some.inj h
    exact .still rfl rfl m.events_report (fun other => absurd rfl other)
      fun _ => ⟨m, manager, rfl, rfl⟩
  | isTracking =>
    obtain rfl := Option.some.inj h
    exact effect_answer _ rfl rfl (by simp)
  | describeManager =>
    obtain rfl := Option.some.inj h
    exact effect_answer _ rfl rfl (by simp)
  | setFailing failing =>
    rw [through?] at h
    split at h
    · cases h
    · obtain rfl := Option.some.inj h
      exact .redirect failing manager rfl rfl rfl

end Step

/-- **Every step that applies has one of the six effects.** -/
theorem effect_of_step? {s : Session} {step : Step} {o : Outcome} (h : s.step? step = some o) :
    Effect s step o := by
  rw [step?] at h
  split at h <;> rename_i free
  · obtain ⟨m, manager, h⟩ := Option.bind_eq_some_iff.1 h
    exact effect_of_through? manager free h
  · cases h

/-- A step either does not apply, and changes and records nothing, or it has an effect. -/
theorem perform_cases (s : Session) (step : Step) :
    s.perform step = (s, s.rejection step.index) ∨
      ∃ o, Effect s step o ∧
        s.perform step = (o.session, ⟨some o.reply, o.trail, o.session.ledger? step.index⟩) := by
  rw [perform]
  cases h : s.step? step with
  | none => exact .inl rfl
  | some o => exact .inr ⟨o, effect_of_step? h, rfl⟩

/-- A manager that a step does not go through stays as it is. -/
theorem getElem?_managers_perform (s : Session) {step : Step} {i : Nat} (other : step.index ≠ i) :
    (s.perform step).1.managers[i]? = s.managers[i]? := by
  obtain hperform | ⟨o, effect, hperform⟩ := s.perform_cases step <;> rw [hperform]
  cases effect with
  | make => exact List.getElem?_set_ne other
  | refuse => rfl
  | giveBack => exact List.getElem?_set_ne other
  | hold => rfl
  | redirect => exact List.getElem?_set_ne other
  | still => rfl

end Session

end TrackedHeap
