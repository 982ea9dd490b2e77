import TrackedHeap.Program.Run
import TrackedHeap.Proofs.Manager.Strings
import TrackedHeap.Proofs.Tracking.Refusal

/-!
# What a call can do

* `Call.request?`, `Call.texts?`, `Call.target?` : the memory that a call asks for, the texts that it
  joins into a new string, and the pointer that it gives back, if its arguments are valid;
* `Call.location` : the location that a call puts on record;
* `call?_of_request?`, `call?_of_texts?`, `call?_of_target?` : calls with the same of these do the
  same;
* `Effect` : one of six things that a statement does when it applies, with all that it leaves;
* `effect_of_statement?` : no statement does anything else.
-/

namespace TrackedHeap

namespace Call

/-- The location that a call puts on record. -/
def location (heap : Heap) : Call → Location
  | .malloc _ => .unknown
  | .allocArray _ _ => .unknown
  | .free _ => .unknown
  | .debugMalloc _ file line => .named ((file.upToNul? heap).getD none) line
  | .debugFree _ file line => .named ((file.upToNul? heap).getD none) line
  | .release _ => .caller
  | _ => .boundary

/-- The plain memory that a call asks for. -/
def request? (debugFunctions : Bool) (heap : Heap) : Call → Option Request
  | .malloc size => some (.block size)
  | .allocArray elementSize count => some (.array elementSize count)
  | .debugMalloc size file _ =>
    if debugFunctions then (file.upToNul? heap).map fun _ => .block size else none
  | _ => none

/-- The texts that a call joins into a new string. -/
def texts? (heap : Heap) : Call → Option (List CText)
  | .allocString source => (source.upToNul? heap).map Option.toList
  | .concatString first second =>
    (first.upToNul? heap).bind fun a => (second.upToNul? heap).map fun b => a.toList ++ b.toList
  | _ => none

/-- The pointer that a call gives back. -/
def target? (debugFunctions : Bool) (heap : Heap) : Call → Option Pointer
  | .free target => some target
  | .debugFree target file _ =>
    if debugFunctions then (file.upToNul? heap).map fun _ => target else none
  | .release target => some target
  | _ => none

/-- The exact number of bytes that a call asks for, if it asks for any memory. -/
def asked? (debugFunctions : Bool) (heap : Heap) (call : Call) : Option Nat :=
  match call.request? debugFunctions heap, call.texts? heap with
  | some request, _ => some request.exact
  | none, some (text :: rest) => some ((joinedBytes (text :: rest)).length + 1)
  | none, _ => none

/-- The address that a call gives back. -/
def givenBack? (debugFunctions : Bool) (heap : Heap) (call : Call) : Option Address :=
  (call.target? debugFunctions heap).join

variable {heap : Heap} {call : Call} {debugFunctions : Bool} {parts : List CText}

theorem asked?_of_request? {r : Request} (h : call.request? debugFunctions heap = some r) :
    call.asked? debugFunctions heap = some r.exact := by
  rw [asked?, h]

theorem request?_of_texts? (h : call.texts? heap = some parts) :
    call.request? debugFunctions heap = none := by
  cases call with
  | allocString => rfl
  | concatString => rfl
  | _ => cases h

theorem asked?_of_texts? (h : call.texts? heap = some parts) :
    call.asked? debugFunctions heap =
      if parts = [] then none else some ((joinedBytes parts).length + 1) := by
  rw [asked?, request?_of_texts? h, h]
  cases parts with
  | nil => rfl
  | cons text rest => exact (if_neg (List.cons_ne_nil _ _)).symm

theorem givenBack?_of_request? {r : Request} (h : call.request? debugFunctions heap = some r) :
    call.givenBack? debugFunctions heap = none := by
  cases call with
  | malloc => rfl
  | allocArray => rfl
  | debugMalloc => rfl
  | _ => cases h

theorem givenBack?_of_texts? (h : call.texts? heap = some parts) :
    call.givenBack? debugFunctions heap = none := by
  cases call with
  | allocString => rfl
  | concatString => rfl
  | _ => cases h

theorem asked?_of_target? {target : Pointer} (h : call.target? debugFunctions heap = some target) :
    call.asked? debugFunctions heap = none := by
  cases call with
  | free => rfl
  | debugFree => rfl
  | release => rfl
  | _ => cases h

/-- The texts that one call joins fit in memory together, with a NUL. -/
theorem fits_of_texts? (h : call.texts? heap = some parts) :
    (joinedBytes parts).length + 1 < 2 ^ 64 := by
  cases call with
  | allocString source =>
    obtain ⟨text, _, rfl⟩ := Option.map_eq_some_iff.1 h
    have := length_joinedBytes_toList_lt text
    omega
  | concatString first second =>
    obtain ⟨a, _, h⟩ := Option.bind_eq_some_iff.1 h
    obtain ⟨b, _, rfl⟩ := Option.map_eq_some_iff.1 h
    exact length_joinedBytes_pair_lt a b
  | _ => cases h

end Call

namespace Program

/-! ## Calls that make or give back memory -/

section
variable {p : Program} {call : Call} {name : Address} {location : Location} {r : Request}
  {parts : List CText}

theorem call?_of_request? (h : call.request? p.debugFunctions p.heap = some r) :
    p.call? (some name) call = some (p.allocate r name (call.location p.heap)) := by
  cases call with
  | malloc size =>
    obtain rfl := Option.some.inj h
    rfl
  | allocArray elementSize count =>
    obtain rfl := Option.some.inj h
    rfl
  | debugMalloc size file line =>
    rw [Call.request?] at h
    split at h <;> rename_i debug
    · obtain ⟨file', hfile, rfl⟩ := Option.map_eq_some_iff.1 h
      simp only [call?, if_pos debug, Call.location, hfile, Option.bind_eq_bind, Option.bind_some,
        Option.pure_def, Option.getD_some]
    · cases h
  | _ => cases h

theorem call?_of_texts? (h : call.texts? p.heap = some parts) :
    p.call? (some name) call =
      p.build? name (p.manager.assembled p.heap parts name (call.location p.heap)) := by
  cases call with
  | allocString source =>
    obtain ⟨text, htext, rfl⟩ := Option.map_eq_some_iff.1 h
    simp only [call?, ← Manager.makeString_eq_assembled, Call.location, htext, Option.bind_eq_bind,
      Option.bind_some]
  | concatString first second =>
    obtain ⟨a, ha, h⟩ := Option.bind_eq_some_iff.1 h
    obtain ⟨b, hb, rfl⟩ := Option.map_eq_some_iff.1 h
    simp only [call?, ← Manager.concat_eq_assembled, Call.location, ha, hb, Option.bind_eq_bind,
      Option.bind_some]
  | _ => cases h

theorem call?_of_target? {target : Pointer} {name : Option Address}
    (h : call.target? p.debugFunctions p.heap = some target) :
    p.call? name call = p.free? target (call.location p.heap) := by
  cases call with
  | free target =>
    obtain rfl := Option.some.inj h
    rfl
  | debugFree target file line =>
    rw [Call.target?] at h
    split at h <;> rename_i debug
    · obtain ⟨file', hfile, rfl⟩ := Option.map_eq_some_iff.1 h
      simp only [call?, if_pos debug, Call.location, hfile, Option.bind_eq_bind, Option.bind_some,
        Option.getD_some]
    · cases h
  | release target =>
    obtain rfl := Option.some.inj h
    rfl
  | _ => cases h

theorem allocate_of_granted {allocator : Allocator} {t : Trail} (free : p.heap.isFree name = true)
    (granted : Allocator.Granted r name location p.manager.allocator allocator t) :
    p.allocate r name location =
      ⟨⟨p.debugFunctions, p.heap.insert name ⟨.raw, .ofRequest r⟩, { p.manager with allocator }⟩,
        .pointer, [], p.manager.sink.pass t⟩ := by
  simp only [allocate, Manager.request_of_granted granted, After.orNull, returned,
    Heap.update_insert_self free]
  rfl

theorem allocate_of_refused {e : AllocError}
    (refused : p.manager.allocator.core r = .error e) :
    p.allocate r name location = ⟨p, .null, [], .ofEvents [.nullBlock e]⟩ := by
  simp only [allocate, Manager.request_of_refused refused, After.orNull, returned]
  rfl

theorem build?_of_granted {allocator : Allocator} {t : Trail} (free : p.heap.isFree name = true)
    (some_part : parts ≠ []) (fits : (joinedBytes parts).length + 1 < 2 ^ 64)
    (granted : Allocator.Granted (.block (totalLength parts + 1)) name location
      p.manager.allocator allocator t) :
    p.build? name (p.manager.assembled p.heap parts name location) =
      some ⟨⟨p.debugFunctions, p.heap.insert name ⟨.raw, (Slot.joined parts).region⟩,
        { p.manager with allocator }⟩, .text (joinedBytes parts), [], p.manager.sink.pass t⟩ := by
  have htext : (Slot.joined parts).region.text? = some (joinedBytes parts) :=
    Region.text?_eq_some_iff.2 (holds_joined fits)
  rw [Manager.assembled, if_neg some_part, Manager.joined_of_granted free granted]
  simp only [build?, Manager.present, Except.map, After.stringOrNull, After.orNull,
    Heap.update_insert_self free, Heap.find?_insert_self, htext, Option.bind_eq_bind,
    Option.bind_some, Option.pure_def, returned]
  rfl

theorem build?_of_refused {e : AllocError} (some_part : parts ≠ [])
    (refused : p.manager.allocator.core (.block (totalLength parts + 1)) = .error e) :
    p.build? name (p.manager.assembled p.heap parts name location) =
      some ⟨p, .null, [], .ofEvents [.nullString e]⟩ := by
  rw [Manager.assembled, if_neg some_part, Manager.joined_of_refused refused]
  simp only [build?, Manager.present, Except.map, After.stringOrNull, After.orNull, returned]
  rfl

theorem build?_nil :
    p.build? name (p.manager.assembled p.heap [] name location) = some ⟨p, .null, [], .empty⟩ := by
  rw [Manager.assembled, if_pos rfl]
  rfl

end

/-! ## Every statement -/

/-- The new memory that answers a request, and the answer that tells of it. -/
inductive Made : Request → Region → Answer → Prop
  | block (r : Request) : Made r (.ofRequest r) .pointer
  | string (parts : List CText) (fits : (joinedBytes parts).length + 1 < 2 ^ 64) :
    Made (.block (totalLength parts + 1)) (Slot.joined parts).region (.text (joinedBytes parts))

/-- What a statement does when it applies. -/
inductive Effect (p : Program) (s : Statement) : Returned → Prop
  /-- Memory is made at the free address that the statement names. -/
  | make {name : Address} {r : Request} {region : Region} {answer : Answer} {allocator : Allocator}
      {t : Trail} (named : s.name = some name) (free : p.heap.isFree name = true)
      (asked : s.call.asked? p.debugFunctions p.heap = some r.exact)
      (given : s.call.givenBack? p.debugFunctions p.heap = none)
      (granted : Allocator.Granted r name (s.call.location p.heap) p.manager.allocator allocator t)
      (made : Made r region answer) :
    Effect p s
      ⟨⟨p.debugFunctions, p.heap.insert name ⟨.raw, region⟩, { p.manager with allocator }⟩, answer,
        [], p.manager.sink.pass t⟩
  /-- Memory is refused, and an error put on record. -/
  | refuse {e : AllocError} {event : Event}
      (asked : (s.call.asked? p.debugFunctions p.heap).isSome)
      (given : s.call.givenBack? p.debugFunctions p.heap = none) (told : event.error? = some e) :
    Effect p s ⟨p, .null, [], .ofEvents [event]⟩
  /-- Memory is given back. -/
  | giveBack {a : Address} {slot : Slot} (found : p.heap.find? a = some slot)
      (asked : s.call.asked? p.debugFunctions p.heap = none)
      (given : s.call.givenBack? p.debugFunctions p.heap = some a) :
    Effect p s
      ⟨⟨p.debugFunctions, p.heap.erase a, { p.manager with
          allocator := (p.manager.allocator.released a (s.call.location p.heap)).1 }⟩, .done, [],
        p.manager.sink.pass (p.manager.allocator.released a (s.call.location p.heap)).2⟩
  /-- Bytes are stored in memory. -/
  | write {a : Address} {slot slot' : Slot} (offset : Nat) (bytes : Bytes)
      (asked : s.call.asked? p.debugFunctions p.heap = none)
      (given : s.call.givenBack? p.debugFunctions p.heap = none)
      (found : p.heap.find? a = some slot) (stored : slot.write? offset bytes = some slot')
      (silent : s.call ≠ .printMemoryStats) :
    Effect p s ⟨{ p with heap := p.heap.update a fun _ => slot' }, .done, [], .empty⟩
  /-- The ledger is written to the diagnostic stream. -/
  | report (asked : s.call.asked? p.debugFunctions p.heap = none)
      (given : s.call.givenBack? p.debugFunctions p.heap = none)
      (reports : s.call = .printMemoryStats) :
    Effect p s ⟨p, .done, [], p.manager.report⟩
  /-- The program is left as it is, and nothing put on record. -/
  | still {answer : Answer} {printed : Bytes}
      (asked : s.call.asked? p.debugFunctions p.heap = none)
      (given : s.call.givenBack? p.debugFunctions p.heap = none)
      (silent : s.call ≠ .printMemoryStats)
      (nothing : answer ≠ .pointer ∧ ∀ bytes, answer ≠ .text bytes) :
    Effect p s ⟨p, answer, printed, .empty⟩

section
variable {p : Program} {s : Statement} {name : Address} {returned : Returned}

/-- What records nothing and makes no memory has no effect. -/
theorem effect_answer {answer : Answer} (asked : s.call.asked? p.debugFunctions p.heap = none)
    (given : s.call.givenBack? p.debugFunctions p.heap = none)
    (silent : s.call ≠ .printMemoryStats)
    (nothing : answer ≠ .pointer ∧ ∀ bytes, answer ≠ .text bytes) : Effect p s (p.answer answer) :=
  .still asked given silent nothing

theorem effect_allocate {r : Request} (named : s.name = some name)
    (free : p.heap.isFree name = true)
    (request : s.call.request? p.debugFunctions p.heap = some r) :
    Effect p s (p.allocate r name (s.call.location p.heap)) := by
  have asked := Call.asked?_of_request? request
  have given := Call.givenBack?_of_request? request
  obtain ⟨allocator, t, granted⟩ | ⟨e, refused⟩ :=
    p.manager.allocator.granted_or_refused r name (s.call.location p.heap)
  · rw [allocate_of_granted free granted]
    exact .make named free asked given granted (.block r)
  · rw [allocate_of_refused refused]
    exact .refuse (Option.isSome_of_eq_some asked) given rfl

/-- Joining texts makes memory, is refused, or finds no text to join. -/
theorem effect_build? {parts : List CText} (named : s.name = some name)
    (free : p.heap.isFree name = true) (texts : s.call.texts? p.heap = some parts)
    (h : p.build? name (p.manager.assembled p.heap parts name (s.call.location p.heap)) =
      some returned) : Effect p s returned := by
  have fits := Call.fits_of_texts? texts
  have given : s.call.givenBack? p.debugFunctions p.heap = none := Call.givenBack?_of_texts? texts
  have asked : s.call.asked? p.debugFunctions p.heap = _ := Call.asked?_of_texts? texts
  by_cases hparts : parts = []
  · rw [if_pos hparts] at asked
    rw [hparts, build?_nil] at h
    obtain rfl := Option.some.inj h
    refine effect_answer asked given ?_ ⟨by simp, by simp⟩
    intro hcall
    rw [hcall] at texts
    cases texts
  · have hexact : (Request.block (totalLength parts + 1)).exact = (joinedBytes parts).length + 1 :=
      (toNat_totalLength_succ fits).2
    rw [if_neg hparts, ← hexact] at asked
    obtain ⟨allocator, t, granted⟩ | ⟨e, refused⟩ :=
      p.manager.allocator.granted_or_refused (.block (totalLength parts + 1)) name
        (s.call.location p.heap)
    · rw [build?_of_granted free hparts fits granted] at h
      obtain rfl := Option.some.inj h
      exact .make named free asked given granted (.string parts fits)
    · rw [build?_of_refused hparts refused] at h
      obtain rfl := Option.some.inj h
      exact .refuse (Option.isSome_of_eq_some asked) given rfl

/-- Giving back null changes nothing, and memory in use is erased. -/
theorem effect_free? {target : Pointer}
    (htarget : s.call.target? p.debugFunctions p.heap = some target)
    (h : p.free? target (s.call.location p.heap) = some returned) : Effect p s returned := by
  have asked : s.call.asked? p.debugFunctions p.heap = none := Call.asked?_of_target? htarget
  have given : s.call.givenBack? p.debugFunctions p.heap = target := by
    rw [Call.givenBack?, htarget]
    rfl
  rw [free?] at h
  split at h <;> rename_i valid
  · obtain rfl := Option.some.inj h
    cases target with
    | none =>
      rw [Manager.release_none]
      refine effect_answer asked given ?_ ⟨by simp, by simp⟩
      intro hcall
      rw [hcall] at htarget
      cases htarget
    | some a =>
      obtain ⟨slot, found⟩ : ∃ slot, p.heap.find? a = some slot := by
        rw [← Option.isSome_iff_exists]
        simpa [isValid, Heap.isFree] using valid
      rw [Manager.release_some]
      exact .giveBack found asked given
  · cases h

/-- Printing leaves the program as it is. -/
theorem effect_print (pieces : Output.Pieces)
    (asked : s.call.asked? p.debugFunctions p.heap = none)
    (given : s.call.givenBack? p.debugFunctions p.heap = none)
    (silent : s.call ≠ .printMemoryStats) : Effect p s (p.print pieces) := by
  -- A device that works records nothing, whether or not there is anything to print.
  have unrecorded : p.print pieces = ⟨p, .done, (p.print pieces).printed, .empty⟩ := by
    cases pieces <;> rfl
  rw [unrecorded]
  exact .still asked given silent ⟨by simp, by simp⟩

/-- **Every statement that applies has one of the six effects.** -/
theorem effect_of_statement? (h : p.statement? s = some returned) : Effect p s returned := by
  rw [statement?] at h
  split at h <;> rename_i free
  case isFalse => cases h
  obtain ⟨call, name⟩ := s
  dsimp only at h free
  -- Whatever a call looks up has to be there, or it would not apply.
  cases call with
  | malloc size =>
    obtain ⟨name, rfl, h⟩ := Option.bind_eq_some_iff.1 h
    obtain rfl := Option.some.inj h
    exact effect_allocate rfl free rfl
  | allocArray elementSize count =>
    obtain ⟨name, rfl, h⟩ := Option.bind_eq_some_iff.1 h
    obtain rfl := Option.some.inj h
    exact effect_allocate rfl free rfl
  | free target => exact effect_free? rfl h
  | printInt value =>
    obtain rfl := Option.some.inj h
    exact effect_print _ rfl rfl (by simp)
  | printDouble value =>
    obtain rfl := Option.some.inj h
    exact effect_print _ rfl rfl (by simp)
  | printString source =>
    obtain ⟨text, _, h⟩ := Option.bind_eq_some_iff.1 h
    obtain rfl := Option.some.inj h
    exact effect_print _ rfl rfl (by simp)
  | allocString source =>
    obtain ⟨name, rfl, h⟩ := Option.bind_eq_some_iff.1 h
    obtain ⟨text, htext, h⟩ := Option.bind_eq_some_iff.1 h
    rw [Manager.makeString_eq_assembled] at h
    exact effect_build? rfl free (congrArg (Option.map Option.toList) htext) h
  | concatString first second =>
    obtain ⟨name, rfl, h⟩ := Option.bind_eq_some_iff.1 h
    obtain ⟨a, ha, h⟩ := Option.bind_eq_some_iff.1 h
    obtain ⟨b, hb, h⟩ := Option.bind_eq_some_iff.1 h
    rw [Manager.concat_eq_assembled] at h
    refine effect_build? rfl free ?_ h
    rw [Call.texts?, ha, hb]
    rfl
  | compareString first second =>
    obtain ⟨a, _, h⟩ := Option.bind_eq_some_iff.1 h
    obtain ⟨b, _, h⟩ := Option.bind_eq_some_iff.1 h
    obtain rfl := Option.some.inj h
    exact effect_answer rfl rfl (by simp) ⟨by simp, by simp⟩
  | debugMalloc size file line =>
    rw [call?] at h
    split at h <;> rename_i debug
    · obtain ⟨name, rfl, hname⟩ := Option.bind_eq_some_iff.1 h
      obtain ⟨text, htext, htext'⟩ := Option.bind_eq_some_iff.1 hname
      obtain rfl := Option.some.inj htext'
      have request : (Call.debugMalloc size file line).request? p.debugFunctions p.heap =
          some (.block size) := by
        rw [Call.request?, if_pos debug, htext]
        rfl
      have location : (Call.debugMalloc size file line).location p.heap = .named text line := by
        rw [Call.location, htext]
        rfl
      rw [← location]
      exact effect_allocate rfl free request
    · cases h
  | debugFree target file line =>
    rw [call?] at h
    split at h <;> rename_i debug
    · obtain ⟨text, htext, h⟩ := Option.bind_eq_some_iff.1 h
      have htarget : (Call.debugFree target file line).target? p.debugFunctions p.heap =
          some target := by
        rw [Call.target?, if_pos debug, htext]
        rfl
      have location : (Call.debugFree target file line).location p.heap = .named text line := by
        rw [Call.location, htext]
        rfl
      rw [← location] at h
      exact effect_free? htarget h
    · cases h
  | printMemoryStats =>
    rw [call?] at h
    split at h
    · obtain rfl := Option.some.inj h
      exact .report rfl rfl rfl
    · cases h
  | release target => exact effect_free? rfl h
  | write target offset bytes =>
    obtain ⟨slot, found, h⟩ := Option.bind_eq_some_iff.1 h
    obtain ⟨slot', stored, h⟩ := Option.bind_eq_some_iff.1 h
    obtain rfl := Option.some.inj h
    exact .write offset bytes rfl rfl found stored (by simp)
  | read target offset length =>
    obtain ⟨slot, _, h⟩ := Option.bind_eq_some_iff.1 h
    obtain ⟨cells, _, h⟩ := Option.bind_eq_some_iff.1 h
    obtain rfl := Option.some.inj h
    exact effect_answer rfl rfl (by simp) ⟨by simp, by simp⟩
  | isTracking =>
    obtain rfl := Option.some.inj h
    exact effect_answer rfl rfl (by simp) ⟨by simp, by simp⟩

/-- A statement either does not apply, and changes and records nothing, or it has an effect. -/
theorem perform_cases (p : Program) (s : Statement) :
    p.perform s = (p, p.rejection) ∨
      ∃ r, Effect p s r ∧
        p.perform s =
          (r.program, ⟨some r.answer, r.printed, r.trail, r.program.manager.ledger?⟩) := by
  rw [perform]
  cases h : p.statement? s with
  | none => exact .inl rfl
  | some r => exact .inr ⟨r, effect_of_statement? h, rfl⟩

end

end Program

end TrackedHeap
