import Mathlib.Data.List.Forall2
import TrackedHeap.Proofs.Memory.Addresses
import TrackedHeap.Proofs.Program.Effect
import TrackedHeap.Proofs.Program.Library
import TrackedHeap.Proofs.Session.Refusal

/-!
# A program and the library alongside

A program that uses the C interface and a caller of the library who does the same keep step.

* `Heap.IsRaw` : all memory is held raw, as a program holds it;
* `Program.session` : the session of a caller who stands where a program stands;
* `Program.shown`, `Program.libraryShown` : what a call comes to, and the library call in its place;
* `Alongside` : a call of the program and one on the library leave the same memory and show the same;
* `alongside_allocate`, `alongside_build?`, `alongside_free?` : the calls that make memory and give it
  back are alongside;
* `alongside_perform` : every statement and what the library does in its place are;
* `library_runs_alongside` : so are whole runs, and all memory that they make can be given back.
-/

namespace TrackedHeap

/-! ## Raw memory -/

/-- All memory is held raw. -/
def Heap.IsRaw (heap : Heap) : Prop :=
  ∀ a slot, heap.find? a = some slot → slot.kind = .raw

namespace Heap.IsRaw
variable {heap : Heap} {a : Address} {slot : Slot}

theorem insert (h : heap.IsRaw) (a : Address) (region : Region) :
    (heap.insert a ⟨.raw, region⟩).IsRaw := by
  intro b slot found
  by_cases hb : b = a
  · subst hb
    rw [find?_insert_self] at found
    obtain rfl := Option.some.inj found
    rfl
  · rw [find?_insert_of_ne _ _ hb] at found
    exact h b slot found

theorem erase (h : heap.IsRaw) (a : Address) : (heap.erase a).IsRaw := by
  intro b slot found
  by_cases hb : b = a
  · subst hb
    rw [find?_erase_self] at found
    cases found
  · rw [find?_erase_of_ne _ hb] at found
    exact h b slot found

theorem update (h : heap.IsRaw) (a : Address) (raw : slot.kind = .raw) :
    (heap.update a fun _ => slot).IsRaw := by
  intro b slot' found
  by_cases hb : b = a
  · subst hb
    rw [find?_update_self] at found
    obtain ⟨_, _, rfl⟩ := Option.map_eq_some_iff.1 found
    exact raw
  · rw [find?_update_of_ne _ _ hb] at found
    exact h b slot' found

end Heap.IsRaw

theorem Heap.erase_update (heap : Heap) (a : Address) (change : Slot → Slot) :
    (heap.update a change).erase a = heap.erase a := by
  induction heap with
  | nil => rfl
  | cons entry rest ih =>
    rw [update, List.map_cons]
    by_cases h : entry.1 = a
    · rw [if_pos h, erase, List.filter_cons_of_neg (by simp), erase,
        List.filter_cons_of_neg (by simp [h])]
      exact ih
    · rw [if_neg h, erase, List.filter_cons_of_pos (by simp [h]), erase,
        List.filter_cons_of_pos (by simp [h])]
      exact congrArg (entry :: ·) ih

namespace Program

/-- The session of a caller who stands where the program stands. -/
def session (p : Program) : Session :=
  ⟨p.heap, [p.manager]⟩

theorem heap_session (p : Program) : p.session.heap = p.heap := rfl

/-- A program after a call and what the call shows, if it applied. -/
def shown (p : Program) : Option Returned → Program × Entry
  | some r => (r.program, ⟨some r.answer, r.printed, r.trail, r.program.manager.ledger?⟩)
  | none => (p, p.rejection)

theorem perform_eq_shown (p : Program) (s : Statement) : p.perform s = p.shown (p.statement? s) := by
  rw [perform]
  cases p.statement? s <;> rfl

/-- The library after the call in place of one of a program, if there is any, and what that shows. -/
def libraryShown (p : Program) : Option LibraryCall → Session × Entry
  | some call => p.session.library call
  | none => (p.session, (p.session.rejection 0).answered)

/-- After a call of a program and a call on the library memory is the same, all of it raw, and both
have shown the same. -/
structure Alongside (p : Program) (result : Program × Entry) (library : Session × Entry) :
    Prop where
  session : library.1 = result.1.session
  raw : result.1.heap.IsRaw
  functions : result.1.debugFunctions = p.debugFunctions
  agrees : result.2.Agrees library.2

theorem alongside_rejection {p : Program} (raw : p.heap.IsRaw) :
    Alongside p (p.shown none) (p.libraryShown none) :=
  ⟨rfl, raw, rfl, rfl, rfl, rfl, rfl⟩

/-- Both look the same thing up, and go on with what they find. -/
theorem alongside_bind {p : Program} (raw : p.heap.IsRaw) {α : Type} (found? : Option α)
    {next : α → Option Returned} {call? : α → Option LibraryCall}
    (goOn : ∀ found, found? = some found →
      Alongside p (p.shown (next found)) (p.libraryShown (call? found))) :
    Alongside p (p.shown (found? >>= next)) (p.libraryShown (found? >>= call?)) := by
  cases found? with
  | none => exact alongside_rejection raw
  | some found => exact goOn found rfl

section
variable {p : Program} {name : Address} {r : Request} {location : Location}

theorem perform_intoRaw {heap : Heap} {managers : List Manager} {m : Manager} {slot : Slot}
    (manager : managers[0]? = some m) (free : heap.isFree name = true) (held : slot.kind ≠ .raw) :
    (Session.perform ⟨heap.insert name slot, managers⟩ ⟨0, .intoRaw name, none⟩).1 =
      ⟨heap.insert name { slot with kind := .raw }, managers⟩ := by
  have hraw : slot.toRaw? = some { slot with kind := .raw } := Slot.toRaw?_eq_some.2 ⟨held, rfl⟩
  have hstep : Session.step? ⟨heap.insert name slot, managers⟩ ⟨0, .intoRaw name, none⟩ =
      some ⟨⟨heap.insert name { slot with kind := .raw }, managers⟩, .kept true, .empty⟩ := by
    simp only [Session.step?, Option.all_none, if_true, Session.operate?, manager,
      Option.bind_eq_bind, Option.bind_some, Session.through?, Session.replace?,
      Heap.find?_insert_self, hraw, Option.map_some, Option.pure_def,
      Heap.update_insert_self free]
    rfl
  rw [Session.perform_of_step? hstep]

theorem perform_intoRaw_of_isFree {s : Session} (free : s.heap.isFree name = true) :
    (s.perform ⟨0, .intoRaw name, none⟩).1 = s := by
  have hfind : s.heap.find? name = none := Option.isNone_iff_eq_none.1 free
  have hstep : s.step? ⟨0, .intoRaw name, none⟩ = none := by
    rw [Session.step?]
    simp only [Option.all_none, if_true, Session.operate?]
    cases s.managers[0]? with
    | none => rfl
    | some m => simp [Session.through?, hfind, Session.replace?]
  rw [Session.perform, hstep]

/-! ## Making memory -/

/-- What the library makes is held raw, like what the C call makes. -/
theorem library_make_of_made {op : Op} {slot : Slot} {m : Manager} {reply : Reply} {t : Trail}
    (free : p.heap.isFree name = true) (held : slot.kind ≠ .raw)
    (step : p.session.step? ⟨0, op, some name⟩ =
      some ⟨⟨p.heap.insert name slot, [m]⟩, reply, t⟩) :
    p.session.library (.make op name) =
      (⟨p.heap.insert name { slot with kind := .raw }, [m]⟩,
        ⟨reply.answer?, [], t, m.ledger?⟩) := by
  simp only [Session.library, Session.perform_of_step? step]
  rw [perform_intoRaw rfl free held]
  rfl

theorem library_make_of_refused {op : Op} {reply : Reply} {t : Trail}
    (free : p.heap.isFree name = true)
    (step : p.session.step? ⟨0, op, some name⟩ = some ⟨p.session, reply, t⟩) :
    p.session.library (.make op name) =
      (p.session, ⟨reply.answer?, [], t, p.manager.ledger?⟩) := by
  simp only [Session.library, Session.perform_of_step? step]
  rw [perform_intoRaw_of_isFree free]
  rfl

theorem alongside_allocate (raw : p.heap.IsRaw) (free : p.heap.isFree name = true) (r : Request)
    (location : Location) :
    Alongside p (p.shown (some (p.allocate r name location)))
      (p.libraryShown (some (.make (.allocate r .option .caller) name))) := by
  have hstep : p.session.step? ⟨0, .allocate r .option .caller, some name⟩ =
      some (p.session.allocate 0 p.manager r .option .caller name) :=
    Session.step?_of_named rfl rfl free
  obtain ⟨allocator, t, granted⟩ | ⟨e, refused⟩ :=
    p.manager.allocator.granted_or_refused r name location
  · obtain ⟨t', hcaller, hlines⟩ := granted.elsewhere .caller
    rw [Session.allocate_of_granted .option hcaller] at hstep
    rw [allocate_of_granted free granted, libraryShown,
      library_make_of_made free (by simp) hstep]
    exact ⟨rfl, raw.insert name _, rfl, rfl, rfl, Sink.unlocated_pass _ hlines.symm, rfl⟩
  · rw [Session.allocate_of_refused .option rfl refused] at hstep
    rw [allocate_of_refused refused, libraryShown, library_make_of_refused free hstep]
    exact ⟨rfl, raw, rfl, rfl, rfl, rfl, rfl⟩

/-- The C call that joins texts applies and is alongside the library call that joins them. -/
theorem alongside_build? {op : Op} {parts : List CText} (raw : p.heap.IsRaw)
    (free : p.heap.isFree name = true) (texts : op.texts? p.heap = some parts)
    (location : Location) :
    Alongside p (p.shown (p.build? name (p.manager.assembled p.heap parts name location)))
      (p.libraryShown (some (.make op name))) := by
  have fits := Op.fits_of_texts? texts
  have hstep : p.session.step? ⟨0, op, some name⟩ =
      p.session.build? 0 name (p.manager.assembled p.heap parts name .caller) :=
    Session.step?_of_texts? rfl rfl free texts
  rw [libraryShown]
  by_cases hparts : parts = []
  · rw [hparts] at hstep ⊢
    have hnil : p.session.build? 0 name (p.manager.assembled p.heap [] name .caller) =
        some ⟨p.session, .absent, .empty⟩ := Session.build?_nil rfl
    rw [hnil] at hstep
    rw [build?_nil, library_make_of_refused free hstep]
    exact ⟨rfl, raw, rfl, rfl, rfl, rfl, rfl⟩
  obtain ⟨allocator, t, granted⟩ | ⟨e, refused⟩ :=
    p.manager.allocator.granted_or_refused (.block (totalLength parts + 1)) name location
  · obtain ⟨t', hcaller, hlines⟩ := granted.elsewhere .caller
    have hmade := hstep.trans (Session.build?_of_granted free hparts fits hcaller)
    rw [build?_of_granted free hparts fits granted,
      library_make_of_made free (by simp [Slot.joined]) hmade]
    exact ⟨rfl, raw.insert name _, rfl, rfl, rfl, Sink.unlocated_pass _ hlines.symm, rfl⟩
  · have hrefused := hstep.trans (Session.build?_of_refused rfl hparts refused)
    rw [build?_of_refused hparts refused, library_make_of_refused free hrefused]
    exact ⟨rfl, raw, rfl, rfl, rfl, rfl, rfl⟩

/-! ## Giving memory back -/

theorem step?_rawToBlock {a : Address} {slot : Slot} (found : p.heap.find? a = some slot)
    (held : slot.kind = .raw) :
    p.session.step? ⟨0, .rawToBlock a, none⟩ =
      some ⟨⟨p.heap.update a fun _ => { slot with kind := .block }, [p.manager]⟩, .block,
        .empty⟩ := by
  have hblock : p.heap.blockOf? (some a) = some { slot with kind := .block } := by
    rw [Heap.blockOf?, Option.bind_some, found, Option.bind_some]
    exact Slot.toBlock?_eq_some.2 ⟨held, rfl⟩
  have hreplace : Session.replace? p.heap a (p.heap.blockOf? (some a)) =
      some (p.heap.update a fun _ => { slot with kind := .block }) := by
    rw [hblock]
    rfl
  change p.session.through? 0 p.manager none (.rawToBlock a) = _
  rw [Session.through?]
  simp only [session, hreplace, Option.bind_eq_bind, Option.bind_some, Option.pure_def]

theorem step?_release {heap : Heap} {m : Manager} {a : Address} {slot : Slot}
    (found : heap.find? a = some slot) (held : slot.kind = .block) :
    Session.step? ⟨heap, [m]⟩ ⟨0, .release (some a) .caller, none⟩ =
      some ⟨⟨heap.erase a, [{ m with allocator := (m.allocator.released a .caller).1 }]⟩, .done,
        m.sink.pass (m.allocator.released a .caller).2⟩ := by
  have hreleasable : Session.isReleasable heap (some a) = true := by
    rw [Session.isReleasable, found, Option.any_some, held]
    rfl
  change Session.through? ⟨heap, [m]⟩ 0 m none (.release (some a) .caller) = _
  rw [Session.through?, if_pos hreleasable, Session.release, Manager.release_some]
  rfl

/-- What a program gives back is a block to the library first. -/
theorem library_giveBack {a : Address} {slot : Slot} (found : p.heap.find? a = some slot)
    (held : slot.kind = .raw) :
    p.session.library (.giveBack (some a)) =
      (⟨p.heap.erase a, [{ p.manager with
          allocator := (p.manager.allocator.released a .caller).1 }]⟩,
        ⟨some .done, [], p.manager.sink.pass (p.manager.allocator.released a .caller).2,
          (p.manager.allocator.released a .caller).1.ledger?⟩) := by
  have hfound : (p.heap.update a fun _ => { slot with kind := .block }).find? a =
      some { slot with kind := .block } := Heap.find?_update_of_found found _
  simp only [Session.library, Session.perform_of_step? (step?_rawToBlock found held),
    Session.perform_of_step? (step?_release hfound rfl), Heap.erase_update]
  rfl

theorem library_giveBack_none (p : Program) :
    p.session.library (.giveBack none) =
      (p.session, ⟨some .done, [], .empty, p.manager.ledger?⟩) := by
  have hstep : p.session.step? ⟨0, .release none .caller, none⟩ =
      some ⟨p.session, .done, .empty⟩ := by
    change some (p.session.release 0 p.manager none .caller) = _
    rw [Session.release, Manager.release_none]
    rfl
  simp only [Session.library, Session.perform_of_step? hstep]
  rfl

/-- Giving back is alongside, from wherever it comes. -/
theorem alongside_free? (raw : p.heap.IsRaw) (target : Pointer) (location : Location) :
    Alongside p (p.shown (p.free? target location))
      (p.libraryShown (if isValid p.heap target then some (.giveBack target) else none)) := by
  by_cases valid : isValid p.heap target = true
  · rw [free?, if_pos valid, if_pos valid, libraryShown]
    cases target with
    | none =>
      rw [Manager.release_none, library_giveBack_none]
      exact ⟨rfl, raw, rfl, rfl, rfl, rfl, rfl⟩
    | some a =>
      obtain ⟨slot, found⟩ : ∃ slot, p.heap.find? a = some slot := by
        rw [← Option.isSome_iff_exists]
        simpa [isValid, Heap.isFree] using valid
      obtain ⟨hallocator, hlines⟩ := p.manager.allocator.released_elsewhere a location .caller
      rw [Manager.release_some]
      simp only [library_giveBack found (raw a slot found), ← hallocator]
      exact ⟨rfl, raw.erase a, rfl, rfl, rfl, Sink.unlocated_pass _ hlines, rfl⟩
  · rw [free?, if_neg valid, if_neg valid]
    exact alongside_rejection raw

/-! ## Every call -/

theorem library_ask (p : Program) (op : Op) :
    p.libraryShown (some (.ask op)) =
      match p.session.through? 0 p.manager none op with
      | some o => (o.session, ⟨o.reply.answer?, [], o.trail, o.session.ledger? 0⟩)
      | none => (p.session, (p.session.rejection 0).answered) := by
  have hstep : p.session.step? ⟨0, op, none⟩ = p.session.through? 0 p.manager none op := rfl
  simp only [libraryShown, Session.library, Session.perform, hstep]
  cases p.session.through? 0 p.manager none op <;> rfl

theorem string?_ofText (heap : Heap) (text : Option CText) :
    (Operand.ofText text).string? heap = some text := by
  cases text <;> rfl

/-- **A call and the library call in its place are alongside**, also where they do not apply. -/
theorem alongside_call? (raw : p.heap.IsRaw) {name : Option Address}
    (free : name.all p.heap.isFree = true) (call : Call) :
    Alongside p (p.shown (p.call? name call))
      (p.libraryShown (call.counterpart? p.debugFunctions p.heap name)) := by
  cases call with
  | malloc size =>
    refine alongside_bind raw name fun name named => ?_
    subst named
    exact alongside_allocate raw free _ _
  | allocArray elementSize count =>
    refine alongside_bind raw name fun name named => ?_
    subst named
    exact alongside_allocate raw free _ _
  | free target => exact alongside_free? raw target _
  | printInt value => exact ⟨rfl, raw, rfl, rfl, rfl, rfl, rfl⟩
  | printDouble value => exact ⟨rfl, raw, rfl, rfl, rfl, rfl, rfl⟩
  | printString source =>
    exact alongside_bind raw _ fun text _ => ⟨rfl, raw, rfl, rfl, rfl, rfl, rfl⟩
  | allocString source =>
    refine alongside_bind raw name fun name named => alongside_bind raw _ fun text _ => ?_
    subst named
    rw [Manager.makeString_eq_assembled]
    refine alongside_build? raw free ?_ _
    rw [Op.texts?, string?_ofText, Option.map_some]
  | concatString first second =>
    refine alongside_bind raw name fun name named => alongside_bind raw _ fun a _ =>
      alongside_bind raw _ fun b _ => ?_
    subst named
    rw [Manager.concat_eq_assembled]
    refine alongside_build? raw free ?_ _
    rw [Op.texts?, string?_ofText, string?_ofText, Option.bind_some, Option.map_some]
  | compareString first second =>
    refine alongside_bind raw _ fun a _ => alongside_bind raw _ fun b _ => ?_
    simp only [Option.pure_def, library_ask, Session.through?, string?_ofText]
    exact ⟨rfl, raw, rfl, rfl, rfl, rfl, rfl⟩
  | debugMalloc size file line =>
    rw [call?, Call.counterpart?]
    split
    · refine alongside_bind raw name fun name named => alongside_bind raw _ fun file _ => ?_
      subst named
      exact alongside_allocate raw free _ _
    · exact alongside_rejection raw
  | debugFree target file line =>
    rw [call?, Call.counterpart?]
    split
    · exact alongside_bind raw _ fun file _ => alongside_free? raw target _
    · exact alongside_rejection raw
  | printMemoryStats =>
    rw [call?, Call.counterpart?]
    split
    · exact ⟨rfl, raw, rfl, rfl, rfl, rfl, rfl⟩
    · exact alongside_rejection raw
  | release target => exact alongside_free? raw target _
  | write target offset bytes =>
    simp only [call?, Call.counterpart?, library_ask, Session.through?, Session.replace?,
      heap_session]
    cases found : p.heap.find? target with
    | none => exact alongside_rejection raw
    | some slot =>
      simp only [Option.bind_eq_bind, Option.bind_some]
      cases changed : slot.write? offset bytes with
      | none => exact alongside_rejection raw
      | some slot' =>
        obtain ⟨-, -, hslot⟩ := Slot.write?_eq_some.1 changed
        have held : slot'.kind = .raw := by rw [hslot]; exact raw target slot found
        exact ⟨rfl, raw.update target held, rfl, rfl, rfl, rfl, rfl⟩
  | read target offset length =>
    simp only [call?, Call.counterpart?, library_ask, Session.through?, heap_session]
    cases p.heap.find? target with
    | none => exact alongside_rejection raw
    | some slot =>
      simp only [Option.bind_eq_bind, Option.bind_some]
      cases slot.read? offset length with
      | none => exact alongside_rejection raw
      | some cells => exact ⟨rfl, raw, rfl, rfl, rfl, rfl, rfl⟩
  | isTracking => exact ⟨rfl, raw, rfl, rfl, rfl, rfl, rfl⟩

/-- **A statement and what the library does in its place are alongside.** -/
theorem alongside_perform (raw : p.heap.IsRaw) (s : Statement) :
    Alongside p (p.perform s) (p.session.libraryPerform p.debugFunctions s) := by
  rw [perform_eq_shown, statement?, Session.libraryPerform, heap_session]
  by_cases free : s.name.all p.heap.isFree = true
  · rw [if_pos free, if_pos free]
    exact alongside_call? raw free s.call
  · rw [if_neg free, if_neg free]
    exact alongside_rejection raw

end

/-! ## Runs -/

theorem run_alongside {p : Program} (raw : p.heap.IsRaw) (statements : List Statement) :
    (p.session.libraryRun p.debugFunctions statements).1 = (p.run statements).1.session ∧
      List.Forall₂ Entry.Agrees (p.run statements).2
        (p.session.libraryRun p.debugFunctions statements).2 := by
  induction statements generalizing p with
  | nil => exact ⟨rfl, .nil⟩
  | cons s rest ih =>
    obtain ⟨hsession, hraw, hfunctions, hagrees⟩ := alongside_perform raw s
    obtain ⟨hrest, hentries⟩ := ih hraw
    rw [hfunctions, ← hsession] at hrest hentries
    exact ⟨hrest, .cons hagrees hentries⟩

/-! ## Giving back -/

/-- What a call gives back leaves the heap and is recorded once, if it was in use. -/
theorem perform_of_givenBack? {p : Program} {a : Address} {call : Call}
    (used : a ∈ p.heap.addresses)
    (given : call.givenBack? p.debugFunctions p.heap = some a) :
    (p.perform ⟨call, none⟩).2.answer = some .done ∧
      (p.perform ⟨call, none⟩).1.heap = p.heap.erase a ∧
      (p.perform ⟨call, none⟩).2.ledger = p.manager.ledger?.map Ledger.recordRelease := by
  have htarget : call.target? p.debugFunctions p.heap = some (some a) :=
    Option.join_eq_some_iff.1 given
  have valid : isValid p.heap (some a) = true := by
    rw [isValid, Heap.isFree_eq_false_iff.2 used]
    rfl
  have hstatement : p.statement? ⟨call, none⟩ =
      some (p.returned (p.manager.release p.heap (some a) (call.location p.heap)) .done) := by
    have hcall : p.statement? ⟨call, none⟩ = p.call? none call := rfl
    rw [hcall, call?_of_target? htarget, free?, if_pos valid]
  rw [perform_eq_shown, hstatement, Manager.release_some]
  refine ⟨rfl, rfl, ?_⟩
  change (p.manager.allocator.released a _).1.ledger? = p.manager.allocator.ledger?.map _
  cases p.manager.allocator <;> rfl

/-- What a statement is given is in use. -/
theorem mem_addresses_of_made {p : Program} {s : Statement}
    (made : (p.perform s).2.answer = some .pointer ∨
      ∃ bytes, (p.perform s).2.answer = some (.text bytes)) :
    ∃ name, s.name = some name ∧ name ∈ (p.perform s).1.heap.addresses := by
  obtain hperform | ⟨r, effect, hperform⟩ := p.perform_cases s
  · rw [hperform] at made
    obtain h | ⟨_, h⟩ := made <;> cases h
  rw [hperform] at made ⊢
  cases effect with
  | make named => exact ⟨_, named, List.mem_cons_self⟩
  | refuse => obtain h | ⟨_, h⟩ := made <;> cases h
  | giveBack => obtain h | ⟨_, h⟩ := made <;> cases h
  | write => obtain h | ⟨_, h⟩ := made <;> cases h
  | report => obtain h | ⟨_, h⟩ := made <;> cases h
  | still asked given silent nothing =>
    obtain h | ⟨bytes, h⟩ := made
    · exact absurd (Option.some.inj h) nothing.1
    · exact absurd (Option.some.inj h) (nothing.2 bytes)

/-- **A program that uses the C interface does what the library does**, on any base, with any value of
the variable, with the debugging functions or without. Every statement shows what the library call in
its place shows, up to locations, and both leave the same memory and the same ledger. What a
statement is given is in use, whether a block or a string, and any of the calls that give memory
back takes whatever is in use. -/
theorem library_runs_alongside (base : Base) (default : Configuration) (value? : Option Bytes)
    (statements : List Statement) :
    let library := Session.libraryRun default.debugMemory
      ⟨[], [(Manager.ofVariable base default value?).1]⟩ statements
    let program := (start base default value?).1.run statements
    List.Forall₂ Entry.Agrees program.2 library.2 ∧
      library.1.heap = program.1.heap ∧ library.1.managers = [program.1.manager] ∧
      (∀ s, ((program.1.perform s).2.answer = some .pointer ∨
          ∃ bytes, (program.1.perform s).2.answer = some (.text bytes)) →
        ∃ name, s.name = some name ∧ name ∈ (program.1.perform s).1.heap.addresses) ∧
      ∀ a ∈ program.1.heap.addresses, ∀ call : Call,
        call.givenBack? program.1.debugFunctions program.1.heap = some a →
          (program.1.perform ⟨call, none⟩).2.answer = some .done ∧
          (program.1.perform ⟨call, none⟩).1.heap = program.1.heap.erase a ∧
          (program.1.perform ⟨call, none⟩).2.ledger =
            program.1.manager.ledger?.map Ledger.recordRelease := by
  intro library program
  have raw : (start base default value?).1.heap.IsRaw := fun _ _ found => by cases found
  obtain ⟨hsession, hentries⟩ := run_alongside raw statements
  have hlibrary : library.1 = program.1.session := hsession
  refine ⟨hentries, ?_, ?_, fun s made => mem_addresses_of_made made,
    fun a used call given => perform_of_givenBack? used given⟩
  · rw [hlibrary, heap_session]
  · rw [hlibrary]
    rfl

/-- On a base that has memory for three bytes, a string is made by one call and given back by another, a
longer one is null between them, and the ledger is balanced again. -/
theorem library_runs_alongside_string :
    let base := Base.unbounded.limited 3
    let statements : List Statement :=
      [⟨.allocString (.text ⟨[104, 105], by decide, by decide⟩), some ⟨"a"⟩⟩,
        ⟨.allocString (.text ⟨[104, 105, 33], by decide, by decide⟩), some ⟨"b"⟩⟩]
    let p := ((start base ⟨true⟩ none).1.run statements).1
    (∃ entry entry', ((start base ⟨true⟩ none).1.run statements).2[1]? = some entry ∧
        entry.answer = some .null ∧ entry.Agrees entry') ∧
      (p.perform ⟨.free (some ⟨"a"⟩), none⟩).2.ledger = some ⟨3, 0⟩ := by
  intro base statements p
  obtain ⟨agrees, -, -, -, given⟩ := library_runs_alongside base ⟨true⟩ none statements
  obtain ⟨-, -, hledger⟩ := given ⟨"a"⟩ (by decide) (.free (some ⟨"a"⟩)) rfl
  refine ⟨?_, ?_⟩
  · obtain _ | ⟨-, _ | ⟨refused, -⟩⟩ := agrees
    exact ⟨_, _, rfl, rfl, refused⟩
  · rw [hledger]
    decide

end Program

end TrackedHeap
