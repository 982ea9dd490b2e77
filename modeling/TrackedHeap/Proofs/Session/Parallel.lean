import TrackedHeap.Proofs.Session.Effect
import TrackedHeap.Proofs.Session.Transparency

/-!
# Two sessions side by side

A step reads the memory at the addresses that it names and goes through one manager. Two sessions
that agree on these do the same in that step.

* `Operand.addresses`, `Op.addresses`, `Step.addresses` : the addresses that a step names;
* `Heap.AgreeOn` : two heaps with the same slots at some addresses;
* `Alike s t step m n` : sessions that agree where the step looks, with the managers `m` and `n` at
  its index, which may differ in their layers and in whether their writers fail;
* `Parallel s t step m n o o'` : the outcomes of one step in both, of one and the same kind;
* `perform_parallel` : a step applies in neither of two alike sessions or has parallel outcomes;
* `mapManagers`, `perform_mapManagers` : the session with all managers changed, in which a step does
  the same if the change keeps their bases and the kinds of their sinks;
* `find?_perform` : memory at an address that a step does not name stays as it is.
-/

namespace TrackedHeap

/-! ## Addresses -/

def Operand.addresses : Operand → List Address
  | held address => [address]
  | _ => []

/-- The addresses at which an operation looks. -/
def Op.addresses : Op → List Address
  | .release target _ => target.toList
  | .makeString source => source.addresses
  | .concat first second => first.addresses ++ second.addresses
  | .compare first second => first.addresses ++ second.addresses
  | .describe target => [target]
  | .releaseString target => [target]
  | .intoRaw target => [target]
  | .rawToBlock target => [target]
  | .rawToString target => [target]
  | .write target _ _ => [target]
  | .read target _ _ => [target]
  | .size target => [target]
  | .distinct first second => [first, second]
  | _ => []

/-- The addresses that a step names, the one for what it makes included. -/
def Session.Step.addresses (step : Session.Step) : List Address :=
  step.name.toList ++ step.op.addresses

/-- Two heaps have the same slots at some addresses. -/
def Heap.AgreeOn (used : List Address) (h h' : Heap) : Prop :=
  ∀ a ∈ used, h.find? a = h'.find? a

namespace Heap.AgreeOn
variable {used used' : List Address} {h h' : Heap} {a : Address}

theorem mono (agree : AgreeOn used h h') (sub : ∀ a ∈ used', a ∈ used) : AgreeOn used' h h' :=
  fun a ha => agree a (sub a ha)

theorem left (agree : AgreeOn (used ++ used') h h') : AgreeOn used h h' :=
  agree.mono fun _ => List.mem_append_left used'

theorem right (agree : AgreeOn (used ++ used') h h') : AgreeOn used' h h' :=
  agree.mono fun _ => List.mem_append_right used

theorem find?_eq (agree : AgreeOn [a] h h') : h.find? a = h'.find? a :=
  agree a List.mem_cons_self

theorem insert (agree : AgreeOn used h h') (a : Address) (slot : Slot) :
    AgreeOn used (h.insert a slot) (h'.insert a slot) := by
  intro b hb
  by_cases hba : b = a
  · rw [hba, find?_insert_self, find?_insert_self]
  · rw [find?_insert_of_ne _ _ hba, find?_insert_of_ne _ _ hba, agree b hb]

theorem erase (agree : AgreeOn used h h') (a : Address) :
    AgreeOn used (h.erase a) (h'.erase a) := by
  intro b hb
  by_cases hba : b = a
  · rw [hba, find?_erase_self, find?_erase_self]
  · rw [find?_erase_of_ne _ hba, find?_erase_of_ne _ hba, agree b hb]

theorem update (agree : AgreeOn used h h') (a : Address) (change : Slot → Slot) :
    AgreeOn used (h.update a change) (h'.update a change) := by
  intro b hb
  by_cases hba : b = a
  · subst hba
    rw [find?_update_self, find?_update_self, agree b hb]
  · rw [find?_update_of_ne _ _ hba, find?_update_of_ne _ _ hba, agree b hb]

theorem string?_eq {operand : Operand} (agree : AgreeOn operand.addresses h h') :
    operand.string? h = operand.string? h' := by
  unfold Operand.string? Operand.resolve?
  cases operand with
  | absent => rfl
  | text t => rfl
  | held a => simp only [agree.find?_eq]

theorem isReleasable_eq {target : Option Address} (agree : AgreeOn target.toList h h') :
    Session.isReleasable h target = Session.isReleasable h' target := by
  unfold Session.isReleasable
  cases target with
  | none => rfl
  | some a => simp only [agree.find?_eq]

theorem view?_eq (agree : AgreeOn [a] h h') : Session.view? h a = Session.view? h' a := by
  simp only [Session.view?, agree.find?_eq]

theorem isFree_eq {name : Option Address} (agree : AgreeOn name.toList h h') :
    name.all h.isFree = name.all h'.isFree := by
  cases name with
  | none => rfl
  | some a => simp only [Option.all_some, isFree, agree.find?_eq]

end Heap.AgreeOn

/-! ## Requests over one base -/

/-- What one base grants, all layers around it grant. -/
theorem Allocator.Granted.around {r : Request} {address : Address} {location : Location}
    {a a' b : Allocator} {t : Trail} (granted : Granted r address location a a' t)
    (base : a.core = b.core) : ∃ b' u, Granted r address location b b' u :=
  exists_granted (base ▸ granted.core_ok) address location

/-- Whether a sink is a writer of the caller's own. -/
def Sink.isWriter : Sink → Bool
  | standardError => false
  | writer _ => true

namespace Session

/-! ## Parallel outcomes -/

/-- Two sessions agree where a step looks: on the memory at its addresses, and on the base and the
kind of sink of the managers at its index. -/
structure Alike (s t : Session) (step : Step) (m n : Manager) : Prop where
  left : s.managers[step.index]? = some m
  right : t.managers[step.index]? = some n
  heap : Heap.AgreeOn step.addresses s.heap t.heap
  base : m.allocator.core = n.allocator.core
  sink : m.sink.isWriter = n.sink.isWriter

/-- The session with every manager changed, over the same heap. -/
def mapManagers (g : Manager → Manager) (s : Session) : Session :=
  ⟨s.heap, s.managers.map g⟩

theorem getElem?_mapManagers (g : Manager → Manager) (s : Session) (i : Nat) :
    (s.mapManagers g).managers[i]? = s.managers[i]?.map g :=
  List.getElem?_map

theorem mapManagers_set (g : Manager → Manager) (heap : Heap) (managers : List Manager) (i : Nat)
    (m : Manager) :
    mapManagers g ⟨heap, managers.set i m⟩ = ⟨heap, (managers.map g).set i (g m)⟩ :=
  congrArg (Session.mk heap) List.map_set

/-- The outcomes of one step in two alike sessions. -/
inductive Parallel (s t : Session) (step : Step) (m n : Manager) : Outcome → Outcome → Prop
  | make {name : Address} {r : Request} {slot : Slot} {reply : Reply} {a a' : Allocator}
      {u u' : Trail} (granted : Allocator.Granted r name step.op.location m.allocator a u)
      (granted' : Allocator.Granted r name step.op.location n.allocator a' u') :
    Parallel s t step m n
      ⟨⟨s.heap.insert name slot, s.managers.set step.index { m with allocator := a }⟩, reply,
        m.sink.pass u⟩
      ⟨⟨t.heap.insert name slot, t.managers.set step.index { n with allocator := a' }⟩, reply,
        n.sink.pass u'⟩
  | giveBack (a : Address) :
    Parallel s t step m n
      ⟨⟨s.heap.erase a, s.managers.set step.index
          { m with allocator := (m.allocator.released a step.op.location).1 }⟩, .done,
        m.sink.pass (m.allocator.released a step.op.location).2⟩
      ⟨⟨t.heap.erase a, t.managers.set step.index
          { n with allocator := (n.allocator.released a step.op.location).1 }⟩, .done,
        n.sink.pass (n.allocator.released a step.op.location).2⟩
  | hold (a : Address) (slot : Slot) (reply : Reply) :
    Parallel s t step m n
      ⟨{ s with heap := s.heap.update a fun _ => slot }, reply, .empty⟩
      ⟨{ t with heap := t.heap.update a fun _ => slot }, reply, .empty⟩
  | redirect (failing : Bool) (redirects : step.op = .setFailing failing) :
    Parallel s t step m n
      ⟨{ s with managers := s.managers.set step.index { m with sink := .writer failing } }, .done,
        .empty⟩
      ⟨{ t with managers := t.managers.set step.index { n with sink := .writer failing } }, .done,
        .empty⟩
  /-- Nothing changes, and both are told the same. -/
  | still (reply : Reply) {events : List Event} (quiet : ∀ e ∈ events, e.isOfLayer = false) :
    Parallel s t step m n ⟨s, reply, .ofEvents events⟩ ⟨t, reply, .ofEvents events⟩
  /-- The reply tells of the ledger. -/
  | tell {reply reply' : Reply} (reads : step.op.readsLedger = true)
      (told : m.ledger? = n.ledger? → reply = reply') :
    Parallel s t step m n ⟨s, reply, .empty⟩ ⟨t, reply', .empty⟩
  | report : Parallel s t step m n ⟨s, .done, m.report⟩ ⟨t, .done, n.report⟩

/-- An operation applies in neither of two sessions, or has parallel outcomes. -/
abbrev Together (s t : Session) (step : Step) (m n : Manager) (o o' : Option Outcome) : Prop :=
  Option.Rel (Parallel s t step m n) o o'

section
variable {s t : Session} {step : Step} {m n : Manager}

/-- What changes nothing and records nothing. -/
theorem parallel_answer (reply : Reply) : Parallel s t step m n (s.answer reply) (t.answer reply) :=
  .still reply fun _ h => absurd h List.not_mem_nil

/-- Both look the same thing up, and go on with what they find. -/
theorem together_bind {α : Type} (found? : Option α) {next next' : α → Option Outcome}
    (goOn : ∀ found, found? = some found → Together s t step m n (next found) (next' found)) :
    Together s t step m n (found? >>= next) (found? >>= next') := by
  cases found? with
  | none => exact .none
  | some found => exact goOn found rfl

variable (alike : Alike s t step m n)
include alike

theorem parallel_allocate {request : Request} {form : Form} {location : Location} {name : Address}
    (op : step.op = .allocate request form location) :
    Parallel s t step m n (s.allocate step.index m request form location name)
      (t.allocate step.index n request form location name) := by
  have hlocation : step.op.location = location := by rw [op]; rfl
  obtain ⟨a, u, granted⟩ | ⟨e, refused⟩ := m.allocator.granted_or_refused request name location
  · obtain ⟨a', u', granted'⟩ := granted.around alike.base
    rw [allocate_of_granted form granted, allocate_of_granted form granted']
    rw [← hlocation] at granted granted'
    exact .make granted granted'
  · rw [allocate_of_refused form alike.left refused,
      allocate_of_refused form alike.right (alike.base ▸ refused)]
    cases form with
    | option =>
      refine .still .absent fun e' he => ?_
      rw [List.mem_singleton.1 he]
      exact Manager.isOfLayer_refusal request e
    | result => exact .still (.refused e) fun _ h => absurd h List.not_mem_nil

/-- Joining the same texts makes the same string, is refused in both, or finds no text. -/
theorem together_build? {parts : List CText} {name : Address}
    (texts : step.op.texts? s.heap = some parts) (named : step.name = some name)
    (free : s.heap.isFree name = true) :
    Together s t step m n
      (s.build? step.index name (m.assembled s.heap parts name .caller))
      (t.build? step.index name (n.assembled t.heap parts name .caller)) := by
  have fits := Op.fits_of_texts? texts
  have hlocation := Op.location_of_texts? texts
  have free' : t.heap.isFree name = true := by
    have hname : name ∈ step.addresses := by
      rw [Step.addresses, named]
      exact List.mem_append_left _ List.mem_cons_self
    rw [Heap.isFree, ← alike.heap name hname]
    exact free
  by_cases hparts : parts = []
  · rw [hparts, build?_nil alike.left, build?_nil alike.right]
    exact .some (parallel_answer .absent)
  obtain ⟨a, u, granted⟩ | ⟨e, refused⟩ :=
    m.allocator.granted_or_refused (.block (totalLength parts + 1)) name .caller
  · obtain ⟨a', u', granted'⟩ := granted.around alike.base
    rw [build?_of_granted free hparts fits granted, build?_of_granted free' hparts fits granted']
    rw [← hlocation] at granted granted'
    exact .some (.make granted granted')
  · rw [build?_of_refused alike.left hparts refused,
      build?_of_refused alike.right hparts (alike.base ▸ refused)]
    exact .some (.still (.refused e) fun _ h => absurd h List.not_mem_nil)

/-- **An operation does the same in two alike sessions.** -/
theorem together_through? (free : step.name.all s.heap.isFree = true) :
    Together s t step m n (s.through? step.index m step.name step.op)
      (t.through? step.index n step.name step.op) := by
  have agree := alike.heap.right
  obtain ⟨index, op, name⟩ := step
  dsimp only at agree free ⊢
  cases op with
  | allocate request form location =>
    exact together_bind name fun name _ => .some (parallel_allocate alike rfl)
  | release target location =>
    rw [through?, through?, agree.isReleasable_eq]
    split
    · cases target with
      | none =>
        rw [release, release, Manager.release_none, Manager.release_none, after_self alike.left,
          after_self alike.right]
        exact .some (parallel_answer .done)
      | some a =>
        rw [release, release, Manager.release_some, Manager.release_some]
        exact .some (.giveBack a)
    · exact .none
  | makeString source =>
    rw [through?, through?, ← agree.string?_eq]
    refine together_bind name fun name named => together_bind _ fun text hsource => ?_
    subst named
    rw [Manager.makeString_eq_assembled, Manager.makeString_eq_assembled]
    exact together_build? alike (congrArg (Option.map Option.toList) hsource) rfl free
  | concat first second =>
    rw [through?, through?, ← agree.left.string?_eq, ← agree.right.string?_eq]
    refine together_bind name fun name named => together_bind _ fun a hfirst =>
      together_bind _ fun b hsecond => ?_
    subst named
    rw [Manager.concat_eq_assembled, Manager.concat_eq_assembled]
    refine together_build? alike ?_ rfl free
    rw [Op.texts?, hfirst, hsecond]
    rfl
  | compare first second =>
    rw [through?, through?, agree.left.string?_eq, agree.right.string?_eq]
    exact together_bind _ fun a _ => together_bind _ fun b _ => .some (parallel_answer _)
  | describe target =>
    rw [through?, through?, agree.view?_eq]
    exact together_bind _ fun view _ => .some (parallel_answer _)
  | releaseString target =>
    rw [through?, through?, agree.find?_eq]
    refine together_bind _ fun slot _ => ?_
    split
    · rw [release, release, Manager.release_some, Manager.release_some]
      exact .some (.giveBack target)
    · exact .none
  | intoRaw target =>
    rw [through?, through?, agree.find?_eq]
    cases hslot : t.heap.find? target with
    | none => exact .none
    | some slot =>
      rw [Option.bind_some]
      rcases slot.toRaw? with _ | slot'
      · exact .none
      have kept : ∀ h : Heap, h.find? target = some slot →
          ((h.update target fun _ => slot').find? target).isSome = true := by
        intro h found
        rw [Heap.find?_update_of_found found slot', Option.isSome_some]
      have hkept := kept s.heap (agree.find?_eq.trans hslot)
      have hkept' := kept t.heap hslot
      simp only [replace?, Option.map_some, Option.bind_eq_bind, Option.bind_some, hkept, hkept']
      exact .some (.hold _ _ _)
  | rawToBlock target =>
    have hblock : s.heap.blockOf? (some target) = t.heap.blockOf? (some target) := by
      simp only [Heap.blockOf?, Option.bind_some, agree.find?_eq]
    rw [through?, through?, hblock]
    rcases t.heap.blockOf? (some target) with _ | slot
    · exact .none
    · exact .some (.hold _ _ _)
  | rawToString target =>
    have hstring : s.heap.stringOf? (some target) = t.heap.stringOf? (some target) := by
      simp only [Heap.stringOf?, Option.bind_some, agree.find?_eq]
    rw [through?, through?, hstring]
    rcases t.heap.stringOf? (some target) with _ | slot
    · exact .none
    simp only [replace?, Option.map_some, Option.bind_eq_bind, Option.bind_some,
      (agree.update target fun _ => slot).view?_eq]
    exact together_bind _ fun view _ => .some (.hold _ _ _)
  | convertNull => exact .some (parallel_answer _)
  | write target offset bytes =>
    rw [through?, through?, agree.find?_eq]
    rcases (t.heap.find? target).bind (·.write? offset bytes) with _ | slot
    · exact .none
    · exact .some (.hold _ _ _)
  | read target offset length =>
    rw [through?, through?, agree.find?_eq]
    exact together_bind _ fun slot _ => together_bind _ fun cells _ => .some (parallel_answer _)
  | size target =>
    rw [through?, through?, agree.find?_eq]
    exact together_bind _ fun slot _ => .some (parallel_answer _)
  | distinct first second =>
    have hfirst : s.heap.find? first = t.heap.find? first := agree _ List.mem_cons_self
    have hsecond : s.heap.find? second = t.heap.find? second :=
      agree _ (List.mem_cons_of_mem _ List.mem_cons_self)
    rw [through?, through?, hfirst, hsecond]
    exact together_bind _ fun a _ => together_bind _ fun b _ => .some (parallel_answer _)
  | ledger => exact .some (.tell rfl (congrArg Reply.ledger))
  | report => exact .some .report
  | isTracking =>
    exact .some (.tell rfl (congrArg fun ledger : Option Ledger => Reply.flag ledger.isSome))
  | describeManager =>
    refine .some (.tell rfl fun told => ?_)
    rw [Manager.fields, Manager.fields, told]
  | setFailing failing =>
    have hsink := alike.sink
    rw [through?, through?]
    rcases hm : m.sink with _ | _ <;> rcases hn : n.sink with _ | _ <;> rw [hm, hn] at hsink
    · exact .none
    · cases hsink
    · cases hsink
    · exact .some (.redirect failing rfl)

/-- A step applies in neither of two alike sessions, or has parallel outcomes. -/
theorem together_step? : Together s t step m n (s.step? step) (t.step? step) := by
  unfold step? operate?
  rw [alike.left, alike.right, ← alike.heap.left.isFree_eq]
  split <;> rename_i free
  · exact together_through? alike free
  · exact .none

/-- **Two alike sessions do the same in a step**, or both do nothing. -/
theorem perform_parallel :
    (s.perform step = (s, s.rejection step.index) ∧ t.perform step = (t, t.rejection step.index)) ∨
      ∃ o o', Parallel s t step m n o o' ∧
        s.perform step = (o.session, ⟨some o.reply, o.trail, o.session.ledger? step.index⟩) ∧
        t.perform step = (o'.session, ⟨some o'.reply, o'.trail, o'.session.ledger? step.index⟩) := by
  have together := together_step? alike
  unfold perform
  rcases hs : s.step? step with _ | o <;> rcases ht : t.step? step with _ | o' <;>
    rw [hs, ht] at together
  · exact .inl ⟨rfl, rfl⟩
  · cases together
  · cases together
  · obtain _ | parallel := together
    exact .inr ⟨o, o', ‹_›, rfl, rfl⟩

end

/-! ## Managers changed -/

/-- Nothing is done through a manager that is not there. -/
theorem perform_of_no_manager {s : Session} {step : Step}
    (none : s.managers[step.index]? = none) : s.perform step = (s, s.rejection step.index) := by
  have hstep : s.step? step = .none := by
    unfold step? operate?
    rw [none]
    split <;> rfl
  rw [perform, hstep]

/-- A step does the same when all managers are changed, or it does nothing at all. -/
theorem perform_mapManagers (g : Manager → Manager)
    (base : ∀ m, m.allocator.core = (g m).allocator.core)
    (sink : ∀ m, m.sink.isWriter = (g m).sink.isWriter) (s : Session) (step : Step) :
    (s.perform step = (s, s.rejection step.index) ∧
        (s.mapManagers g).perform step =
          (s.mapManagers g, (s.mapManagers g).rejection step.index)) ∨
      ∃ m o o', s.managers[step.index]? = some m ∧ Parallel s (s.mapManagers g) step m (g m) o o' ∧
        s.perform step = (o.session, ⟨some o.reply, o.trail, o.session.ledger? step.index⟩) ∧
        (s.mapManagers g).perform step =
          (o'.session, ⟨some o'.reply, o'.trail, o'.session.ledger? step.index⟩) := by
  have changed := getElem?_mapManagers g s step.index
  cases manager : s.managers[step.index]? with
  | none =>
    rw [manager, Option.map_none] at changed
    exact .inl ⟨perform_of_no_manager manager, perform_of_no_manager changed⟩
  | some m =>
    rw [manager, Option.map_some] at changed
    have alike : Alike s (s.mapManagers g) step m (g m) :=
      ⟨manager, changed, fun _ _ => rfl, base m, sink m⟩
    obtain nothing | ⟨o, o', parallel, hs, ht⟩ := perform_parallel alike
    · exact .inl nothing
    · exact .inr ⟨m, o, o', rfl, parallel, hs, ht⟩

/-! ## What a step leaves alone -/

theorem Held.address_mem {a : Address} {slot slot' : Slot} {op : Op} {reply : Reply}
    (held : Held a slot op slot' reply) : a ∈ op.addresses := by
  cases held <;> exact List.mem_cons_self

theorem mem_addresses_of_givenBack? {op : Op} {a : Address} (given : op.givenBack? = some a) :
    a ∈ op.addresses := by
  unfold Op.givenBack? at given
  split at given
  · rw [given]
    exact List.mem_cons_self
  · rw [← Option.some.inj given]
    exact List.mem_cons_self
  · cases given

/-- Memory at an address that a step does not name stays as it is. -/
theorem find?_perform (s : Session) {step : Step} {a : Address} (other : a ∉ step.addresses) :
    (s.perform step).1.heap.find? a = s.heap.find? a := by
  have hop : a ∉ step.op.addresses := fun h => other (List.mem_append_right _ h)
  obtain hperform | ⟨o, effect, hperform⟩ := s.perform_cases step <;> rw [hperform]
  cases effect with
  | @make _ name _ _ _ _ _ _ _ _ _ _ _ named =>
    have hne : a ≠ name := by
      rintro rfl
      rw [Step.addresses, named] at other
      exact other (List.mem_append_left _ List.mem_cons_self)
    exact Heap.find?_insert_of_ne s.heap _ hne
  | refuse => rfl
  | @giveBack _ b _ _ _ _ given =>
    have hne : a ≠ b := by
      rintro rfl
      exact hop (mem_addresses_of_givenBack? given)
    exact Heap.find?_erase_of_ne s.heap hne
  | @hold b _ _ _ _ _ _ held =>
    have hne : a ≠ b := by
      rintro rfl
      exact hop held.address_mem
    dsimp only
    exact Heap.find?_update_of_ne s.heap _ hne
  | redirect => rfl
  | still => rfl

end Session

end TrackedHeap
