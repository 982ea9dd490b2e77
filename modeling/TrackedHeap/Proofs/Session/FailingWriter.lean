import TrackedHeap.Proofs.Session.Diagnostics
import TrackedHeap.Proofs.Session.Parallel

/-!
# Writers that fail

A writer that fails loses whole lines, and nothing else is changed by that.

* `Step.isOperation`, `operations` : all steps but those that make a writer fail or work again;
* `Session.steady` : the session with writers that work;
* `Entry.written works entry` : an entry with its lines, or without them;
* `perform_steady`, `perform_setFailing` : an operation does the same in the steady session, lines
  apart, and the other steps leave the steady session as it is;
* `heard` : during which operations the sink of the manager works;
* `shown_steady` : a run shows what the steady run of its operations shows, with the lines that are
  heard;
* `run_start_unheard` : two runs of the same operations differ in their lines alone, and each has
  those of the steady run that are heard.
-/

namespace TrackedHeap

/-! ## Writers that work -/

def Op.redirects : Op → Bool
  | .setFailing _ => true
  | _ => false

theorem Op.redirects_eq_true {op : Op} (h : op.redirects = true) :
    ∃ failing, op = .setFailing failing := by
  cases op with
  | setFailing failing => exact ⟨failing, rfl⟩
  | _ => cases h

/-- The same sink, working. -/
def Sink.steady : Sink → Sink
  | standardError => standardError
  | writer _ => writer false

theorem Sink.isWriter_steady (sink : Sink) : sink.steady.isWriter = sink.isWriter := by
  cases sink <;> rfl

theorem Sink.pass_steady (sink : Sink) (t : Trail) : sink.steady.pass t = t := by
  cases sink <;> rfl

/-- The manager with its sink working. -/
def Manager.steady (m : Manager) : Manager :=
  { m with sink := m.sink.steady }

def Setup.steady (p : Setup) : Setup :=
  { p with sink := p.sink.steady }

namespace Session

/-- The session with all sinks working. -/
def steady (s : Session) : Session :=
  s.mapManagers Manager.steady

theorem steady_start (setups : List Setup) :
    (start setups).steady = start (setups.map Setup.steady) := by
  simp only [steady, mapManagers, start, List.map_map]
  rfl

theorem ledger?_steady (s : Session) (i : Nat) : s.steady.ledger? i = s.ledger? i := by
  rw [ledger?, ledger?, steady, getElem?_mapManagers]
  cases s.managers[i]? <;> rfl

theorem steady_set (s : Session) (heap : Heap) (i : Nat) (m : Manager) (a : Allocator) :
    steady ⟨heap, s.managers.set i { m with allocator := a }⟩ =
      ⟨heap, s.steady.managers.set i { m.steady with allocator := a }⟩ :=
  mapManagers_set Manager.steady heap s.managers i _

/-- Whether the sink of the manager at an index works. -/
def works (s : Session) (i : Nat) : Bool :=
  s.managers[i]?.any fun m => m.sink.isWorking

/-- A step that is no change of a writer. -/
def Step.isOperation (step : Step) : Bool :=
  !step.op.redirects

def operations (steps : List Step) : List Step :=
  steps.filter Step.isOperation

/-- An entry with its lines when the sink works, and without them when it fails. -/
def Entry.written (works : Bool) (entry : Entry) : Entry :=
  { entry with trail := if works then entry.trail else entry.trail.unheard }

theorem Entry.written_written (works works' : Bool) (entry : Entry) :
    (entry.written works).written works' = entry.written (works && works') := by
  cases works <;> cases works' <;> rfl

theorem Entry.written_of_no_lines {entry : Entry} (silent : entry.trail.lines = [])
    (works : Bool) : entry.written works = entry := by
  obtain ⟨reply, ⟨events, lines⟩, ledger⟩ := entry
  obtain rfl : lines = [] := silent
  cases works <;> rfl

/-! ## Steps -/

variable {step : Step}

/-- A sink passes what the working sink passes, less the lines when it fails. -/
theorem written_pass (s : Session) {m : Manager} {i : Nat} (manager : s.managers[i]? = some m)
    (reply : Option Reply) (t : Trail) (ledger : Option Ledger) :
    (⟨reply, m.sink.pass t, ledger⟩ : Entry) =
      Entry.written (s.works i) ⟨reply, m.sink.steady.pass t, ledger⟩ := by
  have hworks : s.works i = m.sink.isWorking := by
    rw [works, manager, Option.any_some]
  rw [Sink.pass_steady, hworks]
  rfl

/-- **An operation does the same whether or not the writer works**, lines apart. -/
theorem perform_steady (s : Session) (operation : step.isOperation = true) :
    (s.perform step).1.steady = (s.steady.perform step).1 ∧
      (s.perform step).2 = (s.steady.perform step).2.written (s.works step.index) := by
  obtain ⟨hs, ht⟩ | ⟨m, o, o', manager, parallel, hs, ht⟩ :=
    perform_mapManagers Manager.steady (fun _ => rfl) (fun m => m.sink.isWriter_steady.symm) s step
  · have ht : s.steady.perform step = (s.steady, s.steady.rejection step.index) := ht
    rw [hs, ht, rejection, rejection, ledger?_steady, Entry.written_of_no_lines rfl]
    exact ⟨rfl, rfl⟩
  -- The outcomes are the same but for the sink that the record passes.
  have same : o'.session = o.session.steady ∧ o'.reply = o.reply ∧
      ∃ t, o.trail = m.sink.pass t ∧ o'.trail = m.sink.steady.pass t := by
    have silent : ∀ sink : Sink, ∀ events, Trail.ofEvents events = sink.pass (.ofEvents events) :=
      fun sink _ => (Sink.pass_eq_self rfl sink).symm
    cases parallel with
    | make granted granted' =>
      obtain ⟨rfl, rfl⟩ := granted.unique granted'
      exact ⟨(steady_set s _ _ m _).symm, rfl, _, rfl, rfl⟩
    | giveBack a => exact ⟨(steady_set s _ _ m _).symm, rfl, _, rfl, rfl⟩
    | hold a slot reply => exact ⟨rfl, rfl, .empty, silent _ [], silent _ []⟩
    | redirect failing redirects =>
      rw [Step.isOperation, redirects] at operation
      cases operation
    | still reply => exact ⟨rfl, rfl, _, silent _ _, silent _ _⟩
    | tell reads told => exact ⟨rfl, (told rfl).symm, .empty, silent _ [], silent _ []⟩
    | report => exact ⟨rfl, rfl, _, Allocator.report_eq_pass _ _, Allocator.report_eq_pass _ _⟩
  obtain ⟨hsession, hreply, t, htrail, htrail'⟩ := same
  have ht : s.steady.perform step = _ := ht
  rw [hs, ht, hsession, hreply, htrail, htrail', ledger?_steady]
  exact ⟨rfl, written_pass s manager _ t _⟩

/-- **A change of a writer leaves nothing on record**, and the steady session as it is. -/
theorem perform_setFailing (s : Session) (redirects : step.isOperation = false) :
    (s.perform step).1.steady = s.steady ∧ (s.perform step).2.trail = .empty := by
  have hredirects : step.op.redirects = true := by
    simpa only [Step.isOperation, Bool.not_eq_false'] using redirects
  obtain ⟨failing, hop⟩ := Op.redirects_eq_true hredirects
  cases manager : s.managers[step.index]? with
  | none =>
    rw [perform_of_no_manager manager]
    exact ⟨rfl, rfl⟩
  | some m =>
    obtain ⟨hindex, hm⟩ := List.getElem?_eq_some_iff.1 manager
    have kept : ∀ failing', m.sink = .writer failing' →
        steady ⟨s.heap, s.managers.set step.index { m with sink := .writer failing }⟩ = s.steady := by
      intro failing' hsink
      have hsteady : ({ m with sink := .writer failing } : Manager).steady = m.steady := by
        simp only [Manager.steady, Sink.steady, hsink]
      rw [steady, mapManagers_set, hsteady, ← hm, ← List.map_set, List.set_getElem_self]
      rfl
    by_cases free : step.name.all s.heap.isFree = true
    · rw [perform, step?, if_pos free, operate?, manager, Option.bind_eq_bind, Option.bind_some, hop,
        through?]
      cases hsink : m.sink with
      | standardError => exact ⟨rfl, rfl⟩
      | writer failing' => exact ⟨kept failing' hsink, rfl⟩
    · rw [perform, step?, if_neg free]
      exact ⟨rfl, rfl⟩

/-! ## Runs -/

/-- Whether the sinks of their managers work, during the operations that are looked at. -/
def heard (s : Session) (looked : Step → Bool) : List Step → List Bool
  | [] => []
  | step :: rest =>
    let later := (s.perform step).1.heard looked rest
    if looked step && step.isOperation then s.works step.index :: later else later

theorem operations_cons_of_pos (operation : step.isOperation = true) (rest : List Step) :
    operations (step :: rest) = step :: operations rest :=
  List.filter_cons_of_pos operation

theorem operations_cons_of_neg (redirects : step.isOperation = false) (rest : List Step) :
    operations (step :: rest) = operations rest :=
  List.filter_cons_of_neg (Bool.eq_false_iff.1 redirects)

/-- A run reaches what the steady run of its operations reaches. -/
theorem steady_run (s : Session) (steps : List Step) :
    (s.run steps).1.steady = (s.steady.run (operations steps)).1 := by
  induction steps generalizing s with
  | nil => rfl
  | cons step rest ih =>
    rw [run_cons, ih]
    cases h : step.isOperation with
    | true => rw [(perform_steady s h).1, operations_cons_of_pos h, run_cons]
    | false => rw [(perform_setFailing s h).1, operations_cons_of_neg h]

/-- **A run shows what the steady run of its operations shows**, with the lines of the operations
during which the sink works. -/
theorem shown_steady (s : Session) (looked : Step → Bool) (steps : List Step) :
    s.shown (fun step => looked step && step.isOperation) steps =
        List.zipWith Entry.written (s.heard looked steps)
          (s.steady.shown looked (operations steps)) ∧
      (s.heard looked steps).length = (s.steady.shown looked (operations steps)).length := by
  induction steps generalizing s with
  | nil => exact ⟨rfl, rfl⟩
  | cons step rest ih =>
    obtain ⟨hshown, hlength⟩ := ih (s.perform step).1
    cases operation : step.isOperation with
    | true =>
      obtain ⟨hsteady, hentry⟩ := perform_steady s operation
      rw [hsteady] at hshown hlength
      rw [operations_cons_of_pos operation, heard]
      cases h : looked step with
      | true =>
        rw [shown_cons_of_pos _ h, shown_cons_of_pos _ (by rw [h, operation]; rfl), operation, hshown,
          hentry]
        exact ⟨rfl, congrArg Nat.succ hlength⟩
      | false =>
        rw [shown_cons_of_neg _ h, shown_cons_of_neg _ (by rw [h]; rfl)]
        exact ⟨hshown, hlength⟩
    | false =>
      rw [(perform_setFailing s operation).1] at hshown hlength
      rw [operations_cons_of_neg operation, heard, operation, Bool.and_false,
        shown_cons_of_neg _ (by rw [operation, Bool.and_false])]
      exact ⟨hshown, hlength⟩

/-- What is on record of a run is on record of its operations. -/
theorem flatMap_shown_operations {α : Type} {part : Entry → List α}
    (silent : ∀ entry, entry.trail = .empty → part entry = []) (s : Session) (looked : Step → Bool)
    (steps : List Step) :
    (s.shown looked steps).flatMap part =
      (s.shown (fun step => looked step && step.isOperation) steps).flatMap part := by
  induction steps generalizing s with
  | nil => rfl
  | cons step rest ih =>
    cases h : looked step with
    | false => rw [shown_cons_of_neg s h, shown_cons_of_neg s (by rw [h]; rfl), ih]
    | true =>
      rw [shown_cons_of_pos s h, List.flatMap_cons]
      cases operation : step.isOperation with
      | true =>
        rw [shown_cons_of_pos s (by rw [h, operation]; rfl), List.flatMap_cons, ih]
      | false =>
        rw [shown_cons_of_neg s (by rw [operation, Bool.and_false]),
          silent _ (perform_setFailing s operation).2, List.nil_append, ih]

/-- Lines that are lost are lost whichever they are. -/
theorem map_written_zipWith {heard : List Bool} {entries : List Entry}
    (length : heard.length = entries.length) :
    (List.zipWith Entry.written heard entries).map (Entry.written false) =
      entries.map (Entry.written false) := by
  apply List.ext_getElem
  · simp [length]
  · intro k _ _
    simp only [List.getElem_map, List.getElem_zipWith, Entry.written_written, Bool.and_false]

/-- What a manager writes in a run is what it writes in the steady run of the operations, without the
lines of the operations during which the writer fails. -/
theorem diagnostics_steady (s : Session) (i : Nat) (steps : List Step) :
    s.diagnostics i steps =
      (List.zipWith Entry.written (s.heard (·.index = i) steps)
        (s.steady.shown (·.index = i) (operations steps))).flatMap fun entry => entry.trail.lines := by
  rw [diagnostics_eq_shown, ← (shown_steady s _ steps).1]
  exact flatMap_shown_operations (fun entry silent => by rw [silent]; rfl) s _ steps

/-- What operations show apart from lines does not depend on the writers. -/
theorem map_written_shown (s : Session) (steps : List Step) :
    (s.shown Step.isOperation steps).map (Entry.written false) =
      (s.steady.shown (fun _ => true) (operations steps)).map (Entry.written false) := by
  obtain ⟨hshown, hlength⟩ := shown_steady s (fun _ => true) steps
  rw [← map_written_zipWith hlength, ← hshown]
  rfl

/-- The events of a run do not depend on the writers. -/
theorem flatMap_events_run (s : Session) (steps : List Step) :
    ((s.run steps).2.flatMap fun entry => entry.trail.events) =
      ((s.shown Step.isOperation steps).map (Entry.written false)).flatMap
        fun entry => entry.trail.events := by
  rw [List.flatMap_map, ← shown_true]
  exact flatMap_shown_operations (fun entry silent => by rw [silent]; rfl) s _ steps

/-- Sessions that are the same but for their sinks have the same heap and the same layers. -/
theorem eq_of_steady_eq {s t : Session} (h : s.steady = t.steady) :
    s.heap = t.heap ∧ s.managers.map Manager.allocator = t.managers.map Manager.allocator := by
  have layers : ∀ u : Session,
      u.managers.map Manager.allocator = u.steady.managers.map Manager.allocator := by
    intro u
    rw [steady, mapManagers, List.map_map]
    rfl
  have heaps : s.steady.heap = t.steady.heap := by rw [h]
  refine ⟨heaps, ?_⟩
  rw [layers s, layers t, h]

/-- **A failing writer is invisible.** When two runs differ only in when writers fail, their
operations show the same replies, events and ledgers, and wherever both have done the same operations
they have reached the same memory and the same layers with the same ledgers. Each manager writes what
it writes in the run whose writers always work, less all lines of the operations during which its
writer fails. -/
theorem run_start_unheard (setups : List Setup) (steps steps' : List Step)
    (same : operations steps = operations steps') :
    let s := start setups
    let calm := start (setups.map Setup.steady)
    (s.shown Step.isOperation steps).map (Entry.written false) =
        (s.shown Step.isOperation steps').map (Entry.written false) ∧
      ((s.run steps).2.flatMap fun entry => entry.trail.events) =
        ((s.run steps').2.flatMap fun entry => entry.trail.events) ∧
      (∀ k k', operations (steps.take k) = operations (steps'.take k') →
        (s.run (steps.take k)).1.heap = (s.run (steps'.take k')).1.heap ∧
          (s.run (steps.take k)).1.managers.map Manager.allocator =
            (s.run (steps'.take k')).1.managers.map Manager.allocator) ∧
      ∀ i, s.diagnostics i steps =
        (List.zipWith Entry.written (s.heard (·.index = i) steps)
          (calm.shown (·.index = i) (operations steps))).flatMap fun entry => entry.trail.lines := by
  intro s calm
  have hentries : (s.shown Step.isOperation steps).map (Entry.written false) =
      (s.shown Step.isOperation steps').map (Entry.written false) := by
    rw [map_written_shown, map_written_shown, same]
  refine ⟨hentries, ?_, fun k k' reached => ?_, fun i => ?_⟩
  · rw [flatMap_events_run, flatMap_events_run, hentries]
  · apply eq_of_steady_eq
    rw [steady_run, steady_run, reached]
  · rw [diagnostics_steady, steady_start]

/-- Two schedules for an array that two layers record, a string and a release. -/
theorem run_start_unheard_twice :
    let setups : List Setup := [⟨.unbounded, 2, .writer false⟩]
    let fail : Step := ⟨0, .setFailing true, none⟩
    let recover : Step := ⟨0, .setFailing false, none⟩
    let array : Step := ⟨0, .allocate (.array 4 3) .result .caller, some ⟨"a"⟩⟩
    let string : Step := ⟨0, .makeString (.text ⟨[104, 105], by decide, by decide⟩), some ⟨"b"⟩⟩
    let release : Step := ⟨0, .release (some ⟨"a"⟩) .caller, none⟩
    let steps := [array, fail, string, recover, release]
    let steps' := [fail, array, string, release, recover]
    let s := start setups
    operations steps = operations steps' ∧
      (s.run steps).1.managers.map Manager.allocator =
        (s.run steps').1.managers.map Manager.allocator ∧
      s.diagnostics 0 steps =
        [.alloc 12 ⟨"a"⟩ .caller, .alloc 12 ⟨"a"⟩ .caller, .free ⟨"a"⟩ .caller,
          .free ⟨"a"⟩ .caller] ∧
      s.diagnostics 0 steps' = [] := by
  intro setups fail recover array string release steps steps' s
  have same : operations steps = operations steps' := rfl
  obtain ⟨-, -, reached, written⟩ := run_start_unheard setups steps steps' same
  obtain ⟨-, -, -, written'⟩ := run_start_unheard setups steps' steps same.symm
  refine ⟨same, (reached 5 5 rfl).2, ?_, ?_⟩
  · rw [written 0]
    rfl
  · rw [written' 0]
    rfl

end Session

end TrackedHeap
