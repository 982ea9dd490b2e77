import TrackedHeap.Session.Run

/-!
# Sessions from their start

* `Setup` : what a manager is made of, a base in a number of layers and a sink;
* `Session.start` : no memory in use, and a new manager for every setup;
* `length_run`, `getElem?_run` : a run shows one entry for each of its steps, the entry that the step
  shows in the state the steps before it have reached;
* `run_keeps` : what every step keeps, a run keeps;
* `shown` : what a run shows in some of its steps.
-/

namespace TrackedHeap

/-- What a manager is made of: a base, the number of layers around it, and the sink that these
share. -/
structure Setup where
  base : Base
  layers : Nat
  sink : Sink

def Setup.manager (p : Setup) : Manager :=
  .layered p.base p.layers p.sink

/-- The same base and sink without a layer. -/
def Setup.bare (p : Setup) : Setup :=
  { p with layers := 0 }

namespace Session

/-- A session before its first step: no memory in use, and new managers. -/
def start (setups : List Setup) : Session :=
  ⟨[], setups.map Setup.manager⟩

/-! ## Runs -/

theorem run_cons (s : Session) (step : Step) (rest : List Step) :
    s.run (step :: rest) =
      (((s.perform step).1.run rest).1,
        (s.perform step).2 :: ((s.perform step).1.run rest).2) := rfl

theorem length_run (s : Session) (steps : List Step) : (s.run steps).2.length = steps.length := by
  induction steps generalizing s with
  | nil => rfl
  | cons step rest ih => rw [run_cons, List.length_cons, ih, List.length_cons]

/-- The entry of a step is the one it shows after the steps before it. -/
theorem getElem?_run (s : Session) (steps : List Step) (k : Nat) :
    (s.run steps).2[k]? = steps[k]?.map fun step => ((s.run (steps.take k)).1.perform step).2 := by
  induction steps generalizing s k with
  | nil => simp [run]
  | cons step rest ih =>
    rw [run_cons]
    cases k with
    | zero => rfl
    | succ k =>
      rw [List.getElem?_cons_succ, List.getElem?_cons_succ, List.take_succ_cons, run_cons, ih]

theorem run_take_succ {s : Session} {steps : List Step} {k : Nat} {step : Step}
    (hstep : steps[k]? = some step) :
    (s.run (steps.take (k + 1))).1 = ((s.run (steps.take k)).1.perform step).1 := by
  rw [List.take_add_one, hstep, run_append]
  rfl

theorem perform_ledger (s : Session) (step : Step) :
    (s.perform step).2.ledger = (s.perform step).1.ledger? step.index := by
  rw [perform]
  split <;> rfl

/-- What every step keeps, a run keeps. -/
theorem run_keeps {P : Session → Prop} (keeps : ∀ s step, P s → P (s.perform step).1)
    {s : Session} (h : P s) (steps : List Step) : P (s.run steps).1 := by
  induction steps generalizing s with
  | nil => exact h
  | cons step rest ih => exact ih (keeps s step h)

/-! ## Some of the steps -/

/-- What a run shows in the steps that are looked at. -/
def shown (s : Session) (looked : Step → Bool) : List Step → List Entry
  | [] => []
  | step :: rest =>
    let (s', entry) := s.perform step
    if looked step then entry :: s'.shown looked rest else s'.shown looked rest

theorem shown_cons_of_pos (s : Session) {looked : Step → Bool} {step : Step}
    (h : looked step = true) (rest : List Step) :
    s.shown looked (step :: rest) = (s.perform step).2 :: (s.perform step).1.shown looked rest :=
  if_pos h

theorem shown_cons_of_neg (s : Session) {looked : Step → Bool} {step : Step}
    (h : looked step = false) (rest : List Step) :
    s.shown looked (step :: rest) = (s.perform step).1.shown looked rest :=
  if_neg (Bool.eq_false_iff.1 h)

theorem shown_true (s : Session) (steps : List Step) :
    s.shown (fun _ => true) steps = (s.run steps).2 := by
  induction steps generalizing s with
  | nil => rfl
  | cons step rest ih => rw [shown_cons_of_pos s rfl, run_cons, ih]

/-- What a run shows is what its steps show. -/
theorem exists_of_mem_shown {s : Session} {looked : Step → Bool} {steps : List Step} {entry : Entry}
    (h : entry ∈ s.shown looked steps) : ∃ s' step, entry = (perform s' step).2 := by
  induction steps generalizing s with
  | nil => cases h
  | cons step rest ih =>
    cases hlooked : looked step with
    | true =>
      rw [shown_cons_of_pos s hlooked] at h
      obtain rfl | h := List.mem_cons.1 h
      · exact ⟨s, step, rfl⟩
      · exact ih h
    | false =>
      rw [shown_cons_of_neg s hlooked] at h
      exact ih h

theorem shown_append (s : Session) (looked : Step → Bool) (first second : List Step) :
    s.shown looked (first ++ second) =
      s.shown looked first ++ (s.run first).1.shown looked second := by
  induction first generalizing s with
  | nil => rfl
  | cons step rest ih =>
    rw [List.cons_append, run_cons]
    cases h : looked step with
    | true => rw [shown_cons_of_pos s h, shown_cons_of_pos s h, ih, List.cons_append]
    | false => rw [shown_cons_of_neg s h, shown_cons_of_neg s h, ih]

end Session

end TrackedHeap
