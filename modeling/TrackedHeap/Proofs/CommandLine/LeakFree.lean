import TrackedHeap.Proofs.CommandLine.Effect
import TrackedHeap.Proofs.Tracking.Bare

/-!
# Commands leave no memory behind

* `Command.run_bare` : a command prints and ends alike with any layers and with none;
* `Command.account` : the diagnostic lines of a success, read off the arguments;
* `Command.Settled` : how a command ends whose memory is tracked or not: with no memory left, its
  ledger balanced, and on the console what the arguments and the base alone decide;
* `Invocation.execute_settled` : every command line ends so, unless its configuration is rejected,
  whatever the base refuses.
-/

namespace TrackedHeap.CommandLine

/-! ## Layers change nothing that is printed -/

/-- What a command leaves, without the layers and their record. -/
def Finished.bare (f : Finished) : Finished :=
  ⟨f.manager.bare, f.heap, f.printed, f.trail.bare, f.result⟩

namespace Command
variable (m : Manager) (heap : Heap)

theorem printed_bare (pieces : Output.Pieces) :
    printed m.bare heap pieces = (printed m heap pieces).bare := by
  rw [printed, printed, print_working]
  rfl

theorem printedHolding_bare (trail : Trail) (pieces : Output.Pieces) :
    printedHolding m.bare heap trail.bare pieces = (printedHolding m heap trail pieces).bare := by
  simp only [printedHolding, Manager.release_bare, print_working, Finished.bare, After.bare,
    Trail.bare_append]
  rfl

theorem runConcat_bare (a b : Option CText) :
    runConcat m.bare heap a b = (runConcat m heap a b).bare := by
  unfold runConcat
  rw [Manager.concat_bare]
  obtain ⟨value, m', heap', t⟩ := m.concat heap a b onlyAddress .caller
  cases value with
  | error e => rfl
  | ok made =>
    cases made with
    | none => rfl
    | some size => exact printedHolding_bare m' heap' t _

theorem runAlloc_bare (r : Request) : runAlloc m.bare heap r = (runAlloc m heap r).bare := by
  unfold runAlloc
  rw [Manager.request_bare]
  obtain ⟨value, m', heap', t⟩ := m.request heap r onlyAddress .caller
  cases value with
  | error e => rfl
  | ok => exact printedHolding_bare m' heap' t _

/-- **A command prints and ends alike with any layers and with none.** -/
theorem run_bare (command : Command) : command.run m.bare heap = (command.run m heap).bare := by
  cases command with
  | printInt value => exact printed_bare m heap (Output.intLine value)
  | printDouble value => exact printed_bare m heap (Output.doubleLine value)
  | printString value =>
    simp only [run]
    cases toText value with
    | error e => rfl
    | ok text => exact printed_bare m heap _
  | concat a b =>
    simp only [run]
    cases toText a with
    | error e => rfl
    | ok a =>
      cases toText b with
      | error e => rfl
      | ok b => exact runConcat_bare m heap a b
  | compare a b =>
    simp only [run]
    cases toText a with
    | error e => rfl
    | ok a =>
      cases toText b with
      | error e => rfl
      | ok b => exact printed_bare m heap _
  | alloc size count =>
    cases count with
    | none => exact runAlloc_bare m heap _
    | some count => exact runAlloc_bare m heap _

end Command

theorem Manager.bare_ofConfiguration (base : Base) (c : Configuration) :
    (Manager.ofConfiguration base c).bare = .plain base := by
  unfold Manager.ofConfiguration
  split <;> rfl

/-! ## How a command ends -/

/-- The diagnostic lines of a success when memory is tracked: an allocation and a release for the
bytes asked for, and the ledger at the end. -/
def Command.account (command : Command) : List Line :=
  match command.asked? with
  | none => [.stats .empty]
  | some bytes =>
    [.alloc (UInt64.ofNat bytes) onlyAddress .caller, .free onlyAddress .caller,
      .stats ⟨UInt64.ofNat bytes, 0⟩]

/-- How a command ends on a base whose memory is tracked or not. -/
structure Command.Settled (base : Base) (command : Command) (tracking : Bool) (report : Report)
    (left : Finished) : Prop where
  tracking_eq : report.tracking = some tracking
  released : left.heap = []
  balanced : ∀ l, left.manager.ledger? = some l → l.isBalanced = true
  failed : ∀ f, command.Fails base f → report.console = ⟨1, [], [], some ("Error: " ++ f.message)⟩
  succeeded : (∀ f, ¬ command.Fails base f) →
    report.console = ⟨0, left.printed, if tracking then command.account else [], none⟩
  /-- The bytes on record are exact. -/
  fits : (∀ f, ¬ command.Fails base f) → ∀ bytes, command.asked? = some bytes → bytes < 2 ^ 64

namespace Command

theorem isTracking_onHost (base : Base) (l : Ledger) (tracking : Bool) :
    (Manager.onHost base l tracking.toNat).isTracking = tracking := by
  cases tracking <;> rfl

/-- Layers with a balanced ledger show no other. -/
theorem balanced_onHost {l : Ledger} (balanced : l.isBalanced = true) (base : Base)
    (layers : Nat) :
    ∀ l', (Manager.onHost base l layers).ledger? = some l' → l'.isBalanced = true := by
  intro l' h
  cases layers with
  | zero => cases h
  | succ n => rwa [← Option.some.inj h]

/-- A size taken and given back leaves nothing live. -/
theorem recordRelease_recordAllocation_empty (size : Size) :
    (Ledger.empty.recordAllocation size).recordRelease = ⟨size, 0⟩ := by
  have hlive : (0 + 1 - 1 : Int64) = 0 := by decide
  rw [Ledger.recordAllocation, Ledger.recordRelease, Ledger.empty, UInt64.zero_add]
  exact congrArg (Ledger.mk size) hlive

/-- What a command leaves when it is tracked or not, in the terms of its arguments. -/
theorem settled_of_effect {base : Base} {command : Command} {tracking : Bool} {left : Finished}
    (effect : command.Effect base .empty tracking.toNat left) :
    command.Settled base tracking
      ⟨some left.manager.isTracking, left.printed,
        Manager.creationTrail ⟨tracking⟩ ++ left.trail ++
          (match left.result with
          | .ok () => left.manager.report
          | .error _ => .empty),
        left.result⟩ left := by
  cases effect with
  | failed fails =>
    exact {
      tracking_eq := congrArg some (isTracking_onHost _ _ _)
      released := rfl
      balanced := balanced_onHost rfl _ _
      failed := fun f h => by
        rw [h.unique fails]
        rfl
      succeeded := fun none => absurd fails (none _)
      fits := fun none => absurd fails (none _) }
  | printed held asked =>
    have succeeds : ∀ f, ¬ command.Fails base f := by
      refine not_fails held fun bytes asked' => ?_
      rw [asked] at asked'
      cases asked'
    exact {
      tracking_eq := congrArg some (isTracking_onHost _ _ _)
      released := rfl
      balanced := balanced_onHost rfl _ _
      failed := fun f h => absurd h (succeeds f)
      succeeded := fun _ => by
        rw [account, asked]
        cases tracking <;> rfl
      fits := fun _ bytes asked' => by
        rw [asked] at asked'
        cases asked' }
  | @turnedOver size bytes held asked granted =>
    have succeeds : ∀ f, ¬ command.Fails base f := by
      refine not_fails held fun bytes asked' e => ?_
      obtain rfl := Option.some.inj (asked.symm.trans asked')
      exact Base.not_refuses granted
    have hledger := recordRelease_recordAllocation_empty size
    exact {
      tracking_eq := congrArg some (isTracking_onHost _ _ _)
      released := rfl
      balanced := balanced_onHost (by rw [hledger]; rfl) _ _
      failed := fun f h => absurd h (succeeds f)
      succeeded := fun _ => by
        rw [account, asked, turnedOver, turnover, hledger]
        dsimp only
        rw [UInt64.ofNat_toNat]
        cases tracking <;> rfl
      fits := fun _ bytes asked' => by
        obtain rfl := Option.some.inj (asked.symm.trans asked')
        exact size.toNat_lt }

end Command

/-- **No command line leaves memory behind, and tracking changes nothing that it prints**, whatever
the base refuses. A rejected configuration ends it before its command runs. Otherwise it ends settled,
and as it does with any other valid configuration, whether memory is tracked or not. -/
theorem Invocation.execute_settled (i : Invocation) (base : Base) (default : Configuration)
    (value? : Option Bytes) :
    match Configuration.ofVariable default value? with
    | .error e =>
      i.execute base default value? = ⟨none, [], .empty, .error (.configuration e)⟩ ∧
        (i.execute base default value?).console =
          ⟨1, [], [], some ("Error: " ++ (Failure.configuration e).message)⟩
    | .ok c =>
      i.command.Settled base (c.debugMemory || i.debugMemory) (i.execute base default value?)
        (i.command.run (.ofConfiguration base ⟨c.debugMemory || i.debugMemory⟩) []) ∧
      ∀ flag default' value'? c', Configuration.ofVariable default' value'? = .ok c' →
        let other := (Invocation.mk flag i.command).execute base default' value'?
        other.printed = (i.execute base default value?).printed ∧
          other.result = (i.execute base default value?).result := by
  cases valid : Configuration.ofVariable default value? with
  | error e =>
    have hreport : i.execute base default value? =
        ⟨none, [], .empty, .error (.configuration e)⟩ := by
      rw [Invocation.execute, configure, valid]
    refine ⟨hreport, ?_⟩
    rw [hreport]
    rfl
  | ok c =>
    refine ⟨?_, fun flag default' value'? c' valid' => ?_⟩
    · rw [execute_of_valid valid, Manager.ofConfiguration_eq]
      exact Command.settled_of_effect (i.command.run_effect base _ _)
    · have hbare : ∀ c, (i.command.run (.ofConfiguration base c) []).bare =
          i.command.run (.plain base) [] := by
        intro c
        rw [← Command.run_bare, Manager.bare_ofConfiguration]
      rw [execute_of_valid valid, execute_of_valid valid']
      have h := (hbare ⟨c'.debugMemory || flag⟩).trans (hbare ⟨c.debugMemory || i.debugMemory⟩).symm
      have hprinted := congrArg Finished.printed h
      have hresult := congrArg Finished.result h
      exact ⟨hprinted, hresult⟩

example :
    let joins : Invocation := ⟨true, .concat (some "foo") (some "bar")⟩
    (joins.execute .unbounded ⟨false⟩ none).console =
      ⟨0, Utf8.ofString "foobar\n",
        [.alloc 7 onlyAddress .caller, .free onlyAddress .caller, .stats ⟨7, 0⟩], none⟩ := by
  rfl

end TrackedHeap.CommandLine
