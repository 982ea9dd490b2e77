import TrackedHeap.CommandLine.Console
import TrackedHeap.Proofs.Manager.Strings
import TrackedHeap.Proofs.Tracking.Layers
import TrackedHeap.Proofs.Tracking.Refusal

/-!
# What a command can do

* `isHeld` : whether memory holds a text with a NUL after it;
* `Command.texts`, `Command.asked?`, `Command.array?` : the texts of a command and the bytes that it
  asks for, read off its arguments;
* `Command.Fails` : when a command has to fail on a base, and with what;
* `Manager.onHost` : the managers that configurations ask for (`ofConfiguration_eq`), on a base in
  layers that are alike;
* `Command.Effect` : one of three things that a command does, with all that it leaves;
* `Command.run_effect` : no command does anything else, whatever the base refuses;
* `execute_of_valid` : the report of a command line, from what its command leaves;
* `Console.Prints` : a success that shows some bytes (`console_prints`).
-/

namespace TrackedHeap

/-- The error of a refusal is the only one. -/
theorem Base.Refuses.unique {b : Base} {bytes : Nat} {array? : Option (Size × Size)}
    {e e' : AllocError} (h : b.Refuses bytes array? e) (h' : b.Refuses bytes array? e') : e = e' := by
  cases h with
  | overflow array large =>
    cases h' with
    | overflow array' _ =>
      obtain ⟨rfl, rfl⟩ := Prod.mk.inj (Option.some.inj (array.symm.trans array'))
      rfl
    | outOfMemory fits _ => omega
  | outOfMemory fits refused =>
    cases h' with
    | overflow _ large => omega
    | outOfMemory _ _ => rfl

/-- A base refuses a request, or grants it as the exact number of bytes. -/
theorem Base.answers_cases (b : Base) (r : Request) :
    (∃ e, b.answers r = .error e ∧ b.Refuses r.exact r.array? e) ∨
      (b.answers r = .ok () ∧ b.accepts r.product = true ∧ r.product.toNat = r.exact) := by
  cases hanswer : b.answers r with
  | error e => exact .inl ⟨e, rfl, answers_eq_error_iff.1 hanswer⟩
  | ok =>
    right
    have fits := b.reportsOverflow.fits hanswer
    rw [answers, Request.size?_eq_ok fits] at hanswer
    dsimp only at hanswer
    split at hanswer
    · rename_i granted
      exact ⟨rfl, granted, Request.toNat_product fits⟩
    · cases hanswer

namespace CommandLine

/-! ## Texts -/

/-- Whether memory holds a text with a NUL after it: no byte is a NUL, and all of them take less than
half of the address space, which is all that any text can take. -/
def isHeld (s : String) : Bool :=
  decide (0 ∉ Utf8.ofString s ∧ (Utf8.ofString s).length + 1 < 2 ^ 63)

theorem toText_of_isHeld {s : String} (held : isHeld s = true) :
    ∃ t : CText, toText (some s) = .ok (some t) ∧ t.bytes = Utf8.ofString s := by
  obtain ⟨noNul, fits⟩ := of_decide_eq_true held
  rw [← Nat.one_shiftLeft] at fits
  refine ⟨⟨_, noNul, fits⟩, ?_, rfl⟩
  rw [toText, CText.ofBytes?, dif_pos ⟨noNul, fits⟩]

theorem toText_of_not_isHeld {s : String} (unheld : isHeld s = false) :
    toText (some s) = .error (.nulInArgument ((Utf8.ofString s).idxOf 0)) := by
  have h := of_decide_eq_false unheld
  rw [← Nat.one_shiftLeft] at h
  rw [toText, CText.ofBytes?, dif_neg h]

/-- A text argument is read as its bytes, or it is one that memory does not hold. -/
theorem toText_cases (argument : Option String) :
    (∃ text, toText argument = .ok text ∧ (∀ s ∈ argument.toList, isHeld s = true) ∧
      text.toList.map CText.bytes = argument.toList.map Utf8.ofString) ∨
    (∃ s, argument = some s ∧ isHeld s = false ∧
      toText argument = .error (.nulInArgument ((Utf8.ofString s).idxOf 0))) := by
  cases argument with
  | none => exact .inl ⟨none, rfl, fun _ h => absurd h List.not_mem_nil, rfl⟩
  | some s =>
    cases held : isHeld s with
    | true =>
      obtain ⟨t, htext, hbytes⟩ := toText_of_isHeld held
      refine .inl ⟨some t, htext, fun s' hs' => ?_, ?_⟩
      · rwa [List.mem_singleton.1 hs']
      · exact congrArg (fun bytes => [bytes]) hbytes
    | false => exact .inr ⟨s, rfl, held, toText_of_not_isHeld held⟩

namespace Command

/-- The texts among the arguments of a command, in the order in which it reads them. -/
def texts : Command → List String
  | printString value => value.toList
  | concat a b => a.toList ++ b.toList
  | compare a b => a.toList ++ b.toList
  | _ => []

/-- The number of bytes that a command asks for, if it asks for any. -/
def asked? : Command → Option Nat
  | concat a b =>
    if a.toList ++ b.toList = [] then none
    else some (((a.toList ++ b.toList).flatMap Utf8.ofString).length + 1)
  | alloc size none => some size.toNat
  | alloc size (some count) => some (size.toNat * count.toNat)
  | _ => none

/-- The array that a command asks for. -/
def array? : Command → Option (Size × Size)
  | alloc size (some count) => some (size, count)
  | _ => none

/-- How a command tells that it got no memory. -/
def failure : Command → AllocError → Failure
  | concat _ _ => .concatenation
  | _ => .allocation

/-- Why a command has to fail: the first of its texts that memory does not hold, or the base refuses
the bytes that it asks for. -/
inductive Fails (b : Base) (command : Command) : Failure → Prop
  | unheld {s : String} (first : command.texts.find? (fun s => !isHeld s) = some s) :
    Fails b command (.nulInArgument ((Utf8.ofString s).idxOf 0))
  | refused {bytes : Nat} {e : AllocError} (held : ∀ s ∈ command.texts, isHeld s = true)
      (asked : command.asked? = some bytes) (refuses : b.Refuses bytes command.array? e) :
    Fails b command (command.failure e)

theorem find?_eq_none_of_held {texts : List String} (held : ∀ s ∈ texts, isHeld s = true) :
    texts.find? (fun s => !isHeld s) = none := by
  rw [List.find?_eq_none]
  intro s hs
  rw [held s hs]
  exact Bool.false_ne_true

/-- A command has one reason to fail at most. -/
theorem Fails.unique {b : Base} {command : Command} {f f' : Failure} (h : command.Fails b f)
    (h' : command.Fails b f') : f = f' := by
  cases h with
  | unheld first =>
    cases h' with
    | unheld first' =>
      obtain rfl := Option.some.inj (first.symm.trans first')
      rfl
    | refused held => rw [find?_eq_none_of_held held] at first; cases first
  | refused held asked refuses =>
    cases h' with
    | unheld first' => rw [find?_eq_none_of_held held] at first'; cases first'
    | refused _ asked' refuses' =>
      obtain rfl := Option.some.inj (asked.symm.trans asked')
      rw [refuses.unique refuses']

/-- A command does not have to fail whose texts memory holds and whose bytes the base grants. -/
theorem not_fails {b : Base} {command : Command} (held : ∀ s ∈ command.texts, isHeld s = true)
    (granted : ∀ bytes, command.asked? = some bytes → ∀ e, ¬ b.Refuses bytes command.array? e)
    (f : Failure) : ¬ command.Fails b f := by
  rintro (⟨first⟩ | ⟨-, asked, refuses⟩)
  · rw [find?_eq_none_of_held held] at first
    cases first
  · exact granted _ asked _ refuses

end Command

end CommandLine

/-! ## Managers -/

/-- A manager on a base in a number of layers that all have the same ledger. -/
def Manager.onHost (b : Base) (l : Ledger) (layers : Nat) : Manager :=
  ⟨.layered b l layers, .standardError⟩

theorem Manager.ofConfiguration_eq (b : Base) (c : Configuration) :
    ofConfiguration b c = onHost b .empty c.debugMemory.toNat := by
  cases hdebug : c.debugMemory with
  | true =>
    rw [ofConfiguration, if_pos hdebug, tracked, layered, Allocator.stack_eq_layered]
    rfl
  | false =>
    rw [ofConfiguration, if_neg (Bool.eq_false_iff.1 hdebug)]
    rfl

namespace CommandLine

namespace Command

/-! ## Memory -/

/-- What a size that is asked for and given back leaves on record in a number of layers. -/
def turnover (l : Ledger) (layers : Nat) (size : Size) : Trail :=
  Allocator.allocationRecord layers size onlyAddress .caller ++
    Allocator.releaseRecord layers (l.recordAllocation size).recordRelease onlyAddress .caller

/-- What a command leaves that has asked for a size and given it back. -/
def turnedOver (base : Base) (l : Ledger) (layers : Nat) (size : Size) (bytes : Bytes) : Finished :=
  ⟨.onHost base (l.recordAllocation size).recordRelease layers, [], bytes, turnover l layers size,
    .ok ()⟩

theorem print_working (pieces : Output.Pieces) :
    Output.Device.working.print pieces = (Output.bytesOf pieces, []) := by
  cases pieces <;> rfl

section
variable (base : Base) (l : Ledger) (layers : Nat)

/-- A command that prints while it holds memory leaves none of it. -/
theorem printedHolding_turnedOver (size : Size) (slot : Slot) (pieces : Output.Pieces) :
    printedHolding (.onHost base (l.recordAllocation size) layers) (Heap.insert [] onlyAddress slot)
        (Allocator.allocationRecord layers size onlyAddress .caller) pieces =
      turnedOver base l layers size (Output.bytesOf pieces) := by
  have hheap : (Heap.insert [] onlyAddress slot).erase onlyAddress = [] := rfl
  simp only [printedHolding, print_working, Manager.release_some, Manager.onHost,
    Allocator.released_layered, hheap]
  rw [Sink.pass_of_isWorking rfl]
  exact congrArg (fun t => Finished.mk _ _ _ t _) (congrArg (· ++ _) (Trail.append_empty _))

/-- A granted request is recorded in all layers. -/
theorem granted_onHost {r : Request} (grant : base.answers r = .ok ()) :
    Allocator.Granted r onlyAddress .caller (Manager.onHost base l layers).allocator
      (.layered base (l.recordAllocation r.product) layers)
      (Allocator.allocationRecord layers r.product onlyAddress .caller) :=
  Allocator.granted_layered base l layers grant onlyAddress .caller

theorem core_onHost : (Manager.onHost base l layers).allocator.core = base.answers :=
  Allocator.core_layered base l layers

theorem runAlloc_of_granted {r : Request} (grant : base.answers r = .ok ()) :
    runAlloc (.onHost base l layers) [] r =
      turnedOver base l layers r.product
        (Output.bytesOf (Output.stringLine (some (Utf8.ofString onlyAddress.text)))) := by
  rw [runAlloc, Manager.request_of_granted (granted_onHost base l layers grant)]
  exact printedHolding_turnedOver base l layers r.product _ _

theorem runAlloc_of_refused {r : Request} {e : AllocError} (refused : base.answers r = .error e) :
    runAlloc (.onHost base l layers) [] r =
      ⟨.onHost base l layers, [], [], .empty, .error (.allocation e)⟩ := by
  rw [← core_onHost base l layers] at refused
  rw [runAlloc, Manager.request_of_refused refused]
  rfl

/-- The memory that two texts are joined in. -/
def joinRequest (a b : Option CText) : Request :=
  .block (totalLength (a.toList ++ b.toList) + 1)

theorem exact_joinRequest (a b : Option CText) :
    (joinRequest a b).exact = (joinedBytes (a.toList ++ b.toList)).length + 1 :=
  (toNat_totalLength_succ (length_joinedBytes_pair_lt a b)).2

theorem runConcat_nothing : runConcat (.onHost base l layers) [] none none =
    ⟨.onHost base l layers, [], [], .empty, .ok ()⟩ := rfl

theorem runConcat_of_granted {a b : Option CText} (nonempty : a.toList ++ b.toList ≠ [])
    (grant : base.answers (joinRequest a b) = .ok ()) :
    runConcat (.onHost base l layers) [] a b =
      turnedOver base l layers (joinRequest a b).product
        (joinedBytes (a.toList ++ b.toList) ++ [Output.lineFeed]) := by
  have free : Heap.isFree [] onlyAddress = true := rfl
  have hjoined := Manager.joined_of_granted free (granted_onHost base l layers grant)
  have hstring := (Slot.holdsString_joined (length_joinedBytes_pair_lt a b)).string?
  rw [runConcat, Manager.concat_eq_assembled, Manager.assembled, if_neg nonempty, hjoined]
  simp only [Manager.present, Except.map, Heap.find?_insert_self, Option.bind_some, hstring]
  rw [Sink.pass_of_isWorking rfl, ← Output.bytesOf_stringLine_some]
  exact printedHolding_turnedOver base l layers _ _ _

theorem runConcat_of_refused {a b : Option CText} (nonempty : a.toList ++ b.toList ≠ [])
    {e : AllocError} (refused : base.answers (joinRequest a b) = .error e) :
    runConcat (.onHost base l layers) [] a b =
      ⟨.onHost base l layers, [], [], .empty, .error (.concatenation e)⟩ := by
  rw [← core_onHost base l layers] at refused
  rw [runConcat, Manager.concat_eq_assembled, Manager.assembled, if_neg nonempty,
    Manager.joined_of_refused refused]
  rfl

end

/-! ## All commands -/

/-- What a command can do, with all that it leaves: it fails and does nothing, it prints without
memory, or it prints and gives back the size that it asked for. -/
inductive Effect (base : Base) (command : Command) (l : Ledger) (layers : Nat) : Finished → Prop
  | failed {f : Failure} (fails : command.Fails base f) :
    Effect base command l layers ⟨.onHost base l layers, [], [], .empty, .error f⟩
  | printed {bytes : Bytes} (held : ∀ s ∈ command.texts, isHeld s = true)
      (asked : command.asked? = none) :
    Effect base command l layers ⟨.onHost base l layers, [], bytes, .empty, .ok ()⟩
  | turnedOver {size : Size} {bytes : Bytes} (held : ∀ s ∈ command.texts, isHeld s = true)
      (asked : command.asked? = some size.toNat) (granted : base.accepts size = true) :
    Effect base command l layers (turnedOver base l layers size bytes)

section
variable (base : Base) (l : Ledger) (layers : Nat)

theorem printed_onHost (pieces : Output.Pieces) :
    printed (.onHost base l layers) [] pieces =
      ⟨.onHost base l layers, [], Output.bytesOf pieces, .empty, .ok ()⟩ := by
  rw [printed, print_working]
  rfl

theorem alloc_effect {command : Command} {r : Request} (texts : command.texts = [])
    (asked : command.asked? = some r.exact) (array : command.array? = r.array?)
    (failure : command.failure = .allocation) :
    command.Effect base l layers (runAlloc (.onHost base l layers) [] r) := by
  have held : ∀ s ∈ command.texts, isHeld s = true := by
    rw [texts]
    exact fun _ h => absurd h List.not_mem_nil
  obtain ⟨e, refused, refuses⟩ | ⟨granted, accepted, hexact⟩ := base.answers_cases r
  · rw [runAlloc_of_refused base l layers refused]
    rw [← array] at refuses
    have fails := Fails.refused held asked refuses
    rw [failure] at fails
    exact .failed fails
  · rw [runAlloc_of_granted base l layers granted]
    rw [← hexact] at asked
    exact .turnedOver held asked accepted

theorem concat_effect {a b : Option String} {a' b' : Option CText}
    (held : ∀ s ∈ (concat a b).texts, isHeld s = true)
    (bytes : (a'.toList ++ b'.toList).map CText.bytes = (a.toList ++ b.toList).map Utf8.ofString) :
    (concat a b).Effect base l layers (runConcat (.onHost base l layers) [] a' b') := by
  have hlength : (joinRequest a' b').exact =
      ((a.toList ++ b.toList).flatMap Utf8.ofString).length + 1 := by
    rw [exact_joinRequest, joinedBytes, bytes, List.flatMap]
  by_cases hnone : a.toList ++ b.toList = []
  · have hnone' : a'.toList ++ b'.toList = [] := by
      rw [hnone] at bytes
      exact List.map_eq_nil_iff.1 bytes
    obtain ⟨ha, hb⟩ := List.append_eq_nil_iff.1 hnone'
    rw [Option.toList_eq_nil_iff.1 ha, Option.toList_eq_nil_iff.1 hb, runConcat_nothing]
    exact .printed held (if_pos hnone)
  · have hsome : a'.toList ++ b'.toList ≠ [] := by
      intro hnone'
      rw [hnone'] at bytes
      exact hnone (List.map_eq_nil_iff.1 bytes.symm)
    have asked : (concat a b).asked? = some (joinRequest a' b').exact := by
      rw [hlength]
      exact if_neg hnone
    obtain ⟨e, refused, refuses⟩ | ⟨granted, accepted, hexact⟩ :=
      base.answers_cases (joinRequest a' b')
    · rw [runConcat_of_refused base l layers hsome refused]
      exact .failed (.refused held asked refuses)
    · rw [runConcat_of_granted base l layers hsome granted]
      rw [← hexact] at asked
      exact .turnedOver held asked accepted

/-- Two text arguments are read as their bytes, or the first that memory does not hold is the
failure. -/
theorem toText_pair_cases (a b : Option String) :
    (∃ a' b', toText a = .ok a' ∧ toText b = .ok b' ∧
      (∀ s ∈ a.toList ++ b.toList, isHeld s = true) ∧
      (a'.toList ++ b'.toList).map CText.bytes = (a.toList ++ b.toList).map Utf8.ofString) ∨
    (∃ s, (a.toList ++ b.toList).find? (fun s => !isHeld s) = some s ∧
      (toText a = .error (.nulInArgument ((Utf8.ofString s).idxOf 0)) ∨
        ∃ a', toText a = .ok a' ∧ toText b = .error (.nulInArgument ((Utf8.ofString s).idxOf 0)))) := by
  obtain ⟨a', ha, aheld, abytes⟩ | ⟨s, rfl, unheld, ha⟩ := toText_cases a
  · obtain ⟨b', hb, bheld, bbytes⟩ | ⟨s, rfl, unheld, hb⟩ := toText_cases b
    · refine .inl ⟨a', b', ha, hb, fun s hs => ?_, ?_⟩
      · exact (List.mem_append.1 hs).elim (aheld s) (bheld s)
      · rw [List.map_append, List.map_append, abytes, bbytes]
    · refine .inr ⟨s, ?_, .inr ⟨a', ha, hb⟩⟩
      rw [List.find?_append, find?_eq_none_of_held aheld]
      simp [unheld]
  · refine .inr ⟨s, ?_, .inl ha⟩
    simp [unheld]

/-- **No command does anything else**, whatever the base accepts. -/
theorem run_effect (command : Command) (base : Base) (l : Ledger) (layers : Nat) :
    command.Effect base l layers (command.run (.onHost base l layers) []) := by
  cases command with
  | printInt value =>
    rw [run, printed_onHost]
    exact .printed (fun _ h => absurd h List.not_mem_nil) rfl
  | printDouble value =>
    rw [run, printed_onHost]
    exact .printed (fun _ h => absurd h List.not_mem_nil) rfl
  | printString value =>
    obtain ⟨text, htext, held, -⟩ | ⟨s, rfl, unheld, htext⟩ := toText_cases value
    · rw [run, htext]
      dsimp only
      rw [printed_onHost]
      exact .printed held rfl
    · rw [run, htext]
      refine .failed (.unheld ?_)
      simp [texts, unheld]
  | concat a b =>
    obtain ⟨a', b', ha, hb, held, bytes⟩ | ⟨s, first, ha | ⟨a', ha, hb⟩⟩ := toText_pair_cases a b
    · rw [run, ha, hb]
      exact concat_effect base l layers held bytes
    · rw [run, ha]
      exact .failed (.unheld first)
    · rw [run, ha, hb]
      exact .failed (.unheld first)
  | compare a b =>
    obtain ⟨a', b', ha, hb, held, -⟩ | ⟨s, first, ha | ⟨a', ha, hb⟩⟩ := toText_pair_cases a b
    · rw [run, ha, hb]
      dsimp only
      rw [printed_onHost]
      exact .printed held rfl
    · rw [run, ha]
      exact .failed (.unheld first)
    · rw [run, ha, hb]
      exact .failed (.unheld first)
  | alloc size count =>
    cases count with
    | none => exact alloc_effect base l layers rfl rfl rfl rfl
    | some count => exact alloc_effect base l layers rfl rfl rfl rfl

end

end Command

/-! ## On the console -/

/-- The report of a command line with a valid configuration. -/
theorem execute_of_valid {default c : Configuration} {value? : Option Bytes}
    (valid : Configuration.ofVariable default value? = .ok c) (i : Invocation) (base : Base) :
    i.execute base default value? =
      let left := i.command.run (.ofConfiguration base ⟨c.debugMemory || i.debugMemory⟩) []
      let report : Trail :=
        match left.result with
        | .ok () => left.manager.report
        | .error _ => .empty
      ⟨some left.manager.isTracking, left.printed,
        Manager.creationTrail ⟨c.debugMemory || i.debugMemory⟩ ++ left.trail ++ report,
        left.result⟩ := by
  have hconfigure : configure default value? i.debugMemory =
      .ok ⟨c.debugMemory || i.debugMemory⟩ := by
    simp only [configure, valid]
  unfold Invocation.execute
  generalize configure default value? i.debugMemory = configured at hconfigure ⊢
  subst hconfigure
  rfl

/-- A success that shows some bytes on the standard output. -/
structure Console.Prints (shown : Console) (bytes : Bytes) : Prop where
  status : shown.status = 0
  failure : shown.failure = none
  output : shown.output = bytes

section
variable {host : Host} {words : List Bytes} {i : Invocation} {default c : Configuration}
  {value? : Option Bytes}

theorem console_of_error {e : ParseError} (read : parse words = .error e) (host : Host)
    (default : Configuration) (value? : Option Bytes) :
    console host words default value? = e.console host := by
  rw [console, read]

theorem console_prints {bytes : Bytes} (read : parse words = .ok i)
    (valid : Configuration.ofVariable default value? = .ok c)
    (ends : ∀ m, ∃ left, i.command.run (.onHost host.base .empty m) [] = left ∧
      left.printed = bytes ∧ left.result = .ok ()) :
    (console host words default value?).Prints bytes := by
  obtain ⟨left, run, printed, result⟩ := ends (c.debugMemory || i.debugMemory).toNat
  rw [console, read]
  simp only [execute_of_valid valid, Manager.ofConfiguration_eq, run, Report.console, result]
  exact ⟨rfl, rfl, printed⟩

/-- A command that fails and does nothing shows its failure alone. -/
theorem console_fails {f : Failure} (read : parse words = .ok i)
    (valid : Configuration.ofVariable default value? = .ok c)
    (fails : ∀ m, i.command.run (.onHost host.base .empty m) [] =
      ⟨.onHost host.base .empty m, [], [], .empty, .error f⟩) :
    console host words default value? = ⟨1, [], [], some ("Error: " ++ f.message)⟩ := by
  have run := fails (c.debugMemory || i.debugMemory).toNat
  rw [console, read]
  simp only [execute_of_valid valid, Manager.ofConfiguration_eq, run, Report.console]
  rfl

end

end CommandLine

end TrackedHeap
