import Mathlib.Data.List.Basic
import TrackedHeap.Proofs.Tracking.Bare
import TrackedHeap.Proofs.Tracking.Layers
import TrackedHeap.Proofs.Tracking.Refusal

/-!
# Events and lines tell one story

* `Event.line?` : the line that goes with an event;
* `Trail.Matched` : a record in which events and lines go together, which is what any number of layers
  leave (`Allocator.Granted.matched`, `Allocator.matched_released`);
* `Event.overdraft?`, `Event.notice?` : the warning that goes with a release, and what calls for
  notice, a warning or a refusal;
* `Trail.Leveled` : a record that shows the warnings alone as warnings and, one level below, what calls
  for notice. Any number of layers leave such a record (`Allocator.Granted.leveled`,
  `Allocator.leveled_released`);
* `Event.excess` : how many more allocations than releases events tell of;
* `Event.Story live events live'` : events of a single layer whose live count goes from `live` to
  `live'`, every warning right before its release;
* `Story.cut` : a story cut in two falls apart in two stories, or right behind a warning;
* `Event.Counted`, `Story.counted` : each release of a story shows the excess up to it, and warnings
  stand before the negative ones alone;
* `Moment.events`, `Moment.lines`, `Moment.seen` : what a run leaves on record, and what of its events
  is seen at a level, which is what each level is for (`Moment.Leveled`);
* `Moment.Follows`, `Chronicle` : the moments of a run, each with a story that leads from one ledger
  to the next (`Chronicle.counted`, `Chronicle.live_eq`).
-/

namespace TrackedHeap

/-! ## Events and lines -/

namespace Event

/-- The line that goes with an event. -/
def line? : Event → Option Line
  | trackedAllocation size address location => some (.alloc size address location)
  | trackedRelease address location _ => some (.free address location)
  | _ => none

theorem line?_eq_none {e : Event} (quiet : e.isOfLayer = false) : e.line? = none := by
  cases e with
  | trackedAllocation => cases quiet
  | trackedRelease => cases quiet
  | _ => rfl

theorem isOfLayer_of_error? {e : Event} {error : AllocError} (h : e.error? = some error) :
    e.isOfLayer = false := by
  cases e with
  | trackedAllocation => cases h
  | trackedRelease => cases h
  | ledgerOverdrawn => cases h
  | _ => rfl

end Event

/-- A line that tells of memory taken or given back. -/
def Line.isMovement : Line → Bool
  | stats _ => false
  | _ => true

namespace Trail

/-- The events and the lines of a record tell the same of memory taken and given back. -/
def Matched (t : Trail) : Prop :=
  t.events.filterMap Event.line? = t.lines.filter Line.isMovement

theorem Matched.append {t u : Trail} (ht : t.Matched) (hu : u.Matched) : (t ++ u).Matched := by
  rw [Matched, events_append, lines_append, List.filterMap_append, List.filter_append, ht, hu]

theorem matched_empty : empty.Matched := rfl

theorem matched_refusal {e : Event} {error : AllocError} (h : e.error? = some error) :
    (ofEvents [e]).Matched := by
  rw [Matched, events_ofEvents, List.filterMap_cons_none (Event.line?_eq_none
    (Event.isOfLayer_of_error? h))]
  rfl

end Trail

namespace Allocator
variable {r : Request} {address : Address} {location : Location}

theorem Granted.matched {a a' : Allocator} {t : Trail} (granted : Granted r address location a a' t) :
    t.Matched := by
  induction granted with
  | base => exact Trail.matched_empty
  | tracked _ _ ih => exact ih.append rfl

theorem matched_releaseTrail (layer : Nat) (l : Ledger) :
    (releaseTrail .standardError layer l address location).Matched := by
  unfold releaseTrail
  split <;> rfl

theorem matched_released (a : Allocator) : (a.released address location).2.Matched := by
  induction a with
  | base answers => exact Trail.matched_empty
  | tracked inner l ih =>
    rw [released_tracked]
    exact (matched_releaseTrail _ l.recordRelease).append ih

theorem matched_report (a : Allocator) : (a.report .standardError).Matched := by
  cases a <;> rfl

end Allocator

/-! ## Levels -/

namespace Event

/-- The warning that goes with a release, if its ledger is then overdrawn. -/
def overdraft? : Event → Option Event
  | trackedRelease _ _ live => if live < 0 then some (.ledgerOverdrawn live) else none
  | _ => none

/-- What calls for notice in an event: the warning that goes with it, or that it is a refusal. -/
def notice? (e : Event) : Option Event :=
  if e.error?.isSome then some e else e.overdraft?

theorem atLeast_append (level : Level) (events later : List Event) :
    atLeast level (events ++ later) = atLeast level events ++ atLeast level later :=
  List.filter_append events later

end Event

/-- A record that shows as warnings the overdrafts of its releases, and one level below these and the
refusals. -/
structure Trail.Leveled (t : Trail) : Prop where
  warn : Event.atLeast .warn t.events = t.events.filterMap Event.overdraft?
  debug : Event.atLeast .debug t.events = t.events.filterMap Event.notice?

namespace Trail

theorem leveled_of_events_eq_nil {t : Trail} (nothing : t.events = []) : t.Leveled := by
  constructor <;> rw [nothing] <;> rfl

theorem Leveled.append {t u : Trail} (ht : t.Leveled) (hu : u.Leveled) : (t ++ u).Leveled := by
  constructor
  · rw [events_append, Event.atLeast_append, List.filterMap_append, ht.warn, hu.warn]
  · rw [events_append, Event.atLeast_append, List.filterMap_append, ht.debug, hu.debug]

theorem Leveled.pass {t : Trail} (h : t.Leveled) (sink : Sink) : (sink.pass t).Leveled := by
  constructor
  · rw [Sink.events_pass, h.warn]
  · rw [Sink.events_pass, h.debug]

theorem leveled_refusal {e : Event} {error : AllocError} (h : e.error? = some error) :
    (ofEvents [e]).Leveled := by
  cases e with
  | blockRefused | arrayRefused | nullBlock | nullString => exact ⟨rfl, rfl⟩
  | _ => cases h

end Trail

namespace Allocator
variable {r : Request} {address : Address} {location : Location}

theorem Granted.leveled {a a' : Allocator} {t : Trail} (granted : Granted r address location a a' t) :
    t.Leveled := by
  induction granted with
  | base => exact Trail.leveled_of_events_eq_nil rfl
  | tracked _ _ ih => exact ih.append ⟨rfl, rfl⟩

/-- The warning of a release is the overdraft that its live count shows. -/
theorem leveled_releaseTrail (layer : Nat) (l : Ledger) :
    (releaseTrail .standardError layer l address location).Leveled := by
  unfold releaseTrail Ledger.isOverdrawn
  by_cases short : l.liveAllocations < 0
  · have overdraft : (Event.trackedRelease address location l.liveAllocations).overdraft? =
        some (.ledgerOverdrawn l.liveAllocations) := if_pos short
    rw [if_pos (decide_eq_true short)]
    constructor
    · exact congrArg Option.toList overdraft.symm
    · exact congrArg Option.toList overdraft.symm
  · have covered : (Event.trackedRelease address location l.liveAllocations).overdraft? = none :=
      if_neg short
    rw [if_neg (Bool.eq_false_iff.1 (decide_eq_false short))]
    constructor
    · exact congrArg Option.toList covered.symm
    · exact congrArg Option.toList covered.symm

theorem leveled_released (a : Allocator) : (a.released address location).2.Leveled := by
  induction a with
  | base answers => exact Trail.leveled_of_events_eq_nil rfl
  | tracked inner l ih =>
    rw [released_tracked]
    exact (leveled_releaseTrail _ l.recordRelease).append ih

end Allocator

/-! ## The story of a single layer -/

namespace Event

def isAllocation : Event → Bool
  | trackedAllocation .. => true
  | _ => false

def isRelease : Event → Bool
  | trackedRelease .. => true
  | _ => false

/-- How many more allocations than releases events tell of. -/
def excess (events : List Event) : Int :=
  events.countP isAllocation - events.countP isRelease

theorem excess_append (events later : List Event) :
    excess (events ++ later) = excess events + excess later := by
  simp only [excess, List.countP_append]
  omega

theorem excess_cons (e : Event) (events : List Event) :
    excess (e :: events) = excess [e] + excess events :=
  excess_append [e] events

theorem excess_of_quiet {e : Event} (quiet : e.isOfLayer = false) : excess [e] = 0 := by
  cases e with
  | trackedAllocation => cases quiet
  | trackedRelease => cases quiet
  | _ => rfl

theorem natAbs_excess_le (events : List Event) : (excess events).natAbs ≤ events.length := by
  have hallocations : events.countP isAllocation ≤ events.length := List.countP_le_length
  have hreleases : events.countP isRelease ≤ events.length := List.countP_le_length
  rw [excess]
  omega

/-- The events of a single layer while its live count goes from one number to another. -/
inductive Story : Int64 → List Event → Int64 → Prop
  | nil (live : Int64) : Story live [] live
  | allocation {live live' : Int64} {events : List Event} (size : Size) (address : Address)
      (location : Location) (rest : Story (live + 1) events live') :
    Story live (.trackedAllocation size address location :: events) live'
  | release {live live' : Int64} {events : List Event} (address : Address) (location : Location)
      (covered : ¬ live - 1 < 0) (rest : Story (live - 1) events live') :
    Story live (.trackedRelease address location (live - 1) :: events) live'
  /-- A release that is not covered by an allocation, with its warning. -/
  | overdraft {live live' : Int64} {events : List Event} (address : Address) (location : Location)
      (short : live - 1 < 0) (rest : Story (live - 1) events live') :
    Story live
      (.ledgerOverdrawn (live - 1) :: .trackedRelease address location (live - 1) :: events) live'
  | other {live live' : Int64} {events : List Event} {e : Event} (quiet : e.isOfLayer = false)
      (rest : Story live events live') :
    Story live (e :: events) live'

namespace Story
variable {live live' live'' : Int64} {events later : List Event}

theorem append (h : Story live events live') (h' : Story live' later live'') :
    Story live (events ++ later) live'' := by
  induction h with
  | nil => exact h'
  | allocation size address location _ ih => exact .allocation size address location (ih h')
  | release address location covered _ ih => exact .release address location covered (ih h')
  | overdraft address location short _ ih => exact .overdraft address location short (ih h')
  | other quiet _ ih => exact .other quiet (ih h')

theorem of_quiet (quiet : ∀ e ∈ events, e.isOfLayer = false) (live : Int64) :
    Story live events live := by
  induction events with
  | nil => exact .nil live
  | cons e events ih =>
    exact .other (quiet e List.mem_cons_self)
      (ih fun e' he => quiet e' (List.mem_cons_of_mem e he))

/-- A story moves the live count by the excess of its events. -/
theorem live_eq (h : Story live events live') : live' = live + Int64.ofInt (excess events) := by
  have plus : Int64.ofInt 1 = 1 := rfl
  have minus : Int64.ofInt (-1) = -1 := by decide
  induction h with
  | nil live => exact (Int64.add_zero live).symm
  | allocation size address location _ ih =>
    have hone : excess [.trackedAllocation size address location] = 1 := rfl
    rw [ih, excess_cons, hone, Int64.ofInt_add, plus, Int64.add_assoc]
  | release address location _ _ ih =>
    rename_i live _ _ _ _
    have hone : excess [.trackedRelease address location (live - 1)] = -1 := rfl
    rw [ih, excess_cons, hone, Int64.ofInt_add, minus, Int64.sub_eq_add_neg, Int64.add_assoc]
  | overdraft address location _ _ ih =>
    rename_i live _ _ _ _
    have hone : excess [.trackedRelease address location (live - 1)] = -1 := rfl
    have hzero : excess [.ledgerOverdrawn (live - 1)] = 0 := rfl
    rw [ih, excess_cons, excess_cons (.trackedRelease _ _ _), hone, hzero, Int.zero_add,
      Int64.ofInt_add, minus, Int64.sub_eq_add_neg, Int64.add_assoc]
  | other quiet _ ih => rw [ih, excess_cons, excess_of_quiet quiet, Int.zero_add]

/-- Where the events of a story can be cut in two. -/
inductive Cut (live live' : Int64) : List Event → List Event → Prop
  /-- Between two stories. -/
  | between {mid : Int64} {before after : List Event} (first : Story live before mid)
      (second : Story mid after live') : Cut live live' before after
  /-- Between a warning and its release. -/
  | warned {mid : Int64} {before rest : List Event} (address : Address) (location : Location)
      (first : Story live before mid) (short : mid - 1 < 0) :
    Cut live live' (before ++ [.ledgerOverdrawn (mid - 1)])
      (.trackedRelease address location (mid - 1) :: rest)

theorem Cut.prepend {live₁ : Int64} {before after : List Event} (first : List Event)
    (extend : ∀ {events mid}, Story live₁ events mid → Story live (first ++ events) mid)
    (h : Cut live₁ live' before after) : Cut live live' (first ++ before) after := by
  cases h with
  | between h₁ h₂ => exact .between (extend h₁) h₂
  | warned address location h₁ short =>
    rw [← List.append_assoc]
    exact .warned address location (extend h₁) short

/-- A story that is cut in two falls apart in two stories, unless the cut is between a warning and its
release. -/
theorem cut {before after : List Event} (h : Story live (before ++ after) live') :
    Cut live live' before after := by
  generalize hevents : before ++ after = events at h
  induction h generalizing before with
  | nil live =>
    obtain ⟨rfl, rfl⟩ := List.append_eq_nil_iff.1 hevents
    exact .between (.nil live) (.nil live)
  | allocation size address location rest ih =>
    obtain ⟨rfl, rfl⟩ | ⟨before, rfl, rfl⟩ := List.append_eq_cons_iff.1 hevents
    · exact .between (.nil _) (.allocation size address location rest)
    · exact .prepend [_] (.allocation size address location) (ih rfl)
  | release address location covered rest ih =>
    obtain ⟨rfl, rfl⟩ | ⟨before, rfl, rfl⟩ := List.append_eq_cons_iff.1 hevents
    · exact .between (.nil _) (.release address location covered rest)
    · exact .prepend [_] (.release address location covered) (ih rfl)
  | overdraft address location short rest ih =>
    obtain ⟨rfl, rfl⟩ | ⟨before, rfl, hrest⟩ := List.append_eq_cons_iff.1 hevents
    · exact .between (.nil _) (.overdraft address location short rest)
    obtain ⟨rfl, rfl⟩ | ⟨before, rfl, rfl⟩ := List.append_eq_cons_iff.1 hrest.symm
    · exact .warned address location (.nil _) short
    · exact .prepend [_, _] (.overdraft address location short) (ih rfl)
  | other quiet rest ih =>
    obtain ⟨rfl, rfl⟩ | ⟨before, rfl, rfl⟩ := List.append_eq_cons_iff.1 hevents
    · exact .between (.nil _) (.other quiet rest)
    · exact .prepend [_] (.other quiet) (ih rfl)

/-- A release shows the live count behind all events up to it, and if that is negative a warning with
the same number stands right before it. -/
theorem release_eq {before after : List Event} {address : Address} {location : Location}
    {shown : Int64}
    (h : Story live (before ++ .trackedRelease address location shown :: after) live') :
    shown = live + Int64.ofInt (excess before - 1) ∧
      (shown < 0 → ∃ earlier, before = earlier ++ [.ledgerOverdrawn shown]) := by
  have minus : Int64.ofInt (-1) = -1 := by decide
  have moved : ∀ {events mid}, Story live events mid →
      mid - 1 = live + Int64.ofInt (excess events - 1) := by
    intro events mid first
    rw [first.live_eq, Int64.sub_eq_add_neg, Int.sub_eq_add_neg, Int64.ofInt_add, minus,
      Int64.add_assoc]
  generalize hafter : Event.trackedRelease address location shown :: after = rest at h
  cases h.cut with
  | between first second =>
    subst hafter
    cases second with
    | release _ _ covered => exact ⟨moved first, fun short => absurd short covered⟩
    | other quiet => cases quiet
  | warned _ _ first short =>
    obtain ⟨hrelease, -⟩ := List.cons.inj hafter
    obtain ⟨-, -, rfl⟩ := Event.trackedRelease.inj hrelease
    have hexcess : ∀ events n, excess (events ++ [.ledgerOverdrawn n]) = excess events := by
      intro events n
      rw [excess_append]
      exact Int.add_zero _
    rw [hexcess]
    exact ⟨moved first, fun _ => ⟨_, rfl⟩⟩

/-- A warning shows a negative number, and the release with that number comes right behind it. -/
theorem warning_eq {before after : List Event} {shown : Int64}
    (h : Story live (before ++ .ledgerOverdrawn shown :: after) live') :
    shown < 0 ∧ ∃ address location rest, after = .trackedRelease address location shown :: rest := by
  generalize hafter : Event.ledgerOverdrawn shown :: after = rest at h
  cases h.cut with
  | between first second =>
    subst hafter
    cases second with
    | overdraft address location short rest => exact ⟨short, address, location, _, rfl⟩
    | other quiet => cases quiet
  | warned => cases hafter

end Story

/-- Each release shows how many more allocations than releases there are up to it, itself included,
and a warning stands right before each release that shows a negative number, with the same number,
and nowhere else. -/
structure Counted (events : List Event) : Prop where
  live : ∀ before address location live after,
    events = before ++ .trackedRelease address location live :: after →
      live = Int64.ofInt (excess before - 1) ∧
        (events.length < 2 ^ 63 → live.toInt = excess before - 1)
  warned : ∀ before address location live after,
    events = before ++ .trackedRelease address location live :: after → live < 0 →
      ∃ earlier, before = earlier ++ [.ledgerOverdrawn live]
  warns : ∀ before live after, events = before ++ .ledgerOverdrawn live :: after →
    live < 0 ∧ ∃ address location rest, after = .trackedRelease address location live :: rest

theorem Story.counted {events : List Event} {live : Int64} (h : Story 0 events live) :
    Counted events := by
  constructor
  · rintro before address location shown after rfl
    obtain ⟨hshown, -⟩ := h.release_eq
    rw [Int64.zero_add] at hshown
    refine ⟨hshown, fun hlength => ?_⟩
    have hexcess := natAbs_excess_le before
    rw [List.length_append, List.length_cons] at hlength
    rw [hshown]
    apply Int64.toInt_ofInt_of_le
    · omega
    · omega
  · rintro before address location shown after rfl
    exact h.release_eq.2
  · rintro before shown after rfl
    exact h.warning_eq

end Event

/-! ## Runs of a manager -/

/-- What a step leaves on record, and the ledger after it. -/
structure Moment where
  trail : Trail
  ledger : Option Ledger

namespace Moment

def events (moments : List Moment) : List Event :=
  moments.flatMap fun m => m.trail.events

def lines (moments : List Moment) : List Line :=
  moments.flatMap fun m => m.trail.lines

/-- What is seen of the moments of a run at a level. -/
def seen (level : Level) (moments : List Moment) : List Event :=
  moments.flatMap fun m => Event.atLeast level m.trail.events

theorem seen_eq_filter (level : Level) (moments : List Moment) :
    seen level moments = (events moments).filter fun e => level.rank ≤ e.level.rank := by
  rw [seen, events, List.filter_flatMap]
  rfl

theorem seen_trace (moments : List Moment) : seen .trace moments = events moments := by
  rw [seen_eq_filter]
  exact List.filter_eq_self.2 fun e _ => decide_eq_true (Nat.zero_le e.level.rank)

/-- What is seen of a run at each level: the overdrafts of its releases as warnings, one level below
the refusals too, and everything at the most detailed level, of which each other level shows what is as
severe. -/
structure Leveled (moments : List Moment) : Prop where
  warn : seen .warn moments = (events moments).filterMap Event.overdraft?
  debug : seen .debug moments = (events moments).filterMap Event.notice?
  trace : seen .trace moments = events moments
  severe : ∀ level,
    seen level moments = (seen .trace moments).filter fun e => level.rank ≤ e.level.rank

theorem leveled_of_trails {moments : List Moment} (leveled : ∀ m ∈ moments, m.trail.Leveled) :
    Leveled moments where
  warn := by
    rw [seen, events, List.filterMap_flatMap]
    exact List.flatMap_congr fun m hm => (leveled m hm).warn
  debug := by
    rw [seen, events, List.filterMap_flatMap]
    exact List.flatMap_congr fun m hm => (leveled m hm).debug
  trace := seen_trace moments
  severe level := by rw [seen_trace, seen_eq_filter]

theorem filterMap_events_eq {moments : List Moment} (matched : ∀ m ∈ moments, m.trail.Matched) :
    (events moments).filterMap Event.line? = (lines moments).filter Line.isMovement := by
  rw [events, lines, List.filterMap_flatMap, List.filter_flatMap]
  exact List.flatMap_congr matched

/-- The events of a moment are a story that leads from one ledger to the next, and what they show last
is the live count of that one. -/
structure Follows (m : Moment) (l l' : Ledger) : Prop where
  story : Event.Story l.liveAllocations m.trail.events l'.liveAllocations
  ledger : m.ledger = some l'
  latest : ∀ address location live, .trackedRelease address location live ∈ m.trail.events →
    live = l'.liveAllocations

/-- A moment without an event of a layer leaves the ledger as it is. -/
theorem Follows.of_quiet {t : Trail} (quiet : ∀ e ∈ t.events, e.isOfLayer = false) (l : Ledger) :
    Follows ⟨t, some l⟩ l l := by
  refine ⟨.of_quiet quiet _, rfl, fun address location live release => ?_⟩
  have : true = false := quiet _ release
  cases this

theorem Follows.of_events_eq_nil {t : Trail} (nothing : t.events = []) (l : Ledger) :
    Follows ⟨t, some l⟩ l l :=
  .of_quiet (fun _ he => absurd (nothing ▸ he) List.not_mem_nil) l

theorem Follows.empty (l : Ledger) : Follows ⟨.empty, some l⟩ l l :=
  .of_events_eq_nil rfl l

theorem Follows.of_refusal {e : Event} {error : AllocError} (h : e.error? = some error)
    (l : Ledger) : Follows ⟨.ofEvents [e], some l⟩ l l := by
  refine .of_quiet (fun e' he => ?_) l
  rw [Trail.events_ofEvents] at he
  rw [List.mem_singleton.1 he]
  exact Event.isOfLayer_of_error? h

end Moment

/-- The moments of a run, from the ledger before it. -/
inductive Chronicle : Ledger → List Moment → Prop
  | nil (l : Ledger) : Chronicle l []
  | cons {l l' : Ledger} {m : Moment} {moments : List Moment} (follows : m.Follows l l')
      (rest : Chronicle l' moments) : Chronicle l (m :: moments)

namespace Chronicle
variable {l : Ledger} {moments : List Moment}

theorem story (h : Chronicle l moments) :
    ∃ live, Event.Story l.liveAllocations (Moment.events moments) live := by
  induction h with
  | nil l => exact ⟨_, .nil _⟩
  | cons follows _ ih =>
    obtain ⟨live, rest⟩ := ih
    exact ⟨live, follows.story.append rest⟩

/-- What a release shows is the live count of the ledger at that moment. -/
theorem live_eq (h : Chronicle l moments) {m : Moment} (mem : m ∈ moments) {address : Address}
    {location : Location} {live : Int64}
    (release : .trackedRelease address location live ∈ m.trail.events) :
    ∃ ledger, m.ledger = some ledger ∧ ledger.liveAllocations = live := by
  induction h with
  | nil => cases mem
  | cons follows _ ih =>
    obtain rfl | mem := List.mem_cons.1 mem
    · exact ⟨_, follows.ledger, (follows.latest _ _ _ release).symm⟩
    · exact ih mem

/-- In a run from an empty ledger each release shows the excess up to it. -/
theorem counted (h : Chronicle .empty moments) : Event.Counted (Moment.events moments) := by
  obtain ⟨live, story⟩ := h.story
  exact story.counted

end Chronicle

/-! ## A single layer -/

namespace Allocator
variable {b : Base} {l : Ledger}

theorem Granted.follows {r : Request} {address : Address} {location : Location}
    {a' : Allocator} {t : Trail} (granted : Granted r address location (layered b l 1) a' t)
    (sink : Sink) :
    a' = layered b (l.recordAllocation r.product) 1 ∧
      Moment.Follows ⟨sink.pass t, some (l.recordAllocation r.product)⟩ l
        (l.recordAllocation r.product) := by
  obtain ⟨rfl, rfl⟩ := granted.layered_eq
  refine ⟨rfl, ?_, rfl, fun address' location' live release => ?_⟩
  · rw [Sink.events_pass]
    exact .allocation _ _ _ (.nil _)
  · rw [Sink.events_pass] at release
    cases List.mem_singleton.1 release

theorem follows_released (address : Address) (location : Location) (sink : Sink) :
    Moment.Follows
      ⟨sink.pass ((layered b l 1).released address location).2, some l.recordRelease⟩ l
        l.recordRelease := by
  have hevents : (sink.pass ((layered b l 1).released address location).2).events =
      (if l.recordRelease.isOverdrawn then [.ledgerOverdrawn l.recordRelease.liveAllocations]
        else []) ++ [.trackedRelease address location l.recordRelease.liveAllocations] := by
    rw [Sink.events_pass, layered, released_tracked, Trail.events_append, releaseTrail,
      Trail.events_append, Trail.events_ofLayer]
    exact (List.append_nil _).trans (List.append_nil _)
  refine ⟨?_, rfl, fun address' location' live release => ?_⟩
  · rw [hevents]
    split <;> rename_i short
    · exact .overdraft address location (of_decide_eq_true short) (.nil _)
    · exact .release address location (fun h => short (decide_eq_true h)) (.nil _)
  · rw [hevents, List.mem_append] at release
    rcases release with warning | release
    · split at warning
      · cases List.mem_singleton.1 warning
      · cases warning
    · obtain ⟨-, -, rfl⟩ := Event.trackedRelease.inj (List.mem_singleton.1 release)
      rfl

end Allocator

end TrackedHeap
