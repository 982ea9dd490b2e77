import TrackedHeap.Proofs.Session.NewStrings
import TrackedHeap.Proofs.Tracking.Movement

/-!
# What a session gains

Strings are made and given back through one manager, and what counts is what is left.

* `Session.Serves` : a manager has memory for every string of up to some number of bytes;
* `Session.Grown i s s' held bytes` : from `s` to `s'` the strings at the addresses `held` have
  come, all other memory is as before, and manager `i` counts them, and `bytes` bytes taken on the
  way;
* `Grown.trans` : what is gained one after the other is gained together;
* `Grown.releaseAll` : what is given back is gained no more, in whatever order;
* `Grown.string?`, `Grown.ledger?` : a text that could be read is read as before, and what a manager
  counts after a gain;
* `grown_concat` : a join of two texts gains a string of their bytes, or nothing where there is no
  text.
-/

namespace TrackedHeap

/-- The bytes of an operand's text, which may be absent; the outer `none` when no text is there. -/
def Operand.bytes? (heap : Heap) (operand : Operand) : Option (Option Bytes) :=
  (operand.string? heap).map (Option.map CText.bytes)

theorem Operand.bytes?_of_holdsString {heap : Heap} {a : Address} {slot : Slot} {length : Size}
    {bytes : Bytes} (found : heap.find? a = some slot) (string : slot.HoldsString length bytes)
    (small : bytes.length + 1 < 2 ^ 63) : (held a).bytes? heap = some (some bytes) := by
  have text : CText.ofBytes? bytes = some ⟨bytes, string.holds.noNul, by simpa using small⟩ :=
    CText.ofBytes?_bytes ⟨bytes, _, _⟩
  simp only [bytes?, Operand.string?, resolve?, found, string.string?, text, Option.bind_eq_bind,
    Option.bind_some, Option.pure_def, Option.map_some]

/-- What an operand reads is decided by the memory that it lies in. -/
theorem Operand.string?_congr {heap heap' : Heap} {operand : Operand}
    (same : ∀ a, operand = held a → heap'.find? a = heap.find? a) :
    operand.string? heap' = operand.string? heap := by
  cases operand with
  | absent => rfl
  | text t => rfl
  | held a => simp only [string?, resolve?, same a rfl]

/-- Two texts one after the other, an absent one as nothing. -/
abbrev joinedText : Option Bytes → Option Bytes → Option Bytes :=
  Option.merge (· ++ ·)

/-- The length of a text, zero when it is absent. -/
def textLength (text : Option Bytes) : Nat :=
  text.elim 0 List.length

/-- The memory that a new string of a text takes. An absent one takes none. -/
def textSpace (text : Option Bytes) : Nat :=
  text.elim 0 fun bytes => bytes.length + 1

theorem textLength_joinedText (a b : Option Bytes) :
    textLength (joinedText a b) = textLength a + textLength b := by
  cases a with
  | none =>
    rw [joinedText, Option.merge_none_left]
    exact (Nat.zero_add _).symm
  | some a =>
    cases b with
    | none => rfl
    | some b => exact List.length_append

/-- What joining the texts of two operands makes, in terms of their parts. -/
theorem joinedText_eq (a b : Option CText) :
    joinedText (a.map CText.bytes) (b.map CText.bytes) =
      if a.toList ++ b.toList = [] then none else some (joinedBytes (a.toList ++ b.toList)) := by
  cases a with
  | none => cases b <;> simp [joinedBytes]
  | some a => cases b <;> simp [joinedBytes]

namespace Session

/-! ## Gains -/

/-- A manager has memory for every string of up to a number of bytes. No text takes more than half of
the address space. -/
def Serves (s : Session) (index bytes : Nat) : Prop :=
  ∃ m, s.managers[index]? = some m ∧ bytes + 1 < 2 ^ 63 ∧
    ∀ size : Size, size.toNat ≤ bytes + 1 → m.allocator.core.accepts size = true

/-- Some strings have come since, and nothing else has changed but what one manager counts: that
these are live in all its layers, and some bytes taken in all. -/
structure Grown (index : Nat) (s s' : Session) (held : List Address) (bytes : Nat) : Prop where
  nodup : held.Nodup
  free : ∀ a ∈ held, s.heap.isFree a = true
  strings : ∀ a ∈ held, ∃ slot, s'.heap.find? a = some slot ∧ slot.kind.isString = true
  others : ∀ a ∉ held, s'.heap.find? a = s.heap.find? a
  ledgers : ∃ m m', s.managers[index]? = some m ∧ s'.managers = s.managers.set index m' ∧
    m'.allocator.core = m.allocator.core ∧
    ∃ history, Movement.totalBytes history = bytes ∧ Movement.balance history = held.length ∧
      m'.allocator.ledgers = m.allocator.ledgers.map (·.replay history)

/-- Strings given back one after another. -/
def releaseAll (s : Session) (index : Nat) (targets : List Address) : Session :=
  (s.run (targets.map fun a => ⟨index, .releaseString a, none⟩)).1

theorem getElem?_set_of_manager {s : Session} {index : Nat} {m : Manager}
    (manager : s.managers[index]? = some m) (m' : Manager) :
    (s.managers.set index m')[index]? = some m' := by
  obtain ⟨hindex, -⟩ := List.getElem?_eq_some_iff.1 manager
  exact List.getElem?_set_self hindex

theorem perform_releaseString {s : Session} {index : Nat} {m : Manager} {a : Address} {slot : Slot}
    (manager : s.managers[index]? = some m) (found : s.heap.find? a = some slot)
    (string : slot.kind.isString = true) :
    (s.perform ⟨index, .releaseString a, none⟩).1 =
      ⟨s.heap.erase a,
        s.managers.set index { m with allocator := (m.allocator.released a .caller).1 }⟩ := by
  have hstep : s.step? ⟨index, .releaseString a, none⟩ =
      some (s.release index m (some a) .caller) := by
    simp only [step?, Option.all_none, if_true, operate?, manager, through?, found, string,
      Option.bind_eq_bind, Option.bind_some]
  rw [perform_of_step? hstep, release, Manager.release_some]
  rfl

namespace Grown
variable {index : Nat} {s s' s'' : Session} {held held' : List Address} {bytes bytes' : Nat}

theorem refl {m : Manager} (manager : s.managers[index]? = some m) : Grown index s s [] 0 where
  nodup := List.nodup_nil
  free _ h := absurd h List.not_mem_nil
  strings _ h := absurd h List.not_mem_nil
  others _ _ := rfl
  ledgers := by
    obtain ⟨hindex, rfl⟩ := List.getElem?_eq_some_iff.1 manager
    exact ⟨_, _, manager, (List.set_getElem_self hindex).symm, rfl, [], rfl, rfl,
      (List.map_id _).symm⟩

theorem not_mem_of_found (h : Grown index s s' held bytes) {a : Address} {slot : Slot}
    (found : s.heap.find? a = some slot) : a ∉ held := by
  intro ha
  exact Heap.ne_of_isFree found (h.free a ha) rfl

theorem isFree_of_not_mem (h : Grown index s s' held bytes) {a : Address} (ha : a ∉ held) :
    s'.heap.isFree a = s.heap.isFree a := by
  rw [Heap.isFree, h.others a ha, Heap.isFree]

/-- What a manager counts after a gain. -/
theorem ledger? (h : Grown index s s' held bytes) :
    s'.ledger? index = (s.ledger? index).map fun l =>
      ⟨l.cumulativeBytes + UInt64.ofNat bytes, l.liveAllocations + Int64.ofInt held.length⟩ := by
  obtain ⟨m, m', manager, managers, -, history, total, balance, ledgers⟩ := h.ledgers
  rw [Session.ledger?, Session.ledger?, managers, getElem?_set_of_manager manager, manager,
    Option.bind_some, Option.bind_some, Manager.ledger?, Manager.ledger?,
    Allocator.ledger?_eq_head?, Allocator.ledger?_eq_head?, ledgers, List.head?_map]
  simp only [Ledger.replay_eq, total, balance]

/-- What is free after a gain was free before, as the strings gained are there. -/
theorem isFree_before (h : Grown index s s' held bytes) {a : Address}
    (free : s'.heap.isFree a = true) : a ∉ held ∧ s.heap.isFree a = true := by
  have ha : a ∉ held := by
    intro ha
    obtain ⟨slot, found, -⟩ := h.strings a ha
    exact Heap.ne_of_isFree found free rfl
  exact ⟨ha, h.isFree_of_not_mem ha ▸ free⟩

/-- The manager stays, with the base under its layers. -/
theorem manager (h : Grown index s s' held bytes) {m : Manager}
    (manager : s.managers[index]? = some m) :
    ∃ m', s'.managers[index]? = some m' ∧ m'.allocator.core = m.allocator.core := by
  obtain ⟨m₁, m', manager₁, managers, core, -⟩ := h.ledgers
  obtain rfl := Option.some.inj (manager.symm.trans manager₁)
  refine ⟨m', ?_, core⟩
  rw [managers]
  exact getElem?_set_of_manager manager m'

theorem serves (h : Grown index s s' held bytes) {n : Nat} (serves : s.Serves index n) :
    s'.Serves index n := by
  obtain ⟨m, manager, small, accepts⟩ := serves
  obtain ⟨m', manager', core⟩ := h.manager manager
  refine ⟨m', manager', small, fun size hsize => ?_⟩
  rw [core]
  exact accepts size hsize

/-- A text that could be read is read as before: it lies where no new string could. -/
theorem string? (h : Grown index s s' held bytes) {operand : Operand} {text : Option CText}
    (read : operand.string? s.heap = some text) : operand.string? s'.heap = some text := by
  rw [← read]
  apply Operand.string?_congr
  rintro a rfl
  obtain ⟨slot, found, -⟩ := Option.bind_eq_some_iff.1 read
  exact h.others a (h.not_mem_of_found found)

theorem bytes? (h : Grown index s s' held bytes) {operand : Operand} {text : Option Bytes}
    (read : operand.bytes? s.heap = some text) : operand.bytes? s'.heap = some text := by
  obtain ⟨t, ht, rfl⟩ := Option.map_eq_some_iff.1 read
  rw [Operand.bytes?, h.string? ht, Option.map_some]

/-- What is gained one after the other is gained together. -/
theorem trans (h : Grown index s s' held bytes) (h' : Grown index s' s'' held' bytes') :
    Grown index s s'' (held ++ held') (bytes + bytes') where
  nodup := by
    refine h.nodup.append h'.nodup fun a ha ha' => ?_
    exact (h.isFree_before (h'.free a ha')).1 ha
  free a ha := by
    rcases List.mem_append.1 ha with ha | ha
    · exact h.free a ha
    · exact (h.isFree_before (h'.free a ha)).2
  strings a ha := by
    by_cases ha' : a ∈ held'
    · exact h'.strings a ha'
    · rw [h'.others a ha']
      exact h.strings a ((List.mem_append.1 ha).resolve_right ha')
  others a ha := by
    rw [List.mem_append, not_or] at ha
    rw [h'.others a ha.2, h.others a ha.1]
  ledgers := by
    obtain ⟨m, m₁, manager, managers, core, history, total, balance, ledgers⟩ := h.ledgers
    obtain ⟨m₁', m₂, manager', managers', core', history', total', balance', ledgers'⟩ := h'.ledgers
    rw [managers, getElem?_set_of_manager manager] at manager'
    obtain rfl := Option.some.inj manager'
    refine ⟨m, m₂, manager, ?_, core'.trans core, history ++ history', ?_, ?_, ?_⟩
    · rw [managers', managers, List.set_set]
    · rw [Movement.totalBytes_append, total, total']
    · rw [Movement.balance_append, balance, balance', List.length_append]
      push_cast
      rfl
    · rw [ledgers', ledgers, List.map_map]
      exact List.map_congr_left fun l _ => (l.replay_append history history').symm

theorem perm (h : Grown index s s' held bytes) (same : held.Perm held') :
    Grown index s s' held' bytes where
  nodup := same.nodup h.nodup
  free a ha := h.free a (same.mem_iff.2 ha)
  strings a ha := h.strings a (same.mem_iff.2 ha)
  others a ha := h.others a fun ha' => ha (same.mem_iff.1 ha')
  ledgers := by
    rw [← same.length_eq]
    exact h.ledgers

/-- A string that is given back is gained no more: its address is as free as it was. -/
theorem release {a : Address} (h : Grown index s s' (a :: held) bytes) :
    Grown index s (s'.perform ⟨index, .releaseString a, none⟩).1 held bytes ∧
      (s'.perform ⟨index, .releaseString a, none⟩).1.heap = s'.heap.erase a := by
  obtain ⟨m, m', manager, managers, core, history, total, balance, ledgers⟩ := h.ledgers
  obtain ⟨slot, found, string⟩ := h.strings a List.mem_cons_self
  obtain ⟨hnew, nodup⟩ := List.nodup_cons.1 h.nodup
  have manager' : s'.managers[index]? = some m' := by
    rw [managers]
    exact getElem?_set_of_manager manager m'
  rw [perform_releaseString manager' found string]
  refine ⟨?_, rfl⟩
  constructor
  case nodup => exact nodup
  case free => exact fun b hb => h.free b (List.mem_cons_of_mem a hb)
  case strings =>
    intro b hb
    have hne : b ≠ a := fun hba => hnew (hba ▸ hb)
    rw [Heap.find?_erase_of_ne _ hne]
    exact h.strings b (List.mem_cons_of_mem a hb)
  case others =>
    intro b hb
    by_cases hba : b = a
    · have hfree := h.free a List.mem_cons_self
      rw [hba, Heap.find?_erase_self, Option.isNone_iff_eq_none.1 hfree]
    · rw [Heap.find?_erase_of_ne _ hba]
      exact h.others b (by simp [hba, hb])
  case ledgers =>
    refine ⟨m, _, manager, by rw [managers, List.set_set], ?_, history ++ [.returned], ?_, ?_, ?_⟩
    · rw [Allocator.core_released, core]
    · rw [Movement.totalBytes_append, total, Movement.totalBytes_returned, Nat.add_zero]
    · rw [Movement.balance_append, balance, Movement.balance_returned, List.length_cons]
      omega
    · rw [Allocator.ledgers_released, ledgers, List.map_map]
      exact List.map_congr_left fun l _ => (l.replay_append history [.returned]).symm

/-- What is given back is gained no more, and the rest stays as it is. -/
theorem releaseAll {gone : List Address} (h : Grown index s s' (gone ++ held) bytes) :
    Grown index s (s'.releaseAll index gone) held bytes ∧
      ∀ a ∉ gone, (s'.releaseAll index gone).heap.find? a = s'.heap.find? a := by
  induction gone generalizing s' with
  | nil => exact ⟨h, fun _ _ => rfl⟩
  | cons a rest ih =>
    obtain ⟨grown, heap⟩ := h.release
    obtain ⟨hgrown, hkept⟩ := ih grown
    refine ⟨hgrown, fun b hb => ?_⟩
    rw [List.mem_cons, not_or] at hb
    refine (hkept b hb.2).trans ?_
    rw [heap, Heap.find?_erase_of_ne _ hb.1]

end Grown

/-! ## Joins -/

/-- A new string is gained in one allocation. -/
theorem grown_insert {s : Session} {index : Nat} {m : Manager} {name : Address} {slot : Slot}
    {size : Size} {allocator : Allocator} {t : Trail} (manager : s.managers[index]? = some m)
    (free : s.heap.isFree name = true) (string : slot.kind.isString = true)
    (granted : m.allocator.Granted (.block size) name .caller allocator t) :
    Grown index s ⟨s.heap.insert name slot, s.managers.set index { m with allocator }⟩ [name]
      size.toNat where
  nodup := List.nodup_singleton name
  free a ha := by rwa [List.mem_singleton.1 ha]
  strings a ha := by
    rw [List.mem_singleton.1 ha]
    exact ⟨slot, Heap.find?_insert_self _ _ _, string⟩
  others a ha := Heap.find?_insert_of_ne _ _ fun hname => ha (List.mem_singleton.2 hname)
  ledgers := by
    refine ⟨m, _, manager, rfl, granted.core_eq, [.taken size.toNat], ?_, rfl, ?_⟩
    · exact Movement.totalBytes_taken size.toNat
    · rw [granted.ledgers_eq]
      refine List.map_congr_left fun l _ => ?_
      rw [Ledger.replay, List.foldl_cons, List.foldl_nil, Ledger.record, UInt64.ofNat_toNat]
      rfl

/-- **A join gains a string of the bytes of both texts**, or nothing where there is no text. -/
theorem grown_concat {s : Session} {index n : Nat} {name : Address} {first second : Operand}
    {a b : Option Bytes} (serves : s.Serves index n) (free : s.heap.isFree name = true)
    (left : first.bytes? s.heap = some a) (right : second.bytes? s.heap = some b)
    (fits : textLength (joinedText a b) ≤ n) :
    let after := s.perform ⟨index, .concat first second, some name⟩
    let made := (joinedText a b).map fun _ => name
    after.2.reply = some ((joinedText a b).elim .absent fun bytes =>
        .string ⟨name, UInt64.ofNat bytes.length, bytes, bytes ++ [0]⟩) ∧
      Grown index s after.1 made.toList (textSpace (joinedText a b)) ∧
      (made.elim .absent .held : Operand).bytes? after.1.heap = some (joinedText a b) := by
  intro after made
  obtain ⟨m, manager, small, accepts⟩ := serves
  obtain ⟨ta, hta, rfl⟩ := Option.map_eq_some_iff.1 left
  obtain ⟨tb, htb, rfl⟩ := Option.map_eq_some_iff.1 right
  have texts : (Op.concat first second).texts? s.heap = some (ta.toList ++ tb.toList) := by
    rw [Op.texts?, hta, htb]
    rfl
  have content := joinedText_eq ta tb
  generalize ta.toList ++ tb.toList = parts at texts content
  by_cases hparts : parts = []
  · subst hparts
    rw [if_pos rfl] at content
    have hperform : s.perform ⟨index, .concat first second, some name⟩ = _ :=
      perform_of_texts?_nil manager rfl free texts
    simp only [after, made, hperform, content]
    exact ⟨rfl, .refl manager, rfl⟩
  · rw [if_neg hparts] at content
    rw [content] at fits
    have hlength : (joinedBytes parts).length ≤ n := fits
    have fits : (joinedBytes parts).length + 1 < 2 ^ 64 := by omega
    have hspace := (toNat_totalLength_succ fits).2
    have accepted := accepts (totalLength parts + 1) (by omega)
    obtain ⟨allocator, t, granted⟩ :=
      Allocator.exists_granted (Answers.accepts_eq_true accepted) name .caller
    have hperform : s.perform ⟨index, .concat first second, some name⟩ = _ :=
      perform_of_texts? manager rfl free texts hparts granted
    have string := Slot.holdsString_joined fits
    simp only [after, made, hperform, content]
    refine ⟨?_, ?_, ?_⟩
    · rw [totalLength_eq]
      rfl
    · have space : textSpace (some (joinedBytes parts)) = (totalLength parts + 1).toNat :=
        hspace.symm
      rw [space]
      exact grown_insert manager free rfl granted
    · exact Operand.bytes?_of_holdsString (Heap.find?_insert_self _ _ _) string (by omega)

end Session

end TrackedHeap
