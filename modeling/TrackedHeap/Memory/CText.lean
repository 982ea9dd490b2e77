import TrackedHeap.Text.Utf8

/-!
# NUL-terminated text

* `CText` : the bytes of a text that ends at its first NUL, without that NUL;
* `CText.ofBytes?` : a byte string as such a text;
* `CText.order` : the order of two texts by their first different bytes;
* `CText.compare` : the order of two texts that may be absent.
-/

namespace TrackedHeap

/-- The bytes of a NUL-terminated text, without the NUL. Half of the address space holds it with
its NUL. -/
structure CText where
  bytes : Bytes
  noNul : 0 ∉ bytes
  length_lt : bytes.length + 1 < 1 <<< 63

namespace CText

theorem ext {a b : CText} (h : a.bytes = b.bytes) : a = b := by
  cases a; cases b; simp_all

instance : DecidableEq CText := fun a b =>
  if h : a.bytes = b.bytes then isTrue (ext h) else isFalse fun e => h (e ▸ rfl)

/-- A byte string as a text, unless it holds a NUL or is too long for memory. -/
def ofBytes? (bytes : Bytes) : Option CText :=
  if h : 0 ∉ bytes ∧ bytes.length + 1 < 1 <<< 63 then some ⟨bytes, h.1, h.2⟩ else none

theorem ofBytes?_bytes (t : CText) : ofBytes? t.bytes = some t := by
  exact dif_pos ⟨t.noNul, t.length_lt⟩

/-- The order of two byte strings: by their first different bytes, and a start of another comes
before it. -/
def order : Bytes → Bytes → Ordering
  | [], [] => .eq
  | [], _ :: _ => .lt
  | _ :: _, [] => .gt
  | a :: as, b :: bs => if a < b then .lt else if b < a then .gt else order as bs

/-- An order as a sign. -/
def sign : Ordering → Int
  | .lt => -1
  | .eq => 0
  | .gt => 1

/-- The sign of the order of two texts. Two absent texts are equal, and an absent one differs from
every present one. -/
def compare : Option CText → Option CText → Int
  | none, none => 0
  | none, some _ => 1
  | some _, none => 1
  | some a, some b => sign (order a.bytes b.bytes)

end CText

end TrackedHeap
