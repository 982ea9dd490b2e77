import TrackedHeap.Text.Utf8

/-!
# UTF-8: what cutting into pieces keeps

* `encode_one`, `encode_two`, `encode_three`, `encode_four` : the bytes of the character that a lead
  and its continuation stand for;
* `lead?_eq_some`, `continuation_succ_eq_some` : what a lead and a complete continuation say of
  their bytes;
* `bytes_pieceAt`, `flatMap_bytes_pieces` : pieces lose none of the bytes they are cut from;
* `encode_of_decode?` : encoding a decoded text gives its bytes back.
-/

namespace TrackedHeap.Utf8

/-! ## Characters from bytes -/

/-- The code point of the character with a valid code point. -/
theorem val_ofNat {n : Nat} (h : n.isValidChar) : (Char.ofNat n).val.toNat = n := by
  rw [Char.ofNat, dif_pos h]
  rfl

theorem byte_eq {n : Nat} {b : UInt8} (h : n % 256 = b.toNat) : UInt8.ofNat n = b := by
  apply UInt8.toNat_inj.1
  simpa using h

theorem isValidChar_of_lt {n : Nat} (h : n < 0xd800) : n.isValidChar := Or.inl h

theorem isValidChar_of_mem {n : Nat} (h : 0xdfff < n) (h' : n < 0x110000) : n.isValidChar :=
  Or.inr ⟨h, h'⟩

/-- A byte below 80 encodes the character with its value. -/
theorem encode_one {a : UInt8} (h : a.toNat < 0x80) :
    String.utf8EncodeChar (Char.ofNat a.toNat) = [a] := by
  have hn := val_ofNat (isValidChar_of_lt (show a.toNat < 0xd800 by omega))
  unfold String.utf8EncodeChar
  simp only [hn]
  rw [if_pos (by omega), byte_eq (b := a) (by omega)]

/-- A lead and one continuation byte encode their character. -/
theorem encode_two {a b : UInt8} (ha : 0xc2 ≤ a.toNat ∧ a.toNat < 0xe0)
    (hb : 0x80 ≤ b.toNat ∧ b.toNat ≤ 0xbf) :
    String.utf8EncodeChar (Char.ofNat ((a.toNat - 0xc0) * 64 + (b.toNat - 0x80))) = [a, b] := by
  have hn := val_ofNat (isValidChar_of_lt
    (show (a.toNat - 0xc0) * 64 + (b.toNat - 0x80) < 0xd800 by omega))
  unfold String.utf8EncodeChar
  simp only [hn]
  rw [if_neg (by omega), if_pos (by omega), byte_eq (b := a) (by omega),
    byte_eq (b := b) (by omega)]

/-- A lead and two continuation bytes encode their character. -/
theorem encode_three {a b c : UInt8} {bits : Nat} (ha : a.toNat = 0xe0 + bits) (ha' : bits < 16)
    (hb : 0x80 ≤ b.toNat ∧ b.toNat ≤ 0xbf) (hc : 0x80 ≤ c.toNat ∧ c.toNat ≤ 0xbf)
    (low : bits = 0 → 0xa0 ≤ b.toNat) (high : bits = 0xd → b.toNat ≤ 0x9f) :
    String.utf8EncodeChar
      (Char.ofNat ((bits * 64 + (b.toNat - 0x80)) * 64 + (c.toNat - 0x80))) = [a, b, c] := by
  have valid : ((bits * 64 + (b.toNat - 0x80)) * 64 + (c.toNat - 0x80)).isValidChar := by
    by_cases h : bits < 0xe
    · exact isValidChar_of_lt (by omega)
    · exact isValidChar_of_mem (by omega) (by omega)
  have hn := val_ofNat valid
  unfold String.utf8EncodeChar
  simp only [hn]
  rw [if_neg (by omega), if_neg (by omega), if_pos (by omega), byte_eq (b := a) (by omega),
    byte_eq (b := b) (by omega), byte_eq (b := c) (by omega)]

/-- A lead and three continuation bytes encode their character. -/
theorem encode_four {a b c d : UInt8} {bits : Nat} (ha : a.toNat = 0xf0 + bits) (ha' : bits < 5)
    (hb : 0x80 ≤ b.toNat ∧ b.toNat ≤ 0xbf) (hc : 0x80 ≤ c.toNat ∧ c.toNat ≤ 0xbf)
    (hd : 0x80 ≤ d.toNat ∧ d.toNat ≤ 0xbf)
    (low : bits = 0 → 0x90 ≤ b.toNat) (high : bits = 4 → b.toNat ≤ 0x8f) :
    String.utf8EncodeChar
      (Char.ofNat (((bits * 64 + (b.toNat - 0x80)) * 64 + (c.toNat - 0x80)) * 64 +
        (d.toNat - 0x80))) = [a, b, c, d] := by
  have hn := val_ofNat (isValidChar_of_mem
    (show 0xdfff < ((bits * 64 + (b.toNat - 0x80)) * 64 + (c.toNat - 0x80)) * 64 +
        (d.toNat - 0x80) by omega) (by omega))
  unfold String.utf8EncodeChar
  simp only [hn]
  rw [if_neg (by omega), if_neg (by omega), if_neg (by omega), byte_eq (b := a) (by omega),
    byte_eq (b := b) (by omega), byte_eq (b := c) (by omega), byte_eq (b := d) (by omega)]

/-! ## Leads and continuations -/

/-- What the lead of a byte says of the byte. -/
theorem lead?_eq_some {b : UInt8} {lead : Lead} (h : lead? b = some lead) :
    (lead.following = 0 ∧ b.toNat < 0x80 ∧ lead.bits = b.toNat) ∨
    (lead.following = 1 ∧ 0xc2 ≤ b.toNat ∧ b.toNat < 0xe0 ∧ lead.bits = b.toNat - 0xc0 ∧
      lead.low.toNat = 0x80 ∧ lead.high.toNat = 0xbf) ∨
    (lead.following = 2 ∧ b.toNat = 0xe0 + lead.bits ∧ lead.bits < 16 ∧
      0x80 ≤ lead.low.toNat ∧ lead.high.toNat ≤ 0xbf ∧
      (lead.bits = 0 → 0xa0 ≤ lead.low.toNat) ∧ (lead.bits = 0xd → lead.high.toNat ≤ 0x9f)) ∨
    (lead.following = 3 ∧ b.toNat = 0xf0 + lead.bits ∧ lead.bits < 5 ∧
      0x80 ≤ lead.low.toNat ∧ lead.high.toNat ≤ 0xbf ∧
      (lead.bits = 0 → 0x90 ≤ lead.low.toNat) ∧ (lead.bits = 4 → lead.high.toNat ≤ 0x8f)) := by
  simp only [lead?] at h
  repeat' split at h
  all_goals cases h
  all_goals simp
  all_goals omega

/-- A continuation that is complete read one byte within the bounds, and then the others. -/
theorem continuation_succ_eq_some {n read code bits : Nat} {low high : UInt8} {rest : Bytes}
    (h : continuation (n + 1) low high bits rest = (read, some code)) :
    ∃ c tail r, rest = c :: tail ∧ low.toNat ≤ c.toNat ∧ c.toNat ≤ high.toNat ∧
      continuation n 0x80 0xbf (bits * 64 + (c.toNat - 0x80)) tail = (r, some code) ∧
      read = r + 1 := by
  cases rest with
  | nil => simp [continuation] at h
  | cons c tail =>
    simp only [continuation] at h
    split at h
    · rename_i bounds
      simp only [Prod.mk.injEq] at h
      exact ⟨c, tail, _, rfl, bounds.1, bounds.2, Prod.ext rfl h.2, h.1.symm⟩
    · simp at h

theorem continuation_zero_eq_some {read code bits : Nat} {low high : UInt8} {rest : Bytes}
    (h : continuation 0 low high bits rest = (read, some code)) : read = 0 ∧ bits = code := by
  simpa [continuation, eq_comm] using h

/-! ## Pieces -/

/-- The bytes of a piece are the ones it was read from. -/
theorem bytes_pieceAt (b : UInt8) (rest : Bytes) :
    (pieceAt b rest).1.bytes = b :: rest.take (pieceAt b rest).2 := by
  unfold pieceAt
  split
  · rfl
  · rename_i lead hl
    split
    · rename_i read code hc
      show String.utf8EncodeChar (Char.ofNat code) = b :: rest.take read
      obtain ⟨f, hb, bits⟩ | ⟨f, lo, hi, bits, hlow, hhigh⟩ |
        ⟨f, hb, hbits, lo, hi, low, high⟩ | ⟨f, hb, hbits, lo, hi, low, high⟩ := lead?_eq_some hl
      · rw [f] at hc
        obtain ⟨rfl, rfl⟩ := continuation_zero_eq_some hc
        rw [bits, encode_one hb]
        rfl
      · rw [f] at hc
        obtain ⟨c, tail, r, rfl, h1, h2, hc₁, rfl⟩ := continuation_succ_eq_some hc
        obtain ⟨rfl, rfl⟩ := continuation_zero_eq_some hc₁
        rw [bits, encode_two ⟨lo, hi⟩ (by omega)]
        rfl
      · rw [f] at hc
        obtain ⟨c, tail, r, rfl, h1, h2, hc₁, rfl⟩ := continuation_succ_eq_some hc
        obtain ⟨d, tail, r, rfl, h3, h4, hc₂, rfl⟩ := continuation_succ_eq_some hc₁
        obtain ⟨rfl, rfl⟩ := continuation_zero_eq_some hc₂
        rw [encode_three hb hbits (by omega) ⟨h3, h4⟩ (fun e => by have := low e; omega)
          (fun e => by have := high e; omega)]
        rfl
      · rw [f] at hc
        obtain ⟨c, tail, r, rfl, h1, h2, hc₁, rfl⟩ := continuation_succ_eq_some hc
        obtain ⟨d, tail, r, rfl, h3, h4, hc₂, rfl⟩ := continuation_succ_eq_some hc₁
        obtain ⟨e, tail, r, rfl, h5, h6, hc₃, rfl⟩ := continuation_succ_eq_some hc₂
        obtain ⟨rfl, rfl⟩ := continuation_zero_eq_some hc₃
        rw [encode_four hb hbits (by omega) ⟨h3, h4⟩ ⟨h5, h6⟩ (fun e => by have := low e; omega)
          (fun e => by have := high e; omega)]
        rfl
    · rfl

theorem flatMap_bytes_piecesAfter (skip : Nat) (bytes : Bytes) :
    (piecesAfter skip bytes).flatMap Piece.bytes = bytes.drop skip := by
  induction bytes generalizing skip with
  | nil => cases skip <;> rfl
  | cons b rest ih =>
    cases skip with
    | zero =>
      simp only [piecesAfter, List.flatMap_cons, ih, bytes_pieceAt, List.drop_zero,
        List.cons_append, List.take_append_drop]
    | succ skip => exact ih skip

/-- The pieces of a byte string lose none of its bytes. -/
theorem flatMap_bytes_pieces (bytes : Bytes) :
    (pieces bytes).flatMap Piece.bytes = bytes :=
  flatMap_bytes_piecesAfter 0 bytes

/-! ## Whole texts -/

theorem encode_of_mapM {parts : List Piece} {text : List Char}
    (h : parts.mapM Piece.char? = some text) : encode text = parts.flatMap Piece.bytes := by
  induction parts generalizing text with
  | nil => simp_all [encode]
  | cons piece rest ih =>
    cases piece with
    | broken bytes => simp [Piece.char?] at h
    | char c =>
      obtain ⟨cs, hcs, rfl⟩ : ∃ cs, rest.mapM Piece.char? = some cs ∧ text = c :: cs := by
        cases hr : rest.mapM Piece.char? with
        | none => simp [Piece.char?, hr] at h
        | some cs => exact ⟨cs, rfl, by simpa [Piece.char?, hr, eq_comm] using h⟩
      simp [encode, Piece.bytes, ← ih hcs]

/-- Encoding a decoded text gives its bytes back. -/
theorem encode_of_decode? {bytes : Bytes} {text : List Char} (h : decode? bytes = some text) :
    encode text = bytes := by
  rw [encode_of_mapM h, flatMap_bytes_pieces]

end TrackedHeap.Utf8
