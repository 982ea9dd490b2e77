import TrackedHeap.Text.Utf8.Lemmas

/-!
# UTF-8: decoding what was encoded

* `lead?_one`, `lead?_two`, `lead?_three`, `lead?_four` : the lead that starts an encoded character;
* `exists_pieceAt_encode` : an encoded character is one piece, whatever follows it;
* `decode?_encode` : decoding an encoded text gives it back.
-/

namespace TrackedHeap.Utf8

/-! ## Leads and continuations -/

theorem lead?_one {b : UInt8} (h : b.toNat < 0x80) : lead? b = some ⟨0, 0x80, 0xbf, b.toNat⟩ := by
  rw [lead?, if_pos h]

theorem lead?_two {b : UInt8} (bits : Nat) (h : b.toNat = 0xc0 + bits) (lower : 2 ≤ bits)
    (upper : bits < 32) : lead? b = some ⟨1, 0x80, 0xbf, bits⟩ := by
  rw [lead?, if_neg (by omega), if_neg (by omega), if_pos (by omega), h, Nat.add_sub_cancel_left]

/-- Three bytes encode no code point below 800, and no surrogate. -/
theorem lead?_three {b : UInt8} (bits : Nat) (h : b.toNat = 0xe0 + bits) (upper : bits < 16) :
    lead? b = some ⟨2, if bits = 0 then 0xa0 else 0x80, if bits = 0xd then 0x9f else 0xbf, bits⟩ := by
  rw [lead?, if_neg (by omega), if_neg (by omega), if_neg (by omega)]
  by_cases low : bits = 0
  · rw [if_pos (by omega), low]
    rfl
  rw [if_neg (by omega), if_neg low]
  by_cases high : bits = 0xd
  · rw [if_pos (by omega), high]
    rfl
  · rw [if_neg (by omega), if_pos (by omega), if_neg high, h, Nat.add_sub_cancel_left]

/-- Four bytes encode no code point below 10000, and none above 10FFFF. -/
theorem lead?_four {b : UInt8} (bits : Nat) (h : b.toNat = 0xf0 + bits) (upper : bits < 5) :
    lead? b = some ⟨3, if bits = 0 then 0x90 else 0x80, if bits = 4 then 0x8f else 0xbf, bits⟩ := by
  rw [lead?, if_neg (by omega), if_neg (by omega), if_neg (by omega), if_neg (by omega),
    if_neg (by omega), if_neg (by omega)]
  by_cases low : bits = 0
  · rw [if_pos (by omega), low]
    rfl
  rw [if_neg (by omega), if_neg low]
  by_cases high : bits = 4
  · rw [if_neg (by omega), if_pos (by omega), high]
    rfl
  · rw [if_pos (by omega), if_neg high, h, Nat.add_sub_cancel_left]

theorem toNat_ofNat {n : Nat} (h : n < 256) : (UInt8.ofNat n).toNat = n :=
  Nat.mod_eq_of_lt h

/-- A continuation byte within the bounds adds its six bits to the code point. -/
theorem continuation_cons {n digit bits read : Nat} (next : Nat) {code : Option Nat} {low high : UInt8}
    {rest : Bytes} (small : digit < 64) (lower : low.toNat ≤ digit + 0x80)
    (upper : digit + 0x80 ≤ high.toNat) (hnext : bits * 64 + digit = next)
    (h : continuation n 0x80 0xbf next rest = (read, code)) :
    continuation (n + 1) low high bits (UInt8.ofNat (digit + 0x80) :: rest) = (read + 1, code) := by
  have hb := toNat_ofNat (n := digit + 0x80) (by omega)
  have bounds : low ≤ UInt8.ofNat (digit + 0x80) ∧ UInt8.ofNat (digit + 0x80) ≤ high := by
    rw [UInt8.le_iff_toNat_le, UInt8.le_iff_toNat_le, hb]
    exact ⟨lower, upper⟩
  rw [continuation, if_pos bounds, hb, Nat.add_sub_cancel, hnext, h]

/-- A continuation byte after the first, which no narrower bounds hold for. -/
theorem continuation_cons_wide {n digit bits read : Nat} (next : Nat) {code : Option Nat}
    {rest : Bytes} (small : digit < 64) (hnext : bits * 64 + digit = next)
    (h : continuation n 0x80 0xbf next rest = (read, code)) :
    continuation (n + 1) 0x80 0xbf bits (UInt8.ofNat (digit + 0x80) :: rest) =
      (read + 1, code) := by
  refine continuation_cons next small (Nat.le_add_left _ _) ?_ hnext h
  have hbf : (0xbf : UInt8).toNat = 0xbf := rfl
  omega

/-! ## Characters -/

theorem pieceAt_of_lead? {b low high : UInt8} {rest : Bytes} {following bits read : Nat} {c : Char}
    (hlead : lead? b = some ⟨following, low, high, bits⟩)
    (h : continuation following low high bits rest = (read, some c.val.toNat)) :
    pieceAt b rest = (.char c, read) := by
  have hchar : Char.ofNat c.val.toNat = c := Char.ofNat_toNat c
  rw [pieceAt, hlead]
  simp only [h, hchar]

/-- The bytes of an encoded character are one piece, whatever follows them. -/
theorem exists_pieceAt_encode (c : Char) (rest : Bytes) :
    ∃ b tail, String.utf8EncodeChar c = b :: tail ∧
      pieceAt b (tail ++ rest) = (.char c, tail.length) := by
  have hvalid : c.val.toNat < 0xd800 ∨ (0xdfff < c.val.toNat ∧ c.val.toNat < 0x110000) := c.valid
  have hpiece := fun b low high rest n bits read =>
    @pieceAt_of_lead? b low high rest n bits read c
  unfold String.utf8EncodeChar
  simp only
  generalize c.val.toNat = v at hvalid hpiece ⊢
  by_cases one : v ≤ 127
  · refine ⟨_, _, if_pos one, ?_⟩
    have h := toNat_ofNat (n := v) (by omega)
    refine hpiece _ _ _ _ _ _ _ (lead?_one (by omega)) ?_
    rw [h]
    rfl
  rw [if_neg one]
  by_cases two : v ≤ 2047
  · refine ⟨_, _, if_pos two, ?_⟩
    have hlead := toNat_ofNat (n := v / 64 % 32 + 192) (by omega)
    refine hpiece _ _ _ _ _ _ _ (lead?_two (v / 64) (by omega) (by omega) (by omega)) ?_
    exact continuation_cons_wide v (by omega) (by omega) rfl
  rw [if_neg two]
  by_cases three : v ≤ 65535
  · refine ⟨_, _, if_pos three, ?_⟩
    have hlead := toNat_ofNat (n := v / 4096 % 16 + 224) (by omega)
    refine hpiece _ _ _ _ _ _ _ (lead?_three (v / 4096) (by omega) (by omega)) ?_
    refine continuation_cons (v / 64) (by omega) ?_ ?_ (by omega)
      (continuation_cons_wide v (by omega) (by omega) rfl)
    · split
      · show 0xa0 ≤ v / 64 % 64 + 128
        omega
      · exact Nat.le_add_left _ _
    · split
      · show v / 64 % 64 + 128 ≤ 0x9f
        omega
      · show v / 64 % 64 + 128 ≤ 0xbf
        omega
  rw [if_neg three]
  refine ⟨_, _, rfl, ?_⟩
  have hlead := toNat_ofNat (n := v / 262144 % 8 + 240) (by omega)
  refine hpiece _ _ _ _ _ _ _ (lead?_four (v / 262144) (by omega) (by omega)) ?_
  refine continuation_cons (v / 4096) (by omega) ?_ ?_ (by omega)
    (continuation_cons_wide (v / 64) (by omega) (by omega)
      (continuation_cons_wide v (by omega) (by omega) rfl))
  · split
    · show 0x90 ≤ v / 4096 % 64 + 128
      omega
    · exact Nat.le_add_left _ _
  · split
    · show v / 4096 % 64 + 128 ≤ 0x8f
      omega
    · show v / 4096 % 64 + 128 ≤ 0xbf
      omega

/-! ## Texts -/

theorem piecesAfter_append (skip : Nat) (start rest : Bytes) (h : start.length = skip) :
    piecesAfter skip (start ++ rest) = piecesAfter 0 rest := by
  induction start generalizing skip with
  | nil =>
    subst h
    rfl
  | cons b start ih =>
    subst h
    exact ih _ rfl

theorem pieces_encode (text : List Char) : pieces (encode text) = text.map Piece.char := by
  induction text with
  | nil => rfl
  | cons c text ih =>
    obtain ⟨b, tail, hc, hpiece⟩ := exists_pieceAt_encode c (encode text)
    have hencode : encode (c :: text) = b :: (tail ++ encode text) := by
      rw [encode, List.flatMap_cons, hc]
      rfl
    rw [pieces, hencode, piecesAfter, hpiece]
    simp only [piecesAfter_append tail.length tail _ rfl, List.map_cons]
    rw [← ih, pieces]

/-- Decoding an encoded text gives it back. -/
theorem decode?_encode (text : List Char) : decode? (encode text) = some text := by
  rw [decode?, pieces_encode, List.mapM_map]
  induction text with
  | nil => rfl
  | cons c text ih => simp_all [Piece.char?, Function.comp_def]

end TrackedHeap.Utf8
