/-
  LineBasic.Proofs.Text.Utf8

  Decoding undoes encoding: the bytes of a string decode to its characters.

  A character has one to four bytes. Its code point is followed through them: the first byte says
  how many follow and holds the highest bits, each byte behind it holds six more.
-/
import LineBasic.Text.Utf8

namespace LineBasic.Text.Utf8

/-! ## Bytes -/

theorem toNat_ofNat {k : Nat} (h : k < 256) : (UInt8.ofNat k).toNat = k := by
  rw [UInt8.toNat_ofNat']
  exact Nat.mod_eq_of_lt h

theorem followers?_eq (b : UInt8) :
    followers? b =
      if b.toNat < 0x80 then some 0
      else if 0xC2 ≤ b.toNat ∧ b.toNat ≤ 0xDF then some 1
      else if 0xE0 ≤ b.toNat ∧ b.toNat ≤ 0xEF then some 2
      else if 0xF0 ≤ b.toNat ∧ b.toNat ≤ 0xF4 then some 3
      else none := by
  simp only [followers?, UInt8.lt_iff_toNat_lt, UInt8.le_iff_toNat_le]
  rfl

theorem isContinuation_iff (b : UInt8) :
    isContinuation b = true ↔ 0x80 ≤ b.toNat ∧ b.toNat ≤ 0xBF := by
  simp [isContinuation, UInt8.le_iff_toNat_le]

theorem maySecond_iff (lead b : UInt8) :
    maySecond lead b = true ↔
      (0x80 ≤ b.toNat ∧ b.toNat ≤ 0xBF) ∧ (lead.toNat = 0xE0 → 0xA0 ≤ b.toNat) ∧
        (lead.toNat = 0xED → b.toNat < 0xA0) ∧ (lead.toNat = 0xF0 → 0x90 ≤ b.toNat) ∧
        (lead.toNat = 0xF4 → b.toNat < 0x90) := by
  simp only [maySecond, Bool.and_eq_true, isContinuation_iff, Bool.or_eq_true, bne_iff_ne,
    decide_eq_true_eq, ← UInt8.toNat_inj, UInt8.le_iff_toNat_le, UInt8.lt_iff_toNat_lt, ne_eq,
    UInt8.reduceToNat, and_assoc, ← Decidable.imp_iff_not_or]

/-- A byte with the six lowest bits of a number. -/
def follower (v : Nat) : UInt8 :=
  UInt8.ofNat (v % 0x40 + 0x80)

theorem toNat_follower (v : Nat) : (follower v).toNat = v % 0x40 + 0x80 :=
  toNat_ofNat (by omega)

theorem isContinuation_follower (v : Nat) : isContinuation (follower v) = true := by
  rw [isContinuation_iff, toNat_follower]
  omega

/-! ## Sequences -/

section Sequence

variable {done : List Char} {pos : Nat} {rest : List UInt8}

theorem decodeFrom_lead {lead : UInt8} {n : Nat} (h : followers? lead = some (n + 1)) :
    decodeFrom done none pos (lead :: rest) =
      decodeFrom done (some ⟨lead, pos, 1, n + 1, leadBits (n + 1) lead⟩) (pos + 1) rest := by
  rw [decodeFrom]
  simp only [h]

variable {o : Open} {v : Nat}

theorem accepts_follower (hbyte : o.read = 1 → maySecond o.lead (follower v) = true) :
    (if o.read = 1 then maySecond o.lead (follower v) else isContinuation (follower v)) = true := by
  split
  · rename_i hread
    exact hbyte hread
  · exact isContinuation_follower v

theorem toNat_follower_mod : (follower v).toNat % 0x40 = v % 0x40 := by
  rw [toNat_follower]
  omega

/-- A byte that is not the last adds its bits. -/
theorem decodeFrom_follower (hmissing : o.missing ≠ 1)
    (hbyte : o.read = 1 → maySecond o.lead (follower v) = true) :
    decodeFrom done (some o) pos (follower v :: rest) =
      decodeFrom done (some ⟨o.lead, o.first, o.read + 1, o.missing - 1,
        o.value * 0x40 + v % 0x40⟩) (pos + 1) rest := by
  rw [decodeFrom]
  simp only [accepts_follower hbyte, hmissing, toNat_follower_mod, if_true, if_false]

/-- The last byte of a sequence completes the character. -/
theorem decodeFrom_last {c : Char} (hmissing : o.missing = 1)
    (hbyte : o.read = 1 → maySecond o.lead (follower v) = true)
    (hvalue : o.value * 0x40 + v % 0x40 = c.toNat) :
    decodeFrom done (some o) pos (follower v :: rest) =
      decodeFrom (c :: done) none (pos + 1) rest := by
  rw [decodeFrom]
  simp only [accepts_follower hbyte, hmissing, toNat_follower_mod, if_true, hvalue,
    Char.ofNat_toNat]

end Sequence

section Character

variable (done : List Char) (pos : Nat) (rest : List UInt8) {c : Char}

theorem decodeFrom_one (h : c.toNat ≤ 0x7F) :
    decodeFrom done none pos (UInt8.ofNat c.toNat :: rest) =
      decodeFrom (c :: done) none (pos + 1) rest := by
  have hbyte : (UInt8.ofNat c.toNat).toNat = c.toNat := toNat_ofNat (by omega)
  have hlead : followers? (UInt8.ofNat c.toNat) = some 0 := by
    rw [followers?_eq, hbyte, if_pos (by omega)]
  rw [decodeFrom]
  simp only [hlead, hbyte, Char.ofNat_toNat]

theorem decodeFrom_two (hlow : 0x7F < c.toNat) (h : c.toNat ≤ 0x7FF) :
    decodeFrom done none pos
        (UInt8.ofNat (c.toNat / 0x40 % 0x20 + 0xC0) :: follower c.toNat :: rest) =
      decodeFrom (c :: done) none (pos + 2) rest := by
  have hbyte : (UInt8.ofNat (c.toNat / 0x40 % 0x20 + 0xC0)).toNat = c.toNat / 0x40 + 0xC0 := by
    rw [toNat_ofNat (by omega)]
    omega
  have hlead : followers? (UInt8.ofNat (c.toNat / 0x40 % 0x20 + 0xC0)) = some (0 + 1) := by
    rw [followers?_eq, hbyte, if_neg (by omega), if_pos (by omega)]
  rw [decodeFrom_lead hlead, decodeFrom_last rfl]
  · intro _
    rw [maySecond_iff, toNat_follower, hbyte]
    omega
  · simp only [leadBits, hbyte]
    omega

theorem decodeFrom_three (hlow : 0x7FF < c.toNat) (h : c.toNat ≤ 0xFFFF) :
    decodeFrom done none pos
        (UInt8.ofNat (c.toNat / 0x1000 % 0x10 + 0xE0) :: follower (c.toNat / 0x40) ::
          follower c.toNat :: rest) =
      decodeFrom (c :: done) none (pos + 3) rest := by
  have hvalid : c.toNat < 0xD800 ∨ 0xDFFF < c.toNat ∧ c.toNat < 0x110000 := c.valid
  have hbyte : (UInt8.ofNat (c.toNat / 0x1000 % 0x10 + 0xE0)).toNat =
      c.toNat / 0x1000 + 0xE0 := by
    rw [toNat_ofNat (by omega)]
    omega
  have hlead : followers? (UInt8.ofNat (c.toNat / 0x1000 % 0x10 + 0xE0)) = some (1 + 1) := by
    rw [followers?_eq, hbyte, if_neg (by omega), if_neg (by omega), if_pos (by omega)]
  -- Smaller code points are written shorter, and surrogates are no characters: that is what the
  -- bytes `E0` and `ED` demand of the byte behind them.
  rw [decodeFrom_lead hlead, decodeFrom_follower (by simp), decodeFrom_last rfl (by simp)]
  · simp only [leadBits, hbyte]
    omega
  · intro _
    rw [maySecond_iff, toNat_follower, hbyte]
    omega

theorem decodeFrom_four (hlow : 0xFFFF < c.toNat) :
    decodeFrom done none pos
        (UInt8.ofNat (c.toNat / 0x40000 % 0x08 + 0xF0) :: follower (c.toNat / 0x1000) ::
          follower (c.toNat / 0x40) :: follower c.toNat :: rest) =
      decodeFrom (c :: done) none (pos + 4) rest := by
  have hvalid : c.toNat < 0xD800 ∨ 0xDFFF < c.toNat ∧ c.toNat < 0x110000 := c.valid
  have hbyte : (UInt8.ofNat (c.toNat / 0x40000 % 0x08 + 0xF0)).toNat =
      c.toNat / 0x40000 + 0xF0 := by
    rw [toNat_ofNat (by omega)]
    omega
  have hlead : followers? (UInt8.ofNat (c.toNat / 0x40000 % 0x08 + 0xF0)) = some (2 + 1) := by
    rw [followers?_eq, hbyte, if_neg (by omega), if_neg (by omega), if_neg (by omega),
      if_pos (by omega)]
  -- `F0` is never followed by a shorter code point, nor `F4` by one past the last.
  rw [decodeFrom_lead hlead, decodeFrom_follower (by simp), decodeFrom_follower (by simp) (by simp),
    decodeFrom_last rfl (by simp)]
  · simp only [leadBits, hbyte]
    omega
  · intro _
    rw [maySecond_iff, toNat_follower, hbyte]
    omega

/-- The bytes of a character decode to the character. -/
theorem exists_decodeFrom_encode (c : Char) :
    ∃ pos', decodeFrom done none pos (String.utf8EncodeChar c ++ rest) =
      decodeFrom (c :: done) none pos' rest := by
  simp only [String.utf8EncodeChar]
  split
  · rename_i hone
    exact ⟨_, decodeFrom_one done pos rest hone⟩
  · rename_i hone
    split
    · rename_i htwo
      exact ⟨_, decodeFrom_two done pos rest (Nat.not_le.mp hone) htwo⟩
    · rename_i htwo
      split
      · rename_i hthree
        exact ⟨_, decodeFrom_three done pos rest (Nat.not_le.mp htwo) hthree⟩
      · rename_i hthree
        exact ⟨_, decodeFrom_four done pos rest (Nat.not_le.mp hthree)⟩

end Character

/-! ## Strings -/

theorem decodeFrom_encode (done : List Char) (pos : Nat) (chars : List Char) :
    decodeFrom done none pos (chars.flatMap String.utf8EncodeChar) =
      .ok (done.reverse ++ chars) := by
  induction chars generalizing done pos with
  | nil => simp [decodeFrom]
  | cons c rest ih =>
      obtain ⟨pos', hstep⟩ :=
        exists_decodeFrom_encode done pos (rest.flatMap String.utf8EncodeChar) c
      rw [List.flatMap_cons, hstep, ih]
      simp

/-- The bytes from index `i` on, behind those that are listed already. -/
theorem toList_loop (bytes : ByteArray) (i : Nat) (listed : List UInt8) :
    ByteArray.toList.loop bytes i listed = listed.reverse ++ bytes.data.toList.drop i := by
  fun_induction ByteArray.toList.loop bytes i listed with
  | case1 i listed hi ih =>
      have hlength : i < bytes.data.toList.length := by simpa using hi
      rw [ih, List.drop_eq_getElem_cons hlength]
      simp [ByteArray.get!, hi]
  | case2 i listed hi =>
      rw [List.drop_eq_nil_of_le (by simpa using Nat.not_lt.mp hi), List.append_nil]

theorem toList_toUTF8 (s : String) : s.toUTF8.toList = s.toList.flatMap String.utf8EncodeChar := by
  have hbytes : s.toByteArray = (s.toList.flatMap String.utf8EncodeChar).toByteArray := by
    obtain ⟨chars, rfl⟩ : ∃ chars, s = String.ofList chars := ⟨_, String.ofList_toList.symm⟩
    rw [String.toList_ofList]
    rfl
  rw [String.toUTF8_eq_toByteArray, hbytes, ByteArray.toList, toList_loop,
    List.toList_data_toByteArray]
  rfl

/-- The bytes of a string decode to its characters. -/
theorem decode_toUTF8 (s : String) : decode s.toUTF8.toList = .ok s.toList := by
  rw [decode, toList_toUTF8, decodeFrom_encode]
  rfl

end LineBasic.Text.Utf8
