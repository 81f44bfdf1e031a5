import Mathlib.Tactic.SplitIfs
import TypedTables.Text.Utf8

namespace TypedTables.Text.Utf8

theorem toNat_byte {n : Nat} (h : n < 256) : (UInt8.ofNat n).toNat = n := by
  rw [UInt8.toNat_ofNat', Nat.mod_eq_of_lt h]

theorem announced_byte {n : Nat} (h : n < 256) :
    announced (UInt8.ofNat n) =
      if n < 0x80 then some 0
      else if 0xC2 ≤ n ∧ n ≤ 0xDF then some 1
      else if 0xE0 ≤ n ∧ n ≤ 0xEF then some 2
      else if 0xF0 ≤ n ∧ n ≤ 0xF4 then some 3
      else none := by
  simp [announced, UInt8.lt_iff_toNat_lt, UInt8.le_iff_toNat_le, toNat_byte h]

def tailByte (bits : Nat) : UInt8 := UInt8.ofNat (bits % 64 + 128)

theorem toNat_tailByte (bits : Nat) : (tailByte bits).toNat = bits % 64 + 128 :=
  toNat_byte (by omega)

theorem readTail_tailByte (taken gathered n bits : Nat) (rest : List UInt8) :
    readTail taken gathered (n + 1) (tailByte bits :: rest) =
      readTail (taken + 1) (gathered * 64 + bits % 64) n rest := by
  have htail : isTail (tailByte bits) = true := by
    simp [isTail, UInt8.le_iff_toNat_le, toNat_tailByte]
    omega
  have hbits : (bits % 64 + 128) % 0x40 = bits % 64 := by omega
  rw [readTail, if_pos htail, toNat_tailByte, hbits]

theorem secondBounds_byte {n : Nat} (h : n < 256) :
    secondBounds (UInt8.ofNat n) =
      if n = 0xE0 then (0xA0, 0xBF)
      else if n = 0xED then (0x80, 0x9F)
      else if n = 0xF0 then (0x90, 0xBF)
      else if n = 0xF4 then (0x80, 0x8F)
      else (0x80, 0xBF) := by
  simp [secondBounds, ← UInt8.toNat_inj, toNat_byte h]

theorem step_byte {lead n bits : Nat} (hlead : lead < 256)
    (hannounced : announced (UInt8.ofNat lead) = some (n + 1))
    (hbounds : (lead = 0xE0 → 32 ≤ bits % 64) ∧ (lead = 0xED → bits % 64 < 32) ∧
      (lead = 0xF0 → 16 ≤ bits % 64) ∧ (lead = 0xF4 → bits % 64 < 16)) (rest : List UInt8) :
    step (UInt8.ofNat lead) (tailByte bits :: rest) =
      readTail 1 (leadBits (UInt8.ofNat lead) (n + 1) * 64 + bits % 64) n rest := by
  have hsecond : (secondBounds (UInt8.ofNat lead)).1 ≤ tailByte bits ∧
      tailByte bits ≤ (secondBounds (UInt8.ofNat lead)).2 := by
    rw [secondBounds_byte hlead]
    simp only [UInt8.le_iff_toNat_le, toNat_tailByte]
    split_ifs <;> simp <;> omega
  have hbits : (bits % 64 + 128) % 0x40 = bits % 64 := by omega
  rw [step, hannounced]
  simp only [toNat_tailByte, hbits]
  rw [if_pos (by simpa using hsecond)]

theorem step_utf8EncodeChar (c : Char) (rest : List UInt8) :
    ∃ lead tail, String.utf8EncodeChar c = lead :: tail ∧
      step lead (tail ++ rest) = ⟨.ok c, tail.length⟩ := by
  have hvalid : c.toNat < 0xD800 ∨ 0xDFFF < c.toNat ∧ c.toNat < 0x110000 := c.valid
  have hread : ∀ (code taken : Nat), code = c.toNat →
      readTail taken code 0 rest = ⟨.ok c, taken⟩ := by
    rintro code taken rfl
    rw [readTail, Char.ofNat_toNat]
  generalize hv : c.toNat = v at hvalid hread
  have hbytes : String.utf8EncodeChar c =
      if v ≤ 127 then [UInt8.ofNat v]
      else if v ≤ 2047 then [UInt8.ofNat (v / 64 % 32 + 192), tailByte v]
      else if v ≤ 65535 then
        [UInt8.ofNat (v / 4096 % 16 + 224), tailByte (v / 64), tailByte v]
      else [UInt8.ofNat (v / 262144 % 8 + 240), tailByte (v / 4096), tailByte (v / 64),
        tailByte v] := by
    rw [← hv]
    rfl
  rw [hbytes]
  split_ifs with hone htwo hthree
  · have hannounced : announced (UInt8.ofNat v) = some 0 := by
      rw [announced_byte (by omega), if_pos (by omega)]
    have hcode : (UInt8.ofNat v).toNat = c.toNat := by rw [toNat_byte (by omega), hv]
    refine ⟨_, _, rfl, ?_⟩
    rw [step, hannounced]
    simp only [hcode, Char.ofNat_toNat, List.length_nil]
  · have hlead : v / 64 % 32 + 192 < 256 := by omega
    have hannounced : announced (UInt8.ofNat (v / 64 % 32 + 192)) = some 1 := by
      rw [announced_byte hlead, if_neg (by omega), if_pos (by omega)]
    refine ⟨_, _, rfl, ?_⟩
    rw [List.cons_append, step_byte hlead hannounced (by omega), leadBits, toNat_byte hlead]
    exact hread _ _ (by omega)
  · have hlead : v / 4096 % 16 + 224 < 256 := by omega
    have hannounced : announced (UInt8.ofNat (v / 4096 % 16 + 224)) = some 2 := by
      rw [announced_byte hlead, if_neg (by omega), if_neg (by omega), if_pos (by omega)]
    refine ⟨_, _, rfl, ?_⟩
    rw [List.cons_append, step_byte hlead hannounced (by omega), leadBits, toNat_byte hlead,
      List.cons_append, readTail_tailByte]
    exact hread _ _ (by omega)
  · have hlead : v / 262144 % 8 + 240 < 256 := by omega
    have hannounced : announced (UInt8.ofNat (v / 262144 % 8 + 240)) = some 3 := by
      rw [announced_byte hlead, if_neg (by omega), if_neg (by omega), if_neg (by omega),
        if_pos (by omega)]
    refine ⟨_, _, rfl, ?_⟩
    rw [List.cons_append, step_byte hlead hannounced (by omega), leadBits, toNat_byte hlead,
      List.cons_append, readTail_tailByte, List.cons_append, readTail_tailByte]
    · exact hread _ _ (by omega)
    all_goals omega

theorem glyphs_flatMap_utf8EncodeChar (cs : List Char) :
    (glyphs (cs.flatMap String.utf8EncodeChar)).map Glyph.char = cs := by
  induction cs with
  | nil => simp [glyphs]
  | cons c cs ih =>
      obtain ⟨lead, tail, hbytes, hstep⟩ :=
        step_utf8EncodeChar c (cs.flatMap String.utf8EncodeChar)
      rw [List.flatMap_cons, hbytes, List.cons_append, glyphs, hstep]
      simp only [List.drop_left, List.map_cons, ih]

theorem map_char_glyphs_encode (text : String) :
    (glyphs (encode text)).map Glyph.char = text.toList :=
  glyphs_flatMap_utf8EncodeChar text.toList

theorem decodeLenient_encode (text : String) : decodeLenient (encode text) = text := by
  rw [decodeLenient, map_char_glyphs_encode, String.ofList_toList]

/-- The characters of a text of ASCII characters, by its bytes: they are quicker to compute. -/
def asciiChars (text : String) : List Char :=
  text.toByteArray.data.toList.map (fun b => Char.ofNat b.toNat)

def isAscii (text : String) : Bool := text.toByteArray.data.toList.all (fun b => b < 0x80)

theorem encode_eq_bytes (text : String) : encode text = text.toByteArray.data.toList := by
  obtain ⟨chars, rfl⟩ : ∃ chars, text = String.ofList chars :=
    ⟨text.toList, String.ofList_toList.symm⟩
  rw [String.toByteArray_ofList, List.utf8Encode, List.data_toByteArray, encode,
    String.toList_ofList]

theorem map_char_glyphs_of_ascii {bytes : List UInt8} (h : ∀ b ∈ bytes, b < 0x80) :
    (glyphs bytes).map Glyph.char = bytes.map (fun b => Char.ofNat b.toNat) := by
  induction bytes with
  | nil => simp [glyphs]
  | cons b bytes ih =>
      obtain ⟨hb, hbytes⟩ := List.forall_mem_cons.mp h
      have hstep : step b bytes = ⟨.ok (Char.ofNat b.toNat), 0⟩ := by
        rw [step, announced, if_pos hb]
      rw [glyphs, hstep]
      simp only [List.drop_zero, List.map_cons, ih hbytes]

theorem toList_eq_asciiChars {text : String} (h : isAscii text = true) :
    text.toList = asciiChars text := by
  have hbytes : ∀ b ∈ text.toByteArray.data.toList, b < 0x80 := by
    intro b hb
    exact of_decide_eq_true (List.all_eq_true.mp h b hb)
  rw [← map_char_glyphs_encode, encode_eq_bytes, map_char_glyphs_of_ascii hbytes, asciiChars]

end TypedTables.Text.Utf8
