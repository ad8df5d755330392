import Nxpsc.Spec.Checksum

/-!
# The checksums are cyclic redundancy checks

Both take a byte at a time: the one mixes it into the register and makes eight
moves, the other has a closed form for these eight. So the checksum of a
message is the register behind its bits, and what holds of registers holds of
checksums.
-/

namespace Nxpsc

open Crc

/-! ## A byte at a time -/

theorem length_byteBits (b : UInt8) : (byteBits b).length = 8 := by
  rw [byteBits, List.length_map, List.length_range]

theorem word_byteBits (w : Nat) (b : UInt8) :
    word w (byteBits b) = b.toBitVec.setWidth w := by
  refine BitVec.eq_of_getLsbD_eq fun i hi => ?_
  rw [getLsbD_word, BitVec.getLsbD_setWidth, byteBits,
    List.getD_eq_getElem?_getD, List.getElem?_map]
  rcases Nat.lt_or_ge i 8 with hlt | hge
  · rw [List.getElem?_range hlt]
    rfl
  · rw [List.getElem?_eq_none (by rw [List.length_range]; exact hge),
      BitVec.getLsbD_of_ge _ _ hge]
    rfl

/-- A byte is mixed in, then eight moves. -/
theorem register_byte {w : Nat} (hw : 8 ≤ w) (poly c : BitVec w) (b : UInt8) :
    register poly c (byteBits b) =
      (shift poly)^[8] (c ^^^ b.toBitVec.setWidth w) := by
  rw [register_eq poly c (by rw [length_byteBits]; exact hw), length_byteBits,
    word_byteBits]

theorem crc32Bit_eq (c : UInt32) :
    (crc32Bit c).toBitVec = shift 0xEDB88320#32 c.toBitVec := by
  have hlow : c &&& 1 ≠ 0 ↔ c.toBitVec.getLsbD 0 = true := by
    have hmod : (c &&& 1).toNat = c.toNat % 2 := by
      rw [UInt32.toNat_and]
      exact Nat.and_one_is_mod _
    rw [BitVec.getLsbD, UInt32.toNat_toBitVec, Nat.testBit_zero,
      decide_eq_true_iff, ne_eq, ← UInt32.toNat_inj, hmod]
    show ¬ c.toNat % 2 = 0 ↔ _
    omega
  rw [crc32Bit, shift]
  split
  · next h => rw [if_pos (hlow.mp h)]; rfl
  · next h => rw [if_neg fun h' => h (hlow.mpr h')]; rfl

theorem crc32Byte_eq (c : UInt32) (b : UInt8) :
    (crc32Byte c b).toBitVec =
      register 0xEDB88320#32 c.toBitVec (byteBits b) := by
  rw [register_byte (by decide), crc32Byte]
  simp only [Nat.repeat, crc32Bit_eq]
  rfl

/-- Eight moves of a register of 16 bits: the low byte in closed form. -/
theorem shift_low : ∀ b : BitVec 8,
    (shift 0x8408#16)^[8] (b.setWidth 16) =
      let b := (b ^^^ (b <<< 4)).setWidth 16
      (b <<< 8) ^^^ (b <<< 3) ^^^ (b >>> 4) := by
  decide +kernel

theorem crc16Byte_eq (c : UInt16) (b : UInt8) :
    (crc16Byte c b).toBitVec =
      register 0x8408#16 c.toBitVec (byteBits b) := by
  have hsplit : ∀ y : BitVec 16,
      y = ((y >>> 8) <<< 8) ^^^ (y.setWidth 8).setWidth 16 := by
    intro y
    refine BitVec.eq_of_getLsbD_eq fun i hi => ?_
    simp only [BitVec.getLsbD_xor, BitVec.getLsbD_shiftLeft,
      BitVec.getLsbD_ushiftRight, BitVec.getLsbD_setWidth]
    rcases Nat.lt_or_ge i 8 with hlt | hge
    · simp [hlt, hi]
    · simp [Nat.not_lt.mpr hge, hi, Nat.add_sub_cancel' hge]
  have hhigh : ∀ y : BitVec 16, (shift 0x8408#16)^[8] y =
      (y >>> 8) ^^^ (shift 0x8408#16)^[8] ((y.setWidth 8).setWidth 16) := by
    intro y
    conv => lhs; rw [hsplit y]
    rw [iterate_shift_xor, iterate_shift_shiftLeft fun i hi => ?_]
    rw [BitVec.getLsbD_ushiftRight]
    exact BitVec.getLsbD_of_ge y (8 + i) (by omega)
  have hbyte : b.toBitVec.setWidth 16 >>> 8 = 0#16 := by
    refine BitVec.eq_of_getLsbD_eq fun i _ => ?_
    simp
  have hlow : (c.toBitVec ^^^ b.toBitVec.setWidth 16).setWidth 8 =
      (b ^^^ c.toUInt8).toBitVec := by
    rw [BitVec.setWidth_xor, BitVec.setWidth_setWidth_of_le _ (by decide),
      BitVec.setWidth_eq, BitVec.xor_comm]
    rfl
  rw [register_byte (by decide), hhigh, shift_low,
    BitVec.ushiftRight_xor_distrib, hbyte, BitVec.xor_zero, hlow]
  dsimp only
  rw [← BitVec.xor_assoc, ← BitVec.xor_assoc]
  rfl

/-! ## Messages -/

theorem messageBits_append (m m' : Bytes) :
    messageBits (m ++ m') = messageBits m ++ messageBits m' :=
  List.flatMap_append

theorem length_messageBits (m : Bytes) :
    (messageBits m).length = 8 * m.length := by
  induction m with
  | nil => rfl
  | cons b m ih =>
      rw [messageBits, List.flatMap_cons, List.length_append, length_byteBits,
        ← messageBits, ih, List.length_cons]
      omega

theorem messageBits_zeros (n : Nat) :
    messageBits (Bytes.zeros n) = List.replicate (8 * n) false := by
  induction n with
  | zero => rfl
  | succ n ih =>
      rw [Nat.mul_succ, Nat.add_comm (8 * n), List.replicate_add, ← ih]
      rfl

/-- A register that is fed the bytes one after the other. -/
theorem foldl_register {w : Nat} {α : Type} {poly : BitVec w}
    {feed : α → UInt8 → α} {bits : α → BitVec w}
    (h : ∀ c b, bits (feed c b) = register poly (bits c) (byteBits b))
    (m : Bytes) (c : α) :
    bits (m.foldl feed c) = register poly (bits c) (messageBits m) := by
  induction m generalizing c with
  | nil => rfl
  | cons b m ih =>
      rw [List.foldl_cons, ih, h, ← register_append]
      rfl

theorem crc16_eq (m : Bytes) :
    crc16 m = putU16 (.ofBitVec (crc16Register m)) := by
  have hfold := foldl_register crc16Byte_eq m 0x6363
  rw [crc16Register, ← show (0x6363 : UInt16).toBitVec = 0x6363#16 from rfl,
    ← hfold]
  rfl

theorem crc32_eq (m : Bytes) :
    crc32 m = putU32 (.ofBitVec (crc32Register m)) := by
  have hfold := foldl_register crc32Byte_eq m 0xFFFFFFFF
  rw [crc32Register,
    ← show (0xFFFFFFFF : UInt32).toBitVec = 0xFFFFFFFF#32 from rfl, ← hfold]
  rfl

/-! ## Checksums as bits -/

theorem getD_messageBits (m : Bytes) (i : Nat) :
    (messageBits m).getD i false =
      (m.getD (i / 8) 0).toBitVec.getLsbD (i % 8) := by
  induction m generalizing i with
  | nil => simp [messageBits]
  | cons b m ih =>
      rw [messageBits, List.flatMap_cons, ← messageBits,
        List.getD_eq_getElem?_getD]
      rcases Nat.lt_or_ge i 8 with hlt | hge
      · rw [List.getElem?_append_left (by rw [length_byteBits]; exact hlt),
          byteBits, List.getElem?_map, List.getElem?_range hlt,
          Nat.div_eq_of_lt hlt, Nat.mod_eq_of_lt hlt]
        rfl
      · obtain ⟨j, rfl⟩ := Nat.exists_eq_add_of_le' hge
        rw [List.getElem?_append_right (by rw [length_byteBits]; exact hge),
          length_byteBits, Nat.add_sub_cancel, ← List.getD_eq_getElem?_getD,
          ih, Nat.add_div_right _ (by decide), Nat.add_mod_right]
        rfl

/-- The bytes of a register, the low one first, read as bits again. -/
theorem word_putU16 (v : UInt16) :
    word 16 (messageBits (putU16 v)) = v.toBitVec := by
  refine BitVec.eq_of_getLsbD_eq fun i hi => ?_
  have hmod := Nat.mod_lt i (by decide : 8 > 0)
  have hbyte : ∀ k, ((v.toBitVec >>> k).setWidth 8).getLsbD (i % 8) =
      v.toBitVec.getLsbD (k + i % 8) := by
    intro k
    rw [BitVec.getLsbD_setWidth, decide_eq_true hmod, Bool.true_and,
      BitVec.getLsbD_ushiftRight]
  rw [getLsbD_word, getD_messageBits, decide_eq_true hi, Bool.true_and]
  rcases (by omega : i / 8 = 0 ∨ i / 8 = 1) with h | h
  · rw [h]
    exact (hbyte 0).trans (congrArg _ (by omega))
  · rw [h]
    exact (hbyte 8).trans (congrArg _ (by omega))

theorem word_putU32 (v : UInt32) :
    word 32 (messageBits (putU32 v)) = v.toBitVec := by
  refine BitVec.eq_of_getLsbD_eq fun i hi => ?_
  have hmod := Nat.mod_lt i (by decide : 8 > 0)
  have hbyte : ∀ k, ((v.toBitVec >>> k).setWidth 8).getLsbD (i % 8) =
      v.toBitVec.getLsbD (k + i % 8) := by
    intro k
    rw [BitVec.getLsbD_setWidth, decide_eq_true hmod, Bool.true_and,
      BitVec.getLsbD_ushiftRight]
  rw [getLsbD_word, getD_messageBits, decide_eq_true hi, Bool.true_and]
  rcases (by omega : i / 8 = 0 ∨ i / 8 = 1 ∨ i / 8 = 2 ∨ i / 8 = 3) with
    h | h | h | h
  · rw [h]
    exact (hbyte 0).trans (congrArg _ (by omega))
  · rw [h]
    exact (hbyte 8).trans (congrArg _ (by omega))
  · rw [h]
    exact (hbyte 16).trans (congrArg _ (by omega))
  · rw [h]
    exact (hbyte 24).trans (congrArg _ (by omega))

theorem byteBits_injective : Function.Injective byteBits := by
  intro a b h
  have hword := congrArg (word 8) h
  rw [word_byteBits, word_byteBits, BitVec.setWidth_eq, BitVec.setWidth_eq]
    at hword
  exact UInt8.eq_of_toBitVec_eq hword

theorem messageBits_injective : Function.Injective messageBits := by
  intro m m' h
  induction m generalizing m' with
  | nil =>
      have hlen := congrArg List.length h
      rw [length_messageBits, length_messageBits] at hlen
      exact (List.length_eq_zero_iff.mp (by
        rw [List.length_nil] at hlen
        omega)).symm
  | cons b m ih =>
      cases m' with
      | nil =>
          have hlen := congrArg List.length h
          rw [length_messageBits, length_messageBits, List.length_cons,
            List.length_nil] at hlen
          omega
      | cons b' m' =>
          obtain ⟨hb, hm⟩ := List.append_inj h (by
            rw [length_byteBits, length_byteBits])
          rw [byteBits_injective hb, ih hm]

/-- What is the same in front of the stretch and behind it, and the two
stretches. -/
theorem DifferWithin.split {n : Nat} {m m' : Bytes} (h : DifferWithin n m m') :
    ∃ front xs ys back, messageBits m = front ++ xs ++ back ∧
      messageBits m' = front ++ ys ++ back ∧ xs.length = ys.length ∧
      xs.length ≤ n ∧ xs ≠ ys := by
  obtain ⟨hne, hlen, k, hsame⟩ := h
  have hcut : ∀ bits : List Bool,
      bits = bits.take k ++ (bits.drop k).take n ++ bits.drop (k + n) := by
    intro bits
    rw [← List.drop_drop, List.append_assoc, List.take_append_drop,
      List.take_append_drop]
  have hfront : (messageBits m').take k = (messageBits m).take k := by
    refine List.ext_getElem? fun i => ?_
    rw [List.getElem?_take, List.getElem?_take]
    split
    · next hi => exact (hsame i (.inl hi)).symm
    · rfl
  have hback : (messageBits m').drop (k + n) =
      (messageBits m).drop (k + n) := by
    refine List.ext_getElem? fun i => ?_
    rw [List.getElem?_drop, List.getElem?_drop]
    exact (hsame _ (.inr (Nat.le_add_right _ _))).symm
  have hm := hcut (messageBits m)
  have hm' := hcut (messageBits m')
  rw [hfront, hback] at hm'
  refine ⟨_, _, _, _, hm, hm', ?_, List.length_take_le _ _, fun heq => ?_⟩
  · rw [List.length_take, List.length_take, List.length_drop,
      List.length_drop, length_messageBits, length_messageBits, hlen]
  · rw [heq] at hm
    exact hne (messageBits_injective (hm.trans hm'.symm))

/-! ## The checksums -/

/-- The checksum behind its own message leaves nothing. -/
theorem crc16_residue (m : Bytes) : crc16 (m ++ crc16 m) = [0x00, 0x00] := by
  have hbits : messageBits (crc16 m) =
      messageBits (putU16 (.ofBitVec (crc16Register m))) := by rw [← crc16_eq]
  rw [crc16_eq (m ++ crc16 m), crc16Register, messageBits_append,
    register_append, ← crc16Register, register_self _ _ (by
      rw [length_messageBits, length_crc16]) (by rw [hbits, word_putU16])]
  rfl

theorem crc32_residue (m : Bytes) : crc32Register (m ++ crc32 m) = 0#32 := by
  have hbits : messageBits (crc32 m) =
      messageBits (putU32 (.ofBitVec (crc32Register m))) := by rw [← crc32_eq]
  rw [crc32Register, messageBits_append, register_append, ← crc32Register,
    register_self _ _ (by rw [length_messageBits, length_crc32])
      (by rw [hbits, word_putU32])]

/-- Zeros do not empty a register. -/
theorem crc32Register_of_zeros {m : Bytes} {n : Nat}
    (h : crc32Register (m ++ Bytes.zeros n) = 0#32) :
    crc32Register m = 0#32 := by
  have hempty := register_zeros 0xEDB88320#32 (8 * n)
  rw [← messageBits_zeros] at hempty
  rw [crc32Register, messageBits_append, register_append] at h
  exact register_injective (by decide) (messageBits (Bytes.zeros n))
    (h.trans hempty.symm)

/-- One message of four bytes does. -/
theorem crc32Register_four {m : Bytes} (hlen : m.length = 4)
    (h : crc32Register m = 0#32) : m = [0xFF, 0xFF, 0xFF, 0xFF] := by
  have hbits : ∀ m : Bytes, m.length = 4 → (messageBits m).length = 32 := by
    intro m hm
    rw [length_messageBits, hm]
  have hmixed : 0xFFFFFFFF#32 ^^^ word 32 (messageBits m) = 0#32 := by
    rw [crc32Register, register_eq _ _ (Nat.le_of_eq (hbits m hlen))] at h
    exact (shift_injective (by decide)).iterate _
      (h.trans (iterate_shift_zero _ _).symm)
  have hword : word 32 (messageBits m) =
      word 32 (messageBits [0xFF, 0xFF, 0xFF, 0xFF]) := by
    rw [BitVec.xor_eq_zero_iff] at hmixed
    exact hmixed.symm.trans (by decide)
  exact messageBits_injective (word_injective
    ((hbits m hlen).trans (hbits _ rfl).symm) (Nat.le_of_eq (hbits m hlen))
    hword)

/-- One such stretch changes the checksum. -/
theorem crc16_burst {m m' : Bytes} (h : DifferWithin 16 m m') :
    crc16 m ≠ crc16 m' := by
  obtain ⟨front, xs, ys, back, hm, hm', hlen, hle, hne⟩ := h.split
  intro heq
  have hword := congrArg (word 16 <| messageBits ·) heq
  simp only [crc16_eq, word_putU16, crc16Register, hm, hm'] at hword
  exact register_burst (by decide) _ front back hlen hle hne hword

theorem crc32_burst {m m' : Bytes} (h : DifferWithin 32 m m') :
    crc32 m ≠ crc32 m' := by
  obtain ⟨front, xs, ys, back, hm, hm', hlen, hle, hne⟩ := h.split
  intro heq
  have hword := congrArg (word 32 <| messageBits ·) heq
  simp only [crc32_eq, word_putU32, crc32Register, hm, hm'] at hword
  exact register_burst (by decide) _ front back hlen hle hne hword

/-- The checksum of ISO 14443-3 is the register of its polynomial, and empties
it; and neither checksum misses a change within as many bits as it has. -/
theorem checksums_are_crcs (m : Bytes) :
    crc16 m = putU16 (.ofBitVec (crc16Register m)) ∧
      crc16 (m ++ crc16 m) = [0x00, 0x00] ∧
      (∀ m', DifferWithin 16 m m' → crc16 m ≠ crc16 m') ∧
      ∀ m', DifferWithin 32 m m' → crc32 m ≠ crc32 m' :=
  ⟨crc16_eq m, crc16_residue m, fun _ => crc16_burst, fun _ => crc32_burst⟩

/-- Stretches of 16 and of 32 bits that begin in the middle of a byte. -/
theorem checksums_are_crcs_burst :
    crc16 [0x12, 0x34, 0x56, 0x78, 0x9A] ≠
        crc16 [0xE2, 0xCB, 0x59, 0x78, 0x9A] ∧
      crc32 [0x12, 0x34, 0x56, 0x78, 0x9A] ≠
        crc32 [0xE2, 0xCB, 0xA9, 0x87, 0x95] := by
  have hburst : ∀ n (m m' : Bytes), m.length = 5 → m'.length = 5 → m ≠ m' →
      (∀ i < 40, i < 4 ∨ 4 + n ≤ i →
        (messageBits m)[i]? = (messageBits m')[i]?) → DifferWithin n m m' := by
    refine fun n m m' hm hm' hne h => ⟨hne, hm.trans hm'.symm, 4, fun i hi => ?_⟩
    rcases Nat.lt_or_ge i 40 with hlt | hge
    · exact h i hlt hi
    · rw [List.getElem?_eq_none (by rw [length_messageBits, hm]; exact hge),
        List.getElem?_eq_none (by rw [length_messageBits, hm']; exact hge)]
  obtain ⟨-, -, h16, h32⟩ := checksums_are_crcs [0x12, 0x34, 0x56, 0x78, 0x9A]
  exact ⟨h16 _ (hburst 16 _ _ rfl rfl (by decide) (by decide)),
    h32 _ (hburst 32 _ _ rfl rfl (by decide) (by decide))⟩

end Nxpsc
