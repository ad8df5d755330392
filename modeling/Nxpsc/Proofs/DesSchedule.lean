import Nxpsc.Lib.Rounds
import Nxpsc.Proofs.Des

/-!
# The key schedule of `des.c`, and the whole cipher

The selections of the key are made of lookups and of terms under masks that
have no bit in common. So they carry exclusive or over as well, and the bits
of a key that the standard leaves out are left out here.
-/

namespace Nxpsc

open Fips46 XorLinear

namespace Mbedtls

/-! ## Lookups and terms -/

/-- A table of sixteen entries that carries exclusive or over. -/
theorem masked_table {table : List Word} {mask : Word}
    (hxor : ∀ a < 16, ∀ b < 16,
      table.getD (a ^^^ b) 0 = table.getD a 0 ^^^ table.getD b 0)
    (hmask : ∀ a < 16, table.getD a 0 &&& mask = table.getD a 0) :
    Masked mask fun x : Word => table.getD (x &&& 0xF).toNat 0 := by
  have hlt : ∀ x : Word, (x &&& 0xF).toNat < 16 := by
    intro x
    rw [BitVec.toNat_and]
    exact Nat.lt_of_le_of_lt Nat.and_le_right (by decide)
  refine ⟨fun x y => ?_, fun x => hmask _ (hlt x)⟩
  have hand : (x ^^^ y) &&& 0xF = (x &&& 0xF) ^^^ (y &&& 0xF) :=
    XorLinear.id.and 0xF x y
  rw [hand, BitVec.toNat_xor]
  exact hxor _ (hlt x) _ (hlt y)

theorem xorLinear_lookUp {table : List Word} {mask : Word}
    (htable : Masked mask fun x : Word => table.getD (x &&& 0xF).toNat 0)
    {terms : List (Nat × Nat)}
    (hdisj : terms.Pairwise fun s t => (mask <<< s.2) &&& (mask <<< t.2) = 0#32) :
    XorLinear (lookUp table terms) := by
  refine @Masked.foldl_or _ _ _ _ (fun t => mask <<< t.2) _ (fun t _ => ?_) hdisj
  have hshift : Masked mask fun x : Word =>
      table.getD ((x >>> t.1) &&& 0xF).toNat 0 :=
    ⟨htable.linear.comp (XorLinear.id.ushiftRight t.1),
      fun x => htable.within (x >>> t.1)⟩
  exact hshift.shiftLeft t.2

theorem xorLinear_orTerms {m : Nat} {f : BitVec m → Word × Word}
    (hf : BothLinear f) {terms : List Term}
    (hdisj : terms.Pairwise fun s t => s.mask &&& t.mask = 0#32) :
    XorLinear fun v => orTerms terms (f v) := by
  refine @Masked.foldl_or _ _ _ _ Term.mask _ (fun t _ => ?_) hdisj
  have hhalf : XorLinear fun v => t.half.of (f v) := by
    cases t.half with
    | x => exact hf.fst
    | y => exact hf.snd
  refine .of_and ?_ t.mask
  cases t.shift with
  | left n => exact hhalf.shiftLeft n
  | right n => exact hhalf.ushiftRight n

/-! ## The halves of a key -/

/-- Halves of 28 bits, each in a word of its own. -/
def inWords (c d : BitVec 28) : Word × Word := (c.setWidth 32, d.setWidth 32)

/-- The halves of 56 bits. -/
def halves56 (v : BitVec 56) : Word × Word :=
  inWords (v.extractLsb' 28 28) (v.extractLsb' 0 28)

theorem bothLinear_halves56 : BothLinear halves56 :=
  ⟨(XorLinear.id.extract 28 28).setWidth 32,
    (XorLinear.id.extract 0 28).setWidth 32⟩

theorem permutedChoice_halves (key : BitVec 64) :
    permutedChoice (halves key) = halves56 (permute 56 pc1 key) := by
  have hl : XorLinear (lookUp lhs [(0, 3), (8, 2), (16, 1), (24, 0),
      (5, 7), (13, 6), (21, 5), (29, 4)]) :=
    @xorLinear_lookUp _ 0x01010101
      (masked_table (by decide +kernel) (by decide +kernel)) _ (by decide)
  have hr : XorLinear (lookUp rhs [(1, 3), (9, 2), (17, 1), (25, 0),
      (4, 7), (12, 6), (20, 5), (28, 4)]) :=
    @xorLinear_lookUp _ 0x01010101
      (masked_table (by decide +kernel) (by decide +kernel)) _ (by decide)
  have hswap := (((bothLinear_halves.swap.exchange 4 0x0F0F0F0F).swap).swap.exchange
    0 0x10101010).swap
  have hleft : BothLinear fun key => permutedChoice (halves key) :=
    hswap.map (a := fun x => lookUp lhs [(0, 3), (8, 2), (16, 1), (24, 0),
        (5, 7), (13, 6), (21, 5), (29, 4)] x &&& 0x0FFFFFFF)
      (b := fun y => lookUp rhs [(1, 3), (9, 2), (17, 1), (25, 0),
        (4, 7), (12, 6), (20, 5), (28, 4)] y &&& 0x0FFFFFFF)
      (hl.and 0x0FFFFFFF) (hr.and 0x0FFFFFFF)
  have hright : BothLinear fun key : BitVec 64 =>
      halves56 (permute 56 pc1 key) :=
    ⟨bothLinear_halves56.fst.comp (xorLinear_permute pc1),
      bothLinear_halves56.snd.comp (xorLinear_permute pc1)⟩
  exact hleft.agree hright (by decide +kernel) key

theorem subkey_halves56 (v : BitVec 56) :
    subkey (halves56 v) = split (permute 48 pc2 v) := by
  have hleft : BothLinear fun v => subkey (halves56 v) :=
    ⟨xorLinear_orTerms bothLinear_halves56 (by decide),
      xorLinear_orTerms bothLinear_halves56 (by decide)⟩
  have hright : BothLinear fun v : BitVec 56 => split (permute 48 pc2 v) :=
    ⟨bothLinear_split.fst.comp (xorLinear_permute pc2),
      bothLinear_split.snd.comp (xorLinear_permute pc2)⟩
  exact hleft.agree hright (by decide +kernel) v

/-- A turn of a half, where it stands in a word. -/
theorem turn_setWidth {n : Nat} (hn : n ≤ 2) (c : BitVec 28) :
    ((c.setWidth 32 <<< n) ||| (c.setWidth 32 >>> (28 - n))) &&& 0x0FFFFFFF =
      (c.rotateLeft n).setWidth 32 := by
  have hmask : (0x0FFFFFFF : Word) = (BitVec.allOnes 28).setWidth 32 := by
    decide
  rw [hmask]
  refine BitVec.eq_of_getLsbD_eq fun i hi => ?_
  rw [BitVec.getLsbD_and, BitVec.getLsbD_setWidth, BitVec.getLsbD_allOnes,
    BitVec.getLsbD_setWidth, BitVec.getLsbD_rotateLeft,
    Nat.mod_eq_of_lt (show n < 28 by omega)]
  simp [hi]
  grind

theorem turnHalf_setWidth {i : Nat} (hi : i < 16) (c : BitVec 28) :
    turnHalf i (c.setWidth 32) =
      (c.rotateLeft (turns.getD i 0)).setWidth 32 := by
  have hturns : ∀ i < 16, turns.getD i 0 =
      if i < 2 ∨ i = 8 ∨ i = 15 then 1 else 2 := by decide
  rw [hturns i hi, turnHalf]
  split
  · exact turn_setWidth (n := 1) (by decide) c
  · exact turn_setWidth (n := 2) (by decide) c

/-- The subkeys that are left, for the halves that they are made of. -/
theorem subkeys_inWords (n i : Nat) (hi : i + n = 16) (c d : BitVec 28) :
    subkeys n i (inWords c d) =
      (subkeysFrom (turns.drop i) c d).map split := by
  induction n generalizing i c d with
  | zero =>
      obtain rfl : i = 16 := hi
      rfl
  | succ n ih =>
      have hdrop : turns.drop i = turns.getD i 0 :: turns.drop (i + 1) := by
        have hlt : i < turns.length := by
          show i < 16
          omega
        rw [List.drop_eq_getElem_cons hlt, List.getD_eq_getElem?_getD,
          List.getElem?_eq_getElem hlt]
        rfl
      have hhalves : ∀ c d : BitVec 28, halves56 (c ++ d) = inWords c d := by
        intro c d
        exact congrArg₂ inWords BitVec.extractLsb'_append_eq_left
          BitVec.extractLsb'_append_eq_right
      rw [hdrop, subkeys, subkeysFrom, List.map_cons, ← subkey_halves56,
        hhalves, ← ih (i + 1) (by omega)]
      simp only [inWords, turnHalf_setWidth (show i < 16 by omega)]

theorem wordAt_getUint32Be (b : Bytes) (i : Nat) :
    getUint32Be b i = wordAt b i := by
  have hbytes : ∀ p q r s : BitVec 8,
      (p.setWidth 32 <<< 24) ||| (q.setWidth 32 <<< 16) |||
        (r.setWidth 32 <<< 8) ||| s.setWidth 32 = p ++ q ++ r ++ s := by
    intro p q r s
    refine BitVec.eq_of_getLsbD_eq fun j hj => ?_
    simp [hj]
    grind
  exact hbytes _ _ _ _

theorem halves_ofBytes (b : Bytes) :
    halves (ofBytes b) = (getUint32Be b 0, getUint32Be b 4) := by
  rw [wordAt_getUint32Be, wordAt_getUint32Be]
  exact Prod.ext BitVec.extractLsb'_append_eq_left
    BitVec.extractLsb'_append_eq_right

/-- The schedule of the source is the one of the standard. -/
theorem desSetkey_schedule (key : Bytes) :
    desSetkey key = (schedule (ofBytes key)).map split := by
  rw [desSetkey, ← halves_ofBytes, permutedChoice_halves, halves56,
    subkeys_inWords 16 0 rfl, List.drop_zero, schedule]

/-! ## All the rounds -/

/-- Rounds in pairs are rounds of the network. -/
theorem desRounds_eq (n : Nat) {sk : List (Word × Word)}
    (hlen : sk.length = 2 * n) (rest : List (Word × Word)) (h : Word × Word) :
    desRounds n (sk ++ rest) h =
      (Rounds.feistel (· ^^^ ·) desRound sk h, rest) := by
  induction n generalizing sk h with
  | zero =>
      obtain rfl := List.eq_nil_of_length_eq_zero hlen
      rfl
  | succ n ih =>
      match sk, hlen with
      | k :: k' :: sk, hlen =>
          have hlen' : sk.length = 2 * n := by
            rw [List.length_cons, List.length_cons] at hlen
            omega
          exact ih hlen' _

theorem feistel_split (keys : List (BitVec 48)) (h : Word × Word) :
    Rounds.feistel (· ^^^ ·) desRound (keys.map split) (turned h) =
      turned (Rounds.feistel (· ^^^ ·) cipherFunction keys h) :=
  @Rounds.feistel_map _ _ _ _ _ _ _ _ _ (fun x : Word => x.rotateLeft 1)
    (xorLinear_rotateLeft 1) desRound_split keys h

theorem putUint32Be_extract (v : BitVec 64) (i : Nat) :
    putUint32Be (v.extractLsb' i 32) =
      [24, 16, 8, 0].map fun s => .ofBitVec (v.extractLsb' (i + s) 8) := by
  have hbyte : ∀ s, s + 8 ≤ 32 →
      ((v.extractLsb' i 32) >>> s).setWidth 8 = v.extractLsb' (i + s) 8 := by
    intro s hs
    refine BitVec.eq_of_getLsbD_eq fun j hj => ?_
    simp [hj, Nat.add_assoc, show s + j < 32 by omega]
  have hlow : (v.extractLsb' i 32).setWidth 8 = v.extractLsb' (i + 0) 8 := by
    rw [← hbyte 0 (by decide), BitVec.ushiftRight_zero]
  rw [putUint32Be, hbyte 24 (by decide), hbyte 16 (by decide),
    hbyte 8 (by decide), hlow]
  rfl

theorem putHalves_halves (v : BitVec 64) : putHalves (halves v) = bytes v := by
  rw [putHalves, halves, putUint32Be_extract, putUint32Be_extract]
  rfl

theorem permute_ip_fp (v : BitVec 64) : permute 64 ip (permute 64 fp v) = v :=
  ((xorLinear_permute ip).comp (xorLinear_permute fp)).agree .id
    (by decide +kernel) v

theorem permute_fp_ip (v : BitVec 64) : permute 64 fp (permute 64 ip v) = v :=
  ((xorLinear_permute fp).comp (xorLinear_permute ip)).agree .id
    (by decide +kernel) v

/-- A stage of the network, between the permutations. -/
def stage (keys : List (BitVec 48)) (v : BitVec 64) : BitVec 64 :=
  let h := Rounds.feistel (· ^^^ ·) cipherFunction keys (halves v)
  h.2 ++ h.1

theorem halves_stage (keys : List (BitVec 48)) (v : BitVec 64) :
    halves (stage keys v) =
      (Rounds.feistel (· ^^^ ·) cipherFunction keys (halves v)).swap :=
  Prod.ext BitVec.extractLsb'_append_eq_left
    BitVec.extractLsb'_append_eq_right

theorem crypt_stage (keys : List (BitVec 48)) (v : BitVec 64) :
    crypt keys v = permute 64 fp (stage keys (permute 64 ip v)) := rfl

/-- The rounds of the source under one schedule, halves swapped. -/
theorem desRounds_stage {keys : List (BitVec 48)} (hlen : keys.length = 16)
    (rest : List (Word × Word)) (v : BitVec 64) :
    desRounds 8 (keys.map split ++ rest) (turned (halves v)) =
      ((turned (halves (stage keys v))).swap, rest) := by
  have hswap : ∀ h : Word × Word, (turned h.swap).swap = turned h :=
    fun _ => rfl
  rw [desRounds_eq 8 (by rw [List.length_map, hlen]), feistel_split,
    halves_stage, hswap]

theorem desCryptEcb_crypt {keys : List (BitVec 48)} (hlen : keys.length = 16)
    (input : Bytes) : desCryptEcb (keys.map split) input =
      bytes (crypt keys (ofBytes input)) := by
  have hrounds := desRounds_stage hlen [] (permute 64 ip (ofBytes input))
  rw [List.append_nil] at hrounds
  rw [desCryptEcb, getHalves, ← halves_ofBytes, desIp_halves, hrounds,
    Prod.swap_swap, desFp_halves, putHalves_halves, ← crypt_stage]

theorem des3CryptEcb_crypt {keys1 keys2 keys3 : List (BitVec 48)}
    (hlen1 : keys1.length = 16) (hlen2 : keys2.length = 16)
    (hlen3 : keys3.length = 16) (input : Bytes) :
    des3CryptEcb (keys1.map split ++ keys2.map split ++ keys3.map split) input =
      bytes (crypt keys3 (crypt keys2 (crypt keys1 (ofBytes input)))) := by
  have hthird := desRounds_stage hlen3 [] (stage keys2 (stage keys1
    (permute 64 ip (ofBytes input))))
  rw [List.append_nil] at hthird
  rw [des3CryptEcb, getHalves, ← halves_ofBytes, desIp_halves,
    List.append_assoc, desRounds_stage hlen1]
  simp only [Prod.swap_swap, desRounds_stage hlen2, hthird]
  rw [desFp_halves, putHalves_halves]
  simp only [crypt_stage, permute_ip_fp]

/-! ## Both directions of a key -/

theorem schedule_length (key : BitVec 64) : (schedule key).length = 16 := rfl

theorem backwards_eq {sk : List (Word × Word)} (hlen : sk.length = 16) :
    backwards sk = sk.reverse := by
  match sk, hlen with
  | [_, _, _, _, _, _, _, _, _, _, _, _, _, _, _, _], _ => rfl

theorem desSetkeyDec_eq (key : Bytes) :
    desSetkeyDec key = (desSetkey key).reverse := by
  have hswaps : ∀ sk : List (Word × Word), sk.length = 16 →
      (List.range 8).foldl (fun sk i => swapEntries sk i (15 - i)) sk =
        sk.reverse := by
    intro sk hlen
    have hrange : List.range 8 = [0, 1, 2, 3, 4, 5, 6, 7] := rfl
    match sk, hlen with
    | [_, _, _, _, _, _, _, _, _, _, _, _, _, _, _, _], _ =>
        simp [hrange, swapEntries]
  refine hswaps _ ?_
  rw [desSetkey_schedule, List.length_map, schedule_length]

/-- Encryption is the one of the standard, and decryption as well. -/
theorem desCryptEcb_standard (key input : Bytes) :
    desCryptEcb (desSetkeyEnc key) input =
        bytes (encipher (ofBytes key) (ofBytes input)) ∧
      desCryptEcb (desSetkeyDec key) input =
        bytes (decipher (ofBytes key) (ofBytes input)) := by
  have hlen := schedule_length (ofBytes key)
  constructor
  · rw [desSetkeyEnc, desSetkey_schedule, desCryptEcb_crypt hlen, encipher]
  · rw [desSetkeyDec_eq, desSetkey_schedule, ← List.map_reverse,
      desCryptEcb_crypt (by rw [List.length_reverse, hlen]), decipher]

theorem des3CryptEcb_standard (key input : Bytes) :
    des3CryptEcb (des3Set3keyEnc key) input =
        bytes (encipher3 (ofBytes key) (ofBytes (key.drop 8))
          (ofBytes (key.drop 16)) (ofBytes input)) ∧
      des3CryptEcb (des3Set3keyDec key) input =
        bytes (decipher3 (ofBytes key) (ofBytes (key.drop 8))
          (ofBytes (key.drop 16)) (ofBytes input)) := by
  have hback : ∀ key : Bytes, backwards (desSetkey key) =
      (schedule (ofBytes key)).reverse.map split := by
    intro key
    rw [backwards_eq (by rw [desSetkey_schedule, List.length_map,
      schedule_length]), desSetkey_schedule, List.map_reverse]
  have hreverse : ∀ key, (schedule key).reverse.length = 16 := fun key => by
    rw [List.length_reverse, schedule_length]
  constructor
  · rw [des3Set3keyEnc, des3Set3key, hback]
    simp only [desSetkey_schedule]
    rw [des3CryptEcb_crypt (schedule_length _) (hreverse _) (schedule_length _),
      encipher3, encipher, decipher, encipher]
  · rw [des3Set3keyDec, des3Set3key, hback (key.drop 16), hback key]
    simp only [desSetkey_schedule]
    rw [des3CryptEcb_crypt (hreverse _) (schedule_length _) (hreverse _),
      decipher3, encipher, decipher, decipher]

/-! ## There and back -/

theorem stage_reverse (keys : List (BitVec 48)) (v : BitVec 64) :
    stage keys.reverse (stage keys v) = v := by
  have hback := @Rounds.feistel_reverse _ _
    (fun x y : BitVec 32 => x ^^^ y) cipherFunction
    (fun x y => by rw [BitVec.xor_assoc, BitVec.xor_self, BitVec.xor_zero])
    keys (halves v)
  rw [stage, halves_stage, hback]
  exact BitVec.extractLsb'_append_extractLsb'

/-- A block under a schedule, and then under the same one backwards. -/
theorem crypt_reverse (keys : List (BitVec 48)) (v : BitVec 64) :
    crypt keys.reverse (crypt keys v) = v := by
  rw [crypt_stage, crypt_stage, permute_ip_fp, stage_reverse, permute_fp_ip]

theorem decipher_encipher (key v : BitVec 64) :
    decipher key (encipher key v) = v := crypt_reverse _ v

theorem encipher_decipher (key v : BitVec 64) :
    encipher key (decipher key v) = v := by
  have h := crypt_reverse (schedule key).reverse v
  rwa [List.reverse_reverse] at h

end Mbedtls

/-! ## Strings -/

namespace Fips46

theorem ofBytes_bytes (v : BitVec 64) : ofBytes (bytes v) = v := by
  have hword : ∀ i, v.extractLsb' (i + 24) 8 ++ v.extractLsb' (i + 16) 8 ++
      v.extractLsb' (i + 8) 8 ++ v.extractLsb' i 8 = v.extractLsb' i 32 := by
    intro i
    rw [BitVec.extractLsb'_append_extractLsb'_eq_extractLsb' (by omega),
      BitVec.extractLsb'_append_extractLsb'_eq_extractLsb' (by omega),
      BitVec.extractLsb'_append_extractLsb'_eq_extractLsb' (by omega)]
  exact (congrArg₂ (· ++ ·) (hword 32) (hword 0)).trans
    BitVec.extractLsb'_append_extractLsb'

theorem append_inj {m n : Nat} {x x' : BitVec m} {y y' : BitVec n}
    (h : x ++ y = x' ++ y') : x = x' ∧ y = y' := by
  have hx := congrArg (BitVec.extractLsb' n m) h
  have hy := congrArg (BitVec.extractLsb' 0 n) h
  rw [BitVec.extractLsb'_append_eq_left, BitVec.extractLsb'_append_eq_left] at hx
  rw [BitVec.extractLsb'_append_eq_right,
    BitVec.extractLsb'_append_eq_right] at hy
  exact ⟨hx, hy⟩

/-- The word of four bytes has them. -/
theorem wordAt_inj {b b' : Bytes} {i : Nat} (h : wordAt b i = wordAt b' i)
    {j : Nat} (hj : j < 4) : b.getD (i + j) 0 = b'.getD (i + j) 0 := by
  obtain ⟨h, h3⟩ := append_inj h
  obtain ⟨h, h2⟩ := append_inj h
  obtain ⟨h0, h1⟩ := append_inj h
  match j, hj with
  | 0, _ => exact UInt8.toBitVec_inj.mp h0
  | 1, _ => exact UInt8.toBitVec_inj.mp h1
  | 2, _ => exact UInt8.toBitVec_inj.mp h2
  | 3, _ => exact UInt8.toBitVec_inj.mp h3

theorem bytes_ofBytes {b : Bytes} (h : b.length = 8) :
    bytes (ofBytes b) = b := by
  obtain ⟨hleft, hright⟩ := append_inj (ofBytes_bytes (ofBytes b))
  refine List.ext_getElem (by rw [h]; rfl) fun j hj hj' => ?_
  have hbyte : (bytes (ofBytes b)).getD j 0 = b.getD j 0 := by
    rcases Nat.lt_or_ge j 4 with hlt | hge
    · have hword := wordAt_inj hleft hlt
      rwa [Nat.zero_add] at hword
    · have hword := wordAt_inj hright (show j - 4 < 4 by omega)
      rwa [Nat.add_sub_cancel' hge] at hword
  rw [List.getD_eq_getElem?_getD, List.getElem?_eq_getElem hj,
    List.getD_eq_getElem?_getD, List.getElem?_eq_getElem hj'] at hbyte
  exact hbyte

end Fips46

namespace Mbedtls

theorem decipher3_encipher3 (k1 k2 k3 v : BitVec 64) :
    decipher3 k1 k2 k3 (encipher3 k1 k2 k3 v) = v := by
  rw [decipher3, encipher3, decipher_encipher, encipher_decipher,
    decipher_encipher]

theorem encipher3_decipher3 (k1 k2 k3 v : BitVec 64) :
    encipher3 k1 k2 k3 (decipher3 k1 k2 k3 v) = v := by
  rw [decipher3, encipher3, encipher_decipher, decipher_encipher,
    encipher_decipher]

/-- The two directions of one key undo each other, on every block. -/
theorem desCryptEcb_inverse (key : Bytes) {input : Bytes}
    (hlen : input.length = 8) :
    desCryptEcb (desSetkeyDec key) (desCryptEcb (desSetkeyEnc key) input) =
        input ∧
      desCryptEcb (desSetkeyEnc key) (desCryptEcb (desSetkeyDec key) input) =
        input := by
  simp only [desCryptEcb_standard, ofBytes_bytes, decipher_encipher,
    encipher_decipher, bytes_ofBytes hlen, and_self]

theorem des3CryptEcb_inverse (key : Bytes) {input : Bytes}
    (hlen : input.length = 8) :
    des3CryptEcb (des3Set3keyDec key)
        (des3CryptEcb (des3Set3keyEnc key) input) = input ∧
      des3CryptEcb (des3Set3keyEnc key)
        (des3CryptEcb (des3Set3keyDec key) input) = input := by
  simp only [des3CryptEcb_standard, ofBytes_bytes, decipher3_encipher3,
    encipher3_decipher3, bytes_ofBytes hlen, and_self]

end Mbedtls
end Nxpsc
