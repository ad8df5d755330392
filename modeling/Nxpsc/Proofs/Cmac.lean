import Nxpsc.Proofs.CryptoMemory
import Nxpsc.Proofs.LrpCounting
import Nxpsc.Spec.Cmac

/-!
# The MACs are CMAC

The doubling of a block byte by byte is the doubling of its number, so the
subkeys of the source are those of the standard. Both functions take a message
apart at the same place, in front of a last block that may be short: the one
pads in its buffer and chains, the other absorbs what stands before and mixes
the rest in. On lengths near the end of `size_t` the buffer of `nxpsc_cmac` is
one block, and the function writes behind it.
-/

namespace Nxpsc

open Cmac

/-! ## Doubling -/

theorem top_bit (b : UInt8) : b &&& 0x80 ≠ 0 ↔ 128 ≤ b.toNat := by
  have hall : ∀ v : BitVec 8, v &&& 0x80#8 ≠ 0#8 ↔ 128 ≤ v.toNat := by
    decide +kernel
  refine Iff.trans ?_ (hall b.toBitVec)
  rw [not_iff_not, ← UInt8.toBitVec_inj]
  rfl

theorem toNat_joined (x y : UInt8) :
    ((x <<< 1) ||| (y >>> 7)).toNat = (2 * x.toNat + y.toNat / 128) % 256 := by
  have hx := x.toNat_lt
  have hy := y.toNat_lt
  have hlow : y.toNat / 128 < 2 ^ 1 := by omega
  have hshift : x.toNat <<< 1 % 2 ^ 8 = 2 ^ 1 * (x.toNat % 128) := by
    rw [Nat.shiftLeft_eq]
    omega
  have hdown : y.toNat >>> 7 = y.toNat / 128 := Nat.shiftRight_eq_div_pow _ 7
  rw [UInt8.toNat_or, UInt8.toNat_shiftLeft, UInt8.toNat_shiftRight]
  show x.toNat <<< 1 % 2 ^ 8 ||| y.toNat >>> 7 = _
  rw [hshift, hdown, ← Nat.two_pow_add_eq_or_of_lt hlow]
  omega

theorem number_shiftLeft : ∀ xs : Bytes,
    number (shiftLeft xs) = 2 * number xs % 256 ^ xs.length
  | [] => rfl
  | [x] => by
      have hx : (x <<< 1).toNat = 2 * x.toNat % 256 := by
        rw [UInt8.toNat_shiftLeft]
        show x.toNat <<< 1 % 2 ^ 8 = _
        rw [Nat.shiftLeft_eq, Nat.mul_comm]
      simp only [shiftLeft, number, List.length_nil, List.length_singleton,
        Nat.pow_zero, Nat.mul_one, Nat.add_zero, Nat.pow_one, hx]
  | x :: y :: rest => by
      have hlost := lost_bit y rest
      have hq : 0 < 256 ^ (rest.length + 1) :=
        Nat.lt_of_le_of_lt (Nat.zero_le _) (number_lt (y :: rest))
      have hsum : 2 * number (x :: y :: rest) = 256 ^ (rest.length + 1) *
          (2 * x.toNat + y.toNat / 128) +
            2 * number (y :: rest) % 256 ^ (rest.length + 1) := by
        have hdm := Nat.div_add_mod (2 * number (y :: rest))
          (256 ^ (rest.length + 1))
        rw [hlost] at hdm
        rw [number, List.length_cons, Nat.mul_add, ← hdm, Nat.mul_add,
          Nat.mul_comm x.toNat, Nat.mul_left_comm, Nat.add_assoc,
          Nat.mul_add_mod, Nat.mod_mod]
      have hlt := Nat.mod_lt (2 * number (y :: rest)) hq
      rw [shiftLeft, number, number_shiftLeft (y :: rest), length_shiftLeft,
        toNat_joined, List.length_cons, List.length_cons, List.length_cons,
        hsum, Nat.pow_succ _ (rest.length + 1), mod_above hlt]

/-- A constant of one byte on the last byte. -/
theorem number_xorLast (r : UInt8) : ∀ {xs : Bytes}, xs ≠ [] →
    number (xorLast r xs) = number xs ^^^ r.toNat
  | [], h => absurd rfl h
  | [x], _ => by
      simp only [xorLast, number, List.length_nil, Nat.pow_zero, Nat.mul_one,
        Nat.add_zero, UInt8.toNat_xor]
  | x :: y :: rest, _ => by
      have hrest := number_lt (y :: rest)
      have hpow : 256 ^ (y :: rest).length = 2 ^ (8 * (y :: rest).length) :=
        (Nat.pow_mul 2 8 _).symm
      have hr : r.toNat < 2 ^ (8 * (y :: rest).length) := by
        refine Nat.lt_of_lt_of_le r.toNat_lt
          (Nat.pow_le_pow_right (by decide) ?_)
        rw [List.length_cons]
        omega
      rw [hpow] at hrest
      show x.toNat * 256 ^ (xorLast r (y :: rest)).length +
          number (xorLast r (y :: rest)) =
        (x.toNat * 256 ^ (y :: rest).length + number (y :: rest)) ^^^ r.toNat
      rw [number_xorLast r (List.cons_ne_nil y rest), length_xorLast, hpow]
      exact low_xor _ hrest hr

/-- `shift_left` and the constant are a doubling. -/
theorem number_doubled (r : UInt8) {l : Bytes} (hne : l ≠ []) :
    number (if l.headD 0 &&& 0x80 ≠ 0 then xorLast r (shiftLeft l)
        else shiftLeft l) = double l.length r.toNat (number l) := by
  have hne' : shiftLeft l ≠ [] := by
    intro hnil
    have hlen := length_shiftLeft l
    rw [hnil] at hlen
    exact hne (List.length_eq_zero_iff.mp hlen.symm)
  have htop : l.headD 0 &&& 0x80 ≠ 0 ↔ 256 ^ l.length ≤ 2 * number l := by
    cases l with
    | nil => exact absurd rfl hne
    | cons b rest =>
        have hlost := lost_bit b rest
        have hb := b.toNat_lt
        have hpos : 0 < 256 ^ (rest.length + 1) := Nat.pos_of_ne_zero (by simp)
        rw [List.headD_cons, top_bit, List.length_cons,
          ← Nat.one_le_div_iff hpos, hlost]
        omega
  rw [double]
  split
  · next hbit =>
      rw [if_pos (htop.mp hbit), number_xorLast r hne', number_shiftLeft]
  · next hbit =>
      rw [if_neg (hbit ∘ htop.mpr), number_shiftLeft]

/-- A block is not empty. -/
theorem IsBlock.ne_nil {type : KeyType} {l : Bytes} (h : IsBlock type l) :
    l ≠ [] := by
  rintro rfl
  exact absurd h (Nat.ne_of_lt (blockSize_pos type))

theorem number_doubleBlock {type : KeyType} {l : Bytes} (h : IsBlock type l) :
    number (doubleBlock type l) =
      double (blockSize type) (cmacConstant type).toNat (number l) := by
  have hdouble := number_doubled (cmacConstant type) h.ne_nil
  rwa [show l.length = blockSize type from h] at hdouble

theorem isBlock_doubleBlock {type : KeyType} {l : Bytes}
    (h : IsBlock type l) : IsBlock type (doubleBlock type l) :=
  (length_doubleBlock type l).trans h

/-- Doubled once and twice, as blocks. -/
theorem doubled_eq {type : KeyType} {l : Bytes} (h : IsBlock type l) :
    (doubleBlock type l, doubleBlock type (doubleBlock type l)) =
      (block (blockSize type)
        (double (blockSize type) (cmacConstant type).toNat (number l)),
        block (blockSize type)
          (double (blockSize type) (cmacConstant type).toNat
            (double (blockSize type) (cmacConstant type).toNat
              (number l)))) := by
  have hsk := isBlock_doubleBlock h
  refine Prod.ext (eq_block hsk (number_doubleBlock h))
    (eq_block (isBlock_doubleBlock hsk) ?_)
  rw [number_doubleBlock hsk, number_doubleBlock h]

/-- A subkey of the size of the last block meets that block. -/
theorem xorTail_append (front : Bytes) {last k : Bytes}
    (h : last.length = k.length) :
    xorTail (front ++ last) k = front ++ Bytes.xor last k := by
  rw [xorTail, List.length_append, h, Nat.add_sub_cancel, List.take_left,
    List.drop_left]

/-! ## The bytes that are sent -/

theorem truncateMac_odd : ∀ full : Bytes,
    truncateMac full =
      (List.range (full.length / 2)).map fun i => full.getD (2 * i + 1) 0
  | [] => by simp [truncateMac]
  | [_] => by simp [truncateMac]
  | a :: b :: rest => by
      have hhalf : (a :: b :: rest).length / 2 = rest.length / 2 + 1 := by
        rw [List.length_cons, List.length_cons]
        omega
      rw [truncateMac, truncateMac_odd rest, hhalf, List.range_succ_eq_map,
        List.map_cons, List.map_map]
      rfl

theorem truncateMac_eq_oddBytes {full : Bytes} (h : full.length = 16) :
    truncateMac full = oddBytes full := by
  rw [truncateMac_odd, h]
  rfl

section

variable [BlockCipher]

theorem cmacSubkeys_eq (type : KeyType) (key : Bytes) :
    cmacSubkeys type key = subkeys (blockSize type)
      (cmacConstant type).toNat (ecbEncryptBlock type key) :=
  doubled_eq (ecbEncryptBlock_length (Bytes.length_zeros _))

theorem lrpSubkeys_eq (key : Bytes) : lrpSubkeys key = lrpCmacKeys key := by
  have hl : IsBlock .aes128 (lrpBlock (lrpInit key 0 true) lrpConst00) :=
    lrpEval_length _ _ _
  exact doubled_eq hl

/-! ## `nxpsc_cmac` -/

/-- The string that is chained is the message with another last block. -/
theorem cmacInput_zero (type : KeyType) (key data : Bytes) :
    cmacInput type key data 0 =
      data.take ((data.length - 1) / blockSize type * blockSize type) ++
        finalBlock (blockSize type) (cmacSubkeys type key)
          (data.drop ((data.length - 1) / blockSize type *
            blockSize type)) := by
  have hbs := blockSize_pos type
  obtain ⟨hk1, hk2⟩ := cmacSubkeys_length type key
  obtain ⟨hfront, hlast, hmore⟩ := length_front hbs data
  generalize (data.length - 1) / blockSize type = n at hfront hlast hmore
  have hsplit := List.take_append_drop (n * blockSize type) data
  have hlen : (data.take (n * blockSize type)).length = n * blockSize type := by
    rw [List.length_take, Nat.min_eq_left hfront]
  have hrest : (data.drop (n * blockSize type)).length =
      data.length - n * blockSize type := List.length_drop
  generalize data.take (n * blockSize type) = front at hsplit hlen ⊢
  generalize data.drop (n * blockSize type) = last at hsplit hrest ⊢
  have hmod : data.length % blockSize type = last.length % blockSize type := by
    rw [← hsplit, List.length_append, hlen, Nat.mul_comm, Nat.mul_add_mod]
  by_cases hwhole : last.length = blockSize type
  · rw [hwhole, Nat.mod_self] at hmod
    rw [cmacInput, if_neg (by omega), finalBlock, if_pos hwhole, ← hsplit,
      xorTail_append front (hwhole.trans hk1.symm)]
  · have hshort : last.length < blockSize type := by omega
    rw [Nat.mod_eq_of_lt hshort] at hmod
    have hpad := fit_pad hbs data
    rw [← hsplit, pad_append hlen] at hpad
    rw [hsplit] at hpad
    rw [cmacInput, if_pos (by omega), finalBlock, if_neg hwhole]
    dsimp only
    rw [Nat.max_eq_left (Nat.zero_le _), hpad,
      xorTail_append front ((length_pad_short hshort).trans hk2.symm)]

/-- The MAC is where the chain over its input ends. -/
theorem cmac_send (type : KeyType) (key data : Bytes) (minLen : Nat)
    {iv : Bytes} (hiv : iv.take (blockSize type) =
      Bytes.zeros (blockSize type)) :
    Nxpsc.cmac type key iv data minLen =
      .ok (Cbc.send (ecbEncryptBlock type key) Bytes.xor
        (Bytes.zeros (blockSize type)) (Bytes.chunks (blockSize type)
          ((cmacInput type key data minLen).length / blockSize type)
          (cmacInput type key data minLen))).2 := by
  obtain ⟨hpos, hmod⟩ := cmacInput_blocks type key data minLen
  simp only [Nxpsc.cmac, cbcCrypt, cbcCryptEx]
  rw [if_neg (by omega), hiv]
  rfl

theorem cmac_tag (type : KeyType) (key data : Bytes) {iv : Bytes}
    (hiv : iv.take (blockSize type) = Bytes.zeros (blockSize type)) :
    Nxpsc.cmac type key iv data 0 = .ok (nistCmac type key data) := by
  have hbs := blockSize_pos type
  obtain ⟨hfront, hlast, -⟩ := length_front hbs data
  have hlen : (data.take ((data.length - 1) / blockSize type *
      blockSize type)).length =
        (data.length - 1) / blockSize type * blockSize type := by
    rw [List.length_take, Nat.min_eq_left hfront]
  have hblock := @length_finalBlock (blockSize type) (cmacSubkeys type key)
    (data.drop ((data.length - 1) / blockSize type * blockSize type))
    (cmacSubkeys_length type key) (by rw [List.length_drop]; exact hlast)
  have hinput : Bytes.chunks (blockSize type)
      ((cmacInput type key data 0).length / blockSize type)
      (cmacInput type key data 0) =
        Bytes.chunks (blockSize type) ((data.length - 1) / blockSize type)
          data ++
        [finalBlock (blockSize type) (cmacSubkeys type key)
          (data.drop ((data.length - 1) / blockSize type *
            blockSize type))] := by
    rw [cmacInput_zero, List.length_append, hlen, hblock, ← Nat.succ_mul,
      Nat.mul_div_cancel _ hbs, Bytes.chunks_append 1 _ hlen,
      Bytes.chunks_take, Bytes.chunks, Bytes.chunks,
      List.take_of_length_le (Nat.le_of_eq hblock)]
  rw [cmac_send type key data 0 hiv, hinput, send_chain, nistCmac, mac, tag,
    cmacSubkeys_eq]

theorem cmac_zero (key data : Bytes) :
    cmac .aes128 key (Bytes.zeros aesBlock) data 0 =
      .ok (nistCmac .aes128 key data) :=
  cmac_tag .aes128 key data rfl

theorem length_nistCmac (key data : Bytes) :
    (nistCmac .aes128 key data).length = 16 := by
  obtain ⟨mac, hmac, hlen⟩ := @cmac_isOk _ .aes128 key (Bytes.zeros aesBlock)
    data 0 (Nat.le_refl 16)
  rw [cmac_zero] at hmac
  rw [Except.ok.inj hmac]
  exact hlen

theorem truncateMac_nist (key data : Bytes) :
    truncateMac (nistCmac .aes128 key data) = cardMac key data :=
  truncateMac_eq_oddBytes (length_nistCmac key data)

theorem length_cardMac (key data : Bytes) : (cardMac key data).length = 8 := by
  rw [cardMac, oddBytes, List.length_map, List.length_range]

theorem length_cardLrpMac (key data : Bytes) :
    (cardLrpMac key data).length = 8 := by
  rw [cardLrpMac, oddBytes, List.length_map, List.length_range]

theorem cardMac_take (key data : Bytes) :
    cardMac (key.take aesBlock) data = cardMac key data := by
  have hcipher : ecbEncryptBlock .aes128 (key.take aesBlock) =
      ecbEncryptBlock .aes128 key := by
    funext block
    rw [ecbEncryptBlock, ecbEncryptBlock, List.take_take, keySize, aesBlock,
      Nat.min_self]
  rw [cardMac, cardMac, nistCmac, nistCmac, hcipher]

/-! ## `nxpsc_lrp_cmac` -/

theorem lrpAbsorb_chain (ctx : LrpCtx) (count : Nat) (y data : Bytes) :
    (lrpAbsorb ctx count y data).1 =
      chain (lrpBlock ctx) y (Bytes.chunks aesBlock count data) := by
  induction count generalizing y data with
  | zero => rfl
  | succ count ih =>
      rw [lrpAbsorb, ih, Bytes.chunks, chain, chain, List.foldl_cons,
        Bytes.xor_comm (data.take aesBlock)]
      rfl

theorem lrpCmac_tag (ctx : LrpCtx) (data : Bytes) :
    lrpCmac ctx data =
      tag aesBlock (lrpCmacKeys ctx.key) (lrpBlock ctx) data := by
  have hpos : 0 < aesBlock := by decide
  obtain ⟨-, hlast, -⟩ := length_front hpos data
  have hlen : (data.drop ((data.length - 1) / aesBlock * aesBlock)).length ≤
      aesBlock := by
    rw [List.length_drop]
    exact hlast
  rw [lrpCmac, tag, chain_append, lrpSubkeys_eq]
  rw [lrpAbsorb_chain, InMemory.lrpAbsorb_rest]
  have hzero : lrpConst00 = Bytes.zeros aesBlock := rfl
  rw [hzero]
  generalize data.drop ((data.length - 1) / aesBlock * aesBlock) = last
    at hlen
  generalize chain (lrpBlock ctx) (Bytes.zeros aesBlock)
    (Bytes.chunks aesBlock ((data.length - 1) / aesBlock) data) = y
  rw [finalBlock, lrpBlock]
  split
  · rw [Bytes.xor_comm y, Bytes.xor_assoc, Bytes.xor_comm y,
      ← Bytes.xor_assoc]
  · next hpart =>
      have hshort : last.length + 1 ≤ aesBlock := by omega
      have hpad := fit_pad hpos last
      have hlen : paddedLen (last.length + 1) aesBlock = aesBlock := by
        rw [paddedLen_succ hpos, Nat.mod_eq_of_lt hshort]
        omega
      rw [hlen] at hpad
      rw [hpad, Bytes.xor_comm y, Bytes.xor_assoc, Bytes.xor_comm y,
        ← Bytes.xor_assoc]

theorem lrpInit_key (key : Bytes) (updatedKey : Nat) (bits : Bool) :
    lrpCmacKeys (lrpInit key updatedKey bits).key = lrpCmacKeys key := by
  have htake : (key.take aesBlock).take aesBlock = key.take aesBlock := by
    rw [List.take_take, Nat.min_self]
  show lrpCmacKeys (key.take aesBlock) = lrpCmacKeys key
  rw [lrpCmacKeys, lrpInit, htake]
  rfl

theorem lrpCmac_nist (key data : Bytes) :
    lrpCmac (lrpInit key 0 true) data = nistLrpCmac key data := by
  rw [lrpCmac_tag, lrpInit_key]
  rfl

theorem lrpCmac8_card (key data : Bytes) :
    lrpCmac8 (lrpInit key 0 true) data = cardLrpMac key data := by
  rw [lrpCmac8, truncateMac_eq_oddBytes (lrpCmac_length _ _), lrpCmac_nist]
  rfl

end

namespace InMemory

open Checked

variable {σ : Type} {n : Nat}

/-! ## The buffer -/

theorem cmacBuflen_small {bs want : Nat} (hbs : 0 < bs)
    (h : want + bs < 2 ^ 64) :
    cmacBuflen bs want = (want + 1 + bs - 1) / bs * bs := by
  have hone : 1 ≤ (want + 1 + bs - 1) / bs :=
    (Nat.one_le_div_iff hbs).mpr (by omega)
  have hpos : 0 < (want + 1 + bs - 1) / bs * bs := Nat.mul_pos hone hbs
  rw [cmacBuflen, Nat.mod_eq_of_lt (by omega)]
  exact if_neg (by omega)

/-- Where the sum leaves `size_t` one block is left. -/
theorem cmacBuflen_wrapped {bs want : Nat} (hwant : want < 2 ^ 64)
    (hbs : bs < 2 ^ 64) (h : 2 ^ 64 ≤ want + bs) :
    cmacBuflen bs want = bs := by
  have hmod : (want + 1 + bs - 1) % 2 ^ 64 = want + bs - 2 ^ 64 := by
    rw [Nat.mod_eq_sub_mod (by omega), Nat.mod_eq_of_lt (by omega)]
    omega
  rw [cmacBuflen, hmod, Nat.div_eq_of_lt (by omega), Nat.zero_mul]
  exact if_pos rfl

/-- The zeros of the padding run out of the buffer. -/
theorem cmacPad_fault {bs minLen : Nat} (h : n < minLen) :
    ∀ (fuel mlen : Nat) (buffer : Buf n), mlen ≤ n →
      (cmacPad bs minLen fuel mlen buffer : Run σ _) = fault := by
  intro fuel
  induction fuel with
  | zero => exact fun _ _ _ => rfl
  | succ fuel ih =>
      intro mlen buffer hle
      rw [cmacPad, if_pos (.inr (by omega))]
      rcases Nat.lt_or_ge mlen n with hlt | hge
      · rw [store_eq (show mlen + 1 ≤ n from hlt), pure_bind']
        exact ih (mlen + 1) _ hlt
      · rw [store_fault (show n < mlen + 1 by omega)]
        rfl

theorem take_zeroIv (type : KeyType) :
    (Buf.zero maxBlock).bytes.take (blockSize type) =
      Bytes.zeros (blockSize type) := by
  rw [Buf.bytes_zero, Bytes.zeros, List.take_replicate,
    Nat.min_eq_left (blockSize_le type)]
  rfl

section

variable [BlockCipher] {type : KeyType} {key data : Bytes} {len minLen : Nat}

theorem cmacSized_eq (iv mac : Buf maxBlock)
    (h : max minLen len + blockSize type < 2 ^ 64) :
    (cmacSized type key iv data len minLen mac : Run σ _) =
      cmac type key iv data len minLen mac := by
  rw [cmacSized, cmacBuflen_small (blockSize_pos type) h]
  rfl

theorem cmacSized_fault (iv mac : Buf maxBlock) (hdata : len ≤ data.length)
    (hlen : len < 2 ^ 64) (hmin : minLen < 2 ^ 64)
    (h : 2 ^ 64 ≤ max minLen len + blockSize type) :
    (cmacSized type key iv data len minLen mac : Run σ _) = fault := by
  have hbs := blockSize_le type
  have hmax : maxBlock = 16 := rfl
  have hfront : (data.take len).length = len := by
    rw [List.length_take, Nat.min_eq_left hdata]
  rw [cmacSized, cmacBuflen_wrapped (by omega) (by omega) h]
  simp only [cmacIn]
  rw [load_front hdata, pure_bind']
  rcases Nat.lt_or_ge (blockSize type) len with hlong | hshort
  · rw [store_fault (by omega)]
    rfl
  rw [store_zero (by omega), pure_bind', if_pos (by omega)]
  rcases Nat.lt_or_ge len (blockSize type) with hlt | hge
  · rw [store_eq (show len + 1 ≤ _ from hlt), pure_bind',
      cmacPad_fault (by omega) _ _ _ hlt]
    rfl
  · rw [store_fault (show _ < len + 1 by omega)]
    rfl

/-! ## Both MACs -/

theorem isCmac_small (hdata : len ≤ data.length)
    (h : max minLen len + blockSize type < 2 ^ 64) :
    IsCmac type key data len minLen := by
  intro iv mac
  obtain ⟨full, hfull, hlen, hrun⟩ := @cmac_eq Unit _ type key iv mac data len
    minLen hdata
  refine ⟨full, (cmacSized_eq iv mac h).trans hrun, hlen, ?_⟩
  rintro rfl rfl
  rw [cmac_tag type key _ (take_zeroIv type)] at hfull
  exact (Except.ok.inj hfull).symm

theorem isCmac_iff (key : Bytes) (hdata : len ≤ data.length)
    (hlen : len < 2 ^ 64) (hmin : minLen < 2 ^ 64) :
    IsCmac type key data len minLen ↔
      max minLen len + blockSize type < 2 ^ 64 := by
  refine ⟨fun h => Nat.lt_of_not_le fun hlong => ?_, isCmac_small hdata⟩
  obtain ⟨full, hrun, -⟩ := h (.zero maxBlock) (.zero maxBlock)
  rw [cmacSized_fault _ _ hdata hlen hmin hlong] at hrun
  exact fault_ne_pure _ hrun

/-- A context of a key, whatever its counter. -/
theorem lrpBlock_set (key : Bytes) (updatedKey : Nat) (bits : Bool)
    (counter : Bytes) (lenNibbles : Nat) :
    lrpBlock (lrpSetCounter (lrpInit key updatedKey bits) counter lenNibbles) =
      lrpBlock (lrpInit key updatedKey true) := by
  rw [lrpSetCounter]
  split <;> rfl

/-- The context keeps as much of the key as it uses. -/
theorem lrpCmac_isCmac (key : Bytes) (hdata : len ≤ data.length) :
    LrpIsCmac key data len := by
  have hrun : ∀ updatedKey bits counter lenNibbles mac,
      (lrpCmac (lrpSetCounter (lrpInit key updatedKey bits) counter lenNibbles)
        data len mac : Run Unit _) =
          pure (mac.put (tag aesBlock (lrpCmacKeys key)
            (lrpBlock (lrpInit key updatedKey true)) (data.take len))) := by
    intro updatedKey bits counter lenNibbles mac
    rw [lrpCmac_eq mac hdata, lrpCmac_tag, lrpSetCounter_key, lrpInit_key,
      lrpBlock_set]
  refine ⟨fun updatedKey bits counter lenNibbles mac => ?_,
    fun bits counter lenNibbles mac => ?_⟩
  · dsimp only
    rw [hrun, lrpBlock_set]
  · dsimp only
    rw [hrun, lrpBlock_set]
    rfl

/-- Both MACs are CMAC, as long as the buffer of the first has a size. -/
theorem cmacs_are_cmac_iff (type : KeyType) (key lrpKey : Bytes)
    (hdata : len ≤ data.length) (hlen : len < 2 ^ 64)
    (hmin : minLen < 2 ^ 64) :
    IsCmac type key data len minLen ∧ LrpIsCmac lrpKey data len ↔
      max minLen len + blockSize type < 2 ^ 64 := by
  rw [isCmac_iff key hdata hlen hmin]
  exact and_iff_left (lrpCmac_isCmac lrpKey hdata)

end

theorem cmacs_are_cmac_hello :
    @IsCmac .identity .aes128 (Bytes.zeros 16) [0x68, 0x69] 2 0 ∧
      @LrpIsCmac .identity (Bytes.zeros 16) [0x68, 0x69] 2 :=
  (@cmacs_are_cmac_iff .identity [0x68, 0x69] 2 0 .aes128 (Bytes.zeros 16)
    (Bytes.zeros 16) (by decide) (by decide) (by decide)).mpr (by decide)

/-- The last multiple of a block there is as a minimum length. -/
theorem cmac_buffer_wraps :
    (2 ^ 64 - 16) % blockSize .aes128 = 0 ∧
      ¬ @IsCmac .identity .aes128 (Bytes.zeros 16) [] 0 (2 ^ 64 - 16) := by
  refine ⟨by decide, fun h => ?_⟩
  have hsmall := (@isCmac_iff .identity .aes128 [] 0 (2 ^ 64 - 16)
    (Bytes.zeros 16) (by decide) (by decide) (by decide)).mp h
  exact absurd hsmall (by decide)

end InMemory

end Nxpsc
