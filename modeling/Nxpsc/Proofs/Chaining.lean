import Mathlib.Data.Set.Finite.List
import Nxpsc.Spec.HonestCard

/-!
# Both ends of a chain

`nxpsc_cbc_crypt_ex` on whole blocks is one end of a chain, the card's
`cbcSent` and `cbcReceived` the other. Undoing the sender's primitive recovers
the message and leaves both ends on the same block, whichever of the two
primitives the sender used; a block cipher is a permutation of the blocks, so
its decryption undoing its encryption is enough.
-/

namespace Nxpsc

/-! ## Encryption undoes decryption -/

instance finite_octet : Finite UInt8 :=
  Finite.of_injective UInt8.toFin fun _ _ h => UInt8.toFin_inj.mp h

/-- On the finitely many blocks a left inverse is a right one. -/
theorem encrypt_decrypt {c : BlockCipher} (hinv : DecryptInverts c)
    {type : KeyType} (key : Bytes) {block : Bytes}
    (hblock : block.length = blockSize type) :
    c.encrypt type key (c.decrypt type key block) = block := by
  have hfinite : {b : Bytes | b.length = blockSize type}.Finite :=
    List.finite_length_eq UInt8 (blockSize type)
  have hmaps : Set.MapsTo (c.encrypt type key)
      {b : Bytes | b.length = blockSize type}
      {b : Bytes | b.length = blockSize type} :=
    fun b hb => c.encrypt_length type key b hb
  have hinj : Set.InjOn (c.encrypt type key)
      {b : Bytes | b.length = blockSize type} := by
    intro a ha b hb heq
    rw [← hinv type key a ha, heq, hinv type key b hb]
  obtain ⟨-, -, hsurj⟩ := (hfinite.injOn_iff_bijOn_of_mapsTo hmaps).mp hinj
  obtain ⟨b, hb, rfl⟩ := hsurj hblock
  rw [hinv type key b hb]

/-! ## Strings of blocks -/

/-- A primitive and the one that undoes it, on blocks of one size. -/
structure BlockPair (bs : Nat) (f g : Bytes → Bytes) : Prop where
  length : ∀ b : Bytes, b.length = bs → (f b).length = bs
  undo : ∀ b : Bytes, b.length = bs → g (f b) = b

section

variable {bs : Nat} {f g : Bytes → Bytes} {iv data : Bytes}

/-- What is sent of whole blocks is as many blocks. -/
theorem BlockPair.sent_ok (hp : BlockPair bs f g) (hiv : bs ≤ iv.length)
    (hmod : data.length % bs = 0) :
    (∀ b ∈ (Cbc.send f Bytes.xor (iv.take bs)
        (Bytes.chunks bs (data.length / bs) data)).1, b.length = bs) ∧
      (cbcSent bs f iv data).2.length = bs ∧
      Cbc.receive g Bytes.xor (iv.take bs) (Cbc.send f Bytes.xor (iv.take bs)
        (Bytes.chunks bs (data.length / bs) data)).1 =
        (Bytes.chunks bs (data.length / bs) data,
          (cbcSent bs f iv data).2) := by
  have hcount : data.length = data.length / bs * bs :=
    (Nat.div_mul_cancel (Nat.dvd_of_mod_eq_zero hmod)).symm
  have hiv' : (iv.take bs).length = bs := by
    rw [List.length_take]
    omega
  have hxor : ∀ a b : Bytes, a.length = bs → b.length = bs →
      (Bytes.xor a b).length = bs := by
    intro a b ha hb
    rw [Bytes.length_xor, ha, hb, Nat.min_self]
  have hblocks := Bytes.length_of_mem_chunks hcount
  obtain ⟨hall, hlast⟩ := Cbc.send_ok hp.length hxor hiv' hblocks
  exact ⟨hall, hlast, Cbc.receive_send hp.length hxor hp.undo
    (fun a b ha hb => Bytes.xor_cancel (Eq.trans ha (Eq.symm hb))) hiv'
    hblocks⟩

theorem BlockPair.length_sent (hp : BlockPair bs f g) (hiv : bs ≤ iv.length)
    (hmod : data.length % bs = 0) :
    (cbcSent bs f iv data).1.length = data.length := by
  have hcount : data.length = data.length / bs * bs :=
    (Nat.div_mul_cancel (Nat.dvd_of_mod_eq_zero hmod)).symm
  rw [cbcSent, Bytes.length_flatten (hp.sent_ok hiv hmod).1, Cbc.length_send,
    Bytes.length_chunks, ← hcount]

/-- Received with the undoing primitive, a chain gives the message back, and
both ends are at the same block. -/
theorem BlockPair.received (hp : BlockPair bs f g) (hiv : bs ≤ iv.length)
    (hmod : data.length % bs = 0) :
    cbcReceived bs g iv (cbcSent bs f iv data).1 =
      (data, (cbcSent bs f iv data).2) := by
  have hcount : data.length = data.length / bs * bs :=
    (Nat.div_mul_cancel (Nat.dvd_of_mod_eq_zero hmod)).symm
  obtain ⟨hall, -, hback⟩ := hp.sent_ok hiv hmod
  have hchunks := Bytes.chunks_flatten hall
  rw [Cbc.length_send, Bytes.length_chunks] at hchunks
  rw [cbcReceived, hp.length_sent hiv hmod, cbcSent, hchunks, hback]
  simp only [Bytes.flatten_chunks hcount]
  rfl

end

/-! ## The library and the card on one chain -/

theorem blockSize_le_zeroIv (type : KeyType) :
    blockSize type ≤ zeroIv.length := by
  rw [zeroIv, Bytes.length_zeros]
  exact blockSize_le type

section

variable [c : BlockCipher]

theorem encryptPair (hinv : DecryptInverts c) (type : KeyType) (key : Bytes) :
    BlockPair (blockSize type) (ecbEncryptBlock type key)
      (ecbDecryptBlock type key) :=
  ⟨fun _ hb => ecbEncryptBlock_length hb, fun b hb => hinv type _ b hb⟩

theorem decryptPair (hinv : DecryptInverts c) (type : KeyType) (key : Bytes) :
    BlockPair (blockSize type) (ecbDecryptBlock type key)
      (ecbEncryptBlock type key) :=
  ⟨fun _ hb => ecbDecryptBlock_length hb,
    fun _ hb => encrypt_decrypt hinv _ hb⟩

/-- Two keys are one to the primitives. -/
structure SameCipher (type : KeyType) (key key' : Bytes) : Prop where
  encrypt : ecbEncryptBlock type key = ecbEncryptBlock type key'
  decrypt : ecbDecryptBlock type key = ecbDecryptBlock type key'

variable {type : KeyType} {stored key iv data : Bytes}

/-- The library sends what the card would, enciphering. -/
theorem SameCipher.sends (hsame : SameCipher type stored key) (iv : Bytes)
    {data : Bytes} (hpos : 0 < data.length)
    (hmod : data.length % blockSize type = 0) :
    cbcCryptEx type key iv data true true =
      .ok (encSent type stored iv data) := by
  simp only [cbcCryptEx]
  rw [if_neg (by omega), encSent, hsame.encrypt]
  rfl

theorem SameCipher.mirrors (hsame : SameCipher type stored key) (iv : Bytes)
    {data : Bytes} (hpos : 0 < data.length)
    (hmod : data.length % blockSize type = 0) :
    cbcCryptEx type key iv data true false =
      .ok (decSent type stored iv data) := by
  simp only [cbcCryptEx]
  rw [if_neg (by omega), decSent, hsame.decrypt]
  rfl

/-- The library reads what the card sent along the same chain. -/
theorem SameCipher.reads (hinv : DecryptInverts c)
    (hsame : SameCipher type stored key) (hiv : blockSize type ≤ iv.length)
    (hpos : 0 < data.length) (hmod : data.length % blockSize type = 0) :
    cbcCryptEx type key iv (encSent type stored iv data).1 false false =
      .ok (data, (encSent type stored iv data).2) := by
  have hpair := encryptPair hinv type stored
  have hlen : (encSent type stored iv data).1.length = data.length :=
    hpair.length_sent hiv hmod
  have hback : cbcReceived (blockSize type) (ecbDecryptBlock type stored) iv
      (encSent type stored iv data).1 =
        (data, (encSent type stored iv data).2) :=
    hpair.received hiv hmod
  simp only [cbcCryptEx]
  rw [hlen, if_neg (by omega), ← hback, cbcReceived, hlen, hsame.decrypt]
  rfl

theorem decReceived_encSent (key : Bytes) (hinv : DecryptInverts c)
    (hiv : blockSize type ≤ iv.length)
    (hmod : data.length % blockSize type = 0) :
    decReceived type key iv (encSent type key iv data).1 =
      (data, (encSent type key iv data).2) :=
  (encryptPair hinv type key).received hiv hmod

theorem encReceived_decSent (key : Bytes) (hinv : DecryptInverts c)
    (hiv : blockSize type ≤ iv.length)
    (hmod : data.length % blockSize type = 0) :
    encReceived type key iv (decSent type key iv data).1 =
      (data, (decSent type key iv data).2) :=
  (decryptPair hinv type key).received hiv hmod

theorem length_encSent (key : Bytes) (hinv : DecryptInverts c)
    (hiv : blockSize type ≤ iv.length)
    (hmod : data.length % blockSize type = 0) :
    (encSent type key iv data).1.length = data.length :=
  (encryptPair hinv type key).length_sent hiv hmod

theorem length_decSent (hinv : DecryptInverts c)
    (hiv : blockSize type ≤ iv.length)
    (hmod : data.length % blockSize type = 0) :
    (decSent type key iv data).1.length = data.length :=
  (decryptPair hinv type key).length_sent hiv hmod

theorem length_encSent_last (hinv : DecryptInverts c)
    (hiv : blockSize type ≤ iv.length)
    (hmod : data.length % blockSize type = 0) :
    (encSent type key iv data).2.length = blockSize type :=
  ((encryptPair hinv type key).sent_ok hiv hmod).2.1

/-! ## LRP blocks -/

/-- Deciphering from the counter they were enciphered from gives the blocks
back and leaves the same context. -/
theorem lrpBlocks_undo (hinv : DecryptInverts c) :
    ∀ {ctx : LrpCtx} {blocks : List Bytes}, (∀ b ∈ blocks, b.length = 16) →
      lrpBlocks (fun y b => ecbDecryptBlock .aes128 y b) ctx
          (lrpBlocks (fun y b => ecbEncryptBlock .aes128 y b) ctx blocks).1 =
        (blocks,
          (lrpBlocks (fun y b => ecbEncryptBlock .aes128 y b) ctx
            blocks).2) := by
  intro ctx blocks
  induction blocks generalizing ctx with
  | nil => intro _; rfl
  | cons b rest ih =>
      intro hall
      have hb : ∀ y, ecbDecryptBlock .aes128 y (ecbEncryptBlock .aes128 y b) =
          b := fun y => hinv .aes128 _ b (hall b (.head _))
      have hrest := @ih ctx.next fun x hx => hall x (.tail _ hx)
      simp only [lrpBlocks, hrest, hb]

theorem length_lrpSent (session counter : Bytes) {data : Bytes}
    (hmod : data.length % aesBlock = 0) :
    (lrpSent session counter data).1.length = data.length :=
  lrpBlocks_flatten (fun _ _ hb => ecbEncryptBlock_length hb)
    (Nat.div_mul_cancel (Nat.dvd_of_mod_eq_zero hmod)).symm

/-- The library enciphers as the card would from the same counter. -/
theorem lrpEncode_sent (session : Bytes)
    {counter counter' data : Bytes} {cap : Nat}
    (hcounter : counter.take 4 = counter'.take 4) (hpos : 0 < data.length)
    (hmod : data.length % aesBlock = 0) (hcap : data.length ≤ cap) :
    ∃ ctx', lrpEncode (lrpSetCounter (lrpInit session 1 false) counter (4 * 2))
        data cap = (.ok (lrpSent session counter' data).1, ctx') ∧
      ctx'.counter.bytes.take 4 = (lrpSent session counter' data).2 := by
  have hbits : (lrpSetCounter (lrpInit session 1 false) counter'
      8).bitPadding = false := lrpSetCounter_bitPadding _ _ _
  have hfit : Bytes.fit data.length (data ++ []) = data := by
    rw [List.append_nil, Bytes.fit_self rfl]
  refine ⟨_, ?_, rfl⟩
  simp only [lrpEncode, lrpSetCounter_congr _ hcounter, hbits,
    Bool.false_eq_true, if_false, Nat.add_zero, paddedLen_of_mod hmod, hfit]
  rw [if_neg (by omega), if_neg (by omega)]
  rfl

/-- What was sent is received by running over as many blocks. -/
theorem lrpBlocks_sent (hinv : DecryptInverts c) (ctx : LrpCtx)
    {data : Bytes} (hmod : data.length % aesBlock = 0) :
    lrpBlocks (fun y b => ecbDecryptBlock .aes128 y b) ctx
        (Bytes.chunks aesBlock (data.length / aesBlock)
          (lrpBlocks (fun y b => ecbEncryptBlock .aes128 y b) ctx
            (Bytes.chunks aesBlock (data.length / aesBlock)
              data)).1.flatten) =
      (Bytes.chunks aesBlock (data.length / aesBlock) data,
        (lrpBlocks (fun y b => ecbEncryptBlock .aes128 y b) ctx
          (Bytes.chunks aesBlock (data.length / aesBlock) data)).2) := by
  have hcount : data.length = data.length / aesBlock * aesBlock :=
    (Nat.div_mul_cancel (Nat.dvd_of_mod_eq_zero hmod)).symm
  have hblocks := Bytes.length_of_mem_chunks hcount
  have hsent : ∀ block ∈ (lrpBlocks (fun y b => ecbEncryptBlock .aes128 y b)
      ctx (Bytes.chunks aesBlock (data.length / aesBlock) data)).1,
      IsBlock .aes128 block :=
    lrpBlocks_length (fun _ _ hb => ecbEncryptBlock_length hb) hblocks
  have hchunks := Bytes.chunks_flatten hsent
  rw [lrpBlocks_count, Bytes.length_chunks,
    show blockSize .aes128 = aesBlock from rfl] at hchunks
  rw [hchunks]
  exact lrpBlocks_undo hinv hblocks

/-- The library reads a string the card sent from the same counter, and ends
at the counter the card ended at. -/
theorem lrpDecode_sent (hinv : DecryptInverts c) (session : Bytes)
    {counter counter' data : Bytes} {cap : Nat}
    (hcounter : counter.take 4 = counter'.take 4) (hpos : 0 < data.length)
    (hmod : data.length % aesBlock = 0) (hcap : data.length ≤ cap) :
    ∃ ctx', lrpDecode (lrpSetCounter (lrpInit session 1 false) counter (4 * 2))
        (lrpSent session counter' data).1 cap =
        (.ok (data, data.length), ctx') ∧
      ctx'.counter.bytes.take 4 = (lrpSent session counter' data).2 := by
  have hcount : data.length = data.length / aesBlock * aesBlock :=
    (Nat.div_mul_cancel (Nat.dvd_of_mod_eq_zero hmod)).symm
  have hbits : (lrpSetCounter (lrpInit session 1 false) counter'
      8).bitPadding = false := lrpSetCounter_bitPadding _ _ _
  have hlen := length_lrpSent session counter' hmod
  have hback := lrpBlocks_sent hinv
    (lrpSetCounter (lrpInit session 1 false) counter' 8) hmod
  refine ⟨_, ?_, rfl⟩
  rw [lrpDecode, hlen, if_neg (by omega), if_neg (by omega),
    lrpSetCounter_congr _ hcounter]
  simp only [lrpSent, hback, Bytes.flatten_chunks hcount, hbits,
    Bool.false_eq_true, if_false]

end

end Nxpsc
