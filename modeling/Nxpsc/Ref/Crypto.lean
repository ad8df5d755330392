import Nxpsc.Lib.Cbc
import Nxpsc.Ref.Types

/-!
# `nxpsc_crypto.c`: chaining, CMAC, checksums, session keys

The block primitives themselves are mbedtls's AES and DES, here a class: a
pair of functions on blocks for every key type, of which nothing is assumed
but that a block comes out as long as it went in. That the one undoes the
other, `DecryptInverts`, is a hypothesis of the results that need it.

A C function that updates an IV buffer in place returns the new value next
to its output. `nxpsc_cmac` leaves the MAC in the IV, so its value is both.
-/

namespace Nxpsc

/-- One block under a key of the given type. -/
class BlockCipher where
  encrypt : KeyType → Bytes → Bytes → Bytes
  decrypt : KeyType → Bytes → Bytes → Bytes
  encrypt_length : ∀ (type : KeyType) (key block : Bytes),
    block.length = blockSize type →
      (encrypt type key block).length = blockSize type
  decrypt_length : ∀ (type : KeyType) (key block : Bytes),
    block.length = blockSize type →
      (decrypt type key block).length = blockSize type

/-- Decryption undoes encryption under every key. -/
def DecryptInverts (c : BlockCipher) : Prop :=
  ∀ (type : KeyType) (key block : Bytes), block.length = blockSize type →
    c.decrypt type key (c.encrypt type key block) = block

/-- The identity: a cipher to evaluate the definitions with. -/
@[reducible] def BlockCipher.identity : BlockCipher where
  encrypt _ _ block := block
  decrypt _ _ block := block
  encrypt_length _ _ _ h := h
  decrypt_length _ _ _ h := h

theorem decryptInverts_identity : DecryptInverts .identity :=
  fun _ _ _ _ => rfl

section

variable [BlockCipher]

/-! ## Block operations and chaining -/

/-- `nxpsc_ecb_encrypt_block`: the key's bytes are as many as its type has. -/
def ecbEncryptBlock (type : KeyType) (key block : Bytes) : Bytes :=
  BlockCipher.encrypt type (key.take (keySize type)) block

/-- `nxpsc_ecb_decrypt_block`. -/
def ecbDecryptBlock (type : KeyType) (key block : Bytes) : Bytes :=
  BlockCipher.decrypt type (key.take (keySize type)) block

/-- `nxpsc_cbc_crypt_ex`: the output and the IV afterwards. -/
def cbcCryptEx (type : KeyType) (key iv input : Bytes)
    (dirToSend encode : Bool) : Except Err (Bytes × Bytes) :=
  let bs := blockSize type
  if input.length = 0 ∨ input.length % bs ≠ 0 then .error .length
  else
    let prim := if encode then ecbEncryptBlock type key
      else ecbDecryptBlock type key
    let blocks := Bytes.chunks bs (input.length / bs) input
    let done := if dirToSend then Cbc.send prim Bytes.xor (iv.take bs) blocks
      else Cbc.receive prim Bytes.xor (iv.take bs) blocks
    .ok (done.1.flatten, done.2)

/-- `nxpsc_cbc_crypt`. -/
def cbcCrypt (type : KeyType) (key iv input : Bytes) (encrypt : Bool) :
    Except Err (Bytes × Bytes) :=
  cbcCryptEx type key iv input encrypt encrypt

/-! ## CMAC -/

/-- `shift_left`: one bit to the left, across the bytes. -/
def shiftLeft : Bytes → Bytes
  | [] => []
  | [x] => [x <<< 1]
  | x :: y :: rest => ((x <<< 1) ||| (y >>> 7)) :: shiftLeft (y :: rest)

/-- Xors a byte onto the last one. -/
def xorLast (r : UInt8) : Bytes → Bytes
  | [] => []
  | [x] => [x ^^^ r]
  | x :: y :: rest => x :: xorLast r (y :: rest)

/-- The doubling step of the two subkeys. -/
def doubleBlock (type : KeyType) (l : Bytes) : Bytes :=
  let r : UInt8 := if blockSize type = desBlock then 0x1B else 0x87
  if l.headD 0 &&& 0x80 ≠ 0 then xorLast r (shiftLeft l) else shiftLeft l

/-- `nxpsc_cmac_subkeys`. -/
def cmacSubkeys (type : KeyType) (key : Bytes) : Bytes × Bytes :=
  let l := ecbEncryptBlock type key (Bytes.zeros (blockSize type))
  let sk1 := doubleBlock type l
  (sk1, doubleBlock type sk1)

/-- Xors a block onto the end of a string. -/
def xorTail (data block : Bytes) : Bytes :=
  data.take (data.length - block.length) ++
    Bytes.xor (data.drop (data.length - block.length)) block

/-- What `nxpsc_cmac` chains over: the data as they are, or padded to whole
blocks and to `minLen`, with a subkey on the last block. -/
def cmacInput (type : KeyType) (key data : Bytes) (minLen : Nat) : Bytes :=
  let bs := blockSize type
  let sk := cmacSubkeys type key
  if data.length = 0 ∨ data.length % bs ≠ 0 ∨ data.length < minLen then
    let mlen := paddedLen (max (data.length + 1) minLen) bs
    xorTail (Bytes.fit mlen (data ++ [0x80])) sk.2
  else xorTail data sk.1

/-- `nxpsc_cmac`: the MAC, which is also what the IV becomes. -/
def cmac (type : KeyType) (key iv data : Bytes) (minLen : Nat) :
    Except Err Bytes :=
  match cbcCrypt type key iv (cmacInput type key data minLen) true with
  | .error e => .error e
  | .ok (_, last) => .ok last

/-- `nxpsc_truncate_mac`: every second byte. -/
def truncateMac : Bytes → Bytes
  | _ :: b :: rest => b :: truncateMac rest
  | _ => []

end

/-! ## Checksums -/

def crc32Bit (c : UInt32) : UInt32 :=
  if c &&& 1 ≠ 0 then (c >>> 1) ^^^ 0xEDB88320 else c >>> 1

def crc32Byte (c : UInt32) (b : UInt8) : UInt32 :=
  Nat.repeat crc32Bit 8 (c ^^^ b.toUInt32)

/-- A 32 bit value, least significant byte first. -/
def putU32 (v : UInt32) : Bytes :=
  [v.toUInt8, (v >>> 8).toUInt8, (v >>> 16).toUInt8, (v >>> 24).toUInt8]

/-- `nxpsc_crc32`, without the final inversion. -/
def crc32 (data : Bytes) : Bytes := putU32 (data.foldl crc32Byte 0xFFFFFFFF)

def crc16Byte (c : UInt16) (x : UInt8) : UInt16 :=
  let b := x ^^^ c.toUInt8
  let b := b ^^^ (b <<< 4)
  (c >>> 8) ^^^ (b.toUInt16 <<< 8) ^^^ (b.toUInt16 <<< 3) ^^^
    (b.toUInt16 >>> 4)

/-- `nxpsc_crc16`. -/
def crc16 (data : Bytes) : Bytes :=
  let c := data.foldl crc16Byte 0x6363
  [c.toUInt8, (c >>> 8).toUInt8]

/-! ## Keys -/

/-- `nxpsc_des_key_set_version`: the version's bits in the parity bits of
every eight key bytes. -/
def desKeySetVersion (key : Bytes) (type : KeyType) (version : UInt8) : Bytes :=
  match type with
  | .aes128 | .aes256 => key
  | .des | .k2k3des | .k3k3des =>
      key.mapIdx fun i b =>
        if i < keySize type then
          (b &&& 0xFE) ||| ((version >>> UInt8.ofNat (7 - i % 8)) &&& 1)
        else b

/-- `nxpsc_des_key_get_version`. -/
def desKeyGetVersion (key : Bytes) : UInt8 :=
  (List.range 8).foldl (fun version n =>
    version ||| ((key.getD n 0 &&& 1) <<< UInt8.ofNat (7 - n))) 0

/-- `nxpsc_session_key_d40`: the bytes it writes to the front of `out`. -/
def sessionKeyD40 (rndA rndB : Bytes) : KeyType → Bytes
  | .des => rndA.take 4 ++ rndB.take 4
  | .k2k3des =>
      rndA.take 4 ++ rndB.take 4 ++ (rndA.drop 4).take 4 ++
        (rndB.drop 4).take 4
  | .k3k3des =>
      rndA.take 4 ++ rndB.take 4 ++ (rndA.drop 6).take 4 ++
        (rndB.drop 6).take 4 ++ (rndA.drop 12).take 4 ++ (rndB.drop 12).take 4
  | .aes128 | .aes256 =>
      rndA.take 4 ++ rndB.take 4 ++ (rndA.drop 12).take 4 ++
        (rndB.drop 12).take 4

/-- The part of a session vector both EV2 and LRP share: the two random
numbers, half of the first mixed with the second. -/
def sessionVector (rndA rndB : Bytes) : Bytes :=
  rndA.take 2 ++ Bytes.xor ((rndA.drop 2).take 6) (rndB.take 6) ++
    (rndB.drop 6).take 10 ++ (rndA.drop 8).take 8

/-- `nxpsc_session_key_ev2`. -/
def sessionKeyEv2 [BlockCipher] (key rndA rndB : Bytes) (encKey : Bool) :
    Except Err Bytes :=
  let label : Bytes := if encKey then [0xA5, 0x5A] else [0x5A, 0xA5]
  cmac .aes128 key (Bytes.zeros aesBlock)
    (label ++ [0x00, 0x01, 0x00, 0x80] ++ sessionVector rndA rndB) 0

/-- The `sv` of `nxpsc_trans_session_key_ev2`. The counter is the one before
the transaction, and it wraps. -/
def transSessionVector (counter : UInt32) (uid : Bytes) (forMac : Bool) :
    Bytes :=
  (if forMac then 0x5A else 0xA5) ::
    ([0x00, 0x01, 0x00, 0x80] ++ putU32 (counter + 1) ++ uid.take 7)

/-- `nxpsc_trans_session_key_ev2`. -/
def transSessionKeyEv2 [BlockCipher] (key : Bytes) (counter : UInt32)
    (uid : Bytes) (forMac : Bool) : Except Err Bytes :=
  cmac .aes128 key (Bytes.zeros aesBlock)
    (transSessionVector counter uid forMac) 0

/-! ## Random numbers -/

/-- What the system's generator, or the callback in its place, delivers to
one request. -/
abbrev Rng := Except Err Bytes

/-- `nxpsc_random_bytes`. -/
def randomBytes (rng : Rng) (len : Nat) : Except Err Bytes :=
  if len = 0 then .error .param else rng.map (Bytes.fit len)

/-! ## What the operations return -/

@[simp] theorem length_shiftLeft : ∀ xs : Bytes,
    (shiftLeft xs).length = xs.length
  | [] => rfl
  | [_] => rfl
  | _ :: y :: rest => by
      rw [shiftLeft, List.length_cons, length_shiftLeft (y :: rest)]
      rfl

@[simp] theorem length_xorLast (r : UInt8) : ∀ xs : Bytes,
    (xorLast r xs).length = xs.length
  | [] => rfl
  | [_] => rfl
  | _ :: y :: rest => by
      rw [xorLast, List.length_cons, length_xorLast r (y :: rest)]
      rfl

@[simp] theorem length_doubleBlock (type : KeyType) (l : Bytes) :
    (doubleBlock type l).length = l.length := by
  simp only [doubleBlock]
  split <;> simp

theorem length_xorTail {data block : Bytes} (h : block.length ≤ data.length) :
    (xorTail data block).length = data.length := by
  simp only [xorTail, List.length_append, List.length_take,
    Bytes.length_xor, List.length_drop]
  omega

/-- The strings the primitives of a key type are for. -/
def IsBlock (type : KeyType) (block : Bytes) : Prop :=
  block.length = blockSize type

theorem isBlock_xor (type : KeyType) : ∀ a b : Bytes,
    IsBlock type a → IsBlock type b → IsBlock type (Bytes.xor a b) := by
  intro a b ha hb
  rw [IsBlock, Bytes.length_xor, ha, hb, Nat.min_self]

section

variable [BlockCipher]

theorem ecbEncryptBlock_length {type : KeyType} {key block : Bytes}
    (h : block.length = blockSize type) :
    (ecbEncryptBlock type key block).length = blockSize type :=
  BlockCipher.encrypt_length _ _ _ h

theorem ecbDecryptBlock_length {type : KeyType} {key block : Bytes}
    (h : block.length = blockSize type) :
    (ecbDecryptBlock type key block).length = blockSize type :=
  BlockCipher.decrypt_length _ _ _ h

/-- Either primitive takes blocks to blocks. -/
theorem isBlock_prim (type : KeyType) (key : Bytes) (encode : Bool) :
    ∀ block, IsBlock type block →
      IsBlock type ((if encode then ecbEncryptBlock type key
        else ecbDecryptBlock type key) block) := by
  intro block h
  cases encode with
  | true => exact ecbEncryptBlock_length h
  | false => exact ecbDecryptBlock_length h

/-- Whole blocks in, as many bytes out, and an IV of one block. -/
theorem cbcCryptEx_ok {type : KeyType} {key iv input out last : Bytes}
    {dirToSend encode : Bool} (hiv : blockSize type ≤ iv.length)
    (h : cbcCryptEx type key iv input dirToSend encode = .ok (out, last)) :
    0 < input.length ∧ input.length % blockSize type = 0 ∧
      out.length = input.length ∧ last.length = blockSize type := by
  have hbs := blockSize_pos type
  simp only [cbcCryptEx] at h
  split at h
  · cases h
  next hlen =>
  have hmod : input.length % blockSize type = 0 := by omega
  have hcount : input.length / blockSize type * blockSize type
      = input.length := Nat.div_mul_cancel (Nat.dvd_of_mod_eq_zero hmod)
  have hiv' : IsBlock type (iv.take (blockSize type)) := by
    rw [IsBlock, List.length_take]; omega
  have hblocks : ∀ b ∈ Bytes.chunks (blockSize type)
      (input.length / blockSize type) input, IsBlock type b :=
    Bytes.length_of_mem_chunks hcount.symm
  have hsend := Cbc.send_ok (isBlock_prim type key encode) (isBlock_xor type)
    hiv' hblocks
  have hreceive := Cbc.receive_ok (isBlock_prim type key encode)
    (isBlock_xor type) hiv' hblocks
  simp only [Except.ok.injEq, Prod.mk.injEq] at h
  obtain ⟨hout, hlast⟩ := h
  refine ⟨by omega, hmod, ?_, ?_⟩
  · rw [← hout]
    split
    · rw [Bytes.length_flatten hsend.1, Cbc.length_send,
        Bytes.length_chunks, hcount]
    · rw [Bytes.length_flatten hreceive.1, Cbc.length_receive,
        Bytes.length_chunks, hcount]
  · rw [← hlast]
    split
    · exact hsend.2
    · exact hreceive.2

/-- A sender continues from the last block of its output. -/
theorem cbcCryptEx_send_last {type : KeyType} {key iv input out last : Bytes}
    {encode : Bool} (hiv : blockSize type ≤ iv.length)
    (h : cbcCryptEx type key iv input true encode = .ok (out, last)) :
    last = out.drop (out.length - blockSize type) := by
  obtain ⟨hpos, hmod, -, -⟩ := cbcCryptEx_ok hiv h
  have hbs := blockSize_pos type
  have hcount : input.length / blockSize type * blockSize type
      = input.length := Nat.div_mul_cancel (Nat.dvd_of_mod_eq_zero hmod)
  have hiv' : IsBlock type (iv.take (blockSize type)) := by
    rw [IsBlock, List.length_take]; omega
  have hsend := Cbc.send_ok (isBlock_prim type key encode) (isBlock_xor type)
    hiv' (Bytes.length_of_mem_chunks hcount.symm)
  simp only [cbcCryptEx] at h
  rw [if_neg (by omega)] at h
  simp only [if_true, Except.ok.injEq, Prod.mk.injEq] at h
  obtain ⟨hout, hlast⟩ := h
  rw [← hout, ← hlast, Cbc.send_last]
  refine (Bytes.drop_flatten_last _ ?_ hsend.1).symm
  rw [ne_eq, ← List.length_eq_zero_iff, Cbc.length_send, Bytes.length_chunks]
  intro hzero
  rw [hzero, Nat.zero_mul] at hcount
  omega

/-- A MAC starts from one block of the IV. -/
theorem cmac_take (type : KeyType) (key iv data : Bytes) (minLen : Nat) :
    cmac type key (iv.take (blockSize type)) data minLen =
      cmac type key iv data minLen := by
  simp only [cmac, cbcCrypt, cbcCryptEx, List.take_take, Nat.min_self]

/-- Whole blocks never fail. -/
theorem cbcCryptEx_isOk {type : KeyType} {key iv input : Bytes}
    {dirToSend encode : Bool} (hpos : 0 < input.length)
    (hmod : input.length % blockSize type = 0) :
    ∃ out last, cbcCryptEx type key iv input dirToSend encode
      = .ok (out, last) := by
  simp only [cbcCryptEx]
  rw [if_neg (by omega)]
  exact ⟨_, _, rfl⟩

theorem cmacSubkeys_length (type : KeyType) (key : Bytes) :
    (cmacSubkeys type key).1.length = blockSize type ∧
      (cmacSubkeys type key).2.length = blockSize type := by
  have hl : (ecbEncryptBlock type key
      (Bytes.zeros (blockSize type))).length = blockSize type :=
    ecbEncryptBlock_length (Bytes.length_zeros _)
  simp only [cmacSubkeys, length_doubleBlock, hl, and_self]

/-- The CMAC always has whole blocks to work on. -/
theorem cmacInput_blocks (type : KeyType) (key data : Bytes) (minLen : Nat) :
    0 < (cmacInput type key data minLen).length ∧
      (cmacInput type key data minLen).length % blockSize type = 0 := by
  have hbs := blockSize_pos type
  obtain ⟨h1, h2⟩ := cmacSubkeys_length type key
  simp only [cmacInput]
  split
  · have hpad : max (data.length + 1) minLen ≤
        paddedLen (max (data.length + 1) minLen) (blockSize type) :=
      le_paddedLen hbs
    have hmod : paddedLen (max (data.length + 1) minLen) (blockSize type)
        % blockSize type = 0 := paddedLen_mod hbs
    have hle : blockSize type ≤
        paddedLen (max (data.length + 1) minLen) (blockSize type) :=
      Nat.le_of_dvd (by omega) (Nat.dvd_of_mod_eq_zero hmod)
    rw [length_xorTail (by rw [h2, Bytes.length_fit]; exact hle),
      Bytes.length_fit]
    exact ⟨by omega, hmod⟩
  · have hmod : data.length % blockSize type = 0 := by omega
    have hle : blockSize type ≤ data.length :=
      Nat.le_of_dvd (by omega) (Nat.dvd_of_mod_eq_zero hmod)
    rw [length_xorTail (by rw [h1]; exact hle)]
    exact ⟨by omega, hmod⟩

/-- A CMAC is always computed and is one block long. -/
theorem cmac_isOk {type : KeyType} {key iv : Bytes} (data : Bytes)
    (minLen : Nat) (hiv : blockSize type ≤ iv.length) :
    ∃ mac, cmac type key iv data minLen = .ok mac ∧
      mac.length = blockSize type := by
  obtain ⟨hpos, hmod⟩ := cmacInput_blocks type key data minLen
  obtain ⟨out, last, h⟩ : ∃ out last, cbcCrypt type key iv
      (cmacInput type key data minLen) true = .ok (out, last) :=
    cbcCryptEx_isOk hpos hmod
  have hlen := cbcCryptEx_ok hiv h
  refine ⟨last, ?_, hlen.2.2.2⟩
  rw [cmac, h]

end

/-- Deciphering what was enciphered, from the same IV. -/
theorem cbcCryptEx_decipher [c : BlockCipher] (hinv : DecryptInverts c)
    {type : KeyType} {key iv plain cipher last : Bytes}
    (hiv : blockSize type ≤ iv.length)
    (h : cbcCryptEx type key iv plain true true = .ok (cipher, last)) :
    cbcCryptEx type key iv cipher false false = .ok (plain, last) := by
  obtain ⟨hpos, hmod, hlen, -⟩ := cbcCryptEx_ok hiv h
  have hcount : plain.length / blockSize type * blockSize type
      = plain.length := Nat.div_mul_cancel (Nat.dvd_of_mod_eq_zero hmod)
  have hiv' : IsBlock type (iv.take (blockSize type)) := by
    rw [IsBlock, List.length_take]; omega
  have hblocks := Bytes.length_of_mem_chunks hcount.symm
  have hprim : ∀ b, IsBlock type b →
      IsBlock type (ecbEncryptBlock type key b) :=
    fun b hb => ecbEncryptBlock_length hb
  have hsend := Cbc.send_ok hprim (isBlock_xor type) hiv' hblocks
  have hback := Cbc.receive_send hprim (isBlock_xor type)
    (fun b hb => hinv type (key.take (keySize type)) b hb)
    (fun a b ha hb => Bytes.xor_cancel (Eq.trans ha (Eq.symm hb))) hiv' hblocks
  simp only [cbcCryptEx] at h ⊢
  rw [if_neg (by omega)] at h
  rw [if_neg (by rw [hlen]; omega)]
  simp only [if_true, Except.ok.injEq, Prod.mk.injEq] at h
  obtain ⟨rfl, rfl⟩ := h
  have hchunks := Bytes.chunks_flatten hsend.1
  rw [Cbc.length_send, Bytes.length_chunks] at hchunks
  rw [hlen, hchunks]
  simp only [Bool.false_eq_true, if_false]
  rw [show ecbDecryptBlock type key = fun b => c.decrypt type
    (key.take (keySize type)) b from rfl, hback,
    Bytes.flatten_chunks hcount.symm]

theorem length_truncateMac : ∀ xs : Bytes,
    (truncateMac xs).length = xs.length / 2
  | [] => rfl
  | [_] => by simp [truncateMac]
  | _ :: _ :: rest => by
      rw [truncateMac, List.length_cons, length_truncateMac rest,
        List.length_cons, List.length_cons]
      omega

@[simp] theorem length_crc32 (data : Bytes) : (crc32 data).length = 4 := rfl

@[simp] theorem length_crc16 (data : Bytes) : (crc16 data).length = 2 := rfl

end Nxpsc
