import Nxpsc.Proofs.AesSchedule
import Nxpsc.Proofs.DesSchedule
import Nxpsc.Proofs.WrittenKey
import Nxpsc.Ref.BlockCiphers

/-!
# What the block operations of the library compute

The ciphers the library is built with are those of the standards, for every
key and every block, and they invert each other. Everything that is stated
over a `BlockCipher` that can be undone holds of the library as it is built.
-/

namespace Nxpsc

open Mbedtls

/-! ## The standards -/

theorem keyWords_take (nk : Nat) (key : Bytes) :
    Fips197.keyWords nk (key.take (4 * nk)) = Fips197.keyWords nk key := by
  refine List.map_congr_left fun i hi => ?_
  have hlt := List.mem_range.mp hi
  simp (disch := omega) only [Fips197.wordAt, Bytes.getD_take]

/-- With the keys of AES, `nxpsc_ecb_encrypt_block` is FIPS 197. -/
theorem ecb_encrypt_is_aes (key block : Bytes) :
    (@ecbEncryptBlock .mbedtls .aes128 key block =
        (Fips197.cipher 4 (Fips197.keyWords 4 key)
          (Fips197.ofBytes block)).bytes) ∧
      @ecbEncryptBlock .mbedtls .aes256 key block =
        (Fips197.cipher 8 (Fips197.keyWords 8 key)
          (Fips197.ofBytes block)).bytes := by
  constructor
  · rw [← keyWords_take 4 key]
    exact @internalAesEncrypt_cipher _ 128 _ rfl block
  · rw [← keyWords_take 8 key]
    exact @internalAesEncrypt_cipher _ 256 _ rfl block

/-- The eight bytes at a position decide on a part of a key. -/
theorem ofBytes_congr {b b' : Bytes}
    (h : ∀ i < 8, b.getD i 0 = b'.getD i 0) :
    Fips46.ofBytes b = Fips46.ofBytes b' := by
  simp (disch := omega) only [Fips46.ofBytes, Fips46.wordAt, h]

theorem getD_drop (n i : Nat) (b : Bytes) :
    (b.drop n).getD i 0 = b.getD (n + i) 0 := by
  rw [List.getD_eq_getElem?_getD, List.getElem?_drop,
    List.getD_eq_getElem?_getD]

theorem ofBytes_take {n i : Nat} (hi : i + 8 ≤ n) (key : Bytes) :
    Fips46.ofBytes ((key.take n).drop i) = Fips46.ofBytes (key.drop i) := by
  refine ofBytes_congr fun j hj => ?_
  rw [getD_drop, getD_drop, Bytes.getD_take (by omega)]

theorem getD_fit {n i : Nat} (hi : i < n) (b : Bytes) :
    (Bytes.fit n b).getD i 0 = b.getD i 0 := by
  rw [Bytes.fit, List.getD_eq_getElem?_getD, List.getD_eq_getElem?_getD]
  rcases Nat.lt_or_ge i b.length with hlt | hge
  · rw [List.getElem?_append_left (by rw [List.length_take]; omega),
      List.getElem?_take_of_lt hi]
  · rw [List.getElem?_append_right (by rw [List.length_take]; omega),
      List.getElem?_eq_none hge, Bytes.zeros, List.getElem?_replicate]
    split <;> rfl

/-- The parts of a key of two, of which the first one comes again. -/
theorem ofBytes_threeParts (key : Bytes) :
    Fips46.ofBytes (threeParts key) = Fips46.ofBytes key ∧
      Fips46.ofBytes ((threeParts key).drop 8) =
        Fips46.ofBytes (key.drop 8) ∧
      Fips46.ofBytes ((threeParts key).drop 16) = Fips46.ofBytes key := by
  have hlen : (Bytes.fit 16 key).length = 16 := Bytes.length_fit 16 key
  have hfirst : ∀ i < 16, (threeParts key).getD i 0 = key.getD i 0 := by
    intro i hi
    rw [threeParts, List.getD_eq_getElem?_getD,
      List.getElem?_append_left (by omega), ← List.getD_eq_getElem?_getD,
      getD_fit hi]
  refine ⟨ofBytes_congr fun i hi => hfirst i (by omega),
    ofBytes_congr fun i hi => ?_, ofBytes_congr fun i hi => ?_⟩
  · rw [getD_drop, getD_drop, hfirst (8 + i) (by omega)]
  · rw [getD_drop, threeParts, List.getD_eq_getElem?_getD,
      List.getElem?_append_right (by omega), hlen, Nat.add_sub_cancel_left,
      ← List.getD_eq_getElem?_getD, getD_fit hi]

theorem ecb_des (key block : Bytes) :
    @ecbEncryptBlock .mbedtls .des key block =
        Fips46.bytes (Fips46.encipher (Fips46.ofBytes key)
          (Fips46.ofBytes block)) ∧
      @ecbDecryptBlock .mbedtls .des key block =
        Fips46.bytes (Fips46.decipher (Fips46.ofBytes key)
          (Fips46.ofBytes block)) := by
  have hkey : Fips46.ofBytes (key.take 8) = Fips46.ofBytes key :=
    ofBytes_take (i := 0) (by decide) key
  have h := desCryptEcb_standard (key.take 8) block
  rwa [hkey] at h

theorem ecb_k2k3des (key block : Bytes) :
    @ecbEncryptBlock .mbedtls .k2k3des key block =
        Fips46.bytes (Fips46.encipher3 (Fips46.ofBytes key)
          (Fips46.ofBytes (key.drop 8)) (Fips46.ofBytes key)
          (Fips46.ofBytes block)) ∧
      @ecbDecryptBlock .mbedtls .k2k3des key block =
        Fips46.bytes (Fips46.decipher3 (Fips46.ofBytes key)
          (Fips46.ofBytes (key.drop 8)) (Fips46.ofBytes key)
          (Fips46.ofBytes block)) := by
  have hkey : Fips46.ofBytes (key.take 16) = Fips46.ofBytes key :=
    ofBytes_take (i := 0) (by decide) key
  obtain ⟨h1, h2, h3⟩ := ofBytes_threeParts (key.take 16)
  have h := des3CryptEcb_standard (threeParts (key.take 16)) block
  rwa [h1, h2, h3, hkey, ofBytes_take (i := 8) (by decide) key] at h

theorem ecb_k3k3des (key block : Bytes) :
    @ecbEncryptBlock .mbedtls .k3k3des key block =
        Fips46.bytes (Fips46.encipher3 (Fips46.ofBytes key)
          (Fips46.ofBytes (key.drop 8)) (Fips46.ofBytes (key.drop 16))
          (Fips46.ofBytes block)) ∧
      @ecbDecryptBlock .mbedtls .k3k3des key block =
        Fips46.bytes (Fips46.decipher3 (Fips46.ofBytes key)
          (Fips46.ofBytes (key.drop 8)) (Fips46.ofBytes (key.drop 16))
          (Fips46.ofBytes block)) := by
  have hkey : Fips46.ofBytes (key.take 24) = Fips46.ofBytes key :=
    ofBytes_take (i := 0) (by decide) key
  have h := des3CryptEcb_standard (key.take 24) block
  rwa [hkey, ofBytes_take (i := 8) (by decide) key,
    ofBytes_take (i := 16) (by decide) key] at h

/-- With the other keys the block operations are those of FIPS 46-3: DES, and
the triple algorithm with two keys or with three. -/
theorem ecb_is_des (key block : Bytes) :
    let k1 := Fips46.ofBytes key
    let k2 := Fips46.ofBytes (key.drop 8)
    let k3 := Fips46.ofBytes (key.drop 16)
    let v := Fips46.ofBytes block
    (@ecbEncryptBlock .mbedtls .des key block =
        Fips46.bytes (Fips46.encipher k1 v) ∧
      @ecbDecryptBlock .mbedtls .des key block =
        Fips46.bytes (Fips46.decipher k1 v)) ∧
    (@ecbEncryptBlock .mbedtls .k2k3des key block =
        Fips46.bytes (Fips46.encipher3 k1 k2 k1 v) ∧
      @ecbDecryptBlock .mbedtls .k2k3des key block =
        Fips46.bytes (Fips46.decipher3 k1 k2 k1 v)) ∧
    (@ecbEncryptBlock .mbedtls .k3k3des key block =
        Fips46.bytes (Fips46.encipher3 k1 k2 k3 v) ∧
      @ecbDecryptBlock .mbedtls .k3k3des key block =
        Fips46.bytes (Fips46.decipher3 k1 k2 k3 v)) :=
  ⟨ecb_des key block, ecb_k2k3des key block, ecb_k3k3des key block⟩

/-! ## There and back -/

theorem mbedtls_inverse (type : KeyType) (key : Bytes) {block : Bytes}
    (hlen : block.length = blockSize type) :
    mbedtlsDecrypt type key (mbedtlsEncrypt type key block) = block ∧
      mbedtlsEncrypt type key (mbedtlsDecrypt type key block) = block := by
  cases type with
  | des => exact desCryptEcb_inverse _ hlen
  | k2k3des => exact des3CryptEcb_inverse _ hlen
  | k3k3des => exact des3CryptEcb_inverse _ hlen
  | aes128 => exact @internalAes_inverse key 128 _ _ rfl rfl _ hlen
  | aes256 => exact @internalAes_inverse key 256 _ _ rfl rfl _ hlen

theorem decryptInverts_mbedtls : DecryptInverts .mbedtls :=
  fun type key _ hlen => (mbedtls_inverse type key hlen).1

/-- With every type of key, encryption and decryption of a block undo each
other. -/
theorem ecb_there_and_back (type : KeyType) (key : Bytes) {block : Bytes}
    (hlen : block.length = blockSize type) :
    @ecbDecryptBlock .mbedtls type key
        (@ecbEncryptBlock .mbedtls type key block) = block ∧
      @ecbEncryptBlock .mbedtls type key
        (@ecbDecryptBlock .mbedtls type key block) = block :=
  mbedtls_inverse type (key.take (keySize type)) hlen

theorem ecb_there_and_back_zeros :
    @ecbDecryptBlock .mbedtls .k2k3des (Bytes.zeros 16)
        (@ecbEncryptBlock .mbedtls .k2k3des (Bytes.zeros 16)
          (Bytes.zeros 8)) = Bytes.zeros 8 ∧
      @ecbEncryptBlock .mbedtls .k2k3des (Bytes.zeros 16)
        (@ecbDecryptBlock .mbedtls .k2k3des (Bytes.zeros 16)
          (Bytes.zeros 8)) = Bytes.zeros 8 :=
  ecb_there_and_back .k2k3des (Bytes.zeros 16) rfl

/-! ## The low bits of a key

The key schedule of DES leaves out the low bit of every byte. The library has
the version of a key there. -/

theorem permute_pc1_mask (v : BitVec 64) :
    Fips46.permute 56 Fips46.pc1 (v &&& 0xFEFEFEFEFEFEFEFE) =
      Fips46.permute 56 Fips46.pc1 v :=
  ((xorLinear_permute Fips46.pc1).comp (XorLinear.id.and _)).agree
    (xorLinear_permute Fips46.pc1) (by decide +kernel) v

theorem ofBytes_withoutParity (key : Bytes) :
    Fips46.ofBytes (withoutParity key) =
      Fips46.ofBytes key &&& 0xFEFEFEFEFEFEFEFE := by
  have hbyte : ∀ i, ((withoutParity key).getD i 0).toBitVec =
      (key.getD i 0).toBitVec &&& 0xFE#8 := by
    intro i
    rw [withoutParity, List.getD_eq_getElem?_getD, List.getElem?_map,
      List.getD_eq_getElem?_getD]
    cases key[i]? <;> rfl
  have hword : ∀ i, Fips46.wordAt (withoutParity key) i =
      Fips46.wordAt key i &&& (0xFE#8 ++ 0xFE#8 ++ 0xFE#8 ++ 0xFE#8) := by
    intro i
    rw [Fips46.wordAt, hbyte, hbyte, hbyte, hbyte]
    simp only [Fips46.wordAt, ← BitVec.and_append]
  rw [Fips46.ofBytes, hword, hword]
  exact BitVec.and_append.symm

/-- Keys that differ in low bits only have the same schedule. -/
theorem schedule_withoutParity (key : Bytes) :
    Fips46.schedule (Fips46.ofBytes (withoutParity key)) =
      Fips46.schedule (Fips46.ofBytes key) := by
  rw [ofBytes_withoutParity, Fips46.schedule, permute_pc1_mask, Fips46.schedule]

theorem desSetkey_withoutParity (key : Bytes) :
    desSetkey (withoutParity key) = desSetkey key := by
  rw [desSetkey_schedule, desSetkey_schedule, schedule_withoutParity]

theorem des3Set3key_withoutParity (key : Bytes) :
    des3Set3key (withoutParity key) = des3Set3key key := by
  have hdrop : ∀ n, (withoutParity key).drop n = withoutParity (key.drop n) :=
    fun n => List.map_drop.symm
  simp only [des3Set3key, hdrop, desSetkey_withoutParity]

theorem threeParts_withoutParity (key : Bytes) :
    threeParts (withoutParity key) = withoutParity (threeParts key) := by
  have hfit : ∀ n, Bytes.fit n (withoutParity key) =
      withoutParity (Bytes.fit n key) := by
    intro n
    simp only [Bytes.fit, withoutParity, List.map_append, List.map_take,
      List.length_map, Bytes.zeros, List.map_replicate]
    rfl
  rw [threeParts, threeParts, hfit, hfit, withoutParity, withoutParity,
    withoutParity, List.map_append]

/-- The ciphers of the library do not see the low bits of a DES key. -/
theorem mbedtls_withoutParity {type : KeyType} (htype : blockSize type = desBlock)
    (key : Bytes) : mbedtlsEncrypt type (withoutParity key) =
        mbedtlsEncrypt type key ∧
      mbedtlsDecrypt type (withoutParity key) = mbedtlsDecrypt type key := by
  cases type with
  | aes128 | aes256 => cases htype
  | des =>
      refine ⟨funext fun block => ?_, funext fun block => ?_⟩
      · rw [mbedtlsEncrypt, mbedtlsEncrypt, desSetkeyEnc, desSetkeyEnc,
          desSetkey_withoutParity]
      · rw [mbedtlsDecrypt, mbedtlsDecrypt, desSetkeyDec_eq, desSetkeyDec_eq,
          desSetkey_withoutParity]
  | k2k3des =>
      refine ⟨funext fun block => ?_, funext fun block => ?_⟩
      · rw [mbedtlsEncrypt, mbedtlsEncrypt, des3Set3keyEnc, des3Set3keyEnc,
          threeParts_withoutParity, des3Set3key_withoutParity]
      · rw [mbedtlsDecrypt, mbedtlsDecrypt, des3Set3keyDec, des3Set3keyDec,
          threeParts_withoutParity, des3Set3key_withoutParity]
  | k3k3des =>
      refine ⟨funext fun block => ?_, funext fun block => ?_⟩
      · rw [mbedtlsEncrypt, mbedtlsEncrypt, des3Set3keyEnc, des3Set3keyEnc,
          des3Set3key_withoutParity]
      · rw [mbedtlsDecrypt, mbedtlsDecrypt, des3Set3keyDec, des3Set3keyDec,
          des3Set3key_withoutParity]

theorem ignoresParity_mbedtls : IgnoresParity .mbedtls := by
  intro type key key' htype hkeys
  obtain ⟨henc, hdec⟩ := mbedtls_withoutParity htype key
  obtain ⟨henc', hdec'⟩ := mbedtls_withoutParity htype key'
  have hsame : withoutParity key = withoutParity key' := hkeys
  rw [hsame] at henc hdec
  exact ⟨henc.symm.trans henc', hdec.symm.trans hdec'⟩

/-! ## The version of a key -/

theorem desKeySetVersion_getElem? {type : KeyType}
    (htype : blockSize type = desBlock) (key : Bytes) (version : UInt8)
    (i : Nat) : (desKeySetVersion key type version)[i]? =
      (key[i]?).map fun b => if i < keySize type then (b &&& 0xFE) |||
        ((version >>> UInt8.ofNat (7 - i % 8)) &&& 1) else b := by
  cases type with
  | aes128 | aes256 => cases htype
  | des | k2k3des | k3k3des => rw [desKeySetVersion, List.getElem?_mapIdx]

theorem desKeySetVersion_withoutParity (key : Bytes) (type : KeyType)
    (version : UInt8) :
    withoutParity (desKeySetVersion key type version) = withoutParity key := by
  by_cases htype : blockSize type = desBlock
  · refine List.ext_getElem? fun i => ?_
    rw [withoutParity, withoutParity, List.getElem?_map, List.getElem?_map,
      desKeySetVersion_getElem? htype, Option.map_map]
    congr 1
    funext b
    rw [Function.comp_apply]
    split
    · exact clear_setLow b _
    · rfl
  · cases type with
    | aes128 | aes256 => rfl
    | des | k2k3des | k3k3des => exact absurd rfl htype

/-- The bits of a byte, put together again. -/
theorem version_bits (v : UInt8) :
    (List.range 8).foldl (fun acc n => acc |||
      (((v >>> UInt8.ofNat (7 - n)) &&& 1) <<< UInt8.ofNat (7 - n))) 0 = v := by
  have hall : ∀ i < 256, (List.range 8).foldl (fun acc n => acc |||
      (((UInt8.ofNat i >>> UInt8.ofNat (7 - n)) &&& 1) <<<
        UInt8.ofNat (7 - n))) 0 = UInt8.ofNat i := by decide +kernel
  have hv := hall v.toNat v.toNat_lt
  rwa [UInt8.ofNat_toNat] at hv

theorem desKeyGetVersion_set {type : KeyType}
    (htype : blockSize type = desBlock) {key : Bytes}
    (hlen : keySize type ≤ key.length) (version : UInt8) :
    desKeyGetVersion (desKeySetVersion key type version) = version := by
  have hsize : 8 ≤ keySize type := by
    cases type with
    | aes128 | aes256 => cases htype
    | des | k2k3des | k3k3des => decide
  have hbit : ∀ n < 8, (desKeySetVersion key type version).getD n 0 &&& 1 =
      (version >>> UInt8.ofNat (7 - n)) &&& 1 := by
    intro n hn
    rw [List.getD_eq_getElem?_getD, desKeySetVersion_getElem? htype,
      List.getElem?_eq_getElem (by omega), Option.map_some, Option.getD_some,
      if_pos (by omega), Nat.mod_eq_of_lt hn, low_setLow]
  have hcongr : ∀ ns : List Nat, (∀ n ∈ ns, n < 8) → ∀ acc : UInt8,
      ns.foldl (fun acc n => acc |||
        (((desKeySetVersion key type version).getD n 0 &&& 1) <<<
          UInt8.ofNat (7 - n))) acc =
      ns.foldl (fun acc n => acc |||
        (((version >>> UInt8.ofNat (7 - n)) &&& 1) <<< UInt8.ofNat (7 - n)))
        acc := by
    intro ns hns
    induction ns with
    | nil => exact fun _ => rfl
    | cons n rest ih =>
        intro acc
        rw [List.foldl_cons, List.foldl_cons, hbit n (hns n (.head _)),
          ih fun m hm => hns m (.tail _ hm)]
  rw [desKeyGetVersion, hcongr _ (fun n hn => List.mem_range.mp hn) 0,
    version_bits]

/-- A version that is put into a DES key can be read back, and the cipher is
the one it was. -/
theorem version_kept_apart {type : KeyType} (htype : blockSize type = desBlock)
    {key : Bytes} (hlen : keySize type ≤ key.length) (version : UInt8) :
    desKeyGetVersion (desKeySetVersion key type version) = version ∧
      ∀ block, @ecbEncryptBlock .mbedtls type
            (desKeySetVersion key type version) block =
          @ecbEncryptBlock .mbedtls type key block ∧
        @ecbDecryptBlock .mbedtls type
            (desKeySetVersion key type version) block =
          @ecbDecryptBlock .mbedtls type key block := by
  refine ⟨desKeyGetVersion_set htype hlen version, fun block => ?_⟩
  obtain ⟨henc, hdec⟩ := ignoresParity_mbedtls type
    ((desKeySetVersion key type version).take (keySize type))
    (key.take (keySize type)) htype (by
      rw [List.map_take, List.map_take]
      exact congrArg (List.take _) (desKeySetVersion_withoutParity key type
        version))
  exact ⟨congrFun henc block, congrFun hdec block⟩

theorem version_kept_apart_example :
    desKeyGetVersion (desKeySetVersion (Bytes.zeros 16) .k2k3des 0xA5) = 0xA5 ∧
      ∀ block, @ecbEncryptBlock .mbedtls .k2k3des
            (desKeySetVersion (Bytes.zeros 16) .k2k3des 0xA5) block =
          @ecbEncryptBlock .mbedtls .k2k3des (Bytes.zeros 16) block ∧
        @ecbDecryptBlock .mbedtls .k2k3des
            (desKeySetVersion (Bytes.zeros 16) .k2k3des 0xA5) block =
          @ecbDecryptBlock .mbedtls .k2k3des (Bytes.zeros 16) block :=
  version_kept_apart rfl (by decide) 0xA5

/-! ## Keys with equal parts -/

/-- Three times one key. -/
theorem encipher3_same {k1 k2 k3 : BitVec 64}
    (h12 : Fips46.schedule k1 = Fips46.schedule k2)
    (h13 : Fips46.schedule k1 = Fips46.schedule k3) (v : BitVec 64) :
    Fips46.encipher3 k1 k2 k3 v = Fips46.encipher k1 v ∧
      Fips46.decipher3 k1 k2 k3 v = Fips46.decipher k1 v := by
  have henc : ∀ v, Fips46.encipher k3 v = Fips46.encipher k1 v := by
    intro v
    rw [Fips46.encipher, Fips46.encipher, h13]
  have henc2 : ∀ v, Fips46.encipher k2 v = Fips46.encipher k1 v := by
    intro v
    rw [Fips46.encipher, Fips46.encipher, h12]
  have hdec : ∀ v, Fips46.decipher k2 v = Fips46.decipher k1 v := by
    intro v
    rw [Fips46.decipher, Fips46.decipher, h12]
  have hdec3 : ∀ v, Fips46.decipher k3 v = Fips46.decipher k1 v := by
    intro v
    rw [Fips46.decipher, Fips46.decipher, h13]
  rw [Fips46.encipher3, Fips46.decipher3, henc, hdec, decipher_encipher, hdec3,
    henc2, encipher_decipher]
  exact ⟨rfl, rfl⟩

theorem schedule_halves {key : Bytes} (h : Halves (withoutParity key)) :
    Fips46.schedule (Fips46.ofBytes key) =
      Fips46.schedule (Fips46.ofBytes (key.drop 8)) := by
  have hdrop : (withoutParity key).drop 8 = withoutParity (key.drop 8) :=
    List.map_drop.symm
  have hleft : Fips46.ofBytes ((withoutParity key).take 8) =
      Fips46.ofBytes (withoutParity key) :=
    ofBytes_take (i := 0) (by decide) (withoutParity key)
  have hright : Fips46.ofBytes ((withoutParity (key.drop 8)).take 8) =
      Fips46.ofBytes (withoutParity (key.drop 8)) :=
    ofBytes_take (i := 0) (by decide) (withoutParity (key.drop 8))
  rw [← schedule_withoutParity key, ← schedule_withoutParity (key.drop 8),
    ← hleft, ← hright, ← hdrop, h]

/-- A key of two halves that are one DES key, up to low bits, does exactly
what a key of one half does, in both directions. -/
theorem equal_halves_single {key : Bytes} (hhalves : Halves (withoutParity key))
    (block : Bytes) :
    @ecbEncryptBlock .mbedtls .k2k3des key block =
        @ecbEncryptBlock .mbedtls .des key block ∧
      @ecbDecryptBlock .mbedtls .k2k3des key block =
        @ecbDecryptBlock .mbedtls .des key block := by
  obtain ⟨henc, hdec⟩ := ecb_k2k3des key block
  obtain ⟨henc1, hdec1⟩ := ecb_des key block
  obtain ⟨hsame, hsame'⟩ := encipher3_same (schedule_halves hhalves) rfl
    (Fips46.ofBytes block)
  rw [henc, henc1, hdec, hdec1, hsame, hsame']
  exact ⟨rfl, rfl⟩

/-- The factory key with a version in one half only. -/
theorem equal_halves_single_factory :
    @ecbEncryptBlock .mbedtls .k2k3des
        ([0, 0, 0, 0, 0, 0, 0, 1] ++ Bytes.zeros 8) (Bytes.zeros 8) =
      @ecbEncryptBlock .mbedtls .des
        ([0, 0, 0, 0, 0, 0, 0, 1] ++ Bytes.zeros 8) (Bytes.zeros 8) ∧
    @ecbDecryptBlock .mbedtls .k2k3des
        ([0, 0, 0, 0, 0, 0, 0, 1] ++ Bytes.zeros 8) (Bytes.zeros 8) =
      @ecbDecryptBlock .mbedtls .des
        ([0, 0, 0, 0, 0, 0, 0, 1] ++ Bytes.zeros 8) (Bytes.zeros 8) :=
  equal_halves_single (by decide) (Bytes.zeros 8)

end Nxpsc
