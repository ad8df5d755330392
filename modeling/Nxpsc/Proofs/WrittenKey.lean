import Nxpsc.Proofs.MutualAuth
import Nxpsc.Ref.Desfire
import Nxpsc.Spec.KeyChange

/-!
# Authenticating with a key that was written

ChangeKey puts the version of a 2TDEA key into the low bits of its bytes, and
that is what the card keeps. Authentication takes the key as the caller gave
it. To the cipher the two are one key; but the session key of a key with equal
halves is another one than that of a key with two different halves, and each
side compares the halves of the key it has. They part when the caller's halves
differ in low bits only.
-/

namespace Nxpsc

open Dialogue

/-! ## The low bits -/

theorem ignoresParity_identity : IgnoresParity .identity :=
  fun _ _ _ _ _ => ⟨rfl, rfl⟩

theorem clear_setLow (b x : UInt8) :
    ((b &&& 0xFE) ||| (x &&& 1)) &&& 0xFE = b &&& 0xFE := by
  apply UInt8.eq_of_toBitVec_eq
  simp only [UInt8.toBitVec_and, UInt8.toBitVec_or]
  rw [BitVec.and_or_distrib_right, BitVec.and_assoc, BitVec.and_assoc]
  show _ &&& 0xFE#8 ||| _ &&& 0#8 = _
  rw [BitVec.and_zero, BitVec.or_zero]
  rfl

theorem low_setLow (b x : UInt8) :
    ((b &&& 0xFE) ||| (x &&& 1)) &&& 1 = x &&& 1 := by
  apply UInt8.eq_of_toBitVec_eq
  simp only [UInt8.toBitVec_and, UInt8.toBitVec_or]
  rw [BitVec.and_or_distrib_right, BitVec.and_assoc, BitVec.and_assoc]
  show _ &&& 0#8 ||| _ &&& 1#8 = _
  rw [BitVec.and_zero, BitVec.zero_or]
  rfl

theorem halves_iff {xs : Bytes} :
    Halves xs ↔ ∀ k < 8, xs[k]? = xs[8 + k]? := by
  rw [Halves]
  constructor
  · intro h k hk
    have hget := congrArg (fun ys : Bytes => ys[k]?) h
    simpa only [List.getElem?_take, if_pos hk, List.getElem?_drop] using hget
  · intro h
    apply List.ext_getElem?
    intro k
    simp only [List.getElem?_take, List.getElem?_drop]
    split
    · next hk => exact h k hk
    · rfl

theorem halves_map {xs : Bytes} (h : Halves xs) (f : UInt8 → UInt8) :
    Halves (xs.map f) := by
  rw [Halves, ← List.map_drop, ← List.map_take, ← List.map_take]
  exact congrArg (List.map f) h

/-- The bytes of a 2TDEA key on the card. -/
theorem storedKey_getElem? {key : Key} (htype : key.type = .k2k3des) {i : Nat}
    (hi : i < 16) :
    (storedKey key)[i]? = (key.data.bytes[i]?).map fun b =>
      (b &&& 0xFE) ||| ((key.version >>> UInt8.ofNat (7 - i % 8)) &&& 1) := by
  simp only [storedKey, htype, desKeySetVersion, keySize, List.getElem?_mapIdx,
    List.getElem?_take, if_pos hi]

theorem length_storedKey (key : Key) :
    (storedKey key).length = keySize key.type := by
  have hsize := keySize_le key.type
  rw [maxKeySize] at hsize
  have hdata := key.data.size
  have htake : (key.data.bytes.take (keySize key.type)).length =
      keySize key.type := by
    rw [List.length_take]
    omega
  rw [storedKey]
  unfold desKeySetVersion
  split
  · exact htake
  · exact htake
  · rw [List.length_mapIdx, htake]
  · rw [List.length_mapIdx, htake]
  · rw [List.length_mapIdx, htake]

/-- A key as it is given and the key the card holds differ in low bits. -/
theorem storedKey_cleared {key : Key} (htype : key.type = .k2k3des) :
    (storedKey key).map (· &&& 0xFE) =
      (key.data.bytes.take 16).map (· &&& 0xFE) := by
  apply List.ext_getElem?
  intro i
  rw [List.getElem?_map, List.getElem?_map]
  by_cases hi : i < 16
  · rw [storedKey_getElem? htype hi, Option.map_map, List.getElem?_take,
      if_pos hi]
    congr 1
    funext b
    exact clear_setLow b _
  · have hlen : (storedKey key).length ≤ i := by
      rw [length_storedKey, htype]
      exact Nat.not_lt.mp hi
    rw [List.getElem?_take, if_neg hi, List.getElem?_eq_none hlen]

/-- The card sees equal halves when they are equal up to low bits. -/
theorem halves_storedKey {key : Key} (htype : key.type = .k2k3des) :
    Halves (storedKey key) ↔ Halves (key.data.bytes.map (· &&& 0xFE)) := by
  have hsize := key.data.size
  rw [halves_iff, halves_iff]
  refine forall_congr' fun k => forall_congr' fun hk => ?_
  rw [storedKey_getElem? htype (show k < 16 by omega),
    storedKey_getElem? htype (show 8 + k < 16 by omega), List.getElem?_map,
    List.getElem?_map, List.getElem?_eq_getElem (by omega),
    List.getElem?_eq_getElem (by omega), Nat.add_mod_left]
  simp only [Option.map_some, Option.some.injEq]
  constructor
  · intro h
    rw [← clear_setLow, h, clear_setLow]
  · intro h
    rw [h]

theorem SameCipher.storedKey {c : BlockCipher} (hparity : IgnoresParity c)
    {key : Key} (htype : key.type = .k2k3des) :
    SameCipher .k2k3des (storedKey key) key.data.bytes := by
  have hlen : (Nxpsc.storedKey key).take 16 = Nxpsc.storedKey key :=
    List.take_of_length_le (by rw [length_storedKey, htype]; rfl)
  obtain ⟨henc, hdec⟩ := hparity .k2k3des _ _ rfl (storedKey_cleared htype)
  constructor
  · funext block
    rw [ecbEncryptBlock, ecbEncryptBlock, keySize, hlen, henc]
  · funext block
    rw [ecbDecryptBlock, ecbDecryptBlock, keySize, hlen, hdec]

/-! ## What ChangeKey stores -/

theorem wireKey_length (key : Key) : 16 ≤ (wireKey key).length := by
  rw [wireKey]
  split
  · next h => rw [List.length_append, length_storedKey, h]; rfl
  · rw [length_storedKey]
    cases htype : key.type <;> simp_all [keySize]

theorem piccKeyByte_eq (version : UInt8) (i : Nat) (b : UInt8) :
    piccKeyByte version i b =
      (b &&& 0xFE) ||| ((version >>> UInt8.ofNat (7 - i % 8)) &&& 1) := by
  have hhigh : ∀ v : BitVec 8, (v &&& 0xFE#8).toNat = 2 * (v.toNat / 2) := by
    decide +kernel
  have hshift : (UInt8.ofNat (7 - i % 8)).toNat % 8 = 7 - i % 8 := by
    rw [UInt8.toNat_ofNat']
    omega
  have hlow : ((version >>> UInt8.ofNat (7 - i % 8)) &&& 1).toNat =
      version.toNat / 2 ^ (7 - i % 8) % 2 := by
    rw [UInt8.toNat_and, UInt8.toNat_shiftRight, hshift,
      Nat.shiftRight_eq_div_pow]
    exact Nat.and_one_is_mod _
  have hbit := Nat.mod_lt (version.toNat / 2 ^ (7 - i % 8)) (by decide : 0 < 2)
  have hbyte := b.toNat_lt
  apply UInt8.toNat_inj.mp
  rw [piccKeyByte, UInt8.toNat_or, hlow, UInt8.toNat_ofNat',
    Nat.mod_eq_of_lt (by omega)]
  exact (Nat.two_pow_add_eq_or_of_lt (i := 1) hbit _).trans
    (congrArg (· ||| _) (hhigh b.toBitVec).symm)

/-- The low bits are set the same way. -/
theorem desKeySetVersion_picc (given : Bytes) {type : KeyType}
    (hdes : blockSize type = desBlock) (version : UInt8) :
    desKeySetVersion (given.take (keySize type)) type version =
      (given.take (keySize type)).mapIdx (piccKeyByte version) := by
  have hbytes : (given.take (keySize type)).mapIdx (fun i b =>
      if i < keySize type then
        (b &&& 0xFE) ||| ((version >>> UInt8.ofNat (7 - i % 8)) &&& 1)
      else b) = (given.take (keySize type)).mapIdx (piccKeyByte version) := by
    apply List.ext_getElem?
    intro i
    rw [List.getElem?_mapIdx, List.getElem?_mapIdx, List.getElem?_take]
    split
    · refine congrArg (Option.map · given[i]?) (funext fun b => ?_)
      exact (piccKeyByte_eq version i b).symm
    · rfl
  cases type with
  | des | k2k3des | k3k3des => exact hbytes
  | aes128 | aes256 => cases hdes

/-- A card has a key as it is written. -/
theorem wireKey_picc (key : Key) : wireKey key = piccKey key := by
  have hdes := @desKeySetVersion_picc key.data.bytes key.type
  rw [wireKey, storedKey, piccKey]
  cases htype : key.type with
  | aes128 | aes256 => rfl
  | k2k3des | k3k3des =>
      rw [htype] at hdes
      rw [hdes rfl]
      rfl
  | des =>
      rw [htype] at hdes
      rw [hdes rfl]
      rfl

theorem versionByte_picc (key : Key) : versionByte key = piccVersion key := by
  rw [versionByte, piccVersion]
  cases key.type <;> rfl

/-- Out of the request the card gets the key with its version bits. -/
theorem piccStores_request {card : Card} {keyNo : UInt8} {oldKey : Option Key}
    {newKey : Key} {req : Request} (htype : newKey.type = .k2k3des)
    (hreq : changeKeyRequest false 0 keyNo oldKey (some newKey) card =
      .ok req) {old : Bytes}
    (hold : changesSameKey card false keyNo = false →
      ∃ key, oldKey = some key ∧ old = piccKey key) :
    piccStores (changesSameKey card false keyNo) old req.data =
      storedKey newKey := by
  have hlen : (storedKey newKey).length = 16 := by
    rw [length_storedKey, htype]
    rfl
  have hwire : wireKey newKey = storedKey newKey := by
    rw [wireKey, htype, if_neg (by decide)]
  have hversion : versionByte newKey = [] := by
    rw [versionByte, htype, if_neg (by decide)]
  obtain ⟨head, sums, hdata⟩ : ∃ head sums, req.data =
      head :: (changeKeyCryptogram card false keyNo oldKey newKey ++ sums) := by
    simp only [changeKeyRequest] at hreq
    split at hreq
    · cases hreq
    split at hreq
    · cases hreq
    split at hreq
    · cases hreq
    cases hreq
    exact ⟨_, _, rfl⟩
  have hsent : ∀ mixed : Bytes, mixed.length = 16 →
      changeKeyCryptogram card false keyNo oldKey newKey = mixed →
      (req.data.drop 1).take 16 = mixed := by
    intro mixed hmixed heq
    rw [hdata, heq, List.drop_one, List.tail_cons, List.take_left' hmixed]
  simp only [changeKeyCryptogram, hwire, hversion, List.append_nil] at hsent
  simp only [piccStores]
  cases hsame : changesSameKey card false keyNo with
  | true =>
      rw [hsame] at hsent
      rw [if_pos rfl]
      refine hsent _ hlen ?_
      cases oldKey <;> rfl
  | false =>
      obtain ⟨key, rfl, rfl⟩ := hold hsame
      rw [← wireKey_picc]
      have hfit : Bytes.xor (storedKey newKey)
          (Bytes.fit maxKeySize (wireKey key)) =
          Bytes.xor (storedKey newKey) ((wireKey key).take 16) := by
        rw [← Bytes.xor_take_right _ (Bytes.fit maxKeySize _), hlen,
          Bytes.take_fit (by decide), Bytes.fit,
          Nat.sub_eq_zero_of_le (wireKey_length key)]
        simp [Bytes.zeros]
      have hold16 : ((wireKey key).take 16).length = 16 := by
        rw [List.length_take]
        exact Nat.min_eq_left (wireKey_length key)
      rw [hsame] at hsent
      rw [if_neg Bool.false_ne_true,
        hsent (Bytes.xor (storedKey newKey) ((wireKey key).take 16))
          (by rw [Bytes.length_xor, hlen, hold16, Nat.min_self]) hfit]
      exact Bytes.xor_cancel (by rw [hlen, hold16])

/-! ## The handshake with the stored key -/

section

variable [c : BlockCipher]

/-- The handshake always succeeds; whether it agreed is whether the two
session keys are one. -/
theorem agrees_iff_sameKey (hinv : DecryptInverts c) {key : Key}
    {stored rndB : Bytes} (hsame : SameCipher key.type stored key.data.bytes)
    {card : Card} {channel : Channel}
    (hchan : chosenChannel card key channel = .d40 ∨
      chosenChannel card key channel = .ev1)
    (keyNo : UInt8) (rnd : Bytes) (hB : rndB.length = legacyRndLen key) :
    Agrees (firstHandshake (chosenChannel card key channel) key.type stored
        keyNo rndB [] [])
      (authenticate (.ok rnd) keyNo (some key) channel) card
      (chosenChannel card key channel) ↔
    legacyShared key (Bytes.fit (legacyRndLen key) rnd) rndB =
      piccLegacySession key.type stored (Bytes.fit (legacyRndLen key) rnd)
        rndB := by
  have hA := Bytes.length_fit (legacyRndLen key) rnd
  have hrun := authenticate_run (.ok rnd) keyNo key channel card
  generalize chosenChannel card key channel = chan at *
  have hlen : (encSent key.type stored zeroIv rndB).1.length =
      legacyRndLen key :=
    (length_encSent _ hinv (blockSize_le_zeroIv key.type)
      (by rw [hB, (legacyRndLen_blocks key).2.1])).trans hB
  have hnone := noSession_resetChannel card
  obtain ⟨said, card', hmeets, hauth, hchan', hshared⟩ :
      ∃ said card', Meets ((firstHandshake chan key.type stored keyNo rndB []
          []).device.party card.cmdset)
          (authenticateOn (.ok rnd) keyNo key chan) (resetChannel card) .ready
          said (.ok ()) card' (.opened (piccLegacySession key.type stored
            (Bytes.fit (legacyRndLen key) rnd) rndB)) ∧
        card'.authenticated = true ∧ card'.channel = chan ∧
        card'.shared =
          legacyShared key (Bytes.fit (legacyRndLen key) rnd) rndB := by
    rcases hchan with rfl | rfl
    · obtain ⟨token, proof, hfits⟩ := d40_fits hinv hsame keyNo hA hB
      exact authLegacy_agrees hfits keyNo (by simp [d40Handshake, legacyCmd])
        hlen hnone.ti hnone.cmdCtr (by decide)
    · obtain ⟨token, proof, hfits⟩ := ev1_fits hinv hsame keyNo hA hB
      exact authLegacy_agrees hfits keyNo (by simp [ev1Handshake, legacyCmd])
        hlen hnone.ti hnone.cmdCtr (by decide)
  have hmeets' := Meets.congr hrun hmeets
  constructor
  · intro hagrees
    obtain ⟨-, -, -, hopened⟩ := hagrees.agrees _ _ _ _ hmeets'
    exact hshared.symm.trans (Phase.opened.inj hopened).symm
  · intro hkeys
    exact agrees_of_run (causal_authenticate _ _ _ _) hmeets' hauth hchan'
      (hshared.trans hkeys)

/-- A 2TDEA key that was written can be used exactly when its halves are
equal as they are given, or differ in more than low bits. -/
theorem written_key_usable (hinv : DecryptInverts c)
    (hparity : IgnoresParity c) {key : Key} (htype : key.type = .k2k3des)
    {writer : Card} {slot : UInt8} {oldKey : Option Key} {req : Request}
    (hreq : changeKeyRequest false 0 slot oldKey (some key) writer = .ok req)
    {old : Bytes} (hold : changesSameKey writer false slot = false →
      ∃ held, oldKey = some held ∧ old = piccKey held)
    (card : Card) (keyNo : UInt8) {channel : Channel}
    (hchan : chosenChannel card key channel = .d40 ∨
      chosenChannel card key channel = .ev1) :
    (∀ rnd rndB : Bytes, rndB.length = 8 →
      Agrees (firstHandshake (chosenChannel card key channel) .k2k3des
          (piccStores (changesSameKey writer false slot) old req.data) keyNo
          rndB [] [])
        (authenticate (.ok rnd) keyNo (some key) channel) card
        (chosenChannel card key channel)) ↔
    (Halves key.data.bytes ∨ ¬ Halves (key.data.bytes.map (· &&& 0xFE))) := by
  have hsame := SameCipher.storedKey hparity htype
  rw [← htype] at hsame
  have hrnd : legacyRndLen key = 8 := by rw [legacyRndLen, htype]; rfl
  rw [piccStores_request htype hreq hold, ← halves_storedKey htype, ← htype]
  constructor
  · intro hall
    by_contra hnot
    rw [not_or, not_not] at hnot
    obtain ⟨hraw, hstored⟩ := hnot
    have hkeys := (agrees_iff_sameKey hinv hsame hchan keyNo [0, 0, 0, 0, 1]
      ((Bytes.length_zeros 8).trans hrnd.symm)).mp (hall _ _ rfl)
    have hraw' : ¬ (key.data.bytes.take 8 = (key.data.bytes.drop 8).take 8) :=
      hraw
    have henc := congrArg Shared.sessionEnc hkeys
    simp only [legacyShared, legacySession, piccLegacySession, piccLegacyKey,
      htype, hrnd, hraw', hstored, and_self, and_false, if_true, if_false]
      at henc
    exact absurd henc (by decide)
  · intro hcases rnd rndB hB
    refine (agrees_iff_sameKey hinv hsame hchan keyNo rnd
      (hB.trans hrnd.symm)).mpr ?_
    refine legacyShared_eq (Bytes.length_fit _ _) (hB.trans hrnd.symm)
      fun _ => ⟨fun h => ?_, fun h => ?_⟩
    · exact (halves_storedKey htype).mpr (halves_map h _)
    · exact hcases.resolve_right fun hnot => hnot h

end

/-- A 2TDEA key of zeros with one version bit left in its second half. -/
def paddedKey : Key :=
  ⟨.k2k3des, .of 32 (Bytes.zeros 8 ++ [0x01]), 0⟩

/-- A 2TDEA key of zeros. -/
def factoryKey : Key := ⟨.k2k3des, .zero 32, 0⟩

/-- ChangeKey of key 1 from the factory key, in a session under key 0. -/
def writtenFrom (key : Key) : Except Err Request :=
  changeKeyRequest false 0 1 (some factoryKey) (some key) liveEv1

theorem written_key_usable_factory :
    ∃ req, writtenFrom factoryKey = .ok req ∧
      ∀ rnd rndB : Bytes, rndB.length = 8 →
        Agrees (@firstHandshake .identity .d40 .k2k3des
            (piccStores false (piccKey factoryKey) req.data) 1 rndB [] [])
          (@authenticate .identity (.ok rnd) 1 (some factoryKey) .d40)
          liveEv1 .d40 := by
  obtain ⟨req, hreq⟩ : ∃ req, writtenFrom factoryKey = .ok req := ⟨_, rfl⟩
  exact ⟨req, hreq, (@written_key_usable .identity decryptInverts_identity
    ignoresParity_identity factoryKey rfl liveEv1 1 (some factoryKey) req hreq
    (piccKey factoryKey) (fun _ => ⟨factoryKey, rfl, rfl⟩) liveEv1 1 .d40
    (.inl rfl)).mpr (.inl (by decide))⟩

/-- The halves of the key differ in a low bit, those of the stored key do
not. -/
theorem written_key_may_part :
    ¬ ∀ (c : BlockCipher), DecryptInverts c → IgnoresParity c →
      ∀ (key : Key), key.type = .k2k3des →
      ∀ (writer : Card) (slot : UInt8) (oldKey : Option Key) (req : Request),
      changeKeyRequest false 0 slot oldKey (some key) writer = .ok req →
      ∀ old : Bytes, (changesSameKey writer false slot = false →
        ∃ held, oldKey = some held ∧ old = piccKey held) →
      ∀ (card : Card) (keyNo : UInt8) (channel : Channel),
      channel = .d40 ∨ channel = .ev1 → ∀ rnd rndB : Bytes, rndB.length = 8 →
      Agrees (firstHandshake channel .k2k3des
          (piccStores (changesSameKey writer false slot) old req.data) keyNo
          rndB [] [])
        (authenticate (.ok rnd) keyNo (some key) channel) card channel := by
  intro hall
  obtain ⟨req, hreq⟩ : ∃ req, writtenFrom paddedKey = .ok req := ⟨_, rfl⟩
  have hagrees := hall .identity decryptInverts_identity ignoresParity_identity
    paddedKey rfl liveEv1 1 (some factoryKey) req hreq (piccKey factoryKey)
    (fun _ => ⟨factoryKey, rfl, rfl⟩) liveEv1 1 .d40 (.inl rfl)
    [0, 0, 0, 0, 1] (Bytes.zeros 8) rfl
  rw [piccStores_request rfl hreq fun _ => ⟨factoryKey, rfl, rfl⟩] at hagrees
  have hsame : @SameCipher .identity .k2k3des (storedKey paddedKey)
      paddedKey.data.bytes := SameCipher.storedKey ignoresParity_identity rfl
  have hkeys := (@agrees_iff_sameKey .identity decryptInverts_identity
    paddedKey _ _ hsame liveEv1 .d40 (.inl rfl) 1 [0, 0, 0, 0, 1] rfl).mp
    hagrees
  exact absurd hkeys (by decide)

end Nxpsc
