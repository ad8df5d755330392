import Nxpsc.Proofs.KeyChange
import Nxpsc.Proofs.WrittenKey
import Nxpsc.Ref.Advanced

/-!
# The default key, and the key ChangeKey writes

ChangeKey puts the version of a (2K3)DES key into its low bits and sends a
single DES key twice. SetConfiguration sends the bytes as they were given, so
the two agree on a key that looks the same after that treatment.
-/

namespace Nxpsc

theorem setLow_self (b : UInt8) : (b &&& 0xFE) ||| (b &&& 1) = b := by
  apply UInt8.eq_of_toBitVec_eq
  simp only [UInt8.toBitVec_and, UInt8.toBitVec_or]
  rw [← BitVec.and_or_distrib_left]
  show _ &&& BitVec.allOnes 8 = _
  rw [BitVec.and_allOnes]

/-- Setting the low bit changes nothing where it is set already. -/
theorem setLow_eq_iff (b x : UInt8) :
    (b &&& 0xFE) ||| (x &&& 1) = b ↔ b &&& 1 = x &&& 1 := by
  constructor
  · intro h
    rw [← low_setLow b x, h]
  · intro h
    rw [← h, setLow_self]

theorem length_rawKey (key : Key) :
    (rawKey key).length = keySize key.type := by
  have hle := keySize_le key.type
  rw [rawKey, List.length_take, key.data.size]
  exact Nat.min_eq_left hle

/-- A key of the DES family that already carries its version is stored as it
is. -/
theorem storedKey_eq_raw_iff {key : Key} (haes : key.type ≠ .aes128)
    (haes' : key.type ≠ .aes256) :
    storedKey key = rawKey key ↔ CarriesVersion key := by
  have hget : ∀ i, (storedKey key)[i]? = ((rawKey key)[i]?).map fun b =>
      (b &&& 0xFE) ||| ((key.version >>> UInt8.ofNat (7 - i % 8)) &&& 1) := by
    intro i
    have hmap : storedKey key = (rawKey key).mapIdx fun i b =>
        if i < keySize key.type then
          (b &&& 0xFE) ||| ((key.version >>> UInt8.ofNat (7 - i % 8)) &&& 1)
        else b := by
      rw [storedKey, ← rawKey]
      unfold desKeySetVersion
      cases htype : key.type with
      | aes128 => exact absurd htype haes
      | aes256 => exact absurd htype haes'
      | _ => rfl
    rw [hmap, List.getElem?_mapIdx]
    by_cases hi : i < keySize key.type
    · simp only [if_pos hi]
    · rw [List.getElem?_eq_none (by rw [length_rawKey]; omega)]
      rfl
  constructor
  · intro h i b hi hb
    have hraw : (rawKey key)[i]? = some b := by
      rw [rawKey, List.getElem?_take, if_pos hi, hb]
    have hi' := hget i
    rw [h, hraw, Option.map_some, Option.some.injEq] at hi'
    exact (setLow_eq_iff _ _).mp hi'.symm
  · intro h
    apply List.ext_getElem?
    intro i
    rw [hget]
    by_cases hi : i < keySize key.type
    · cases hb : (rawKey key)[i]? with
      | none => rfl
      | some b =>
          rw [rawKey, List.getElem?_take, if_pos hi] at hb
          rw [Option.map_some, (setLow_eq_iff _ _).mpr (h i b hi hb)]
    · rw [List.getElem?_eq_none (by rw [length_rawKey]; omega)]
      rfl

/-! ## The two forms -/

theorem fit_inj {n m : Nat} {xs ys : Bytes} (hx : xs.length = m)
    (hy : ys.length = m) (hm : m ≤ n) :
    Bytes.fit n xs = Bytes.fit n ys ↔ xs = ys := by
  rw [Bytes.fit_of_le (by omega), Bytes.fit_of_le (by omega), hx, hy]
  exact List.append_left_inj _

/-- When the bytes of a key, filled up with zeros, are the key as it is
written. -/
theorem fit_raw_eq_iff {key : Key} (haes : key.type ≠ .aes256) :
    Bytes.fit 24 (rawKey key) = Bytes.fit 24 (piccKey key) ↔
      key.type = .aes128 ∨ CarriesVersion key ∧
        (key.type = .des → rawKey key = Bytes.zeros 8) := by
  rw [← wireKey_picc]
  have hraw := length_rawKey key
  have hst := length_storedKey key
  have hstored := @storedKey_eq_raw_iff key
  cases htype : key.type with
  | aes256 => exact absurd htype haes
  | aes128 =>
      refine iff_of_true ?_ (.inl rfl)
      simp only [wireKey, storedKey, rawKey, htype, desKeySetVersion,
        reduceCtorEq, if_false]
  | k2k3des | k3k3des =>
      rw [htype] at hraw hst
      simp only [wireKey, htype, reduceCtorEq, if_false, false_or,
        false_imp_iff, and_true]
      rw [fit_inj hraw hst (by decide), eq_comm]
      exact hstored (by rw [htype]; decide) (by rw [htype]; decide)
  | des =>
      rw [htype] at hraw hst
      have hst8 : (storedKey key).length = 8 := hst
      have hraw8 : (rawKey key).length = 8 := hraw
      rw [← hstored (by rw [htype]; decide) (by rw [htype]; decide)]
      simp only [wireKey, htype, if_true, reduceCtorEq, false_or,
        forall_const]
      rw [Bytes.fit_of_le (by omega),
        Bytes.fit_of_le (by rw [List.length_append]; omega),
        List.length_append, hst8, hraw8, List.append_assoc]
      constructor
      · intro h
        obtain ⟨hfirst, hrest⟩ := List.append_inj h (hraw8.trans hst8.symm)
        have hsecond := (@List.append_inj _ (Bytes.zeros 8) _
          (Bytes.zeros 8) _ hrest hst8.symm).1
        exact ⟨hfirst.symm, hfirst.trans hsecond.symm⟩
      · rintro ⟨hsame, hzero⟩
        rw [hsame, hzero]
        rfl

/-- What ChangeKey writes of the session's own key. -/
theorem changed_own_key {card : Card} (key : Key)
    (hauth : card.authenticated = true) (hchan : card.channel ≠ .auto) :
    ∃ change, changeKeyRequest false 0 card.keyNo none (some key) card =
        .ok change ∧ writtenKey key.type change.data = piccKey key ∧
      writtenVersion key.type change.data = piccVersion key := by
  obtain ⟨rxMode, hchange⟩ := @changeKeyRequest_ok _ _ none
    key key hauth hchan (.inr ⟨rfl, rfl⟩)
  have hkey := keyBody_key card (keyNoData card card.keyNo key)
    (card.keyNo == card.keyNo) key key []
  have hversion := keyBody_version card (keyNoData card card.keyNo key)
    (card.keyNo == card.keyNo) key key []
  rw [List.append_nil] at hkey hversion
  refine ⟨_, hchange, hkey.trans ?_, hversion⟩
  rw [mixedKey, beq_self_eq_true, if_pos rfl]

/-- The default key has the form of a changed key when it is an AES key, or
when it carries its version and, being a single DES key, is all zeros. -/
theorem default_key_agrees {card card' : Card} {key : Key}
    (hauth : card.authenticated = true) (hauth' : card'.authenticated = true)
    (hchan' : card'.channel ≠ .auto) (htype : key.type ≠ .aes256) :
    ∃ config change, setDefaultKeyRequest key card = .ok config ∧
      changeKeyRequest false 0 card'.keyNo none (some key) card' =
        .ok change ∧
      (SameKeyForm key config.data change.data ↔
        key.type = .aes128 ∨ CarriesVersion key ∧
          (key.type = .des → rawKey key = Bytes.zeros 8)) := by
  obtain ⟨change, hchange, hkey, hversion⟩ :=
    changed_own_key key hauth' hchan'
  have hfits : ¬ 24 < keySize key.type := by
    cases hty : key.type <;> first | decide | exact absurd hty htype
  have hfield : (Bytes.fit 24 (rawKey key)).length = 24 :=
    Bytes.length_fit _ _
  have hconfig : setDefaultKeyRequest key card = .ok ⟨dfSetConfiguration,
      0x01 :: (Bytes.fit 24 (rawKey key) ++ [key.version]), .enc, .mac,
      16⟩ := by
    rw [setDefaultKeyRequest, if_neg hfits, setConfigurationRequest, ← rawKey,
      if_neg (by
        rw [List.length_append, hfield, List.length_singleton]
        decide),
      if_neg (by rw [hauth]; decide)]
  have hlast : (0x01 :: (Bytes.fit 24 (rawKey key) ++ [key.version])).drop 25 =
      [key.version] := List.drop_left' hfield
  have hbyte : piccVersion key =
      [key.version].take (piccVersionLen key.type) := by
    rw [piccVersion, piccVersionLen]
    cases key.type <;> rfl
  refine ⟨_, change, hconfig, hchange, ?_⟩
  rw [← fit_raw_eq_iff htype, ← hkey]
  have htake : ((0x01 :: (Bytes.fit 24 (rawKey key) ++
      [key.version])).drop 1).take 24 = Bytes.fit 24 (rawKey key) :=
    List.take_left' hfield
  constructor
  · intro h
    rw [← htake]
    exact h.field
  · intro h
    exact ⟨rfl, htake.trans h, hlast,
      hversion.trans (hbyte.trans (by rw [hlast]))⟩

/-! ### A key of each kind -/

theorem default_key_agrees_zero :
    ∃ config change, setDefaultKeyRequest zeroKey liveEv2 = .ok config ∧
      changeKeyRequest false 0 liveEv1.keyNo none (some zeroKey) liveEv1 =
        .ok change ∧
      (SameKeyForm zeroKey config.data change.data ↔
        zeroKey.type = .aes128 ∨ CarriesVersion zeroKey ∧
          (zeroKey.type = .des → rawKey zeroKey = Bytes.zeros 8)) :=
  default_key_agrees rfl rfl (by decide) (by decide)

/-- A 2K3DES key of zeros, version 1: ChangeKey writes it with the version in
the last byte of each half. -/
theorem default_key_without_version :
    ¬ ∀ (card card' : Card) (key : Key) (config change : Request),
      card.authenticated = true → card'.authenticated = true →
      card'.channel ≠ .auto → key.type ≠ .aes256 →
      setDefaultKeyRequest key card = .ok config →
      changeKeyRequest false 0 card'.keyNo none (some key) card' =
        .ok change →
      SameKeyForm key config.data change.data := by
  intro hall
  have hform := hall liveEv2 liveEv1 ⟨.k2k3des, .zero 32, 1⟩ _ _ rfl rfl
    (by decide) (by decide) rfl rfl
  exact absurd hform.field (by decide)

end Nxpsc
