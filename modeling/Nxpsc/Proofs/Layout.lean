import Mathlib.Tactic.IntervalCases
import Nxpsc.Proofs.Exchange
import Nxpsc.Spec.Layout

/-!
# What the card reads in a CreateApplication payload, and file settings

Both halves of this file compare two layouts field by field. The numbers go
through `Parser.value`, the bits through the one or two masks each flag has.
-/

namespace Nxpsc

open Dialogue Parser

/-! ## Numbers -/

theorem or_shiftLeft {a k : Nat} (b : Nat) (h : a < 2 ^ k) :
    a ||| b <<< k = a + 2 ^ k * b := by
  rw [Nat.or_comm, ← Nat.shiftLeft_add_eq_or_of_lt h, Nat.shiftLeft_eq,
    Nat.add_comm, Nat.mul_comm]

theorem lt_of_fitsU24 {v : UInt32} (h : fitsU24 v = true) :
    v.toNat < 2 ^ 24 := by
  have hand := UInt32.toNat_inj.mpr (of_decide_eq_true h)
  rw [UInt32.toNat_and] at hand
  apply Nat.lt_pow_two_of_testBit
  intro i hi
  by_cases hhigh : 32 ≤ i
  · exact Nat.testBit_lt_two_pow (Nat.lt_of_lt_of_le v.toNat_lt
      (Nat.pow_le_pow_right (by decide) hhigh))
  · -- the mask has every bit from 24 on
    have hbit := congrArg (Nat.testBit · i) hand
    have hmask : Nat.testBit (0xFF000000 : UInt32).toNat i = true := by
      have hi : i = 24 ∨ i = 25 ∨ i = 26 ∨ i = 27 ∨ i = 28 ∨ i = 29 ∨
          i = 30 ∨ i = 31 := by omega
      rcases hi with rfl | rfl | rfl | rfl | rfl | rfl | rfl | rfl <;> decide
    simpa only [Nat.testBit_and, hmask, Bool.and_true, UInt32.toNat_zero,
      Nat.zero_testBit] using hbit

theorem fitsU24_of_lt {v : UInt32} (h : v.toNat < 2 ^ 24) :
    fitsU24 v = true := by
  refine decide_eq_true (UInt32.toNat_inj.mp ?_)
  rw [UInt32.toNat_and]
  -- the mask has no bit below 24
  apply Nat.eq_of_testBit_eq
  intro i
  rw [Nat.testBit_and, UInt32.toNat_zero, Nat.zero_testBit]
  by_cases hlow : i < 24
  · have hmask : Nat.testBit (0xFF000000 : UInt32).toNat i = false := by
      have hzero : (0xFF000000 : UInt32).toNat % 2 ^ 24 = 0 := by decide
      rw [← Nat.zero_testBit i, ← hzero, Nat.testBit_mod_two_pow,
        decide_eq_true hlow, Bool.true_and]
    rw [hmask, Bool.and_false]
  · rw [Nat.testBit_lt_two_pow (Nat.lt_of_lt_of_le h
      (Nat.pow_le_pow_right (by decide) (Nat.le_of_not_lt hlow))),
      Bool.false_and]

theorem value_putU24 {v : UInt32} (h : fitsU24 v = true) :
    value (putU24 v) = v.toNat := by
  have hlt := lt_of_fitsU24 h
  simp only [putU24, value_cons, value_nil, UInt32.toNat_toUInt8,
    UInt32.toNat_shiftRight]
  simp only [Nat.shiftRight_eq_div_pow, show (8 : UInt32).toNat % 32 = 8
    from rfl, show (16 : UInt32).toNat % 32 = 16 from rfl]
  omega

theorem value_putU16 (v : UInt16) : value (putU16 v) = v.toNat := by
  have hlt := v.toNat_lt
  simp only [putU16, value_cons, value_nil, UInt16.toNat_toUInt8,
    UInt16.toNat_shiftRight]
  simp only [Nat.shiftRight_eq_div_pow, show (8 : UInt16).toNat % 16 = 8
    from rfl]
  omega

theorem value_putU32 (v : UInt32) : value (putU32 v) = v.toNat := by
  simp only [putU32, value_cons, value_nil, UInt32.toNat_toUInt8,
    UInt32.toNat_shiftRight, Nat.shiftRight_eq_div_pow]
  simp only [UInt32.reduceToNat, Nat.reduceMod, Nat.reducePow]
  have := v.toNat_lt
  omega

theorem toNat_shiftLeft_byte (b : UInt8) {k : UInt32} (hk : k.toNat ≤ 24) :
    (b.toUInt32 <<< k).toNat = b.toNat <<< k.toNat := by
  have hb := b.toNat_lt
  have hpow : 2 ^ k.toNat ≤ 2 ^ 24 := Nat.pow_le_pow_right (by decide) hk
  rw [UInt32.toNat_shiftLeft, UInt8.toNat_toUInt32,
    Nat.mod_eq_of_lt (b := 32) (by omega)]
  apply Nat.mod_eq_of_lt
  rw [Nat.shiftLeft_eq]
  calc b.toNat * 2 ^ k.toNat ≤ 255 * 2 ^ 24 :=
        Nat.mul_le_mul (by omega) hpow
    _ < 2 ^ 32 := by decide

theorem toNat_getU24 (a b c : UInt8) (more : Bytes) :
    (getU24 (a :: b :: c :: more) 0).toNat = value [a, b, c] := by
  have ha := a.toNat_lt
  have hb := b.toNat_lt
  simp only [getU24, List.getD_cons_zero, List.getD_cons_succ,
    UInt32.toNat_or, UInt8.toNat_toUInt32,
    toNat_shiftLeft_byte b (k := 8) (by decide),
    toNat_shiftLeft_byte c (k := 16) (by decide), value_cons, value_nil]
  show a.toNat ||| b.toNat <<< 8 ||| c.toNat <<< 16 = _
  rw [or_shiftLeft _ ha, or_shiftLeft _ (by omega)]
  omega

theorem toNat_getU16 (a b : UInt8) (more : Bytes) :
    (getU16 (a :: b :: more) 0).toNat = value [a, b] := by
  have ha := a.toNat_lt
  have hb := b.toNat_lt
  have hshift : (b.toUInt16 <<< 8).toNat = b.toNat <<< 8 := by
    rw [UInt16.toNat_shiftLeft, UInt8.toNat_toUInt16]
    apply Nat.mod_eq_of_lt
    rw [Nat.shiftLeft_eq]
    show b.toNat * 2 ^ 8 < 2 ^ 16
    omega
  simp only [getU16, List.getD_cons_zero, List.getD_cons_succ,
    UInt16.toNat_or, UInt8.toNat_toUInt16, hshift, value_cons, value_nil]
  rw [or_shiftLeft _ ha]
  omega

theorem getU24_putU24 {v : UInt32} (h : fitsU24 v = true) (more : Bytes) :
    getU24 (putU24 v ++ more) 0 = v := by
  apply UInt32.toNat_inj.mp
  rw [← value_putU24 h]
  exact toNat_getU24 _ _ _ more

theorem getU16_putU16 (v : UInt16) (more : Bytes) :
    getU16 (putU16 v ++ more) 0 = v := by
  apply UInt16.toNat_inj.mp
  rw [← value_putU16 v]
  exact toNat_getU16 _ _ more

theorem getU16_drop (data : Bytes) (off : Nat) :
    getU16 data off = getU16 (data.drop off) 0 := by
  simp [getU16, List.getD_eq_getElem?_getD, List.getElem?_drop]

/-- A nibble is what is left of a byte of at most 15. -/
theorem and_15_eq_iff (b : UInt8) : b &&& 0x0F = b ↔ b ≤ 15 := by
  have hmod : b.toNat &&& 15 = b.toNat % 16 :=
    Nat.and_two_pow_sub_one_eq_mod b.toNat 4
  rw [← UInt8.toNat_inj, UInt8.toNat_and, UInt8.le_iff_toNat_le]
  show b.toNat &&& 15 = b.toNat ↔ b.toNat ≤ 15
  rw [hmod]
  omega

/-! ## CreateApplication -/

theorem or_and (a b c : UInt8) :
    (a ||| b) &&& c = (a &&& c) ||| (b &&& c) := by
  apply UInt8.toBitVec_inj.mp
  ext i
  simp only [UInt8.toBitVec_and, UInt8.toBitVec_or, BitVec.getElem_and,
    BitVec.getElem_or]
  exact Bool.and_or_distrib_right _ _ _

/-- A mask over the flags of KeySett2 does not see the number of keys. -/
theorem keySett2_and (numKeys tag mask : UInt8) (h : 0x0F &&& mask = 0) :
    ((numKeys &&& 0x0F) ||| tag) &&& mask = tag &&& mask := by
  rw [or_and, UInt8.and_assoc, h, UInt8.and_zero, UInt8.zero_or]

theorem keySett2_low (numKeys tag : UInt8) (h : tag &&& 0x0F = 0) :
    ((numKeys &&& 0x0F) ||| tag) &&& 0x0F = numKeys &&& 0x0F := by
  rw [or_and, UInt8.and_assoc, UInt8.and_self, h, UInt8.or_zero]

/-- What announces KeySett3. -/
def hasKeySett3 (cfg : AppConfig) : Bool :=
  decide (2 ≤ cfg.numKeySets) || cfg.specificVcKeys ||
    cfg.specificCapabilityData

/-- What KeySett2 says besides the number of keys. -/
def keySett2Tag (cfg : AppConfig) : UInt8 :=
  keytypeToCard cfg.keyType ||| flag cfg.isoFidEnabled 0x20 |||
    flag (hasKeySett3 cfg) 0x10

def keySett2 (cfg : AppConfig) : UInt8 :=
  (cfg.numKeys &&& 0x0F) ||| keySett2Tag cfg

def keySett3 (cfg : AppConfig) : UInt8 :=
  flag (decide (2 ≤ cfg.numKeySets)) 0x01 ||| flag cfg.specificVcKeys 0x02 |||
    flag cfg.specificCapabilityData 0x04

theorem createAppPayload_eq (aid : UInt32) (cfg : AppConfig) :
    createAppPayload aid cfg = putU24 aid ++ ([cfg.keySettings] ++
      ([keySett2 cfg] ++ ((if hasKeySett3 cfg then [keySett3 cfg] else []) ++
        ((if decide (2 ≤ cfg.numKeySets) then [cfg.keySetVersion,
            cfg.numKeySets, cfg.maxKeySize, cfg.keySetSettings] else []) ++
          (if cfg.isoFidEnabled then putU16 cfg.isoFid ++ cfg.dfName
            else []))))) := by
  simp only [createAppPayload, keySett2, keySett2Tag, keySett3, hasKeySett3,
    List.append_assoc, UInt8.or_assoc, List.cons_append, List.nil_append]

theorem keySett2_read (cfg : AppConfig) :
    keySett2 cfg &&& 0x0F = cfg.numKeys &&& 0x0F ∧
      KeyClass.ofKeySett2 (keySett2 cfg) = some cfg.keyType.keyClass ∧
      (keySett2 cfg &&& 0x10 != 0) = hasKeySett3 cfg ∧
      (keySett2 cfg &&& 0x20 != 0) = cfg.isoFidEnabled := by
  obtain ⟨hlow, hclass, hks3, hiso⟩ : keySett2Tag cfg &&& 0x0F = 0 ∧
      KeyClass.ofKeySett2 (keySett2Tag cfg) = some cfg.keyType.keyClass ∧
      (keySett2Tag cfg &&& 0x10 != 0) = hasKeySett3 cfg ∧
      (keySett2Tag cfg &&& 0x20 != 0) = cfg.isoFidEnabled := by
    rw [keySett2Tag]
    cases cfg.keyType <;> cases cfg.isoFidEnabled <;>
      cases hasKeySett3 cfg <;> decide
  refine ⟨keySett2_low _ _ hlow, ?_, ?_, ?_⟩
  · rw [← hclass]
    simp only [KeyClass.ofKeySett2, keySett2, keySett2_and _ _ 0xC0 rfl]
  · rw [← hks3, keySett2, keySett2_and _ _ 0x10 rfl]
  · rw [← hiso, keySett2, keySett2_and _ _ 0x20 rfl]

/-- KeySett3, read back bit by bit. -/
theorem keySett3_read (cfg : AppConfig) :
    (keySett3 cfg &&& 0x01 != 0) = decide (2 ≤ cfg.numKeySets) ∧
      (keySett3 cfg &&& 0x02 != 0) = cfg.specificVcKeys ∧
      (keySett3 cfg &&& 0x04 != 0) = cfg.specificCapabilityData := by
  rw [keySett3]
  cases decide (2 ≤ cfg.numKeySets) <;> cases cfg.specificVcKeys <;>
    cases cfg.specificCapabilityData <;> decide

/-- Where KeySett3 is not sent, none of its flags is set. -/
theorem keySett3_absent (cfg : AppConfig) :
    (if hasKeySett3 cfg then some (keySett3 cfg) else none).getD 0 =
      keySett3 cfg := by
  rw [hasKeySett3, keySett3]
  cases decide (2 ≤ cfg.numKeySets) <;> cases cfg.specificVcKeys <;>
    cases cfg.specificCapabilityData <;> rfl

theorem takes_keySetFields (a b c d : UInt8) :
    Takes keySetFields [a, b, c, d] ⟨a, b, c, d⟩ :=
  (takes_item a).bind ((takes_item b).bind ((takes_item c).bind
    ((takes_item d).bind (takes_pure _))))

theorem whole_isoFields (fid : UInt16) (name : Bytes) :
    Whole isoFields (putU16 fid ++ name) (fid.toNat, name) := by
  have hfid := @takes_number 2 (putU16 fid) rfl
  rw [value_putU16] at hfid
  exact hfid.bind_whole ((whole_rest name).map (Prod.mk fid.toNat))

/-- The parser finds in a payload what was configured, but of the number of
keys only the nibble that carries it. -/
theorem appLayout_whole {aid : UInt32} (haid : fitsU24 aid = true)
    (cfg : AppConfig) :
    Whole appLayout (createAppPayload aid cfg)
      { cfg.layout aid with numKeys := cfg.numKeys &&& 0x0F } := by
  obtain ⟨hlow, hclass, hks3, hiso⟩ := keySett2_read cfg
  obtain ⟨hsets, hvc, hcapability⟩ := keySett3_read cfg
  have haidRead := @takes_number 3 (putU24 aid) rfl
  rw [value_putU24 haid] at haidRead
  rw [createAppPayload_eq]
  refine haidRead.bind_whole ?_
  refine (takes_item cfg.keySettings).bind_whole ?_
  refine (takes_item (keySett2 cfg)).bind_whole ?_
  rw [hclass]
  refine (takes_expect cfg.keyType.keyClass).bind_nil_whole ?_
  rw [hks3]
  refine (takes_announced fun _ => takes_item (keySett3 cfg)).bind_whole ?_
  simp only [keySett3_absent, hsets, hvc, hcapability, hlow, hiso]
  refine (takes_announced fun _ => takes_keySetFields _ _ _ _).bind_whole ?_
  have hlast := (whole_announced (q := cfg.isoFidEnabled) fun _ =>
    whole_isoFields cfg.isoFid cfg.dfName).map (AppLayout.mk aid.toNat
      cfg.keySettings (cfg.numKeys &&& 0x0F) cfg.keyType.keyClass
      (if decide (2 ≤ cfg.numKeySets) then some ⟨cfg.keySetVersion,
        cfg.numKeySets, cfg.maxKeySize, cfg.keySetSettings⟩ else none)
      cfg.specificVcKeys cfg.specificCapabilityData)
  simpa only [AppConfig.layout, decide_eq_true_eq] using hlast

/-- The card reads back the configuration of an accepted application exactly
when the number of keys fits its nibble. -/
theorem created_application_read_iff {aid : UInt32} {cfg : AppConfig}
    {card : Card} {req : Request}
    (h : createAppRequest aid cfg card = .ok req) :
    Whole appLayout req.data (cfg.layout aid) ↔ cfg.numKeys ≤ 15 := by
  have haccepted : fitsU24 aid = true ∧
      req.data = createAppPayload aid cfg := by
    rw [createAppRequest] at h
    split at h
    · cases h
    split at h
    · cases h
    next haid =>
    split at h
    · cases h
    split at h
    · cases h
    split at h
    · cases h
    cases h
    exact ⟨by simpa using haid, rfl⟩
  obtain ⟨haid, hdata⟩ := haccepted
  have hread := appLayout_whole haid cfg
  rw [hdata, ← and_15_eq_iff]
  constructor
  · intro hwhole
    exact congrArg AppLayout.numKeys (hread.unique hwhole)
  · intro hnibble
    rwa [hnibble] at hread

/-- Every optional block at once. -/
def fullConfig : AppConfig :=
  { AppConfig.plain 0x0F 14 .aes128 with
    isoFidEnabled := true
    isoFid := 0xE110
    dfName := [0xAA, 0xBB, 0xCC]
    numKeySets := 2
    keySetVersion := 0x11
    maxKeySize := 16
    keySetSettings := 0x02
    specificVcKeys := true
    specificCapabilityData := true }

theorem created_application_read_full :
    Whole appLayout (createAppPayload 0x010203 fullConfig)
      (fullConfig.layout 0x010203) :=
  (@created_application_read_iff 0x010203 fullConfig (Card.opened none)
    ⟨_, _, _, _, _⟩ rfl).mpr (by decide)

/-- Sixteen keys are accepted, and the card is told of none. -/
theorem sixteen_keys_read_as_none :
    ∃ req, createAppRequest 0x010203 (.plain 0x0F 16 .aes128)
        (Card.opened none) = .ok req ∧
      Whole appLayout req.data
        { AppConfig.layout 0x010203 (.plain 0x0F 16 .aes128) with
          numKeys := 0 } ∧
      ¬ Whole appLayout req.data
        (AppConfig.layout 0x010203 (.plain 0x0F 16 .aes128)) := by
  refine ⟨_, rfl, rfl, ?_⟩
  intro h
  cases h

/-! ## File settings -/

/-- The rights come back as the nibbles they were packed into. -/
theorem unpackAccess_packAccess (a : Access) :
    unpackAccess (packAccess a) = ⟨a.read &&& 0x0F, a.write &&& 0x0F,
      a.readWrite &&& 0x0F, a.change &&& 0x0F⟩ := by
  simp only [unpackAccess, packAccess, Access.mk.injEq]
  refine ⟨?_, ?_, ?_, ?_⟩ <;>
  · apply UInt8.toBitVec_inj.mp
    ext i hi
    interval_cases i <;> simp

theorem unpackAccess_packAccess_iff (a : Access) :
    unpackAccess (packAccess a) = a ↔ a.Fits := by
  rw [unpackAccess_packAccess, Access.Fits]
  cases a with
  | mk read write readWrite change =>
      rw [Access.mk.injEq, and_15_eq_iff, and_15_eq_iff, and_15_eq_iff,
        and_15_eq_iff]

theorem commFromFile_commToFile (comm : CommMode) :
    commFromFile (commToFile comm) = comm := by
  cases comm <;> rfl

/-- What a creation command says behind the access rights. -/
def NewFile.tail : NewFile → Bytes
  | .std _ size | .backup _ size => putU24 size
  | .value lower upper v limitedCredit =>
      putU32 lower.toUInt32 ++ putU32 upper.toUInt32 ++ putU32 v.toUInt32 ++
        [flag limitedCredit 0x01]
  | .record _ _ recordSize maxRecords => putU24 recordSize ++ putU24 maxRecords

/-- The sizes of the file have three bytes. -/
def NewFile.SizesFit : NewFile → Prop
  | .std _ size | .backup _ size => fitsU24 size = true
  | .value .. => True
  | .record _ _ recordSize maxRecords =>
      fitsU24 recordSize = true ∧ fitsU24 maxRecords = true

section

variable {f : NewFile} {fileNo : UInt8} {comm : CommMode} {access : Access}
  {card : Card} {req : Request}

theorem createFile_kept {cmd : UInt8} {fid : UInt16} {tail : Bytes}
    (h : createFileRequest cmd fileNo (announcedFid fid) comm access tail card =
      .ok req) :
    req.data.drop (if fid = 0 then 1 else 3) =
      commToFile comm :: (putU16 (packAccess access) ++ tail) := by
  cases h
  by_cases hfid : fid = 0
  · rw [if_pos hfid, announcedFid, if_neg (by simpa using hfid)]
    rfl
  · rw [if_neg hfid, announcedFid, if_pos hfid]
    rfl

theorem createDataFile_accepted {cmd : UInt8} {fid : UInt16} {size : UInt32}
    (h : createDataFileRequest cmd fileNo fid comm access size card = .ok req) :
    fitsU24 size = true ∧
      req.data.drop (if fid = 0 then 1 else 3) =
        commToFile comm :: (putU16 (packAccess access) ++ putU24 size) := by
  rw [createDataFileRequest] at h
  split at h
  · cases h
  next hsize => exact ⟨by simpa using hsize, createFile_kept h⟩

theorem createRecordFile_accepted {cyclic : Bool} {fid : UInt16}
    {recordSize maxRecords : UInt32}
    (h : createRecordFileRequest cyclic fileNo fid comm access recordSize
      maxRecords card = .ok req) :
    (fitsU24 recordSize = true ∧ fitsU24 maxRecords = true) ∧
      req.data.drop (if fid = 0 then 1 else 3) =
        commToFile comm :: (putU16 (packAccess access) ++
          (putU24 recordSize ++ putU24 maxRecords)) := by
  rw [createRecordFileRequest] at h
  split at h
  · cases h
  next hsize => exact ⟨by simpa using hsize, createFile_kept h⟩

/-- What the card keeps of a creation command the library accepted. -/
theorem NewFile.kept_request (h : f.request fileNo comm access card = .ok req) :
    f.SizesFit ∧ f.kept req.data =
      commToFile comm :: (putU16 (packAccess access) ++ f.tail) := by
  cases f with
  | std fid size => exact createDataFile_accepted h
  | backup fid size => exact createDataFile_accepted h
  | value lower upper v limitedCredit =>
      cases h
      exact ⟨trivial, rfl⟩
  | record cyclic fid recordSize maxRecords =>
      exact createRecordFile_accepted h

end

/-- A reply, byte by byte. -/
def settingsBytes (ty : UInt8) (comm : CommMode) (access : Access)
    (tail : Bytes) : Bytes :=
  ty :: commToFile comm :: (putU16 (packAccess access) ++ tail)

/-- The part every reply has. -/
theorem fileSettingsHead_reply (ty : UInt8) (comm : CommMode) (access : Access)
    (tail : Bytes) :
    (fileSettingsHead (settingsBytes ty comm access tail)).comm = comm ∧
    (fileSettingsHead (settingsBytes ty comm access tail)).access =
      unpackAccess (packAccess access) := by
  refine ⟨commFromFile_commToFile comm, ?_⟩
  rw [fileSettingsHead, getU16_drop]
  exact congrArg unpackAccess (getU16_putU16 _ tail)

/-- A standard or backup file is reported with its size. -/
theorem parseFileSettings_data {ty : UInt8} (comm : CommMode)
    (access : Access) {size : UInt32}
    (hty : ty = fileStd ∨ ty = fileBackup) (hsize : fitsU24 size = true) :
    ∃ s, parseFileSettings (settingsBytes ty comm access (putU24 size)) =
        .ok s ∧ s.comm = comm ∧ s.access = unpackAccess (packAccess access) ∧
      s.size = size := by
  obtain ⟨hcomm, haccess⟩ :=
    fileSettingsHead_reply ty comm access (putU24 size)
  refine ⟨{ fileSettingsHead (settingsBytes ty comm access (putU24 size)) with
    size := getU24 (putU24 size) 0 }, ?_, hcomm, haccess,
    getU24_putU24 hsize []⟩
  rcases hty with rfl | rfl <;> rfl

/-- A record file is reported with the size of a record and their number. -/
theorem parseFileSettings_record {ty : UInt8} (comm : CommMode)
    (access : Access) {recordSize maxRecords : UInt32} (current : UInt32)
    (hty : ty = fileLinear ∨ ty = fileCyclic)
    (hsize : fitsU24 recordSize = true) (hmax : fitsU24 maxRecords = true) :
    ∃ s, parseFileSettings (settingsBytes ty comm access (putU24 recordSize ++
        (putU24 maxRecords ++ putU24 current))) = .ok s ∧
      s.comm = comm ∧ s.access = unpackAccess (packAccess access) ∧
      s.recordSize = recordSize ∧ s.maxRecords = maxRecords := by
  obtain ⟨hcomm, haccess⟩ := fileSettingsHead_reply ty comm access
    (putU24 recordSize ++ (putU24 maxRecords ++ putU24 current))
  refine ⟨{ fileSettingsHead (settingsBytes ty comm access (putU24 recordSize ++
      (putU24 maxRecords ++ putU24 current))) with
    recordSize := getU24 (putU24 recordSize ++
      (putU24 maxRecords ++ putU24 current)) 0
    maxRecords := getU24 (putU24 maxRecords ++ putU24 current) 0
    curRecords := getU24 (putU24 current) 0 }, ?_, hcomm, haccess,
    getU24_putU24 hsize _, getU24_putU24 hmax _⟩
  rcases hty with rfl | rfl <;> rfl

/-- What is parsed is the settings of the file, once the rights are. -/
theorem reported_iff {f : NewFile} {comm : CommMode} {access : Access}
    {r : Except Err FileSettings} {s : FileSettings} (hr : r = .ok s)
    (haccess : s.access = unpackAccess (packAccess access))
    (hs : s.access = access → f.Reported comm access s)
    (hvalue : f.isValue = false) :
    (∃ s', r = .ok s' ∧ f.Reported comm access s') ↔
      f.isValue = false ∧ access.Fits := by
  rw [← unpackAccess_packAccess_iff, ← haccess]
  constructor
  · rintro ⟨s', hs', -, haccess', -⟩
    cases Except.ok.inj (Eq.trans (Eq.symm hr) hs')
    exact ⟨hvalue, haccess'⟩
  · rintro ⟨-, hrights⟩
    exact ⟨s, hr, hs hrights⟩

/-- What the library makes of a card's reply: the settings the file was
created with, when the rights fit and it is not a value file, whose 17 bytes
fall short of the 21 the library waits for. -/
theorem parseFileSettings_reply {f : NewFile} {comm : CommMode}
    {access : Access} {payload : Bytes} (current : UInt32)
    (hsizes : f.SizesFit)
    (hkept : f.kept payload =
      commToFile comm :: (putU16 (packAccess access) ++ f.tail)) :
    (∃ s, parseFileSettings (f.settingsReply payload current) = .ok s ∧
      f.Reported comm access s) ↔ f.isValue = false ∧ access.Fits := by
  rw [NewFile.settingsReply, hkept]
  cases f with
  | std fid size =>
      obtain ⟨s, hparse, hcomm, haccess, hsize⟩ := parseFileSettings_data comm
        access (.inl rfl) hsizes
      exact reported_iff hparse haccess (fun h => ⟨hcomm, h, hsize⟩) rfl
  | backup fid size =>
      obtain ⟨s, hparse, hcomm, haccess, hsize⟩ := parseFileSettings_data comm
        access (.inr rfl) hsizes
      exact reported_iff hparse haccess (fun h => ⟨hcomm, h, hsize⟩) rfl
  | value lower upper v limitedCredit =>
      constructor
      · rintro ⟨s, hs, -⟩
        cases hs
      · rintro ⟨hvalue, -⟩
        cases hvalue
  | record cyclic fid recordSize maxRecords =>
      have hty : NewFile.typeByte (.record cyclic fid recordSize maxRecords) =
          fileLinear ∨ NewFile.typeByte
            (.record cyclic fid recordSize maxRecords) = fileCyclic := by
        cases cyclic
        · exact .inl rfl
        · exact .inr rfl
      obtain ⟨s, hparse, hcomm, haccess, hrest⟩ := parseFileSettings_record
        comm access current hty hsizes.1 hsizes.2
      exact reported_iff hparse haccess (fun h => ⟨hcomm, h, hrest⟩) rfl

section

variable [BlockCipher]

theorem getFileSettings_of_exchange {fileNo : UInt8} {card card' : Card}
    {script rest : List Answer} {said : Said} {resp : Bytes}
    (h : exchange dfGetFileSettings [fileNo] (eff card .mac) (eff card .mac) 64
      card script = .done said (.ok resp) card' rest) :
    getFileSettings fileNo card script =
      .done said (parseFileSettings resp) card' rest := by
  rw [getFileSettings, dataCall, Prog.get_bind, macRequest,
    Prog.ofExcept_ok_bind, Prog.bind_ok h, Prog.act_run, Outcome.prepend,
    List.append_nil]

/-- A file's settings survive the trip through the card exactly when it is
not a value file and its rights are nibbles. -/
theorem settings_survive_iff {f : NewFile} {fileNo : UInt8} {comm : CommMode}
    {access : Access} {creator : Card} {req : Request} (current : UInt32)
    (hcreated : f.request fileNo comm access creator = .ok req)
    {card card' : Card} {script rest : List Answer} {said : Said}
    (hanswer : exchange dfGetFileSettings [fileNo] (eff card .mac)
      (eff card .mac) 64 card script =
        .done said (.ok (f.settingsReply req.data current)) card' rest) :
    (∃ s, getFileSettings fileNo card script = .done said (.ok s) card' rest ∧
      f.Reported comm access s) ↔ f.isValue = false ∧ access.Fits := by
  obtain ⟨hsizes, hkept⟩ := NewFile.kept_request hcreated
  rw [getFileSettings_of_exchange hanswer,
    ← parseFileSettings_reply current hsizes hkept]
  simp only [Outcome.done.injEq, true_and, and_true]

end

/-- A cyclic file of 64 records, read back without a session. -/
theorem settings_survive_cyclic :
    ∃ said card' s, @getFileSettings .identity 3 (Card.opened none)
        [.ok [0x00, 0x04, 0x03, 0x12, 0xE0, 0x20, 0x00, 0x00, 0x40, 0x00, 0x00,
          0x07, 0x00, 0x00]] = .done said (.ok s) card' [] ∧
      NewFile.Reported (.record true 0xE103 32 64) .full ⟨14, 0, 1, 2⟩ s :=
  ⟨_, _, (@settings_survive_iff .identity (.record true 0xE103 32 64) 3 .full
    ⟨14, 0, 1, 2⟩ (Card.opened none) _ 7 rfl (Card.opened none) _ _ _ _
      rfl).mpr ⟨rfl, by decide⟩⟩

/-- A value file, created and then asked for: the library refuses the 17
bytes the card has for it. -/
theorem value_file_settings_refused :
    ∃ req said card', createValueFileRequest 2 .plain ⟨0, 0, 0, 0⟩ 0 1000 5 true
        (Card.opened none) = .ok req ∧
      @getFileSettings .identity 2 (Card.opened none)
        [.ok (0x00 :: NewFile.settingsReply (.value 0 1000 5 true) req.data
          0)] = .done said (.error .length) card' [] :=
  ⟨_, _, _, rfl, rfl⟩

end Nxpsc
