import Nxpsc.Lib.Report
import Nxpsc.Ref.Desfire

/-!
# `nxpsc_advanced.c`: the less common commands

The requests follow `nxpsc_desfire.c` but for the effective mode, of which
this file has a copy of its own, and for a handful of commands that ask for
their modes outright. RollKeySet and the proximity check end a session by
themselves.
-/

namespace Nxpsc

open Dialogue

/-- `eff_mode`: without a session every command is plain. -/
def effMode (card : Card) (mode : Mode) : Mode :=
  if card.authenticated = false then .plain else mode

/-- The static `cmac8`. -/
def cmac8 [BlockCipher] (key data : Bytes) : Except Err Bytes :=
  match cmac .aes128 key (Bytes.zeros aesBlock) data 0 with
  | .error e => .error e
  | .ok full => .ok (truncateMac full)

/-! ## Transaction MAC file -/

/-- `nxpsc_create_transaction_mac_file`: the key travels enciphered, whatever
the session. -/
def createTransactionMacFileRequest (fileNo : UInt8) (comm : CommMode)
    (access : Access) (tmKey : Key) (keyVersion : UInt8) (_ : Card) :
    Except Err Request :=
  if tmKey.type ≠ .aes128 then .error .unsupported
  else
    .ok ⟨dfCreateTransMacFile,
      fileNo :: commToFile comm :: (putU16 (packAccess access) ++
        0x02 :: (tmKey.data.bytes.take 16 ++ [keyVersion])),
      .enc, .mac, 16⟩

/-- `nxpsc_tmac_compute`. The counter is the one CommitTransaction reports,
which is already the incremented one. -/
def tmacCompute [BlockCipher] (tmKey : Key) (uid tmc tmi : Bytes) :
    Except Err Bytes :=
  if tmKey.type ≠ .aes128 then .error .unsupported
  else if uid.length ≠ 7 then .error .length
  else if tmi.length = 0 ∨ tmi.length % 16 ≠ 0 then .error .length
  else
    let sv1 := [0x5A, 0x00, 0x01, 0x00, 0x80] ++ tmc.take 4 ++ uid
    match cmac .aes128 tmKey.data.bytes (Bytes.zeros aesBlock) sv1 0 with
    | .error e => .error e
    | .ok sessionKey =>
        match cmac .aes128 sessionKey (Bytes.zeros aesBlock) tmi 0 with
        | .error e => .error e
        | .ok full => .ok (truncateMac full)

/-- `nxpsc_tmac_tmi_write_record`: what WriteRecord adds to the Transaction
MAC Input. Eight zero bytes bring the command parameters up to 16, and zeros
fill the data up to whole blocks. -/
def tmacTmiWriteRecord (fileNo : UInt8) (offset : UInt32) (data : Bytes)
    (cap : Nat) : Except Err Bytes :=
  if 0xFFFFFF < offset ∨ data.length = 0 ∨ 0xFFFFFF < data.length then
    .error .param
  else
    let padded := (data.length + 15) / 16 * 16
    if cap < 16 + padded then .error .length
    else
      .ok (dfWriteRecord :: fileNo ::
        (putU24 offset ++ putU24 (UInt32.ofNat data.length) ++
          Bytes.zeros 8 ++ Bytes.fit padded data))

/-! ## Delegated applications -/

/-- The key settings byte of a delegated application. -/
def delegatedKeyByte (numKeys : UInt8) (keyType : KeyType) (iso : Bool) :
    UInt8 :=
  let typeBits : UInt8 := match keyType with
    | .k3k3des => 0x40
    | .aes128 => 0x80
    | .des | .k2k3des | .aes256 => 0x00
  (numKeys &&& 0x0F) ||| typeBits ||| flag iso 0x20

def createDelegatedApplicationRequest (aid : UInt32) (damSlot : UInt16)
    (damSlotVersion : UInt8) (quotaLimit : UInt16)
    (keySettings numKeys : UInt8) (keyType : KeyType) (isoFid : UInt16)
    (dfName enck damMac : Bytes) (_ : Card) : Except Err Request :=
  if fitsU24 aid = false then .error .length
  else if 16 < dfName.length then .error .param
  else if 32 < enck.length ∨ 16 < damMac.length then .error .length
  else
    let iso := decide (isoFid ≠ 0 ∨ 0 < dfName.length)
    .ok ⟨dfCreateDelegatedApp,
      putU24 aid ++ putU16 damSlot ++ damSlotVersion ::
        (putU16 quotaLimit ++
          [keySettings, delegatedKeyByte numKeys keyType iso] ++
          (if iso then putU16 isoFid ++ dfName else []) ++ enck ++ damMac),
      .mac, .mac, 32⟩

structure DelegateInfo where
  damSlotVersion : UInt8
  quotaLimit : UInt16
  freeBlocks : UInt16
  aid : UInt32
  deriving DecidableEq

def getDelegatedInfoRequest (damSlot : UInt16) (_ : Card) :
    Except Err Request :=
  .ok ⟨dfGetDelegateInfo, putU16 damSlot, .mac, .mac, 32⟩

def getDelegatedInfo [BlockCipher] (damSlot : UInt16) : Api DelegateInfo :=
  dataCall (getDelegatedInfoRequest damSlot) fun resp card =>
    if resp.length < 8 then (.error .length, card)
    else
      (.ok ⟨resp.getD 0 0, getU16 resp 1, getU16 resp 3, getU24 resp 5⟩, card)

/-! ## MIFARE Classic mapping, transaction notification -/

/-- `nxpsc_create_mfc_mapping`: the mapping carries key material. -/
def createMfcMappingRequest (data : Bytes) (_ : Card) : Except Err Request :=
  if data.length = 0 ∨ 64 < data.length then .error .param
  else .ok ⟨dfCreateMfcMapping, data, .enc, .mac, 16⟩

def restrictMfcUpdateRequest (data : Bytes) (card : Card) :
    Except Err Request :=
  if 32 < data.length then .error .param
  else .ok ⟨dfRestrictMfcUpdate, data, effMode card .mac, effMode card .mac, 16⟩

def notifyTransactionSuccessRequest (card : Card) : Except Err Request :=
  .ok ⟨dfNotifyTxSuccess, [], effMode card .mac, effMode card .mac, 16⟩

/-! ## Key sets -/

/-- `nxpsc_init_key_set`: the second byte is the key type of the new set. -/
def initKeySetRequest (keySet : UInt8) (keyType : KeyType) (_ : Card) :
    Except Err Request :=
  match keyType with
  | .des | .k2k3des => .ok ⟨dfInitKeySettings, [keySet, 0x00], .mac, .mac, 16⟩
  | .k3k3des => .ok ⟨dfInitKeySettings, [keySet, 0x01], .mac, .mac, 16⟩
  | .aes128 => .ok ⟨dfInitKeySettings, [keySet, 0x02], .mac, .mac, 16⟩
  | .aes256 => .error .unsupported

def finalizeKeySetRequest (keySet keySetVersion : UInt8) (_ : Card) :
    Except Err Request :=
  .ok ⟨dfFinalizeKeySettings, [keySet, keySetVersion], .mac, .mac, 16⟩

/-- `nxpsc_roll_key_set`: the session is gone once the card has rolled, so
the answer is plain and the handle resets whatever came back. -/
def rollKeySet [BlockCipher] (keySet : UInt8) : Api Unit := do
  let rc ← Prog.attempt
    (exchange dfRollKeySettings [keySet] .mac .plain 16)
  Prog.modify resetChannel
  Prog.ofExcept (rc.map fun _ => ())

/-! ## Proximity check -/

def pcChallengeLen : Nat := 8
def pcMacLen : Nat := 8

/-- `pc_status_ok`: EV3 answers 0x90 where 0x00 is expected. -/
def pcStatusOk (status : UInt8) : Bool :=
  status == dfSOk || status == dfSSignature

/-- An exit of `nxpsc_proximity_check` that drops the session. -/
def dropSession {α : Type} (e : Err) : Api α := do
  Prog.modify resetChannel
  Prog.fail e

/-- The rounds: a part of the challenge goes out, the card's part comes back,
and both halves are collected for the MAC. -/
def pcRounds (split : Nat) : Nat → Bytes → Bytes → Api Bytes
  | 0, _, exchanged => pure exchanged
  | left + 1, rest, exchanged => do
      let part := if left = 0 then rest.length else min split rest.length
      if part = 0 then Prog.fail .param
      else
        let answer ← rawExchange dfProximityCheck
          (UInt8.ofNat part :: rest.take part) 32
        if pcStatusOk answer.1 = false then dropSession .card
        else
          pcRounds split left (rest.drop part)
            (exchanged ++ answer.2.take part ++ rest.take part)

/-- The options PreparePC answered: three bytes, and PPS1 when bit 0 of the
first announces it. -/
def pcOptions (prep : Bytes) : Option Bytes :=
  if prep.length < 3 then none
  else if prep.headD 0 &&& 0x01 ≠ 0 then
    if prep.length < 4 then none else some (prep.take 4)
  else some (prep.take 3)

/-- `nxpsc_proximity_check`, called with no `mac_ok`. -/
def proximityCheck [BlockCipher] (rng : Rng) (pcKey : Key) (rounds : Nat) :
    Api Unit :=
  if rounds ≠ 1 ∧ rounds ≠ 2 ∧ rounds ≠ 4 ∧ rounds ≠ 8 then Prog.fail .param
  else if pcKey.type ≠ .aes128 then Prog.fail .unsupported
  else do
    let challenge ← Prog.ofExcept (randomBytes rng pcChallengeLen)
    let prep ← rawExchange dfPreparePc [] 16
    if pcStatusOk prep.1 = false then dropSession .card
    else
      match pcOptions prep.2 with
      | none => dropSession .length
      | some options =>
          let exchanged ←
            pcRounds (pcChallengeLen / rounds) rounds challenge []
          let macInput := options ++ exchanged
          let mac ← Prog.ofExcept
            (cmac8 pcKey.data.bytes (dfVerifyPc :: macInput))
          let verify ← rawExchange dfVerifyPc mac 32
          if pcStatusOk verify.1 = false then dropSession .card
          else if verify.2.length < pcMacLen then Prog.fail .length
          else
            -- the response status in place of the command byte
            let expected ← Prog.ofExcept
              (cmac8 pcKey.data.bytes (dfSSignature :: macInput))
            if verify.2.take pcMacLen ≠ expected then Prog.fail .auth
            else pure ()

/-- `nxpsc_proximity_check` with a `mac_ok` to fill in, which stands beside the
handle. -/
def proximityCheckInto [BlockCipher] (rng : Rng) (pcKey : Key) (rounds : Nat) :
    Prog (Card × Bool) Frame Answer Err Unit :=
  if rounds ≠ 1 ∧ rounds ≠ 2 ∧ rounds ≠ 4 ∧ rounds ≠ 8 then Prog.fail .param
  else if pcKey.type ≠ .aes128 then Prog.fail .unsupported
  else do
    Prog.store false
    let challenge ← Prog.ofExcept (randomBytes rng pcChallengeLen)
    let prep ← (rawExchange dfPreparePc [] 16).beside
    if pcStatusOk prep.1 = false then (dropSession .card).beside
    else
      match pcOptions prep.2 with
      | none => (dropSession .length).beside
      | some options =>
          let exchanged ←
            (pcRounds (pcChallengeLen / rounds) rounds challenge []).beside
          let macInput := options ++ exchanged
          let mac ← Prog.ofExcept
            (cmac8 pcKey.data.bytes (dfVerifyPc :: macInput))
          let verify ← (rawExchange dfVerifyPc mac 32).beside
          if pcStatusOk verify.1 = false then (dropSession .card).beside
          else if verify.2.length < pcMacLen then Prog.fail .length
          else
            let expected ← Prog.ofExcept
              (cmac8 pcKey.data.bytes (dfSSignature :: macInput))
            let ok := decide (verify.2.take pcMacLen = expected)
            Prog.store ok
            if ok = false then Prog.fail .auth else pure ()

/-! ## SetConfiguration wrappers -/

structure PiccConfig where
  disableFormat : Bool
  randomUid : Bool
  pcMandatory : Bool
  authVcMandatory : Bool

/-- `nxpsc_set_picc_config_ex`: the format bit is inverted. -/
def setPiccConfigExRequest (config : PiccConfig) : Card → Except Err Request :=
  setConfigurationRequest 0x00
    [flag (!config.disableFormat) 0x01 ||| flag config.randomUid 0x02 |||
      flag config.pcMandatory 0x04 ||| flag config.authVcMandatory 0x08]

def setPiccConfigRequest (disableFormat randomUid : Bool) :
    Card → Except Err Request :=
  setPiccConfigExRequest ⟨disableFormat, randomUid, false, false⟩

/-- `nxpsc_set_default_key`: 24 bytes of key and the version. -/
def setDefaultKeyRequest (key : Key) (card : Card) : Except Err Request :=
  if 24 < keySize key.type then .error .unsupported
  else
    setConfigurationRequest 0x01
      (Bytes.fit 24 (key.data.bytes.take (keySize key.type)) ++ [key.version])
      card

def setAtsRequest (ats : Bytes) (card : Card) : Except Err Request :=
  if ats.length = 0 ∨ 32 < ats.length then .error .param
  else setConfigurationRequest 0x02 ats card

end Nxpsc
