import Nxpsc.Ref.Auth

/-!
# `nxpsc_desfire.c`: the DESFire command set

Nearly every command is a `dataCall`: a request that depends on the handle
for the effective mode, the chained opcodes and the guards, and a reading of
the answer. The arguments of a request are those of the C function, less the
output pointers; an output buffer is its size, `cap`. A request is named after
its function: `deleteFileRequest` is what `nxpsc_delete_file` asks for.
-/

namespace Nxpsc

open Dialogue

/-! ## Helpers -/

/-- `eff`: without a session every command is plain, unless the card threw
the session away; then the mode stays and the exchange refuses it. -/
def eff (card : Card) (mode : Mode) : Mode :=
  if card.authenticated = false ∧ card.sessionLost = false then .plain
  else mode

def fileCmd (card : Card) (native chained : UInt8) : UInt8 :=
  if card.isoChaining then chained else native

def putU24 (v : UInt32) : Bytes :=
  [v.toUInt8, (v >>> 8).toUInt8, (v >>> 16).toUInt8]

def fitsU24 (v : UInt32) : Bool := v &&& 0xFF000000 = 0

def getI32 (data : Bytes) (off : Nat) : Int32 :=
  (getU24 data off ||| ((data.getD (off + 3) 0).toUInt32 <<< 24)).toInt32

def keytypeToCard : KeyType → UInt8
  | .k3k3des => 0x40
  | .aes128 | .aes256 => 0x80
  | .des | .k2k3des => 0x00

def keytypeFromCard (raw : UInt8) : KeyType :=
  if raw &&& 0xC0 = 0x40 then .k3k3des
  else if raw &&& 0xC0 = 0x80 then .aes128
  else .k2k3des

structure Access where
  read : UInt8
  write : UInt8
  readWrite : UInt8
  change : UInt8
  deriving DecidableEq

def packAccess (access : Access) : UInt16 :=
  ((access.read &&& 0x0F).toUInt16 <<< 12) |||
    ((access.write &&& 0x0F).toUInt16 <<< 8) |||
    ((access.readWrite &&& 0x0F).toUInt16 <<< 4) |||
    (access.change &&& 0x0F).toUInt16

def unpackAccess (raw : UInt16) : Access where
  read := ((raw >>> 12) &&& 0x0F).toUInt8
  write := ((raw >>> 8) &&& 0x0F).toUInt8
  readWrite := ((raw >>> 4) &&& 0x0F).toUInt8
  change := (raw &&& 0x0F).toUInt8

def commToFile : CommMode → UInt8
  | .mac => 0x01
  | .full => 0x03
  | .plain => 0x00

def commFromFile (raw : UInt8) : CommMode :=
  if raw &&& 0x03 = 0x01 then .mac
  else if raw &&& 0x03 = 0x03 then .full
  else .plain

/-- The request of most management commands: MACed both ways in a session,
and an answer nothing is read from. -/
def macRequest (cmd : UInt8) (data : Bytes) (cap : Nat) (card : Card) :
    Except Err Request :=
  .ok ⟨cmd, data, eff card .mac, eff card .mac, cap⟩

/-! ## Applications -/

def selectApplicationRequest (aid : UInt32) (_ : Card) : Except Err Request :=
  .ok ⟨dfSelectApplication, putU24 aid, .plain, .plain, 8⟩

/-- `nxpsc_select_application`: the running session is dropped first. -/
def selectApplication [BlockCipher] (aid : UInt32) : Api Unit :=
  if fitsU24 aid = false then Prog.fail .length
  else do
    Prog.modify resetChannel
    dataCall (selectApplicationRequest aid) fun _ card =>
      (.ok (), { card with selectedAid := aid })

structure AppConfig where
  keySettings : UInt8
  numKeys : UInt8
  keyType : KeyType
  isoFidEnabled : Bool
  isoFid : UInt16
  dfName : Bytes
  numKeySets : UInt8
  keySetVersion : UInt8
  maxKeySize : UInt8
  keySetSettings : UInt8
  specificVcKeys : Bool
  specificCapabilityData : Bool

/-- A flag in a byte. -/
def flag (b : Bool) (bit : UInt8) : UInt8 := if b then bit else 0x00

/-- The CreateApplication payload of `create_app`, in the order the card
wants it: the key set block sits before the ISO fields. -/
def createAppPayload (aid : UInt32) (cfg : AppConfig) : Bytes :=
  let keySets := decide (2 ≤ cfg.numKeySets)
  let hasKs3 := keySets || cfg.specificVcKeys || cfg.specificCapabilityData
  putU24 aid ++
    [ cfg.keySettings,
      (cfg.numKeys &&& 0x0F) ||| keytypeToCard cfg.keyType |||
        flag cfg.isoFidEnabled 0x20 ||| flag hasKs3 0x10 ] ++
    (if hasKs3 then
      [flag keySets 0x01 ||| flag cfg.specificVcKeys 0x02 |||
        flag cfg.specificCapabilityData 0x04]
    else []) ++
    (if keySets then
      [cfg.keySetVersion, cfg.numKeySets, cfg.maxKeySize, cfg.keySetSettings]
    else []) ++
    (if cfg.isoFidEnabled then putU16 cfg.isoFid ++ cfg.dfName else [])

def createAppRequest (aid : UInt32) (cfg : AppConfig) (card : Card) :
    Except Err Request :=
  if cfg.numKeys = 0 ∨ UInt8.ofNat maxKeys < cfg.numKeys then .error .param
  else if fitsU24 aid = false then .error .length
  else if cfg.isoFidEnabled = true ∧ 16 < cfg.dfName.length then
    .error .length
  -- a key set aware application holds at least the active set plus one more
  else if cfg.numKeySets = 1 ∨ UInt8.ofNat maxKeys < cfg.numKeySets then
    .error .param
  else if 0x07 < cfg.keySetSettings then .error .param
  else macRequest dfCreateApplication (createAppPayload aid cfg) 8 card

/-- `memset(&cfg, 0, sizeof(cfg))` and the three fields every wrapper sets. -/
def AppConfig.plain (keySettings numKeys : UInt8) (keyType : KeyType) :
    AppConfig where
  keySettings := keySettings
  numKeys := numKeys
  keyType := keyType
  isoFidEnabled := false
  isoFid := 0
  dfName := []
  numKeySets := 0
  keySetVersion := 0
  maxKeySize := 0
  keySetSettings := 0
  specificVcKeys := false
  specificCapabilityData := false

def createApplicationRequest (aid : UInt32) (keySettings numKeys : UInt8)
    (keyType : KeyType) : Card → Except Err Request :=
  createAppRequest aid (.plain keySettings numKeys keyType)

def createApplicationIsoRequest (aid : UInt32) (keySettings numKeys : UInt8)
    (keyType : KeyType) (isoFid : UInt16) (dfName : Bytes) :
    Card → Except Err Request :=
  createAppRequest aid
    { AppConfig.plain keySettings numKeys keyType with
      isoFidEnabled := true
      isoFid := isoFid
      dfName := dfName }

def deleteApplicationRequest (aid : UInt32) : Card → Except Err Request :=
  macRequest dfDeleteApplication (putU24 aid) 8

/-- Values of `size` bytes each, as many whole ones as there are. -/
def entries {α : Type} (size : Nat) (read : Bytes → α) (resp : Bytes) :
    List α :=
  (Bytes.chunks size (resp.length / size) resp).map read

/-- A list handed to a caller with room for `cap` entries. -/
def listAnswer {α : Type} (cap size : Nat) (read : Bytes → α) (resp : Bytes)
    (card : Card) : Except Err (List α) × Card :=
  if cap < resp.length / size then (.error .length, card)
  else (.ok (entries size read resp), card)

def getApplicationIds [BlockCipher] (cap : Nat) : Api (List UInt32) :=
  dataCall (macRequest dfGetApplicationIds [] (maxApps * 3))
    (listAnswer cap 3 fun b => getU24 b 0)

/-- What `nxpsc_get_df_names` fills in of an `nxpsc_app_t`; the rest of the
entry is zero. -/
structure App where
  aid : UInt32
  isoFid : UInt16
  isoFidEnabled : Bool
  dfName : Bytes
  deriving DecidableEq

/-- Two bytes, the least significant one first. -/
def getU16 (data : Bytes) (off : Nat) : UInt16 :=
  (data.getD off 0).toUInt16 ||| ((data.getD (off + 1) 0).toUInt16 <<< 8)

/-- One frame of `nxpsc_get_df_names`: AID, ISO FID, and a name filling the
rest. A short frame and a full array are passed over. -/
def dfNameEntry (cap : Nat) (apps : List App) (frame : Bytes) : List App :=
  if 5 ≤ frame.length ∧ apps.length < cap then
    apps ++ [⟨getU24 frame 0, getU16 frame 3, true, (frame.drop 5).take 16⟩]
  else apps

/-- What `nxpsc_raw_exchange_ex` does with the answer to a request of one
frame when it does not follow 0xAF. -/
def rawFrame (cap : Nat) (answer : Answer) (card : Card) :
    Except Err (UInt8 × Bytes) × Card :=
  match frameResponse card maxApdu answer with
  | .error e => (.error e, card)
  | .ok (status, got) =>
      if cap < got.length then (.error .length, card)
      else (.ok (status, got), { card with lastStatus := status })

/-- One round of `nxpsc_get_df_names`: the next opcode and the entries so
far, or all of them. -/
def dfNamesReact (cap : Nat) (b : UInt8 × List App) (answer : Answer)
    (card : Card) :
    Except Err ((UInt8 × List App) ⊕ List App) × Card :=
  match rawFrame 64 answer card with
  | (.error e, card) => (.error e, card)
  | (.ok (status, frame), card) =>
      if status ≠ dfSOk ∧ status ≠ dfSAdditionalFrame then
        (.error .card, { card with lastStatus := status })
      else
        let apps := dfNameEntry cap b.2 frame
        if status ≠ dfSAdditionalFrame then (.ok (.inr apps), card)
        else (.ok (.inl (dfAdditionalFrame, apps)), card)

/-- `nxpsc_get_df_names`: refused while there is a session, read one frame at
a time because only the frame boundary tells where a name ends. -/
def getDfNames (cap : Nat) : Api (List App) := do
  let card ← Prog.get
  if card.authenticated then Prog.fail .auth
  else
    Prog.converse (fun b card => frameRequest b.1 [] card) (dfNamesReact cap)
      (dfGetDfNames, [])

def formatPiccRequest : Card → Except Err Request :=
  macRequest dfFormatPicc [] 8

def setConfigurationRequest (option : UInt8) (data : Bytes) (card : Card) :
    Except Err Request :=
  if 64 < data.length then .error .param
  else if card.authenticated = false then .error .auth
  else .ok ⟨dfSetConfiguration, option :: data, .enc, .mac, 16⟩

/-! ## Keys -/

def getKeyVersion [BlockCipher] (keyNo : UInt8) : Api UInt8 :=
  dataCall (macRequest dfGetKeyVersion [keyNo] 16) fun resp card =>
    if resp.length < 1 then (.error .length, card)
    else (.ok (resp.getD 0 0), card)

/-- `nxpsc_get_key_settings`: settings, number of keys, key type. -/
def getKeySettings [BlockCipher] : Api (UInt8 × UInt8 × KeyType) :=
  dataCall (macRequest dfGetKeySettings [] 16) fun resp card =>
    if resp.length < 2 then (.error .length, card)
    else
      (.ok (resp.getD 0 0, resp.getD 1 0 &&& 0x0F,
        keytypeFromCard (resp.getD 1 0)), card)

def changeKeySettingsRequest (keySettings : UInt8) (card : Card) :
    Except Err Request :=
  if card.authenticated = false then .error .auth
  else .ok ⟨dfChangeKeySettings, [keySettings], .enc, .mac, 16⟩

/-- A key as the card stores it: a (2K3)DES key carries its version in the
low bit of every byte. -/
def storedKey (key : Key) : Bytes :=
  desKeySetVersion (key.data.bytes.take (keySize key.type)) key.type
    key.version

/-- A key as it travels: a single DES key with both halves equal. -/
def wireKey (key : Key) : Bytes :=
  if key.type = .des then storedKey key ++ storedKey key else storedKey key

/-- AES keys carry their version as a byte of its own. -/
def versionByte (key : Key) : Bytes :=
  if key.type = .aes128 ∨ key.type = .aes256 then [key.version] else []

/-- `key_no_data`: the PICC master key changes its type through it. -/
def keyNoData (card : Card) (keyNo : UInt8) (newKey : Key) : UInt8 :=
  let low : UInt8 := keyNo &&& 0x3F
  let typeBits : UInt8 := (keytypeToCard newKey.type &&& 0xC0) >>> 6
  if card.selectedAid = 0 ∧ keyNo = 0 then low ||| typeBits <<< 6 else low

/-- `same_key`: the key the session was opened with, through the old
command. -/
def changesSameKey (card : Card) (ev2 : Bool) (keyNo : UInt8) : Bool :=
  keyNo == card.keyNo && ev2 == false

/-- `ends_session`: the card answers without a MAC when the key the session
was built on changes. -/
def changeEndsSession (card : Card) (ev2 : Bool) (keySet keyNo : UInt8) :
    Bool :=
  keyNo == card.keyNo && (ev2 == false || keySet == 0)

/-- The cryptogram before its checksums: the new key, under the old one when
the card has to see a difference. -/
def changeKeyCryptogram (card : Card) (ev2 : Bool) (keyNo : UInt8)
    (oldKey : Option Key) (newKey : Key) : Bytes :=
  let newBuf := wireKey newKey
  let mixed := match oldKey with
    | some key =>
        if changesSameKey card ev2 keyNo then newBuf
        else Bytes.xor newBuf (Bytes.fit maxKeySize (wireKey key))
    | none => newBuf
  mixed ++ versionByte newKey

/-- The checksums `change_key` adds, per channel. -/
def changeKeyChecksums (card : Card) (ev2 : Bool) (keyNo : UInt8)
    (newKey : Key) (payload : Bytes) : Except Err Bytes :=
  let same := changesSameKey card ev2 keyNo
  let newBuf := wireKey newKey
  let cmd := if ev2 then dfChangeKeyEv2 else dfChangeKey
  match card.channel with
  | .d40 =>
      .ok (crc16 payload ++ (if same then [] else crc16 newBuf))
  | .ev1 =>
      -- the command byte, the key number and the payload
      .ok (crc32 (cmd :: keyNoData card keyNo newKey :: payload) ++
        (if same then [] else crc32 newBuf))
  | .ev2 | .lrp => .ok (if same then [] else crc32 newBuf)
  | .auto => .error .auth

/-- The request of `change_key`. -/
def changeKeyRequest (ev2 : Bool) (keySet keyNo : UInt8)
    (oldKey newKey : Option Key) (card : Card) : Except Err Request :=
  match newKey with
  | none => .error .param
  | some newKey =>
      if card.authenticated = false then .error .auth
      else if changesSameKey card ev2 keyNo = false ∧
          keyIsValid oldKey = false then .error .param
      else
        let payload := changeKeyCryptogram card ev2 keyNo oldKey newKey
        match changeKeyChecksums card ev2 keyNo newKey payload with
        | .error e => .error e
        | .ok sums =>
            .ok ⟨if ev2 then dfChangeKeyEv2 else dfChangeKey,
              (if ev2 then [keySet] else []) ++
                keyNoData card keyNo newKey :: (payload ++ sums),
              .encPlain,
              if changeEndsSession card ev2 keySet keyNo then .plain else .mac,
              16⟩

/-- `change_key`. -/
def changeKeyCall [BlockCipher] (ev2 : Bool) (keySet keyNo : UInt8)
    (oldKey newKey : Option Key) : Api Unit := do
  let card ← Prog.get
  let req ← Prog.ofExcept (changeKeyRequest ev2 keySet keyNo oldKey newKey card)
  let rc ← Prog.attempt
    (exchange req.cmd req.data req.txMode req.rxMode req.cap)
  Prog.modify fun now =>
    if changeEndsSession card ev2 keySet keyNo then resetChannel now else now
  Prog.ofExcept (rc.map fun _ => ())

def changeKey [BlockCipher] (keyNo : UInt8) (oldKey newKey : Option Key) :
    Api Unit :=
  changeKeyCall false 0 keyNo oldKey newKey

def changeKeyEv2 [BlockCipher] (keySet keyNo : UInt8)
    (oldKey newKey : Option Key) : Api Unit :=
  changeKeyCall true keySet keyNo oldKey newKey

/-! ## Files -/

def getFileIds [BlockCipher] (cap : Nat) : Api Bytes :=
  dataCall (macRequest dfGetFileIds [] (maxFiles + 16)) (copyAnswer cap)

def getIsoFileIds [BlockCipher] (cap : Nat) : Api (List UInt16) :=
  dataCall (macRequest dfGetIsoFileIds [] (maxFiles * 2 + 16))
    (listAnswer cap 2 fun b => getU16 b 0)

/-- `nxpsc_filetype_t`, as the byte the card sends. -/
def fileStd : UInt8 := 0x00
def fileBackup : UInt8 := 0x01
def fileValue : UInt8 := 0x02
def fileLinear : UInt8 := 0x03
def fileCyclic : UInt8 := 0x04

/-- `nxpsc_file_settings_t`; a field the type of file does not have is 0. -/
structure FileSettings where
  type : UInt8
  options : UInt8
  comm : CommMode
  sdmEnabled : Bool
  access : Access
  size : UInt32
  lowerLimit : Int32
  upperLimit : Int32
  value : Int32
  limitedCredit : UInt8
  recordSize : UInt32
  maxRecords : UInt32
  curRecords : UInt32
  deriving DecidableEq

/-- The common part of `nxpsc_get_file_settings`. -/
def fileSettingsHead (resp : Bytes) : FileSettings where
  type := resp.getD 0 0
  options := resp.getD 1 0
  comm := commFromFile (resp.getD 1 0)
  sdmEnabled := resp.getD 1 0 &&& 0x40 != 0
  access := unpackAccess (getU16 resp 2)
  size := 0
  lowerLimit := 0
  upperLimit := 0
  value := 0
  limitedCredit := 0
  recordSize := 0
  maxRecords := 0
  curRecords := 0

def parseFileSettings (resp : Bytes) : Except Err FileSettings :=
  if resp.length < 4 then .error .length
  else
    let head := fileSettingsHead resp
    if head.type = fileStd ∨ head.type = fileBackup then
      if resp.length < 7 then .error .length
      else .ok { head with size := getU24 resp 4 }
    else if head.type = fileValue then
      if resp.length < 21 then .error .length
      else
        .ok
          { head with
            lowerLimit := getI32 resp 4
            upperLimit := getI32 resp 8
            value := getI32 resp 12
            limitedCredit := resp.getD 16 0 }
    else if head.type = fileLinear ∨ head.type = fileCyclic then
      if resp.length < 13 then .error .length
      else
        .ok
          { head with
            recordSize := getU24 resp 4
            maxRecords := getU24 resp 7
            curRecords := getU24 resp 10 }
    else .ok head

def getFileSettings [BlockCipher] (fileNo : UInt8) : Api FileSettings :=
  dataCall (macRequest dfGetFileSettings [fileNo] 64) fun resp card =>
    (parseFileSettings resp, card)

def changeFileSettingsRawRequest (fileNo : UInt8) (data : Bytes)
    (card : Card) : Except Err Request :=
  if 128 < data.length then .error .param
  else if card.authenticated = false then .error .auth
  else .ok ⟨dfChangeFileSettings, fileNo :: data, .enc, .mac, 16⟩

def changeFileSettingsRequest (fileNo : UInt8) (comm : CommMode)
    (access : Access) : Card → Except Err Request :=
  changeFileSettingsRawRequest fileNo
    (commToFile comm :: putU16 (packAccess access))

def createFileRequest (cmd fileNo : UInt8) (isoFid : Option UInt16)
    (comm : CommMode) (access : Access) (tail : Bytes) :
    Card → Except Err Request :=
  macRequest cmd
    (fileNo :: ((match isoFid with
      | some fid => putU16 fid
      | none => []) ++ commToFile comm :: putU16 (packAccess access) ++ tail))
    16

/-- `iso_fid != 0` announces the ISO file id. -/
def announcedFid (isoFid : UInt16) : Option UInt16 :=
  if isoFid ≠ 0 then some isoFid else none

/-- The common shape of the two data file commands. -/
def createDataFileRequest (cmd fileNo : UInt8) (isoFid : UInt16)
    (comm : CommMode) (access : Access) (size : UInt32) (card : Card) :
    Except Err Request :=
  if fitsU24 size = false then .error .length
  else
    createFileRequest cmd fileNo (announcedFid isoFid) comm access
      (putU24 size) card

def createStdFileRequest : UInt8 → UInt16 → CommMode → Access → UInt32 →
    Card → Except Err Request :=
  createDataFileRequest dfCreateStdDataFile

def createBackupFileRequest : UInt8 → UInt16 → CommMode → Access → UInt32 →
    Card → Except Err Request :=
  createDataFileRequest dfCreateBackupDataFile

def createValueFileRequest (fileNo : UInt8) (comm : CommMode)
    (access : Access) (lower upper value : Int32) (limitedCredit : Bool) :
    Card → Except Err Request :=
  createFileRequest dfCreateValueFile fileNo none comm access
    (putU32 lower.toUInt32 ++ putU32 upper.toUInt32 ++ putU32 value.toUInt32
      ++ [flag limitedCredit 0x01])

def createRecordFileRequest (cyclic : Bool) (fileNo : UInt8)
    (isoFid : UInt16) (comm : CommMode) (access : Access)
    (recordSize maxRecords : UInt32) (card : Card) : Except Err Request :=
  if fitsU24 recordSize = false ∨ fitsU24 maxRecords = false then
    .error .length
  else
    createFileRequest (if cyclic then dfCreateCyclicRecord
      else dfCreateLinearRecord) fileNo (announcedFid isoFid) comm access
      (putU24 recordSize ++ putU24 maxRecords) card

def deleteFileRequest (fileNo : UInt8) : Card → Except Err Request :=
  macRequest dfDeleteFile [fileNo] 16

/-! ## Data, value and record files -/

/-- A read of a file: one mode both ways. -/
def readRequest (native chained : UInt8) (data : Bytes) (comm : CommMode)
    (cap : Nat) (card : Card) : Request :=
  let mode := eff card (modeFromPublic comm)
  ⟨fileCmd card native chained, data, mode, mode, cap⟩

/-- A write to a file: the answer is MACed unless the write is plain. -/
def writeRequest (cmd : UInt8) (data : Bytes) (comm : CommMode)
    (card : Card) : Request :=
  let mode := eff card (modeFromPublic comm)
  ⟨cmd, data, mode, if mode = .plain then .plain else .mac, 16⟩

def readDataRequest (fileNo : UInt8) (offset length : UInt32)
    (comm : CommMode) (cap : Nat) (card : Card) : Except Err Request :=
  if fitsU24 offset = false ∨ fitsU24 length = false then .error .length
  else
    .ok (readRequest dfReadData dfReadData2
      (fileNo :: (putU24 offset ++ putU24 length)) comm cap card)

/-- The length checks on the data of a write. -/
def writeTooLong (data : Bytes) : Bool :=
  fitsU24 (UInt32.ofNat data.length) = false ∨ maxResponse - 16 < data.length

def writeDataRequest (fileNo : UInt8) (offset : UInt32) (data : Bytes)
    (comm : CommMode) (card : Card) : Except Err Request :=
  if fitsU24 offset = false ∨ writeTooLong data = true then .error .length
  else
    .ok (writeRequest (fileCmd card dfWriteData dfWriteData2)
      (fileNo :: (putU24 offset ++ putU24 (UInt32.ofNat data.length) ++ data))
      comm card)

def getValueRequest (fileNo : UInt8) (comm : CommMode) (card : Card) :
    Except Err Request :=
  let mode := eff card (modeFromPublic comm)
  .ok ⟨dfGetValue, [fileNo], mode, mode, 32⟩

def getValue [BlockCipher] (fileNo : UInt8) (comm : CommMode) : Api Int32 :=
  dataCall (getValueRequest fileNo comm) fun resp card =>
    if resp.length < 4 then (.error .length, card)
    else (.ok (getI32 resp 0), card)

def valueOpRequest (cmd fileNo : UInt8) (delta : Int32) (comm : CommMode)
    (card : Card) : Except Err Request :=
  .ok (writeRequest cmd (fileNo :: putU32 delta.toUInt32) comm card)

def creditRequest : UInt8 → Int32 → CommMode → Card → Except Err Request :=
  valueOpRequest dfCredit

def limitedCreditRequest : UInt8 → Int32 → CommMode → Card →
    Except Err Request :=
  valueOpRequest dfLimitedCredit

def debitRequest : UInt8 → Int32 → CommMode → Card → Except Err Request :=
  valueOpRequest dfDebit

def writeRecordRequest (fileNo : UInt8) (offset : UInt32) (data : Bytes)
    (comm : CommMode) (card : Card) : Except Err Request :=
  if fitsU24 offset = false ∨ writeTooLong data = true then .error .length
  else
    .ok (writeRequest (fileCmd card dfWriteRecord dfWriteRecord2)
      (fileNo :: (putU24 offset ++ putU24 (UInt32.ofNat data.length) ++ data))
      comm card)

def updateRecordRequest (fileNo : UInt8) (recordNo offset : UInt32)
    (data : Bytes) (comm : CommMode) (card : Card) : Except Err Request :=
  if fitsU24 recordNo = false ∨ fitsU24 offset = false ∨
      writeTooLong data = true then .error .length
  else
    .ok (writeRequest (fileCmd card dfUpdateRecord dfUpdateRecord2)
      (fileNo :: (putU24 recordNo ++ putU24 offset ++
        putU24 (UInt32.ofNat data.length) ++ data)) comm card)

def readRecordsRequest (fileNo : UInt8) (recordNo recordCount : UInt32)
    (comm : CommMode) (cap : Nat) (card : Card) : Except Err Request :=
  if fitsU24 recordNo = false ∨ fitsU24 recordCount = false then
    .error .length
  else
    .ok (readRequest dfReadRecords dfReadRecords2
      (fileNo :: (putU24 recordNo ++ putU24 recordCount)) comm cap card)

/-- The data of a read, as the exchange delivered them. -/
def readAnswer (resp : Bytes) (card : Card) : Except Err Bytes × Card :=
  (.ok resp, card)

section

variable [BlockCipher]

def readData (fileNo : UInt8) (offset length : UInt32) (comm : CommMode)
    (cap : Nat) : Api Bytes :=
  dataCall (readDataRequest fileNo offset length comm cap) readAnswer

def writeData (fileNo : UInt8) (offset : UInt32) (data : Bytes)
    (comm : CommMode) : Api Unit :=
  dataCall (writeDataRequest fileNo offset data comm) noAnswer

def writeRecord (fileNo : UInt8) (offset : UInt32) (data : Bytes)
    (comm : CommMode) : Api Unit :=
  dataCall (writeRecordRequest fileNo offset data comm) noAnswer

def updateRecord (fileNo : UInt8) (recordNo offset : UInt32) (data : Bytes)
    (comm : CommMode) : Api Unit :=
  dataCall (updateRecordRequest fileNo recordNo offset data comm) noAnswer

def readRecords (fileNo : UInt8) (recordNo recordCount : UInt32)
    (comm : CommMode) (cap : Nat) : Api Bytes :=
  dataCall (readRecordsRequest fileNo recordNo recordCount comm cap)
    readAnswer

end

def clearRecordFileRequest (fileNo : UInt8) : Card → Except Err Request :=
  macRequest dfClearRecordFile [fileNo] 16

/-! ## Transactions -/

def commitTransactionRequest : Card → Except Err Request :=
  macRequest dfCommitTransaction [] 32

/-- `nxpsc_commit_transaction_tmac`: option 0x01 asks for TMC and TMV. -/
def commitTransactionTmac [BlockCipher] : Api (Bytes × Bytes) :=
  dataCall (macRequest dfCommitTransaction [0x01] 32) fun resp card =>
    if resp.length ≠ 12 then (.error .length, card)
    else (.ok (resp.take 4, (resp.drop 4).take 8), card)

def abortTransactionRequest : Card → Except Err Request :=
  macRequest dfAbortTransaction [] 16

def commitReaderIdRequest (readerId : Bytes) (card : Card) :
    Except Err Request :=
  if readerId.length ≠ 16 then .error .param
  else if card.authenticated = false then .error .auth
  else .ok ⟨dfCommitReaderId, readerId, .mac, .mac, 64⟩

/-- `nxpsc_commit_reader_id`; without an output buffer nothing is copied. -/
def commitReaderId [BlockCipher] (readerId : Bytes) (cap : Option Nat) :
    Api Bytes :=
  dataCall (commitReaderIdRequest readerId) fun resp card =>
    match cap with
    | none => (.ok [], card)
    | some cap => copyAnswer cap resp card

/-! ## ISO 7816-4 level access -/

def isoSelectDfName (dfName : Bytes) : Api Unit :=
  if dfName.length = 0 ∨ 16 < dfName.length then Prog.fail .param
  else (isoExchange 0x00 isoInsSelect 0x04 0x0C dfName false 0 64).ignore

def isoSelectFid (fid : UInt16) (isEf : Bool) : Api Unit :=
  (isoExchange 0x00 isoInsSelect (if isEf then 0x02 else 0x01) 0x0C
    [(fid >>> 8).toUInt8, fid.toUInt8] false 0 64).ignore

/-- P1 and P2 of the binary commands: a short file id leaves one byte for the
offset. -/
def isoBinaryParams (sfi : UInt8) (offset : UInt16) :
    Except Err (UInt8 × UInt8) :=
  if sfi ≠ 0 then
    if 0xFF < offset then .error .param
    else .ok (0x80 ||| (sfi &&& 0x1F), offset.toUInt8)
  else .ok (((offset >>> 8) &&& 0x7F).toUInt8, offset.toUInt8)

def isoReadBinary (sfi : UInt8) (offset : UInt16) (length cap : Nat) :
    Api Bytes := do
  let p ← Prog.ofExcept (isoBinaryParams sfi offset)
  let answer ← isoExchange 0x00 isoInsReadBinary p.1 p.2 [] true length cap
  pure answer.1

def isoUpdateBinary (sfi : UInt8) (offset : UInt16) (data : Bytes) :
    Api Unit :=
  if data.length = 0 then Prog.fail .param
  else do
    let p ← Prog.ofExcept (isoBinaryParams sfi offset)
    (isoExchange 0x00 isoInsUpdateBinary p.1 p.2 data false 0 16).ignore

end Nxpsc
