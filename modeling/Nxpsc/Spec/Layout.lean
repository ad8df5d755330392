import Nxpsc.Lib.Parser
import Nxpsc.Ref.Desfire

/-!
# Layouts, as the card has them

What a card makes of the payload of CreateApplication, and what it answers
when it is asked about a file it was told to create. Neither is taken from
the library's own encoder or decoder: the first is a parser of the documented
layout, which only the announcing bits and the length of the payload drive,
the second repeats the bytes the card was given.
-/

namespace Nxpsc

open Parser

/-! ## CreateApplication -/

/-- The types of key a card tells apart. -/
inductive KeyClass where
  | des
  | k3k3des
  | aes
  deriving DecidableEq, Repr

def KeyType.keyClass : KeyType → KeyClass
  | .des | .k2k3des => .des
  | .k3k3des => .k3k3des
  | .aes128 | .aes256 => .aes

/-- The upper two bits of KeySett2. -/
def KeyClass.ofKeySett2 (b : UInt8) : Option KeyClass :=
  if b &&& 0xC0 = 0x00 then some .des
  else if b &&& 0xC0 = 0x40 then some .k3k3des
  else if b &&& 0xC0 = 0x80 then some .aes
  else none

/-- AKSVersion, NoKeySets, MaxKeySize, AppKeySetSett. -/
structure KeySetFields where
  version : UInt8
  numKeySets : UInt8
  maxKeySize : UInt8
  settings : UInt8
  deriving DecidableEq, Repr

/-- What a card knows of an application it is to create. -/
structure AppLayout where
  aid : Nat
  keySettings : UInt8
  numKeys : UInt8
  keyClass : KeyClass
  keySets : Option KeySetFields
  vcKeys : Bool
  capabilityData : Bool
  /-- The ISO file id and the DF name. -/
  iso : Option (Nat × Bytes)
  deriving DecidableEq, Repr

def keySetFields : Parser UInt8 KeySetFields := do
  let version ← item
  let numKeySets ← item
  let maxKeySize ← item
  let settings ← item
  pure ⟨version, numKeySets, maxKeySize, settings⟩

/-- The DF name has no length of its own, it ends the payload. -/
def isoFields : Parser UInt8 (Nat × Bytes) := do
  let fid ← number 2
  Prod.mk fid <$> rest

/-- AID(3) KeySett1 KeySett2 [KeySett3 [AKSVersion NoKeySets MaxKeySize
AppKeySetSett]] [ISOFileID(2) ISODFName]: bit 4 of KeySett2 announces
KeySett3, bit 0 of KeySett3 the key set block, bit 5 of KeySett2 the ISO
fields. -/
def appLayout : Parser UInt8 AppLayout := do
  let aid ← number 3
  let sett1 ← item
  let sett2 ← item
  let keyClass ← expect (KeyClass.ofKeySett2 sett2)
  let sett3 ← announced (sett2 &&& 0x10 != 0) item
  let bits := sett3.getD 0
  let keySets ← announced (bits &&& 0x01 != 0) keySetFields
  AppLayout.mk aid sett1 (sett2 &&& 0x0F) keyClass keySets
    (bits &&& 0x02 != 0) (bits &&& 0x04 != 0) <$>
    announced (sett2 &&& 0x20 != 0) isoFields

/-- What the caller configured. The key set fields and the ISO fields count
where the configuration asks for them. -/
def AppConfig.layout (aid : UInt32) (cfg : AppConfig) : AppLayout where
  aid := aid.toNat
  keySettings := cfg.keySettings
  numKeys := cfg.numKeys
  keyClass := cfg.keyType.keyClass
  keySets :=
    if 2 ≤ cfg.numKeySets then
      some ⟨cfg.keySetVersion, cfg.numKeySets, cfg.maxKeySize,
        cfg.keySetSettings⟩
    else none
  vcKeys := cfg.specificVcKeys
  capabilityData := cfg.specificCapabilityData
  iso :=
    if cfg.isoFidEnabled then some (cfg.isoFid.toNat, cfg.dfName) else none

/-! ## Files -/

/-- The files the library creates, less what they have in common. -/
inductive NewFile where
  | std (isoFid : UInt16) (size : UInt32)
  | backup (isoFid : UInt16) (size : UInt32)
  | value (lower upper value : Int32) (limitedCredit : Bool)
  | record (cyclic : Bool) (isoFid : UInt16) (recordSize maxRecords : UInt32)
  deriving DecidableEq

namespace NewFile

/-- The call that creates the file. -/
def request (fileNo : UInt8) (comm : CommMode) (access : Access) :
    NewFile → Card → Except Err Request
  | .std fid size => createStdFileRequest fileNo fid comm access size
  | .backup fid size => createBackupFileRequest fileNo fid comm access size
  | .value lower upper v limitedCredit =>
      createValueFileRequest fileNo comm access lower upper v limitedCredit
  | .record cyclic fid recordSize maxRecords =>
      createRecordFileRequest cyclic fileNo fid comm access recordSize
        maxRecords

/-- The type byte of GetFileSettings. -/
def typeByte : NewFile → UInt8
  | .std .. => 0x00
  | .backup .. => 0x01
  | .value .. => 0x02
  | .record cyclic .. => if cyclic then 0x04 else 0x03

def isoFid : NewFile → UInt16
  | .std fid _ => fid
  | .backup fid _ => fid
  | .value .. => 0
  | .record _ fid _ _ => fid

/-- What a card keeps of the creation command: everything behind the file
number and, if there is one, the ISO file id. -/
def kept (f : NewFile) (payload : Bytes) : Bytes :=
  payload.drop (if f.isoFid = 0 then 1 else 3)

/-- A record file also tells how many records it holds. -/
def recordCount (current : UInt32) : NewFile → Bytes
  | .record .. => putU24 current
  | _ => []

/-- The answer to GetFileSettings: the type, then what was kept. -/
def settingsReply (f : NewFile) (payload : Bytes) (current : UInt32) :
    Bytes :=
  f.typeByte :: (f.kept payload ++ f.recordCount current)

/-- The settings are those the file was created with. -/
def Reported (f : NewFile) (comm : CommMode) (access : Access)
    (s : FileSettings) : Prop :=
  s.comm = comm ∧ s.access = access ∧
    match f with
    | .std _ size | .backup _ size => s.size = size
    | .value lower upper v limitedCredit =>
        s.lowerLimit = lower ∧ s.upperLimit = upper ∧ s.value = v ∧
          s.limitedCredit = flag limitedCredit 0x01
    | .record _ _ recordSize maxRecords =>
        s.recordSize = recordSize ∧ s.maxRecords = maxRecords

def isValue : NewFile → Bool
  | .value .. => true
  | _ => false

end NewFile

/-- A right is a key number, or one of the two values behind them: four bits
of the two access bytes. -/
def Access.Fits (a : Access) : Prop :=
  a.read ≤ 15 ∧ a.write ≤ 15 ∧ a.readWrite ≤ 15 ∧ a.change ≤ 15

instance (a : Access) : Decidable a.Fits := by
  unfold Access.Fits
  infer_instance

end Nxpsc
