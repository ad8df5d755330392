import Nxpsc.Lib.Padding

/-!
# The data model of `nxpsc.h` and `nxpsc_internal.h`

Here and in the modules after it, what stands for a name of the source has
that name, without the `nxpsc_` in front.

Return codes, the enumerations, keys and the card handle, field by field.
`NXPSC_OK` is not a value of `Err`: a call that succeeds returns `.ok`.

Two things the C has are not here. Allocation always succeeds, so the
`NXPSC_E_MEMORY` exits after `calloc` are missing, and a pointer that the
library requires is simply a value; where `NULL` is an argument a caller may
pass on purpose (a key that is not needed) it is an `Option`.
-/

namespace Nxpsc

/-! ## Limits -/

def maxKeySize : Nat := 32
def maxApdu : Nat := 264
def maxResponse : Nat := 4096
def maxFiles : Nat := 32
def maxApps : Nat := 64
def maxKeys : Nat := 16
def aesBlock : Nat := 16
def desBlock : Nat := 8
def maxBlock : Nat := 16
/-- The largest piece of payload sent in one frame. -/
def txFrameMax : Nat := 54

/-! ## Return codes -/

inductive Err where
  | param
  | transport
  | card
  | crypto
  | auth
  | length
  | unsupported
  | memory
  deriving DecidableEq, Repr

/-! ## Enumerations -/

inductive CardType where
  | unknown
  | desfireMf3icd40
  | desfireEv1
  | desfireEv2
  | desfireEv2Xl
  | desfireEv3
  | desfireLight
  | plusEv1
  | plusEv2
  | ntag413dna
  | ntag424
  | duox
  deriving DecidableEq, Repr

inductive KeyType where
  | des
  | k2k3des
  | k3k3des
  | aes128
  | aes256
  deriving DecidableEq, Repr

/-- The secure channel; `auto` means there is none. -/
inductive Channel where
  | auto
  | d40
  | ev1
  | ev2
  | lrp
  deriving DecidableEq, Repr

/-- The public communication mode. -/
inductive CommMode where
  | plain
  | mac
  | full
  deriving DecidableEq, Repr

/-- The internal mode; `encPlain` is the ChangeKey style, where the caller
has already put the checksums into the payload. -/
inductive Mode where
  | plain
  | mac
  | enc
  | encPadded
  | encPlain
  deriving DecidableEq, Repr

inductive CmdSet where
  | native
  | nativeIso
  | iso
  deriving DecidableEq, Repr

/-! ## Opcodes and statuses -/

def dfAuthenticate : UInt8 := 0x0A
def dfAuthenticateIso : UInt8 := 0x1A
def dfAuthenticateAes : UInt8 := 0xAA
def dfAuthenticateEv2f : UInt8 := 0x71
def dfAuthenticateEv2nf : UInt8 := 0x77
def dfAdditionalFrame : UInt8 := 0xAF
def dfChangeKey : UInt8 := 0xC4
def dfChangeKeyEv2 : UInt8 := 0xC6
def dfGetKeyVersion : UInt8 := 0x64
def dfGetKeySettings : UInt8 := 0x45
def dfChangeKeySettings : UInt8 := 0x54
def dfInitKeySettings : UInt8 := 0x56
def dfFinalizeKeySettings : UInt8 := 0x57
def dfRollKeySettings : UInt8 := 0x55
def dfCreateApplication : UInt8 := 0xCA
def dfDeleteApplication : UInt8 := 0xDA
def dfGetApplicationIds : UInt8 := 0x6A
def dfGetDfNames : UInt8 := 0x6D
def dfSelectApplication : UInt8 := 0x5A
def dfFormatPicc : UInt8 := 0xFC
def dfGetVersion : UInt8 := 0x60
def dfGetCardUid : UInt8 := 0x51
def dfGetFreeMemory : UInt8 := 0x6E
def dfSetConfiguration : UInt8 := 0x5C
def dfReadSig : UInt8 := 0x3C
def dfGetFileIds : UInt8 := 0x6F
def dfGetIsoFileIds : UInt8 := 0x61
def dfGetFileSettings : UInt8 := 0xF5
def dfChangeFileSettings : UInt8 := 0x5F
def dfCreateStdDataFile : UInt8 := 0xCD
def dfCreateBackupDataFile : UInt8 := 0xCB
def dfCreateValueFile : UInt8 := 0xCC
def dfCreateLinearRecord : UInt8 := 0xC1
def dfCreateCyclicRecord : UInt8 := 0xC0
def dfCreateTransMacFile : UInt8 := 0xCE
def dfDeleteFile : UInt8 := 0xDF
def dfReadData : UInt8 := 0xBD
def dfWriteData : UInt8 := 0x3D
def dfGetValue : UInt8 := 0x6C
def dfCredit : UInt8 := 0x0C
def dfDebit : UInt8 := 0xDC
def dfLimitedCredit : UInt8 := 0x1C
def dfWriteRecord : UInt8 := 0x3B
def dfReadRecords : UInt8 := 0xBB
def dfUpdateRecord : UInt8 := 0xDB
def dfClearRecordFile : UInt8 := 0xEB
def dfCommitTransaction : UInt8 := 0xC7
def dfAbortTransaction : UInt8 := 0xA7
def dfCommitReaderId : UInt8 := 0xC8
def dfNotifyTxSuccess : UInt8 := 0xEE
def dfReadData2 : UInt8 := 0xAD
def dfWriteData2 : UInt8 := 0x8D
def dfReadRecords2 : UInt8 := 0xAB
def dfWriteRecord2 : UInt8 := 0x8B
def dfUpdateRecord2 : UInt8 := 0xBA
def dfCreateDelegatedApp : UInt8 := 0xC9
def dfGetDelegateInfo : UInt8 := 0x69
def dfCreateMfcMapping : UInt8 := 0xCF
def dfRestrictMfcUpdate : UInt8 := 0xBF
def dfPreparePc : UInt8 := 0xF0
def dfProximityCheck : UInt8 := 0xF2
def dfVerifyPc : UInt8 := 0xFD

def isoClaWrap : UInt8 := 0x90
def isoInsSelect : UInt8 := 0xA4
def isoInsReadBinary : UInt8 := 0xB0
def isoInsUpdateBinary : UInt8 := 0xD6

def mfpWritePerso : UInt8 := 0xA8
def mfpCommitPerso : UInt8 := 0xAA
def mfpAuthFirst : UInt8 := 0x70
def mfpAuthNonfirst : UInt8 := 0x76
def mfpWritePlain : UInt8 := 0xA1
def mfpWriteEnc : UInt8 := 0xA0
def mfpIncrementEnc : UInt8 := 0xB1
def mfpDecrementEnc : UInt8 := 0xB3
def mfpTransfer : UInt8 := 0xB5
def mfpIncrementTransferEnc : UInt8 := 0xB7
def mfpDecrementTransferEnc : UInt8 := 0xB9
def mfpRestore : UInt8 := 0xC3
def mfpResetAuth : UInt8 := 0x78
def mfpSetConfigSl1 : UInt8 := 0x44
def mfpPersonalizeUidUsage : UInt8 := 0x40
def mfpVcSupportLastIsoL3 : UInt8 := 0x4B

def dfSOk : UInt8 := 0x00
def dfSAdditionalFrame : UInt8 := 0xAF
def dfSSignature : UInt8 := 0x90

/-! ## Keys -/

structure Key where
  type : KeyType
  data : Buf 32
  version : UInt8
  deriving DecidableEq

def keySize : KeyType → Nat
  | .des => 8
  | .k2k3des => 16
  | .aes128 => 16
  | .k3k3des => 24
  | .aes256 => 32

def blockSize : KeyType → Nat
  | .des | .k2k3des | .k3k3des => desBlock
  | .aes128 | .aes256 => aesBlock

/-- `nxpsc_key_is_valid`: the pointer is set and the type has a size. -/
def keyIsValid : Option Key → Bool
  | none => false
  | some key => keySize key.type != 0

theorem blockSize_pos (ty : KeyType) : 0 < blockSize ty := by
  cases ty <;> decide

theorem blockSize_le (ty : KeyType) : blockSize ty ≤ maxBlock := by
  cases ty <;> decide

theorem eight_le_blockSize (ty : KeyType) : 8 ≤ blockSize ty := by
  cases ty <;> decide

theorem keySize_le (ty : KeyType) : keySize ty ≤ maxKeySize := by
  cases ty <;> decide

/-! ## The card handle -/

structure Version where
  hwVendor : UInt8
  hwType : UInt8
  hwSubtype : UInt8
  hwMajor : UInt8
  hwMinor : UInt8
  hwStorage : UInt8
  hwProtocol : UInt8
  swVendor : UInt8
  swType : UInt8
  swSubtype : UInt8
  swMajor : UInt8
  swMinor : UInt8
  swStorage : UInt8
  swProtocol : UInt8
  uid : Buf 7
  batch : Buf 5
  week : UInt8
  year : UInt8
  hasBatchExtra : Bool
  deriving DecidableEq

/-- `memset(&v, 0, sizeof(v))`. -/
def Version.zero : Version :=
  ⟨0, 0, 0, 0, 0, 0, 0, 0, 0, 0, 0, 0, 0, 0, .zero 7, .zero 5, 0, 0, false⟩

/-- `struct nxpsc_card`, less the transport, which is the party a program
talks to. -/
structure Card where
  cmdset : CmdSet
  channel : Channel
  defaultComm : CommMode
  authenticated : Bool
  /-- Set when the PICC aborted secure messaging under us. -/
  sessionLost : Bool
  /-- The mode of the command being processed. -/
  mode : Mode
  keyType : KeyType
  key : Buf 32
  keyNo : UInt8
  iv : Buf 16
  sessionEnc : Buf 32
  sessionMac : Buf 32
  ti : Buf 4
  cmdCtr : UInt16
  plusRCtr : UInt16
  plusWCtr : UInt16
  lastCmd : UInt8
  lastRequestZeroLen : Bool
  lastStatus : UInt8
  macMismatch : Bool
  selectedAid : UInt32
  uid : Buf 10
  uidLen : Nat
  isoChaining : Bool
  versionRead : Bool
  version : Version
  type : CardType
  deriving DecidableEq

/-- The handle `nxpsc_open` hands out. `uid` is what the transport's optional
`get_uid` reported, nothing when it has none or failed. -/
def Card.opened (uid : Option Bytes) : Card where
  cmdset := .native
  channel := .auto
  defaultComm := .plain
  authenticated := false
  sessionLost := false
  mode := .plain
  keyType := .des
  key := .zero 32
  keyNo := 0
  iv := .zero 16
  sessionEnc := .zero 32
  sessionMac := .zero 32
  ti := .zero 4
  cmdCtr := 0
  plusRCtr := 0
  plusWCtr := 0
  lastCmd := 0
  lastRequestZeroLen := false
  lastStatus := 0
  macMismatch := false
  selectedAid := 0
  uid := .of 10 (uid.getD [])
  uidLen := min (uid.getD []).length 10
  isoChaining := false
  versionRead := false
  version := Version.zero
  type := .unknown

def resetChannel (card : Card) : Card :=
  { card with
    channel := .auto
    authenticated := false
    sessionLost := false
    cmdCtr := 0
    ti := .zero 4
    iv := .zero 16
    sessionEnc := .zero 32
    sessionMac := .zero 32 }

/-- `nxpsc_status_ends_session`: everything but a success or a continuation
frame means the PICC has thrown the session away. -/
def statusEndsSession (status : UInt8) : Bool :=
  status != dfSOk && status != dfSSignature && status != dfSAdditionalFrame

def macLength (card : Card) : Nat :=
  match card.channel with
  | .d40 => 4
  | .ev1 => 8
  | .ev2 | .lrp => 8
  | .auto => 0

def paddedLen (len block : Nat) : Nat :=
  if block = 0 then len
  else (len / block + (if len % block ≠ 0 then 1 else 0)) * block

def modeFromPublic : CommMode → Mode
  | .mac => .mac
  | .full => .enc
  | .plain => .plain

/-! ## What the small helpers do -/

theorem paddedLen_mod {len block : Nat} (hb : 0 < block) :
    paddedLen len block % block = 0 := by
  rw [paddedLen, if_neg (by omega), Nat.mul_mod_left]

theorem le_paddedLen {len block : Nat} (hb : 0 < block) :
    len ≤ paddedLen len block := by
  have hdm := Nat.div_add_mod len block
  rw [paddedLen, if_neg (by omega), Nat.add_mul, Nat.mul_comm (len / block)]
  split
  · have := Nat.mod_lt len hb
    rw [Nat.one_mul]
    omega
  · omega

theorem paddedLen_lt {len block : Nat} (hb : 0 < block) :
    paddedLen len block < len + block := by
  have hdm := Nat.div_add_mod len block
  rw [paddedLen, if_neg (by omega), Nat.add_mul, Nat.mul_comm (len / block)]
  split
  · rw [Nat.one_mul]
    omega
  · omega

/-- Room for the mark, up to the next whole block. -/
theorem paddedLen_succ {block : Nat} (hb : 0 < block) (len : Nat) :
    paddedLen (len + 1) block = len + 1 + (block - 1 - len % block) := by
  have hdm := Nat.div_add_mod len block
  have hlt := Nat.mod_lt len hb
  rw [paddedLen, if_neg (by omega)]
  by_cases hlast : len % block = block - 1
  · have hwhole : len + 1 = block * (len / block + 1) := by
      rw [Nat.mul_succ]
      omega
    rw [hwhole, Nat.mul_mod_right, if_neg (not_not.mpr rfl),
      Nat.mul_div_cancel_left _ hb, Nat.add_zero, ← hwhole, Nat.mul_comm,
      ← hwhole]
    omega
  · have hsmall : len % block + 1 < block := by omega
    have hrest : block * (len / block) + (len % block + 1) = len + 1 := by
      omega
    have hdiv := Nat.mul_add_div hb (len / block) (len % block + 1)
    have hmod := Nat.mul_add_mod block (len / block) (len % block + 1)
    rw [hrest, Nat.div_eq_of_lt hsmall, Nat.add_zero] at hdiv
    rw [hrest, Nat.mod_eq_of_lt hsmall] at hmod
    rw [hdiv, hmod, if_pos (by omega), Nat.succ_mul, Nat.mul_comm]
    omega

theorem fit_pad {block : Nat} (hb : 0 < block) (data : Bytes) :
    Bytes.fit (paddedLen (data.length + 1) block) (data ++ [0x80]) =
      Bytes.pad block data := by
  have hlen : (data ++ [(0x80 : UInt8)]).length = data.length + 1 := by
    rw [List.length_append]
    rfl
  rw [paddedLen_succ hb, Bytes.fit_of_le (by omega), hlen, Bytes.pad,
    Nat.add_sub_cancel_left, List.append_assoc]
  rfl

/-- No whole number of blocks in between. -/
theorem paddedLen_le {len block m : Nat} (hb : 0 < block) (hle : len ≤ m)
    (hmod : m % block = 0) : paddedLen len block ≤ m := by
  obtain ⟨a, ha⟩ := Nat.dvd_of_mod_eq_zero (@paddedLen_mod len block hb)
  obtain ⟨b, rfl⟩ := Nat.dvd_of_mod_eq_zero hmod
  have hlt := @paddedLen_lt len block hb
  have hlt' : block * a < block * (b + 1) := by
    rw [Nat.mul_succ]
    omega
  rw [ha]
  exact Nat.mul_le_mul_left _ (Nat.le_of_lt_succ (Nat.lt_of_mul_lt_mul_left
    hlt'))

theorem paddedLen_pos {len block : Nat} (hb : 0 < block) (hl : 0 < len) :
    0 < paddedLen len block := Nat.lt_of_lt_of_le hl (le_paddedLen hb)

/-- Whole blocks need no padding. -/
theorem paddedLen_of_mod {len block : Nat} (h : len % block = 0) :
    paddedLen len block = len := by
  have hdm := Nat.div_add_mod len block
  rw [paddedLen]
  split
  · rfl
  · rw [if_neg (by omega), Nat.add_zero, Nat.mul_comm]
    omega

@[simp] theorem paddedLen_zero (block : Nat) : paddedLen 0 block = 0 := by
  rw [paddedLen]
  split <;> simp

end Nxpsc
