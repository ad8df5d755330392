import Nxpsc.Lib.Parser
import Nxpsc.Ref.Ntag424

/-!
# What a tag makes of its SDM settings

The settings have no lengths: which numbers there are follows from the bits
and the rights in front of them. The parser goes by these alone.
-/

namespace Nxpsc

open Parser

/-! ## The layout -/

/-- Secure dynamic messaging, as a tag keeps it. -/
structure SdmLayout where
  uidMirror : Bool
  counterMirror : Bool
  readCounterLimit : Bool
  encFileData : Bool
  metaRead : UInt8
  fileRead : UInt8
  counterRet : UInt8
  uidOffset : Option Nat
  counterOffset : Option Nat
  piccDataOffset : Option Nat
  macInputOffset : Option Nat
  encOffset : Option Nat
  encLength : Option Nat
  macOffset : Option Nat
  readCounterLimitValue : Option Nat
  deriving DecidableEq

/-- The settings of a file. -/
structure SettingsLayout where
  comm : CommMode
  access : Access
  sdm : Option SdmLayout
  deriving DecidableEq

/-- The lower two bits of the file option. -/
def CommMode.ofFileOption (b : UInt8) : CommMode :=
  if b &&& 0x01 = 0 then .plain
  else if b &&& 0x02 = 0 then .mac
  else .full

/-- SDMOptions SDMAccessRights(2), then numbers of three bytes: UIDOffset and
SDMReadCtrOffset when they are mirrored in the clear, PICCDataOffset under a
key, SDMMACInputOffset, SDMENCOffset, SDMENCLength and SDMMACOffset for a file
that is read under a key, SDMReadCtrLimit. -/
def sdmLayout : Parser UInt8 SdmLayout := do
  let options ← item
  let upper ← item
  let lower ← item
  let metaRead := lower >>> 4
  let fileRead := lower &&& 0x0F
  let uid := options &&& 0x80 != 0
  let counter := options &&& 0x40 != 0
  let limit := options &&& 0x20 != 0
  let enc := options &&& 0x10 != 0
  let uidOffset ← announced (uid && metaRead == 0x0E) (number 3)
  let counterOffset ← announced (counter && metaRead == 0x0E) (number 3)
  let piccDataOffset ← announced (decide (metaRead ≤ 0x04)) (number 3)
  let macInputOffset ← announced (fileRead != 0x0F) (number 3)
  let encOffset ← announced (fileRead != 0x0F && enc) (number 3)
  let encLength ← announced (fileRead != 0x0F && enc) (number 3)
  let macOffset ← announced (fileRead != 0x0F) (number 3)
  SdmLayout.mk uid counter limit enc metaRead fileRead (upper &&& 0x0F)
    uidOffset counterOffset piccDataOffset macInputOffset encOffset encLength
    macOffset <$> announced limit (number 3)

/-- FileOption AccessRights(2), and SDM when bit 6 of the option is set. -/
def settingsLayout : Parser UInt8 SettingsLayout := do
  let option ← item
  let lower ← item
  let upper ← item
  SettingsLayout.mk (.ofFileOption option)
    ⟨upper >>> 4, upper &&& 0x0F, lower >>> 4, lower &&& 0x0F⟩ <$>
    announced (option &&& 0x40 != 0) sdmLayout

/-! ## What was configured -/

/-- The number, if it is there. -/
def present (p : Bool) (v : UInt32) : Option Nat :=
  if p then some v.toNat else none

/-- The numbers count where the flags and the rights ask for them. -/
def SdmSettings.layout (sdm : SdmSettings) : SdmLayout :=
  let metaRead := sdm.metaReadKey &&& 0x0F
  let fileRead := sdm.fileReadKey &&& 0x0F
  { uidMirror := sdm.uidMirror
    counterMirror := sdm.counterMirror
    readCounterLimit := sdm.readCounterLimit
    encFileData := sdm.encFileData
    metaRead := metaRead
    fileRead := fileRead
    counterRet := sdm.counterRetKey &&& 0x0F
    uidOffset := present (sdm.uidMirror && metaRead == 0x0E) sdm.uidOffset
    counterOffset :=
      present (sdm.counterMirror && metaRead == 0x0E) sdm.counterOffset
    piccDataOffset := present (decide (metaRead ≤ 0x04)) sdm.piccDataOffset
    macInputOffset := present (fileRead != 0x0F) sdm.macInputOffset
    encOffset := present (fileRead != 0x0F && sdm.encFileData) sdm.encOffset
    encLength := present (fileRead != 0x0F && sdm.encFileData) sdm.encLength
    macOffset := present (fileRead != 0x0F) sdm.macOffset
    readCounterLimitValue :=
      present sdm.readCounterLimit sdm.readCounterLimitValue }

/-- The four bits of each right that there is room for. -/
def Access.nibbles (a : Access) : Access :=
  ⟨a.read &&& 0x0F, a.write &&& 0x0F, a.readWrite &&& 0x0F, a.change &&& 0x0F⟩

/-- The settings of a file; SDM is part of them where it is enabled. -/
def configured (comm : CommMode) (access : Access) (sdm : Option SdmSettings) :
    SettingsLayout :=
  ⟨comm, access, (sdm.filter SdmSettings.enabled).map SdmSettings.layout⟩

/-- The builder stays inside an array of `cap` bytes, and what it says it
wrote there, and nothing behind it, is read as `layout`. -/
def InMemory.SdmReadAs (comm : CommMode) (access : Access)
    (sdm : Option SdmSettings) (cap : Nat) (layout : SettingsLayout) : Prop :=
  ∀ out : Buf cap,
    match (sdmBuildSettings comm access sdm out : Run Unit _) () with
    | none => False
    | some (.error _, _) => True
    | some (.ok (written, outLen), _) =>
        outLen ≤ cap ∧ outLen ≤ 27 ∧
          written.bytes.drop outLen = out.bytes.drop outLen ∧
          Whole settingsLayout (written.bytes.take outLen) layout

end Nxpsc
