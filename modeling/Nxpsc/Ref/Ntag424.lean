import Nxpsc.Ref.Advanced
import Nxpsc.Ref.CryptoMemory

/-!
# `nxpsc_ntag424.c`: NTAG 4xx DNA
-/

namespace Nxpsc

open Dialogue

def ntag424DfName : Bytes := [0xD2, 0x76, 0x00, 0x00, 0x85, 0x01, 0x01]

/-- `nxpsc_ntag424_select`: the DNA tags expose file access as the chained
opcodes only. -/
def ntag424Select : Api Unit := do
  isoSelectDfName ntag424DfName
  Prog.modify fun card =>
    resetChannel { card with selectedAid := 0x000001, isoChaining := true }

structure SdmSettings where
  enabled : Bool
  uidMirror : Bool
  counterMirror : Bool
  readCounterLimit : Bool
  encFileData : Bool
  metaReadKey : UInt8
  fileReadKey : UInt8
  counterRetKey : UInt8
  uidOffset : UInt32
  counterOffset : UInt32
  piccDataOffset : UInt32
  macInputOffset : UInt32
  encOffset : UInt32
  encLength : UInt32
  macOffset : UInt32
  readCounterLimitValue : UInt32

/-- The offsets and lengths that travel in three bytes. -/
def SdmSettings.offsets (sdm : SdmSettings) : List UInt32 :=
  [ sdm.uidOffset, sdm.counterOffset, sdm.piccDataOffset, sdm.macInputOffset,
    sdm.encOffset, sdm.encLength, sdm.macOffset, sdm.readCounterLimitValue ]

/-- What follows the access rights when SDM is enabled: the offsets are
conditional on the access rights and the option flags. -/
def sdmTail (sdm : SdmSettings) : Bytes :=
  let metaRead := sdm.metaReadKey &&& 0x0F
  let fileRead := sdm.fileReadKey &&& 0x0F
  [ 0x01 ||| flag sdm.uidMirror 0x80 ||| flag sdm.counterMirror 0x40 |||
      flag sdm.readCounterLimit 0x20 ||| flag sdm.encFileData 0x10,
    0xF0 ||| (sdm.counterRetKey &&& 0x0F),
    (metaRead <<< 4) ||| fileRead ] ++
    (if sdm.uidMirror = true ∧ metaRead = 0x0E then putU24 sdm.uidOffset
      else []) ++
    (if sdm.counterMirror = true ∧ metaRead = 0x0E then
      putU24 sdm.counterOffset else []) ++
    (if metaRead ≤ 0x04 then putU24 sdm.piccDataOffset else []) ++
    (if fileRead ≠ 0x0F then
      putU24 sdm.macInputOffset ++
        (if sdm.encFileData then putU24 sdm.encOffset ++ putU24 sdm.encLength
          else []) ++
        putU24 sdm.macOffset
      else []) ++
    (if sdm.readCounterLimit then putU24 sdm.readCounterLimitValue else [])

def sdmBuildSettings (comm : CommMode) (access : Access)
    (sdm : Option SdmSettings) (cap : Nat) : Except Err Bytes :=
  let enabled := match sdm with
    | some s => s.enabled
    | none => false
  let head : Bytes :=
    (commToFile comm ||| flag enabled 0x40) :: putU16 (packAccess access)
  match sdm with
  | some s =>
      if s.offsets.any fun v => !fitsU24 v then .error .length
      else if cap < 3 then .error .length
      else if s.enabled = false then .ok head
      -- worst case is seven offsets of three bytes
      else if cap < 3 + 3 + 7 * 3 then .error .length
      else .ok (head ++ sdmTail s)
  | none => if cap < 3 then .error .length else .ok head

/-- The bytes `nxpsc_sdm_build_settings` has stored in `out` when it returns.
The room for the rest is only looked at behind the first three. -/
def sdmWritten (comm : CommMode) (access : Access) (sdm : Option SdmSettings)
    (cap : Nat) : Bytes :=
  match sdmBuildSettings comm access sdm cap with
  | .ok out => out
  | .error _ =>
      match sdm with
      | some s =>
          if (s.offsets.any fun v => !fitsU24 v) = true ∨ cap < 3 then []
          else (commToFile comm ||| 0x40) :: putU16 (packAccess access)
      | none => []

namespace InMemory

open Checked

variable {σ : Type} {cap : Nat}

/-- `put_u24` at the end of what was written, under a condition. -/
def putU24If (p : Prop) [Decidable p] (value : UInt32)
    (done : Buf cap × Nat) : Run σ (Buf cap × Nat) :=
  if p then do
    let out ← store done.1 done.2 (putU24 value)
    pure (out, done.2 + 3)
  else pure done

/-- The part of `nxpsc_sdm_build_settings` for enabled settings. -/
def sdmTail (sdm : SdmSettings) (out : Buf cap) : Run σ (Buf cap × Nat) :=
  let sdmOptions := 0x01 ||| flag sdm.uidMirror 0x80 |||
    flag sdm.counterMirror 0x40 ||| flag sdm.readCounterLimit 0x20 |||
    flag sdm.encFileData 0x10
  let metaRead := sdm.metaReadKey &&& 0x0F
  let fileRead := sdm.fileReadKey &&& 0x0F
  let ctrRet := sdm.counterRetKey &&& 0x0F
  -- worst case is seven offsets of three bytes
  if cap < 3 + 3 + 7 * 3 then raise .length
  else do
    let out ← store out 3 [sdmOptions, 0xF0 ||| ctrRet,
      (metaRead <<< 4) ||| fileRead]
    let done ← putU24If (sdmOptions &&& 0x80 ≠ 0 ∧ metaRead = 0x0E)
      sdm.uidOffset (out, 6)
    let done ← putU24If (sdmOptions &&& 0x40 ≠ 0 ∧ metaRead = 0x0E)
      sdm.counterOffset done
    let done ← putU24If (metaRead ≤ 0x04) sdm.piccDataOffset done
    let done ← (if fileRead ≠ 0x0F then do
        let done ← putU24If True sdm.macInputOffset done
        let done ← (if sdmOptions &&& 0x10 ≠ 0 then do
            let done ← putU24If True sdm.encOffset done
            putU24If True sdm.encLength done
          else pure done)
        putU24If True sdm.macOffset done
      else pure done)
    putU24If (sdmOptions &&& 0x20 ≠ 0) sdm.readCounterLimitValue done

/-- `nxpsc_sdm_build_settings`: the array and `out_len`. -/
def sdmBuildSettings (comm : CommMode) (access : Access)
    (sdm : Option SdmSettings) (out : Buf cap) : Run σ (Buf cap × Nat) :=
  if sdm.any fun s => s.offsets.any fun v => !fitsU24 v then raise .length
  else if cap < 3 then raise .length
  else do
    let enabled := sdm.any SdmSettings.enabled
    let out ← store out 0 [commToFile comm ||| flag enabled 0x40]
    let out ← store out 1 (putU16 (packAccess access))
    match sdm with
    | some s => if s.enabled = false then pure (out, 3) else sdmTail s out
    | none => pure (out, 3)

end InMemory

def sdmConfigureRequest (fileNo : UInt8) (comm : CommMode) (access : Access)
    (sdm : Option SdmSettings) (card : Card) : Except Err Request :=
  match sdmBuildSettings comm access sdm 64 with
  | .error e => .error e
  | .ok settings => changeFileSettingsRawRequest fileNo settings card

end Nxpsc
