import Nxpsc.Lib.Parser
import Nxpsc.Ref.Api
import Nxpsc.Spec.Requests

/-!
# Numbers that travel in three bytes

Application numbers, offsets, lengths, sizes and record numbers are 32 bits
wide for the caller and 24 on the wire. Where they stand is a matter of the
command, and is said here of the payload as the card has it.
-/

namespace Nxpsc

/-- A number of three bytes in a payload, the least significant one first. -/
structure U24Field where
  pos : Nat
  value : Nat
  deriving DecidableEq

/-- What a card reads in the field is the number. -/
def U24Field.Decodes (f : U24Field) (payload : Bytes) : Prop :=
  f.pos + 3 ≤ payload.length ∧
    Parser.value ((payload.drop f.pos).take 3) = f.value

instance (f : U24Field) (payload : Bytes) : Decidable (f.Decodes payload) := by
  unfold U24Field.Decodes
  infer_instance

/-- Numbers one behind the other. -/
def u24Run (pos : Nat) : List Nat → List U24Field
  | [] => []
  | v :: vs => ⟨pos, v⟩ :: u24Run (pos + 3) vs

/-! ## Where the fields are -/

/-- The numbers behind the SDM access rights: the UID and the counter are
mirrored in the clear under free access, the PICC data under a key, and a file
without a read key has no MAC. -/
def SdmSettings.numbers (sdm : SdmSettings) : List UInt32 :=
  let metaRead := sdm.metaReadKey &&& 0x0F
  (if sdm.uidMirror = true ∧ metaRead = 0x0E then [sdm.uidOffset] else []) ++
    (if sdm.counterMirror = true ∧ metaRead = 0x0E then [sdm.counterOffset]
      else []) ++
    (if metaRead ≤ 0x04 then [sdm.piccDataOffset] else []) ++
    (if sdm.fileReadKey &&& 0x0F ≠ 0x0F then
      sdm.macInputOffset ::
        (if sdm.encFileData then [sdm.encOffset, sdm.encLength] else []) ++
        [sdm.macOffset]
      else []) ++
    (if sdm.readCounterLimit then [sdm.readCounterLimitValue] else [])

/-- The fields of the settings, behind six bytes of options and rights. -/
def sdmFields (pos : Nat) : Option SdmSettings → List U24Field
  | some sdm =>
      if sdm.enabled then u24Run (pos + 6) (sdm.numbers.map UInt32.toNat)
      else []
  | none => []

/-- A file is announced by its number, its ISO file id if it has one, the
communication mode and the access rights. -/
def fileHeadLen (isoFid : UInt16) : Nat := if isoFid = 0 then 4 else 6

/-- The 24 bit fields of a command, with what its caller asked for. -/
def DataCommand.u24Fields : DataCommand → List U24Field
  | .createApplication aid .. | .createApplicationIso aid ..
  | .createApplicationEx aid .. | .deleteApplication aid
  | .createDelegatedApplication aid .. => u24Run 0 [aid.toNat]
  | .createStdFile _ fid _ _ size | .createBackupFile _ fid _ _ size =>
      u24Run (fileHeadLen fid) [size.toNat]
  | .createRecordFile _ _ fid _ _ recordSize maxRecords =>
      u24Run (fileHeadLen fid) [recordSize.toNat, maxRecords.toNat]
  | .readData _ offset length _ _ => u24Run 1 [offset.toNat, length.toNat]
  | .writeData _ offset data _ | .writeRecord _ offset data _ =>
      u24Run 1 [offset.toNat, data.length]
  | .updateRecord _ recordNo offset data _ =>
      u24Run 1 [recordNo.toNat, offset.toNat, data.length]
  | .readRecords _ recordNo count _ _ =>
      u24Run 1 [recordNo.toNat, count.toNat]
  | .sdmConfigure _ _ _ sdm => sdmFields 1 sdm
  | _ => []

def Call.u24Fields : Call → List U24Field
  | .data d => d.u24Fields
  | .selectApplication aid => u24Run 0 [aid.toNat]
  | _ => []

/-- The offset and the length of a WriteRecord, behind its opcode and the file
number. -/
def tmiFields (offset : UInt32) (data : Bytes) : List U24Field :=
  u24Run 2 [offset.toNat, data.length]

/-! ## Who fills them in -/

/-- A call on a handle, or one of the two builders that only fill a buffer. -/
inductive U24Sender where
  | call (call : Call) (card : Card)
  | sdmSettings (comm : CommMode) (access : Access) (sdm : Option SdmSettings)
      (cap : Nat)
  | tmiWriteRecord (fileNo : UInt8) (offset : UInt32) (data : Bytes)
      (cap : Nat)

/-- A builder has filled in every field, or it failed; then it wrote nothing,
or it stopped before the first field with numbers that all fit. -/
def BuilderKeeps (fields : List U24Field) (written : Bytes) :
    Except Err Bytes → Prop
  | .ok out => written = out ∧ ∀ f ∈ fields, f.Decodes out
  | .error _ =>
      written = [] ∨ ∀ f ∈ fields, f.value < 2 ^ 24 ∧ written.length ≤ f.pos

/-- The one place without a check: an application number of four bytes in
DeleteApplication, on a handle that sends it. -/
def U24Sender.Truncates : U24Sender → Prop
  | .call (.data (.deleteApplication aid)) card =>
      2 ^ 24 ≤ aid.toNat ∧ card.sessionLost = false
  | _ => False

section

variable [BlockCipher]

/-- Whatever the card answers, the call sends nothing and fails, or what it
sends is a payload that holds its numbers. -/
def Call.KeepsFields (call : Call) (card : Card) : Prop :=
  ∀ script, Unsent (call.run card script) ∨
    ∀ f ∈ call.u24Fields, ∃ before req, call.Exchanges card before req ∧
      Conveys before req (call.run card script).queries ∧ f.Decodes req.data

def U24Sender.KeepsFields : U24Sender → Prop
  | .call c card => c.KeepsFields card
  | .sdmSettings comm access sdm cap =>
      BuilderKeeps (sdmFields 0 sdm) (sdmWritten comm access sdm cap)
        (sdmBuildSettings comm access sdm cap)
  | .tmiWriteRecord fileNo offset data cap =>
      BuilderKeeps (tmiFields offset data)
        ((tmacTmiWriteRecord fileNo offset data cap).toOption.getD [])
        (tmacTmiWriteRecord fileNo offset data cap)

end

end Nxpsc
