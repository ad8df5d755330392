import Nxpsc.Ref.Desfire
import Nxpsc.Spec.Answers
import Nxpsc.Spec.Requests

/-!
# File access under two opcodes

Each of the five file access commands has a native opcode and a chained one,
and `nxpsc_set_iso_chaining` picks between them. The payload is the same; what
may differ is how the channel protects the request and checks the answer.
-/

namespace Nxpsc

/-! ## The five commands -/

/-- A file access command with its arguments. -/
inductive FileAccess where
  | readData (fileNo : UInt8) (offset length : UInt32) (cap : Nat)
  | writeData (fileNo : UInt8) (offset : UInt32) (data : Bytes)
  | readRecords (fileNo : UInt8) (recordNo recordCount : UInt32) (cap : Nat)
  | writeRecord (fileNo : UInt8) (offset : UInt32) (data : Bytes)
  | updateRecord (fileNo : UInt8) (recordNo offset : UInt32) (data : Bytes)

/-- The request of the public call. -/
def FileAccess.request (comm : CommMode) (card : Card) :
    FileAccess → Except Err Request
  | .readData fileNo offset length cap =>
      readDataRequest fileNo offset length comm cap card
  | .writeData fileNo offset data =>
      writeDataRequest fileNo offset data comm card
  | .readRecords fileNo recordNo recordCount cap =>
      readRecordsRequest fileNo recordNo recordCount comm cap card
  | .writeRecord fileNo offset data =>
      writeRecordRequest fileNo offset data comm card
  | .updateRecord fileNo recordNo offset data =>
      updateRecordRequest fileNo recordNo offset data comm card

def FileAccess.opcode (chained : Bool) : FileAccess → UInt8
  | .readData .. => if chained then dfReadData2 else dfReadData
  | .writeData .. => if chained then dfWriteData2 else dfWriteData
  | .readRecords .. => if chained then dfReadRecords2 else dfReadRecords
  | .writeRecord .. => if chained then dfWriteRecord2 else dfWriteRecord
  | .updateRecord .. => if chained then dfUpdateRecord2 else dfUpdateRecord

def FileAccess.isRead : FileAccess → Bool
  | .readData .. | .readRecords .. => true
  | .writeData .. | .writeRecord .. | .updateRecord .. => false

/-- What a write has behind its header. -/
def FileAccess.body : FileAccess → Bytes
  | .readData .. | .readRecords .. => []
  | .writeData _ _ data | .writeRecord _ _ data | .updateRecord _ _ _ data =>
      data

def FileAccess.header : FileAccess → Bytes
  | .readData fileNo offset length _ =>
      fileNo :: (putU24 offset ++ putU24 length)
  | .readRecords fileNo recordNo recordCount _ =>
      fileNo :: (putU24 recordNo ++ putU24 recordCount)
  | .writeData fileNo offset data | .writeRecord fileNo offset data =>
      fileNo :: (putU24 offset ++ putU24 (UInt32.ofNat data.length))
  | .updateRecord fileNo recordNo offset data =>
      fileNo :: (putU24 recordNo ++ putU24 offset ++
        putU24 (UInt32.ofNat data.length))

/-- The mode the answer of a file access is read in. -/
def FileAccess.answerMode (access : FileAccess) (comm : CommMode) : Mode :=
  if access.isRead = true ∨ comm = .plain then modeFromPublic comm else .mac

/-! ## How a request is treated -/

/-- How a request is protected and its answer checked. -/
structure Treatment where
  shape : RequestShape
  rule : AnswerRule
  deriving DecidableEq

/-- The handle while the request is encoded, and while its answer is read. -/
def Request.noted (req : Request) (mode : Mode) (card : Card) : Card :=
  remember req.cmd req.data { card with mode := mode, macMismatch := false }

def Request.treatment (req : Request) (card : Card) : Treatment where
  shape := requestShape req.cmd req.data (req.noted req.txMode card)
  rule := answerRule (req.noted req.rxMode card)

section

variable [BlockCipher]

/-- The exchange sends the request by its shape, and what it accepts as an
answer it accepts by its rule. -/
def Treats (req : Request) (card : Card) (t : Treatment) : Prop :=
  ∀ wrapped card₁,
    exchangeRequest req.cmd req.data req.txMode req.rxMode card =
      (.ok wrapped, card₁) →
    Sends (req.noted req.txMode card) req.cmd req.data t.shape wrapped ∧
      ∀ status raw cap out card₂,
        exchangeAnswer req.rxMode cap status raw card₁ = (.ok out, card₂) →
        ∃ ctr, AcceptedBy { card₁ with mode := req.rxMode, cmdCtr := ctr } raw
          status cap out t.rule

end

/-! ## What does not depend on the opcode -/

/-- The accesses that ISO chaining leaves alone. -/
def FileAccess.KeptByChaining (access : FileAccess) (comm : CommMode)
    (card : Card) : Prop :=
  comm = .plain ∨
    comm = .mac ∧
      (card.channel = .ev2 ∨ card.channel = .lrp ∨
        (card.channel = .ev1 ∧ access.isRead = true) ∨
        (card.channel = .d40 ∧ access.isRead = false ∧ access.body = []))

end Nxpsc
