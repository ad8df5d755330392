import Nxpsc.Ref.Api
import Nxpsc.Spec.HonestCard

/-!
# MIFARE Plus, from the card's side

What a card that shares the session makes of a frame, what it has to put into
its answer, and when an answer is one to a read. None of this looks at the
flags the handle keeps between two commands.
-/

namespace Nxpsc

open Dialogue

section

variable [BlockCipher]

/-- The MAC of a session. -/
def plusSessionMac (card : Card) (input : Bytes) : Bytes :=
  cardMac card.sessionMac.bytes input

/-- A code, a counter, the TI and what follows them. -/
def plusMessage (code : UInt8) (ctr : UInt16) (card : Card)
    (more : Bytes) : Bytes :=
  code :: (putU16 ctr ++ card.ti.bytes ++ more)

/-! ## What a command means -/

inductive PlusOp where
  | increment
  | decrement
  | incrementTransfer
  | decrementTransfer
  | transfer
  | restore
  deriving DecidableEq

/-- A command on a value block. -/
structure PlusCommand where
  op : PlusOp
  enciphered : Bool
  block : UInt16
  delta : Option Int32
  deriving DecidableEq

/-- What the caller of a value command asks for. -/
def Call.plusCommand : Call → Option PlusCommand
  | .plusValueOp block delta credit encrypted =>
      some ⟨if credit then .increment else .decrement, encrypted, block,
        some delta⟩
  | .plusValueTransfer block delta credit encrypted =>
      some ⟨if credit then .incrementTransfer else .decrementTransfer,
        encrypted, block, some delta⟩
  | .plusTransfer block => some ⟨.transfer, false, block, none⟩
  | .plusRestore block => some ⟨.restore, false, block, none⟩
  | _ => none

/-- The block and the delta the card takes out of a frame, its data being
enciphered or not, when the MAC behind them is right. -/
def plusTakes (card : Card) (enciphered : Bool) (frame : Bytes) :
    Option (UInt16 × Option Int32) :=
  let body := frame.take (frame.length - 8)
  let data := body.drop 3
  if frame.length < 11 ∨
      plusSessionMac card
          (plusMessage (body.headD 0) card.plusWCtr card (body.drop 1)) ≠
        frame.drop (frame.length - 8) then none
  else if data.length = 0 then some (getU16 body 1, none)
  else
    let plain := if enciphered then
        (decReceived .aes128 card.sessionEnc.bytes (plusDataIv card false)
          data).1
      else data
    some (getU16 body 1, some (getI32 plain 0))

/-- The call puts this frame, and waits for its answer. -/
def Call.Sends (call : Call) (card : Card) (frame : Bytes) : Prop :=
  call.run card [] = .waiting [] (.plus frame) card

/-- The card recovers the command from its frame: no command of another
operation or with the data in another form has the opcode, and read as its
opcode says, the frame gives the block and the delta. -/
structure Recovered (card : Card) (m : PlusCommand) (frame : Bytes) :
    Prop where
  tells : ∀ (call' : Call) (m' : PlusCommand) (frame' : Bytes),
    call'.plusCommand = some m' → call'.Sends card frame' →
    frame'.headD 0 = frame.headD 0 →
    m'.op = m.op ∧ m'.enciphered = m.enciphered
  takes : plusTakes card m.enciphered frame = some (m.block, m.delta)

/-- The commands no other one shares its opcode with. -/
def PlusOp.OwnOpcode : PlusOp → Bool → Prop
  | .increment, _ | .decrement, _ | .transfer, _ => False
  | .incrementTransfer, enciphered => enciphered = true
  | .decrementTransfer, _ | .restore, _ => True

/-! ## What an answer proves -/

/-- An answer to a read: the status, the blocks, and behind them, when it is
asked for, the MAC over status, counter, TI, block, count and data. `out` is
what the caller is owed. -/
structure ReadAnswered (card : Card) (block : UInt16) (count : UInt8)
    (encrypted maced : Bool) (rx out : Bytes) : Prop where
  status : rx.headD 0 = 0x90
  length : 1 + 16 * count.toNat + (if maced then 8 else 0) ≤ rx.length
  mac : maced = true → plusSessionMac card
      (plusMessage 0x90 card.plusRCtr card
        (putU16 block ++ count :: (rx.drop 1).take (16 * count.toNat))) =
    (rx.drop (1 + 16 * count.toNat)).take 8
  data : out =
    let sent := (rx.drop 1).take (16 * count.toNat)
    if encrypted then
      (decReceived .aes128 card.sessionEnc.bytes (plusDataIv card true) sent).1
    else sent

/-- A read is judged by its own answer, whatever the answer is. -/
def ReadJudged (card : Card) (block : UInt16) (count : UInt8)
    (encrypted maced : Bool) (cap : Nat) : Prop :=
  ∀ script said r card' rest,
    plusRead block count encrypted maced cap card script =
      .done said r card' rest →
    ∀ out, r = .ok out ↔ ∃ frame rx, said = [(.plus frame, .ok rx)] ∧
      ReadAnswered card block count encrypted maced rx out

/-- The answer to a write that only the card can give: the status, and the
MAC over status, counter and TI. -/
def WriteProven (card : Card) (rx : Bytes) : Prop :=
  rx.headD 0 = 0x90 ∧
    plusSessionMac card (plusMessage 0x90 card.plusWCtr card []) =
      (rx.drop 1).take 8

/-- Success is the card's, whatever the answer is; short of it the write
counter stays. -/
def WriteJudged (card : Card) (call : Call) : Prop :=
  ∀ script said r card' rest,
    call.run card script = .done said r card' rest →
    (∃ frame rx, said = [(.plus frame, .ok rx)] ∧ WriteProven card rx) ∨
      r ≠ .ok () ∧ card'.plusWCtr = card.plusWCtr

end

/-- The commands of a session that end in the MAC of a write. -/
def Call.plusWrites : Call → Bool
  | .plusWrite .. | .plusValueOp .. | .plusValueTransfer ..
  | .plusTransfer _ | .plusRestore _ => true
  | _ => false

/-- The commands of a session. -/
def Call.inPlusSession : Call → Bool
  | .plusRead .. => true
  | call => call.plusWrites

/-! ## Runs of a session

`read` tells the two directions apart: each has its counter. -/

def Card.plusCtr (card : Card) (read : Bool) : UInt16 :=
  if read then card.plusRCtr else card.plusWCtr

/-- The call has its data enciphered in this direction. -/
def Call.enciphers (call : Call) (read : Bool) : Bool :=
  match call with
  | .plusRead _ _ encrypted _ _ => read && encrypted
  | .plusWrite _ _ encrypted | .plusValueOp _ _ _ encrypted
  | .plusValueTransfer _ _ _ encrypted => !read && encrypted
  | _ => false

/-- The command advances the counter of the direction: a write when it
succeeds, a read also when its MAC turns out wrong. -/
def advances (read : Bool) (st : ApiStep) : Bool :=
  if read then
    match st.call, st.result with
    | .plusRead .., .ok _ | .plusRead .., .error .crypto => true
    | _, _ => false
  else st.call.plusWrites && st.result.isOk

/-- How many commands advance the counter from the `i`-th on, up to the
`j`-th. -/
def advancesBetween (read : Bool) (steps : List ApiStep) (i j : Nat) : Nat :=
  ((steps.take j).drop i).countP (advances read)

/-- The `i`-th and the `j`-th command of a run, in this order, are successful
and enciphered. -/
structure EncipheredPair (read : Bool) (steps : List ApiStep) (i j : Nat)
    (st₁ st₂ : ApiStep) : Prop where
  order : i < j
  first : steps[i]? = some st₁
  second : steps[j]? = some st₂
  enciphers₁ : st₁.call.enciphers read = true
  enciphers₂ : st₂.call.enciphers read = true
  ok₁ : st₁.result = .ok ()
  ok₂ : st₂.result = .ok ()

/-- No two enciphered commands of the run have the same IV. -/
def IvsDiffer (read : Bool) (steps : List ApiStep) : Prop :=
  ∀ i j st₁ st₂, EncipheredPair read steps i j st₁ st₂ →
    plusDataIv st₁.before read ≠ plusDataIv st₂.before read

end Nxpsc
