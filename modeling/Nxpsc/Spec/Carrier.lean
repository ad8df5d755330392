import Nxpsc.Spec.HonestCard

/-!
# A card that takes requests apart and puts them together

Above its frames a card is an `Interpreter`: it is given a whole request and
has a whole answer. A `Carrier` is what goes between that and the air: how
long a request is going to be, which the card sees from its first frame, and
how the answers are cut. Every frame that is not the last of a request is
acknowledged with 0xAF, and every part of an answer that is not the last one
goes out with 0xAF and waits to be asked on.
-/

namespace Nxpsc

/-- Status and data for a whole request. -/
abbrev Interpreter (S : Type) := S → UInt8 → Bytes → (UInt8 × Bytes) × S

/-- As much of an answer as goes into one frame. -/
abbrev Part := { part : Bytes // part.length ≤ replyMax }

/-- The bytes of an answer cut into parts. -/
def joined (parts : List Part) : Bytes := (parts.map Subtype.val).flatten

structure Carrier (S : Type) where
  expects : S → UInt8 → Bytes → Nat
  cut : S → Bytes → List Part
  joined_cut : ∀ s data, joined (cut s data) = data

/-- What the card is in the middle of. -/
inductive Transfer where
  | idle
  | gathering (cmd : UInt8) (got : Bytes) (total : Nat)
  | sending (status : UInt8) (parts : List Part)

/-- The next frame of an answer. -/
def sendParts (status : UInt8) : List Part → Reply × Transfer
  | [] => (⟨status, [], Nat.zero_le _⟩, .idle)
  | [part] => (⟨status, part.val, part.property⟩, .idle)
  | part :: parts =>
      (⟨dfSAdditionalFrame, part.val, part.property⟩, .sending status parts)

/-- `PICC_ILLEGAL_COMMAND_CODE`. -/
def dfSIllegalCommand : UInt8 := 0x1C

variable {S : Type}

/-- A request is answered when it is whole. -/
def Carrier.gathered (c : Carrier S) (card : Interpreter S) (s : S)
    (cmd : UInt8) (got : Bytes) (total : Nat) : Reply × Transfer × S :=
  if got.length < total then
    (⟨dfSAdditionalFrame, [], Nat.zero_le _⟩, .gathering cmd got total, s)
  else
    let out := card s cmd got
    let sent := sendParts out.1.1 (c.cut out.2 out.1.2)
    (sent.1, sent.2, out.2)

/-- The card, frame by frame. Any other opcode than 0xAF begins a new
request. -/
def Carrier.device (c : Carrier S) (card : Interpreter S) :
    Device (Transfer × S) := fun p cmd data =>
  if cmd = dfAdditionalFrame then
    match p.1 with
    | .idle => (⟨dfSIllegalCommand, [], Nat.zero_le _⟩, p)
    | .gathering op got total => c.gathered card p.2 op (got ++ data) total
    | .sending status parts =>
        ((sendParts status parts).1, (sendParts status parts).2, p.2)
  else c.gathered card p.2 cmd data (c.expects p.2 cmd data)

end Nxpsc
