import Nxpsc.Lib.Encoding
import Nxpsc.Lib.Party
import Nxpsc.Spec.Transcript

/-!
# The card behind its framing

To its command interpreter a card is a map from an opcode and data to a
status and data, with a state of its own. `Device` is that map and knows
nothing of frames. What goes over the air is one of two encodings of it: the
bare native one, opcode in front of the data and status in front of the
answer, or the one wrapped in an APDU, with the status in SW2. A frame that
is not well formed gets no answer.

An answer carries at most `replyMax` bytes: with the status word it fills the
receive buffer of the library.
-/

namespace Nxpsc

open Dialogue

def replyMax : Nat := 262

/-- What a card replies to one command. -/
structure Reply where
  status : UInt8
  data : Bytes
  fits : data.length ≤ replyMax

/-- A card, less its framing. -/
abbrev Device (S : Type) := S → UInt8 → Bytes → Reply × S

/-! ## The two encodings -/

/-- Opcode and data of a native frame. -/
def readNative : Bytes → Option (UInt8 × Bytes)
  | [] => none
  | cmd :: data => some (cmd, data)

/-- Opcode and data of `90 cmd 00 00 [Lc data] Le`. -/
def readWrapped : Bytes → Option (UInt8 × Bytes)
  | [cla, cmd, p1, p2, le] =>
      if cla = isoClaWrap ∧ p1 = 0x00 ∧ p2 = 0x00 ∧ le = 0x00 then
        some (cmd, [])
      else none
  | cla :: cmd :: p1 :: p2 :: lc :: body =>
      if cla = isoClaWrap ∧ p1 = 0x00 ∧ p2 = 0x00 ∧
          body.length = lc.toNat + 1 ∧ body.getLastD 0xFF = 0x00 then
        some (cmd, body.take lc.toNat)
      else none
  | _ => none

def nativeEncoding :
    Encoding Frame Answer (Option (UInt8 × Bytes)) Reply where
  read q := readNative q.bytes
  put x := .ok (x.status :: x.data)

def wrappedEncoding :
    Encoding Frame Answer (Option (UInt8 × Bytes)) Reply where
  read q := readWrapped q.bytes
  put x := .ok (x.data ++ [0x91, x.status])

/-- The encoding a command set selects. -/
def CmdSet.encoding : CmdSet →
    Encoding Frame Answer (Option (UInt8 × Bytes)) Reply
  | .native => nativeEncoding
  | .nativeIso | .iso => wrappedEncoding

variable {S : Type}

/-- The device behind the framing of a command set. -/
def Device.party (d : Device S) (cmdset : CmdSet) (p : S) (q : Frame) :
    Answer × S :=
  match cmdset.encoding.read q with
  | none => (.error .transport, p)
  | some (cmd, data) =>
      (cmdset.encoding.put (d p cmd data).1, (d p cmd data).2)

/-! ## What the card sees of a call -/

/-- The call comes back: the card was asked `requests` in this order. -/
def Device.Completes {α : Type} (d : Device S) (m : Api α) (card : Card)
    (p : S) (requests : List (UInt8 × Bytes)) (r : Except Err α)
    (card' : Card) (p' : S) : Prop :=
  ∃ said, m card (said.map Prod.snd) = .done said r card' [] ∧
    Took (d.party card.cmdset) p said p' ∧
    card.cmdset.encoding.asked said = requests.map some

/-- The call is under way: the card was asked `requests` and is asked
`request` now. -/
def Device.Awaits {α : Type} (d : Device S) (m : Api α) (card : Card)
    (p : S) (requests : List (UInt8 × Bytes)) (request : UInt8 × Bytes)
    (p' : S) : Prop :=
  ∃ said q card', m card (said.map Prod.snd) = .waiting said q card' ∧
    Took (d.party card.cmdset) p said p' ∧
    card.cmdset.encoding.asked said = requests.map some ∧
    card.cmdset.encoding.read q = some request

/-- What a card replies to a list of requests, and its state after them. -/
def Device.replies (d : Device S) : S → List (UInt8 × Bytes) → List Reply × S
  | p, [] => ([], p)
  | p, req :: rest =>
      ((d p req.1 req.2).1 :: (d.replies (d p req.1 req.2).2 rest).1,
        (d.replies (d p req.1 req.2).2 rest).2)

/-- On well formed requests the card says what it replies, encoded. -/
theorem took_iff (d : Device S) (cmdset : CmdSet) {said : Said} {p p' : S}
    {requests : List (UInt8 × Bytes)}
    (hasked : cmdset.encoding.asked said = requests.map some) :
    Took (d.party cmdset) p said p' ↔
      said.map Prod.snd =
        (d.replies p requests).1.map cmdset.encoding.put ∧
      p' = (d.replies p requests).2 := by
  induction said generalizing p requests with
  | nil =>
      cases requests with
      | nil =>
          constructor
          · intro h
            exact ⟨rfl, h.symm⟩
          · intro h
            exact h.2.symm
      | cons => cases hasked
  | cons qa rest ih =>
      obtain ⟨q, a⟩ := qa
      cases requests with
      | nil => cases hasked
      | cons req requests =>
          obtain ⟨hq, hrest⟩ := List.cons.inj hasked
          have hread : cmdset.encoding.read q = some req := hq
          have hstep : d.party cmdset p q =
              (cmdset.encoding.put (d p req.1 req.2).1,
                (d p req.1 req.2).2) := by
            rw [Device.party, hread]
          rw [Took, hstep, ih hrest, Device.replies, List.map_cons,
            List.map_cons, List.cons.injEq, and_assoc,
            eq_comm (a := cmdset.encoding.put (d p req.1 req.2).1)]

end Nxpsc
