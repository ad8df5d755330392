import Nxpsc.Spec.Session
import Nxpsc.Ref.Api

/-!
# ISO 7816-4, from the card's side

What READ BINARY and UPDATE BINARY address, as the standard reads the bytes of
the APDU, and what it means that a card has selected an application. A card
that selects one forgets the session.
-/

namespace Nxpsc

open Dialogue

/-! ## The binary commands -/

/-- The short identifier of an elementary file, or none for the current one,
and the offset into it. -/
structure BinaryTarget where
  sfi : Option Nat
  offset : Nat
  deriving DecidableEq

/-- What the caller of a binary command addresses. -/
def BinaryTarget.of (sfi : UInt8) (offset : UInt16) : BinaryTarget :=
  ⟨if sfi = 0 then none else some sfi.toNat, offset.toNat⟩

inductive BinaryCommand where
  | read (target : BinaryTarget) (length : Nat)
  | update (target : BinaryTarget) (data : Bytes)
  deriving DecidableEq

/-- Bit 8 of P1 tells a short identifier in its low five bits from an offset
of fifteen. -/
def isoTarget (p1 p2 : UInt8) : BinaryTarget :=
  if 128 ≤ p1.toNat then ⟨some (p1.toNat % 32), p2.toNat⟩
  else ⟨none, 256 * p1.toNat + p2.toNat⟩

/-- The binary command in an APDU. An Le of zero asks for 256 bytes. -/
def isoBinary : Bytes → Option BinaryCommand
  | _ :: ins :: p1 :: p2 :: body =>
      if ins = 0xB0 then
        match body with
        | [le] => some (.read (isoTarget p1 p2)
            (if le = 0 then 256 else le.toNat))
        | _ => none
      else if ins = 0xD6 then
        match body with
        | lc :: data =>
            if data.length = lc.toNat then
              some (.update (isoTarget p1 p2) data)
            else none
        | [] => none
      else none
  | _ => none

/-- The program fails without a frame, or asks the card for this command and
nothing else. -/
def Asks {α : Type} (m : Api α) (card : Card) (cmd : BinaryCommand) : Prop :=
  ∀ script,
    (∃ e, m card script = .done [] (.error e) card script) ∨
      ∃ apdu, (m card script).queries = [.apdu apdu] ∧
        isoBinary apdu = some cmd

/-- The short identifier and the offset are what the card is told. -/
def Addressable (sfi : UInt8) (offset : UInt16) : Prop :=
  sfi.toNat < 32 ∧ (sfi = 0 → offset.toNat < 32768)

/-! ## Selection -/

/-- The status word of an answer. -/
def answerSw (a : Answer) : Option (UInt8 × UInt8) :=
  match transceived maxApdu a with
  | .error _ => none
  | .ok rx =>
      if rx.length < 2 then none
      else some (rx.getD (rx.length - 2) 0, rx.getD (rx.length - 1) 0)

/-- The calls that make the card select an application or a DF. -/
def Call.selects : Call → Bool
  | .selectApplication _ | .isoSelectDfName _ | .isoSelectFid _ false
  | .ntag424Select => true
  | _ => false

/-- The answer accepts the command: 9000, or 61XX when there is more to
fetch, and a native status of success. -/
def Accepts (q : Frame) (a : Answer) : Prop :=
  match q with
  | .apdu _ => ∃ sw, answerSw a = some sw ∧
      (sw = (0x90, 0x00) ∨ sw.1 = 0x61)
  | .native _ _ | .wrapped _ _ => cardStatus q a = some dfSOk
  | .plus _ => False

/-- A call whose last answer tells that the card has selected. -/
def SelectionAccepted (st : ApiStep) (q : Frame) (a : Answer) : Prop :=
  st.call.selects = true ∧ Accepts q a ∧ ∃ pre, st.said = pre ++ [(q, a)]

/-- Nothing of a session is left, and whatever goes out next goes out as it
was given. -/
structure SessionEnded [BlockCipher] (card : Card) : Prop where
  noSession : NoSession card
  bare : ∀ cmd data txMode rxMode wrapped,
    (exchangeRequest cmd data txMode rxMode card).1 = .ok wrapped →
    wrapped = data

/-- The selection finds no session in the handle, or drops the one it finds:
the native one always, the one of a DNA tag when there is room for the data of
the answer. -/
def SelectionDrops (st : ApiStep) (q : Frame) (a : Answer) : Prop :=
  NoSession st.before ∨
    match st.call with
    | .selectApplication _ => True
    | .ntag424Select => (cardData q a).length ≤ 64
    | _ => False

end Nxpsc
