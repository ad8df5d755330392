import Nxpsc.Spec.IsoAccess

/-!
# The status behind `NXPSC_E_CARD`

A caller who is told that the card refused asks the handle for the status. The
status byte of an answer is SW2 where the answer ends in a status word, and
its first byte elsewhere.
-/

namespace Nxpsc

open Dialogue

/-- The status byte of an answer, when there is one. -/
def statusByte (q : Frame) (a : Answer) : Option UInt8 :=
  if q.hasSw then (answerSw a).map Prod.snd else answerStatus false a

/-- The call stopped on a frame, and the handle has the status byte the card
answered that frame with. -/
def CauseTold (said : Said) (card' : Card) : Prop :=
  ∃ pre q a, said = pre ++ [(q, a)] ∧ statusByte q a = some card'.lastStatus

/-- The answer brings a status byte the library takes down. An APDU around a
native command has one only behind an SW1 of 0x91. -/
def takenDown (q : Frame) (a : Answer) : Bool :=
  match q with
  | .wrapped _ _ => (cardStatus q a).isSome
  | _ => (statusByte q a).isSome

/-- The handle has the status byte of the answer if that was taken down, and
what it had before otherwise. -/
def Recorded (before : UInt8) (q : Frame) (a : Answer) (after : UInt8) :
    Prop :=
  if takenDown q a then statusByte q a = some after else after = before

/-- The status byte of the frame the call stopped on is taken down, or is by
chance the one the handle had when the frame went out. -/
def CauseRead [BlockCipher] (call : Call) (card : Card) (said : Said) : Prop :=
  ∃ pre q a now, said = pre ++ [(q, a)] ∧
    call.run card (pre.map Prod.snd) = .waiting pre q now ∧
    (takenDown q a = true ∨ statusByte q a = some now.lastStatus)

end Nxpsc
