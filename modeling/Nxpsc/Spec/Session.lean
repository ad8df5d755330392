import Nxpsc.Spec.Transcript

/-!
# What it means to have a session, and to have none

The fields of the handle that hang together, the state of it after the PICC
dropped the session, and the answers that never reach the place where the
library would notice.
-/

namespace Nxpsc

/-- Nothing of a session is left in the handle. -/
structure NoSession (card : Card) : Prop where
  authenticated : card.authenticated = false
  channel : card.channel = .auto
  sessionEnc : card.sessionEnc = .zero 32
  sessionMac : card.sessionMac = .zero 32
  ti : card.ti = .zero 4
  iv : card.iv = .zero 16
  cmdCtr : card.cmdCtr = 0

/-- A call failed because the card ended the session, and the handle is left
without one. -/
structure SessionDropped {α : Type} (r : Except Err α) (card : Card) :
    Prop where
  failed : ∃ e, r = .error e
  noSession : NoSession card
  lost : card.sessionLost = true

theorem noSession_resetChannel (card : Card) :
    NoSession (resetChannel card) :=
  ⟨rfl, rfl, rfl, rfl, rfl, rfl, rfl⟩

theorem sessionDropped_lost {α : Type} (e : Err) (card : Card) :
    SessionDropped (.error e : Except Err α)
      { resetChannel card with sessionLost := true } :=
  ⟨⟨e, rfl⟩, ⟨rfl, rfl, rfl, rfl, rfl, rfl, rfl⟩, rfl⟩

/-- The fields of the handle a session consists of. -/
structure SessionPart where
  channel : Channel
  authenticated : Bool
  sessionLost : Bool
  keyType : KeyType
  keyNo : UInt8
  key : Buf 32
  iv : Buf 16
  sessionEnc : Buf 32
  sessionMac : Buf 32
  ti : Buf 4
  cmdCtr : UInt16

def Card.sessionPart (card : Card) : SessionPart where
  channel := card.channel
  authenticated := card.authenticated
  sessionLost := card.sessionLost
  keyType := card.keyType
  keyNo := card.keyNo
  key := card.key
  iv := card.iv
  sessionEnc := card.sessionEnc
  sessionMac := card.sessionMac
  ti := card.ti
  cmdCtr := card.cmdCtr

/-- A handle in an EV2 session. -/
def liveEv2 : Card :=
  { Card.opened none with
    authenticated := true
    channel := .ev2
    keyType := .aes128 }

/-- A handle in an EV1 session. -/
def liveEv1 : Card :=
  { Card.opened none with
    authenticated := true
    channel := .ev1
    keyType := .aes128 }

/-- A key of zeros. -/
def zeroKey : Key := ⟨.aes128, .zero 32, 0⟩

/-- The identity cipher accepts a card that answers with zeros. -/
def zeroHandshake : List Answer :=
  [.ok (0xAF :: Bytes.zeros 16), .ok (0x00 :: Bytes.zeros 32)]

/-! ## Answers that are consumed below the exchange

`k` is the number of frames before the last one of the request, and `pre` the
answers before `a`. -/

/-- The answer that ends a command does not come out of
`nxpsc_raw_exchange_ex` as a status: it was given to a frame that is not the
last of the request, there is no native status in it, or the data of the
answers do not fit into the buffer with it. -/
def Unseen (sw : Bool) (k : Nat) (pre : List Answer) (a : Answer) : Prop :=
  pre.length < k ∨ answerStatus sw a = none ∨
    maxResponse < (answersData sw ((pre ++ [a]).drop k)).length

/-- The last answer is one that `P` is looking for, and stays unseen. -/
def Escapes (P : Bool → Answer → Bool) (sw : Bool) (k : Nat)
    (answers : List Answer) : Prop :=
  ∃ pre a, answers = pre ++ [a] ∧ P sw a = true ∧ Unseen sw k pre a

/-- The last answer is an error status and stays unseen. -/
def ErrorEscapes : Bool → Nat → List Answer → Prop := Escapes answerError

/-- The last answer reports success and stays unseen. -/
def SuccessEscapes : Bool → Nat → List Answer → Prop := Escapes answerSuccess

instance (sw : Bool) (k : Nat) (pre : List Answer) (a : Answer) :
    Decidable (Unseen sw k pre a) :=
  inferInstanceAs (Decidable (_ ∨ _))

theorem escapes_concat {P : Bool → Answer → Bool} {sw : Bool} {k : Nat}
    {pre : List Answer} {a : Answer} :
    Escapes P sw k (pre ++ [a]) ↔ P sw a = true ∧ Unseen sw k pre a := by
  constructor
  · rintro ⟨pre', a', h, hP, hun⟩
    obtain ⟨rfl, hlast⟩ := List.append_inj' h rfl
    cases hlast
    exact ⟨hP, hun⟩
  · rintro ⟨hP, hun⟩
    exact ⟨pre, a, rfl, hP, hun⟩

theorem not_escapes_nil {P : Bool → Answer → Bool} {sw : Bool} {k : Nat} :
    ¬ Escapes P sw k [] := by
  rintro ⟨pre, a, hnil, _⟩
  exact List.append_ne_nil_of_right_ne_nil pre (by simp) hnil.symm

/-! ## The fields of a session -/

/-- What holds of the session fields of a handle. -/
structure HandleOk (card : Card) : Prop where
  session : card.authenticated = true ↔ card.channel ≠ .auto
  lost : card.authenticated = true → card.sessionLost = false
  cleared : card.authenticated = false →
    card.sessionEnc = .zero 32 ∧ card.sessionMac = .zero 32 ∧
      card.ti = .zero 4 ∧ card.cmdCtr = 0
  keyType : card.channel = .ev2 ∨ card.channel = .lrp →
    card.keyType = .aes128

/-- Nothing that is enciphered or MACed with the counter of the one handle is
enciphered or MACed with the counter of the other. -/
def FreshInputs (a b : Card) : Prop :=
  (∀ forCommand, ev2IvInput a forCommand ≠ ev2IvInput b forCommand) ∧
    ∀ cmd data cmd' data', ev2MacInput a cmd data ≠ ev2MacInput b cmd' data'

end Nxpsc
