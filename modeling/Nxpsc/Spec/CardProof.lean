import Nxpsc.Ref.Api
import Nxpsc.Spec.HonestCard

/-!
# What proves a card

A handshake is two answers. This file says, of any two, whether they prove
that the card knows the key: the second one has to hold the random number the
library drew, under the key and in the place the handshake of the channel
gives it. Nothing is assumed of whoever sent them.
-/

namespace Nxpsc

/-- A challenge that asks to go on and an answer that reports success, and
nothing else. -/
def TwoAnswers (sw : Bool) (answers : List Answer) (d₁ d₂ : Bytes) : Prop :=
  ∃ a₁ a₂, answers = [a₁, a₂] ∧
    answerStatus sw a₁ = some dfSAdditionalFrame ∧ answerData sw a₁ = d₁ ∧
    answerStatus sw a₂ = some dfSOk ∧ answerData sw a₂ = d₂

section

variable [BlockCipher]

/-- D40 and EV1: deciphered, the answer is RndA rotated left by one byte. On
EV1 the chain goes on from the token, which goes on from the challenge. -/
def LegacyProof (key : Key) (channel : Channel) (rndA d₁ d₂ : Bytes) : Prop :=
  let rndB := decReceived key.type key.data.bytes zeroIv d₁
  let iv := if channel = .d40 then zeroIv
    else (encSent key.type key.data.bytes rndB.2 (rndA ++ rol rndB.1)).2
  d₁.length = legacyRndLen key ∧ d₂.length = legacyRndLen key ∧
    (decReceived key.type key.data.bytes iv d₂).1 = rol rndA

/-- EV2: a First answer has the TI in front of the rotated RndA and the
capabilities behind it. -/
def Ev2Proof (key : Key) (first : Bool) (rndA d₁ d₂ : Bytes) : Prop :=
  let plain := (decReceived .aes128 key.data.bytes zeroIv d₂).1
  (d₁.length = 16 ∨ d₁.length = 17 ∧ d₁.headD 0 = 0x00) ∧
    d₂.length = (if first then 32 else 16) ∧
    (if first then (plain.drop 4).take 16 else plain) = rol rndA

/-- LRP: the MAC over both random numbers and the enciphered TI. -/
def LrpProof (key : Key) (first : Bool) (rndA d₁ d₂ : Bytes) : Prop :=
  let rndB := d₁.drop 1
  let sent := if first then d₂.take 16 else []
  d₁.length = 17 ∧ d₁.headD 0 = 0x01 ∧
    (if first then 32 else 16) ≤ d₂.length ∧ d₂.length ≤ 64 ∧
    (d₂.drop sent.length).take 16 =
      lrpCmac (lrpInit (piccLrpKey key.data.bytes rndA rndB) 0 true)
        (rndB ++ rndA ++ sent)

def Proves (channel : Channel) (first : Bool) (key : Key)
    (rndA d₁ d₂ : Bytes) : Prop :=
  match channel with
  | .d40 | .ev1 => LegacyProof key channel rndA d₁ d₂
  | .ev2 => Ev2Proof key first rndA d₁ d₂
  | .lrp => LrpProof key first rndA d₁ d₂
  | .auto => False

/-- The answers prove the RndA that is drawn. -/
def CardProves (rng : Rng) (channel : Channel) (first : Bool) (key : Key)
    (sw : Bool) (answers : List Answer) : Prop :=
  ∃ rnd d₁ d₂, rng = .ok rnd ∧ TwoAnswers sw answers d₁ d₂ ∧
    Proves channel first key (Bytes.fit (challengeLen channel key) rnd) d₁ d₂

/-- MIFARE Plus: 0x90, the answer, and behind it at least, then exactly, one
block. Both directions run under an IV of the session's counters. -/
def PlusProof (key : Key) (iv rndA rx₁ rx₂ : Bytes) : Prop :=
  17 ≤ rx₁.length ∧ rx₁.headD 0 = 0x90 ∧ rx₂.length = 17 ∧
    rx₂.headD 0 = 0x90 ∧
    (decReceived .aes128 key.data.bytes iv (rx₂.drop 1)).1 = rol rndA

/-- The answers of a Plus card prove the RndA that is drawn. -/
def PlusProves (rng : Rng) (key : Key) (iv : Bytes)
    (answers : List Answer) : Prop :=
  ∃ rnd rx₁ rx₂, rng = .ok rnd ∧ answers = [.ok rx₁, .ok rx₂] ∧
    PlusProof key iv (Bytes.fit 16 rnd) rx₁ rx₂

/-- A call that leaves the handle in a state it must not be in, by the answers
it reads: a non first handshake that succeeds with a key of another type than
AES, or, on a MIFARE Plus card, with a handle whose session was lost. -/
def BreaksHandle (call : Call) (card : Card) (answers : List Answer) : Prop :=
  match call with
  | .authenticateNonfirst rng _ (some key) =>
      card.authenticated = true ∧
        (card.channel = .ev2 ∨ card.channel = .lrp) ∧
        key.type ≠ .aes128 ∧
        CardProves rng card.channel false key card.wraps answers
  | .plusAuthenticate rng _ (some key) false =>
      key.type = .aes128 ∧ card.sessionLost = true ∧
        PlusProves rng key (plusDataIv card true) answers
  | _ => False

end

/-- What a non first authentication owes the handle: it does not begin
without a session, and once it has sent a frame it ends in a new session or in
none. The old one never comes out in parts. -/
structure FailsClosed (card : Card) (said : Said) (r : Except Err Unit)
    (card' : Card) : Prop where
  refused : card.authenticated = false → (∃ e, r = .error e) ∧ said = []
  dropped : said ≠ [] → r ≠ .ok () → card'.authenticated = false
  whole : r ≠ .ok () → card'.authenticated = true → card' = card

end Nxpsc
