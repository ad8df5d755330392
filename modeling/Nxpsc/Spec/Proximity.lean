import Nxpsc.Ref.Advanced
import Nxpsc.Spec.Cmac
import Nxpsc.Spec.Reply

/-!
# What a proximity check comes to

The replies of a card to PreparePC, the rounds and VerifyPC, read off a script
of answers: which of them are good, what was exchanged, and what the two MACs
are over. Nothing here looks at the handle.
-/

namespace Nxpsc

/-- A reply that says 0x00 or 0x90: its data, and the answers behind it. -/
def goodReply (sw : Bool) (cap : Nat) (script : List Answer) :
    Option (Bytes × List Answer) :=
  match cardReply sw cap [] script with
  | none => none
  | some ((status, data), rest) =>
      if status = 0x00 ∨ status = 0x90 then some (data, rest) else none

/-- A reply that can be read and says anything else. -/
def BadReply (sw : Bool) (cap : Nat) (script : List Answer) : Prop :=
  ∃ status data rest, cardReply sw cap [] script = some ((status, data), rest) ∧
    ¬ (status = 0x00 ∨ status = 0x90)

/-- So many good replies in a row. -/
def goodReplies (sw : Bool) (cap : Nat) :
    Nat → List Answer → Option (List Bytes × List Answer)
  | 0, script => some ([], script)
  | n + 1, script =>
      match goodReply sw cap script with
      | none => none
      | some (data, rest) =>
          (goodReplies sw cap n rest).map fun r => (data :: r.1, r.2)

/-- The first of the next `n` replies that is not good is a bad one. -/
def BadAmong (sw : Bool) (cap : Nat) : Nat → List Answer → Prop
  | 0, _ => False
  | n + 1, script =>
      BadReply sw cap script ∨ ∃ data rest,
        goodReply sw cap script = some (data, rest) ∧ BadAmong sw cap n rest

/-- Option and the published time; PPS1 as well where bit 0 of Option
announces it. -/
def pcOptionsLen (prep : Bytes) : Nat :=
  if prep.headD 0 &&& 0x01 ≠ 0 then 4 else 3

/-- The challenge in as many parts as there are rounds. -/
def pcParts (rounds : Nat) (challenge : Bytes) : List Bytes :=
  Bytes.chunks (8 / rounds) rounds challenge

/-- What the rounds exchanged: each answer, cut to the length of its part,
and the part. -/
def pcExchanged (parts answers : List Bytes) : Bytes :=
  ((parts.zip answers).map fun pa => pa.2.take pa.1.length ++ pa.1).flatten

/-- The MAC of one side, by the byte it begins with. -/
def pcMac [BlockCipher] (key : Bytes) (side : UInt8) (prep : Bytes)
    (parts answers : List Bytes) : Bytes :=
  cardMac key (side :: (prep.take (pcOptionsLen prep) ++
    pcExchanged parts answers))

/-- The card answers everything, and VerifyPC with its MAC. -/
def PcProved [BlockCipher] (key challenge : Bytes) (rounds : Nat) (sw : Bool)
    (script : List Answer) : Prop :=
  ∃ prep answers verify s₁ s₂ s₃,
    goodReply sw 16 script = some (prep, s₁) ∧
    pcOptionsLen prep ≤ prep.length ∧
    goodReplies sw 32 rounds s₁ = some (answers, s₂) ∧
    goodReply sw 32 s₂ = some (verify, s₃) ∧
    8 ≤ verify.length ∧
    pcMac key 0x90 prep (pcParts rounds challenge) answers =
      verify.take 8

/-- A reply to the check refuses it: a bad status, or a PreparePC without its
options. -/
def PcRefused (rounds : Nat) (sw : Bool) (script : List Answer) : Prop :=
  BadReply sw 16 script ∨
    ∃ prep rest, goodReply sw 16 script = some (prep, rest) ∧
      (prep.length < pcOptionsLen prep ∨ BadAmong sw 32 (rounds + 1) rest)

/-- The rounds' commands, each part behind its length, as far as the card's
replies let them go. -/
def pcRoundFrames (sw : Bool) : List Bytes → List Answer → List Frame
  | [], _ => []
  | part :: parts, script =>
      nativeFrame sw 0xF2 (UInt8.ofNat part.length :: part) ::
        match goodReply sw 32 script with
        | none => []
        | some (_, rest) => pcRoundFrames sw parts rest

/-- The command VerifyPC, once all rounds are answered. -/
def pcVerifyFrames [BlockCipher] (key : Bytes) (sw : Bool) (prep : Bytes)
    (parts : List Bytes) (script : List Answer) : List Frame :=
  match goodReplies sw 32 parts.length script with
  | none => []
  | some (answers, _) =>
      [nativeFrame sw 0xFD (pcMac key 0xFD prep parts answers)]

/-- The commands of a check, as far as the card's replies let it go. -/
def pcFrames [BlockCipher] (key challenge : Bytes) (rounds : Nat) (sw : Bool)
    (script : List Answer) : List Frame :=
  nativeFrame sw 0xF0 [] ::
    match goodReply sw 16 script with
    | none => []
    | some (prep, rest) =>
        if prep.length < pcOptionsLen prep then []
        else
          pcRoundFrames sw (pcParts rounds challenge) rest ++
            pcVerifyFrames key sw prep (pcParts rounds challenge) rest

/-- What was put, but for the frames that ask to go on. -/
def commandFrames (sw : Bool) (frames : List Frame) : List Frame :=
  frames.filter (· ≠ goOn sw)

/-- The call draws this challenge: it takes the key and the random bytes. -/
def DrawsChallenge (rng : Rng) (pcKey : Key) (challenge : Bytes) : Prop :=
  pcKey.type = .aes128 ∧ randomBytes rng pcChallengeLen = .ok challenge

end Nxpsc
