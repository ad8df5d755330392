import Nxpsc.Ref.Core

/-!
# A conversation, as the card has it

What was said between the library and the card is a list of frames with
their answers. This file reads such a list without the library: the status
an answer carries, whether it is an error, the data in it, and the shape a
chained command gives to its frames. Framing is read off the frame itself,
as a card would, not off the handle.
-/

namespace Nxpsc

/-- A stretch of conversation. -/
abbrev Said := List (Frame × Answer)

/-- The opcode of a native frame, wrapped or not. -/
def Frame.opcode : Frame → Option UInt8
  | .native cmd _ | .wrapped cmd _ => some cmd
  | .apdu _ | .plus _ => none

/-- The answer ends in a status word; otherwise it begins with a status
byte. -/
def Frame.hasSw : Frame → Bool
  | .native _ _ | .plus _ => false
  | .wrapped _ _ | .apdu _ => true

/-- A handle that wraps its native commands in APDUs. -/
def Card.wraps (card : Card) : Bool :=
  decide (card.cmdset = .nativeIso ∨ card.cmdset = .iso)

/-! ## One answer

`sw` tells where the status stands. -/

/-- The native status in an answer, when there is one: the first byte, or SW2
behind an SW1 of 0x91. -/
def answerStatus (sw : Bool) (a : Answer) : Option UInt8 :=
  match transceived maxApdu a with
  | .error _ => none
  | .ok rx =>
      if sw then
        if rx.length < 2 then none
        else if rx.getD (rx.length - 2) 0 = 0x91 then
          some (rx.getD (rx.length - 1) 0)
        else none
      else some (rx.headD 0)

/-- An ISO 7816-4 status word that is an error, where a native status could
have stood. -/
def answerIsoError (sw : Bool) (a : Answer) : Bool :=
  match transceived maxApdu a with
  | .error _ => false
  | .ok rx =>
      sw && decide (2 ≤ rx.length) &&
        !isoSwOk (rx.getD (rx.length - 2) 0) (rx.getD (rx.length - 1) 0)

/-- An error status. -/
def answerError (sw : Bool) (a : Answer) : Bool :=
  match answerStatus sw a with
  | some status => statusEndsSession status
  | none => answerIsoError sw a

/-- The status of a command that is carried out. -/
def answerSuccess (sw : Bool) (a : Answer) : Bool :=
  match answerStatus sw a with
  | some status => status == dfSOk || status == dfSSignature
  | none => false

/-- The data next to the status. -/
def answerData (sw : Bool) (a : Answer) : Bytes :=
  match transceived maxApdu a with
  | .error _ => []
  | .ok rx => if sw then rx.take (rx.length - 2) else rx.drop 1

/-! ## A frame and its answer -/

/-- The native status the card answered a frame with. -/
def cardStatus (q : Frame) (a : Answer) : Option UInt8 := answerStatus q.hasSw a

/-- The card answered with an error status. -/
def cardError (q : Frame) (a : Answer) : Bool := answerError q.hasSw a

/-- The card answered that the command is carried out. -/
def cardSuccess (q : Frame) (a : Answer) : Bool := answerSuccess q.hasSw a

/-- The data the card answered with. -/
def cardData (q : Frame) (a : Answer) : Bytes := answerData q.hasSw a

/-- The data of a stretch of conversation. -/
def saidData (said : Said) : Bytes :=
  (said.map fun qa => cardData qa.1 qa.2).flatten

@[simp] theorem saidData_append (xs ys : Said) :
    saidData (xs ++ ys) = saidData xs ++ saidData ys := by
  rw [saidData, saidData, saidData, List.map_append, List.flatten_append]

@[simp] theorem saidData_single (q : Frame) (a : Answer) :
    saidData [(q, a)] = cardData q a := by
  rw [saidData, List.map_singleton, List.flatten_singleton]

theorem said_last_inj {pre pre' : Said} {q q' : Frame} {a a' : Answer}
    (h : pre ++ [(q, a)] = pre' ++ [(q', a')]) :
    pre = pre' ∧ q = q' ∧ a = a' := by
  obtain ⟨hpre, hlast⟩ := List.append_inj' h rfl
  cases hlast
  exact ⟨hpre, rfl, rfl⟩

/-- A continuation is neither an error nor the end of a command. -/
theorem answerError_of_continues {sw : Bool} {a : Answer}
    (h : answerStatus sw a = some dfSAdditionalFrame) :
    answerError sw a = false := by
  rw [answerError, h]
  rfl

theorem answerSuccess_of_continues {sw : Bool} {a : Answer}
    (h : answerStatus sw a = some dfSAdditionalFrame) :
    answerSuccess sw a = false := by
  rw [answerSuccess, h]
  rfl

/-! ## The frames of one command -/

/-- The handle frames the opcode so. -/
def Carries (card : Card) (cmd : UInt8) (q : Frame) : Prop :=
  ∃ data, frameRequest cmd data card = .ok q

/-- The beginning of a command: every answer so far asked to go on, and `c`
is the opcode of the frame that comes next. -/
inductive Chained (card : Card) (cmd : UInt8) : Said → UInt8 → Prop where
  | start : Chained card cmd [] cmd
  | next {pre : Said} {c : UInt8} {q : Frame} {a : Answer}
      (hpre : Chained card cmd pre c) (hq : Carries card c q)
      (ha : cardStatus q a = some dfSAdditionalFrame) :
      Chained card cmd (pre ++ [(q, a)]) dfAdditionalFrame

theorem Carries.opcode {card : Card} {cmd : UInt8} {q : Frame}
    (h : Carries card cmd q) : q.opcode = some cmd := by
  obtain ⟨data, h⟩ := h
  rw [frameRequest] at h
  split at h
  · cases h
  · split at h <;> cases h <;> rfl

theorem Carries.hasSw {card : Card} {cmd : UInt8} {q : Frame}
    (h : Carries card cmd q) : q.hasSw = card.wraps := by
  obtain ⟨data, h⟩ := h
  rw [frameRequest] at h
  split at h
  · cases h
  · split at h
    · next hset =>
        cases h
        rw [Card.wraps, decide_eq_true hset]
        rfl
    · next hset =>
        cases h
        rw [Card.wraps, decide_eq_false hset]
        rfl

/-- Only the command set of a handle decides the framing. -/
theorem Carries.congr {card card' : Card} {cmd : UInt8} {q : Frame}
    (hset : card.cmdset = card'.cmdset) (h : Carries card cmd q) :
    Carries card' cmd q := by
  obtain ⟨data, h⟩ := h
  rw [frameRequest, hset] at h
  exact ⟨data, h⟩

/-- No answer of a beginning is an error, and none ends the command. -/
theorem Chained.continues {card : Card} {cmd c : UInt8} {pre : Said}
    (h : Chained card cmd pre c) :
    ∀ qa ∈ pre, cardStatus qa.1 qa.2 = some dfSAdditionalFrame := by
  induction h with
  | start => intro qa hqa; cases hqa
  | next hpre hq ha ih =>
      intro qa hqa
      rcases List.mem_append.mp hqa with hqa | hqa
      · exact ih qa hqa
      · rw [List.mem_singleton.mp hqa]
        exact ha

theorem Chained.next_opcode {card : Card} {cmd c : UInt8} {pre : Said}
    (h : Chained card cmd pre c) :
    (pre = [] ∧ c = cmd) ∨ (pre ≠ [] ∧ c = dfAdditionalFrame) := by
  cases h with
  | start => exact .inl ⟨rfl, rfl⟩
  | next hpre hq ha => exact .inr ⟨by simp, rfl⟩

theorem Chained.hasSw {card : Card} {cmd c : UInt8} {pre : Said}
    (h : Chained card cmd pre c) : ∀ qa ∈ pre, qa.1.hasSw = card.wraps := by
  induction h with
  | start => intro qa hqa; cases hqa
  | next hpre hq ha ih =>
      intro qa hqa
      rcases List.mem_append.mp hqa with hqa | hqa
      · exact ih qa hqa
      · rw [List.mem_singleton.mp hqa]
        exact hq.hasSw

/-- The data of answers that all have their status in the same place. -/
def answersData (sw : Bool) (answers : List Answer) : Bytes :=
  (answers.map (answerData sw)).flatten

theorem saidData_eq {sw : Bool} {said : Said}
    (h : ∀ qa ∈ said, qa.1.hasSw = sw) :
    saidData said = answersData sw (said.map Prod.snd) := by
  rw [saidData, answersData, List.map_map]
  congr 1
  apply List.map_congr_left
  intro qa hqa
  rw [cardData, h qa hqa]
  rfl

/-! ## What the library reads in an answer -/

/-- An answer the library can read has the status and data the card put
there. -/
theorem frameResponse_ok {card : Card} {cmd status : UInt8} {q : Frame}
    {a : Answer} {cap : Nat} {got : Bytes} (hq : Carries card cmd q)
    (h : frameResponse card cap a = .ok (status, got)) :
    cardStatus q a = some status ∧ cardData q a = got := by
  rw [cardStatus, cardData, hq.hasSw, Card.wraps, answerStatus, answerData]
  rw [frameResponse] at h
  cases hrx : transceived maxApdu a with
  | error e =>
      rw [hrx] at h
      cases h
  | ok rx =>
  rw [hrx] at h
  dsimp only at h ⊢
  split at h
  · next hset =>
      rw [decide_eq_true hset]
      split at h
      · cases h
      next hlen =>
      split at h
      · cases h
      next hsw =>
      split at h
      · cases h
      cases h
      simp only [if_true, if_neg hlen, if_pos (not_not.mp hsw), and_self]
  · next hset =>
      rw [decide_eq_false hset]
      split at h <;> cases h
      exact ⟨rfl, rfl⟩

theorem transceived_length {rxCap : Nat} {a : Answer} {rx : Bytes}
    (h : transceived rxCap a = .ok rx) : 0 < rx.length ∧ rx.length ≤ rxCap := by
  cases a with
  | error e => cases h
  | ok bytes =>
      simp only [transceived] at h
      split at h
      · cases h
      · next hne =>
          cases h
          refine ⟨by omega, ?_⟩
          rw [List.length_take]
          exact Nat.min_le_left _ _

/-- The library fails to read an answer only where there is no native status
in it. -/
theorem frameResponse_error {card : Card} {cmd : UInt8} {q : Frame}
    {a : Answer} {e : Err} (hq : Carries card cmd q)
    (h : frameResponse card maxApdu a = .error e) : cardStatus q a = none := by
  rw [cardStatus, hq.hasSw, Card.wraps, answerStatus]
  rw [frameResponse] at h
  cases hrx : transceived maxApdu a with
  | error e => rfl
  | ok rx =>
  obtain ⟨-, hcap⟩ := transceived_length hrx
  rw [hrx] at h
  dsimp only at h ⊢
  split at h
  · next hset =>
      rw [decide_eq_true hset]
      split at h
      · next hlen => simp only [if_true, if_pos hlen]
      next hlen =>
      split at h
      · next hsw => simp only [if_true, if_neg hlen, if_neg hsw]
      split at h
      · omega
      · cases h
  · split at h
    · omega
    · cases h

end Nxpsc
