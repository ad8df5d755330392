import Nxpsc.Lib.Trace
import Nxpsc.Spec.Steps

/-!
# The PICC's own session

The card has a session from the moment it answers 0x00 to the last frame of a
handshake until it answers SelectApplication with 0x00 or anything with an
error status. It does not know what the handle thinks of that, nor whether the
handle has heard it. `Picc` is where the card is: the command whose frames are
being exchanged, and whether the session is open. `PiccAfter` is where a
conversation may have taken it, which is one place only if every answer was
heard.
-/

namespace Nxpsc

open Dialogue

/-- The opcodes of the handshakes. -/
def authOpcodes : List UInt8 :=
  [ dfAuthenticate, dfAuthenticateIso, dfAuthenticateAes, dfAuthenticateEv2f,
    dfAuthenticateEv2nf ]

structure Picc where
  command : Option UInt8
  session : Bool
  deriving DecidableEq

/-- The command a frame belongs to: a continuation belongs to the one that is
under way. -/
def Picc.belongs (p : Picc) (q : Frame) : Option UInt8 :=
  if q.opcode = some dfAdditionalFrame then p.command else q.opcode

/-- A continuation of a handshake. -/
def Picc.finishes (p : Picc) (q : Frame) : Bool :=
  decide (q.opcode = some dfAdditionalFrame) &&
    p.command.any authOpcodes.contains

/-- The PICC once it has answered a frame with a status. -/
def Picc.answered (p : Picc) (q : Frame) (status : UInt8) : Picc :=
  if statusEndsSession status then ⟨none, false⟩
  else if status = dfSAdditionalFrame then ⟨p.belongs q, p.session⟩
  else if status = dfSOk ∧ p.finishes q = true then ⟨none, true⟩
  else if status = dfSOk ∧ p.belongs q = some dfSelectApplication then
    ⟨none, false⟩
  else ⟨none, p.session⟩

/-- Where a frame may take the PICC. An answer that was heard leaves no doubt;
where none was, either the frame did not arrive or the answer was lost,
whatever it was. -/
inductive Picc.Goes (p : Picc) (q : Frame) (a : Answer) : Picc → Prop where
  | heard {status : UInt8} (ha : cardStatus q a = some status) :
      Goes p q a (p.answered q status)
  | refused (ha : cardStatus q a = none) (herr : cardError q a = true) :
      Goes p q a ⟨none, false⟩
  | lost (status : UInt8) (ha : cardStatus q a = none)
      (herr : cardError q a = false) : Goes p q a (p.answered q status)
  | missed (ha : cardStatus q a = none) (herr : cardError q a = false) :
      Goes p q a p

/-- Where a stretch of conversation may take it. -/
inductive PiccAfter : Picc → Said → Picc → Prop where
  | nil {p : Picc} : PiccAfter p [] p
  | cons {p p₁ p' : Picc} {q : Frame} {a : Answer} {said : Said}
      (hgoes : p.Goes q a p₁) (hrest : PiccAfter p₁ said p') :
      PiccAfter p ((q, a) :: said) p'

@[simp] theorem piccAfter_nil {p p' : Picc} : PiccAfter p [] p' ↔ p' = p := by
  constructor
  · intro h
    cases h
    rfl
  · rintro rfl
    exact .nil

theorem piccAfter_cons {p p' : Picc} {q : Frame} {a : Answer} {said : Said} :
    PiccAfter p ((q, a) :: said) p' ↔
      ∃ p₁, p.Goes q a p₁ ∧ PiccAfter p₁ said p' := by
  constructor
  · intro h
    cases h with
    | cons hgoes hrest => exact ⟨_, hgoes, hrest⟩
  · rintro ⟨p₁, hgoes, hrest⟩
    exact .cons hgoes hrest

theorem piccAfter_append {p p' : Picc} {u v : Said} :
    PiccAfter p (u ++ v) p' ↔ ∃ p₁, PiccAfter p u p₁ ∧ PiccAfter p₁ v p' := by
  induction u generalizing p with
  | nil => simp
  | cons qa rest ih =>
      obtain ⟨q, a⟩ := qa
      simp only [List.cons_append, piccAfter_cons, ih]
      constructor
      · rintro ⟨p₁, hgoes, p₂, hrest, htail⟩
        exact ⟨p₂, ⟨p₁, hgoes, hrest⟩, htail⟩
      · rintro ⟨p₂, ⟨p₁, hgoes, hrest⟩, htail⟩
        exact ⟨p₁, hgoes, p₂, hrest, htail⟩

theorem piccAfter_concat {p p' : Picc} {u : Said} {q : Frame} {a : Answer} :
    PiccAfter p (u ++ [(q, a)]) p' ↔ ∃ p₁, PiccAfter p u p₁ ∧
      p₁.Goes q a p' := by
  simp only [piccAfter_append, piccAfter_cons, piccAfter_nil, exists_eq_right']

/-! ## One answer -/

/-- Only the continuation of a handshake opens the session. -/
theorem answered_opens {p : Picc} {q : Frame} {status : UInt8}
    (h : (p.answered q status).session = true) :
    p.session = true ∨ p.finishes q = true := by
  rw [Picc.answered] at h
  split at h
  · cases h
  split at h
  · exact .inl h
  split at h
  · next hdone => exact .inr hdone.2
  split at h
  · cases h
  · exact .inl h

namespace Picc.Goes

variable {p p' : Picc} {q : Frame} {a : Answer}

theorem error (hgoes : p.Goes q a p') (h : cardError q a = true) :
    p'.session = false := by
  cases hgoes with
  | heard ha =>
      rw [cardStatus] at ha
      rw [cardError, answerError, ha] at h
      have hends : statusEndsSession _ = true := h
      rw [Picc.answered, if_pos hends]
  | refused => rfl
  | lost status ha herr => exact Bool.noConfusion (h.symm.trans herr)
  | missed ha herr => exact Bool.noConfusion (h.symm.trans herr)

theorem continues (hgoes : p.Goes q a p')
    (h : cardStatus q a = some dfSAdditionalFrame) :
    p' = ⟨p.belongs q, p.session⟩ := by
  cases hgoes with
  | heard ha =>
      cases h.symm.trans ha
      rfl
  | refused ha herr => cases h.symm.trans ha
  | lost status ha herr => cases h.symm.trans ha
  | missed ha herr => cases h.symm.trans ha

/-- An answer that is lost opens the session as well. -/
theorem opens (hgoes : p.Goes q a p') (h : p'.session = true) :
    p.session = true ∨ p.finishes q = true := by
  cases hgoes with
  | heard ha => exact answered_opens h
  | refused ha herr => cases h
  | lost status ha herr => exact answered_opens h
  | missed ha herr => exact .inl h

theorem foreign (hgoes : p.Goes q a p') (hq : q.opcode = none)
    (h : p'.session = true) : p.session = true := by
  rcases hgoes.opens h with hopen | hdone
  · exact hopen
  · rw [Picc.finishes, hq] at hdone
    cases hdone

end Picc.Goes

/-! ## One command -/

theorem Chained.after {card : Card} {cmd c : UInt8} {pre : Said}
    (hcmd : cmd ≠ dfAdditionalFrame) (h : Chained card cmd pre c) {p p' : Picc}
    (hafter : PiccAfter p pre p') :
    p'.session = p.session ∧
      ∀ q, Carries card c q → p'.belongs q = some cmd := by
  induction h generalizing p' with
  | start =>
      obtain rfl := piccAfter_nil.mp hafter
      refine ⟨rfl, fun q hq => ?_⟩
      rw [Picc.belongs, hq.opcode, if_neg]
      exact fun h => hcmd (Option.some.inj h)
  | next hpre hq ha ih =>
      obtain ⟨p₁, hfront, hgoes⟩ := piccAfter_concat.mp hafter
      obtain ⟨hsession, hbelongs⟩ := ih hfront
      obtain rfl := hgoes.continues ha
      refine ⟨hsession, fun q' hq' => ?_⟩
      rw [Picc.belongs, hq'.opcode, if_pos rfl]
      exact hbelongs _ hq

/-- The opcodes that open no session by themselves, nor continue a command
that does. -/
def Harmless (cmd : UInt8) : Prop :=
  cmd ≠ dfAdditionalFrame ∧ cmd ∉ authOpcodes

instance (cmd : UInt8) : Decidable (Harmless cmd) :=
  inferInstanceAs (Decidable (_ ∧ _))

theorem Chained.opens {card : Card} {cmd c : UInt8} {pre : Said}
    (hcmd : Harmless cmd) (h : Chained card cmd pre c) {p p' : Picc} {q : Frame}
    {a : Answer} (hq : Carries card c q)
    (hafter : PiccAfter p (pre ++ [(q, a)]) p') (hopen : p'.session = true) :
    p.session = true := by
  obtain ⟨p₁, hfront, hgoes⟩ := piccAfter_concat.mp hafter
  obtain ⟨hsession, hbelongs⟩ := h.after hcmd.1 hfront
  rcases hgoes.opens hopen with hold | hdone
  · exact hsession.symm.trans hold
  · obtain ⟨hop, hany⟩ := Bool.and_eq_true_iff.mp hdone
    have hcommand := hbelongs q hq
    rw [Picc.belongs, if_pos (of_decide_eq_true hop)] at hcommand
    rw [hcommand] at hany
    exact absurd (List.contains_iff_mem.mp hany) hcmd.2

/-! ## Calls -/

/-- What a call may make of the PICC. -/
def PiccStep (p : Picc) (st : ApiStep) (p' : Picc) : Prop :=
  PiccAfter p st.said p'

/-- The steps that do not lose track of the card: after them either it has no
session, or it is none of the ways in which the handle gives up its own while
the card keeps one, or the card opens one behind the handle's back. A handshake
that failed is one of these, also when all that failed is the way of its last
answer. -/
def KeepsTrack (st : ApiStep) (p' : Picc) : Prop :=
  p'.session = true →
    match st.call with
    | .data (.command cmd ..) =>
        Harmless cmd ∨ st.before.authenticated = true
    | .changeKey .. | .changeKeyEv2 .. | .rollKeySet _ =>
        ¬ st.call.givesUp st.before
    | .resetChannel | .plusResetAuth => False
    | .authenticate _ _ key _ => key = none ∨ st.result = .ok ()
    | .plusAuthenticate _ _ key first =>
        first = false ∨ (∀ k, key = some k → k.type ≠ .aes128) ∨
          st.result = .ok ()
    | .selectApplication aid => fitsU24 aid = false
    | .ntag424Select => st.result ≠ .ok ()
    | .proximityCheck .. => ¬ ShortPrepare st.said
    | _ => True

/-- The PICC over a call that keeps track of it. -/
def PiccTracked (p : Picc) (st : ApiStep) (p' : Picc) : Prop :=
  PiccStep p st p' ∧ KeepsTrack st p'

/-! ## Calls that tell the PICC nothing new -/

/-- A stretch after which the PICC's session is open only if it was, and then
the handle has not lost its own. -/
def Quiet (card : Card) (said : Said) (card' : Card) : Prop :=
  ∀ p p' : Picc, PiccAfter p said p' → p'.session = true →
    p.session = true ∧
      (card.authenticated = true → card'.authenticated = true)

theorem composes_quiet : Composes Quiet where
  nil _ p p' hafter h := by
    obtain rfl := piccAfter_nil.mp hafter
    exact ⟨h, id⟩
  append hu hv p p' hafter h := by
    obtain ⟨p₁, hfront, htail⟩ := piccAfter_append.mp hafter
    obtain ⟨hmid, hauth₂⟩ := hv _ _ htail h
    obtain ⟨hold, hauth₁⟩ := hu _ _ hfront hmid
    exact ⟨hold, fun hauth => hauth₂ (hauth₁ hauth)⟩

theorem piccAfter_foreign {p p' : Picc} {said : Said}
    (hforeign : ∀ qa ∈ said, qa.1.opcode = none)
    (hafter : PiccAfter p said p') (h : p'.session = true) :
    p.session = true := by
  induction hafter with
  | nil => exact h
  | cons hgoes hrest ih =>
      have hmid := ih (fun qa hqa => hforeign qa (.tail _ hqa)) h
      exact hgoes.foreign (hforeign _ (.head _)) hmid

end Nxpsc
