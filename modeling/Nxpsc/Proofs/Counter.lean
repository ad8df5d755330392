import Nxpsc.Proofs.Handshake

/-!
# The command counter of EV2 and LRP

The card counts the commands it carried out, the library the answers that
came out of a raw exchange with a success. The two agree as long as no
success stays `Unseen`. Two bytes of counter come round after 65536 commands,
and with them everything that is computed from the counter.
-/

namespace Nxpsc

open Dialogue

/-- The counter of a live session agrees with the card's. -/
def CounterAgrees (n : UInt16) (card : Card) : Prop :=
  card.authenticated = true →
    (card.channel = .ev2 ∨ card.channel = .lrp) ∧ card.cmdCtr = n

theorem status_success {status : UInt8}
    (hst : statusEndsSession status = false)
    (hne : status ≠ dfSAdditionalFrame) :
    (status == dfSOk || status == dfSSignature) = true := by
  simp only [statusEndsSession, bne, Bool.and_eq_false_iff,
    Bool.not_eq_false', beq_iff_eq] at hst
  rcases hst with (hst | hst) | hst
  · rw [hst]; rfl
  · rw [hst]; rfl
  · exact absurd hst hne

section

variable [BlockCipher]

/-- A success in a session counts before it is decoded. -/
theorem exchangeAnswer_counted (rxMode : Mode) (cap : Nat) {status : UInt8}
    (raw : Bytes) (card : Card) (hst : statusEndsSession status = false)
    (hne : status ≠ dfSAdditionalFrame) (hauth : card.authenticated = true)
    (hchan : card.channel = .ev2 ∨ card.channel = .lrp) :
    exchangeAnswer rxMode cap status raw card =
      channelDecode raw status cap
        { card with cmdCtr := card.cmdCtr + 1, mode := rxMode } := by
  have hlive : status ≠ dfSAdditionalFrame ∧ card.authenticated = true ∧
      (card.channel = .ev2 ∨ card.channel = .lrp) := ⟨hne, hauth, hchan⟩
  rw [exchangeAnswer, hst, if_neg Bool.false_ne_true, if_pos hlive]

theorem exchangeAnswer_success (rxMode : Mode) (cap : Nat) {status : UInt8}
    (raw : Bytes) (card : Card) (hst : statusEndsSession status = false)
    (hne : status ≠ dfSAdditionalFrame) :
    ∃ iv mismatch, (exchangeAnswer rxMode cap status raw card).2 =
      { card with
        cmdCtr := if card.authenticated = true ∧
          (card.channel = .ev2 ∨ card.channel = .lrp) then card.cmdCtr + 1
          else card.cmdCtr
        mode := rxMode, iv := iv, macMismatch := mismatch } := by
  simp only [exchangeAnswer, hst, hne, ne_eq, not_false_eq_true, true_and,
    Bool.false_eq_true, if_false]
  obtain ⟨iv, mismatch, h⟩ := channelDecode_frame raw status cap
    { (if card.authenticated = true ∧
          (card.channel = .ev2 ∨ card.channel = .lrp) then
        { card with cmdCtr := card.cmdCtr + 1 } else card) with
      mode := rxMode }
  refine ⟨iv, mismatch, h.trans ?_⟩
  split <;> rfl

/-- One exchange keeps the counters together, if its success is seen. -/
theorem counter_step {st : ExchangeStep} (h : st.Of exchangeOf)
    {n : UInt16} (hI : CounterAgrees n st.before)
    (hseen : ¬ SuccessEscapes st.before.wraps (framesOf st) (answersOf st)) :
    CounterAgrees (cardCounter n st) st.after := by
  obtain ⟨r, -, hends⟩ := exchangeOf_done h
  rw [cardCounter]
  rw [answersOf] at hseen
  generalize st.said = said at hends hseen ⊢
  generalize hafter : st.after = card' at hends ⊢
  cases hends with
  | unsent hreq =>
      obtain ⟨_, _, _, _, rfl⟩ := exchangeRequest_frame hreq
      exact hI
  | cut hreq hraw =>
      rename_i card₁ e
      obtain ⟨_, _, _, _, hframe⟩ := exchangeRequest_frame hreq
      obtain ⟨status, hraw'⟩ := hraw.frame
      have hsw : card₁.wraps = st.before.wraps := by rw [hframe]; rfl
      rw [framesOf, ← exchangeRequest_ok hreq, ← hsw, SuccessEscapes,
        hraw.escapes_iff fun _ _ => answerSuccess_of_continues] at hseen
      have hnone : (said.any fun qa => cardSuccess qa.1 qa.2) = false := by
        rw [Bool.eq_false_iff, ne_eq, List.any_eq_true]
        exact fun hany => hseen ⟨hany, e, rfl⟩
      rw [hnone, hraw', hframe]
      exact hI
  | answered hreq hraw =>
      rename_i card₁ card₂ status
      obtain ⟨_, _, _, _, hframe⟩ := exchangeRequest_frame hreq
      obtain ⟨status', hraw'⟩ := hraw.frame
      have hI₂ : CounterAgrees n card₂ := by
        rw [hraw', hframe]
        exact hI
      rcases hst : statusEndsSession status with _ | _
      · obtain ⟨pre, c, q, a, hsaid, -, -⟩ := hraw.shape
        have hne := hraw.status_ne
        have hone : (said.any fun qa => cardSuccess qa.1 qa.2) = true := by
          rw [List.any_eq_true]
          refine (hraw.any_iff (P := answerSuccess)
            (fun _ _ => answerSuccess_of_continues) hsaid).mpr ?_
          rw [answerSuccess, hraw.status hsaid]
          exact status_success hst hne
        obtain ⟨iv, mismatch, hcard⟩ :=
          exchangeAnswer_success st.call.rxMode st.call.cap _ card₂ hst hne
        rw [hone, hcard]
        intro hauth
        obtain ⟨hchan, hctr⟩ := hI₂ hauth
        refine ⟨hchan, ?_⟩
        rw [if_pos ⟨hauth, hchan⟩, if_pos rfl, hctr]
      · -- the session is over, or there was none
        intro hauth
        rw [exchangeAnswer, if_pos hst] at hauth
        split at hauth
        · cases hauth
        · next hno => exact absurd hauth hno

/-- The counter of a handle agrees with the card's after every exchange of a
session, as long as every success of the card comes out of its exchange. -/
theorem counter_in_step {rng : Rng} {keyNo : UInt8} {key : Option Key}
    {channel : Channel} {card₀ card card' : Card} {script rest : List Answer}
    {said : Said} {steps : List ExchangeStep}
    (hauth : authenticate rng keyNo key channel card₀ script =
      .done said (.ok ()) card rest)
    (hchan : card.channel = .ev2 ∨ card.channel = .lrp)
    (hrun : Run exchangeOf card steps card')
    (hseen : ∀ st ∈ steps,
      ¬ SuccessEscapes st.before.wraps (framesOf st) (answersOf st)) :
    Along cardCounter (fun n st => st.after.authenticated = true →
      st.after.cmdCtr = cardCounter n st) 0 steps := by
  have hI : CounterAgrees 0 card :=
    fun _ => ⟨hchan, authenticate_cmdCtr hauth⟩
  refine (hrun.along CounterAgrees (fun _ st => ¬ SuccessEscapes
    st.before.wraps (framesOf st) (answersOf st)) ?_ hI (along_const hseen)).1
  intro n st hof hI hseen
  have hI' := counter_step hof hI hseen
  exact ⟨fun hauth => (hI' hauth).2, hI'⟩

end

/-! ### Two handshakes and what follows -/

/-- A plain read. -/
def plainRead : Request := ⟨dfReadData, [], .plain, .plain, 4096⟩

/-- 4160 bytes in sixteen frames. -/
def longAnswer : List Answer :=
  List.replicate 15 (.ok (0xAF :: Bytes.zeros 260)) ++
    [.ok (0x00 :: Bytes.zeros 260)]

theorem counter_in_step_read :
    ∃ said card st,
      @authenticate .identity (.ok []) 0 (some zeroKey) .ev2 (Card.opened none)
        zeroHandshake = .done said (.ok ()) card [] ∧
      @Run _ _ _ _ _ (@exchangeOf .identity) card [st] st.after ∧
      Along cardCounter (fun n st => st.after.authenticated = true →
        st.after.cmdCtr = cardCounter n st) 0 [st] := by
  obtain ⟨said, card, said', r, card', hauth, hchan, hread, hsaid, hseen⟩ :
      ∃ said card said' r card',
        @authenticate .identity (.ok []) 0 (some zeroKey) .ev2
          (Card.opened none) zeroHandshake = .done said (.ok ()) card [] ∧
        card.channel = .ev2 ∧
        @exchangeOf .identity plainRead card [.ok [0x00]] =
          .done said' r card' [] ∧
        said'.map Prod.snd = [] ++ [.ok [0x00]] ∧
        ¬ Unseen card.wraps (requestFrames card dfReadData 0 .plain) []
          (.ok [0x00]) :=
    ⟨_, _, _, _, _, rfl, rfl, rfl, rfl, by decide⟩
  have hrun : @Run _ _ _ _ _ (@exchangeOf .identity) card
      [⟨plainRead, card, said', r, card'⟩] card' :=
    .cons_done hread .nil
  refine ⟨said, card, _, hauth, hrun, ?_⟩
  refine @counter_in_step .identity _ _ _ _ _ _ _ _ _ _ _ hauth (.inl hchan)
    hrun fun st hst => ?_
  rw [List.mem_singleton.mp hst, answersOf, hsaid, SuccessEscapes,
    escapes_concat]
  exact fun hun => hseen hun.2

set_option maxRecDepth 20000 in
/-- A read of more than fits: the card completed it, the library did not
count it, and the session goes on. -/
theorem counter_may_fall_behind :
    ¬ ∀ (_ : BlockCipher) (rng : Rng) (keyNo : UInt8) (key : Option Key)
      (channel : Channel) (card₀ card card' : Card)
      (script rest : List Answer) (said : Said) (steps : List ExchangeStep),
      authenticate rng keyNo key channel card₀ script =
        .done said (.ok ()) card rest →
      (card.channel = .ev2 ∨ card.channel = .lrp) →
      Run exchangeOf card steps card' →
      Along cardCounter (fun n st => st.after.authenticated = true →
        st.after.cmdCtr = cardCounter n st) 0 steps := by
  intro hall
  obtain ⟨said, card, said', r, card', hauth, hchan, hread, hlive, hctr⟩ :
      ∃ said card said' r card',
        @authenticate .identity (.ok []) 0 (some zeroKey) .ev2
          (Card.opened none) zeroHandshake = .done said (.ok ()) card [] ∧
        card.channel = .ev2 ∧
        @exchangeOf .identity plainRead card longAnswer =
          .done said' r card' [] ∧
        card'.authenticated = true ∧
        card'.cmdCtr ≠
          cardCounter 0 (⟨plainRead, card, said', r, card'⟩ : ExchangeStep) :=
    ⟨_, _, _, _, _, rfl, rfl, rfl, rfl, by decide⟩
  have hagrees := hall .identity _ _ _ _ _ card card' _ _ said _ hauth
    (.inl hchan) (.cons_done hread .nil)
  exact hctr (hagrees.1 hlive)

end Nxpsc
