import Nxpsc.Proofs.Exchange

/-!
# A card error ends the session, where the library sees it

The session is dropped in `nxpsc_exchange`, on the status its raw exchange
hands up. A raw exchange that fails hands up none: the last answer of the
card is `Unseen` exactly when it fails, and then an error in it leaves the
session as it was.
-/

namespace Nxpsc

open Dialogue

section

variable [BlockCipher]

theorem exchangeAnswer_error {rxMode : Mode} {cap : Nat} {status : UInt8}
    {raw : Bytes} {card : Card} (hauth : card.authenticated = true)
    (hst : statusEndsSession status = true) :
    exchangeAnswer rxMode cap status raw card =
      (.error .card, { resetChannel card with sessionLost := true }) := by
  rw [exchangeAnswer, if_pos hst, if_pos hauth]

/-- An exchange that ends in a card error drops the session exactly when the
error did not escape it. -/
theorem ExchangeEnds.drops_iff {cmd : UInt8} {data : Bytes}
    {txMode rxMode : Mode} {cap : Nat} {card card' : Card} {said : Said}
    {r : Except Err Bytes} (hauth : card.authenticated = true)
    (h : ExchangeEnds card cmd data txMode rxMode cap said r card') :
    ((∃ qa ∈ said, cardError qa.1 qa.2 = true) → SessionDropped r card') ↔
      ¬ ErrorEscapes card.wraps (requestFrames card cmd data.length txMode)
        (said.map Prod.snd) := by
  cases h with
  | unsent hreq =>
      exact iff_of_true (fun ⟨qa, hqa, _⟩ => by cases hqa) not_escapes_nil
  | cut hreq hraw =>
      rename_i card₁ e
      -- a failed raw exchange leaves the session alone
      obtain ⟨lastCmd, zeroLen, iv, mode, hframe⟩ :=
        exchangeRequest_frame hreq
      obtain ⟨status, hraw'⟩ := hraw.frame
      have hlive : card'.authenticated = true := by
        rw [hraw', hframe]
        exact hauth
      have hsw : card₁.wraps = card.wraps := by rw [hframe]; rfl
      rw [← exchangeRequest_ok hreq, ← hsw, ErrorEscapes,
        hraw.escapes_iff fun _ _ => answerError_of_continues]
      constructor
      · rintro hdrop ⟨herr, _⟩
        have hdead := (hdrop herr).noSession.authenticated
        rw [hlive] at hdead
        cases hdead
      · intro hno herr
        exact absurd ⟨herr, _, rfl⟩ hno
  | answered hreq hraw =>
      rename_i card₁ card₂ status
      obtain ⟨lastCmd, zeroLen, iv, mode, hframe⟩ :=
        exchangeRequest_frame hreq
      have hsw : card₁.wraps = card.wraps := by rw [hframe]; rfl
      rw [← exchangeRequest_ok hreq, ← hsw, ErrorEscapes,
        hraw.escapes_iff fun _ _ => answerError_of_continues]
      refine iff_of_true (fun herr => ?_) fun ⟨_, e, he⟩ => by cases he
      obtain ⟨pre, c, q, a, hsaid, -, -⟩ := hraw.shape
      have hst := hraw.status hsaid
      have hlive : card₂.authenticated = true := by
        obtain ⟨status, hraw'⟩ := hraw.frame
        rw [hraw', hframe]
        exact hauth
      replace herr :=
        (hraw.any_iff (fun _ _ => answerError_of_continues) hsaid).mp herr
      rw [answerError, hst] at herr
      rw [exchangeAnswer_error hlive herr]
      exact sessionDropped_lost .card card₂

/-- After a card error the call has failed and the handle has no session,
exactly when the error did not escape the exchange. -/
theorem exchange_error_drops_session {cmd : UInt8} {data : Bytes}
    {txMode rxMode : Mode} {cap : Nat} {card card' : Card}
    {answers rest : List Answer} {said : Said} {r : Except Err Bytes}
    (hauth : card.authenticated = true)
    (h : exchange cmd data txMode rxMode cap card (answers ++ rest) =
      .done said r card' rest) :
    ((∃ qa ∈ said, cardError qa.1 qa.2 = true) → SessionDropped r card') ↔
      ¬ ErrorEscapes card.wraps (requestFrames card cmd data.length txMode)
        answers := by
  have hread : answers = said.map Prod.snd :=
    List.append_cancel_right (reads_exchange _ _ _ _ _ _ _ _ _ _ _ h)
  rw [hread]
  exact (exchange_done h).drops_iff hauth

end

theorem exchange_error_drops_session_read :
    ∃ said r card',
      @exchange .identity dfReadData [0x01] .plain .plain 16 liveEv2
        ([.ok [0x9D]] ++ []) = .done said r card' [] ∧
      (((∃ qa ∈ said, cardError qa.1 qa.2 = true) →
          SessionDropped r card') ↔
        ¬ ErrorEscapes liveEv2.wraps
          (requestFrames liveEv2 dfReadData [0x01].length .plain)
          [.ok [0x9D]]) := by
  refine ⟨_, _, _, rfl, ?_⟩
  exact @exchange_error_drops_session .identity dfReadData [0x01] .plain .plain
    16 liveEv2 _ _ [] _ _ rfl rfl

/-- A request of two frames whose first frame is refused. -/
theorem exchange_error_may_keep_session :
    ¬ ∀ (_ : BlockCipher) (cmd : UInt8) (data : Bytes) (txMode rxMode : Mode)
      (cap : Nat) (card card' : Card) (script rest : List Answer)
      (said : Said) (r : Except Err Bytes),
      card.authenticated = true →
      exchange cmd data txMode rxMode cap card script =
        .done said r card' rest →
      (∃ qa ∈ said, cardError qa.1 qa.2 = true) → SessionDropped r card' := by
  intro hall
  have hdrop := hall .identity dfWriteData (Bytes.zeros 60) .plain .plain 16
    liveEv2 _ [.ok [0x9D]] [] _ _ rfl rfl ⟨_, .head _, rfl⟩
  exact Bool.noConfusion hdrop.noSession.authenticated

end Nxpsc
