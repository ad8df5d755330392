import Nxpsc.Proofs.Exchange
import Nxpsc.Spec.Picc

/-!
# The proximity check, exchange by exchange

`nxpsc_proximity_check` goes past `nxpsc_exchange`: it makes its raw exchanges
itself and resets the handle itself on a bad status. What holds of a raw
exchange, of one with a reset behind it, and composes, holds of the whole
check, but for the exit on a PreparePC answer that is too short.
-/

namespace Nxpsc

open Dialogue

theorem firstCommand_eq {pre post : Said} {q : Frame} {a : Answer}
    (hpre : ∀ qa ∈ pre, cardStatus qa.1 qa.2 = some dfSAdditionalFrame)
    (hend : cardStatus q a ≠ some dfSAdditionalFrame) :
    firstCommand (pre ++ (q, a) :: post) = pre ++ [(q, a)] := by
  induction pre with
  | nil =>
      rw [List.nil_append, firstCommand, if_neg hend]
      rfl
  | cons qa rest ih =>
      rw [List.cons_append, firstCommand, if_pos (hpre qa (.head _)),
        ih fun qa' hqa => hpre qa' (.tail _ hqa)]
      rfl

theorem pcStatus_ends {status : UInt8} (hbad : pcStatusOk status = false)
    (hne : status ≠ dfSAdditionalFrame) : statusEndsSession status = true := by
  rw [pcStatusOk, Bool.or_eq_false_iff, beq_eq_false_iff_ne,
    beq_eq_false_iff_ne] at hbad
  simp [statusEndsSession, hbad.1, hbad.2, hne]

theorem pcStatus_success {status : UInt8} {q : Frame} {a : Answer}
    (hok : pcStatusOk status = true) (ha : cardStatus q a = some status) :
    cardSuccess q a = true := by
  rw [cardStatus] at ha
  rw [cardSuccess, answerSuccess, ha]
  exact hok

/-- What the check is made of stands in `R`. -/
structure RawRule (R : Card → Said → Card → Prop) : Prop where
  composes : Composes R
  raw : ∀ {card card' : Card} {cmd : UInt8} {n cap : Nat} {said : Said}
    {r : Except Err (UInt8 × Bytes)}, Harmless cmd →
    RawEnds card cmd n cap true said r card' → R card said card'
  dropped : ∀ {card card' : Card} {cmd status : UInt8} {n cap : Nat}
    {said : Said} {data : Bytes}, statusEndsSession status = true →
    RawEnds card cmd n cap true said (.ok (status, data)) card' →
    R card said (resetChannel card')

section

variable {R : Card → Said → Card → Prop}

/-- An answer that ends the check: the session is given up. -/
theorem RawRule.refused (hR : RawRule R) {α : Type} {cmd : UInt8}
    {n cap : Nat} {said said' : Said} {answer : UInt8 × Bytes}
    {card card₁ card' : Card} {script rest : List Answer} {r : Except Err α}
    (hends : RawEnds card cmd n cap true said (.ok answer) card₁)
    (hbad : pcStatusOk answer.1 = false)
    (h : (dropSession .card : Api α) card₁ script = .done said' r card' rest) :
    R card (said ++ said') card' := by
  rw [dropSession, Prog.modify_bind, Prog.fail_run] at h
  cases h
  rw [List.append_nil]
  exact hR.dropped (pcStatus_ends hbad hends.status_ne) hends

theorem RawRule.exchange (hR : RawRule R) {α : Type} {cmd : UInt8}
    {data : Bytes} {cap : Nat} (hcmd : Harmless cmd)
    {next : UInt8 × Bytes → Api α}
    (hnext : ∀ answer, (next answer).Traces R) :
    (rawExchange cmd data cap >>= fun answer =>
      if pcStatusOk answer.1 = false then dropSession .card
      else next answer).Traces R := by
  intro card script said r card' rest h
  rcases Prog.bind_eq_done.mp h with ⟨e, hraw, -⟩ |
    ⟨said₁, answer, card₁, rest₁, said₂, hraw, hrest, rfl⟩
  · exact hR.raw hcmd (rawExchangeEx_done hraw)
  · have hends := rawExchangeEx_done hraw
    split at hrest
    · next hbad => exact hR.refused hends hbad hrest
    · exact hR.composes.append (hR.raw hcmd hends)
        (hnext answer _ _ _ _ _ _ hrest)

theorem RawRule.rounds (hR : RawRule R) (split left : Nat)
    (rest exchanged : Bytes) :
    (pcRounds split left rest exchanged).Traces R := by
  induction left generalizing rest exchanged with
  | zero => exact Prog.traces_pure hR.composes _
  | succ left ih =>
      rw [pcRounds]
      refine Prog.traces_ite (Prog.traces_fail hR.composes _) ?_
      exact hR.exchange (by decide) fun answer => ih _ _

theorem RawRule.proximityCheck [BlockCipher] (hR : RawRule R) {rng : Rng}
    {pcKey : Key} {rounds : Nat} {card card' : Card}
    {script rest : List Answer} {said : Said} {r : Except Err Unit}
    (hprep : ¬ ShortPrepare said)
    (h : proximityCheck rng pcKey rounds card script =
      .done said r card' rest) : R card said card' := by
  rw [Nxpsc.proximityCheck] at h
  split at h
  · cases h
    exact hR.composes.nil card
  split at h
  · cases h
    exact hR.composes.nil card
  cases hrng : randomBytes rng pcChallengeLen with
  | error e =>
      rw [hrng, Prog.ofExcept_error_bind, Prog.fail_run] at h
      cases h
      exact hR.composes.nil card
  | ok challenge =>
  rw [hrng, Prog.ofExcept_ok_bind] at h
  rcases Prog.bind_eq_done.mp h with ⟨e, hraw, -⟩ |
    ⟨said₂, prep, card₂, rest₂, said₃, hraw, hrest, rfl⟩
  · exact hR.raw (by decide) (rawExchangeEx_done hraw)
  have hends := rawExchangeEx_done hraw
  split at hrest
  · next hbad => exact hR.refused hends hbad hrest
  next hok =>
  refine hR.composes.append (hR.raw (by decide) hends) ?_
  cases hopt : pcOptions prep.2 with
  | none =>
      -- the one exit on which the card keeps its session
      refine absurd ?_ hprep
      obtain ⟨hdata, pre, q, a, rfl, ha⟩ := hends.answer
      obtain ⟨pre', c, q', a', hsaid, hch, -⟩ := hends.shape
      obtain ⟨rfl, rfl, rfl⟩ := said_last_inj hsaid
      have hfirst : firstCommand (pre ++ [(q, a)] ++ said₃) =
          pre ++ [(q, a)] := by
        rw [List.append_assoc]
        refine firstCommand_eq hch.continues ?_
        rw [ha]
        exact fun heq => hends.status_ne (Option.some.inj heq)
      rw [ShortPrepare, hfirst]
      refine ⟨?_, pre, q, a, rfl, pcStatus_success (by simpa using hok) ha⟩
      rw [← hopt, hdata]
      rfl
  | some options =>
    have hmatch : ∀ options : Bytes, (do
        let exchanged ←
          pcRounds (pcChallengeLen / rounds) rounds challenge []
        let mac ← Prog.ofExcept
          (cmac8 pcKey.data.bytes (dfVerifyPc :: (options ++ exchanged)))
        let verify ← rawExchange dfVerifyPc mac 32
        if pcStatusOk verify.1 = false then dropSession .card
        else if verify.2.length < pcMacLen then Prog.fail .length
        else
          let expected ← Prog.ofExcept
            (cmac8 pcKey.data.bytes (dfSSignature :: (options ++ exchanged)))
          if verify.2.take pcMacLen ≠ expected then Prog.fail .auth
          else pure () : Api Unit).Traces R := by
      intro options
      refine Prog.traces_bind hR.composes (hR.rounds _ _ _ _)
        fun exchanged => Prog.traces_bind hR.composes
          (Prog.traces_ofExcept hR.composes _) fun mac =>
            hR.exchange (by decide) fun verify =>
              Prog.traces_ite (Prog.traces_fail hR.composes _) ?_
      exact Prog.traces_bind hR.composes
        (Prog.traces_ofExcept hR.composes _) fun expected =>
          Prog.traces_ite (Prog.traces_fail hR.composes _)
            (Prog.traces_pure hR.composes _)
    rw [hopt] at hrest
    exact hmatch _ _ _ _ _ _ _ hrest

end

end Nxpsc
