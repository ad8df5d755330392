import Nxpsc.Proofs.Acceptance
import Nxpsc.Proofs.Handshake

/-!
# Authentication is sound

Against any card, and with any fault of the link, `nxpsc_authenticate` ends in
one of two ways: the card's answers prove the random number that was drawn, or
there is an error and nothing of a session in the handle. The handle was reset
before the first frame, and a handshake writes to it only behind the proof;
the one field LRP writes earlier, it clears.
-/

namespace Nxpsc

open Dialogue

/-! ## The handle after a failure -/

theorem noSession_status (card : Card) (status : UInt8)
    (h : NoSession card) : NoSession { card with lastStatus := status } :=
  ⟨h.1, h.2, h.3, h.4, h.5, h.6, h.7⟩

theorem noSession_iv (card : Card) (h : NoSession card) :
    NoSession { card with iv := .zero 16 } :=
  ⟨h.1, h.2, h.3, h.4, h.5, rfl, h.7⟩

section

variable [BlockCipher]

/-! ## Two frames -/

theorem authenticate_atMost (rng : Rng) (keyNo : UInt8) (key : Key)
    (channel : Channel) :
    (authenticate rng keyNo (some key) channel).AtMost 2 := by
  refine Prog.atMost_bind (n := 0) (k := 2) (Prog.atMost_act 0 _) fun _ =>
    Prog.atMost_bind (n := 0) (k := 2) (Prog.atMost_act 0 _) fun card => ?_
  generalize (if channel = .auto then pickChannel card key else channel) = chan
  unfold authenticateOn
  refine Prog.atMost_ite (Prog.atMost_act 2 _) ?_
  cases chan with
  | d40 | ev1 =>
      dsimp only
      rw [authLegacy_twoPass]
      exact native_atMost (Nat.le_of_ble_eq_true rfl)
        fun x made => legacyOpening_token
  | ev2 =>
      dsimp only
      rw [authEv2_twoPass]
      exact native_atMost (ev2Data_length keyNo true)
        fun x made => ev2Opening_token
  | lrp =>
      dsimp only
      rw [authLrp_twoPass]
      exact native_atMost (lrpData_length keyNo true)
        fun x made => lrpOpening_token
  | auto => exact Prog.atMost_act 2 _

theorem authenticateOn_ok {rng : Rng} {keyNo : UInt8} {key : Key}
    {chan : Channel} {card card' : Card} {script rest : List Answer}
    {said : Said} {r : Except Err Unit}
    (h : authenticateOn rng keyNo key chan card script =
      .done said r card' rest) :
    r = .ok () ↔ Admissible chan key ∧
      CardProves rng chan true key card.wraps (script.take 2) := by
  unfold authenticateOn at h
  by_cases hkey : (chan = .ev2 ∨ chan = .lrp) ∧ key.type ≠ .aes128
  · rw [if_pos hkey] at h
    cases h
    simp only [reduceCtorEq, false_iff]
    exact fun hall => hkey.2 (hall.1 hkey.1)
  have hadm : Admissible chan key := fun hchan =>
    not_not.mp fun htype => hkey ⟨hchan, htype⟩
  rw [if_neg hkey] at h
  rw [and_iff_right hadm]
  cases chan with
  | d40 => exact authLegacy_ok (.inl rfl) h
  | ev1 => exact authLegacy_ok (.inr rfl) h
  | ev2 => exact authEv2_ok h
  | lrp => exact authLrp_ok h
  | auto =>
      cases h
      simp only [reduceCtorEq, false_iff]
      rintro ⟨rnd, d₁, d₂, -, -, hproves⟩
      exact hproves

/-- `NXPSC_OK` means a card that proved the key; anything else leaves no
session. Two answers are always enough to come to the one or the other. -/
theorem authenticate_sound (rng : Rng) (keyNo : UInt8) (key : Key)
    (channel : Channel) (card : Card) (script : List Answer) :
    (2 ≤ script.length → ∃ said r card' rest,
      authenticate rng keyNo (some key) channel card script =
        .done said r card' rest) ∧
    ∀ said r card' rest,
      authenticate rng keyNo (some key) channel card script =
        .done said r card' rest →
      (r = .ok () ∧ Admissible (chosenChannel card key channel) key ∧
        CardProves rng (chosenChannel card key channel) true key card.wraps
          (script.take 2)) ∨
      ((∃ e, r = .error e) ∧
        ¬ (Admissible (chosenChannel card key channel) key ∧
          CardProves rng (chosenChannel card key channel) true key card.wraps
            (script.take 2)) ∧
        NoSession card') := by
  refine ⟨(authenticate_atMost rng keyNo key channel).done card, ?_⟩
  intro said r card' rest h
  rw [authenticate_run] at h
  have hok := authenticateOn_ok h
  cases r with
  | ok u => exact .inl ⟨rfl, hok.mp rfl⟩
  | error e =>
      refine .inr ⟨⟨e, rfl⟩, ?_,
        spares_authenticateOn noSession_status noSession_iv _ _ _ _ _ _ _ _ _
          _ (noSession_resetChannel card) h⟩
      intro hall
      have := hok.mpr hall
      cases this

end

theorem authenticate_sound_zeros :
    ∃ said card' rest, @authenticate .identity (.ok []) 0 (some zeroKey) .lrp
        (Card.opened none) [.ok [0xAE]] = .done said (.error .auth) card' rest ∧
      NoSession card' := by
  obtain ⟨said, card', rest, hrun⟩ : ∃ said card' rest,
      @authenticate .identity (.ok []) 0 (some zeroKey) .lrp
        (Card.opened none) [.ok [0xAE]] =
          .done said (.error .auth) card' rest :=
    ⟨_, _, _, rfl⟩
  rcases (@authenticate_sound .identity (.ok []) 0 zeroKey .lrp
    (Card.opened none) [.ok [0xAE]]).2 _ _ _ _ hrun with ⟨hok, -⟩ | ⟨-, -, hno⟩
  · cases hok
  · exact ⟨said, card', rest, hrun, hno⟩

end Nxpsc
