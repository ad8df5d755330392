import Nxpsc.Proofs.Agreement
import Nxpsc.Proofs.Handshake
import Nxpsc.Spec.Session

/-!
# Both sides hold the session

A call of `nxpsc_authenticate` is a reset of the handle and one of the four
handshakes, `nxpsc_authenticate_nonfirst` is one of two, and `Agreement`
followed each of them against the card of its channel. A card that holds the
key as the caller does therefore ends in the session of the handle.

The library has only one run against a given card: it asks nothing it was not
led to by the answers before. So what the run of `Agreement` ends in is what
every call ends in.
-/

namespace Nxpsc

open Dialogue

/-! ## The channel -/

theorem ev2ReturnedRndA_first {rndA ti caps : Bytes} (hti : ti.length = 4)
    (hA : rndA.length = 16) :
    ev2ReturnedRndA (ti ++ rol rndA ++ caps) true = rndA := by
  have hrol : (rol rndA).length = 16 := (length_rol rndA).trans hA
  have hlast : (ti ++ rol rndA ++ caps).getD 19 0 = (rol rndA).getD 15 0 := by
    simp only [List.getD_eq_getElem?_getD]
    rw [List.getElem?_append_left (by rw [List.length_append]; omega),
      List.getElem?_append_right (by omega), hti]
  have hmid : ((ti ++ rol rndA ++ caps).drop 4).take 15 =
      (rol rndA).take 15 := by
    rw [List.append_assoc, List.drop_left' hti,
      List.take_append_of_le_length (by omega)]
  rw [ev2ReturnedRndA, if_pos rfl, hlast]
  exact (congrArg _ hmid).trans (unrol hA)

theorem Key.stored_aes {key : Key} (htype : key.type = .aes128) :
    key.stored = key.data.bytes.take aesBlock := by
  rw [Key.stored, htype]
  rfl

/-! ## One run against each card -/

theorem causal_rawExchangeEx (cmd : UInt8) (data : Bytes) (cap : Nat)
    (followAf : Bool) : (rawExchangeEx cmd data cap followAf).Causal := by
  refine Prog.causal_bind (Prog.causal_converse _ _ _) fun first => ?_
  refine Prog.causal_bind ?_ fun last =>
    Prog.causal_bind (Prog.causal_act _) fun _ => Prog.causal_pure _
  exact Prog.causal_ite (Prog.causal_converse _ _ _) (Prog.causal_pure _)

/-- One run that ends in the session of the card is enough. -/
theorem agrees_of_run {h : Handshake} {m : Api Unit} (hm : m.Causal)
    {card card' : Card} {channel : Channel} {said : Said} {session : Shared}
    (hrun : Meets (h.device.party card.cmdset) m card .ready said (.ok ())
      card' (.opened session))
    (hauth : card'.authenticated = true) (hchan : card'.channel = channel)
    (hshared : card'.shared = session) : Agrees h m card channel := by
  refine ⟨⟨said, .ok (), card', _, hrun⟩, ?_⟩
  intro said₂ r card₂ p₂ hrun₂
  obtain ⟨-, rfl, rfl, rfl⟩ := Meets.unique hm hrun hrun₂
  exact ⟨rfl, hauth, hchan, by rw [hshared]⟩

theorem Handshakes.causal {channel : Channel} {key : Key} {m : Api Unit}
    (h : Handshakes channel key m) : m.Causal := by
  cases h with
  | twoPass =>
      exact Prog.causal_twoPass (causal_rawExchangeEx _ _ _ _)
        fun _ => causal_rawExchangeEx _ _ _ _

section

variable [c : BlockCipher]

theorem causal_authenticate (rng : Rng) (keyNo : UInt8) (key : Option Key)
    (channel : Channel) :
    (authenticate rng keyNo key channel).Causal := by
  cases key with
  | none => exact Prog.causal_act _
  | some key =>
      refine Prog.causal_bind (Prog.causal_act _) fun _ =>
        Prog.causal_bind (Prog.causal_act _) fun card => ?_
      rcases authenticateOn_cases rng keyNo key
        (if channel = .auto then pickChannel card key else channel) with
        ⟨e, hrefused⟩ | ⟨-, -, hshakes⟩
      · rw [hrefused]
        exact Prog.causal_act _
      · exact hshakes.causal

theorem SameCipher.stored (key : Key) :
    SameCipher key.type key.stored key.data.bytes := by
  constructor
  · funext block
    rw [ecbEncryptBlock, ecbEncryptBlock, Key.stored, List.take_take,
      Nat.min_self]
  · funext block
    rw [ecbDecryptBlock, ecbDecryptBlock, Key.stored, List.take_take,
      Nat.min_self]

theorem authenticate_run (rng : Rng) (keyNo : UInt8) (key : Key)
    (channel : Channel) (card : Card) (script : List Answer) :
    authenticate rng keyNo (some key) channel card script =
      authenticateOn rng keyNo key (chosenChannel card key channel)
        (resetChannel card) script := by
  rw [authenticate, Prog.modify_bind, Prog.get_bind, chosenChannel]
  rfl

/-- There is a run against the card, into the session both sides hold. -/
def RunsInto (h : Handshake) (m : Api Unit) (card : Card)
    (channel : Channel) : Prop :=
  ∃ said card' session,
    Meets (h.device.party card.cmdset) m card .ready said (.ok ()) card'
      (.opened session) ∧
    card'.authenticated = true ∧ card'.channel = channel ∧
    card'.shared = session

section

variable {key : Key} {keyNo : UInt8} {rnd rndB ti caps : Bytes} {card : Card}

theorem ev2First_runsInto (hinv : DecryptInverts c)
    (htype : key.type = .aes128) (hB : rndB.length = 16)
    (hti : ti.length = 4) (hcaps : caps.length = 12) :
    RunsInto (ev2First key.stored keyNo rndB ti caps)
      (authEv2 (.ok rnd) keyNo key true) card .ev2 := by
  have hsame := SameCipher.stored key
  rw [htype] at hsame
  have hA := Bytes.length_fit aesBlock rnd
  have htake : (ti ++ rol (Bytes.fit aesBlock rnd) ++ caps).take 4 = ti := by
    rw [List.append_assoc, List.take_left' hti]
  obtain ⟨said, card', hmeets, hend⟩ := authEv2_agrees hinv hsame htype true
    (ev2First key.stored keyNo rndB ti caps) keyNo rnd
    (ti ++ rol (Bytes.fit aesBlock rnd) ++ caps) card
    (by simp [ev2First]) rfl hB
    (by
      intro token htoken
      simp only [ev2First, htoken, Option.bind_eq_bind, Option.bind_some]
      rfl)
    (by simp [hti, hcaps, aesBlock]) (ev2ReturnedRndA_first hti hA)
    (by rw [if_pos rfl, if_pos rfl, htake])
  exact ⟨said, card', _, hmeets, hend⟩

theorem lrpFirst_runsInto (hinv : DecryptInverts c)
    (htype : key.type = .aes128) (hB : rndB.length = 16)
    (hti : ti.length = 4) (hcaps : caps.length = 12) :
    RunsInto (lrpFirst key.stored keyNo rndB ti caps)
      (authLrp (.ok rnd) keyNo key true) card .lrp := by
  have hdata : (ti ++ caps).length = 16 := by
    rw [List.length_append, hti, hcaps]
  have hlen := sessionKeyLrp_length key.data.bytes (Bytes.fit aesBlock rnd)
    rndB
  obtain ⟨card', haccept, hend⟩ := lrpAccept_first hinv
    (Bytes.fit aesBlock rnd) rndB hlen htype hdata keyNo
    { card with lastStatus := dfSOk }
  rw [List.take_left' hti] at hend
  have hsent : (lrpSent (sessionKeyLrp key.data.bytes
      (Bytes.fit aesBlock rnd) rndB) lrpZeroCounter (ti ++ caps)).1.length =
        16 := (length_lrpSent _ _ (by rw [hdata]; rfl)).trans hdata
  obtain ⟨said, hmeets⟩ := authLrp_agrees true
    (lrpFirst key.stored keyNo rndB ti caps) keyNo card card'.shared
    (by simp [lrpFirst]) rfl hB
    (by
      intro token htoken
      rw [← Key.stored_aes htype] at htoken
      simp only [lrpFirst, htoken, hend.2.2, Option.bind_eq_bind,
        Option.bind_some]
      rfl)
    (by rw [List.length_append, hsent, lrpCmac_length]; rfl) haccept
  exact ⟨said, card', _, hmeets, hend.1, hend.2.1, rfl⟩

end

end

end Nxpsc
