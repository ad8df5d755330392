import Nxpsc.Proofs.Applet
import Nxpsc.Proofs.BlockCiphers
import Nxpsc.Proofs.Handshake

/-!
# From the authentication to the last answer

The handshakes of `Agreement`, the messages of `RoundTrip` and the framing of
`Carrier` in one run against one card. The card is the handshake and the
applet put together, and each part of the run is a run against one of them,
seen through `Meets.map`. With the ciphers the library is built with nothing
is left to assume of them.
-/

namespace Nxpsc

open Dialogue

/-! ## Two parties in one -/

section

variable {A : Type} {h : Handshake} {d : Device (Transfer × Option Shared × A)}
  {a : A} {cmdset : CmdSet}

theorem party_refused (p : Phase) (q : Frame) (hp : p = .refused) :
    (h.device.party cmdset p q).2 = .refused := by
  subst hp
  rw [Device.party]
  split
  · rfl
  · rfl

/-- Until the handshake is refused, the card follows it. -/
theorem party_handedOver (p : Phase) (q : Frame)
    (hend : ¬ (h.device.party cmdset p q).2 = .refused) :
    (fromReset h d a).party cmdset (handedOver a p) q =
      ((h.device.party cmdset p q).1,
        handedOver a (h.device.party cmdset p q).2) := by
  rw [Device.party] at hend ⊢
  rw [Device.party]
  split
  · rfl
  · next cmd data hread =>
      simp only [hread] at hend ⊢
      cases p with
      | ready | challenged => rfl
      | opened s => exact absurd rfl hend
      | refused => exact absurd rfl hend

theorem meets_handshake {m : Api Unit} {card card' : Card} {said : Said}
    {r : Except Err Unit} {s : Shared}
    (hmeets : Meets (h.device.party cmdset) m card .ready said r card'
      (.opened s)) :
    Meets ((fromReset h d a).party cmdset) m card (.inl .ready) said r card'
      (.inr (.idle, some s.opened, a)) :=
  hmeets.map (f := handedOver a) party_refused party_handedOver
    Phase.noConfusion

theorem party_applet (p : Transfer × Option Shared × A) (q : Frame) :
    (fromReset h d a).party cmdset (.inr p) q =
      ((d.party cmdset p q).1, .inr (d.party cmdset p q).2) := by
  rw [Device.party, Device.party]
  split
  · rfl
  · rfl

theorem calls_applet {ι α : Type} {call : ι → Api α} {card card' : Card}
    {p p' : Transfer × Option Shared × A} {calls : List ι}
    {results : List (Except Err α)}
    (hcalls : Calls (d.party cmdset) call card p calls results card' p') :
    Calls ((fromReset h d a).party cmdset) call card (.inr p) calls results
      card' (.inr p') := by
  have hnone : ∀ (p : Transfer × Option Shared × A) (q : Frame),
      False → False := fun _ _ h => h
  induction hcalls with
  | nil => exact .nil
  | cons head _ ih =>
      exact .cons (head.map hnone (fun p q _ => party_applet p q) id) ih

end

/-! ## The session that was opened -/

/-- The session of the messages is the one of the handshake. -/
theorem opened_shared {card : Card} (htype : card.keyType = .aes128) :
    card.shared.opened = card.peer := by
  rw [Shared.opened, Card.shared, Card.peer, htype]
  by_cases hlrp : card.channel = .lrp
  · simp only [hlrp, if_true, List.take_take, Nat.min_self]
    rfl
  · simp only [hlrp, if_false]
    rfl

section

variable [c : BlockCipher]

/-- An authentication begins with a reset, and keeps what the handle said of
the command set. -/
theorem keeps_opening (rng : Rng) (keyNo : UInt8) (key : Key)
    (chan : Channel) (cmdset : CmdSet) :
    (authenticateOn rng keyNo key chan).Keeps fun card =>
      card.cmdset = cmdset ∧ card.sessionLost = false :=
  keeps_authenticateOn (fun _ _ h => h) fun _ _ hcloses h =>
    ⟨hcloses.cmdset.trans h.1, hcloses.sessionLost.trans h.2⟩

theorem leaves_aes128 {rng : Rng} {keyNo : UInt8} {key : Key}
    (htype : key.type = .aes128) (chan : Channel) :
    (authenticateOn rng keyNo key chan).Leaves (·.keyType = .aes128) :=
  leaves_authenticateOn fun _ _ _ _ hcloses =>
    (hcloses.session rfl).2.2.trans htype

variable {key : Key} {keyNo : UInt8} {rnd rndB ti caps : Bytes}
  {channel : Channel} {lrp : Bool}

/-- Against a card with the same key the call opens a session, which the card
goes on with. -/
theorem authenticate_opens (hinv : DecryptInverts c) (card : Card)
    (hchosen : chosenChannel card key channel = sessionChannel lrp)
    (htype : key.type = .aes128) (hB : rndB.length = 16)
    (hti : ti.length = 4) (hcaps : caps.length = 12) :
    ∃ said card' s,
      Meets ((firstHandshake (sessionChannel lrp) key.type key.stored keyNo
          rndB ti caps).device.party card.cmdset)
        (authenticate (.ok rnd) keyNo (some key) channel) card .ready said
        (.ok ()) card' (.opened s) ∧
      InSession lrp card' ∧ card'.cmdset = card.cmdset ∧
      s.opened = card'.peer := by
  obtain ⟨said, card', s, hmeets, hauth, hchan, hshared⟩ :
      RunsInto (firstHandshake (sessionChannel lrp) key.type key.stored keyNo
          rndB ti caps)
        (authenticateOn (.ok rnd) keyNo key (sessionChannel lrp))
        (resetChannel card) (sessionChannel lrp) := by
    unfold authenticateOn
    rw [if_neg fun h => h.2 htype]
    cases lrp with
    | false => exact ev2First_runsInto hinv htype hB hti hcaps
    | true => exact lrpFirst_runsInto hinv htype hB hti hcaps
  have hdone := hmeets.run []
  have hreset : (resetChannel card).cmdset = card.cmdset ∧
      (resetChannel card).sessionLost = false := ⟨rfl, rfl⟩
  obtain ⟨hset, hkept⟩ := keeps_opening _ _ _ _ _ _ _ _ _ _ _ hreset hdone
  have hrun := authenticate_run (.ok rnd) keyNo key channel card
  rw [hchosen] at hrun
  refine ⟨said, card', s, Meets.congr hrun hmeets, ⟨hauth, hchan, hkept⟩,
    hset, ?_⟩
  rw [← hshared]
  exact opened_shared (leaves_aes128 htype _ _ _ _ _ _ _ hdone)

/-! ## The whole run -/

section

variable {A : Type} (applet : Applet A)
  (cut : Option Shared × A → Bytes → List Part)
  (joined_cut : ∀ s data, joined (cut s data) = data)

theorem causal_sessionCall (rng : Rng) (keyNo : UInt8) (key : Key)
    (channel : Channel) :
    ∀ call, (sessionCall rng keyNo key channel call).Causal
  | none => Prog.causal_bind (causal_authenticate _ _ _ _) fun _ =>
      Prog.causal_pure _
  | some req => causal_exchanged req

theorem calls_exchanged {P : Type} {party : P → Frame → Answer × P}
    {rng : Rng} {card card' : Card} {p p' : P} {reqs : List Request}
    {results : List (Except Err Bytes)}
    (h : Calls party Request.exchanged card p reqs results card' p') :
    Calls party (sessionCall rng keyNo key channel) card p (reqs.map some)
      results card' p' := by
  induction h with
  | nil => exact .nil
  | cons head _ ih => exact .cons head ih

theorem session_runs (hinv : DecryptInverts c) {card : Card}
    (hchosen : chosenChannel card key channel = sessionChannel lrp)
    (htype : key.type = .aes128) (hB : rndB.length = 16)
    (hti : ti.length = 4) (hcaps : caps.length = 12) {a : A}
    {reqs : List Request}
    (hspeaks : applet.service.Admits applet.Speaks (true, a) reqs) :
    ∃ card' p', Calls
      ((applet.locked cut joined_cut lrp key keyNo rndB ti caps a).party
        card.cmdset)
      (sessionCall (.ok rnd) keyNo key channel) card (.inl .ready)
      (sessionCalls reqs) (.ok [] :: (applet.service.answers (true, a) reqs).1)
      card' (.inr p') ∧
    Together lrp card.cmdset card' p'
      (applet.service.answers (true, a) reqs).2 := by
  obtain ⟨said, card₁, s, hmeets, hin, hset, hpeer⟩ :=
    @authenticate_opens _ _ keyNo rnd _ _ _ _ _ hinv card hchosen htype hB
      hti hcaps
  obtain ⟨card', p', hcalls, hend⟩ :=
    (exchange_refines applet cut joined_cut hinv lrp card₁.cmdset).run
      (.live rfl hin) (p := (.idle, some card₁.peer, a)) hspeaks
  rw [hset] at hcalls hend
  rw [← hpeer] at hcalls
  refine ⟨card', p', .cons (meets_bind (meets_handshake hmeets)
    (meets_act (fun card => (.ok [], card)) _ _)) ?_, hend⟩
  exact calls_exchanged (calls_applet hcalls)

end

end

/-- From any handle on: the authentication opens a session with a card of the
same key, and in it the caller sees the applet. Every run has these results,
and there is one. -/
theorem session_from_reset {A : Type} (applet : Applet A)
    (cut : Option Shared × A → Bytes → List Part)
    (joined_cut : ∀ s data, joined (cut s data) = data) {lrp : Bool}
    {key : Key} (keyNo : UInt8) (rnd : Bytes) {rndB ti caps : Bytes}
    {channel : Channel} (card : Card)
    (hchosen : chosenChannel card key channel = sessionChannel lrp)
    (htype : key.type = .aes128) (hB : rndB.length = 16)
    (hti : ti.length = 4) (hcaps : caps.length = 12) {a : A}
    {reqs : List Request}
    (hspeaks : applet.service.Admits applet.Speaks (true, a) reqs) :
    (∃ card' p', Calls ((@Applet.locked .mbedtls _ applet cut joined_cut lrp
        key keyNo rndB ti caps a).party card.cmdset)
      (@sessionCall .mbedtls (.ok rnd) keyNo key channel) card (.inl .ready)
      (sessionCalls reqs) (.ok [] :: (applet.service.answers (true, a) reqs).1)
      card' p') ∧
    ∀ results card' p', Calls ((@Applet.locked .mbedtls _ applet cut
          joined_cut lrp key keyNo rndB ti caps a).party card.cmdset)
        (@sessionCall .mbedtls (.ok rnd) keyNo key channel) card (.inl .ready)
        (sessionCalls reqs) results card' p' →
      results = .ok [] :: (applet.service.answers (true, a) reqs).1 ∧
        ∃ q, p' = .inr q ∧ Together lrp card.cmdset card' q
          (applet.service.answers (true, a) reqs).2 := by
  obtain ⟨card', q, hrun, hend⟩ := @session_runs .mbedtls key keyNo rnd rndB
    ti caps channel lrp _ applet cut joined_cut decryptInverts_mbedtls card
    hchosen htype hB hti hcaps a reqs hspeaks
  refine ⟨⟨card', .inr q, hrun⟩, ?_⟩
  intro results card₂ p₂ hrun₂
  obtain ⟨rfl, rfl, rfl⟩ := hrun₂.unique
    (@causal_sessionCall .mbedtls _ _ _ _) hrun
  exact ⟨rfl, q, rfl, hend⟩

theorem session_from_reset_turns :
    ∃ card' p', Calls ((@Applet.locked .mbedtls _ turns (fun _ => byteParts)
        (fun _ => joined_byteParts) true zeroKey 0 (Bytes.zeros 16)
        (Bytes.zeros 4) (Bytes.zeros 12) 0).party .native)
      (@sessionCall .mbedtls (.ok []) 0 zeroKey .lrp) (Card.opened none)
      (.inl .ready) (sessionCalls (List.replicate 4 turnsRequest))
      [.ok [], .ok [3, 2, 1], .ok [3, 2, 1], .error .card, .error .auth]
      card' p' :=
  (@session_from_reset _ turns (fun _ => byteParts)
    (fun _ => joined_byteParts) true zeroKey 0 [] (Bytes.zeros 16)
    (Bytes.zeros 4) (Bytes.zeros 12) .lrp (Card.opened none) rfl rfl rfl rfl
    rfl 0 (List.replicate 4 turnsRequest)
    ⟨turns_speaks _, turns_speaks _, turns_speaks _, turns_speaks _,
      trivial⟩).1

end Nxpsc
