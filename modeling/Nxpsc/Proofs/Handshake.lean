import Nxpsc.Proofs.TwoPass
import Nxpsc.Ref.Plus

/-!
# What a handshake leaves in the handle

Each handshake is a challenge and its response, and writes to the handle where
it judges the card's proof and nowhere else. What that last step may write is
said once for the three of them; what it keeps, the handshake keeps.
-/

namespace Nxpsc

open Dialogue

/-! ## What the last step writes -/

/-- Where the last step fails the handle is as it was, but for the IV on LRP.
Where it succeeds there is a session, on EV1 with an IV of zeros. -/
structure Closes (channel : Channel) (key : Key) (card : Card)
    (done : Except Err Unit × Card) : Prop where
  cmdset : done.2.cmdset = card.cmdset
  lastStatus : done.2.lastStatus = card.lastStatus
  sessionLost : done.2.sessionLost = card.sessionLost
  cmdCtr : card.cmdCtr = 0 → done.2.cmdCtr = 0
  failed : ∀ e, done.1 = .error e → done.2 = card ∨
    channel = .lrp ∧ done.2 = { card with iv := .zero 16 }
  session : done.1 = .ok () → done.2.authenticated = true ∧
    done.2.channel = channel ∧ done.2.keyType = key.type
  iv : done.1 = .ok () → channel = .ev1 → done.2.iv = .zero 16

section

variable {channel : Channel} {key : Key} {card : Card}
  {done : Except Err Unit × Card}

theorem closes_error (e : Err) : Closes channel key card (.error e, card) where
  cmdset := rfl
  lastStatus := rfl
  sessionLost := rfl
  cmdCtr h := h
  failed _ _ := .inl rfl
  session h := by cases h
  iv h := by cases h

/-- A session that was there is still one, or there is a new one. -/
theorem Closes.authenticated (h : Closes channel key card done)
    (hauth : card.authenticated = true) : done.2.authenticated = true := by
  cases hr : done.1 with
  | ok u => exact (h.session hr).1
  | error e =>
      rcases h.failed e hr with hcard | ⟨-, hcard⟩
      · rw [hcard, hauth]
      · rw [hcard]
        exact hauth

end

/-- A session that was set up. -/
theorem closes_ok {channel : Channel} {key : Key} {card card' : Card}
    (hkept : card'.cmdset = card.cmdset ∧
      card'.lastStatus = card.lastStatus ∧
      card'.sessionLost = card.sessionLost)
    (hctr : card.cmdCtr = 0 → card'.cmdCtr = 0)
    (hsession : card'.authenticated = true ∧ card'.channel = channel ∧
      card'.keyType = key.type)
    (hiv : channel = .ev1 → card'.iv = .zero 16) :
    Closes channel key card (.ok (), card') where
  cmdset := hkept.1
  lastStatus := hkept.2.1
  sessionLost := hkept.2.2
  cmdCtr := hctr
  failed _ h := by cases h
  session _ := hsession
  iv _ := hiv

section

variable [BlockCipher]

theorem closes_legacy (keyNo : UInt8) (key : Key) (channel : Channel)
    (kept : Bytes × LegacyToken) (y : UInt8 × Bytes) (card : Card) :
    Closes channel key card (legacyClosing keyNo key channel kept y card) := by
  rw [legacyClosing]
  split
  · exact closes_error _
  simp only [legacyAccept]
  split
  · exact closes_error _
  split
  · exact closes_error _
  · exact closes_ok ⟨rfl, rfl, rfl⟩ id ⟨rfl, rfl, rfl⟩ fun _ => rfl

theorem closes_ev2 (keyNo : UInt8) (key : Key) (first : Bool)
    (kept : Bytes × Bytes) (y : UInt8 × Bytes) (card : Card) :
    Closes .ev2 key card (ev2Closing keyNo key first kept y card) := by
  rw [ev2Closing]
  by_cases hst : y.1 ≠ dfSOk
  · rw [if_pos hst]
    exact closes_error _
  rw [if_neg hst, ev2Accept]
  by_cases hlen : y.2.length ≠ if first then aesBlock * 2 else aesBlock
  · rw [if_pos hlen]
    exact closes_error _
  rw [if_neg hlen]
  split
  · exact closes_error _
  split
  · exact closes_error _
  · refine closes_ok ⟨?_, ?_, ?_⟩ ?_ ⟨rfl, rfl, rfl⟩ fun _ => rfl
    all_goals cases first
    all_goals first | rfl | exact id | exact fun _ => rfl

theorem closes_lrp (keyNo : UInt8) (key : Key) (first : Bool)
    (kept : Bytes × Bytes) (y : UInt8 × Bytes) (card : Card) :
    Closes .lrp key card (lrpClosing keyNo key first kept y card) := by
  have hcleared : ∀ e : Err, Closes .lrp key card
      (.error e, { card with iv := .zero 16 }) := fun e =>
    { cmdset := rfl
      lastStatus := rfl
      sessionLost := rfl
      cmdCtr := id
      failed := fun _ _ => .inr ⟨rfl, rfl⟩
      session := fun h => by cases h
      iv := fun h => by cases h }
  rw [lrpClosing]
  split
  · exact closes_error _
  simp only [lrpAccept]
  by_cases hlen : y.2.length < if first then aesBlock * 2 else aesBlock
  · rw [if_pos hlen]
    exact hcleared _
  rw [if_neg hlen]
  by_cases hmac : (y.2.drop (if first then aesBlock else 0)).take aesBlock ≠
      lrpCmac (lrpInit (sessionKeyLrp key.data.bytes kept.1 kept.2) 0 true)
        (kept.2 ++ kept.1 ++ if first then y.2.take aesBlock else [])
  · rw [if_pos hmac]
    exact hcleared _
  rw [if_neg hmac]
  refine closes_ok ⟨?_, ?_, ?_⟩ ?_ ⟨rfl, rfl, rfl⟩ fun h => by cases h
  all_goals cases first
  all_goals first | rfl | exact id | exact fun _ => rfl

end

/-! ## The shape of a handshake -/

/-- Two native exchanges, and a last step that ends in a session of the
channel or in none. -/
inductive Handshakes (channel : Channel) (key : Key) : Api Unit → Prop where
  | twoPass {τ : Type} {cmd : UInt8} {data : Bytes}
      {opening : UInt8 × Bytes → Except Err (Bytes × τ)}
      {closing : τ → UInt8 × Bytes → Card → Except Err Unit × Card}
      (closes : ∀ kept y card, Closes channel key card (closing kept y card)) :
      Handshakes channel key
        (Prog.twoPass (rawExchangeEx cmd data 64 false)
          (fun token => rawExchangeEx dfAdditionalFrame token 64 false)
          (fun x _ => opening x) closing)

namespace Handshakes

variable {channel : Channel} {key : Key} {m : Api Unit}

theorem keeps {I : Card → Prop} (h : Handshakes channel key m)
    (hstatus : ∀ card status, I card → I { card with lastStatus := status })
    (hcloses : ∀ card done, Closes channel key card done → I card →
      I done.2) : m.Keeps I := by
  cases h with
  | twoPass closes =>
      exact Prog.keeps_twoPass (keeps_rawExchangeEx hstatus _ _ _ _)
        (fun _ => keeps_rawExchangeEx hstatus _ _ _ _)
        fun kept y card hI => hcloses card _ (closes kept y card) hI

/-- A handshake that fails has at most cleared the IV. -/
theorem spares {I : Card → Prop} (h : Handshakes channel key m)
    (hstatus : ∀ card status, I card → I { card with lastStatus := status })
    (hiv : ∀ card, I card → I { card with iv := .zero 16 }) : m.Spares I := by
  cases h with
  | twoPass closes =>
      refine Prog.spares_twoPass (keeps_rawExchangeEx hstatus _ _ _ _)
        (fun _ => keeps_rawExchangeEx hstatus _ _ _ _)
        fun kept y card e hI he => ?_
      rcases (closes kept y card).failed e he with hcard | ⟨-, hcard⟩
      · rwa [hcard]
      · rw [hcard]
        exact hiv card hI

theorem leaves {P : Card → Prop} (h : Handshakes channel key m)
    (hcloses : ∀ card card', Closes channel key card (.ok (), card') →
      P card') : m.Leaves P := by
  cases h with
  | twoPass closes =>
      refine Prog.leaves_twoPass fun kept y card c card' hdone => ?_
      exact hcloses card card' (hdone ▸ closes kept y card)

end Handshakes

section

variable [BlockCipher]

theorem authLegacy_handshakes (rng : Rng) (keyNo : UInt8) (key : Key)
    (channel : Channel) :
    Handshakes channel key (authLegacy rng keyNo key channel) := by
  rw [authLegacy_twoPass]
  exact .twoPass (closes_legacy keyNo key channel)

theorem authEv2_handshakes (rng : Rng) (keyNo : UInt8) (key : Key)
    (first : Bool) : Handshakes .ev2 key (authEv2 rng keyNo key first) := by
  rw [authEv2_twoPass]
  exact .twoPass (closes_ev2 keyNo key first)

theorem authLrp_handshakes (rng : Rng) (keyNo : UInt8) (key : Key)
    (first : Bool) : Handshakes .lrp key (authLrp rng keyNo key first) := by
  rw [authLrp_twoPass]
  exact .twoPass (closes_lrp keyNo key first)

/-- The call refuses the key or the channel, or shakes hands on it. -/
theorem authenticateOn_cases (rng : Rng) (keyNo : UInt8) (key : Key)
    (channel : Channel) :
    (∃ e, authenticateOn rng keyNo key channel = Prog.fail e) ∨
      channel ≠ .auto ∧
      (channel = .ev2 ∨ channel = .lrp → key.type = .aes128) ∧
      Handshakes channel key (authenticateOn rng keyNo key channel) := by
  unfold authenticateOn
  by_cases hkey : (channel = .ev2 ∨ channel = .lrp) ∧ key.type ≠ .aes128
  · exact .inl ⟨_, if_pos hkey⟩
  have htype : channel = .ev2 ∨ channel = .lrp → key.type = .aes128 :=
    fun h => not_not.mp fun hne => hkey ⟨h, hne⟩
  rw [if_neg hkey]
  cases channel with
  | auto => exact .inl ⟨_, rfl⟩
  | d40 | ev1 =>
      exact .inr ⟨by decide, htype, authLegacy_handshakes rng keyNo key _⟩
  | ev2 => exact .inr ⟨by decide, htype, authEv2_handshakes rng keyNo key true⟩
  | lrp => exact .inr ⟨by decide, htype, authLrp_handshakes rng keyNo key true⟩

/-- What holds of a refusal and of a handshake holds of the call inside a
session. -/
theorem authenticateNonfirst_cases {good : Api Unit → Prop}
    (hget : ∀ f : Card → Api Unit, (∀ card, good (f card)) →
      good (Prog.get >>= f)) (hfail : ∀ e, good (Prog.fail e))
    (hshakes : ∀ channel key m, channel = .ev2 ∨ channel = .lrp →
      Handshakes channel key m → good m) (rng : Rng) (keyNo : UInt8)
    (key : Option Key) : good (authenticateNonfirst rng keyNo key) := by
  cases key with
  | none => exact hfail _
  | some key =>
      refine hget _ fun card => ?_
      split
      · exact hfail _
      split
      · exact hshakes _ _ _ (.inr rfl) (authLrp_handshakes rng keyNo key false)
      split
      · exact hshakes _ _ _ (.inl rfl) (authEv2_handshakes rng keyNo key false)
      · exact hfail _

/-! ## The entry points -/

theorem keeps_authenticateOn {I : Card → Prop} {rng : Rng} {keyNo : UInt8}
    {key : Key} {channel : Channel}
    (hstatus : ∀ card status, I card → I { card with lastStatus := status })
    (hcloses : ∀ card done, Closes channel key card done → I card →
      I done.2) : (authenticateOn rng keyNo key channel).Keeps I := by
  rcases authenticateOn_cases rng keyNo key channel with
    ⟨e, hrefused⟩ | ⟨-, -, hshakes⟩
  · rw [hrefused]
    exact Prog.keeps_fail e
  · exact hshakes.keeps hstatus hcloses

theorem leaves_authenticateOn {P : Card → Prop} {rng : Rng} {keyNo : UInt8}
    {key : Key} {channel : Channel}
    (hcloses : channel ≠ .auto →
      (channel = .ev2 ∨ channel = .lrp → key.type = .aes128) →
      ∀ card card', Closes channel key card (.ok (), card') → P card') :
    (authenticateOn rng keyNo key channel).Leaves P := by
  rcases authenticateOn_cases rng keyNo key channel with
    ⟨e, hrefused⟩ | ⟨hauto, htype, hshakes⟩
  · rw [hrefused]
    exact Prog.leaves_fail e
  · exact hshakes.leaves (hcloses hauto htype)

theorem spares_authenticateOn {I : Card → Prop}
    (hstatus : ∀ card status, I card → I { card with lastStatus := status })
    (hiv : ∀ card, I card → I { card with iv := .zero 16 }) (rng : Rng)
    (keyNo : UInt8) (key : Key) (channel : Channel) :
    (authenticateOn rng keyNo key channel).Spares I := by
  rcases authenticateOn_cases rng keyNo key channel with
    ⟨e, hrefused⟩ | ⟨-, -, hshakes⟩
  · rw [hrefused]
    exact (Prog.keeps_fail e).spares
  · exact hshakes.spares hstatus hiv

theorem spares_nonfirst {I : Card → Prop}
    (hstatus : ∀ card status, I card → I { card with lastStatus := status })
    (hiv : ∀ card, I card → I { card with iv := .zero 16 }) (rng : Rng)
    (keyNo : UInt8) (key : Option Key) :
    (authenticateNonfirst rng keyNo key).Spares I :=
  authenticateNonfirst_cases (fun _ h => Prog.spares_bind Prog.keeps_get h)
    (fun e => (Prog.keeps_fail e).spares)
    (fun _ _ _ _ hshakes => hshakes.spares hstatus hiv) rng keyNo key

theorem keeps_nonfirst {I : Card → Prop}
    (hstatus : ∀ card status, I card → I { card with lastStatus := status })
    (hcloses : ∀ channel key card done, Closes channel key card done →
      I card → I done.2) {rng : Rng} {keyNo : UInt8} {key : Option Key} :
    (authenticateNonfirst rng keyNo key).Keeps I :=
  authenticateNonfirst_cases (fun _ h => Prog.keeps_bind Prog.keeps_get h)
    (fun e => Prog.keeps_fail e)
    (fun _ _ _ _ hshakes => hshakes.keeps hstatus (hcloses _ _)) rng keyNo key

theorem nonfirst_keeps_session (rng : Rng) (keyNo : UInt8)
    (key : Option Key) :
    (authenticateNonfirst rng keyNo key).Keeps (·.authenticated = true) :=
  keeps_nonfirst (fun _ _ h => h)
    fun _ _ _ _ hcloses hauth => hcloses.authenticated hauth

theorem nonfirst_sessionLost (rng : Rng) (keyNo : UInt8) (key : Option Key)
    (lost : Bool) :
    (authenticateNonfirst rng keyNo key).Keeps (·.sessionLost = lost) :=
  keeps_nonfirst (fun _ _ h => h)
    fun _ _ _ _ hcloses hlost => hcloses.sessionLost.trans hlost

/-- What every handshake leaves: a session, on EV1 with an IV of zeros. -/
def FreshSession (card : Card) : Prop :=
  card.authenticated = true ∧ (card.channel = .ev1 → card.iv = .zero 16)

theorem leaves_authenticate (rng : Rng) (keyNo : UInt8) (key : Option Key)
    (channel : Channel) :
    (authenticate rng keyNo key channel).Leaves FreshSession := by
  cases key with
  | none => exact Prog.leaves_fail _
  | some key =>
      refine Prog.leaves_bind fun _ => Prog.leaves_bind fun _ =>
        leaves_authenticateOn fun _ _ card card' hcloses => ?_
      obtain ⟨hauth, hchan, -⟩ := hcloses.session rfl
      exact ⟨hauth, fun hev1 => hcloses.iv rfl (hchan.symm.trans hev1)⟩

theorem authenticate_cmdCtr {rng : Rng} {keyNo : UInt8} {key : Option Key}
    {channel : Channel} {card card' : Card} {script rest : List Answer}
    {said : Said}
    (h : authenticate rng keyNo key channel card script =
      .done said (.ok ()) card' rest) : card'.cmdCtr = 0 := by
  cases key with
  | none => cases h
  | some key =>
      rw [authenticate, Prog.modify_bind, Prog.get_bind] at h
      exact keeps_authenticateOn (fun _ _ hI => hI)
        (fun _ _ hcloses hI => hcloses.cmdCtr hI) _ _ _ _ _ _ rfl h

/-! ## MIFARE Plus -/

/-- What the handshake of MIFARE Plus leaves when it succeeds. -/
def PlusSession (card : Card) : Prop :=
  card.authenticated = true ∧ card.channel = .ev2 ∧ card.keyType = .aes128

theorem plusAccept_ok {keyBlock : UInt16} {key : Key} {first : Bool}
    {ivRead rndA rndB resp : Bytes} {card card' : Card}
    (h : plusAccept keyBlock key first ivRead rndA rndB resp card =
      (.ok (), card')) : PlusSession card' := by
  simp only [plusAccept] at h
  repeat' split at h
  all_goals cases h
  all_goals exact ⟨rfl, rfl, rfl⟩

theorem leaves_plusSession (rng : Rng) (keyBlock : UInt16)
    (key : Option Key) (first : Bool) :
    (plusAuthenticate rng keyBlock key first).Leaves PlusSession := by
  cases key with
  | none => exact Prog.leaves_fail _
  | some key =>
      refine Prog.leaves_ite (Prog.leaves_fail _) (Prog.leaves_bind fun _ =>
        Prog.leaves_bind fun _ => Prog.leaves_ite (Prog.leaves_fail _) ?_)
      exact Prog.leaves_bind fun _ => Prog.leaves_bind fun _ =>
        Prog.leaves_bind fun _ => Prog.leaves_bind fun _ =>
          Prog.leaves_act fun _ _ _ h => plusAccept_ok h

end

end Nxpsc
