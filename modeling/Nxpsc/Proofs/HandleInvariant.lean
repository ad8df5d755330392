import Nxpsc.Proofs.Calls
import Nxpsc.Proofs.NonFirst

/-!
# The handle invariant

Four facts tie the session fields of a handle together, and each kind of write
to them has its lemma: the reset, the codecs, the counter, the acceptance of a
proof. The calls are made of these writes. Two of them can go wrong, both by
authenticating without the reset that the others begin with: a non first
handshake of EV2 or LRP takes the type of its key from the caller unchecked,
and the one of MIFARE Plus sets up a session in a handle that still says the
last one was lost.
-/

namespace Nxpsc

open Dialogue

/-! ## One lemma for each kind of write -/

theorem handleOk_opened (uid : Option Bytes) : HandleOk (Card.opened uid) where
  session := iff_of_false Bool.false_ne_true fun h => h rfl
  lost h := absurd h Bool.false_ne_true
  cleared _ := ⟨rfl, rfl, rfl, rfl⟩
  keyType h := by rcases h with h | h <;> cases h

theorem handleOk_reset (card : Card) (lost : Bool) :
    HandleOk { resetChannel card with sessionLost := lost } where
  session := iff_of_false Bool.false_ne_true fun h => h rfl
  lost h := absurd h Bool.false_ne_true
  cleared _ := ⟨rfl, rfl, rfl, rfl⟩
  keyType h := by rcases h with h | h <;> cases h

/-- A handshake that sets up a session. -/
theorem handleOk_session {card : Card} (hauth : card.authenticated = true)
    (hchan : card.channel ≠ .auto) (hlost : card.sessionLost = false)
    (htype : card.channel = .ev2 ∨ card.channel = .lrp →
      card.keyType = .aes128) : HandleOk card where
  session := iff_of_true hauth hchan
  lost _ := hlost
  cleared h := absurd (hauth.symm.trans h) (Bool.noConfusion ·)
  keyType := htype

theorem HandleOk.part {card card' : Card} (h : HandleOk card)
    (hpart : card'.sessionPart = card.sessionPart) : HandleOk card' := by
  cases card
  cases card'
  simp only [Card.sessionPart, SessionPart.mk.injEq] at hpart
  obtain ⟨rfl, rfl, rfl, rfl, rfl, rfl, rfl, rfl, rfl, rfl, rfl⟩ := hpart
  exact ⟨h.session, h.lost, h.cleared, h.keyType⟩

theorem handleOk_status (card : Card) (status : UInt8) (h : HandleOk card) :
    HandleOk { card with lastStatus := status } :=
  ⟨h.session, h.lost, h.cleared, h.keyType⟩

theorem handleOk_iv (card : Card) (h : HandleOk card) :
    HandleOk { card with iv := .zero 16 } :=
  ⟨h.session, h.lost, h.cleared, h.keyType⟩

theorem requestRule_handleOk : RequestRule HandleOk where
  part h hpart := h.part hpart
  reset card := handleOk_reset card false
  lost card := handleOk_reset card true
  iv _ _ h := ⟨h.session, h.lost, h.cleared, h.keyType⟩
  counted _ hauth h :=
    ⟨h.session, h.lost,
      fun hno => absurd (hauth.symm.trans hno) (Bool.noConfusion ·), h.keyType⟩

/-- The half of the invariant that never breaks: a session is on a channel. -/
def OnChannel (card : Card) : Prop :=
  card.authenticated = true ↔ card.channel ≠ .auto

theorem requestRule_onChannel : RequestRule OnChannel where
  part {card card'} h hpart := by
    have hauth : card'.authenticated = card.authenticated :=
      congrArg SessionPart.authenticated hpart
    have hchan : card'.channel = card.channel :=
      congrArg SessionPart.channel hpart
    rwa [OnChannel, hauth, hchan]
  reset _ := iff_of_false Bool.false_ne_true fun h => h rfl
  lost _ := iff_of_false Bool.false_ne_true fun h => h rfl
  iv _ _ h := h
  counted _ _ h := h

theorem handleOk_plusSession {card : Card} (h : PlusSession card) :
    HandleOk card ↔ card.sessionLost = false := by
  obtain ⟨hauth, hchan, htype⟩ := h
  constructor
  · exact fun hI => hI.lost hauth
  · intro hlost
    exact handleOk_session hauth (by rw [hchan]; decide) hlost fun _ => htype

section

variable [BlockCipher]

/-! ## Authentication -/

/-- A session as a handshake leaves it behind a reset. -/
structure Established (card : Card) : Prop where
  auth : card.authenticated = true
  channel : card.channel ≠ .auto
  keyType : card.channel = .ev2 ∨ card.channel = .lrp →
    card.keyType = .aes128

theorem leaves_established (rng : Rng) (keyNo : UInt8) (key : Key)
    (chan : Channel) :
    (authenticateOn rng keyNo key chan).Leaves Established := by
  refine leaves_authenticateOn fun hauto htype card card' hcloses => ?_
  obtain ⟨hauth, hchan, hkt⟩ := hcloses.session rfl
  refine ⟨hauth, fun h => hauto (hchan.symm.trans h), fun h => ?_⟩
  rw [show card'.channel = chan from hchan] at h
  exact hkt.trans (htype h)

theorem HandleOk.authenticate (rng : Rng) (keyNo : UInt8) (key : Option Key)
    (channel : Channel) :
    (Nxpsc.authenticate rng keyNo key channel).Keeps HandleOk := by
  intro card script said r card' rest h hrun
  cases key with
  | none =>
      cases hrun
      exact h
  | some key =>
  rw [authenticate_run] at hrun
  cases r with
  | error e =>
      exact spares_authenticateOn handleOk_status handleOk_iv _ _ _ _ _ _ _ _
        _ _ (handleOk_reset card false) hrun
  | ok u =>
      have hest := leaves_established _ _ _ _ _ _ _ _ _ _ hrun
      have hlost := keeps_authenticateOn (I := (·.sessionLost = false))
        (fun _ _ h => h) (fun _ _ hcloses h => hcloses.sessionLost.trans h)
        _ _ _ _ _ _ rfl hrun
      exact handleOk_session hest.auth hest.channel hlost hest.keyType

/-! ## Authenticating inside a session -/

theorem length_of_cardProves {rng : Rng} {channel : Channel} {first : Bool}
    {key : Key} {sw : Bool} {answers : List Answer}
    (h : CardProves rng channel first key sw answers) :
    answers.length = 2 := by
  obtain ⟨rnd, d₁, d₂, -, ⟨a₁, a₂, rfl, -⟩, -⟩ := h
  rfl

theorem length_of_plusProves {rng : Rng} {key : Key} {iv : Bytes}
    {answers : List Answer} (h : PlusProves rng key iv answers) :
    answers.length = 2 := by
  obtain ⟨rnd, rx₁, rx₂, -, rfl, -⟩ := h
  rfl

/-- What a non first handshake of the channel leaves when it succeeds. -/
theorem nonfirst_leaves {rng : Rng} {keyNo : UInt8} {key : Key}
    {card card' : Card} {script rest : List Answer} {said : Said}
    (h : authenticateNonfirst rng keyNo (some key) card script =
      .done said (.ok ()) card' rest) :
    card'.authenticated = true ∧
      (card'.channel = .ev2 ∨ card'.channel = .lrp) ∧
      card'.keyType = key.type := by
  have hshakes : ∀ {chan : Channel} {m : Api Unit},
      chan = .ev2 ∨ chan = .lrp → Handshakes chan key m →
      m.Leaves fun c => c.authenticated = true ∧
        (c.channel = .ev2 ∨ c.channel = .lrp) ∧ c.keyType = key.type := by
    intro chan m hchan hm
    refine hm.leaves fun _ card' hcloses => ?_
    obtain ⟨hauth, hc, htype⟩ := hcloses.session rfl
    exact ⟨hauth, by rw [show card'.channel = chan from hc]; exact hchan, htype⟩
  exact Prog.leaves_bind (fun card => Prog.leaves_ite (Prog.leaves_fail _)
    (Prog.leaves_ite (hshakes (.inr rfl) (authLrp_handshakes _ _ _ _))
      (Prog.leaves_ite (hshakes (.inl rfl) (authEv2_handshakes _ _ _ _))
        (Prog.leaves_fail _)))) _ _ _ _ _ _ h

theorem handleOk_nonfirst {rng : Rng} {keyNo : UInt8} {key : Option Key}
    {card card' : Card} {script rest : List Answer} {said : Said}
    {r : Except Err Unit} (hI : HandleOk card)
    (h : authenticateNonfirst rng keyNo key card script =
      .done said r card' rest) :
    HandleOk card' ↔ ¬ BreaksHandle (.authenticateNonfirst rng keyNo key) card
      (said.map Prod.snd) := by
  by_cases hno : key = none ∨ card.authenticated = false ∨
      (card.channel ≠ .ev2 ∧ card.channel ≠ .lrp)
  · obtain ⟨-, -, rfl⟩ := authenticateNonfirst_declines hno h
    refine iff_of_true hI ?_
    rcases hno with rfl | hauth | hchan
    · exact id
    · cases key with
      | none => exact id
      | some key =>
          rintro ⟨hauth', -⟩
          cases hauth.symm.trans hauth'
    · cases key with
      | none => exact id
      | some key =>
          rintro ⟨-, hchan', -⟩
          exact hchan'.elim hchan.1 hchan.2
  obtain ⟨k, rfl, hauth', hchan'⟩ := nonfirst_admitted hno
  obtain ⟨⟨-, hread, htwo⟩, hok⟩ := authenticateNonfirst_ok hauth' hchan' h
  have hproved := ok_iff_answers hread htwo
    (fun _ => length_of_cardProves) hok
  cases r with
  | error e =>
      have hnot : ¬ CardProves rng card.channel false k card.wraps
          (said.map Prod.snd) := fun hp => by
        have := hproved.mpr hp
        cases this
      refine iff_of_true ?_ fun hbreaks => hnot hbreaks.2.2.2
      exact spares_nonfirst handleOk_status handleOk_iv _ _ _ _ _ _ _ _ _ hI h
  | ok u =>
      obtain ⟨hauth₁, hchan₁, htype₁⟩ := nonfirst_leaves h
      have hlost : card'.sessionLost = false :=
        nonfirst_sessionLost _ _ _ _ _ _ _ _ _ _ (hI.lost hauth') h
      have hbreaks : BreaksHandle (.authenticateNonfirst rng keyNo (some k))
          card (said.map Prod.snd) ↔ k.type ≠ .aes128 := by
        constructor
        · exact fun hb => hb.2.2.1
        · exact fun hb => ⟨hauth', hchan', hb, hproved.mp rfl⟩
      rw [hbreaks, not_not]
      constructor
      · intro hI'
        exact htype₁.symm.trans (hI'.keyType hchan₁)
      · intro htype
        refine handleOk_session hauth₁ ?_ hlost fun _ => htype₁.trans htype
        rcases hchan₁ with hc | hc
        · rw [hc]
          decide
        · rw [hc]
          decide

/-! ## MIFARE Plus -/

theorem sessionLost_plusAccept (keyBlock : UInt16) (key : Key) (first : Bool)
    (ivRead rndA rndB resp : Bytes) (card : Card) :
    (plusAccept keyBlock key first ivRead rndA rndB resp card).2.sessionLost =
      card.sessionLost := by
  simp only [plusAccept]
  repeat' split
  all_goals rfl

theorem plusAccept_error {keyBlock : UInt16} {key : Key} {first : Bool}
    {ivRead rndA rndB resp : Bytes} {card : Card} {e : Err}
    (h : (plusAccept keyBlock key first ivRead rndA rndB resp card).1 =
      .error e) :
    (plusAccept keyBlock key first ivRead rndA rndB resp card).2 = card := by
  revert h
  simp only [plusAccept]
  repeat' split
  all_goals
    intro h
    first
    | rfl
    | cases h

theorem spares_plusAuthenticate {I : Card → Prop}
    (hstatus : ∀ card status, I card → I { card with lastStatus := status })
    {rng : Rng} {keyBlock : UInt16} {key : Key} {first : Bool}
    (hreset : first = true → ∀ card, I card → I (resetChannel card)) :
    (plusAuthenticate rng keyBlock (some key) first).Spares I := by
  have hpass := keeps_plusTransceive hstatus
  refine Prog.spares_ite (Prog.keeps_fail _).spares (Prog.spares_bind
    (Prog.keeps_act fun card hI => ?_) fun _ => Prog.spares_bind (hpass _)
      fun _ => Prog.spares_ite (Prog.keeps_fail _).spares (Prog.spares_bind
        Prog.keeps_get fun _ => Prog.spares_bind (Prog.keeps_ofExcept _)
          fun _ => Prog.spares_bind (Prog.keeps_ofExcept _) fun _ =>
            Prog.spares_bind (hpass _) fun _ =>
              Prog.spares_act fun card e hI h => ?_))
  · cases first with
    | true => exact hreset rfl card hI
    | false => exact hI
  · rwa [plusAccept_error h]

/-- The first form has nothing of the handle but a reset one. -/
theorem plusAuthenticate_reset {rng : Rng} {keyBlock : UInt16} {key : Key}
    (card : Card) (script : List Answer) (htype : key.type = .aes128) :
    plusAuthenticate rng keyBlock (some key) true card script =
      plusAuthenticate rng keyBlock (some key) true (resetChannel card)
        script := by
  rw [plusAuthenticate, if_neg (not_not.mpr htype), Prog.modify_bind,
    Prog.modify_bind]
  rfl

theorem handleOk_plus {rng : Rng} {keyBlock : UInt16} {key : Option Key}
    {first : Bool} {card card' : Card} {script rest : List Answer}
    {said : Said} {r : Except Err Unit} (hI : HandleOk card)
    (h : plusAuthenticate rng keyBlock key first card script =
      .done said r card' rest) :
    HandleOk card' ↔ ¬ BreaksHandle (.plusAuthenticate rng keyBlock key first)
      card (said.map Prod.snd) := by
  cases key with
  | none =>
      cases h
      exact iff_of_true hI id
  | some key =>
  by_cases htype : key.type = .aes128
  swap
  · rw [plusAuthenticate, if_pos htype] at h
    cases h
    refine iff_of_true hI fun hbreaks => ?_
    cases first with
    | true => exact hbreaks
    | false => exact htype hbreaks.1
  have hlost : ∀ b, (first = true → b = false) →
      (plusAuthenticate rng keyBlock (some key) first).Keeps
        (·.sessionLost = b) := fun b hb =>
    keeps_plusAuthenticate (fun _ _ h => h) (fun hf _ _ => (hb hf).symm)
      fun _ _ _ _ _ h => (sessionLost_plusAccept _ _ _ _ _ _ _ _).trans h
  have herror : ∀ {e}, r = .error e → HandleOk card' := by
    rintro e rfl
    exact spares_plusAuthenticate handleOk_status
      (fun _ card _ => handleOk_reset card false) _ _ _ _ _ _ hI h
  cases first with
  | true =>
      refine iff_of_true ?_ id
      cases r with
      | error e => exact herror rfl
      | ok u =>
      refine (handleOk_plusSession (leaves_plusSession _ _ _ _ _ _ _ _ _ _
        h)).mpr ?_
      rw [plusAuthenticate_reset card script htype] at h
      exact hlost false (fun _ => rfl) _ _ _ _ _ _ rfl h
  | false =>
  obtain ⟨⟨-, hread, htwo⟩, hok⟩ := plusNonFirst_ok htype h
  have hproved := ok_iff_answers hread htwo (fun _ => length_of_plusProves) hok
  cases r with
  | error e =>
      refine iff_of_true (herror rfl) fun hbreaks => ?_
      have := hproved.mpr hbreaks.2.2
      cases this
  | ok u =>
      rw [handleOk_plusSession (leaves_plusSession _ _ _ _ _ _ _ _ _ _ h),
        hlost card.sessionLost (fun h => absurd h Bool.false_ne_true)
          _ _ _ _ _ _ rfl h]
      constructor
      · intro hkept hbreaks
        cases hkept.symm.trans hbreaks.2.1
      · intro hno
        refine Bool.eq_false_of_not_eq_true fun hwas => hno ?_
        exact ⟨htype, hwas, hproved.mp rfl⟩

/-! ## Runs -/

/-- One call keeps the invariant exactly where it is not one of the two. -/
theorem handleOk_step (st : ApiStep) (hof : st.Of Call.run)
    (hI : HandleOk st.before) :
    HandleOk st.after ↔
      ¬ BreaksHandle st.call st.before (st.said.map Prod.snd) := by
  obtain ⟨call, card, said, r, card'⟩ := st
  obtain ⟨script, rest, hrun⟩ := hof
  dsimp only at hrun hI ⊢
  cases hquiet : call.quiet with
  | true =>
      refine iff_of_true
        (requestRule_handleOk.keeps hquiet _ _ _ _ _ _ hI hrun) ?_
      cases call with
      | authenticateNonfirst rng keyNo key => cases hquiet
      | plusAuthenticate rng keyBlock key first => cases hquiet
      | _ => exact id
  | false =>
  cases hreq : call.request with
  | some request =>
      refine iff_of_true (requestRule_handleOk.request hI hreq hrun) ?_
      cases call with
      | authenticateNonfirst rng keyNo key => cases hreq
      | plusAuthenticate rng keyBlock key first => cases hreq
      | _ => exact id
  | none =>
  cases call with
  | authenticate rng keyNo key channel =>
      exact iff_of_true (HandleOk.authenticate _ _ _ _ _ _ _ _ _ _ hI hrun) id
  | authenticateNonfirst rng keyNo key => exact handleOk_nonfirst hI hrun
  | selectApplication aid =>
      exact iff_of_true
        (requestRule_handleOk.selectApplication _ _ _ _ _ _ _ hI hrun) id
  | plusAuthenticate rng keyBlock key first => exact handleOk_plus hI hrun
  | data | identify | getCardUid | changeKey | changeKeyEv2 | rollKeySet =>
      cases hreq
  | _ => cases hquiet

/-- From `nxpsc_open` on the invariant holds as long as none of the two calls
breaks it. -/
theorem handle_invariant (uid : Option Bytes) (steps : List ApiStep)
    (card' : Card) (hrun : ApiRun (Card.opened uid) steps card') :
    HandleOk (Card.opened uid) ∧
      ((∀ st ∈ steps, HandleOk st.after) ↔
        ∀ st ∈ steps,
          ¬ BreaksHandle st.call st.before (st.said.map Prod.snd)) :=
  ⟨handleOk_opened uid,
    hrun.invariant_iff handleOk_step (handleOk_opened uid)⟩

/-! ## Sessions and channels -/

theorem onChannel_step (st : ApiStep) (hof : st.Of Call.run)
    (hI : OnChannel st.before) : OnChannel st.after := by
  obtain ⟨call, card, said, r, card'⟩ := st
  obtain ⟨script, rest, hrun⟩ := hof
  dsimp only at hrun hI ⊢
  have hstatus : ∀ (card : Card) (status : UInt8), OnChannel card →
      OnChannel { card with lastStatus := status } := fun _ _ h => h
  have hiv : ∀ card : Card, OnChannel card →
      OnChannel { card with iv := .zero 16 } := fun _ h => h
  cases hquiet : call.quiet with
  | true => exact requestRule_onChannel.keeps hquiet _ _ _ _ _ _ hI hrun
  | false =>
  cases hreq : call.request with
  | some request => exact requestRule_onChannel.request hI hreq hrun
  | none =>
  cases call with
  | authenticate rng keyNo key channel =>
      cases key with
      | none =>
          cases hrun
          exact hI
      | some key =>
      rw [Call.run, authenticate_run] at hrun
      cases r with
      | error e =>
          exact spares_authenticateOn hstatus hiv _ _ _ _ _ _ _ _ _ _
            (requestRule_onChannel.reset card) hrun
      | ok u =>
          have hest := leaves_established _ _ _ _ _ _ _ _ _ _ hrun
          exact iff_of_true hest.auth hest.channel
  | authenticateNonfirst rng keyNo key =>
      cases key with
      | none =>
          cases hrun
          exact hI
      | some key =>
      cases r with
      | error e =>
          exact spares_nonfirst hstatus hiv rng keyNo (some key) _ _ _ _ _ _
            hI hrun
      | ok u =>
          obtain ⟨hauth, hchan, -⟩ := nonfirst_leaves hrun
          refine iff_of_true hauth ?_
          rcases hchan with hc | hc
          · rw [hc]
            decide
          · rw [hc]
            decide
  | selectApplication aid =>
      exact requestRule_onChannel.selectApplication _ _ _ _ _ _ _ hI hrun
  | plusAuthenticate rng keyBlock key first =>
      cases key with
      | none =>
          cases hrun
          exact hI
      | some key =>
      cases r with
      | error e =>
          exact spares_plusAuthenticate hstatus
            (fun _ card _ => requestRule_onChannel.reset card) _ _ _ _ _ _ hI
            hrun
      | ok u =>
          obtain ⟨hauth, hchan, -⟩ := leaves_plusSession rng keyBlock
            (some key) first _ _ _ _ _ _ hrun
          exact iff_of_true hauth (by rw [hchan]; decide)
  | data | identify | getCardUid | changeKey | changeKeyEv2 | rollKeySet =>
      cases hreq
  | _ => cases hquiet

/-- In every state of every run a handle without a session has no channel. -/
theorem onChannel_reachable {uid : Option Bytes} {steps : List ApiStep}
    {card : Card} (hrun : ApiRun (Card.opened uid) steps card) :
    OnChannel card :=
  hrun.keeps onChannel_step (handleOk_opened uid).session

end

theorem handle_invariant_authenticated :
    ∃ card said, @ApiRun .identity (Card.opened none)
      [⟨.authenticate (.ok []) 0 (some zeroKey) .ev2, Card.opened none, said,
        .ok (), card⟩] card ∧ HandleOk card := by
  obtain ⟨said, card, hauth⟩ : ∃ said card,
      @Call.run .identity (.authenticate (.ok []) 0 (some zeroKey) .ev2)
        (Card.opened none) zeroHandshake = .done said (.ok ()) card [] :=
    ⟨_, _, rfl⟩
  have hrun : @ApiRun .identity (Card.opened none)
      [⟨.authenticate (.ok []) 0 (some zeroKey) .ev2, Card.opened none, said,
        .ok (), card⟩] card := .cons_done hauth .nil
  have hall := (@handle_invariant .identity none _ _ hrun).2.mpr
    fun st hst => by
    rw [List.mem_singleton.mp hst]
    exact id
  exact ⟨card, said, hrun, hall _ (.head _)⟩

/-- A second handshake with the key under another type. -/
theorem handle_invariant_may_break :
    ¬ ∀ (_ : BlockCipher) (uid : Option Bytes) (steps : List ApiStep)
      (card' : Card), ApiRun (Card.opened uid) steps card' →
      HandleOk card' := by
  intro hall
  obtain ⟨said, card, said', card', hauth, hagain, hchan, htype⟩ :
      ∃ said card said' card',
      @Call.run .identity (.authenticate (.ok []) 0 (some zeroKey) .ev2)
        (Card.opened none) zeroHandshake = .done said (.ok ()) card [] ∧
      @Call.run .identity (.authenticateNonfirst (.ok []) 0
          (some ⟨.k2k3des, .zero 32, 0⟩)) card
        [.ok (0xAF :: Bytes.zeros 16), .ok (0x00 :: Bytes.zeros 16)] =
          .done said' (.ok ()) card' [] ∧
      card'.channel = .ev2 ∧ card'.keyType = .k2k3des :=
    ⟨_, _, _, _, rfl, rfl, rfl, rfl⟩
  have hrun : @ApiRun .identity (Card.opened none)
      [ ⟨.authenticate (.ok []) 0 (some zeroKey) .ev2, Card.opened none, said,
          .ok (), card⟩,
        ⟨.authenticateNonfirst (.ok []) 0 (some ⟨.k2k3des, .zero 32, 0⟩), card,
          said', .ok (), card'⟩ ] card' :=
    .cons_done hauth (.cons_done hagain .nil)
  have haes := (hall .identity none _ _ hrun).keyType (.inl hchan)
  cases htype.symm.trans haes

end Nxpsc
