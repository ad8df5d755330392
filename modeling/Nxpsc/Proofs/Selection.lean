import Nxpsc.Proofs.IsoAccess

/-!
# What a selection leaves of a session

The native selection resets the handle before it asks the card, and the one of
a DNA tag after the card has accepted. The two general selections by ISO APDU
reset nothing, so a session that the card has dropped stays in the handle.
-/

namespace Nxpsc

open Dialogue

theorem noSession_part {card card' : Card} (h : NoSession card)
    (hpart : card'.sessionPart = card.sessionPart) : NoSession card' where
  authenticated := (congrArg SessionPart.authenticated hpart).trans
    h.authenticated
  channel := (congrArg SessionPart.channel hpart).trans h.channel
  sessionEnc := (congrArg SessionPart.sessionEnc hpart).trans h.sessionEnc
  sessionMac := (congrArg SessionPart.sessionMac hpart).trans h.sessionMac
  ti := (congrArg SessionPart.ti hpart).trans h.ti
  iv := (congrArg SessionPart.iv hpart).trans h.iv
  cmdCtr := (congrArg SessionPart.cmdCtr hpart).trans h.cmdCtr

theorem noSession_part_iff {card card' : Card}
    (hpart : card'.sessionPart = card.sessionPart) :
    NoSession card' ↔ NoSession card :=
  ⟨fun h => noSession_part h hpart.symm, fun h => noSession_part h hpart⟩

section

variable [BlockCipher]

/-! ## Exchanges without a session -/

theorem channelEncode_auto {card : Card} (h : card.channel = .auto)
    (cmd : UInt8) (src : Bytes) (cap : Nat) :
    ∃ zeroLen, channelEncode cmd src cap card =
      (copyOutput cap src,
        { card with lastCmd := cmd, lastRequestZeroLen := zeroLen }) :=
  ⟨_, by simp only [channelEncode, h]; rfl⟩

theorem channelDecode_auto {card : Card} (h : card.channel = .auto)
    (src : Bytes) (status : UInt8) (cap : Nat) :
    channelDecode src status cap card = (copyOutput cap src, card) := by
  rw [channelDecode, h]

/-- Without a channel the request is the data, or none. -/
theorem exchangeRequest_noSession {card : Card} (h : NoSession card)
    (cmd : UInt8) (data : Bytes) (txMode rxMode : Mode) :
    NoSession (exchangeRequest cmd data txMode rxMode card).2 ∧
      ∀ wrapped, (exchangeRequest cmd data txMode rxMode card).1 =
        .ok wrapped → wrapped = data := by
  rw [exchangeRequest]
  split
  · exact ⟨noSession_part h rfl, fun _ h => by cases h⟩
  · obtain ⟨zeroLen, henc⟩ := @channelEncode_auto _
      { card with mode := txMode, macMismatch := false } h.channel
      cmd data maxResponse
    rw [henc]
    refine ⟨noSession_part h rfl, fun wrapped hok => ?_⟩
    simp only [copyOutput] at hok
    split at hok
    · cases hok
    · cases hok
      rfl

theorem exchangeAnswer_noSession {card : Card} (h : NoSession card)
    (rxMode : Mode) (cap : Nat) (status : UInt8) (raw : Bytes) :
    NoSession (exchangeAnswer rxMode cap status raw card).2 := by
  have hlive : ¬ (status ≠ dfSAdditionalFrame ∧ card.authenticated = true ∧
      (card.channel = .ev2 ∨ card.channel = .lrp)) := fun hlive =>
    absurd (h.authenticated.symm.trans hlive.2.1) Bool.false_ne_true
  simp only [exchangeAnswer, if_neg hlive]
  split
  · rw [h.authenticated]
    exact h
  · rw [@channelDecode_auto _ { card with mode := rxMode } h.channel]
    exact noSession_part h rfl

theorem noSession_exchange {card card' : Card} (h : NoSession card)
    {cmd : UInt8} {data : Bytes} {txMode rxMode : Mode} {cap : Nat}
    {said : Said} {r : Except Err Bytes}
    (hends : ExchangeEnds card cmd data txMode rxMode cap said r card') :
    NoSession card' := by
  have hreq := (exchangeRequest_noSession h cmd data txMode rxMode).1
  cases hends with
  | unsent hsent =>
      rw [hsent] at hreq
      exact hreq
  | cut hsent hraw =>
      rw [hsent] at hreq
      obtain ⟨status, rfl⟩ := hraw.frame
      exact noSession_part hreq rfl
  | answered hsent hraw =>
      rw [hsent] at hreq
      obtain ⟨status, rfl⟩ := hraw.frame
      refine exchangeAnswer_noSession ?_ _ _ _ _
      exact noSession_part hreq rfl

theorem sessionEnded_iff {card : Card} :
    SessionEnded card ↔ NoSession card :=
  ⟨fun h => h.noSession, fun h => ⟨h, fun cmd data txMode rxMode =>
    (exchangeRequest_noSession h cmd data txMode rxMode).2⟩⟩

/-! ## The selections -/

/-- The native selection leaves no session once a frame is out. -/
theorem noSession_selectApplication {aid : UInt32} {card card' : Card}
    {script rest : List Answer} {said : Said} {r : Except Err Unit}
    (h : selectApplication aid card script = .done said r card' rest)
    (hsaid : said ≠ []) : NoSession card' := by
  rw [selectApplication] at h
  split at h
  · cases h
    exact absurd rfl hsaid
  rw [Prog.modify_bind] at h
  cases dataCall_runs (fun _ _ => rfl) h with
  | refused hreq => cases hreq
  | exchanged hreq hrun hpart =>
      exact noSession_part (noSession_exchange (noSession_resetChannel card)
        (exchange_done hrun)) hpart

end

/-- An accepted answer is an error only for want of room. -/
theorem isoAnswer_accepted {apdu : Bytes} {a : Answer}
    (h : Accepts (.apdu apdu) a) (cap : Nat) (card : Card) :
    (isoAnswer cap a card).1.isOk =
      decide ((cardData (.apdu apdu) a).length ≤ cap) := by
  obtain ⟨sw, hsw, hgood⟩ := h
  simp only [answerSw] at hsw
  rw [cardData, isoAnswer, answerData]
  cases hrx : transceived maxApdu a with
  | error e =>
      rw [hrx] at hsw
      cases hsw
  | ok rx =>
  rw [hrx] at hsw
  dsimp only at hsw ⊢
  split at hsw
  · cases hsw
  next hlen =>
  cases hsw
  have hok : isoSwOk (rx.getD (rx.length - 2) 0) (rx.getD (rx.length - 1) 0) =
      true := by
    refine decide_eq_true ?_
    rcases hgood with hgood | hgood
    · exact .inl (Prod.mk.inj hgood)
    · exact .inr (.inr hgood)
  have hdata : (if (Frame.apdu apdu).hasSw then rx.take (rx.length - 2)
      else rx.drop 1).length = rx.length - 2 := by
    rw [Frame.hasSw, if_pos rfl, List.length_take]
    omega
  rw [hdata, if_neg hlen]
  by_cases hcap : cap < rx.length - 2
  · rw [if_pos hcap, decide_eq_false (by omega)]
    rfl
  · rw [if_neg hcap, if_pos hok, decide_eq_true (by omega)]
    rfl

/-- The selection of a DNA tag is one APDU. When the card's answer passes, the
session is dropped, and otherwise it stays. -/
theorem ntag424Select_done {card card' : Card} {script rest : List Answer}
    {said : Said} {r : Except Err Unit}
    (h : ntag424Select card script = .done said r card' rest) :
    ∃ apdu a, said = [(.apdu apdu, a)] ∧
      (((isoAnswer 64 a card).1.isOk = true ∧ NoSession card') ∨
        ((isoAnswer 64 a card).1.isOk = false ∧
          card'.sessionPart = card.sessionPart)) := by
  have hpart : ∀ a, (isoAnswer 64 a card).2.sessionPart =
      card.sessionPart := by
    intro a
    simp only [isoAnswer]
    repeat' split
    all_goals rfl
  obtain ⟨apdu, hreq⟩ : ∃ apdu, isoRequest 0x00 isoInsSelect 0x04 0x0C
      ntag424DfName false 0 = .ok (.apdu apdu) := ⟨_, rfl⟩
  rw [ntag424Select, isoSelectDfName, if_neg (by decide)] at h
  refine ⟨apdu, ?_⟩
  rcases Prog.bind_eq_done.mp h with ⟨e, hiso, -⟩ |
    ⟨said₁, u, card₁, rest₁, said₂, hiso, hmod, rfl⟩
  · obtain ⟨r', hiso, hr⟩ := Prog.ignore_eq_done.mp hiso
    obtain ⟨a, -, rfl, rfl, rfl⟩ := (isoExchange_once 64 hreq).done_iff.mp hiso
    refine ⟨a, rfl, .inr ⟨?_, hpart a⟩⟩
    cases hans : (isoAnswer 64 a card).1 with
    | error e => rfl
    | ok x =>
        rw [hans] at hr
        cases hr
  · obtain ⟨r', hiso, hr⟩ := Prog.ignore_eq_done.mp hiso
    obtain ⟨a, -, rfl, rfl, rfl⟩ := (isoExchange_once 64 hreq).done_iff.mp hiso
    cases hmod
    refine ⟨a, rfl, .inl ⟨?_, noSession_resetChannel _⟩⟩
    cases hans : (isoAnswer 64 a card).1 with
    | error e =>
        rw [hans] at hr
        cases hr
    | ok x => rfl

/-- What an accepted selection leaves. -/
theorem noSession_selection [BlockCipher] {st : ApiStep} {q : Frame}
    {a : Answer} (hof : st.Of Call.run) (hacc : SelectionAccepted st q a) :
    NoSession st.after ↔ SelectionDrops st q a := by
  obtain ⟨call, card, said, r, card'⟩ := st
  obtain ⟨script, rest, hrun⟩ := hof
  obtain ⟨hsel, haccept, pre, hsaid⟩ := hacc
  dsimp only at hrun hsel hsaid
  have hstays : call.passes = true →
      (NoSession card' ↔ NoSession card) := fun hpass =>
    noSession_part_iff
      (traces_passes foreignRule_keepsPart hpass _ _ _ _ _ _ hrun)
  cases call with
  | selectApplication aid =>
      refine iff_of_true (noSession_selectApplication hrun ?_) (.inr trivial)
      rw [hsaid]
      exact List.append_ne_nil_of_right_ne_nil _ (List.cons_ne_nil _ _)
  | isoSelectDfName dfName => exact (hstays rfl).trans (or_iff_left id).symm
  | isoSelectFid fid isEf => exact (hstays rfl).trans (or_iff_left id).symm
  | ntag424Select =>
      obtain ⟨apdu, a', rfl, hends⟩ := ntag424Select_done hrun
      obtain ⟨-, rfl, rfl⟩ := said_last_inj
        ((List.nil_append _).trans hsaid)
      rw [isoAnswer_accepted haccept] at hends
      rcases hends with ⟨hroom, hno⟩ | ⟨hfull, hpart⟩
      · exact iff_of_true hno (.inr (of_decide_eq_true hroom))
      · exact (noSession_part_iff hpart).trans
          (or_iff_left (of_decide_eq_false hfull)).symm
  | _ => cases hsel

/-- In any order of calls: behind a selection the card has accepted there is
nothing of a session, exactly where the call drops the session or finds
none. -/
theorem selection_ends_session [BlockCipher] {uid : Option Bytes}
    {steps : List ApiStep} {card' : Card}
    (hrun : ApiRun (Card.opened uid) steps card') :
    ∀ st ∈ steps, ∀ q a, SelectionAccepted st q a →
      (SessionEnded st.after ↔ SelectionDrops st q a) := by
  intro st hst q a hacc
  have hof : ∀ st ∈ steps, st.Of Call.run := hrun.of_mem
  exact sessionEnded_iff.trans (noSession_selection (hof st hst) hacc)

/-! ### Two selections -/

theorem selection_ends_session_native :
    ∃ (st : ApiStep) (q : Frame) (a : Answer) (card' : Card),
      @ApiRun .identity (Card.opened none) [st] card' ∧
      SelectionAccepted st q a ∧
      (@SessionEnded .identity st.after ↔ SelectionDrops st q a) := by
  let q : Frame := .native dfSelectApplication [0x01, 0x00, 0x00]
  obtain ⟨card', hsel⟩ : ∃ card',
      @Call.run .identity (.selectApplication 1) (Card.opened none)
        [.ok [0x00]] = .done [(q, .ok [0x00])] (.ok ()) card' [] := ⟨_, rfl⟩
  let st : ApiStep :=
    ⟨.selectApplication 1, Card.opened none, [(q, .ok [0x00])], .ok (), card'⟩
  have hrun : @ApiRun .identity (Card.opened none) [st] card' :=
    Run.cons_done hsel .nil
  have hacc : SelectionAccepted st q (.ok [0x00]) := ⟨rfl, rfl, [], rfl⟩
  exact ⟨st, q, .ok [0x00], card', hrun, hacc,
    @selection_ends_session .identity none _ _ hrun st (.head _) _ _ hacc⟩

/-- A session, and an ISO selection behind it. -/
theorem iso_selection_keeps_session :
    ¬ ∀ (_ : BlockCipher) (uid : Option Bytes) (steps : List ApiStep)
      (card' : Card), ApiRun (Card.opened uid) steps card' →
      ∀ st ∈ steps, ∀ q a, SelectionAccepted st q a →
        SessionEnded st.after := by
  intro hall
  let q : Frame := .apdu [0x00, 0xA4, 0x01, 0x0C, 0x02, 0xE1, 0x10]
  obtain ⟨said, card, card', hauth, hsel, hlive⟩ :
      ∃ said card card',
      @Call.run .identity (.authenticate (.ok []) 0 (some zeroKey) .ev2)
        (Card.opened none) zeroHandshake = .done said (.ok ()) card [] ∧
      @Call.run .identity (.isoSelectFid 0xE110 false) card
        [.ok [0x90, 0x00]] =
          .done [(q, .ok [0x90, 0x00])] (.ok ()) card' [] ∧
      card'.authenticated = true := ⟨_, _, _, rfl, rfl, rfl⟩
  have hrun := @Run.cons_done _ _ _ _ _ (@Call.run .identity) _ _ _ _ _ _ _ _
    _ hauth (Run.cons_done hsel .nil)
  have haccept : Accepts q (.ok [0x90, 0x00]) := ⟨_, rfl, .inl rfl⟩
  have hended := hall .identity none _ _ hrun _ (.tail _ (.head _)) q _
    ⟨rfl, haccept, [], rfl⟩
  have hno := (@SessionEnded.noSession .identity _ hended).authenticated
  exact Bool.false_ne_true (hno.symm.trans hlive)

end Nxpsc
