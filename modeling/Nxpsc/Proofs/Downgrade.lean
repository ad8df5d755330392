import Nxpsc.Proofs.ErrorEscape
import Nxpsc.Proofs.Calls
import Nxpsc.Proofs.Handshake
import Nxpsc.Proofs.ProximityCheck

/-!
# After a session was lost

The library remembers in `session_lost` that the card threw a session away,
and `nxpsc_exchange` refuses what the caller wants protected until the caller
starts anew. What was lost is followed here through a run, without the handle:
from an error of the card in a session to the next start. Along a run of steps
as `KeepsLost` has them the flag is set and stays set, and while it is set a
protected call is refused, but for the calls that `bypasses` lists.
-/

namespace Nxpsc

open Dialogue

/-! ## While the flag is set -/

theorem eff_live (card : Card) (channel : Channel) (mode : Mode) :
    eff (card.live channel) mode = mode := by
  rw [eff, if_neg]
  exact fun h => Bool.noConfusion h.1

theorem eff_lost {card : Card} (hlost : card.sessionLost = true) (mode : Mode) :
    eff card mode = mode := by
  rw [eff, if_neg]
  rw [hlost]
  exact fun h => Bool.noConfusion h.2

theorem macRequest_lost {card : Card} (hlost : card.sessionLost = true)
    (channel : Channel) (cmd : UInt8) (data : Bytes) (cap : Nat) :
    macRequest cmd data cap card =
      macRequest cmd data cap (card.live channel) := by
  rw [macRequest, macRequest, eff_live, eff_lost hlost]

theorem readRequest_lost {card : Card} (hlost : card.sessionLost = true)
    (channel : Channel) (native chained : UInt8) (data : Bytes)
    (comm : CommMode) (cap : Nat) :
    readRequest native chained data comm cap card =
      readRequest native chained data comm cap (card.live channel) := by
  rw [readRequest, readRequest, eff_live, eff_lost hlost]
  rfl

theorem writeRequest_lost {card : Card} (hlost : card.sessionLost = true)
    (channel : Channel) (cmd : UInt8) (data : Bytes) (comm : CommMode) :
    writeRequest cmd data comm card =
      writeRequest cmd data comm (card.live channel) := by
  rw [writeRequest, writeRequest, eff_live, eff_lost hlost]

/-- The commands that check for a session themselves. -/
theorem guarded_lost (card : Card) (channel : Channel)
    (x : Except Err Request) :
    (if card.authenticated = false then .error .auth else x) =
        (.error .auth : Except Err Request) ∨
      (if card.authenticated = false then .error .auth else x) =
        if (card.live channel).authenticated = false then .error .auth
        else x := by
  have hlive : ¬ (card.live channel).authenticated = false :=
    Bool.noConfusion
  rw [if_neg hlive]
  cases card.authenticated with
  | true => exact .inr rfl
  | false => exact .inl rfl

theorem setConfiguration_lost (card : Card) (channel : Channel)
    (option : UInt8) (data : Bytes) :
    setConfigurationRequest option data card = .error .auth ∨
      setConfigurationRequest option data card =
        setConfigurationRequest option data (card.live channel) := by
  rw [setConfigurationRequest, setConfigurationRequest]
  split
  · exact .inr rfl
  · exact guarded_lost card channel _

theorem changeFileSettings_lost (card : Card) (channel : Channel)
    (fileNo : UInt8) (data : Bytes) :
    changeFileSettingsRawRequest fileNo data card = .error .auth ∨
      changeFileSettingsRawRequest fileNo data card =
        changeFileSettingsRawRequest fileNo data (card.live channel) := by
  rw [changeFileSettingsRawRequest, changeFileSettingsRawRequest]
  split
  · exact .inr rfl
  · exact guarded_lost card channel _

/-- A data command asks for the same as in a live session, or is refused. -/
theorem dataCommand_lost {d : DataCommand} {card : Card}
    (hlost : card.sessionLost = true) (channel : Channel) :
    d.request card = .error .auth ∨
      d.request card = d.request (card.live channel) ∨
      (∀ req, d.request (card.live channel) = .ok req →
        req.txMode = .plain) ∨
      (Call.data d).bypasses card := by
  cases d with
  | getVersion | getFreeMemory | getSignature =>
      right
      right
      left
      intro req hok
      cases hok
      rfl
  | restrictMfcUpdate | notifyTransactionSuccess =>
      cases hauth : card.authenticated with
      | false => exact .inr (.inr (.inr ⟨hauth, trivial⟩))
      | true =>
          right
          left
          simp only [DataCommand.request, restrictMfcUpdateRequest,
            notifyTransactionSuccessRequest, effMode, hauth]
          rfl
  | setConfiguration option data =>
      exact (setConfiguration_lost card channel _ _).imp_right .inl
  | setPiccConfig disableFormat randomUid =>
      rw [DataCommand.request, setPiccConfigRequest, setPiccConfigExRequest]
      exact (setConfiguration_lost card channel _ _).imp_right .inl
  | setPiccConfigEx config =>
      rw [DataCommand.request, setPiccConfigExRequest]
      exact (setConfiguration_lost card channel _ _).imp_right .inl
  | setDefaultKey key =>
      rw [DataCommand.request, setDefaultKeyRequest, setDefaultKeyRequest]
      split
      · exact .inr (.inl rfl)
      · exact (setConfiguration_lost card channel _ _).imp_right .inl
  | setAts ats =>
      rw [DataCommand.request, setAtsRequest, setAtsRequest]
      split
      · exact .inr (.inl rfl)
      · exact (setConfiguration_lost card channel _ _).imp_right .inl
  | changeKeySettings keySettings =>
      exact (guarded_lost card channel _).imp_right .inl
  | changeFileSettings fileNo comm access =>
      rw [DataCommand.request, changeFileSettingsRequest]
      exact (changeFileSettings_lost card channel _ _).imp_right .inl
  | changeFileSettingsRaw fileNo data =>
      exact (changeFileSettings_lost card channel _ _).imp_right .inl
  | sdmConfigure fileNo comm access sdm =>
      rw [DataCommand.request, sdmConfigureRequest, sdmConfigureRequest]
      split
      · exact .inr (.inl rfl)
      · exact (changeFileSettings_lost card channel _ _).imp_right .inl
  | commitReaderId readerId cap =>
      rw [DataCommand.request, commitReaderIdRequest, commitReaderIdRequest]
      split
      · exact .inr (.inl rfl)
      · exact (guarded_lost card channel _).imp_right .inl
  | _ =>
      right
      left
      simp only [DataCommand.request, createApplicationRequest,
        createApplicationIsoRequest, createAppRequest,
        deleteApplicationRequest, formatPiccRequest, createStdFileRequest,
        createBackupFileRequest, createDataFileRequest,
        createValueFileRequest, createRecordFileRequest, createFileRequest,
        deleteFileRequest, readDataRequest, writeDataRequest,
        getValueRequest, creditRequest, limitedCreditRequest, debitRequest,
        valueOpRequest, writeRecordRequest, updateRecordRequest,
        readRecordsRequest, clearRecordFileRequest, commitTransactionRequest,
        abortTransactionRequest, macRequest_lost hlost channel,
        readRequest_lost hlost channel, writeRequest_lost hlost channel,
        eff_lost hlost, eff_live]
      try rfl

theorem changeKeyRequest_lost {ev2 : Bool} {keySet keyNo : UInt8}
    {oldKey newKey : Option Key} {card : Card} {channel : Channel}
    {req : Request}
    (hok : changeKeyRequest ev2 keySet keyNo oldKey newKey
      (card.live channel) = .ok req) :
    changeKeyRequest ev2 keySet keyNo oldKey newKey card = .error .auth ∨
      ∃ req, changeKeyRequest ev2 keySet keyNo oldKey newKey card = .ok req ∧
        req.txMode ≠ .plain := by
  cases newKey with
  | none => cases hok
  | some newKey =>
      rw [changeKeyRequest] at hok ⊢
      split
      · exact .inl rfl
      split at hok
      · cases hok
      split at hok
      · cases hok
      next hvalid =>
      have hkept : ¬ (changesSameKey card ev2 keyNo = false ∧
          keyIsValid oldKey = false) := hvalid
      rw [if_neg hkept]
      dsimp only
      split
      · next e hsums =>
          rw [changeKeyChecksums] at hsums
          split at hsums
          all_goals cases hsums
          exact .inl rfl
      · exact .inr ⟨_, rfl, Mode.noConfusion⟩

theorem ignore_refused {α : Type} {m : Api α} {card : Card}
    {script : List Answer}
    (h : ∃ card', m card script = .done [] (.error .auth) card' script) :
    ∃ card', m.ignore card script = .done [] (.error .auth) card' script := by
  obtain ⟨card', h⟩ := h
  exact ⟨card', Prog.ignore_eq_done.mpr ⟨_, h, rfl⟩⟩

theorem attempt_refused {m : Api Bytes} {after : Card → Card}
    {card : Card} {script : List Answer}
    (h : ∃ card', m card script = .done [] (.error .auth) card' script) :
    ∃ card', (do
        let rc ← Prog.attempt m
        Prog.modify after
        Prog.ofExcept (rc.map fun _ => ()) : Api Unit) card script =
      .done [] (.error .auth) card' script := by
  obtain ⟨card', h⟩ := h
  have hatt : Prog.attempt m card script =
      .done [] (.ok (.error .auth)) card' script :=
    Prog.attempt_eq_done.mpr ⟨_, rfl, h⟩
  rw [Prog.bind_ok hatt, Prog.modify_bind]
  exact ⟨after card', rfl⟩

section

variable [BlockCipher]

theorem exchange_refused {cmd : UInt8} {data : Bytes} {txMode rxMode : Mode}
    {cap : Nat} {card : Card} (hlost : card.sessionLost = true)
    (hmode : txMode ≠ .plain ∨ rxMode ≠ .plain) (script : List Answer) :
    ∃ card', exchange cmd data txMode rxMode cap card script =
      .done [] (.error .auth) card' script := by
  rw [exchange, Prog.act_bind, exchangeRequest]
  rw [if_pos ⟨hlost, hmode⟩]
  exact ⟨_, rfl⟩

theorem dataCall_refused {α : Type} {request : Card → Except Err Request}
    {finish : Bytes → Card → Except Err α × Card} {card : Card}
    (hlost : card.sessionLost = true)
    (hreq : request card = .error .auth ∨ ∃ req, request card = .ok req ∧
      (req.txMode ≠ .plain ∨ req.rxMode ≠ .plain)) (script : List Answer) :
    ∃ card', dataCall request finish card script =
      .done [] (.error .auth) card' script := by
  rw [dataCall, Prog.get_bind]
  rcases hreq with herr | ⟨req, hok, hmode⟩
  · rw [herr, Prog.ofExcept_error_bind]
    exact ⟨card, rfl⟩
  · rw [hok, Prog.ofExcept_ok_bind]
    obtain ⟨card', hex⟩ := exchange_refused hlost hmode script
    exact ⟨card', Prog.bind_error hex⟩

theorem changeKeyCall_refused {ev2 : Bool} {keySet keyNo : UInt8}
    {oldKey newKey : Option Key} {card : Card} {channel : Channel}
    {req : Request} (hlost : card.sessionLost = true)
    (hok : changeKeyRequest ev2 keySet keyNo oldKey newKey
      (card.live channel) = .ok req) (script : List Answer) :
    ∃ card', changeKeyCall ev2 keySet keyNo oldKey newKey card script =
      .done [] (.error .auth) card' script := by
  rw [changeKeyCall, Prog.get_bind]
  rcases changeKeyRequest_lost hok with herr | ⟨req, hreq, htx⟩
  · rw [herr, Prog.ofExcept_error_bind]
    exact ⟨card, rfl⟩
  · rw [hreq, Prog.ofExcept_ok_bind]
    exact attempt_refused (exchange_refused hlost (.inl htx) script)

/-- While the flag is set, a protected call is refused before it puts a
frame. -/
theorem protected_refused {call : Call} {card : Card} {channel : Channel}
    (hlost : card.sessionLost = true) (hprot : call.Protected card channel)
    (hnot : ¬ call.bypasses card) (script : List Answer) :
    ∃ card', call.run card script =
      .done [] (.error .auth) card' script := by
  obtain ⟨request, req, hcall, hok, htx⟩ := hprot
  cases call with
  | data d =>
      cases hcall
      obtain ⟨α, finish, -, hrun⟩ := dataCommand_run d
      rw [Call.run, hrun]
      refine ignore_refused (dataCall_refused hlost ?_ script)
      rcases dataCommand_lost hlost channel with herr | hsame | hplain | hby
      · exact .inl herr
      · exact .inr ⟨req, hsame.trans hok, .inl htx⟩
      · exact absurd (hplain req hok) htx
      · exact absurd hby hnot
  | identify =>
      cases hcall
      cases hok
      exact absurd rfl htx
  | getCardUid cap =>
      refine ignore_refused ?_
      rw [getCardUid, Prog.get_bind]
      split
      · next hauth =>
          have huid : card.uidLen = 0 :=
            not_not.mp fun hne => hnot ⟨hauth, hne⟩
          rw [transportUid, if_pos huid]
          exact ⟨card, rfl⟩
      · exact dataCall_refused hlost
          (.inr ⟨_, rfl, .inr Mode.noConfusion⟩) script
  | changeKey keyNo oldKey newKey =>
      cases hcall
      exact changeKeyCall_refused hlost hok script
  | changeKeyEv2 keySet keyNo oldKey newKey =>
      cases hcall
      exact changeKeyCall_refused hlost hok script
  | rollKeySet keySet =>
      exact attempt_refused
        (exchange_refused hlost (.inl Mode.noConfusion) script)
  | _ => cases hcall

end

/-! ## How the flag is set and kept -/

theorem KeepsFlag.kept {st : ApiStep} (h : KeepsFlag st)
    (hreq : st.call.request ≠ none) : ¬ st.call.givesUp st.before := by
  obtain ⟨call, card, said, r, card'⟩ := st
  cases call with
  | changeKey | changeKeyEv2 | rollKeySet => exact h
  | data | identify | getCardUid => exact id
  | _ => exact absurd rfl hreq

/-- Without an error status the flag stays. -/
def StaysLost (card : Card) (said : Said) (card' : Card) : Prop :=
  NoErrorStatus said → card.sessionLost = true → card'.sessionLost = true

theorem rawRule_staysLost : RawRule StaysLost where
  composes :=
    { nil := fun _ _ hlost => hlost
      append := fun hu hv hnone hlost =>
        hv (fun qa hqa => hnone qa (List.mem_append_right _ hqa))
          (hu (fun qa hqa => hnone qa (List.mem_append_left _ hqa)) hlost) }
  raw _ h _ hlost := by
    obtain ⟨status, rfl⟩ := h.frame
    exact hlost
  dropped hst h hnone _ := by
    obtain ⟨-, pre, q, a, rfl, ha⟩ := h.answer
    have hfine := hnone (q, a) (List.mem_append_right _ (.head _)) _ ha
    exact Bool.noConfusion (hst.symm.trans hfine)

section

variable [BlockCipher]

theorem DataEnds.keeps_lost {request : Card → Except Err Request}
    {card card' : Card} {said : Said} (hlost : card.sessionLost = true)
    (h : DataEnds request card said card') : card'.sessionLost = true := by
  rcases h.session with hsame | ⟨-, hset⟩
  · exact hsame.sessionLost.trans hlost
  · exact hset

theorem DataEnds.sets_lost {request : Card → Except Err Request}
    {card card' : Card} {said : Said} (hauth : card.authenticated = true)
    (hseen : ∀ req, request card = .ok req →
      ¬ ErrorEscapes card.wraps
        (requestFrames card req.cmd req.data.length req.txMode)
        (said.map Prod.snd))
    (herr : ∃ qa ∈ said, cardError qa.1 qa.2 = true)
    (h : DataEnds request card said card') : card'.sessionLost = true := by
  cases h with
  | refused =>
      obtain ⟨qa, hqa, -⟩ := herr
      cases hqa
  | exchanged hreq hex hsame =>
      have hdropped := (hex.drops_iff hauth).mpr (hseen _ hreq) herr
      exact hsame.sessionLost.trans hdropped.lost

theorem flag_set {st : ApiStep} (hof : st.Of Call.run)
    (hdraw : Draws st = true) (hnotice : Notices st) (hkeep : KeepsFlag st) :
    st.after.sessionLost = true := by
  obtain ⟨script, rest, h⟩ := hof
  obtain ⟨request, hreq, hseen⟩ := hnotice
  rw [Draws, Bool.and_eq_true, Bool.and_eq_true] at hdraw
  obtain ⟨⟨-, hauth⟩, herr⟩ := hdraw
  obtain ⟨card₁, hends, hcard⟩ := request_done hreq h
  have hkept := hkeep.kept (by rw [hreq]; exact Option.some_ne_none _)
  rw [hcard.resolve_left hkept]
  rcases hends with hends | ⟨hnil, -⟩
  · exact hends.sets_lost hauth hseen (List.any_eq_true.mp herr)
  · rw [hnil] at herr
    cases herr

theorem flag_kept {st : ApiStep} (hof : st.Of Call.run)
    (hlost : st.before.sessionLost = true)
    (hcall : st.call.dropsFirst = false ∨ st.call.startsAnew = false)
    (hkeep : KeepsFlag st) : st.after.sessionLost = true := by
  obtain ⟨call, card, said, r, card'⟩ := st
  obtain ⟨script, rest, h⟩ := hof
  dsimp only at h hlost hcall ⊢
  cases hforeign : call.foreign with
  | true => exact (traces_foreign hforeign _ _ _ _ _ _ h).sessionLost hlost
  | false =>
  cases hreq : call.request with
  | some request =>
      obtain ⟨card₁, hends, hcard⟩ := request_done hreq h
      have hkept := hkeep.kept (by rw [hreq]; exact Option.some_ne_none _)
      rw [hcard.resolve_left hkept]
      rcases hends with hends | ⟨-, rfl⟩
      · exact hends.keeps_lost hlost
      · exact hlost
  | none =>
  cases call with
  | resetChannel | authenticate | selectApplication =>
      rcases hcall with hdrops | hanew
      · cases hdrops
      · cases hanew
  | authenticateNonfirst rng keyNo key =>
      exact nonfirst_sessionLost _ _ _ _ _ _ _ _ _ _ hlost h
  | getDfNames cap =>
      obtain ⟨r', h, -⟩ := Prog.ignore_eq_done.mp h
      obtain ⟨status, rfl⟩ := getDfNames_frame h
      exact hlost
  | proximityCheck rng pcKey rounds =>
      exact rawRule_staysLost.proximityCheck hkeep.2 h hkeep.1 hlost
  | ntag424Select =>
      rcases Prog.bind_eq_done.mp h with ⟨e, hsel, -⟩ |
        ⟨said₁, a, card₁, rest₁, said₂, hsel, hreset, rfl⟩
      · have hforeign :=
          traces_isoSelectDfName foreignRule_foreign _ _ _ _ _ _ _ hsel
        exact hforeign.sessionLost hlost
      · cases hreset
        exact absurd rfl hkeep
  | plusAuthenticate rng keyBlock key first =>
      cases first with
      | false => cases hforeign
      | true =>
          have hbad := hkeep.resolve_left Bool.noConfusion
          cases key with
          | none =>
              cases h
              exact hlost
          | some key =>
              rw [Call.run, plusAuthenticate, if_pos (hbad key rfl)] at h
              cases h
              exact hlost
  | plusResetAuth => exact hkeep.elim
  | data | identify | getCardUid | changeKey | changeKeyEv2 | rollKeySet =>
      cases hreq
  | _ => cases hforeign

/-! ## Every run -/

/-- While a session counts as lost, the flag says so. -/
def FlagInStep (g : Option Channel) (card : Card) : Prop :=
  g ≠ none → card.sessionLost = true

theorem flagInStep_call {g : Option Channel} {st : ApiStep}
    (hof : st.Of Call.run) (hin : FlagInStep g st.before)
    (hkeep : KeepsLost g st) : FlagInStep (lostStep g st) st.after := by
  intro hg
  obtain ⟨hdraws, hflag⟩ := hkeep hg
  rw [lostStep] at hg
  split at hg
  · next hdraw =>
      rcases hdraws hdraw with hlost | hnotice
      · refine flag_kept hof hlost (.inl ?_) hflag
        rw [Draws, Bool.and_eq_true, Bool.and_eq_true] at hdraw
        simpa using hdraw.1.1
      · exact flag_set hof hdraw hnotice hflag
  · split at hg
    · exact absurd rfl hg
    · next hanew =>
        exact flag_kept hof (hin hg) (.inr (eq_false_of_ne_true hanew)) hflag

/-- After a run that keeps the flag, a call that would be protected in the
session that was lost is refused before it puts a frame. -/
theorem lost_session_refuses {uid : Option Bytes} {steps : List ApiStep}
    {card : Card} (hrun : ApiRun (Card.opened uid) steps card)
    (hkeep : Along lostStep KeepsLost none steps) {channel : Channel}
    (hlost : ghostAfter lostStep none steps = some channel) {call : Call}
    (hprot : call.Protected card channel) (hnot : ¬ call.bypasses card)
    (script : List Answer) :
    ∃ card', call.run card script = .done [] (.error .auth) card' script := by
  have hflag : FlagInStep (ghostAfter lostStep none steps) card :=
    (hrun.along (P := fun _ _ => True) FlagInStep KeepsLost
      (fun _ _ hof hin hkeep => ⟨trivial, flagInStep_call hof hin hkeep⟩)
      (fun h => absurd rfl h) hkeep).2
  refine protected_refused (hflag ?_) hprot hnot script
  rw [hlost]
  exact Option.some_ne_none _

end

/-- A file list that is refused, and a deletion after it. -/
theorem lost_session_refuses_deletion :
    ∃ (steps : List ApiStep) (card card' : Card),
      @ApiRun .identity (Card.opened none) steps card ∧
      ghostAfter lostStep none steps = some .ev2 ∧
      @Call.run .identity (.data (.deleteFile 1)) card [.ok [0x00]] =
        .done [] (.error .auth) card' [.ok [0x00]] := by
  obtain ⟨said, card, said', r, card', hauth, hids, hghost, hsaid, heff,
      hseen⟩ :
      ∃ said card said' r card',
        @Call.run .identity (.authenticate (.ok []) 0 (some zeroKey) .ev2)
          (Card.opened none) zeroHandshake = .done said (.ok ()) card [] ∧
        @Call.run .identity (.data (.getFileIds 8)) card [.ok [0x9D]] =
          .done said' r card' [] ∧
        lostStep none ⟨.data (.getFileIds 8), card, said', r, card'⟩ =
          some .ev2 ∧
        said'.map Prod.snd = [] ++ [.ok [0x9D]] ∧
        eff card .mac = .mac ∧
        ¬ Unseen card.wraps (requestFrames card dfGetFileIds 0 .mac) []
          (.ok [0x9D]) :=
    ⟨_, _, _, _, _, rfl, rfl, by decide, rfl, rfl, by decide⟩
  have hrun : @ApiRun .identity (Card.opened none)
      [ ⟨.authenticate (.ok []) 0 (some zeroKey) .ev2, Card.opened none, said,
          .ok (), card⟩,
        ⟨.data (.getFileIds 8), card, said', r, card'⟩ ] card' :=
    .cons_done hauth (.cons_done hids .nil)
  have hseen' : ∀ req, macRequest dfGetFileIds [] (maxFiles + 16) card =
      .ok req → ¬ ErrorEscapes card.wraps
        (requestFrames card req.cmd req.data.length req.txMode)
        (said'.map Prod.snd) := by
    intro req hreq
    rw [macRequest, heff] at hreq
    cases hreq
    rw [hsaid, ErrorEscapes, escapes_concat]
    exact fun hun => hseen hun.2
  obtain ⟨card'', hrefused⟩ := @lost_session_refuses .identity _ _ _ hrun
    ⟨fun h => absurd rfl h,
      fun _ => ⟨fun _ => .inr ⟨_, rfl, hseen'⟩, trivial⟩, trivial⟩
    _ hghost (.data (.deleteFile 1)) ⟨_, _, rfl, rfl, Mode.noConfusion⟩
    And.right [.ok [0x00]]
  exact ⟨_, card', card'', hrun, hghost, hrefused⟩

/-- The restriction of the MIFARE Classic update goes out in plain. -/
theorem lost_session_may_downgrade :
    ¬ ∀ (_ : BlockCipher) (uid : Option Bytes) (steps : List ApiStep)
      (card : Card) (channel : Channel) (call : Call) (script : List Answer),
      ApiRun (Card.opened uid) steps card →
      ghostAfter lostStep none steps = some channel →
      call.Protected card channel →
      ∃ card', call.run card script =
        .done [] (.error .auth) card' script := by
  intro hall
  obtain ⟨said, card, said', r, card', hauth, hids, hghost, hplain⟩ :
      ∃ said card said' r card',
        @Call.run .identity (.authenticate (.ok []) 0 (some zeroKey) .ev2)
          (Card.opened none) zeroHandshake = .done said (.ok ()) card [] ∧
        @Call.run .identity (.data (.getFileIds 8)) card [.ok [0x9D]] =
          .done said' r card' [] ∧
        lostStep none ⟨.data (.getFileIds 8), card, said', r, card'⟩ =
          some .ev2 ∧
        ∃ card'',
          @Call.run .identity (.data (.restrictMfcUpdate [0x01])) card' [] =
            .waiting [] (.native dfRestrictMfcUpdate [0x01]) card'' :=
    ⟨_, _, _, _, _, rfl, rfl, by decide, _, rfl⟩
  have hrun : @ApiRun .identity (Card.opened none)
      [ ⟨.authenticate (.ok []) 0 (some zeroKey) .ev2, Card.opened none, said,
          .ok (), card⟩,
        ⟨.data (.getFileIds 8), card, said', r, card'⟩ ] card' :=
    .cons_done hauth (.cons_done hids .nil)
  obtain ⟨card₁, hrefused⟩ := hall .identity none _ card' .ev2
    (.data (.restrictMfcUpdate [0x01])) [] hrun hghost
    ⟨_, _, rfl, rfl, Mode.noConfusion⟩
  obtain ⟨card₂, hsent⟩ := hplain
  rw [hsent] at hrefused
  cases hrefused

end Nxpsc
