import Nxpsc.Proofs.Calls
import Nxpsc.Proofs.Handshake
import Nxpsc.Proofs.ProximityCheck
import Nxpsc.Spec.Picc

/-!
# GetDFNames and the session of the card

`nxpsc_get_df_names` asks the handle whether there is a session, and it is the
card's session that matters. The handle may give up a session the card keeps,
and the card may accept a handshake the library rejects or of whose end it
never hears. Apart from these steps, each of which `KeepsTrack` describes, an
open session of the card is a session of the handle, in every state of every
run.
-/

namespace Nxpsc

open Dialogue

/-- An open session of the card is a session of the handle. -/
def InStep (p : Picc) (card : Card) : Prop :=
  p.session = true → card.authenticated = true

theorem Quiet.inStep {card card' : Card} {said : Said} {p p' : Picc}
    (h : Quiet card said card') (hafter : PiccAfter p said p')
    (hin : InStep p card) : InStep p' card' := by
  intro hopen
  obtain ⟨hold, hauth⟩ := h _ _ hafter hopen
  exact hauth (hin hold)

theorem Foreign.quiet {card card' : Card} {said : Said}
    (h : Foreign card said card') : Quiet card said card' :=
  fun _ _ hafter hopen =>
    ⟨piccAfter_foreign h.frames hafter hopen, h.authenticated⟩

/-! ## Exchanges -/

theorem RawEnds.quiet {card card' : Card} {cmd : UInt8} {n cap : Nat}
    {follow : Bool} {said : Said} {r : Except Err (UInt8 × Bytes)}
    (hcmd : Harmless cmd) (h : RawEnds card cmd n cap follow said r card') :
    Quiet card said card' := by
  intro p p' hafter hopen
  obtain ⟨status, rfl⟩ := h.frame
  obtain ⟨pre, c, q, a, rfl, hch, hcar⟩ := h.shape
  exact ⟨hch.opens hcmd hcar hafter hopen, fun hauth => hauth⟩

theorem EndsInError.closes {said : Said} (h : EndsInError said) {p p' : Picc}
    (hafter : PiccAfter p said p') : p'.session = false := by
  obtain ⟨pre, q, a, rfl, herr⟩ := h
  obtain ⟨p₁, -, hgoes⟩ := piccAfter_concat.mp hafter
  exact hgoes.error herr

section

variable [BlockCipher]

theorem ExchangeEnds.opens {card card' : Card} {cmd : UInt8} {data : Bytes}
    {txMode rxMode : Mode} {cap : Nat} {said : Said} {r : Except Err Bytes}
    {p p' : Picc} (hcmd : Harmless cmd)
    (h : ExchangeEnds card cmd data txMode rxMode cap said r card')
    (hafter : PiccAfter p said p') (hopen : p'.session = true) :
    p.session = true := by
  cases h with
  | unsent =>
      obtain rfl := piccAfter_nil.mp hafter
      exact hopen
  | cut hreq hraw => exact (hraw.quiet hcmd _ _ hafter hopen).1
  | answered hreq hraw => exact (hraw.quiet hcmd _ _ hafter hopen).1

/-- The handle drops its session only when the card has closed its own. -/
theorem DataEnds.authenticated {request : Card → Except Err Request}
    {card card' : Card} {said : Said} {p p' : Picc}
    (h : DataEnds request card said card') (hafter : PiccAfter p said p')
    (hopen : p'.session = true) :
    card'.authenticated = card.authenticated := by
  rcases h.session with hsame | ⟨herr, -⟩
  · exact hsame.authenticated
  · rw [herr.closes hafter] at hopen
    cases hopen

theorem DataEnds.quiet {request : Card → Except Err Request}
    {card card' : Card} {said : Said}
    (hcmd : ∀ req, request card = .ok req → Harmless req.cmd)
    (h : DataEnds request card said card') : Quiet card said card' := by
  intro p p' hafter hopen
  refine ⟨?_, fun hauth => (h.authenticated hafter hopen).trans hauth⟩
  cases h with
  | refused =>
      obtain rfl := piccAfter_nil.mp hafter
      exact hopen
  | exchanged hreq hex hsame => exact hex.opens (hcmd _ hreq) hafter hopen

end

/-! ## The opcodes of the data commands -/

theorem fileCmd_harmless {card : Card} {native chained : UInt8}
    (hn : Harmless native) (hc : Harmless chained) :
    Harmless (fileCmd card native chained) := by
  rw [fileCmd]
  split
  · exact hc
  · exact hn

theorem dataCommand_harmless {d : DataCommand} {card : Card} {req : Request}
    (h : d.request card = .ok req) :
    (∃ cmd data txMode rxMode cap, d = .command cmd data txMode rxMode cap) ∨
      Harmless req.cmd := by
  cases d with
  | command cmd data txMode rxMode cap => exact .inl ⟨_, _, _, _, _, rfl⟩
  | getVersion | getFreeMemory | getSignature | getApplicationIds
  | deleteApplication | formatPicc | getKeyVersion | getKeySettings | getFileIds
  | getIsoFileIds | getFileSettings | deleteFile | clearRecordFile
  | commitTransaction | commitTransactionTmac | abortTransaction | getValue
  | getDelegatedInfo | createValueFile
  | notifyTransactionSuccess | finalizeKeySet =>
      right
      cases h
      dsimp only
      decide
  | readData | writeData | writeRecord | updateRecord | readRecords =>
      simp only [DataCommand.request, readDataRequest, writeDataRequest,
        writeRecordRequest, updateRecordRequest, readRecordsRequest] at h
      split at h <;> cases h
      exact .inr (fileCmd_harmless (by decide) (by decide))
  | _ =>
      right
      simp only [DataCommand.request, createApplicationRequest,
        createApplicationIsoRequest, createAppRequest, macRequest,
        setPiccConfigRequest, setPiccConfigExRequest, setDefaultKeyRequest,
        setAtsRequest, setConfigurationRequest, changeKeySettingsRequest,
        changeFileSettingsRequest, changeFileSettingsRawRequest,
        sdmConfigureRequest, createStdFileRequest, createBackupFileRequest,
        createDataFileRequest, createRecordFileRequest, createFileRequest,
        commitReaderIdRequest, createTransactionMacFileRequest,
        createDelegatedApplicationRequest, createMfcMappingRequest,
        restrictMfcUpdateRequest, initKeySetRequest, creditRequest,
        limitedCreditRequest, debitRequest, valueOpRequest, writeRequest] at h
      repeat' split at h
      all_goals cases h
      all_goals dsimp only
      all_goals decide

/-! ## The proximity check -/

theorem rawRule_quiet : RawRule Quiet where
  composes := composes_quiet
  raw hcmd h := h.quiet hcmd
  dropped hst h p p' hafter hopen := by
    rw [(h.endsInError hst).closes hafter] at hopen
    cases hopen

section

variable [BlockCipher]

/-! ## Handshakes -/

theorem authenticateNonfirst_refused {rng : Rng} {keyNo : UInt8}
    {key : Option Key} {card card' : Card} {script rest : List Answer}
    {said : Said} {r : Except Err Unit} (hauth : card.authenticated = false)
    (h : authenticateNonfirst rng keyNo key card script =
      .done said r card' rest) : said = [] ∧ card' = card := by
  cases key with
  | none =>
      cases h
      exact ⟨rfl, rfl⟩
  | some key =>
      rw [authenticateNonfirst, Prog.get_bind, if_pos hauth] at h
      cases h
      exact ⟨rfl, rfl⟩

theorem inStep_authenticateNonfirst {rng : Rng} {keyNo : UInt8}
    {key : Option Key} {card card' : Card} {script rest : List Answer}
    {said : Said} {r : Except Err Unit} {p p' : Picc} (hin : InStep p card)
    (hafter : PiccAfter p said p')
    (h : authenticateNonfirst rng keyNo key card script =
      .done said r card' rest) : InStep p' card' := by
  cases hauth : card.authenticated with
  | false =>
      obtain ⟨rfl, rfl⟩ := authenticateNonfirst_refused hauth h
      obtain rfl := piccAfter_nil.mp hafter
      exact hin
  | true =>
      exact fun _ => nonfirst_keeps_session _ _ _ _ _ _ _ _ _ hauth h

end

/-! ## GetDFNames itself -/

theorem dfNamesReact_continues {cap : Nat} {b b' : UInt8 × List App}
    {q : Frame} {a : Answer} {card card' : Card} (hq : Carries card b.1 q)
    (h : dfNamesReact cap b a card = (.ok (.inl b'), card')) :
    b'.1 = dfAdditionalFrame ∧ cardStatus q a = some dfSAdditionalFrame ∧
      card'.cmdset = card.cmdset := by
  rw [dfNamesReact, rawFrame] at h
  split at h
  · cases h
  next status frame after heq =>
  split at heq
  · cases heq
  next status' got hresp =>
  split at heq
  · cases heq
  cases heq
  split at h
  · cases h
  dsimp only at h
  split at h
  · cases h
  next haf =>
  cases h
  refine ⟨rfl, ?_, rfl⟩
  rw [(frameResponse_ok hq hresp).1, not_not.mp haf]

theorem dfNames_carries {b : UInt8 × List App} {q : Frame} {card s : Card}
    (hset : s.cmdset = card.cmdset) (h : frameRequest b.1 [] s = .ok q) :
    Carries card b.1 q := Carries.congr hset ⟨[], h⟩

theorem quiet_getDfNames {cap : Nat} {card card' : Card}
    {script rest : List Answer} {said : Said} {r : Except Err (List App)}
    (h : getDfNames cap card script = .done said r card' rest) :
    Quiet card said card' := by
  intro p p' hafter hopen
  obtain ⟨status, hframe⟩ := getDfNames_frame h
  refine ⟨?_, fun hauth => by rw [hframe]; exact hauth⟩
  rw [getDfNames, Prog.get_bind] at h
  split at h
  · cases h
    obtain rfl := piccAfter_nil.mp hafter
    exact hopen
  have hcmd : Harmless dfGetDfNames := by decide
  refine Prog.converse_done
    (fun said b s => Chained card dfGetDfNames said b.1 ∧
      s.cmdset = card.cmdset)
    (fun said _ _ => ∀ p', PiccAfter p said p' → p'.session = true →
      p.session = true)
    ?_ ?_ ?_ ?_ ⟨.start, rfl⟩ h p' hafter hopen
  · rintro said b s e ⟨hch, _⟩ _ p' hafter hopen
    exact (hch.after hcmd.1 hafter).1.symm.trans hopen
  · rintro said b s q a b' s' ⟨hch, hset⟩ hq hr
    obtain ⟨haf, ha, hset'⟩ := dfNamesReact_continues ⟨[], hq⟩ hr
    rw [haf]
    exact ⟨.next hch (dfNames_carries hset hq) ha, hset'.trans hset⟩
  · rintro said b s q a c s' ⟨hch, hset⟩ hq _ p' hafter hopen
    exact hch.opens hcmd (dfNames_carries hset hq) hafter hopen
  · rintro said b s q a e s' ⟨hch, hset⟩ hq _ p' hafter hopen
    exact hch.opens hcmd (dfNames_carries hset hq) hafter hopen

/-- The opcode is put once, at the beginning, and only without a session. -/
theorem getDfNames_puts {cap : Nat} {card : Card} {script : List Answer}
    {pre : Said} {q : Frame} (hop : q.opcode = some dfGetDfNames)
    (h : (getDfNames cap card script).Puts pre q) :
    pre = [] ∧ card.authenticated = false := by
  rw [getDfNames, Prog.get_bind] at h
  split at h
  · obtain ⟨a, post, hnil⟩ := h
    exact absurd hnil (by simp)
  next hauth =>
  refine ⟨?_, eq_false_of_ne_true hauth⟩
  refine Prog.converse_puts
    (fun said b s => Chained card dfGetDfNames said b.1 ∧
      s.cmdset = card.cmdset)
    (fun pre q => q.opcode = some dfGetDfNames → pre = [])
    ?_ ?_ ⟨.start, rfl⟩ h hop
  · rintro said b s q' ⟨hch, hset⟩ hq hop'
    rcases hch.next_opcode with ⟨hnil, -⟩ | ⟨-, haf⟩
    · exact hnil
    · rw [(dfNames_carries hset hq).opcode, haf] at hop'
      exact absurd (Option.some.inj hop') (by decide)
  · rintro said b s q' a b' s' ⟨hch, hset⟩ hq hr
    obtain ⟨haf, ha, hset'⟩ := dfNamesReact_continues ⟨[], hq⟩ hr
    rw [haf]
    exact ⟨.next hch (dfNames_carries hset hq) ha, hset'.trans hset⟩

/-! ## One call of a run -/

theorem changeKeyRequest_cmd {ev2 : Bool} {keySet keyNo : UInt8}
    {oldKey newKey : Option Key} {card : Card} {req : Request}
    (h : changeKeyRequest ev2 keySet keyNo oldKey newKey card = .ok req) :
    Harmless req.cmd := by
  cases newKey with
  | none => cases h
  | some newKey =>
      rw [changeKeyRequest] at h
      split at h
      · cases h
      split at h
      · cases h
      dsimp only at h
      split at h
      · cases h
      cases h
      show Harmless (if ev2 = true then dfChangeKeyEv2 else dfChangeKey)
      cases ev2 <;> decide

/-- But for `nxpsc_command`, no call of one exchange is a handshake or a
continuation. -/
theorem request_harmless {call : Call} {request : Card → Except Err Request}
    {card : Card} {req : Request} (hreq : call.request = some request)
    (h : request card = .ok req) :
    (∃ cmd data txMode rxMode cap,
        call = .data (.command cmd data txMode rxMode cap)) ∨
      Harmless req.cmd := by
  cases call with
  | data d =>
      cases hreq
      rcases dataCommand_harmless h with
        ⟨cmd, data, txMode, rxMode, cap, rfl⟩ | hcmd
      · exact .inl ⟨cmd, data, txMode, rxMode, cap, rfl⟩
      · exact .inr hcmd
  | identify | getCardUid | rollKeySet =>
      cases hreq
      cases h
      right
      dsimp only
      decide
  | changeKey keyNo oldKey newKey =>
      cases hreq
      exact .inr (changeKeyRequest_cmd h)
  | changeKeyEv2 keySet keyNo oldKey newKey =>
      cases hreq
      exact .inr (changeKeyRequest_cmd h)
  | _ => cases hreq

theorem inStep_ntag424Select {card card' : Card} {script rest : List Answer}
    {said : Said} {r : Except Err Unit} {p p' : Picc} (hin : InStep p card)
    (hafter : PiccAfter p said p')
    (hkeep : p'.session = true → r ≠ .ok ())
    (h : ntag424Select card script = .done said r card' rest) :
    InStep p' card' := by
  intro hopen
  rcases Prog.bind_eq_done.mp h with ⟨e, hsel, -⟩ |
    ⟨said₁, a, card₁, rest₁, said₂, hsel, hreset, rfl⟩
  · have hforeign :=
      traces_isoSelectDfName foreignRule_foreign _ _ _ _ _ _ _ hsel
    exact hforeign.quiet.inStep hafter hin hopen
  · cases hreset
    exact absurd rfl (hkeep hopen)

section

variable [BlockCipher]

theorem inStep_request {call : Call} {request : Card → Except Err Request}
    {card card' : Card} {script rest : List Answer} {said : Said}
    {r : Except Err Unit} {p p' : Picc} (hreq : call.request = some request)
    (hin : InStep p card) (hafter : PiccAfter p said p')
    (hkeep : p'.session = true → ¬ call.givesUp card ∧
      ∀ cmd data txMode rxMode cap,
        call = .data (.command cmd data txMode rxMode cap) →
        Harmless cmd ∨ card.authenticated = true)
    (h : call.run card script = .done said r card' rest) :
    InStep p' card' := by
  intro hopen
  obtain ⟨hkept, hraw⟩ := hkeep hopen
  obtain ⟨card₁, hends, hcard⟩ := request_done hreq h
  obtain rfl := hcard.resolve_left hkept
  rcases hends with hends | ⟨rfl, rfl⟩
  · cases hauth : card.authenticated with
    | true => exact (hends.authenticated hafter hopen).trans hauth
    | false =>
        refine (hends.quiet fun req hok => ?_).inStep hafter hin hopen
        rcases request_harmless hreq hok with
          ⟨cmd, data, txMode, rxMode, cap, rfl⟩ | hcmd
        · rcases hraw _ _ _ _ _ rfl with hcmd | hlive
          · cases hreq
            cases hok
            exact hcmd
          · rw [hauth] at hlive
            cases hlive
        · exact hcmd
  · obtain rfl := piccAfter_nil.mp hafter
    exact hin hopen

theorem inStep_plusAuthenticate {rng : Rng} {keyBlock : UInt16}
    {key : Option Key} {card card' : Card} {script rest : List Answer}
    {said : Said} {r : Except Err Unit} {p p' : Picc} (hin : InStep p card)
    (hafter : PiccAfter p said p')
    (hkeep : p'.session = true →
      (∀ k, key = some k → k.type ≠ .aes128) ∨ r = .ok ())
    (h : plusAuthenticate rng keyBlock key true card script =
      .done said r card' rest) : InStep p' card' := by
  intro hopen
  rcases hkeep hopen with hbad | rfl
  · cases key with
    | none =>
        cases h
        obtain rfl := piccAfter_nil.mp hafter
        exact hin hopen
    | some key =>
        rw [plusAuthenticate, if_pos (hbad key rfl)] at h
        cases h
        obtain rfl := piccAfter_nil.mp hafter
        exact hin hopen
  · exact (leaves_plusSession _ _ _ _ _ _ _ _ _ _ h).1

theorem inStep_call {p p' : Picc} {st : ApiStep} (hof : st.Of Call.run)
    (hstep : PiccTracked p st p') (hin : InStep p st.before) :
    InStep p' st.after := by
  obtain ⟨call, card, said, r, card'⟩ := st
  obtain ⟨script, rest, h⟩ := hof
  obtain ⟨hafter, hkeep⟩ := hstep
  dsimp only [PiccStep, KeepsTrack] at h hin hafter hkeep ⊢
  cases hforeign : call.foreign with
  | true =>
      exact (traces_foreign hforeign _ _ _ _ _ _ h).quiet.inStep hafter hin
  | false =>
  cases hreq : call.request with
  | some request =>
      refine inStep_request hreq hin hafter (fun hopen => ⟨?_, ?_⟩) h
      · cases call with
        | changeKey | changeKeyEv2 | rollKeySet => exact hkeep hopen
        | _ => exact id
      · rintro cmd data txMode rxMode cap rfl
        exact hkeep hopen
  | none =>
  cases call with
  | resetChannel => exact fun hopen => (hkeep hopen).elim
  | plusResetAuth => exact fun hopen => (hkeep hopen).elim
  | authenticate rng keyNo key channel =>
      intro hopen
      rcases hkeep hopen with rfl | rfl
      · cases h
        obtain rfl := piccAfter_nil.mp hafter
        exact hin hopen
      · exact (leaves_authenticate _ _ _ _ _ _ _ _ _ _ h).1
  | authenticateNonfirst rng keyNo key =>
      exact inStep_authenticateNonfirst hin hafter h
  | selectApplication aid =>
      intro hopen
      rw [Call.run, selectApplication, if_pos (hkeep hopen)] at h
      cases h
      obtain rfl := piccAfter_nil.mp hafter
      exact hin hopen
  | getDfNames cap =>
      obtain ⟨r', h, -⟩ := Prog.ignore_eq_done.mp h
      exact (quiet_getDfNames h).inStep hafter hin
  | proximityCheck rng pcKey rounds =>
      exact fun hopen =>
        (rawRule_quiet.proximityCheck (hkeep hopen) h).inStep hafter hin hopen
  | ntag424Select => exact inStep_ntag424Select hin hafter hkeep h
  | plusAuthenticate rng keyBlock key first =>
      cases first with
      | false => cases hforeign
      | true =>
          refine inStep_plusAuthenticate hin hafter (fun hopen => ?_) h
          exact (hkeep hopen).resolve_left Bool.noConfusion
  | data | identify | getCardUid | changeKey | changeKeyEv2 | rollKeySet =>
      cases hreq
  | _ => cases hforeign

/-! ## Every run -/

/-- Beside a run that keeps track, the card has no session wherever
`nxpsc_get_df_names` puts GetDFNames to it. -/
theorem df_names_outside_session {uid : Option Bytes} {steps : List ApiStep}
    {card : Card} (hrun : ApiRun (Card.opened uid) steps card) {p p' : Picc}
    (hpicc : Beside PiccTracked ⟨none, false⟩ steps p)
    {cap : Nat} {script : List Answer} {pre : Said} {q : Frame}
    (hput : (getDfNames cap card script).Puts pre q)
    (hop : q.opcode = some dfGetDfNames) (hafter : PiccAfter p pre p') :
    p'.session = false := by
  have hin : InStep p card :=
    hrun.beside InStep (fun _ _ _ hof hstep hin => inStep_call hof hstep hin)
      hpicc (fun h => absurd h Bool.noConfusion)
  obtain ⟨rfl, hauth⟩ := getDfNames_puts hop hput
  obtain rfl := piccAfter_nil.mp hafter
  refine eq_false_of_ne_true fun hopen => ?_
  rw [hin hopen] at hauth
  cases hauth

end

/-- A handshake, and a selection that ends the session on both sides. -/
theorem df_names_outside_session_selected :
    ∃ (steps : List ApiStep) (card : Card) (p : Picc) (q : Frame),
      @ApiRun .identity (Card.opened none) steps card ∧
      Beside PiccTracked ⟨none, false⟩ steps p ∧
      (getDfNames 8 card []).Puts [] q ∧ q.opcode = some dfGetDfNames ∧
      p.session = false := by
  obtain ⟨said, card, p, said', card', p', hauth, hsel, hopen, hclose, hp,
      hput⟩ :
      ∃ said card p said' card' p',
        @Call.run .identity (.authenticate (.ok []) 0 (some zeroKey) .ev2)
          (Card.opened none) zeroHandshake = .done said (.ok ()) card [] ∧
        @Call.run .identity (.selectApplication 0) card [.ok [0x00]] =
          .done said' (.ok ()) card' [] ∧
        PiccAfter ⟨none, false⟩ said p ∧ PiccAfter p said' p' ∧
        p'.session = false ∧
        (getDfNames 8 card' []).Puts [] (.native dfGetDfNames []) :=
    ⟨_, _, _, _, _, _, rfl, rfl, .cons (.heard rfl) (.cons (.heard rfl) .nil),
      .cons (.heard rfl) .nil, rfl, .inl ⟨rfl, rfl⟩⟩
  have hrun : @ApiRun .identity (Card.opened none)
      [ ⟨.authenticate (.ok []) 0 (some zeroKey) .ev2, Card.opened none, said,
          .ok (), card⟩,
        ⟨.selectApplication 0, card, said', .ok (), card'⟩ ] card' :=
    .cons_done hauth (.cons_done hsel .nil)
  have hpicc : Beside PiccTracked ⟨none, false⟩
      [ ⟨.authenticate (.ok []) 0 (some zeroKey) .ev2, Card.opened none, said,
          .ok (), card⟩,
        ⟨.selectApplication 0, card, said', .ok (), card'⟩ ] p' :=
    .cons ⟨hopen, fun _ => .inr rfl⟩
      (.cons ⟨hclose, fun hstill => Bool.noConfusion (hp.symm.trans hstill)⟩
        .nil)
  exact ⟨_, card', p', _, hrun, hpicc, hput, rfl,
    @df_names_outside_session .identity _ _ _ hrun _ _ hpicc _ _ _ _ hput rfl
      .nil⟩

/-- The caller forgets the session, and the card does not know. -/
theorem df_names_may_meet_session :
    ¬ ∀ (_ : BlockCipher) (uid : Option Bytes) (steps : List ApiStep)
      (card : Card) (p p' : Picc) (cap : Nat) (script : List Answer)
      (pre : Said) (q : Frame),
      ApiRun (Card.opened uid) steps card →
      Beside PiccStep ⟨none, false⟩ steps p →
      (getDfNames cap card script).Puts pre q →
      q.opcode = some dfGetDfNames → PiccAfter p pre p' →
      p'.session = false := by
  intro hall
  obtain ⟨said, card, p, hauth, hafter, hopen, hput⟩ : ∃ said card p,
      @Call.run .identity (.authenticate (.ok []) 0 (some zeroKey) .ev2)
        (Card.opened none) zeroHandshake = .done said (.ok ()) card [] ∧
      PiccAfter ⟨none, false⟩ said p ∧ p.session = true ∧
      (getDfNames 8 (resetChannel card) []).Puts []
        (.native dfGetDfNames []) :=
    ⟨_, _, _, rfl, .cons (.heard rfl) (.cons (.heard rfl) .nil), rfl,
      .inl ⟨rfl, rfl⟩⟩
  have hreset : @Call.run .identity .resetChannel card [] =
      .done [] (.ok ()) (resetChannel card) [] := rfl
  have hrun : @ApiRun .identity (Card.opened none)
      [ ⟨.authenticate (.ok []) 0 (some zeroKey) .ev2, Card.opened none, said,
          .ok (), card⟩,
        ⟨.resetChannel, card, [], .ok (), resetChannel card⟩ ]
      (resetChannel card) :=
    .cons_done hauth (.cons_done hreset .nil)
  have hclosed := hall .identity none _ _ _ _ _ _ _ _ hrun
    (.cons hafter (.cons .nil .nil)) hput rfl .nil
  exact Bool.noConfusion (hopen.symm.trans hclosed)

end Nxpsc
