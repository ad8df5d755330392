import Nxpsc.Lib.Trace
import Nxpsc.Proofs.Exchange

/-!
# The public calls, by what they put and what they leave

Whatever a data command does with its answer, it makes one exchange, and what
it does behind it concerns the version, the UID and nothing of the session. So
a run of a data command is the request it asks for, refused or exchanged. The
ISO and Plus calls put frames of their own and go past the exchange; most of
them leave the session of the handle alone.
-/

namespace Nxpsc

open Dialogue

/-- The handles agree on the session. -/
structure SameSession (card card' : Card) : Prop where
  authenticated : card'.authenticated = card.authenticated
  sessionLost : card'.sessionLost = card.sessionLost
  channel : card'.channel = card.channel

theorem sameSession_refl (card : Card) : SameSession card card :=
  ⟨rfl, rfl, rfl⟩

theorem SameSession.trans {card card₁ card' : Card}
    (h : SameSession card card₁) (h' : SameSession card₁ card') :
    SameSession card card' :=
  ⟨h'.authenticated.trans h.authenticated,
    h'.sessionLost.trans h.sessionLost, h'.channel.trans h.channel⟩

theorem sameSession_of_part {card card' : Card}
    (h : card'.sessionPart = card.sessionPart) : SameSession card card' :=
  ⟨congrArg SessionPart.authenticated h, congrArg SessionPart.sessionLost h,
    congrArg SessionPart.channel h⟩

/-- What is done with an answer leaves the session alone. -/
def Reports {α : Type} (finish : Bytes → Card → Except Err α × Card) : Prop :=
  ∀ resp card, (finish resp card).2.sessionPart = card.sessionPart

theorem reports_noAnswer : Reports noAnswer := fun _ _ => rfl

theorem reports_copyAnswer (cap : Nat) : Reports (copyAnswer cap) := by
  intro resp card
  rw [copyAnswer]
  split
  · rfl
  · rfl

theorem reports_listAnswer {α : Type} (cap size : Nat) (read : Bytes → α) :
    Reports (listAnswer cap size read) := by
  intro resp card
  rw [listAnswer]
  split
  · rfl
  · rfl

theorem reports_hand :
    Reports fun (resp : Bytes) card => ((.ok resp : Except Err Bytes), card) :=
  fun _ _ => rfl

theorem reports_readAnswer : Reports readAnswer := fun _ _ => rfl

theorem reports_getVersionAnswer : Reports getVersionAnswer := by
  intro resp card
  rw [getVersionAnswer]
  split
  · rfl
  · dsimp only
    split
    · rfl
    · rfl

theorem reports_getCardUidAnswer (cap : Nat) :
    Reports (getCardUidAnswer cap) := by
  intro resp card
  rw [getCardUidAnswer]
  split
  · rfl
  split
  · rfl
  · rfl

theorem reports_guarded {α : Type} {n : Nat} {read : Bytes → α} :
    Reports fun resp card =>
      if resp.length < n then ((.error .length : Except Err α), card)
      else (.ok (read resp), card) := by
  intro resp card
  dsimp only
  split
  · rfl
  · rfl

/-- The conversation ends in an error of the card. -/
def EndsInError (said : Said) : Prop :=
  ∃ pre q a, said = pre ++ [(q, a)] ∧ cardError q a = true

theorem RawEnds.endsInError {card card' : Card} {cmd status : UInt8}
    {n cap : Nat} {follow : Bool} {said : Said} {raw : Bytes}
    (h : RawEnds card cmd n cap follow said (.ok (status, raw)) card')
    (hst : statusEndsSession status = true) : EndsInError said := by
  obtain ⟨-, pre, q, a, hsaid, ha⟩ := h.answer
  refine ⟨pre, q, a, hsaid, ?_⟩
  rw [cardStatus] at ha
  rw [cardError, answerError, ha]
  exact hst

section

variable [BlockCipher]

/-- An exchange leaves the session alone, or ends in an error of the card
after which the flag is set. -/
theorem ExchangeEnds.session {card card' : Card} {cmd : UInt8} {data : Bytes}
    {txMode rxMode : Mode} {cap : Nat} {said : Said} {r : Except Err Bytes}
    (h : ExchangeEnds card cmd data txMode rxMode cap said r card') :
    SameSession card card' ∨
      EndsInError said ∧ card'.sessionLost = true := by
  cases h with
  | unsent hreq =>
      obtain ⟨lastCmd, zeroLen, iv, mode, rfl⟩ := exchangeRequest_frame hreq
      exact .inl ⟨rfl, rfl, rfl⟩
  | cut hreq hraw =>
      obtain ⟨lastCmd, zeroLen, iv, mode, rfl⟩ := exchangeRequest_frame hreq
      obtain ⟨status, rfl⟩ := hraw.frame
      exact .inl ⟨rfl, rfl, rfl⟩
  | answered hreq hraw =>
      obtain ⟨lastCmd, zeroLen, iv, mode, rfl⟩ := exchangeRequest_frame hreq
      rename_i card₂ status
      have hsame : SameSession card card₂ := by
        obtain ⟨last, rfl⟩ := hraw.frame
        exact ⟨rfl, rfl, rfl⟩
      rw [exchangeAnswer]
      split
      · next hst =>
          dsimp only
          split
          · exact .inr ⟨hraw.endsInError hst, rfl⟩
          · exact .inl hsame
      · left
        refine hsame.trans ?_
        dsimp only
        split
        all_goals
          obtain ⟨iv', mismatch, hdec⟩ := channelDecode_frame _ status cap _
          rw [hdec]
          exact ⟨rfl, rfl, rfl⟩

/-- The ways a call of one exchange ends. -/
inductive DataEnds (request : Card → Except Err Request) (card : Card) :
    Said → Card → Prop where
  | refused {e : Err} (hreq : request card = .error e) :
      DataEnds request card [] card
  | exchanged {req : Request} {said : Said} {r : Except Err Bytes}
      {card₁ card' : Card} (hreq : request card = .ok req)
      (hex : ExchangeEnds card req.cmd req.data req.txMode req.rxMode req.cap
        said r card₁)
      (hsame : SameSession card₁ card') :
      DataEnds request card said card'

theorem DataEnds.session {request : Card → Except Err Request}
    {card card' : Card} {said : Said}
    (h : DataEnds request card said card') :
    SameSession card card' ∨
      EndsInError said ∧ card'.sessionLost = true := by
  cases h with
  | refused => exact .inl (sameSession_refl card)
  | exchanged hreq hex hsame =>
      exact hex.session.imp (·.trans hsame)
        (·.imp_right (hsame.sessionLost.trans ·))

/-- What a call of one exchange does: it is refused, or it is the exchange
and nothing else as far as the session goes. -/
inductive DataRuns (request : Card → Except Err Request) (card : Card)
    (script rest : List Answer) : Said → Card → Prop where
  | refused {e : Err} (hreq : request card = .error e) :
      DataRuns request card script rest [] card
  | exchanged {req : Request} {said : Said} {r : Except Err Bytes}
      {card₁ card' : Card} (hreq : request card = .ok req)
      (hrun : exchange req.cmd req.data req.txMode req.rxMode req.cap card
        script = .done said r card₁ rest)
      (hpart : card'.sessionPart = card₁.sessionPart) :
      DataRuns request card script rest said card'

theorem DataRuns.ends {request : Card → Except Err Request}
    {card card' : Card} {script rest : List Answer} {said : Said}
    (h : DataRuns request card script rest said card') :
    DataEnds request card said card' := by
  cases h with
  | refused hreq => exact .refused hreq
  | exchanged hreq hrun hpart =>
      exact .exchanged hreq (exchange_done hrun) (sameSession_of_part hpart)

theorem dataCall_runs {α : Type} {request : Card → Except Err Request}
    {finish : Bytes → Card → Except Err α × Card} (hfinish : Reports finish)
    {card card' : Card} {script rest : List Answer} {said : Said}
    {r : Except Err α}
    (h : dataCall request finish card script = .done said r card' rest) :
    DataRuns request card script rest said card' := by
  rw [dataCall, Prog.get_bind] at h
  cases hreq : request card with
  | error e =>
      rw [hreq, Prog.ofExcept_error_bind, Prog.fail_run] at h
      cases h
      exact .refused hreq
  | ok req =>
      rw [hreq, Prog.ofExcept_ok_bind] at h
      rcases Prog.bind_eq_done.mp h with ⟨e, hex, -⟩ |
        ⟨said₁, resp, card₁, rest₁, said₂, hex, hfin, rfl⟩
      · exact .exchanged hreq hex rfl
      · rw [Prog.act_run] at hfin
        cases hfin
        rw [List.append_nil]
        exact .exchanged hreq hex (hfinish resp card₁)

theorem command_dataCall (cmd : UInt8) (data : Bytes) (txMode rxMode : CommMode)
    (cap : Nat) :
    command cmd data txMode rxMode cap =
      dataCall (DataCommand.command cmd data txMode rxMode cap).request
        fun resp card => (.ok resp, card) := by
  funext card script
  rw [dataCall, Prog.get_bind]
  have hreq : (DataCommand.command cmd data txMode rxMode cap).request card =
      .ok ⟨cmd, data, modeFromPublic txMode, modeFromPublic rxMode, cap⟩ := rfl
  rw [hreq, Prog.ofExcept_ok_bind, Prog.bind_hand]
  rfl

/-- A data command is its request and something done with the answer. -/
theorem dataCommand_run (d : DataCommand) :
    ∃ (α : Type) (finish : Bytes → Card → Except Err α × Card),
      Reports finish ∧ d.run = (dataCall d.request finish).ignore := by
  cases d with
  | command cmd data txMode rxMode cap =>
      exact ⟨_, _, reports_hand, congrArg Prog.ignore (command_dataCall ..)⟩
  | getVersion => exact ⟨_, _, reports_getVersionAnswer, rfl⟩
  | getFreeMemory => exact ⟨_, _, reports_guarded, rfl⟩
  | getSignature cap => exact ⟨_, _, reports_copyAnswer cap, rfl⟩
  | getApplicationIds cap => exact ⟨_, _, reports_listAnswer _ _ _, rfl⟩
  | getKeyVersion keyNo => exact ⟨_, _, reports_guarded, rfl⟩
  | getKeySettings => exact ⟨_, _, reports_guarded, rfl⟩
  | getFileIds cap => exact ⟨_, _, reports_copyAnswer cap, rfl⟩
  | getIsoFileIds cap => exact ⟨_, _, reports_listAnswer _ _ _, rfl⟩
  | getFileSettings fileNo =>
      exact ⟨_, _, fun _ _ => rfl, rfl⟩
  | readData fileNo offset length comm cap =>
      exact ⟨_, _, reports_readAnswer, rfl⟩
  | getValue fileNo comm => exact ⟨_, _, reports_guarded, rfl⟩
  | readRecords fileNo recordNo count comm cap =>
      exact ⟨_, _, reports_readAnswer, rfl⟩
  | commitTransactionTmac =>
      refine ⟨_, _, fun resp card => ?_, rfl⟩
      split
      · rfl
      · rfl
  | commitReaderId readerId cap =>
      refine ⟨_, _, fun resp card => ?_, rfl⟩
      cases cap with
      | none => rfl
      | some cap => exact reports_copyAnswer cap resp card
  | getDelegatedInfo damSlot => exact ⟨_, _, reports_guarded, rfl⟩
  | _ => exact ⟨_, _, reports_noAnswer, (Prog.ignore_unit _).symm⟩

theorem dataCommand_runs {d : DataCommand} {card card' : Card}
    {script rest : List Answer} {said : Said} {r : Except Err Unit}
    (h : d.run card script = .done said r card' rest) :
    DataRuns d.request card script rest said card' := by
  obtain ⟨α, finish, hfinish, hrun⟩ := dataCommand_run d
  rw [hrun] at h
  obtain ⟨r', h, -⟩ := Prog.ignore_eq_done.mp h
  exact dataCall_runs hfinish h

/-- A call whose exchange is attempted, with a reset behind it or not. -/
theorem attempted_runs {α : Type} {request : Card → Except Err Request}
    {card card' : Card} {req : Request} {after : Card → Card}
    {last : Except Err Bytes → Except Err α} {script rest : List Answer}
    {said : Said} {r : Except Err α} (hreq : request card = .ok req)
    (h : (do
        let rc ← Prog.attempt
          (exchange req.cmd req.data req.txMode req.rxMode req.cap)
        Prog.modify after
        Prog.ofExcept (last rc) : Api α) card script =
      .done said r card' rest) :
    ∃ card₁, DataRuns request card script rest said card₁ ∧
      card' = after card₁ := by
  rcases Prog.bind_eq_done.mp h with ⟨e, hatt, -⟩ |
    ⟨said₁, rc, card₁, rest₁, said₂, hatt, hend, rfl⟩
  · obtain ⟨r', hr, -⟩ := Prog.attempt_eq_done.mp hatt
    cases hr
  · obtain ⟨r', hr, hex⟩ := Prog.attempt_eq_done.mp hatt
    rw [Prog.modify_bind, Prog.ofExcept_run] at hend
    cases hend
    rw [List.append_nil]
    exact ⟨card₁, .exchanged hreq hex rfl, rfl⟩

theorem changeKeyCall_runs {ev2 : Bool} {keySet keyNo : UInt8}
    {oldKey newKey : Option Key} {card card' : Card}
    {script rest : List Answer} {said : Said} {r : Except Err Unit}
    (h : changeKeyCall ev2 keySet keyNo oldKey newKey card script =
      .done said r card' rest) :
    ∃ card₁, DataRuns (changeKeyRequest ev2 keySet keyNo oldKey newKey) card
        script rest said card₁ ∧
      (((∃ req, changeKeyRequest ev2 keySet keyNo oldKey newKey card =
          .ok req) ∧ changeEndsSession card ev2 keySet keyNo = true ∧
          card' = resetChannel card₁) ∨
        card' = card₁) := by
  rw [changeKeyCall, Prog.get_bind] at h
  cases hreq : changeKeyRequest ev2 keySet keyNo oldKey newKey card with
  | error e =>
      rw [hreq, Prog.ofExcept_error_bind, Prog.fail_run] at h
      cases h
      exact ⟨card, .refused hreq, .inr rfl⟩
  | ok req =>
      rw [hreq, Prog.ofExcept_ok_bind] at h
      obtain ⟨card₁, hruns, rfl⟩ := attempted_runs hreq h
      refine ⟨card₁, hruns, ?_⟩
      split
      · next hown => exact .inl ⟨⟨req, rfl⟩, hown, rfl⟩
      · exact .inr rfl

end

section

variable [BlockCipher]

theorem identify_runs {card card' : Card} {script rest : List Answer}
    {said : Said} {r : Except Err CardType}
    (h : identify card script = .done said r card' rest) :
    (card.versionRead = false ∧
        DataRuns getVersionRequest card script rest said card') ∨
      card.versionRead = true ∧ said = [] ∧ card' = card := by
  rw [identify, Prog.get_bind] at h
  split at h
  · next hread =>
    refine .inl ⟨hread, ?_⟩
    rcases Prog.bind_eq_done.mp h with ⟨e, hv, -⟩ |
      ⟨said₁, v, card₁, rest₁, said₂, hv, hrest, rfl⟩
    · exact dataCall_runs reports_getVersionAnswer hv
    · rw [Prog.get_bind] at hrest
      cases hrest
      rw [List.append_nil]
      exact dataCall_runs reports_getVersionAnswer hv
  · next hread =>
    cases h
    exact .inr ⟨Bool.eq_true_of_not_eq_false hread, rfl, rfl⟩

theorem getCardUid_runs {cap : Nat} {card card' : Card}
    {script rest : List Answer} {said : Said} {r : Except Err Bytes}
    (h : getCardUid cap card script = .done said r card' rest) :
    (card.authenticated = true ∧
        DataRuns getCardUidRequest card script rest said card') ∨
      card.authenticated = false ∧ said = [] ∧ card' = card := by
  rw [getCardUid, Prog.get_bind] at h
  split at h
  · next hauth =>
    cases h
    exact .inr ⟨hauth, rfl, rfl⟩
  · next hauth =>
    exact .inl ⟨Bool.eq_true_of_not_eq_false hauth,
      dataCall_runs (reports_getCardUidAnswer cap) h⟩

/-- A call of one exchange is that exchange, or nothing; behind it the handle
may be reset. -/
theorem request_runs {call : Call} {request : Card → Except Err Request}
    {card card' : Card} {script rest : List Answer} {said : Said}
    {r : Except Err Unit} (hreq : call.request = some request)
    (h : call.run card script = .done said r card' rest) :
    ∃ card₁, ((call.skips card = false ∧
          DataRuns request card script rest said card₁) ∨
        call.skips card = true ∧ said = [] ∧ card₁ = card) ∧
      ((call.givesUp card ∧ card' = resetChannel card₁) ∨ card' = card₁) := by
  cases call with
  | data d =>
      cases hreq
      exact ⟨card', .inl ⟨rfl, dataCommand_runs h⟩, .inr rfl⟩
  | identify =>
      cases hreq
      obtain ⟨r', h, -⟩ := Prog.ignore_eq_done.mp h
      exact ⟨card', identify_runs h, .inr rfl⟩
  | getCardUid cap =>
      cases hreq
      obtain ⟨r', h, -⟩ := Prog.ignore_eq_done.mp h
      refine ⟨card', (getCardUid_runs h).imp (And.imp_left fun hauth => ?_)
        (And.imp_left fun hno => ?_), .inr rfl⟩
      · rw [Call.skips, hauth]
        rfl
      · rw [Call.skips, hno]
        rfl
  | changeKey keyNo oldKey newKey =>
      cases hreq
      obtain ⟨card₁, hruns, ⟨hr, hown, hcard⟩ | hcard⟩ := changeKeyCall_runs h
      · exact ⟨card₁, .inl ⟨rfl, hruns⟩, .inl ⟨⟨hr, hown⟩, hcard⟩⟩
      · exact ⟨card₁, .inl ⟨rfl, hruns⟩, .inr hcard⟩
  | changeKeyEv2 keySet keyNo oldKey newKey =>
      cases hreq
      obtain ⟨card₁, hruns, ⟨hr, hown, hcard⟩ | hcard⟩ := changeKeyCall_runs h
      · exact ⟨card₁, .inl ⟨rfl, hruns⟩, .inl ⟨⟨hr, hown⟩, hcard⟩⟩
      · exact ⟨card₁, .inl ⟨rfl, hruns⟩, .inr hcard⟩
  | rollKeySet keySet =>
      cases hreq
      obtain ⟨card₁, hruns, hcard⟩ : ∃ card₁, DataRuns
          (fun _ => .ok ⟨dfRollKeySettings, [keySet], .mac, .plain, 16⟩) card
          script rest said card₁ ∧ card' = resetChannel card₁ :=
        attempted_runs rfl h
      exact ⟨card₁, .inl ⟨rfl, hruns⟩, .inl ⟨trivial, hcard⟩⟩
  | _ => cases hreq

theorem request_done {call : Call} {request : Card → Except Err Request}
    {card card' : Card} {script rest : List Answer} {said : Said}
    {r : Except Err Unit} (hreq : call.request = some request)
    (h : call.run card script = .done said r card' rest) :
    ∃ card₁, (DataEnds request card said card₁ ∨ said = [] ∧ card₁ = card) ∧
      (call.givesUp card ∨ card' = card₁) := by
  obtain ⟨card₁, hruns, hcard⟩ := request_runs hreq h
  exact ⟨card₁, hruns.imp (fun h => h.2.ends) And.right,
    hcard.imp_left And.left⟩

end

/-! ## GetDFNames -/

theorem rawFrame_frame (cap : Nat) (answer : Answer) (card : Card) :
    ∃ status,
      (rawFrame cap answer card).2 = { card with lastStatus := status } := by
  rw [rawFrame]
  split
  · exact ⟨card.lastStatus, rfl⟩
  · split
    · exact ⟨card.lastStatus, rfl⟩
    · exact ⟨_, rfl⟩

theorem dfNamesReact_frame (cap : Nat) (b : UInt8 × List App)
    (answer : Answer) (card : Card) :
    ∃ status,
      (dfNamesReact cap b answer card).2 =
        { card with lastStatus := status } := by
  obtain ⟨status, hframe⟩ := rawFrame_frame 64 answer card
  rw [dfNamesReact]
  split
  · next heq =>
      rw [heq] at hframe
      exact ⟨status, hframe⟩
  · next last frame after heq =>
      rw [heq] at hframe
      obtain rfl : after = { card with lastStatus := status } := hframe
      split
      · exact ⟨_, rfl⟩
      dsimp only
      split
      · exact ⟨_, rfl⟩
      · exact ⟨_, rfl⟩

theorem getDfNames_frame {cap : Nat} {card card' : Card}
    {script rest : List Answer} {said : Said} {r : Except Err (List App)}
    (h : getDfNames cap card script = .done said r card' rest) :
    ∃ status, card' = { card with lastStatus := status } := by
  rw [getDfNames, Prog.get_bind] at h
  split at h
  · cases h
    exact ⟨card.lastStatus, rfl⟩
  have hreact : ∀ {b : UInt8 × List App} {a : Answer} {s s' : Card}
      {r : Except Err ((UInt8 × List App) ⊕ List App)},
      (∃ status, s = { card with lastStatus := status }) →
      dfNamesReact cap b a s = (r, s') →
      ∃ status, s' = { card with lastStatus := status } := by
    rintro b a _ s' r ⟨status, rfl⟩ hr
    obtain ⟨status', hframe⟩ := dfNamesReact_frame cap b a
      { card with lastStatus := status }
    rw [hr] at hframe
    exact ⟨status', hframe⟩
  exact Prog.converse_done
    (fun _ _ s => ∃ status, s = { card with lastStatus := status })
    (fun _ _ s => ∃ status, s = { card with lastStatus := status })
    (fun _ _ _ _ hI _ => hI)
    (fun _ _ _ _ _ _ _ hI _ hr => hreact hI hr)
    (fun _ _ _ _ _ _ _ hI _ hr => hreact hI hr)
    (fun _ _ _ _ _ _ _ hI _ hr => hreact hI hr) ⟨card.lastStatus, rfl⟩ h

/-! ## The calls past the exchange -/

/-- What a call past the exchange is made of stands in `R`. -/
structure ForeignRule (R : Card → Said → Card → Prop) : Prop where
  composes : Composes R
  part : ∀ {card card' : Card}, card'.sessionPart = card.sessionPart →
    R card [] card'
  asked : ∀ (card : Card) {q : Frame} (a : Answer), q.opcode = none →
    R card [(q, a)] card

/-- Only frames without an opcode, and a session is not given up. -/
structure Foreign (card : Card) (said : Said) (card' : Card) : Prop where
  frames : ∀ qa ∈ said, qa.1.opcode = none
  authenticated : card.authenticated = true → card'.authenticated = true
  sessionLost : card.sessionLost = true → card'.sessionLost = true

theorem composes_foreign : Composes Foreign where
  nil _ := ⟨fun _ h => absurd h List.not_mem_nil, id, id⟩
  append hu hv :=
    ⟨fun qa hqa => (List.mem_append.mp hqa).elim (hu.frames qa) (hv.frames qa),
      fun h => hv.authenticated (hu.authenticated h),
      fun h => hv.sessionLost (hu.sessionLost h)⟩

theorem foreign_nil {card card' : Card}
    (hauth : card.authenticated = true → card'.authenticated = true)
    (hlost : card.sessionLost = true → card'.sessionLost = true) :
    Foreign card [] card' :=
  ⟨fun _ h => absurd h List.not_mem_nil, hauth, hlost⟩

theorem foreignRule_foreign : ForeignRule Foreign where
  composes := composes_foreign
  part h :=
    have hsame := sameSession_of_part h
    foreign_nil hsame.authenticated.trans hsame.sessionLost.trans
  asked _ _ _ hq :=
    ⟨fun qa hqa => by rw [List.mem_singleton.mp hqa]; exact hq, id, id⟩

/-- The session is as it was. -/
def KeepsPart (card : Card) (_ : Said) (card' : Card) : Prop :=
  card'.sessionPart = card.sessionPart

theorem foreignRule_keepsPart : ForeignRule KeepsPart where
  composes := ⟨fun _ => rfl, fun hu hv => Eq.trans hv hu⟩
  part h := h
  asked _ _ _ _ := rfl

section

variable {R : Card → Said → Card → Prop}

theorem traces_isoExchange (hR : ForeignRule R) (cla ins p1 p2 : UInt8)
    (data : Bytes) (lePresent : Bool) (le cap : Nat) :
    (isoExchange cla ins p1 p2 data lePresent le cap).Traces R := by
  rw [isoExchange, isoRequest]
  split
  · rw [Prog.ofExcept_error_bind]
    exact Prog.traces_fail hR.composes _
  · rw [Prog.ofExcept_ok_bind]
    refine Prog.traces_bind hR.composes
      (Prog.traces_ask fun card a => hR.asked card a rfl) fun answer =>
        Prog.traces_act fun card => ?_
    simp only [isoAnswer]
    repeat' split
    all_goals exact hR.part rfl

theorem traces_plusTransceive (hR : ForeignRule R) (tx : Bytes)
    (cap : Nat) :
    (plusTransceive tx cap).Traces R := by
  refine Prog.traces_bind hR.composes
    (Prog.traces_ask fun card a => hR.asked card a rfl) fun answer =>
      Prog.traces_act fun card => ?_
  simp only [plusAnswer]
  repeat' split
  all_goals exact hR.part rfl

theorem traces_isoSelectDfName (hR : ForeignRule R) (dfName : Bytes) :
    (isoSelectDfName dfName).Traces R :=
  Prog.traces_ite (Prog.traces_fail hR.composes _)
    (Prog.traces_ignore (traces_isoExchange hR _ _ _ _ _ _ _ _))

theorem traces_isoReadBinary (hR : ForeignRule R) (sfi : UInt8)
    (offset : UInt16) (length cap : Nat) :
    (isoReadBinary sfi offset length cap).Traces R :=
  Prog.traces_bind hR.composes (Prog.traces_ofExcept hR.composes _)
    fun _ => Prog.traces_bind hR.composes
      (traces_isoExchange hR _ _ _ _ _ _ _ _)
      fun _ => Prog.traces_pure hR.composes _

theorem traces_isoUpdateBinary (hR : ForeignRule R) (sfi : UInt8)
    (offset : UInt16) (data : Bytes) :
    (isoUpdateBinary sfi offset data).Traces R :=
  Prog.traces_ite (Prog.traces_fail hR.composes _)
    (Prog.traces_bind hR.composes
      (Prog.traces_ofExcept hR.composes _)
      fun _ => Prog.traces_ignore (traces_isoExchange hR _ _ _ _ _ _ _ _))

section

variable [BlockCipher]

theorem traces_plusRead (hR : ForeignRule R) (block : UInt16)
    (count : UInt8) (encrypted maced : Bool) (cap : Nat) :
    (plusRead block count encrypted maced cap).Traces R := by
  refine Prog.traces_ite (Prog.traces_fail hR.composes _)
    (Prog.traces_bind hR.composes (Prog.traces_get hR.composes)
      fun card => Prog.traces_ite (Prog.traces_fail hR.composes _)
        (Prog.traces_ite (Prog.traces_fail hR.composes _)
          (Prog.traces_bind hR.composes
            (Prog.traces_ofExcept hR.composes _) fun mac =>
              Prog.traces_bind hR.composes (traces_plusTransceive hR _ _)
                fun resp => Prog.traces_act fun card => ?_)))
  simp only [plusReadAnswer]
  repeat' split
  all_goals exact hR.part rfl

theorem traces_plusMaced (hR : ForeignRule R) (block : UInt16) (cmd : Bytes) :
    (plusMaced block cmd).Traces R :=
  Prog.traces_bind hR.composes (Prog.traces_get hR.composes)
    fun _ => Prog.traces_bind hR.composes
      (Prog.traces_ofExcept hR.composes _) fun _ =>
        Prog.traces_bind hR.composes (traces_plusTransceive hR _ _)
          fun _ => Prog.traces_act fun _ => hR.part rfl

theorem traces_plusWriteBlock (hR : ForeignRule R) (opcode : UInt8)
    (block : UInt16) (data : Bytes) (encrypted : Bool) :
    (plusWriteBlock opcode block data encrypted).Traces R :=
  Prog.traces_ite (Prog.traces_fail hR.composes _)
    (Prog.traces_bind hR.composes (Prog.traces_get hR.composes)
      fun _ => Prog.traces_ite (Prog.traces_fail hR.composes _)
        (Prog.traces_bind hR.composes
          (Prog.traces_ofExcept hR.composes _)
          fun _ => traces_plusMaced hR _ _))

theorem traces_plusValueCmd (hR : ForeignRule R) (credit debit : UInt8)
    (block : UInt16) (delta : Int32) (isCredit encrypted : Bool) :
    (plusValueCmd credit debit block delta isCredit encrypted).Traces R :=
  Prog.traces_bind hR.composes (Prog.traces_get hR.composes)
    fun _ => Prog.traces_ite (Prog.traces_fail hR.composes _)
      (traces_plusWriteBlock hR _ _ _ _)

theorem traces_plusBlockCmd (hR : ForeignRule R) (opcode : UInt8)
    (block : UInt16) :
    (plusBlockCmd opcode block).Traces R :=
  Prog.traces_bind hR.composes (Prog.traces_get hR.composes)
    fun _ => Prog.traces_ite (Prog.traces_fail hR.composes _)
      (traces_plusMaced hR _ _)

theorem plusAccept_frame (keyBlock : UInt16) (key : Key) (first : Bool)
    (ivRead rndA rndB resp : Bytes) (card : Card) :
    (card.authenticated = true →
      (plusAccept keyBlock key first ivRead rndA rndB resp
        card).2.authenticated = true) ∧
    (card.sessionLost = true →
      (plusAccept keyBlock key first ivRead rndA rndB resp
        card).2.sessionLost = true) := by
  simp only [plusAccept]
  repeat' split
  all_goals
    first
    | exact ⟨fun h => h, fun h => h⟩
    | exact ⟨fun _ => rfl, fun h => h⟩

/-- The handshake that follows another leaves a session where there is one. -/
theorem traces_plusAuthenticate (rng : Rng) (keyBlock : UInt16)
    (key : Option Key) :
    (plusAuthenticate rng keyBlock key false).Traces Foreign := by
  cases key with
  | none => exact Prog.traces_fail composes_foreign _
  | some key =>
      refine Prog.traces_ite (Prog.traces_fail composes_foreign _)
        (Prog.traces_bind composes_foreign
          (Prog.traces_act fun _ => foreign_nil id id) fun _ =>
            Prog.traces_bind composes_foreign
              (traces_plusTransceive foreignRule_foreign _ _) fun resp =>
              Prog.traces_ite (Prog.traces_fail composes_foreign _)
                (Prog.traces_bind composes_foreign
                  (Prog.traces_get composes_foreign) fun card => ?_))
      refine Prog.traces_bind composes_foreign
        (Prog.traces_ofExcept composes_foreign _) fun rndA =>
          Prog.traces_bind composes_foreign
            (Prog.traces_ofExcept composes_foreign _) fun token =>
              Prog.traces_bind composes_foreign
                (traces_plusTransceive foreignRule_foreign _ _) fun proof =>
                Prog.traces_act fun card => ?_
      obtain ⟨hauth, hlost⟩ := plusAccept_frame keyBlock key false _ rndA
        token.2 proof card
      exact foreign_nil hauth hlost

/-- The calls that leave the session of the handle, and of a DESFire card,
alone: the settings, ISO access and Plus, but for a new Plus session. -/
def Call.foreign : Call → Bool
  | .setCmdset _ | .setCommmode _ | .setIsoChaining _ | .isoSelectDfName _
  | .isoSelectFid .. | .isoReadBinary .. | .isoUpdateBinary .. | .plusRead ..
  | .plusWrite .. | .plusWritePerso .. | .plusCommitPerso | .plusValueOp ..
  | .plusValueTransfer .. | .plusTransfer _ | .plusRestore _
  | .plusSetConfigSl1 _ | .plusPersonalizeUid _
  | .plusVcSupportLastIsoL3 _ => true
  | .plusAuthenticate _ _ _ first => !first
  | _ => false

/-- The calls of these that touch no handshake. -/
def Call.passes : Call → Bool
  | .plusAuthenticate .. => false
  | call => call.foreign

theorem traces_passes (hR : ForeignRule R) {call : Call}
    (h : call.passes = true) : call.run.Traces R := by
  cases call with
  | setCmdset cmdset => exact Prog.traces_act fun _ => hR.part rfl
  | setCommmode mode => exact Prog.traces_act fun _ => hR.part rfl
  | setIsoChaining enable => exact Prog.traces_act fun _ => hR.part rfl
  | isoSelectDfName dfName => exact traces_isoSelectDfName hR dfName
  | isoSelectFid fid isEf =>
      exact Prog.traces_ignore (traces_isoExchange hR _ _ _ _ _ _ _ _)
  | isoReadBinary sfi offset length cap =>
      exact Prog.traces_ignore (traces_isoReadBinary hR sfi offset length cap)
  | isoUpdateBinary sfi offset data =>
      exact traces_isoUpdateBinary hR sfi offset data
  | plusRead block count encrypted maced cap =>
      exact Prog.traces_ignore (traces_plusRead hR _ _ _ _ _)
  | plusWrite block data encrypted => exact traces_plusWriteBlock hR _ _ _ _
  | plusWritePerso block data =>
      exact Prog.traces_ite (Prog.traces_fail hR.composes _)
        (Prog.traces_ignore (traces_plusTransceive hR _ _))
  | plusCommitPerso => exact Prog.traces_ignore (traces_plusTransceive hR _ _)
  | plusValueOp block delta credit encrypted =>
      exact traces_plusValueCmd hR _ _ _ _ _ _
  | plusValueTransfer block delta credit encrypted =>
      exact traces_plusValueCmd hR _ _ _ _ _ _
  | plusTransfer block => exact traces_plusBlockCmd hR _ _
  | plusRestore block => exact traces_plusBlockCmd hR _ _
  | plusSetConfigSl1 data =>
      exact Prog.traces_ite (Prog.traces_fail hR.composes _)
        (Prog.traces_ignore (traces_plusTransceive hR _ _))
  | plusPersonalizeUid uidType =>
      exact Prog.traces_ignore (traces_plusTransceive hR _ _)
  | plusVcSupportLastIsoL3 cap =>
      exact Prog.traces_ignore (traces_plusTransceive hR _ _)
  | _ => cases h

theorem traces_foreign {call : Call} (h : call.foreign = true) :
    call.run.Traces Foreign := by
  cases hpass : call.passes with
  | true => exact traces_passes foreignRule_foreign hpass
  | false =>
      cases call with
      | plusAuthenticate rng keyBlock key first =>
          cases first with
          | true => cases h
          | false => exact traces_plusAuthenticate rng keyBlock key
      | _ => exact absurd (hpass.symm.trans h) Bool.false_ne_true

end

end

/-! ## The calls that set up no session and make no exchange -/

/-- What such calls keep: a property of the session that a reset leaves. -/
structure QuietRule (I : Card → Prop) : Prop where
  part : ∀ {card card' : Card}, I card →
    card'.sessionPart = card.sessionPart → I card'
  reset : ∀ card, I (resetChannel card)

section

variable {I : Card → Prop}

theorem QuietRule.rawExchangeEx (hI : QuietRule I) (cmd : UInt8)
    (data : Bytes) (cap : Nat) (follow : Bool) :
    (Nxpsc.rawExchangeEx cmd data cap follow).Keeps I :=
  keeps_rawExchangeEx (fun _ _ h => hI.part h rfl) cmd data cap follow

theorem QuietRule.dropSession (hI : QuietRule I) {α : Type} (e : Err) :
    (Nxpsc.dropSession e : Api α).Keeps I :=
  Prog.keeps_bind (Prog.keeps_act fun card _ => hI.reset card) fun _ =>
    Prog.keeps_fail e

theorem QuietRule.rounds (hI : QuietRule I) (split left : Nat)
    (rest exchanged : Bytes) :
    (pcRounds split left rest exchanged).Keeps I := by
  induction left generalizing rest exchanged with
  | zero => exact Prog.keeps_pure _
  | succ left ih =>
      rw [pcRounds]
      refine Prog.keeps_ite (Prog.keeps_fail _)
        (Prog.keeps_bind (hI.rawExchangeEx _ _ _ _) fun answer => ?_)
      exact Prog.keeps_ite (hI.dropSession _) (ih _ _)

theorem QuietRule.getDfNames (hI : QuietRule I) (cap : Nat) :
    (Nxpsc.getDfNames cap).Keeps I := by
  intro s script said r s' rest h hdone
  obtain ⟨status, rfl⟩ := getDfNames_frame hdone
  exact hI.part h rfl

variable [BlockCipher]

theorem QuietRule.proximityCheck (hI : QuietRule I) (rng : Rng) (pcKey : Key)
    (rounds : Nat) : (Nxpsc.proximityCheck rng pcKey rounds).Keeps I := by
  refine Prog.keeps_ite (Prog.keeps_fail _) (Prog.keeps_ite (Prog.keeps_fail _)
    (Prog.keeps_bind (Prog.keeps_ofExcept _) fun challenge =>
      Prog.keeps_bind (hI.rawExchangeEx _ _ _ _) fun prep =>
        Prog.keeps_ite (hI.dropSession _) ?_))
  split
  · exact hI.dropSession _
  refine Prog.keeps_bind (hI.rounds _ _ _ _) fun exchanged =>
    Prog.keeps_bind (Prog.keeps_ofExcept _) fun mac =>
      Prog.keeps_bind (hI.rawExchangeEx _ _ _ _) fun verify =>
        Prog.keeps_ite (hI.dropSession _) (Prog.keeps_ite (Prog.keeps_fail _)
          (Prog.keeps_bind (Prog.keeps_ofExcept _) fun expected =>
            Prog.keeps_ite (Prog.keeps_fail _) (Prog.keeps_pure _)))

def Call.quiet : Call → Bool
  | .resetChannel | .getDfNames _ | .proximityCheck .. | .ntag424Select
  | .plusResetAuth => true
  | call => call.passes

theorem QuietRule.keeps (hI : QuietRule I) {call : Call}
    (h : call.quiet = true) : call.run.Keeps I := by
  cases hpass : call.passes with
  | true =>
      intro s script said r s' rest hs hdone
      exact hI.part hs
        (traces_passes foreignRule_keepsPart hpass _ _ _ _ _ _ hdone)
  | false =>
      have hreset : (Prog.modify resetChannel : Api Unit).Keeps I :=
        Prog.keeps_act fun card _ => hI.reset card
      cases call with
      | resetChannel => exact hreset
      | getDfNames cap => exact Prog.keeps_ignore (hI.getDfNames cap)
      | proximityCheck rng pcKey rounds => exact hI.proximityCheck _ _ _
      | ntag424Select =>
          refine Prog.keeps_bind (fun s script said r s' rest hs hdone => ?_)
            fun _ => Prog.keeps_act fun card _ => hI.reset _
          exact hI.part hs (traces_isoSelectDfName foreignRule_keepsPart _ _ _
            _ _ _ _ hdone)
      | plusResetAuth =>
          refine Prog.keeps_bind (Prog.keeps_attempt
            fun s script said r s' rest hs hdone => ?_) fun rc =>
              Prog.keeps_bind hreset fun _ => Prog.keeps_ofExcept _
          exact hI.part hs (traces_plusTransceive foreignRule_keepsPart _ _ _
            _ _ _ _ _ hdone)
      | _ => exact absurd (hpass.symm.trans h) Bool.false_ne_true

end

/-! ## The calls that make one exchange -/

/-- What an exchange keeps, whatever it writes to the IV: a loss of the session
resets, and the counter moves in a session only. -/
structure RequestRule (I : Card → Prop) : Prop extends QuietRule I where
  lost : ∀ card, I { resetChannel card with sessionLost := true }
  iv : ∀ card iv, I card → I { card with iv := iv }
  counted : ∀ card, card.authenticated = true → I card →
    I { card with cmdCtr := card.cmdCtr + 1 }

section

variable {I : Card → Prop}

theorem RequestRule.codec (hI : RequestRule I) {card : Card} (h : I card)
    (lastCmd : UInt8) (zeroLen mismatch : Bool) (iv : Buf 16) (mode : Mode) :
    I { card with
        lastCmd := lastCmd, lastRequestZeroLen := zeroLen
        macMismatch := mismatch, iv := iv, mode := mode } :=
  hI.part (hI.iv card iv h) rfl

variable [BlockCipher]

theorem RequestRule.answer (hI : RequestRule I) {card : Card} (h : I card)
    (rxMode : Mode) (cap : Nat) (status : UInt8) (raw : Bytes) :
    I (exchangeAnswer rxMode cap status raw card).2 := by
  rw [exchangeAnswer]
  split
  · dsimp only
    split
    · exact hI.lost card
    · exact h
  have hcount : I (if status ≠ dfSAdditionalFrame ∧
      card.authenticated = true ∧
      (card.channel = .ev2 ∨ card.channel = .lrp) then
        { card with cmdCtr := card.cmdCtr + 1 } else card) := by
    split
    · next hsession => exact hI.counted card hsession.2.1 h
    · exact h
  dsimp only
  generalize (if status ≠ dfSAdditionalFrame ∧ card.authenticated = true ∧
    (card.channel = .ev2 ∨ card.channel = .lrp) then
      { card with cmdCtr := card.cmdCtr + 1 } else card) = card₁ at hcount
  obtain ⟨iv, mismatch, hdec⟩ :=
    channelDecode_frame raw status cap { card₁ with mode := rxMode }
  rw [hdec]
  exact hI.codec hcount card₁.lastCmd card₁.lastRequestZeroLen mismatch iv
    rxMode

theorem RequestRule.exchange (hI : RequestRule I) {card card' : Card}
    (h : I card) {cmd : UInt8} {data : Bytes} {txMode rxMode : Mode}
    {cap : Nat} {said : Said} {r : Except Err Bytes}
    (hends : ExchangeEnds card cmd data txMode rxMode cap said r card') :
    I card' := by
  have hrequest : ∀ {r : Except Err Bytes} {card₁ : Card},
      exchangeRequest cmd data txMode rxMode card = (r, card₁) → I card₁ := by
    intro r card₁ hreq
    obtain ⟨lastCmd, zeroLen, iv, mode, rfl⟩ := exchangeRequest_frame hreq
    exact hI.codec h lastCmd zeroLen false iv mode
  have hstatus : ∀ {card₁ : Card} status, I card₁ →
      I { card₁ with lastStatus := status } := fun _ h => hI.part h rfl
  cases hends with
  | unsent hreq => exact hrequest hreq
  | cut hreq hraw =>
      obtain ⟨status, rfl⟩ := hraw.frame
      exact hstatus status (hrequest hreq)
  | answered hreq hraw =>
      obtain ⟨status, rfl⟩ := hraw.frame
      exact hI.answer (hstatus status (hrequest hreq)) _ _ _ _

theorem RequestRule.runs (hI : RequestRule I) {card card' : Card} (h : I card)
    {request : Card → Except Err Request} {script rest : List Answer}
    {said : Said} (hruns : DataRuns request card script rest said card') :
    I card' := by
  cases hruns with
  | refused => exact h
  | exchanged hreq hrun hpart =>
      have hends := exchange_done hrun
      exact hI.part (hI.exchange h hends) hpart

theorem RequestRule.request (hI : RequestRule I) {card card' : Card}
    (h : I card) {call : Call} {request : Card → Except Err Request}
    {script rest : List Answer} {said : Said} {r : Except Err Unit}
    (hreq : call.request = some request)
    (hrun : call.run card script = .done said r card' rest) : I card' := by
  obtain ⟨card₁, hruns, hcard⟩ := request_runs hreq hrun
  have h₁ : I card₁ := by
    rcases hruns with ⟨-, hruns⟩ | ⟨-, -, rfl⟩
    · exact hI.runs h hruns
    · exact h
  rcases hcard with ⟨-, rfl⟩ | rfl
  · exact hI.reset card₁
  · exact h₁

theorem RequestRule.selectApplication (hI : RequestRule I) (aid : UInt32) :
    (Nxpsc.selectApplication aid).Keeps I := by
  refine Prog.keeps_ite (Prog.keeps_fail _) (Prog.keeps_bind
    (Prog.keeps_act fun card _ => hI.reset card) fun _ => ?_)
  intro card script said r card' rest h hrun
  have hruns := dataCall_runs (fun _ _ => rfl) hrun
  exact hI.runs h hruns

end

end Nxpsc
