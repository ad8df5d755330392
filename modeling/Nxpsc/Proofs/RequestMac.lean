import Nxpsc.Proofs.Downgrade
import Nxpsc.Proofs.Reply
import Nxpsc.Proofs.RequestShape
import Nxpsc.Proofs.RoundTrip

/-!
# A command whose answer is verified carries a MAC

On EV2 and LRP the encoder puts a MAC behind every request but a plain one,
so what a call sends is decided by the request mode it picks. The table of
requests is gone through once: a call that asks for a plain request and a
verified answer is one of the four that `sendsBare` lists.
-/

namespace Nxpsc

open Dialogue

/-! ## The table -/

/-- Where the request is plain, so is the answer. -/
def PlainBoth (r : Except Err Request) : Prop :=
  ∀ req, r = .ok req → req.txMode = .plain → req.rxMode = .plain

theorem plainBoth_error (e : Err) : PlainBoth (.error e) :=
  fun _ h => by cases h

theorem plainBoth_ite {p : Prop} [Decidable p] {r r' : Except Err Request}
    (hr : PlainBoth r) (hr' : PlainBoth r') :
    PlainBoth (if p then r else r') := by
  split
  · exact hr
  · exact hr'

theorem plainBoth_refused {p : Prop} [Decidable p] {e : Err}
    {r : Except Err Request} (hr : PlainBoth r) :
    PlainBoth (if p then .error e else r) :=
  plainBoth_ite (plainBoth_error e) hr

theorem plainBoth_same (cmd : UInt8) (data : Bytes) (mode : Mode) (cap : Nat) :
    PlainBoth (.ok ⟨cmd, data, mode, mode, cap⟩) := by
  intro req h htx
  cases h
  exact htx

theorem plainBoth_protected {cmd : UInt8} {data : Bytes} {txMode rxMode : Mode}
    {cap : Nat} (htx : txMode ≠ .plain) :
    PlainBoth (.ok ⟨cmd, data, txMode, rxMode, cap⟩) := by
  intro req h hplain
  cases h
  exact absurd hplain htx

theorem plainBoth_macRequest (cmd : UInt8) (data : Bytes) (cap : Nat)
    (card : Card) : PlainBoth (macRequest cmd data cap card) :=
  plainBoth_same _ _ _ _

theorem plainBoth_write (cmd : UInt8) (data : Bytes) (comm : CommMode)
    (card : Card) : PlainBoth (.ok (writeRequest cmd data comm card)) := by
  intro req h htx
  cases h
  rw [writeRequest] at htx ⊢
  exact if_pos htx

theorem plainBoth_setConfiguration (option : UInt8) (data : Bytes)
    (card : Card) : PlainBoth (setConfigurationRequest option data card) :=
  plainBoth_refused (plainBoth_refused (plainBoth_protected (by decide)))

theorem plainBoth_changeFileSettings (fileNo : UInt8) (data : Bytes)
    (card : Card) : PlainBoth (changeFileSettingsRawRequest fileNo data card) :=
  plainBoth_refused (plainBoth_refused (plainBoth_protected (by decide)))

theorem plainBoth_createApp (aid : UInt32) (cfg : AppConfig) (card : Card) :
    PlainBoth (createAppRequest aid cfg card) :=
  plainBoth_refused (plainBoth_refused (plainBoth_refused (plainBoth_refused
    (plainBoth_refused (plainBoth_macRequest _ _ _ _)))))

theorem plainBoth_createData (cmd fileNo : UInt8) (fid : UInt16)
    (comm : CommMode) (access : Access) (size : UInt32) (card : Card) :
    PlainBoth (createDataFileRequest cmd fileNo fid comm access size card) :=
  plainBoth_refused (plainBoth_macRequest _ _ _ _)

/-- The data commands but the generic one and the three bare ones. -/
theorem dataCommand_plainBoth {d : DataCommand} {card : Card}
    (hgeneric : (Call.data d).generic = false)
    (hbare : (Call.data d).sendsBare card = false) :
    PlainBoth (d.request card) := by
  cases d with
  | command => cases hgeneric
  | getVersion | getFreeMemory | getSignature => cases hbare
  | createApplication | createApplicationIso | createApplicationEx =>
      exact plainBoth_createApp _ _ _
  | setConfiguration => exact plainBoth_setConfiguration _ _ _
  | setPiccConfigEx config =>
      rw [DataCommand.request, setPiccConfigExRequest]
      exact plainBoth_setConfiguration _ _ _
  | setPiccConfig disableFormat randomUid =>
      rw [DataCommand.request, setPiccConfigRequest, setPiccConfigExRequest]
      exact plainBoth_setConfiguration _ _ _
  | setDefaultKey | setAts =>
      exact plainBoth_refused (plainBoth_setConfiguration _ _ _)
  | changeKeySettings =>
      exact plainBoth_refused (plainBoth_protected (by decide))
  | changeFileSettings fileNo comm access =>
      rw [DataCommand.request, changeFileSettingsRequest]
      exact plainBoth_changeFileSettings _ _ _
  | changeFileSettingsRaw => exact plainBoth_changeFileSettings _ _ _
  | sdmConfigure fileNo comm access sdm =>
      rw [DataCommand.request, sdmConfigureRequest]
      split
      · exact plainBoth_error _
      · exact plainBoth_changeFileSettings _ _ _
  | createStdFile | createBackupFile => exact plainBoth_createData _ _ _ _ _ _ _
  | createRecordFile =>
      exact plainBoth_refused (plainBoth_macRequest _ _ _ _)
  | createValueFile => exact plainBoth_macRequest _ _ _ _
  | readData | readRecords => exact plainBoth_refused (plainBoth_same _ _ _ _)
  | getValue => exact plainBoth_same _ _ _ _
  | writeData | writeRecord | updateRecord =>
      exact plainBoth_refused (plainBoth_write _ _ _ _)
  | credit | limitedCredit | debit => exact plainBoth_write _ _ _ _
  | commitReaderId =>
      exact plainBoth_refused (plainBoth_refused
        (plainBoth_protected (by decide)))
  | createTransactionMacFile | createMfcMapping =>
      exact plainBoth_refused (plainBoth_protected (by decide))
  | createDelegatedApplication =>
      exact plainBoth_refused (plainBoth_refused (plainBoth_refused
        (plainBoth_protected (by decide))))
  | getDelegatedInfo | finalizeKeySet => exact plainBoth_protected (by decide)
  | restrictMfcUpdate => exact plainBoth_refused (plainBoth_same _ _ _ _)
  | notifyTransactionSuccess => exact plainBoth_same _ _ _ _
  | initKeySet keySet keyType =>
      cases keyType with
      | aes256 => exact plainBoth_error _
      | _ => exact plainBoth_protected (by decide)
  | _ => exact plainBoth_macRequest _ _ _ _

theorem changeKey_plainBoth (ev2 : Bool) (keySet keyNo : UInt8)
    (oldKey newKey : Option Key) (card : Card) :
    PlainBoth (changeKeyRequest ev2 keySet keyNo oldKey newKey card) := by
  cases newKey with
  | none => exact plainBoth_error _
  | some newKey =>
      refine plainBoth_refused (plainBoth_refused ?_)
      dsimp only
      split
      · exact plainBoth_error _
      · exact plainBoth_protected (by decide)

/-- What a call asks for on EV2 and LRP, but for the bare ones. -/
theorem exchanges_plainBoth {call : Call} {card before : Card} {req : Request}
    (hchan : card.channel = .ev2 ∨ card.channel = .lrp)
    (hgeneric : call.generic = false) (hbare : call.sendsBare card = false)
    (h : call.Exchanges card before req) (htx : req.txMode = .plain) :
    req.rxMode = .plain := by
  cases call with
  | data d =>
      obtain ⟨-, -, request, hreq, hok⟩ := h
      cases hreq
      exact dataCommand_plainBoth hgeneric hbare req hok htx
  | identify =>
      obtain ⟨-, hskips, -⟩ := h
      rw [Call.sendsBare, show card.versionRead = false from hskips] at hbare
      cases hbare
  | getCardUid cap =>
      obtain ⟨-, -, request, hreq, hok⟩ := h
      cases hreq
      cases hok
      rw [if_pos hchan] at htx
      cases htx
  | selectApplication aid =>
      obtain ⟨-, -, hok⟩ := h
      cases hok
      rfl
  | changeKey keyNo oldKey newKey =>
      obtain ⟨-, -, request, hreq, hok⟩ := h
      cases hreq
      exact changeKey_plainBoth _ _ _ _ _ _ req hok htx
  | changeKeyEv2 keySet keyNo oldKey newKey =>
      obtain ⟨-, -, request, hreq, hok⟩ := h
      cases hreq
      exact changeKey_plainBoth _ _ _ _ _ _ req hok htx
  | rollKeySet keySet =>
      obtain ⟨-, -, request, hreq, hok⟩ := h
      cases hreq
      cases hok
      rfl
  | _ =>
      obtain ⟨-, -, request, hreq, -⟩ := h
      cases hreq

/-- Only SelectApplication talks on another handle than it was given, and
nothing is verified there. -/
theorem exchanges_before {call : Call} {card before : Card} {req : Request}
    (h : call.Exchanges card before req) :
    (before = card ∧ call.skips card = false ∧ ∃ request,
      call.request = some request ∧ request card = .ok req) ∨
      req.rxMode = .plain := by
  cases call with
  | selectApplication aid =>
      obtain ⟨-, -, hok⟩ := h
      cases hok
      exact .inr rfl
  | _ => exact .inl h

/-! ## The frames of a call -/

theorem unsent_ignore {α : Type} {m : Api α} {card : Card}
    {script : List Answer} (h : Unsent (m card script)) :
    Unsent (m.ignore card script) := by
  obtain ⟨e, card', rest, h⟩ := h
  exact ⟨e, card', rest, Prog.ignore_eq_done.mpr ⟨_, h, rfl⟩⟩

theorem unsent_bind {α β : Type} {m : Api α} {card : Card}
    {script : List Answer} (h : Unsent (m card script)) (f : α → Api β) :
    Unsent ((m >>= f) card script) := by
  obtain ⟨e, card', rest, h⟩ := h
  exact ⟨e, card', rest, Prog.bind_error h⟩

section

variable [BlockCipher]

/-- Up to the wire an exchange fails, or it goes on as the raw one of what the
session makes of the payload. -/
theorem exchange_sends (req : Request) (card : Card) (script : List Answer) :
    Unsent (exchange req.cmd req.data req.txMode req.rxMode req.cap card
      script) ∨
      ∃ wrapped card₁, card₁.wraps = card.wraps ∧
        Sends (encodesOn card req) req.cmd req.data
          (requestShape req.cmd req.data (encodesOn card req)) wrapped ∧
        (exchange req.cmd req.data req.txMode req.rxMode req.cap card
          script).queries =
            (rawExchange req.cmd wrapped maxResponse card₁ script).queries := by
  rw [exchange, Prog.act_bind]
  rcases hreq : exchangeRequest req.cmd req.data req.txMode req.rxMode card with
    ⟨_ | wrapped, card₁⟩
  · exact .inl ⟨_, _, _, rfl⟩
  · right
    dsimp only
    rw [Prog.queries_bind_silent fun _ _ _ => rfl]
    refine ⟨wrapped, card₁, ?_, ?_, rfl⟩
    · obtain ⟨_, _, _, _, rfl⟩ := exchangeRequest_frame hreq
      rfl
    · rw [exchangeRequest] at hreq
      split at hreq
      · cases hreq
      · exact channelEncode_sends hreq

/-- So its frames are those of the request. -/
theorem exchange_conveys (req : Request) (card : Card)
    (script : List Answer) :
    Unsent (exchange req.cmd req.data req.txMode req.rxMode req.cap card
      script) ∨
      Conveys card req (exchange req.cmd req.data req.txMode req.rxMode
        req.cap card script).queries := by
  rcases exchange_sends req card script with hunsent |
    ⟨wrapped, card₁, hwraps, hsends, hqueries⟩
  · exact .inl hunsent
  · obtain ⟨m, hm, -⟩ := rawExchangeEx_queries req.cmd wrapped maxResponse true
      card₁ script
    rw [hwraps] at hm
    rw [hqueries]
    exact .inr ⟨wrapped, m, hsends, hm⟩

/-- A call that is accepted is one exchange. -/
theorem dataCall_sends {α : Type} (request : Card → Except Err Request)
    (finish : Bytes → Card → Except Err α × Card) (card : Card)
    (script : List Answer) :
    Unsent (dataCall request finish card script) ∨
      ∃ req wrapped card₁, request card = .ok req ∧
        card₁.wraps = card.wraps ∧
        Sends (encodesOn card req) req.cmd req.data
          (requestShape req.cmd req.data (encodesOn card req)) wrapped ∧
        (dataCall request finish card script).queries =
          (rawExchange req.cmd wrapped maxResponse card₁ script).queries := by
  rw [dataCall, Prog.get_bind]
  cases hreq : request card with
  | error e =>
      rw [Prog.ofExcept_error_bind]
      exact .inl ⟨e, card, script, rfl⟩
  | ok req =>
      rw [Prog.ofExcept_ok_bind]
      rcases exchange_sends req card script with hunsent |
        ⟨wrapped, card₁, hwraps, hsends, hqueries⟩
      · exact .inl (unsent_bind hunsent _)
      · refine .inr ⟨req, wrapped, card₁, rfl, hwraps, hsends, ?_⟩
        rw [Prog.queries_bind_silent fun _ _ _ => rfl]
        exact hqueries

theorem dataCall_conveys {α : Type} (request : Card → Except Err Request)
    (finish : Bytes → Card → Except Err α × Card) (card : Card)
    (script : List Answer) :
    Unsent (dataCall request finish card script) ∨
      ∃ req, request card = .ok req ∧
        Conveys card req (dataCall request finish card script).queries := by
  rw [dataCall, Prog.get_bind]
  cases hreq : request card with
  | error e =>
      rw [Prog.ofExcept_error_bind]
      exact .inl ⟨e, card, script, rfl⟩
  | ok req =>
      rw [Prog.ofExcept_ok_bind, Prog.queries_bind_silent fun _ _ _ => rfl]
      exact (exchange_conveys req card script).imp (unsent_bind · _)
        fun h => ⟨req, rfl, h⟩

/-- An exchange that is attempted, with something done to the handle behind
it. -/
theorem attempted_conveys (req : Request) (after : Card → Card) (card : Card)
    (script : List Answer) :
    let call : Api Unit := do
      let rc ← Prog.attempt
        (exchange req.cmd req.data req.txMode req.rxMode req.cap)
      Prog.modify after
      Prog.ofExcept (rc.map fun _ => ())
    Unsent (call card script) ∨ Conveys card req (call card script).queries := by
  intro call
  have hqueries : (call card script).queries = (exchange req.cmd req.data
      req.txMode req.rxMode req.cap card script).queries := by
    refine (Prog.queries_bind_silent (fun rc _ _ => ?_) card script).trans
      (Prog.queries_attempt _ card script)
    cases rc <;> rfl
  rw [hqueries]
  refine (exchange_conveys req card script).imp_left ?_
  rintro ⟨e, card', rest, h⟩
  refine ⟨e, after card', rest, ?_⟩
  exact Prog.bind_ok (Prog.attempt_eq_done.mpr ⟨_, rfl, h⟩)

theorem changeKeyCall_conveys (ev2 : Bool) (keySet keyNo : UInt8)
    (oldKey newKey : Option Key) (card : Card) (script : List Answer) :
    Unsent (changeKeyCall ev2 keySet keyNo oldKey newKey card script) ∨
      ∃ req, changeKeyRequest ev2 keySet keyNo oldKey newKey card = .ok req ∧
        Conveys card req
          (changeKeyCall ev2 keySet keyNo oldKey newKey card script).queries := by
  rw [changeKeyCall, Prog.get_bind]
  cases hreq : changeKeyRequest ev2 keySet keyNo oldKey newKey card with
  | error e =>
      rw [Prog.ofExcept_error_bind]
      exact .inl ⟨e, card, script, rfl⟩
  | ok req =>
      rw [Prog.ofExcept_ok_bind]
      exact (attempted_conveys req _ card script).imp_right
        fun h => ⟨req, rfl, h⟩

/-- A call of one exchange puts the frames of its request, or nothing. -/
theorem call_conveys {call : Call} {request : Card → Except Err Request}
    {card : Card} (hreq : call.request = some request)
    (hskips : call.skips card = false) (script : List Answer) :
    Unsent (call.run card script) ∨
      ∃ req, request card = .ok req ∧
        Conveys card req (call.run card script).queries := by
  cases call with
  | data d =>
      cases hreq
      obtain ⟨α, finish, -, hrun⟩ := dataCommand_run d
      rw [Call.run, hrun, Prog.queries_ignore]
      exact (dataCall_conveys d.request finish card script).imp_left
        unsent_ignore
  | identify =>
      cases hreq
      have hread : card.versionRead = false := hskips
      rw [Call.run, Prog.queries_ignore]
      refine Or.imp_left unsent_ignore ?_
      rw [Nxpsc.identify, Prog.get_bind, if_pos hread,
        Prog.queries_bind_silent fun _ _ _ => rfl]
      exact (dataCall_conveys getVersionRequest getVersionAnswer card
        script).imp_left (unsent_bind · _)
  | getCardUid cap =>
      cases hreq
      have hauth : ¬ card.authenticated = false := by
        rw [Call.skips] at hskips
        simpa using hskips
      rw [Call.run, Prog.queries_ignore]
      refine Or.imp_left unsent_ignore ?_
      rw [getCardUid, Prog.get_bind, if_neg hauth]
      exact dataCall_conveys getCardUidRequest _ card script
  | changeKey keyNo oldKey newKey =>
      cases hreq
      exact changeKeyCall_conveys false 0 keyNo oldKey newKey card script
  | changeKeyEv2 keySet keyNo oldKey newKey =>
      cases hreq
      exact changeKeyCall_conveys true keySet keyNo oldKey newKey card script
  | rollKeySet keySet =>
      cases hreq
      exact (attempted_conveys ⟨dfRollKeySettings, [keySet], .mac, .plain, 16⟩
        resetChannel card script).imp_right fun h => ⟨_, rfl, h⟩
  | _ => cases hreq

end

section

variable [BlockCipher]

theorem sends_endsInMac {noted : Card} {cmd : UInt8} {src frame : Bytes}
    (hchan : noted.channel = .ev2 ∨ noted.channel = .lrp)
    (hmode : noted.mode ≠ .plain)
    (h : Sends noted cmd src (requestShape cmd src noted) frame) :
    EndsInMac noted cmd frame := by
  obtain ⟨-, cipher, mac, hframe, -, hmac⟩ := h
  have hmaced : (requestShape cmd src noted).maced = true := by
    rcases hchan with hc | hc <;>
    · simp only [requestShape, hc, if_neg hmode]
      split <;> rfl
  rw [if_pos hmaced] at hmac
  have hev2 : ev2Cmac noted cmd ((requestShape cmd src noted).clear ++ cipher) =
      .ok mac := by
    rcases hchan with hc | hc
    · simpa only [MacsRequest, hc] using hmac
    · simpa only [MacsRequest, hc] using hmac
  obtain ⟨mac', hmac', hlen⟩ := ev2Cmac_isOk noted cmd
    ((requestShape cmd src noted).clear ++ cipher)
  cases Except.ok.inj (Eq.trans (Eq.symm hev2) hmac')
  exact ⟨_, mac, hframe, hlen, peerMac_eq hev2⟩

/-- The frames of a request that is not plain carry a MAC. -/
theorem conveys_putMaced {card : Card} {req : Request} {frames : List Frame}
    (hchan : card.channel = .ev2 ∨ card.channel = .lrp)
    (htx : req.txMode ≠ .plain) (h : Conveys card req frames) :
    PutMaced card req.cmd frames := by
  obtain ⟨wrapped, m, hsends, hframes⟩ := h
  -- the MAC looks at the session alone
  have hmac := @sends_endsInMac _ (encodesOn card req) req.cmd req.data wrapped
    hchan htx hsends
  exact ⟨wrapped, m, hmac, hframes⟩

theorem encodeEv2_plain {card : Card} {cmd : UInt8} {src : Bytes} {cap : Nat}
    (hmode : card.mode = .plain) (hlen : src.length ≤ cap) :
    encodeEv2 cmd src cap card = (.ok src, card) := by
  simp only [encodeEv2, hmode, if_neg (Nat.not_lt_of_le hlen)]
  rfl

/-- A plain request is the payload and nothing else. -/
theorem exchangeRequest_plain {card : Card} {cmd : UInt8} {data : Bytes}
    {rxMode : Mode} (hchan : card.channel = .ev2 ∨ card.channel = .lrp)
    (hlost : card.sessionLost = false) (hlen : data.length ≤ maxResponse) :
    exchangeRequest cmd data .plain rxMode card =
      (.ok data, remember cmd data { card with
        mode := .plain
        macMismatch := false }) := by
  have hplain := @encodeEv2_plain _ (remember cmd data { card with
    mode := .plain
    macMismatch := false }) cmd data maxResponse rfl hlen
  rw [exchangeRequest, if_neg (by rw [hlost]; exact fun h => by cases h.1),
    ← hplain, channelEncode]
  rcases hchan with hc | hc
  · simp only [hc]
    rfl
  · simp only [hc]
    rfl

/-- Eight bytes do not fit into a shorter first frame. -/
theorem not_putMaced_short {card : Card} {cmd : UInt8} {data : Bytes}
    {frames : List Frame} (hlen : data.length < 8) :
    ¬ PutMaced card cmd (nativeFrame card.wraps cmd data :: frames) := by
  rintro ⟨frame, m, ⟨body, mac, rfl, hmac, -⟩, hframes⟩
  obtain ⟨pieces, hhead⟩ := pieceFrames_head card.wraps cmd (body ++ mac)
  rw [hhead, List.cons_append, List.cons_prefix_cons] at hframes
  have hsame : data = (body ++ mac).take txFrameMax := by
    have heq := hframes.1
    rw [nativeFrame, nativeFrame] at heq
    split at heq
    · exact (Frame.wrapped.inj heq).2
    · exact (Frame.native.inj heq).2
  rw [hsame, List.length_take, List.length_append, hmac, txFrameMax] at hlen
  omega

/-- A plain request is put as it is. -/
theorem plain_queries {α : Type} {request : Card → Except Err Request}
    {finish : Bytes → Card → Except Err α × Card} {card : Card} {req : Request}
    (hchan : card.channel = .ev2 ∨ card.channel = .lrp)
    (hlost : card.sessionLost = false) (hreq : request card = .ok req)
    (htx : req.txMode = .plain) (hlen : req.data.length < 8) :
    (dataCall request finish card []).queries =
      [nativeFrame card.wraps req.cmd req.data] := by
  have hwrapped := @exchangeRequest_plain _ card req.cmd req.data req.rxMode
    hchan hlost (Nat.le_trans (Nat.le_of_lt hlen) (by decide))
  rw [← htx] at hwrapped
  have htake : req.data.take txFrameMax = req.data :=
    List.take_of_length_le (Nat.le_trans (Nat.le_of_lt hlen) (by decide))
  have hshort : req.data.length ≤ txFrameMax :=
    Nat.le_trans (Nat.le_of_lt hlen) (by decide)
  rw [queries_dataCall_nil hreq hwrapped, htake]
  exact congrArg (fun q => [q]) (Except.ok.inj
    ((frameRequest_one hshort).symm.trans (frameRequest_short hshort)))

/-- Before anything is answered, a bare call has put its few bytes. -/
theorem bare_queries {call : Call} {card : Card}
    (hchan : card.channel = .ev2 ∨ card.channel = .lrp)
    (hauth : card.authenticated = true) (hlost : card.sessionLost = false)
    (h : call.sendsBare card = true) :
    ∃ req, call.Exchanges card card req ∧ req.rxMode = .mac ∧
      req.data.length < 8 ∧
      (call.run card []).queries =
        [nativeFrame card.wraps req.cmd req.data] := by
  have hmac : macIfAuthenticated card = .mac := by
    rw [macIfAuthenticated, if_pos hauth]
  cases call with
  | data d =>
      cases d with
      | getVersion | getFreeMemory | getSignature =>
          refine ⟨_, ⟨rfl, rfl, _, rfl, rfl⟩, hmac, by simp, ?_⟩
          rw [Call.run, DataCommand.run, Prog.queries_ignore]
          exact plain_queries hchan hlost rfl rfl (by simp)
      | _ => cases h
  | identify =>
      have hread : card.versionRead = false := by
        simpa [Call.sendsBare] using h
      refine ⟨_, ⟨rfl, hread, _, rfl, rfl⟩, hmac, by simp, ?_⟩
      rw [Call.run, Prog.queries_ignore, Nxpsc.identify, Prog.get_bind,
        if_pos hread, Prog.queries_bind_silent fun _ _ _ => rfl]
      exact plain_queries hchan hlost rfl rfl (by simp)
  | _ => cases h

/-- On EV2 and LRP exactly the bare calls have an answer verified whose
request carries no MAC. -/
theorem verified_answer_maced_iff {card : Card}
    (hchan : card.channel = .ev2 ∨ card.channel = .lrp)
    (hauth : card.authenticated = true) (hlost : card.sessionLost = false)
    {call : Call} (hgeneric : call.generic = false) :
    call.MacsItself card ↔ call.sendsBare card = false := by
  constructor
  · intro hmacs
    by_contra hbare
    obtain ⟨req, hex, hrx, hlen, hqueries⟩ := bare_queries hchan hauth hlost
      (Bool.eq_true_of_not_eq_false hbare)
    rcases hmacs card req hex (.inl hrx) [] with ⟨e, card', rest, hunsent⟩ |
      hput
    · rw [hunsent] at hqueries
      cases hqueries
    · rw [hqueries] at hput
      exact not_putMaced_short hlen hput
  · intro hbare before req hex hrx script
    have hverified : req.rxMode ≠ .plain := by
      rcases hrx with hm | he
      · rw [hm]
        decide
      · rw [he]
        decide
    have htx : req.txMode ≠ .plain := fun htx =>
      hverified (exchanges_plainBoth hchan hgeneric hbare hex htx)
    rcases exchanges_before hex with ⟨rfl, hskips, request, hreq, hok⟩ | hplain
    · refine (call_conveys hreq hskips script).imp_right ?_
      rintro ⟨req', hok', hconveys⟩
      obtain rfl := Except.ok.inj (hok.symm.trans hok')
      exact conveys_putMaced hchan htx hconveys
    · exact absurd hplain hverified

end

theorem verified_answer_maced_readData :
    (Call.data (.readData 2 0 16 .mac 16)).sendsBare liveEv2 = false ∧
      @Call.MacsItself .identity (.data (.readData 2 0 16 .mac 16)) liveEv2 :=
  ⟨rfl, (@verified_answer_maced_iff .identity liveEv2 (.inl rfl) rfl rfl
    (.data (.readData 2 0 16 .mac 16)) rfl).mpr rfl⟩

/-- GetVersion in an EV2 session goes out as the bare opcode, and its answer
is decoded with a MAC. -/
theorem getVersion_sent_bare :
    (∃ req, (Call.data .getVersion).Exchanges liveEv2 liveEv2 req ∧
      req.rxMode = .mac) ∧
    (@Call.run .identity (.data .getVersion) liveEv2 []).queries =
      [.native 0x60 []] ∧
    ¬ @Call.MacsItself .identity (.data .getVersion) liveEv2 := by
  refine ⟨⟨_, ⟨rfl, rfl, _, rfl, rfl⟩, rfl⟩, rfl, ?_⟩
  intro hmacs
  rcases hmacs liveEv2 _ ⟨rfl, rfl, _, rfl, rfl⟩ (.inl rfl) [] with
    ⟨e, card', rest, hunsent⟩ | hput
  · cases hunsent
  · exact @not_putMaced_short .identity liveEv2 0x60 [] [] (by decide) hput

end Nxpsc
