import Nxpsc.Lib.Record
import Nxpsc.Proofs.Calls
import Nxpsc.Proofs.Handshake
import Nxpsc.Spec.CardError

/-!
# `NXPSC_E_CARD` and the status of the card

Wherever the library reads a status it writes it to the handle before it
returns, with one exception: under ISO wrapping `frame_exchange` returns
`NXPSC_E_CARD` for an SW1 other than 0x91 and takes nothing down, so
`nxpsc_last_status` tells what an earlier frame left. The programs are gone
through part by part, with the rules of `Record.lean`.
-/

namespace Nxpsc

open Dialogue

/-- Behind a value and behind `NXPSC_E_CARD`, the status of the last answer is
recorded if the library takes it down. -/
abbrev Tells {α : Type} (m : Api α) : Prop :=
  m.Records Card.lastStatus Recorded .card

/-! ## Native frames -/

theorem statusByte_of_cardStatus {q : Frame} {a : Answer} {status : UInt8}
    (h : cardStatus q a = some status) : statusByte q a = some status := by
  rw [cardStatus] at h
  rw [statusByte]
  split
  · next hsw =>
      rw [hsw, answerStatus] at h
      rw [answerSw]
      cases hrx : transceived maxApdu a with
      | error e =>
          rw [hrx] at h
          cases h
      | ok rx =>
      rw [hrx] at h
      dsimp only at h ⊢
      rw [if_pos rfl] at h
      split at h
      · cases h
      next hlen =>
      split at h
      · cases h
        rw [if_neg hlen]
        rfl
      · cases h
  · next hsw =>
      rw [eq_false_of_ne_true hsw] at h
      exact h

theorem Carries.takenDown {card : Card} {cmd : UInt8} {q : Frame}
    (hq : Carries card cmd q) (a : Answer) :
    takenDown q a = (cardStatus q a).isSome := by
  obtain ⟨data, hq⟩ := hq
  rw [frameRequest] at hq
  split at hq
  · cases hq
  split at hq
  · cases hq
    rfl
  · cases hq
    rfl

theorem Carries.recorded {card : Card} {cmd : UInt8} {q : Frame}
    (hq : Carries card cmd q) {a : Answer} {status : UInt8}
    (ha : cardStatus q a = some status) (before : UInt8) :
    Recorded before q a status := by
  rw [Recorded, hq.takenDown, ha, Option.isSome_some, if_pos rfl]
  exact statusByte_of_cardStatus ha

theorem Carries.unrecorded {card : Card} {cmd : UInt8} {q : Frame}
    (hq : Carries card cmd q) {a : Answer} (ha : cardStatus q a = none)
    (before : UInt8) : Recorded before q a before := by
  rw [Recorded, hq.takenDown, ha, Option.isSome_none, if_neg Bool.false_ne_true]

/-! A raw exchange writes no status before its last answer is in: it waits in
the state it began in. -/

theorem sendRequest_waits {cmd : UInt8} {data : Bytes} {cap : Nat}
    {card card' : Card} {script rest : List Answer} {said : Said}
    {r : Except Err (UInt8 × Bytes)}
    (h : sendRequest cmd data cap card script = .done said r card' rest) :
    ∃ pre q a, said = pre ++ [(q, a)] ∧
      sendRequest cmd data cap card (pre.map Prod.snd) =
        .waiting pre q card := by
  have hround : ∀ (p : Pending) (a : Answer) (s : Card) (p' : Pending)
      (s' : Card), s = card → p.react cap a s = (.ok (.inl p'), s') →
      s' = card := by
    rintro p a s p' s' rfl hr
    cases react_cases hr
    rfl
  rcases Prog.converse_last hround rfl h with ⟨-, -, e, he, -⟩ |
    ⟨pre, q, a, p, s, hsaid, rfl, hwait, -⟩
  · obtain ⟨q, hq, -⟩ := pending_request ⟨cmd, data⟩ card
    rw [hq] at he
    cases he
  · exact ⟨pre, q, a, hsaid, hwait⟩

theorem collect_waits {cap : Nat} {follow : Bool} {status : UInt8}
    {resp : Bytes} {card card' : Card} {script rest : List Answer}
    {said : Said} {r : Except Err (UInt8 × Bytes)}
    (h : collect cap follow status resp card script =
      .done said r card' rest) :
    said = [] ∨ ∃ pre q a, said = pre ++ [(q, a)] ∧
      collect cap follow status resp card (pre.map Prod.snd) =
        .waiting pre q card := by
  rw [collect] at h ⊢
  split at h
  · next hmore =>
      rw [if_pos hmore]
      have hround : ∀ (b : Bytes) (a : Answer) (s : Card) (b' : Bytes)
          (s' : Card), s = card → collectReact cap b a s = (.ok (.inl b'), s') →
          s' = card := by
        rintro b a s b' s' rfl hr
        exact (collectReact_cases hr).2
      rcases Prog.converse_last hround rfl h with ⟨hnil, -⟩ |
        ⟨pre, q, a, b, s, hsaid, rfl, hwait, -⟩
      · exact .inl hnil
      · exact .inr ⟨pre, q, a, hsaid, hwait⟩
  · cases h
    exact .inl rfl

theorem rawExchangeEx_waits {cmd : UInt8} {data : Bytes} {cap : Nat}
    {follow : Bool} {card card' : Card} {script rest : List Answer}
    {said : Said} {r : Except Err (UInt8 × Bytes)}
    (h : rawExchangeEx cmd data cap follow card script =
      .done said r card' rest) :
    ∃ pre q a, said = pre ++ [(q, a)] ∧
      rawExchangeEx cmd data cap follow card (pre.map Prod.snd) =
        .waiting pre q card := by
  rw [rawExchangeEx] at h ⊢
  rcases Prog.bind_eq_done.mp h with ⟨e, hsend, -⟩ |
    ⟨said₁, sent, card₁, rest₁, said₂, hsend, hcoll, rfl⟩
  · obtain ⟨pre, q, a, hsaid, hwait⟩ := sendRequest_waits hsend
    exact ⟨pre, q, a, hsaid, Prog.bind_waiting hwait _⟩
  have hsame : card₁ = card := by
    rcases sendRequest_done follow hsend with ⟨e, he, -⟩ |
      ⟨pre, c, q, a, status, -, hcard, -⟩
    · cases he
    · exact hcard
  subst hsame
  -- behind the collection there are no more answers
  obtain ⟨r', card₂, rest₂, hc⟩ : ∃ r' card₂ rest₂,
      collect cap follow sent.1 sent.2 card₁ rest₁ =
        .done said₂ r' card₂ rest₂ := by
    rcases Prog.bind_eq_done.mp hcoll with ⟨e, hc, -⟩ |
      ⟨said₃, last, card₂, rest₂, said₄, hc, hend, rfl⟩
    · exact ⟨_, _, _, hc⟩
    · rw [Prog.modify_bind] at hend
      cases hend
      rw [List.append_nil]
      exact ⟨_, _, _, hc⟩
  rcases collect_waits hc with rfl | ⟨pre, q, a, rfl, hwait⟩
  · obtain ⟨pre, q, a, hsaid, hwait⟩ := sendRequest_waits hsend
    rw [List.append_nil]
    exact ⟨pre, q, a, hsaid, Prog.bind_waiting hwait _⟩
  · refine ⟨said₁ ++ pre, q, a, (List.append_assoc ..).symm, ?_⟩
    rw [List.map_append]
    exact (Prog.replays_converse _ _ _).bind_waiting hsend
      (Prog.bind_waiting hwait _)

theorem tells_rawExchangeEx (cmd : UInt8) (data : Bytes) (cap : Nat)
    (follow : Bool) : Tells (rawExchangeEx cmd data cap follow) := by
  intro card script said r card' rest h hend
  obtain ⟨pre, q, a, hsaid, hwait⟩ := rawExchangeEx_waits h
  refine .inr ⟨pre, q, a, card, hsaid, hwait, ?_⟩
  cases rawExchangeEx_done h with
  | fault hpre hq ha =>
      obtain ⟨rfl, rfl, rfl⟩ := said_last_inj hsaid
      exact hq.unrecorded ha _
  | refused hpre hq ha =>
      obtain ⟨rfl, rfl, rfl⟩ := said_last_inj hsaid
      exact hq.recorded ha _
  | overflow => cases hend.eq
  | completed hpre hq ha =>
      obtain ⟨rfl, rfl, rfl⟩ := said_last_inj hsaid
      exact hq.recorded ha _

/-! ## The exchange -/

/-- What is done with an answer leaves the status alone. -/
def LeavesStatus {α : Type} (finish : Bytes → Card → Except Err α × Card) :
    Prop :=
  ∀ resp card, (finish resp card).2.lastStatus = card.lastStatus

theorem leavesStatus_noAnswer : LeavesStatus noAnswer := fun _ _ => rfl

theorem leavesStatus_copyAnswer (cap : Nat) :
    LeavesStatus (copyAnswer cap) := by
  intro resp card
  rw [copyAnswer]
  split <;> rfl

theorem leavesStatus_listAnswer {α : Type} (cap size : Nat)
    (read : Bytes → α) : LeavesStatus (listAnswer cap size read) := by
  intro resp card
  rw [listAnswer]
  split <;> rfl

theorem leavesStatus_guarded {α : Type} {n : Nat} {read : Bytes → α} :
    LeavesStatus fun resp card =>
      if resp.length < n then ((.error .length : Except Err α), card)
      else (.ok (read resp), card) := by
  intro resp card
  dsimp only
  split <;> rfl

theorem leavesStatus_getVersionAnswer : LeavesStatus getVersionAnswer := by
  intro resp card
  rw [getVersionAnswer]
  split
  · rfl
  · dsimp only
    split <;> rfl

theorem leavesStatus_getCardUidAnswer (cap : Nat) :
    LeavesStatus (getCardUidAnswer cap) := by
  intro resp card
  rw [getCardUidAnswer]
  repeat' split
  all_goals rfl

section

variable [BlockCipher]

theorem exchangeRequest_lastStatus (cmd : UInt8) (data : Bytes)
    (txMode rxMode : Mode) (card : Card) :
    (exchangeRequest cmd data txMode rxMode card).2.lastStatus =
      card.lastStatus := by
  obtain ⟨lastCmd, zeroLen, iv, mode, hframe⟩ :=
    exchangeRequest_frame (Prod.mk.eta (p := exchangeRequest cmd data txMode
      rxMode card)).symm
  rw [hframe]

theorem exchangeAnswer_lastStatus (rxMode : Mode) (cap : Nat) (status : UInt8)
    (raw : Bytes) (card : Card) :
    (exchangeAnswer rxMode cap status raw card).2.lastStatus =
      card.lastStatus := by
  rw [exchangeAnswer]
  split
  · dsimp only
    split <;> rfl
  dsimp only
  split
  all_goals
    obtain ⟨iv, mismatch, hdec⟩ := channelDecode_frame raw status cap _
    rw [hdec]

theorem tells_exchange (cmd : UInt8) (data : Bytes) (txMode rxMode : Mode)
    (cap : Nat) : Tells (exchange cmd data txMode rxMode cap) :=
  Prog.records_act_bind (exchangeRequest_lastStatus cmd data txMode rxMode)
    fun wrapped =>
      Prog.records_bind_act (tells_rawExchangeEx cmd wrapped maxResponse true)
        fun answer => exchangeAnswer_lastStatus rxMode cap answer.1 answer.2

theorem replays_exchange (cmd : UInt8) (data : Bytes) (txMode rxMode : Mode)
    (cap : Nat) : (exchange cmd data txMode rxMode cap).Replays :=
  Prog.replays_bind (Prog.replays_act _) fun _ =>
    Prog.replays_bind (replays_rawExchangeEx _ _ _ _) fun _ =>
      Prog.replays_act _

theorem tells_dataCall {α : Type} {request : Card → Except Err Request}
    {finish : Bytes → Card → Except Err α × Card}
    (hfinish : LeavesStatus finish) : Tells (dataCall request finish) :=
  Prog.records_get_bind fun _ => Prog.records_ofExcept_bind _ fun _ =>
    Prog.records_bind_act (tells_exchange _ _ _ _ _) hfinish

theorem replays_dataCall {α : Type} (request : Card → Except Err Request)
    (finish : Bytes → Card → Except Err α × Card) :
    (dataCall request finish).Replays :=
  Prog.replays_bind (Prog.replays_act _) fun _ =>
    Prog.replays_bind (Prog.replays_act _) fun _ =>
      Prog.replays_bind (replays_exchange _ _ _ _ _) fun _ =>
        Prog.replays_act _

theorem tells_dataCommand (d : DataCommand) : Tells d.run := by
  cases d with
  | command cmd data txMode rxMode cap =>
      exact Prog.records_ignore (tells_exchange _ _ _ _ _)
  | getVersion =>
      exact Prog.records_ignore (tells_dataCall leavesStatus_getVersionAnswer)
  | getFreeMemory | getKeyVersion | getKeySettings | getValue
  | getDelegatedInfo =>
      exact Prog.records_ignore (tells_dataCall leavesStatus_guarded)
  | getSignature cap | getFileIds cap =>
      exact Prog.records_ignore (tells_dataCall (leavesStatus_copyAnswer cap))
  | getApplicationIds | getIsoFileIds =>
      exact Prog.records_ignore
        (tells_dataCall (leavesStatus_listAnswer _ _ _))
  | getFileSettings | readData | readRecords =>
      exact Prog.records_ignore (tells_dataCall fun _ _ => rfl)
  | commitTransactionTmac =>
      refine Prog.records_ignore (tells_dataCall fun resp card => ?_)
      split <;> rfl
  | commitReaderId readerId cap =>
      refine Prog.records_ignore (tells_dataCall fun resp card => ?_)
      cases cap with
      | none => rfl
      | some cap => exact leavesStatus_copyAnswer cap resp card
  | _ => exact tells_dataCall leavesStatus_noAnswer

theorem tells_identify : Tells identify :=
  Prog.records_get_bind fun _ => Prog.records_ite
    (Prog.records_bind (tells_dataCall leavesStatus_getVersionAnswer)
      (replays_dataCall _ _) fun _ =>
        Prog.records_get_bind fun _ => Prog.records_pure _)
    (Prog.records_pure _)

theorem tells_getCardUid (cap : Nat) : Tells (getCardUid cap) :=
  Prog.records_get_bind fun _ => Prog.records_ite (Prog.records_ofExcept _)
    (tells_dataCall (leavesStatus_getCardUidAnswer cap))

theorem tells_selectApplication (aid : UInt32) :
    Tells (selectApplication aid) :=
  Prog.records_ite (Prog.records_fail _)
    (Prog.records_act_bind (fun _ => rfl) fun _ =>
      tells_dataCall fun _ _ => rfl)

theorem tells_changeKeyCall (ev2 : Bool) (keySet keyNo : UInt8)
    (oldKey newKey : Option Key) :
    Tells (changeKeyCall ev2 keySet keyNo oldKey newKey) :=
  Prog.records_get_bind fun _ => Prog.records_ofExcept_bind _ fun _ =>
    Prog.records_attempt _ _ (tells_exchange _ _ _ _ _)
      (fun now => by split <;> rfl) fun _ => rfl

theorem tells_rollKeySet (keySet : UInt8) : Tells (rollKeySet keySet) :=
  Prog.records_attempt resetChannel (fun rc => rc.map fun _ => ())
    (tells_exchange _ _ _ _ _)
    (fun _ => rfl) fun _ => rfl

/-! ## Handshakes -/

omit [BlockCipher] in
theorem Handshakes.tells {channel : Channel} {key : Key} {m : Api Unit}
    (h : Handshakes channel key m) : Tells m := by
  cases h with
  | twoPass closes =>
      exact Prog.records_twoPass (tells_rawExchangeEx _ _ _ _)
        (replays_rawExchangeEx _ _ _ _) (fun _ => tells_rawExchangeEx _ _ _ _)
        fun kept y card => (closes kept y card).lastStatus

theorem tells_authenticate (rng : Rng) (keyNo : UInt8) (key : Option Key)
    (channel : Channel) : Tells (authenticate rng keyNo key channel) := by
  cases key with
  | none => exact Prog.records_fail _
  | some key =>
      refine Prog.records_act_bind (fun _ => rfl) fun _ =>
        Prog.records_get_bind fun card => ?_
      rcases authenticateOn_cases rng keyNo key
        (if channel = .auto then pickChannel card key else channel) with
        ⟨e, hrefused⟩ | ⟨-, -, hshakes⟩
      · rw [hrefused]
        exact Prog.records_fail _
      · exact hshakes.tells

theorem tells_authenticateNonfirst (rng : Rng) (keyNo : UInt8)
    (key : Option Key) : Tells (authenticateNonfirst rng keyNo key) :=
  authenticateNonfirst_cases (fun _ h => Prog.records_get_bind h)
    (fun _ => Prog.records_fail _) (fun _ _ _ _ hshakes => hshakes.tells)
    rng keyNo key

end

/-! ## GetDFNames -/

theorem tells_getDfNames (cap : Nat) : Tells (getDfNames cap) := by
  refine Prog.records_get_bind fun _ => Prog.records_ite (Prog.records_fail _)
    (Prog.records_converse ?_ ?_ _)
  · intro b card he
    rw [frameRequest] at he
    split at he
    · cases he
    split at he <;> cases he
  · intro b card q a r card' hq hr hend _
    have hcar : Carries card b.1 q := ⟨[], hq⟩
    rw [dfNamesReact, rawFrame] at hr
    cases hresp : frameResponse card maxApdu a with
    | error e =>
        rw [hresp] at hr
        cases hr
        exact hcar.unrecorded (frameResponse_error hcar hresp) _
    | ok got =>
    obtain ⟨hst, -⟩ := frameResponse_ok hcar hresp
    rw [hresp] at hr
    dsimp only at hr
    split at hr
    · next heq =>
        split at heq
        · cases heq
          cases hr
          cases hend.eq
        · cases heq
    next status frame after heq =>
    split at heq
    · cases heq
    cases heq
    -- whatever the status is, it is in the handle by now
    repeat' split at hr
    all_goals
      cases hr
      exact hcar.recorded hst _

/-! ## The proximity check -/

theorem tells_dropSession {α : Type} (e : Err) :
    Tells (dropSession e : Api α) :=
  Prog.records_act_bind (fun _ => rfl) fun _ => Prog.records_fail e

theorem replays_dropSession {α : Type} (e : Err) :
    (dropSession e : Api α).Replays :=
  Prog.replays_bind (Prog.replays_act _) fun _ => Prog.replays_act _

theorem replays_pcRounds (split left : Nat) (rest exchanged : Bytes) :
    (pcRounds split left rest exchanged).Replays := by
  induction left generalizing rest exchanged with
  | zero => exact Prog.replays_pure _
  | succ left ih =>
      rw [pcRounds]
      exact Prog.replays_ite (Prog.replays_act _)
        (Prog.replays_bind (replays_rawExchangeEx _ _ _ _) fun answer =>
          Prog.replays_ite (replays_dropSession _) (ih _ _))

theorem tells_pcRounds (split left : Nat) (rest exchanged : Bytes) :
    Tells (pcRounds split left rest exchanged) := by
  induction left generalizing rest exchanged with
  | zero => exact Prog.records_pure _
  | succ left ih =>
      rw [pcRounds]
      exact Prog.records_ite (Prog.records_fail _)
        (Prog.records_bind (tells_rawExchangeEx _ _ _ _)
          (replays_rawExchangeEx _ _ _ _) fun answer =>
            Prog.records_ite (tells_dropSession _) (ih _ _))

theorem tells_proximityCheck [BlockCipher] (rng : Rng) (pcKey : Key)
    (rounds : Nat) : Tells (proximityCheck rng pcKey rounds) := by
  refine Prog.records_ite (Prog.records_fail _)
    (Prog.records_ite (Prog.records_fail _)
      (Prog.records_ofExcept_bind _ fun challenge =>
        Prog.records_bind (tells_rawExchangeEx _ _ _ _)
          (replays_rawExchangeEx _ _ _ _) fun prep =>
            Prog.records_ite (tells_dropSession _) ?_))
  split
  · exact tells_dropSession _
  exact Prog.records_bind (tells_pcRounds _ _ _ _) (replays_pcRounds _ _ _ _)
    fun exchanged => Prog.records_ofExcept_bind _ fun mac =>
      Prog.records_bind (tells_rawExchangeEx _ _ _ _)
        (replays_rawExchangeEx _ _ _ _) fun verify =>
          Prog.records_ite (tells_dropSession _)
            (Prog.records_ite (Prog.records_fail _)
              (Prog.records_ofExcept_bind _ fun expected =>
                Prog.records_ite (Prog.records_fail _) (Prog.records_pure _)))

/-! ## ISO access -/

/-- A frame that is no native command has its status byte taken down, when
there is one. -/
theorem recorded_getD {q : Frame} (a : Answer) (before : UInt8)
    (h : takenDown q a = (statusByte q a).isSome) :
    Recorded before q a ((statusByte q a).getD before) := by
  rw [Recorded, h]
  cases statusByte q a <;> rfl

theorem isoAnswer_lastStatus (cap : Nat) (a : Answer) (card : Card) :
    (isoAnswer cap a card).2.lastStatus =
      ((answerSw a).map Prod.snd).getD card.lastStatus := by
  rw [isoAnswer, answerSw]
  cases transceived maxApdu a with
  | error e => rfl
  | ok rx =>
      dsimp only
      split
      · rfl
      · split
        · rfl
        · split <;> rfl

theorem tells_isoExchange (cla ins p1 p2 : UInt8) (data : Bytes)
    (lePresent : Bool) (le cap : Nat) :
    Tells (isoExchange cla ins p1 p2 data lePresent le cap) := by
  rw [isoExchange, isoRequest]
  split
  · rw [Prog.ofExcept_error_bind]
    exact Prog.records_fail _
  · rw [Prog.ofExcept_ok_bind]
    refine Prog.records_once (Prog.once_ask_act _ _) fun card a _ => ?_
    rw [isoAnswer_lastStatus]
    exact recorded_getD a card.lastStatus rfl

theorem tells_isoSelectDfName (dfName : Bytes) :
    Tells (isoSelectDfName dfName) :=
  Prog.records_ite (Prog.records_fail _)
    (Prog.records_ignore (tells_isoExchange _ _ _ _ _ _ _ _))

theorem tells_isoReadBinary (sfi : UInt8) (offset : UInt16)
    (length cap : Nat) : Tells (isoReadBinary sfi offset length cap) :=
  Prog.records_ofExcept_bind _ fun _ =>
    Prog.records_bind_act (g := fun answer card => (.ok answer.1, card))
      (tells_isoExchange _ _ _ _ _ _ _ _) fun _ _ => rfl

theorem tells_isoUpdateBinary (sfi : UInt8) (offset : UInt16) (data : Bytes) :
    Tells (isoUpdateBinary sfi offset data) :=
  Prog.records_ite (Prog.records_fail _)
    (Prog.records_ofExcept_bind _ fun _ =>
      Prog.records_ignore (tells_isoExchange _ _ _ _ _ _ _ _))

theorem tells_ntag424Select : Tells ntag424Select :=
  Prog.records_bind_act (tells_isoSelectDfName _) fun _ _ => rfl

/-! ## Plus -/

theorem plusAnswer_lastStatus {cap : Nat} {tx : Bytes} {a : Answer}
    {card : Card} (h : EndsIn .card (plusAnswer cap a card).1) :
    (plusAnswer cap a card).2.lastStatus =
      (statusByte (.plus tx) a).getD card.lastStatus := by
  cases a with
  | error e => rfl
  | ok rx =>
  simp only [plusAnswer] at h ⊢
  split
  · next hshort =>
      rw [if_pos hshort] at h
      cases h.eq
  · next hlen =>
      obtain ⟨st, more, rfl⟩ : ∃ st more, rx = st :: more :=
        List.exists_cons_of_ne_nil (by rintro rfl; simp at hlen)
      obtain ⟨k, rfl⟩ : ∃ k, cap = k + 1 :=
        Nat.exists_eq_add_one_of_ne_zero (by rintro rfl; simp at hlen)
      split <;> rfl

theorem tells_plusTransceive (tx : Bytes) (cap : Nat) :
    Tells (plusTransceive tx cap) := by
  refine Prog.records_once (Prog.once_ask_act _ _) fun card a hend => ?_
  rw [plusAnswer_lastStatus hend]
  exact recorded_getD a card.lastStatus rfl

theorem replays_plusTransceive (tx : Bytes) (cap : Nat) :
    (plusTransceive tx cap).Replays := (Prog.once_ask_act _ _).replays

section

variable [BlockCipher]

theorem tells_plusAuthenticate (rng : Rng) (keyBlock : UInt16)
    (key : Option Key) (first : Bool) :
    Tells (plusAuthenticate rng keyBlock key first) := by
  cases key with
  | none => exact Prog.records_fail _
  | some key =>
      refine Prog.records_ite (Prog.records_fail _)
        (Prog.records_act_bind (fun card => ?_) fun _ =>
          Prog.records_bind (tells_plusTransceive _ _)
            (replays_plusTransceive _ _) fun resp =>
              Prog.records_ite (Prog.records_fail _)
                (Prog.records_get_bind fun card =>
                  Prog.records_ofExcept_bind _ fun rndA =>
                    Prog.records_ofExcept_bind _ fun token =>
                      Prog.records_bind_act (tells_plusTransceive _ _)
                        fun proof card => ?_))
      · dsimp only
        split <;> rfl
      · simp only [plusAccept]
        repeat' split
        all_goals rfl

theorem tells_plusRead (block : UInt16) (count : UInt8)
    (encrypted maced : Bool) (cap : Nat) :
    Tells (plusRead block count encrypted maced cap) := by
  refine Prog.records_ite (Prog.records_fail _)
    (Prog.records_get_bind fun card => Prog.records_ite (Prog.records_fail _)
      (Prog.records_ite (Prog.records_fail _)
        (Prog.records_ofExcept_bind _ fun mac =>
          Prog.records_bind_act (tells_plusTransceive _ _)
            fun resp card => ?_)))
  simp only [plusReadAnswer]
  repeat' split
  all_goals rfl

theorem tells_plusMaced (block : UInt16) (cmd : Bytes) :
    Tells (plusMaced block cmd) :=
  Prog.records_get_bind fun _ => Prog.records_ofExcept_bind _ fun _ =>
    Prog.records_bind_act (tells_plusTransceive _ _) fun _ _ => rfl

theorem tells_plusWriteBlock (opcode : UInt8) (block : UInt16) (data : Bytes)
    (encrypted : Bool) :
    Tells (plusWriteBlock opcode block data encrypted) :=
  Prog.records_ite (Prog.records_fail _)
    (Prog.records_get_bind fun _ => Prog.records_ite (Prog.records_fail _)
      (Prog.records_ofExcept_bind _ fun _ => tells_plusMaced _ _))

theorem tells_plusValueCmd (credit debit : UInt8) (block : UInt16)
    (delta : Int32) (isCredit encrypted : Bool) :
    Tells (plusValueCmd credit debit block delta isCredit encrypted) :=
  Prog.records_get_bind fun _ => Prog.records_ite (Prog.records_fail _)
    (tells_plusWriteBlock _ _ _ _)

theorem tells_plusBlockCmd (opcode : UInt8) (block : UInt16) :
    Tells (plusBlockCmd opcode block) :=
  Prog.records_get_bind fun _ => Prog.records_ite (Prog.records_fail _)
    (tells_plusMaced _ _)

end

theorem tells_plusResetAuth : Tells plusResetAuth :=
  Prog.records_attempt resetChannel (fun rc => rc.map fun _ => ())
    (tells_plusTransceive _ _)
    (fun _ => rfl) fun _ => rfl

/-! ## Every call -/

section

variable [BlockCipher]

theorem tells_call (call : Call) : Tells call.run := by
  cases call with
  | data d => exact tells_dataCommand d
  | resetChannel | setCmdset | setCommmode | setIsoChaining =>
      exact Prog.records_act fun _ => rfl
  | authenticate rng keyNo key channel =>
      exact tells_authenticate rng keyNo key channel
  | authenticateNonfirst rng keyNo key =>
      exact tells_authenticateNonfirst rng keyNo key
  | identify => exact Prog.records_ignore tells_identify
  | getCardUid cap => exact Prog.records_ignore (tells_getCardUid cap)
  | selectApplication aid => exact tells_selectApplication aid
  | getDfNames cap => exact Prog.records_ignore (tells_getDfNames cap)
  | changeKey | changeKeyEv2 => exact tells_changeKeyCall _ _ _ _ _
  | rollKeySet keySet => exact tells_rollKeySet keySet
  | proximityCheck rng pcKey rounds =>
      exact tells_proximityCheck rng pcKey rounds
  | isoSelectDfName dfName => exact tells_isoSelectDfName dfName
  | isoSelectFid fid isEf =>
      exact Prog.records_ignore (tells_isoExchange _ _ _ _ _ _ _ _)
  | isoReadBinary sfi offset length cap =>
      exact Prog.records_ignore (tells_isoReadBinary sfi offset length cap)
  | isoUpdateBinary sfi offset data =>
      exact tells_isoUpdateBinary sfi offset data
  | ntag424Select => exact tells_ntag424Select
  | plusAuthenticate rng keyBlock key first =>
      exact tells_plusAuthenticate rng keyBlock key first
  | plusRead block count encrypted maced cap =>
      exact Prog.records_ignore (tells_plusRead _ _ _ _ _)
  | plusWrite => exact tells_plusWriteBlock _ _ _ _
  | plusValueOp | plusValueTransfer => exact tells_plusValueCmd _ _ _ _ _ _
  | plusTransfer | plusRestore => exact tells_plusBlockCmd _ _
  | plusResetAuth => exact tells_plusResetAuth
  | plusWritePerso | plusSetConfigSl1 =>
      exact Prog.records_ite (Prog.records_fail _)
        (Prog.records_ignore (tells_plusTransceive _ _))
  | plusCommitPerso | plusPersonalizeUid | plusVcSupportLastIsoL3 =>
      exact Prog.records_ignore (tells_plusTransceive _ _)

/-- A call that returns `NXPSC_E_CARD` leaves the status of the frame it
stopped on exactly if that status is one the library takes down, or is by
chance the one left over. -/
theorem card_error_cause (call : Call) (card card' : Card)
    (script rest : List Answer) (said : Said)
    (h : call.run card script = .done said (.error .card) card' rest) :
    CauseTold said card' ↔ CauseRead call card said := by
  rcases tells_call call _ _ _ _ _ _ h (endsIn_error _) with ⟨rfl, -⟩ |
    ⟨pre, q, a, now, rfl, hwait, hrec⟩
  · -- no frame, no status of one
    constructor
    · rintro ⟨pre, q, a, hsaid, -⟩
      cases pre <;> cases hsaid
    · rintro ⟨pre, q, a, now, hsaid, -⟩
      cases pre <;> cases hsaid
  rw [Recorded] at hrec
  constructor
  · rintro ⟨pre', q', a', hsaid, htold⟩
    obtain ⟨rfl, rfl, rfl⟩ := said_last_inj hsaid
    refine ⟨pre, q, a, now, rfl, hwait, ?_⟩
    split at hrec
    · next htaken => exact .inl htaken
    · next hlost =>
        rw [hrec] at htold
        exact .inr htold
  · rintro ⟨pre', q', a', now', hsaid, hwait', hread⟩
    obtain ⟨rfl, rfl, rfl⟩ := said_last_inj hsaid
    cases hwait.symm.trans hwait'
    refine ⟨pre, q, a, rfl, ?_⟩
    split at hrec
    · exact hrec
    · next hlost =>
        rw [hrec]
        exact hread.resolve_left hlost

end

theorem card_error_cause_refused :
    ∃ said card',
      @Call.run .identity (.data .formatPicc)
        { Card.opened none with cmdset := .nativeIso } [.ok [0x91, 0xAE]] =
          .done said (.error .card) card' [] ∧
      (CauseTold said card' ↔
        @CauseRead .identity (.data .formatPicc)
          { Card.opened none with cmdset := .nativeIso } said) := by
  obtain ⟨card', hrun⟩ : ∃ card', @Call.run .identity (.data .formatPicc)
      { Card.opened none with cmdset := .nativeIso } [.ok [0x91, 0xAE]] =
        .done [(.wrapped dfFormatPicc [], .ok [0x91, 0xAE])]
          (.error .card) card' [] := ⟨_, rfl⟩
  exact ⟨_, card', hrun, @card_error_cause .identity _ _ _ _ _ _ hrun⟩

/-- File not found, in the words of ISO 7816-4, to a wrapped command. -/
theorem card_error_without_cause :
    ¬ ∀ (_ : BlockCipher) (call : Call) (card card' : Card)
      (script rest : List Answer) (said : Said),
      (∀ a ∈ script, ∃ rx, a = .ok rx) →
      call.run card script = .done said (.error .card) card' rest →
      CauseTold said card' := by
  intro hall
  obtain ⟨data, card', hrun, hstatus⟩ : ∃ data card',
      @Call.run .identity (.data .formatPicc)
        { Card.opened none with cmdset := .nativeIso } [.ok [0x6A, 0x82]] =
          .done [(.wrapped dfFormatPicc data, .ok [0x6A, 0x82])]
            (.error .card) card' [] ∧ card'.lastStatus = 0x00 :=
    ⟨_, _, rfl, rfl⟩
  obtain ⟨pre, q, a, hsaid, htold⟩ := hall .identity _ _ card' _ [] _
    (fun a ha => ⟨_, List.mem_singleton.mp ha⟩) hrun
  obtain ⟨rfl, rfl, rfl⟩ := @said_last_inj [] _ _ _ _ _ hsaid
  rw [hstatus] at htold
  cases htold

end Nxpsc
