import Nxpsc.Proofs.HandleInvariant
import Nxpsc.Proofs.LrpCounter

/-!
# No counter twice under an LRP key

Over a run the counters of the key the handle holds are the numbers from zero
on, and the counter of the handle is the next one: a First authentication
starts with the TI, an exchange goes on counting, and every other call leaves
the counter or ends the session. The exception is the non first authentication.
It clears the counter before it looks at the proof, so that a failure puts the
session back to a counter it has used.
-/

namespace Nxpsc

open Dialogue

/-! ## Calls that go on counting -/

theorem counts_refl (card : Card) : Counts card [] card := counts_of_part rfl

theorem Counts.part {card card₁ card' : Card} {used : List Bytes}
    (h : Counts card used card₁)
    (hpart : card'.sessionPart = card₁.sessionPart) :
    Counts card used card' := by
  have hchan : card'.channel = card₁.channel :=
    congrArg SessionPart.channel hpart
  have hiv : card'.iv = card₁.iv := congrArg SessionPart.iv hpart
  have henc : card'.sessionEnc = card₁.sessionEnc :=
    congrArg SessionPart.sessionEnc hpart
  constructor
  · intro hlrp
    obtain ⟨v, hspent, hend⟩ := h.live hlrp
    refine ⟨v, hspent, ?_⟩
    rw [Card.counter, Card.lrpKey, hchan, hiv, henc]
    exact hend
  · intro hno
    rw [hchan]
    exact h.idle hno

/-- The session may end behind what was counted. -/
theorem Counts.left {card card₁ card' : Card} {used : List Bytes}
    (h : Counts card used card₁) (hleft : card'.channel ≠ .lrp) :
    Counts card used card' := by
  constructor
  · intro hlrp
    obtain ⟨v, hspent, -⟩ := h.live hlrp
    exact ⟨v, hspent, fun hlrp' => absurd hlrp' hleft⟩
  · intro hno
    exact ⟨(h.idle hno).1, hleft⟩

theorem quietRule_counts (card₀ : Card) : QuietRule (Counts card₀ []) where
  part h hpart := h.part hpart
  reset _ := counts_of_left fun h => by cases h

theorem lrpDecodeUsed_block (ctx : LrpCtx) {data : Bytes}
    (h : data.length = aesBlock) :
    lrpDecodeUsed ctx data aesBlock = [ctx.counter.bytes.take 4] := by
  rw [lrpDecodeUsed, h]
  rfl

section

variable [BlockCipher]

/-- The counters of the exchange a call sends. -/
theorem request_counts {call : Call} {request : Card → Except Err Request}
    {card card' : Card} {script rest : List Answer} {said : Said}
    {r : Except Err Unit} (hreq : call.request = some request)
    (hrun : call.run card script = .done said r card' rest) :
    Counts card
      (match call.sends card with
        | none => []
        | some req =>
            exchangeUsed req.cmd req.data req.txMode req.rxMode card
              (said.map Prod.snd)) card' := by
  obtain ⟨card₁, hruns, hcard⟩ := request_runs hreq hrun
  suffices h₁ : Counts card
      (match call.sends card with
        | none => []
        | some req =>
            exchangeUsed req.cmd req.data req.txMode req.rxMode card
              (said.map Prod.snd)) card₁ by
    rcases hcard with ⟨-, rfl⟩ | rfl
    · exact h₁.left fun h => by cases h
    · exact h₁
  rw [Call.sends, hreq]
  dsimp only
  rcases hruns with ⟨hskips, hruns⟩ | ⟨hskips, rfl, rfl⟩
  · rw [hskips, if_neg Bool.false_ne_true]
    cases hruns with
    | refused hno =>
        rw [hno]
        exact counts_refl card
    | exchanged hsent hex hpart =>
        rw [hsent]
        exact (exchange_counts hex).part hpart
  · rw [if_pos hskips]
    exact counts_refl card₁

theorem selectApplication_counts {aid : UInt32} {card card' : Card}
    {script rest : List Answer} {said : Said} {r : Except Err Unit}
    (hrun : selectApplication aid card script = .done said r card' rest) :
    Counts card [] card' := by
  rw [selectApplication] at hrun
  split at hrun
  · cases hrun
    exact counts_refl card
  · rw [Prog.modify_bind] at hrun
    have hruns := dataCall_runs (fun _ _ => rfl) hrun
    exact counts_of_left
      (requestRule_idle.runs (requestRule_idle.reset card) hruns)

theorem plusAuthenticate_counts {rng : Rng} {keyBlock : UInt16}
    {key : Option Key} {first : Bool} {card card' : Card}
    {script rest : List Answer} {said : Said} {r : Except Err Unit}
    (hrun : plusAuthenticate rng keyBlock key first card script =
      .done said r card' rest) : Counts card [] card' := by
  cases key with
  | none =>
      cases hrun
      exact counts_refl card
  | some key =>
  cases r with
  | error e =>
      exact spares_plusAuthenticate (fun _ _ h => h.part rfl)
        (fun _ _ _ => counts_of_left fun h => by cases h) _ _ _ _ _ _
        (counts_refl card) hrun
  | ok u =>
      obtain ⟨-, hchan, -⟩ := leaves_plusSession _ _ _ _ _ _ _ _ _ _ hrun
      refine counts_of_left ?_
      rw [hchan]
      decide

/-! ## A session from its first block on -/

/-- The TI is under the counter zero, and the counter stands at one behind
it. -/
theorem tiBlock_spent (session : Bytes) {data : Bytes}
    (h : data.length = aesBlock) :
    AtCounter (lrpDecode (lrpSetCounter (lrpInit session 1 false)
        (Bytes.zeros 16) (4 * 2)) data aesBlock).2 1 ∧
      Spent 0 1 (lrpDecodeUsed (lrpSetCounter (lrpInit session 1 false)
        (Bytes.zeros 16) (4 * 2)) data aesBlock) := by
  have hat := atCounter_set (lrpInit session 1 false) (Bytes.zeros 16)
    (by decide)
  have hzero : counterValue (Bytes.zeros 16) = 0 := by decide
  rw [hzero] at hat
  obtain ⟨v, hend, hspent⟩ := lrpDecode_spent hat data aesBlock
  obtain rfl : v = 1 := by
    rw [hspent.next, lrpDecodeUsed_block _ h]
    rfl
  exact ⟨hend, hspent⟩

theorem lrpAccept_counter {keyNo : UInt8} {key : Key}
    {rndA rndB session resp : Bytes} {card card' : Card}
    (h : lrpAccept keyNo key true rndA rndB session resp card =
      (.ok (), card')) : card'.counter = 1 := by
  simp only [lrpAccept, if_true] at h
  split at h
  · cases h
  next hlong =>
  split at h
  · cases h
  have hblock : (resp.take aesBlock).length = aesBlock := by
    rw [List.length_take, Nat.min_eq_left]
    omega
  obtain ⟨hend, -⟩ := tiBlock_spent session hblock
  cases h
  exact (counterValue_put _ _).trans hend.value

theorem leaves_firstCounter (rng : Rng) (keyNo : UInt8) (key : Key)
    (chan : Channel) :
    (authenticateOn rng keyNo key chan).Leaves
      fun card => card.channel = .lrp → card.counter = 1 := by
  by_cases hlrp : chan = .lrp
  · subst hlrp
    refine Prog.leaves_ite (Prog.leaves_fail _) ?_
    dsimp only
    rw [authLrp_twoPass]
    refine Prog.leaves_twoPass fun kept y card c card' h _ => ?_
    rw [lrpClosing] at h
    split at h
    · cases h
    · exact lrpAccept_counter h
  · refine leaves_authenticateOn fun _ _ _ card' hcloses h => ?_
    obtain ⟨-, hchan, -⟩ := hcloses.session rfl
    exact absurd (hchan.symm.trans h) hlrp

/-! ## Authenticating inside a session -/

/-- The counter is gone before the proof is looked at. -/
theorem lrpAccept_clears {keyNo : UInt8} {key : Key}
    {rndA rndB session resp : Bytes} {card card' : Card} {r : Except Err Unit}
    (h : lrpAccept keyNo key false rndA rndB session resp card = (r, card')) :
    card'.iv = .zero 16 := by
  simp only [lrpAccept, Bool.false_eq_true, if_false] at h
  split at h
  · cases h
    rfl
  split at h
  · cases h
    rfl
  · cases h
    rfl

theorem keeps_authEv2_idle {rng : Rng} {keyNo : UInt8} {key : Key}
    {first : Bool} :
    (authEv2 rng keyNo key first).Keeps (·.channel ≠ .lrp) := by
  refine (authEv2_handshakes rng keyNo key first).keeps (fun _ _ h => h)
    fun card done hcloses hI => ?_
  cases hr : done.1 with
  | ok u =>
      rw [(hcloses.session hr).2.1]
      exact Channel.noConfusion
  | error e =>
      rcases hcloses.failed e hr with hcard | ⟨hlrp, -⟩
      · rwa [hcard]
      · cases hlrp

theorem lrpAccept_lrpKey {keyNo : UInt8} {key : Key}
    {rndA rndB session resp : Bytes} {card card' : Card}
    (hlen : session.length = aesBlock)
    (h : lrpAccept keyNo key false rndA rndB session resp card =
      (.ok (), card')) : card'.lrpKey = some session := by
  have htake : session.take aesBlock = session :=
    List.take_of_length_le (Nat.le_of_eq hlen)
  simp only [lrpAccept, htake, Bool.false_eq_true, if_false] at h
  split at h
  · cases h
  split at h
  · cases h
  cases h
  rw [Card.lrpKey, if_pos rfl, Buf.put_take_eq hlen (by decide)]

/-- What a non first handshake does to an LRP session: nothing, unless its two
answers have the right form; then the counter is cleared, and a proof brings
the key of the handshake. -/
theorem nonfirst_lrp {rng : Rng} {keyNo : UInt8} {key : Key}
    {card card' : Card} {script rest : List Answer} {said : Said}
    {r : Except Err Unit} (hchan : card.channel = .lrp)
    (h : authenticateNonfirst rng keyNo (some key) card script =
      .done said r card' rest) :
    card'.sessionPart = card.sessionPart ∨
      card'.iv = .zero 16 ∧ card.authenticated = true ∧
        ∃ rnd d₁ d₂, rng = .ok rnd ∧
          TwoAnswers card.wraps (said.map Prod.snd) d₁ d₂ ∧
          d₁.length = 17 ∧ d₁.headD 0 = 0x01 ∧
          16 ≤ d₂.length ∧ d₂.length ≤ 64 ∧
          (LrpProof key false (Bytes.fit 16 rnd) d₁ d₂ →
            card'.lrpKey = some
              (sessionKeyLrp key.data.bytes (Bytes.fit 16 rnd)
                (d₁.drop 1))) := by
  rw [authenticateNonfirst, Prog.get_bind] at h
  by_cases hauth : card.authenticated = false
  · rw [if_pos hauth] at h
    cases h
    exact .inl rfl
  rw [if_neg hauth, if_pos hchan, authLrp_twoPass] at h
  rcases native_done (lrpData_length keyNo false)
    (fun x made => lrpOpening_token) h with
    ⟨status, rfl⟩ | ⟨a, b, x, made, y, status, hanswers, hx, hmade, hy, hend⟩
  · exact .inl rfl
  obtain ⟨hst, hlen, hhead, rnd, rfl, rfl⟩ := lrpOpening_ok.mp hmade
  by_cases hshort : y.1 ≠ dfSOk ∨ y.2.length < aesBlock
  · rw [lrpClosing, if_pos hshort] at hend
    cases hend
    exact .inl rfl
  have hiv : card'.iv = .zero 16 := by
    rw [lrpClosing, if_neg hshort] at hend
    exact lrpAccept_clears hend
  have hok := lrpClosing_ok keyNo key false (Bytes.fit aesBlock rnd, x.2.drop 1)
    y { card with lastStatus := status }
  rw [hend] at hok
  rw [lrpClosing, if_neg hshort] at hend
  rw [not_or, not_not] at hshort
  refine .inr ⟨hiv, Bool.eq_true_of_not_eq_false hauth, rnd, x.2, y.2, rfl,
    twoAnswers_of_read hanswers hx hy hst hshort.1, hlen, hhead,
    Nat.not_lt.mp hshort.2, hy.2.2, fun hproof => ?_⟩
  obtain ⟨-, -, hylen, -, hmac⟩ := hproof
  have hr : r = .ok () := hok.mpr ⟨hshort.1, hylen, hmac⟩
  rw [hr] at hend
  exact lrpAccept_lrpKey (sessionKeyLrp_length _ _ _) hend

end

/-! ## The counters of a key, step after step -/

/-- The key of the handle was used with the counters from zero on, and the next
one is that of the handle. -/
def Logged (used : List Bytes) (card : Card) : Prop :=
  ∃ v, Spent 0 v used ∧ (card.channel = .lrp → card.counter = v)

theorem logged_nil {card : Card}
    (h : card.channel = .lrp → card.counter = 0) : Logged [] card :=
  ⟨0, spent_nil (by decide), h⟩

theorem Spent.head {v : Nat} {used : List Bytes} (h : Spent 0 v used) :
    ∀ counter ∈ used.head?, counterValue counter = 0 := by
  cases used with
  | nil =>
      intro counter hno
      cases hno
  | cons first rest =>
      intro counter hhead
      obtain rfl : first = counter := Option.some.inj hhead
      have hvalues := h.values
      rw [List.map_cons, List.length_cons, Counting.values_succ] at hvalues
      exact (List.cons.inj hvalues).1

theorem request_none_of_quiet {call : Call} (h : call.quiet = true) :
    call.request = none ∧ call.opens = false := by
  cases call with
  | data | identify | getCardUid | changeKey | changeKeyEv2 | rollKeySet
  | authenticate => cases h
  | _ => exact ⟨rfl, rfl⟩

theorem opens_of_request {call : Call} {request : Card → Except Err Request}
    (h : call.request = some request) : call.opens = false := by
  cases call with
  | authenticate => cases h
  | _ => rfl

section

variable [BlockCipher]

/-- What a step needs for its blocks to be fresh, and what the next step needs
of it. -/
structure StepLogged (used : List Bytes) (st : ApiStep) : Prop where
  spent : ∃ v, Spent 0 v (usedUnderKey used st)
  logged : Logged (keyLog used st) st.after

theorem callUsed_idle {st : ApiStep} (hopens : st.call.opens = false)
    (hreq : st.call.request = none) : callUsed st = [] := by
  rw [callUsed, hopens, if_neg Bool.false_ne_true, Call.sends, hreq]

theorem usedUnderKey_goes {used : List Bytes} {st : ApiStep}
    (hopens : st.call.opens = false) :
    usedUnderKey used st = used ++ callUsed st := by
  rw [usedUnderKey, hopens, if_neg Bool.false_ne_true]

theorem keyLog_goes {used : List Bytes} {st : ApiStep}
    (hopens : st.call.opens = false) :
    keyLog used st = if st.after.lrpKey = st.before.lrpKey then
      used ++ callUsed st else [] := by
  rw [keyLog, hopens, ← usedUnderKey_goes hopens]
  simp only [Bool.false_eq_true, false_or]

theorem stepLogged_of_counts {used : List Bytes} {st : ApiStep}
    (hopens : st.call.opens = false) (hlog : Logged used st.before)
    (hcounts : Counts st.before (callUsed st) st.after) :
    StepLogged used st := by
  obtain ⟨v, hspent, hat⟩ := hlog
  by_cases hlrp : st.before.channel = .lrp
  · obtain ⟨v', hmore, hend⟩ := hcounts.live hlrp
    rw [hat hlrp] at hmore
    have hall := hspent.append hmore
    constructor
    · exact ⟨v', by rwa [usedUnderKey_goes hopens]⟩
    rw [keyLog_goes hopens]
    split
    · exact ⟨v', hall, fun h => (hend h).1⟩
    · next hkey => exact logged_nil fun h => absurd (hend h).2 hkey
  · obtain ⟨hnone, hleft⟩ := hcounts.idle hlrp
    constructor
    · exact ⟨v, by rwa [usedUnderKey_goes hopens, hnone, List.append_nil]⟩
    rw [keyLog_goes hopens, hnone, List.append_nil]
    split
    · exact ⟨v, hspent, fun h => absurd h hleft⟩
    · exact logged_nil fun h => absurd h hleft

/-- A counter that is cleared has to be at zero already, or the key new. -/
theorem stepLogged_of_cleared {used : List Bytes} {st : ApiStep}
    (hopens : st.call.opens = false) (hnone : callUsed st = [])
    (hlog : Logged used st.before) (hlrp : st.before.channel = .lrp)
    (hzero : st.after.counter = 0)
    (hkey : st.after.lrpKey = st.before.lrpKey → st.before.counter = 0) :
    StepLogged used st := by
  obtain ⟨v, hspent, hat⟩ := hlog
  constructor
  · exact ⟨v, by rwa [usedUnderKey_goes hopens, hnone, List.append_nil]⟩
  rw [keyLog_goes hopens, hnone, List.append_nil]
  split
  · next hsame =>
      refine ⟨v, hspent, fun _ => ?_⟩
      rw [hzero, ← hat hlrp, hkey hsame]
  · exact logged_nil fun _ => hzero

theorem callUsed_ti {st : ApiStep} (hopens : st.call.opens = true)
    (hok : st.result = .ok ()) (hchan : st.after.channel = .lrp) :
    callUsed st = tiUsed st.after := by
  rw [callUsed, if_pos hopens, hok, hchan]

theorem callUsed_other {st : ApiStep} (hopens : st.call.opens = true)
    (hchan : st.after.channel ≠ .lrp) : callUsed st = [] := by
  rw [callUsed, if_pos hopens]
  split
  · next hlrp => exact absurd hlrp hchan
  · rfl

theorem stepLogged_of_opened {used : List Bytes} {st : ApiStep}
    (hopens : st.call.opens = true)
    (hlog : Logged (callUsed st) st.after) : StepLogged used st := by
  have hunder : usedUnderKey used st = callUsed st := by
    rw [usedUnderKey, if_pos hopens]
  constructor
  · obtain ⟨v, hspent, -⟩ := hlog
    exact ⟨v, by rwa [hunder]⟩
  · rwa [keyLog, if_pos (.inl hopens), hunder]

theorem stepLogged_authenticate {used : List Bytes} {rng : Rng}
    {keyNo : UInt8} {key : Key} {channel : Channel} {card card' : Card}
    {script rest : List Answer} {said : Said} {r : Except Err Unit}
    (h : authenticate rng keyNo (some key) channel card script =
      .done said r card' rest) :
    StepLogged used ⟨.authenticate rng keyNo (some key) channel, card, said, r,
      card'⟩ := by
  refine stepLogged_of_opened rfl ?_
  rw [authenticate_run] at h
  cases r with
  | error e =>
      have hleft : card'.channel ≠ .lrp :=
        spares_authenticateOn (I := (·.channel ≠ .lrp)) (fun _ _ h => h)
          (fun _ h => h) _ _ _ _ _ _ _ _ _ _ (requestRule_idle.reset card) h
      rw [callUsed_other rfl hleft]
      exact logged_nil fun h => absurd h hleft
  | ok u =>
      by_cases hchan : card'.channel = .lrp
      · obtain ⟨-, hspent⟩ := tiBlock_spent card'.sessionEnc.bytes
          (Bytes.length_zeros aesBlock)
        rw [callUsed_ti rfl rfl hchan]
        exact ⟨1, hspent, leaves_firstCounter _ _ _ _ _ _ _ _ _ _ h⟩
      · rw [callUsed_other rfl hchan]
        exact logged_nil fun h => absurd h hchan

theorem stepLogged_nonfirst {used : List Bytes} {rng : Rng} {keyNo : UInt8}
    {key : Option Key} {card card' : Card} {script rest : List Answer}
    {said : Said} {r : Except Err Unit} (hlog : Logged used card)
    (hkeeps : ¬ ClearsCounter
      ⟨.authenticateNonfirst rng keyNo key, card, said, r, card'⟩)
    (h : authenticateNonfirst rng keyNo key card script =
      .done said r card' rest) :
    StepLogged used
      ⟨.authenticateNonfirst rng keyNo key, card, said, r, card'⟩ := by
  have hnone : callUsed (⟨.authenticateNonfirst rng keyNo key, card, said, r,
      card'⟩ : ApiStep) = [] := callUsed_idle rfl rfl
  have hgoes : Counts card [] card' → StepLogged used
      ⟨.authenticateNonfirst rng keyNo key, card, said, r, card'⟩ := fun hc =>
    stepLogged_of_counts rfl hlog (by rwa [hnone])
  cases key with
  | none =>
      cases h
      exact hgoes (counts_refl card)
  | some key =>
  by_cases hlrp : card.channel = .lrp
  · rcases nonfirst_lrp hlrp h with hpart |
      ⟨hiv, hauth, rnd, d₁, d₂, hrng, htwo, hlen, hhead, hlow, hhigh, hproved⟩
    · exact hgoes (counts_of_part hpart)
    have hzero : card'.counter = 0 := by
      rw [Card.counter, hiv]
      rfl
    refine stepLogged_of_cleared rfl hnone hlog hlrp hzero fun hsame => ?_
    by_contra hmoved
    refine hkeeps ⟨hauth, hlrp, hmoved, rnd, d₁, d₂, hrng, htwo, hlen, hhead,
      hlow, hhigh, fun hproof => ?_⟩
    exact hsame.symm.trans (hproved hproof)
  · refine hgoes (counts_of_left ?_)
    rw [authenticateNonfirst, Prog.get_bind] at h
    by_cases hauth : card.authenticated = false
    · rw [if_pos hauth] at h
      cases h
      exact hlrp
    rw [if_neg hauth, if_neg hlrp] at h
    by_cases hev2 : card.channel = .ev2
    · rw [if_pos hev2] at h
      exact keeps_authEv2_idle _ _ _ _ _ _ hlrp h
    · rw [if_neg hev2] at h
      cases h
      exact hlrp

/-- Every call but one that leaves the counter keeps the log. -/
theorem stepLogged {used : List Bytes} {st : ApiStep} (hof : st.Of Call.run)
    (hlog : Logged used st.before) (hkeeps : ¬ ClearsCounter st) :
    StepLogged used st := by
  obtain ⟨call, card, said, r, card'⟩ := st
  obtain ⟨script, rest, hrun⟩ := hof
  dsimp only at hrun hlog
  cases hquiet : call.quiet with
  | true =>
      obtain ⟨hreq, hopens⟩ := request_none_of_quiet hquiet
      refine stepLogged_of_counts hopens hlog ?_
      rw [callUsed_idle hopens hreq]
      exact (quietRule_counts card).keeps hquiet _ _ _ _ _ _ (counts_refl card)
        hrun
  | false =>
  cases hreq : call.request with
  | some request =>
      have hopens := opens_of_request hreq
      refine stepLogged_of_counts hopens hlog ?_
      rw [callUsed, if_neg (ne_true_of_eq_false hopens)]
      exact request_counts hreq hrun
  | none =>
  cases call with
  | authenticate rng keyNo key channel =>
      cases key with
      | none =>
          cases hrun
          refine stepLogged_of_counts rfl hlog ?_
          rw [callUsed_idle rfl rfl]
          exact counts_refl card
      | some key => exact stepLogged_authenticate hrun
  | authenticateNonfirst rng keyNo key =>
      exact stepLogged_nonfirst hlog hkeeps hrun
  | selectApplication aid =>
      refine stepLogged_of_counts rfl hlog ?_
      rw [callUsed_idle rfl rfl]
      exact selectApplication_counts hrun
  | plusAuthenticate rng keyBlock key first =>
      refine stepLogged_of_counts rfl hlog ?_
      rw [callUsed_idle rfl rfl]
      exact plusAuthenticate_counts hrun
  | data | identify | getCardUid | changeKey | changeKeyEv2 | rollKeySet =>
      cases hreq
  | _ => cases hquiet

/-- In a run from `nxpsc_open` in which no step takes the counter from the LRP
session, the blocks of every step are fresh under their key. -/
theorem lrp_counter_fresh (uid : Option Bytes) (steps : List ApiStep)
    (card' : Card) (hrun : ApiRun (Card.opened uid) steps card')
    (hkeeps : ∀ st ∈ steps, ¬ LeavesCounter st) :
    Along keyLog FreshBlocks [] steps := by
  refine (hrun.along Logged (fun _ st => ¬ LeavesCounter st) ?_ ?_
    (along_const hkeeps)).1
  · intro used st hof hlog hkeeps
    rw [LeavesCounter, not_or] at hkeeps
    obtain ⟨⟨v, hspent⟩, hlogged⟩ := stepLogged hof hlog hkeeps.1
    exact ⟨⟨fun hlrp hcbc => hkeeps.2 ⟨hlrp, hcbc⟩, hspent.head,
      hspent.nodup⟩, hlogged⟩
  · exact logged_nil fun h => by cases h

end

/-- The proof of a First authentication under the identity cipher, and one that
fails. -/
def zeroLrpHandshake : List Answer :=
  [.ok (0xAF :: 0x01 :: Bytes.zeros 16), .ok (0x00 :: Bytes.zeros 32)]

def failedLrpHandshake : List Answer :=
  [.ok (0xAF :: 0x01 :: Bytes.zeros 16),
    .ok (0x00 :: List.replicate 16 0x01)]

theorem lrp_counter_fresh_first :
    ∃ said card said' card', @ApiRun .identity (Card.opened none)
      [ ⟨.authenticate (.ok []) 0 (some zeroKey) .lrp, Card.opened none, said,
          .ok (), card⟩,
        ⟨.data (.credit 1 5 .full), card, said', .error .card, card'⟩ ] card' ∧
      @Along _ _ _ _ _ _ (@keyLog .identity) (@FreshBlocks .identity) []
        [ ⟨.authenticate (.ok []) 0 (some zeroKey) .lrp, Card.opened none, said,
            .ok (), card⟩,
          ⟨.data (.credit 1 5 .full), card, said', .error .card, card'⟩ ] := by
  obtain ⟨said, card, said', card', hauth, hcredit⟩ :
      ∃ said card said' card',
      @Call.run .identity (.authenticate (.ok []) 0 (some zeroKey) .lrp)
        (Card.opened none) zeroLrpHandshake = .done said (.ok ()) card [] ∧
      @Call.run .identity (.data (.credit 1 5 .full)) card [.ok [0xAE]] =
        .done said' (.error .card) card' [] :=
    ⟨_, _, _, _, rfl, rfl⟩
  have hrun : @ApiRun .identity (Card.opened none) _ card' :=
    .cons_done hauth (.cons_done hcredit .nil)
  refine ⟨said, card, said', card', hrun,
    @lrp_counter_fresh .identity none _ _ hrun fun st hst => ?_⟩
  rcases List.mem_cons.mp hst with rfl | hst
  · rintro (hclears | ⟨-, -, hcbc⟩)
    · exact hclears
    · exact hcbc
  · rw [List.mem_singleton.mp hst]
    rintro (hclears | ⟨-, -, hcbc⟩)
    · exact hclears
    · exact hcbc

/-- A second handshake fails, and the credit behind it is enciphered with the
counter of the TI. -/
theorem lrp_counter_may_repeat :
    ¬ ∀ (_ : BlockCipher) (uid : Option Bytes) (steps : List ApiStep)
      (card' : Card), ApiRun (Card.opened uid) steps card' →
      Along keyLog (fun used st => (usedUnderKey used st).length ≤ 2 ^ 32 →
        (usedUnderKey used st).Nodup) [] steps := by
  intro hall
  obtain ⟨said, card, said₁, card₁, said₂, card₂, hauth, hagain, hcredit,
      hused⟩ :
      ∃ said card said₁ card₁ said₂ card₂,
      @Call.run .identity (.authenticate (.ok []) 0 (some zeroKey) .lrp)
        (Card.opened none) zeroLrpHandshake = .done said (.ok ()) card [] ∧
      @Call.run .identity (.authenticateNonfirst (.ok []) 0 (some zeroKey))
        card failedLrpHandshake = .done said₁ (.error .auth) card₁ [] ∧
      @Call.run .identity (.data (.credit 1 5 .full)) card₁ [.ok [0xAE]] =
        .done said₂ (.error .card) card₂ [] ∧
      @usedUnderKey .identity
        (@keyLog .identity (@keyLog .identity []
          ⟨.authenticate (.ok []) 0 (some zeroKey) .lrp, Card.opened none, said,
            .ok (), card⟩)
          ⟨.authenticateNonfirst (.ok []) 0 (some zeroKey), card, said₁,
            .error .auth, card₁⟩)
        ⟨.data (.credit 1 5 .full), card₁, said₂, .error .card, card₂⟩ =
          [Bytes.zeros 4, Bytes.zeros 4] :=
    ⟨_, _, _, _, _, _, rfl, rfl, rfl, rfl⟩
  obtain ⟨-, -, hfresh, -⟩ := hall .identity none _ _
    (.cons_done hauth (.cons_done hagain (.cons_done hcredit .nil)))
  rw [hused] at hfresh
  exact absurd (hfresh (by decide)) (by decide)

end Nxpsc
