import Nxpsc.Proofs.ChannelFrame
import Nxpsc.Proofs.Wire

/-!
# How an exchange ends

`nxpsc_raw_exchange_ex` has four ways out, and each of them is decided by the
last answer it read: no status in it, an intermediate frame that was not
acknowledged, data beyond the buffer, or the answer the caller gets. Before
that last answer every frame was acknowledged with 0xAF. `RawEnds` says so;
the loops are opened here and nowhere else.
-/

namespace Nxpsc

open Dialogue

/-- The outcome of a raw exchange, by what the card answered last. -/
inductive RawEnds (card : Card) (cmd : UInt8) (n cap : Nat) (follow : Bool) :
    Said → Except Err (UInt8 × Bytes) → Card → Prop where
  /-- no status in the answer -/
  | fault {pre : Said} {c : UInt8} {q : Frame} {a : Answer} {e : Err}
      (hpre : Chained card cmd pre c) (hq : Carries card c q)
      (ha : cardStatus q a = none) :
      RawEnds card cmd n cap follow (pre ++ [(q, a)]) (.error e) card
  /-- an intermediate frame was answered with something else than 0xAF -/
  | refused {pre : Said} {c status : UInt8} {q : Frame} {a : Answer}
      (hpre : Chained card cmd pre c) (hq : Carries card c q)
      (ha : cardStatus q a = some status) (hne : status ≠ dfSAdditionalFrame)
      (hleft : pre.length < intermediateFrames n) :
      RawEnds card cmd n cap follow (pre ++ [(q, a)]) (.error .card)
        { card with lastStatus := status }
  /-- the data do not fit -/
  | overflow {pre : Said} {c status : UInt8} {q : Frame} {a : Answer}
      (hpre : Chained card cmd pre c) (hq : Carries card c q)
      (ha : cardStatus q a = some status)
      (hsent : intermediateFrames n ≤ pre.length)
      (hcap : cap <
        (saidData ((pre ++ [(q, a)]).drop (intermediateFrames n))).length) :
      RawEnds card cmd n cap follow (pre ++ [(q, a)]) (.error .length) card
  /-- the answer is complete -/
  | completed {pre : Said} {c status : UInt8} {q : Frame} {a : Answer}
      (hpre : Chained card cmd pre c) (hq : Carries card c q)
      (ha : cardStatus q a = some status)
      (hsent : intermediateFrames n ≤ pre.length)
      (hend : follow = true → status ≠ dfSAdditionalFrame)
      (hcap : (saidData
        ((pre ++ [(q, a)]).drop (intermediateFrames n))).length ≤ cap) :
      RawEnds card cmd n cap follow (pre ++ [(q, a)])
        (.ok (status, saidData ((pre ++ [(q, a)]).drop (intermediateFrames n))))
        { card with lastStatus := status }

/-! ## The outbound loop -/

theorem pending_request (p : Pending) (card : Card) :
    ∃ q, p.request card = .ok q ∧ Carries card p.cmd q := by
  rw [Pending.request, frameRequest]
  have hlen : ¬ maxApdu - 6 < (p.rest.take txFrameMax).length := by
    rw [List.length_take]
    have : min txFrameMax p.rest.length ≤ txFrameMax := Nat.min_le_left _ _
    simp only [maxApdu, txFrameMax] at *
    omega
  rw [if_neg hlen]
  split
  · next hset =>
      exact ⟨_, rfl, p.rest.take txFrameMax, by
        rw [frameRequest, if_neg hlen, if_pos hset]⟩
  · next hset =>
      exact ⟨_, rfl, p.rest.take txFrameMax, by
        rw [frameRequest, if_neg hlen, if_neg hset]⟩

/-! One round of the loop, branch by branch. -/

section

variable {cap : Nat} {p : Pending} {card : Card} {a : Answer} {status : UInt8}
  {got : Bytes}

theorem react_fault {e : Err} (h : frameResponse card maxApdu a = .error e) :
    p.react cap a card = (.error e, card) := by
  rw [Pending.react, h]

theorem react_refused (h : frameResponse card maxApdu a = .ok (status, got))
    (hmore : txFrameMax < p.rest.length) (hne : status ≠ dfSAdditionalFrame) :
    p.react cap a card = (.error .card, { card with lastStatus := status }) := by
  rw [Pending.react, h]
  dsimp only
  rw [if_pos hmore, if_pos hne]

theorem react_acked
    (h : frameResponse card maxApdu a = .ok (dfSAdditionalFrame, got))
    (hmore : txFrameMax < p.rest.length) :
    p.react cap a card =
      (.ok (.inl ⟨dfAdditionalFrame, p.rest.drop txFrameMax⟩), card) := by
  rw [Pending.react, h]
  dsimp only
  rw [if_pos hmore, if_neg (not_not.mpr rfl)]

theorem react_full (h : frameResponse card maxApdu a = .ok (status, got))
    (hlast : ¬ txFrameMax < p.rest.length) (hcap : cap < got.length) :
    p.react cap a card = (.error .length, card) := by
  rw [Pending.react, h]
  dsimp only
  rw [if_neg hlast, if_pos hcap]

theorem react_last (h : frameResponse card maxApdu a = .ok (status, got))
    (hlast : ¬ txFrameMax < p.rest.length) (hcap : got.length ≤ cap) :
    p.react cap a card = (.ok (.inr (status, got)), card) := by
  rw [Pending.react, h]
  dsimp only
  rw [if_neg hlast, if_neg (Nat.not_lt.mpr hcap)]

/-- What a round of the loop can do. -/
inductive Reacts (cap : Nat) (p : Pending) (a : Answer) (card : Card) :
    Except Err (Pending ⊕ UInt8 × Bytes) → Card → Prop where
  /-- no status in the answer -/
  | fault {e : Err} (h : frameResponse card maxApdu a = .error e) :
      Reacts cap p a card (.error e) card
  /-- an intermediate frame is not acknowledged -/
  | refused {status : UInt8} {got : Bytes}
      (h : frameResponse card maxApdu a = .ok (status, got))
      (hmore : txFrameMax < p.rest.length)
      (hne : status ≠ dfSAdditionalFrame) :
      Reacts cap p a card (.error .card) { card with lastStatus := status }
  /-- an intermediate frame is acknowledged -/
  | acked {got : Bytes}
      (h : frameResponse card maxApdu a = .ok (dfSAdditionalFrame, got))
      (hmore : txFrameMax < p.rest.length) :
      Reacts cap p a card
        (.ok (.inl ⟨dfAdditionalFrame, p.rest.drop txFrameMax⟩)) card
  /-- the answer to the last frame does not fit -/
  | full {status : UInt8} {got : Bytes}
      (h : frameResponse card maxApdu a = .ok (status, got))
      (hlast : ¬ txFrameMax < p.rest.length) (hcap : cap < got.length) :
      Reacts cap p a card (.error .length) card
  /-- the answer to the last frame is handed on -/
  | last {status : UInt8} {got : Bytes}
      (h : frameResponse card maxApdu a = .ok (status, got))
      (hlast : ¬ txFrameMax < p.rest.length) (hcap : got.length ≤ cap) :
      Reacts cap p a card (.ok (.inr (status, got))) card

theorem react_cases {r : Except Err (Pending ⊕ UInt8 × Bytes)} {card' : Card}
    (h : p.react cap a card = (r, card')) : Reacts cap p a card r card' := by
  rw [Pending.react] at h
  split at h
  · next hresp =>
      cases h
      exact .fault hresp
  next status got hresp =>
  split at h
  · next hmore =>
      split at h
      · next hne =>
          cases h
          exact .refused hresp hmore hne
      · next haf =>
          cases h
          rw [not_not.mp haf] at hresp
          exact .acked hresp hmore
  next hlast =>
  split at h
  · next hcap =>
      cases h
      exact .full hresp hlast hcap
  · next hcap =>
      cases h
      exact .last hresp hlast (Nat.not_lt.mp hcap)

end

/-- How the outbound loop ends: like the raw exchange, but for the answer to
the last frame, which may itself ask to go on. -/
def SendEnds (card : Card) (cmd : UInt8) (n cap : Nat) (follow : Bool)
    (said : Said) (r : Except Err (UInt8 × Bytes)) (card' : Card) : Prop :=
  (∃ e, r = .error e ∧ RawEnds card cmd n cap follow said (.error e) card') ∨
  (∃ pre c q a status, said = pre ++ [(q, a)] ∧ card' = card ∧
    Chained card cmd pre c ∧ Carries card c q ∧
    cardStatus q a = some status ∧ pre.length = intermediateFrames n ∧
    (cardData q a).length ≤ cap ∧ r = .ok (status, cardData q a))

theorem more_frames {data : Bytes} {k : Nat} :
    txFrameMax < (data.drop (txFrameMax * k)).length ↔
      k < intermediateFrames data.length := by
  rw [List.length_drop, intermediateFrames, txFrameMax]
  omega

theorem sendRequest_done {cmd : UInt8} {data : Bytes} {cap : Nat}
    (follow : Bool) {card card' : Card} {script rest : List Answer}
    {said : Said} {r : Except Err (UInt8 × Bytes)}
    (h : sendRequest cmd data cap card script = .done said r card' rest) :
    SendEnds card cmd data.length cap follow said r card' := by
  -- the invariant: what is left to send is what the frames so far left over
  refine Prog.converse_done
    (fun said p s => s = card ∧ Chained card cmd said p.cmd ∧
      p.rest = data.drop (txFrameMax * said.length) ∧
      said.length ≤ intermediateFrames data.length)
    (SendEnds card cmd data.length cap follow) ?_ ?_ ?_ ?_ ?_ h
  · intro said p s e hI he
    obtain ⟨q, hq, -⟩ := pending_request p s
    rw [hq] at he
    cases he
  · rintro said p s q a p' s' ⟨hs, hch, hrest, hle⟩ hq hr
    subst hs
    obtain ⟨q', hq', hcar⟩ := pending_request p s
    cases hq.symm.trans hq'
    cases react_cases hr with
    | acked hresp hmore =>
        obtain ⟨hst, -⟩ := frameResponse_ok hcar hresp
        rw [hrest, more_frames] at hmore
        refine ⟨rfl, .next hch hcar hst, ?_, ?_⟩
        · rw [hrest, List.drop_drop, List.length_append,
            List.length_singleton, Nat.mul_succ]
        · rw [List.length_append, List.length_singleton]
          exact hmore
  · rintro said p s q a c s' ⟨hs, hch, hrest, hle⟩ hq hr
    subst hs
    obtain ⟨q', hq', hcar⟩ := pending_request p s
    cases hq.symm.trans hq'
    cases react_cases hr with
    | last hresp hlast hcap =>
        obtain ⟨hst, hdata⟩ := frameResponse_ok hcar hresp
        rw [hrest, more_frames] at hlast
        rw [← hdata] at hcap ⊢
        exact .inr ⟨said, p.cmd, q, a, _, rfl, rfl, hch, hcar, hst, by omega,
          hcap, rfl⟩
  · rintro said p s q a e s' ⟨hs, hch, hrest, hle⟩ hq hr
    subst hs
    obtain ⟨q', hq', hcar⟩ := pending_request p s
    cases hq.symm.trans hq'
    cases react_cases hr with
    | fault hresp =>
        exact .inl ⟨_, rfl, .fault hch hcar (frameResponse_error hcar hresp)⟩
    | refused hresp hmore hne =>
        obtain ⟨hst, -⟩ := frameResponse_ok hcar hresp
        rw [hrest, more_frames] at hmore
        exact .inl ⟨_, rfl, .refused hch hcar hst hne hmore⟩
    | full hresp hlast hcap =>
        obtain ⟨hst, hdata⟩ := frameResponse_ok hcar hresp
        rw [hrest, more_frames] at hlast
        have hk : said.length = intermediateFrames data.length := by omega
        refine .inl ⟨_, rfl, .overflow hch hcar hst (by omega) ?_⟩
        rw [← hk, List.drop_left, saidData_single, hdata]
        exact hcap
  · refine ⟨rfl, .start, ?_, Nat.zero_le _⟩
    rw [List.length_nil, Nat.mul_zero, List.drop_zero]

/-! ## The inbound loop -/

theorem continuation_request (card : Card) :
    ∃ q, frameRequest dfAdditionalFrame [] card = .ok q ∧
      Carries card dfAdditionalFrame q := by
  have hlen : ¬ maxApdu - 6 < ([] : Bytes).length := by
    simp only [List.length_nil, maxApdu]
    omega
  rw [frameRequest, if_neg hlen]
  split
  · next hset =>
      exact ⟨_, rfl, [], by rw [frameRequest, if_neg hlen, if_pos hset]⟩
  · next hset =>
      exact ⟨_, rfl, [], by rw [frameRequest, if_neg hlen, if_neg hset]⟩

/-- What a round of the inbound loop can do. -/
inductive Collects (cap : Nat) (resp : Bytes) (a : Answer) (card : Card) :
    Except Err (Bytes ⊕ UInt8 × Bytes) → Prop where
  /-- no status in the answer -/
  | fault {e : Err} (h : frameResponse card maxApdu a = .error e) :
      Collects cap resp a card (.error e)
  /-- the data do not fit behind those received -/
  | full {status : UInt8} {got : Bytes}
      (h : frameResponse card maxApdu a = .ok (status, got))
      (hcap : cap < resp.length + got.length) :
      Collects cap resp a card (.error .length)
  /-- there are more data -/
  | more {got : Bytes}
      (h : frameResponse card maxApdu a = .ok (dfSAdditionalFrame, got))
      (hcap : resp.length + got.length ≤ cap) :
      Collects cap resp a card (.ok (.inl (resp ++ got)))
  /-- these were the last data -/
  | last {status : UInt8} {got : Bytes}
      (h : frameResponse card maxApdu a = .ok (status, got))
      (hcap : resp.length + got.length ≤ cap)
      (hend : status ≠ dfSAdditionalFrame) :
      Collects cap resp a card (.ok (.inr (status, resp ++ got)))

/-- The inbound loop does nothing to the handle. -/
theorem collectReact_cases {cap : Nat} {resp : Bytes} {a : Answer}
    {card card' : Card} {r : Except Err (Bytes ⊕ UInt8 × Bytes)}
    (h : collectReact cap resp a card = (r, card')) :
    Collects cap resp a card r ∧ card' = card := by
  rw [collectReact] at h
  split at h
  · next hgot =>
      cases h
      exact ⟨.fault hgot, rfl⟩
  next status got hgot =>
  split at h
  · next hcap =>
      cases h
      exact ⟨.full hgot hcap, rfl⟩
  next hcap =>
  split at h
  · next haf =>
      cases h
      rw [haf] at hgot
      exact ⟨.more hgot (Nat.not_lt.mp hcap), rfl⟩
  · next hend =>
      cases h
      exact ⟨.last hgot (Nat.not_lt.mp hcap) hend, rfl⟩

/-- How the collection ends, after what was said before it. -/
def CollectEnds (card : Card) (cmd : UInt8) (n cap : Nat) (follow : Bool)
    (first said : Said) (r : Except Err (UInt8 × Bytes)) (card' : Card) :
    Prop :=
  (∃ e, r = .error e ∧
    RawEnds card cmd n cap follow (first ++ said) (.error e) card') ∨
  (∃ last, r = .ok last ∧ card' = card ∧
    RawEnds card cmd n cap follow (first ++ said) (.ok last)
      { card with lastStatus := last.1 })

/-- The inbound loop, entered after the last frame of the request was
answered with 0xAF. -/
theorem collect_done {cmd : UInt8} {n cap : Nat} (follow : Bool) {first : Said}
    {resp : Bytes} {card card' : Card} {script rest : List Answer}
    {said : Said} {r : Except Err (UInt8 × Bytes)}
    (hfirst : Chained card cmd first dfAdditionalFrame)
    (hsent : intermediateFrames n ≤ first.length)
    (hresp : resp = saidData (first.drop (intermediateFrames n)))
    (h : Prog.converse (fun _ card => frameRequest dfAdditionalFrame [] card)
      (collectReact cap) resp card script = .done said r card' rest) :
    CollectEnds card cmd n cap follow first said r card' := by
  -- what a further answer adds to the data
  have hadd : ∀ (said : Said) (q : Frame) (a : Answer),
      saidData ((first ++ said ++ [(q, a)]).drop (intermediateFrames n)) =
        saidData ((first ++ said).drop (intermediateFrames n)) ++
          cardData q a := by
    intro said q a
    rw [List.drop_append_of_le_length (by rw [List.length_append]; omega),
      saidData_append, saidData_single]
  have hlong : ∀ said : Said,
      intermediateFrames n ≤ (first ++ said).length := by
    intro said
    rw [List.length_append]
    omega
  refine Prog.converse_done
    (fun said resp s => s = card ∧
      Chained card cmd (first ++ said) dfAdditionalFrame ∧
      resp = saidData ((first ++ said).drop (intermediateFrames n)))
    (CollectEnds card cmd n cap follow first) ?_ ?_ ?_ ?_ ?_ h
  · intro said p s e hI he
    obtain ⟨q, hq, -⟩ := continuation_request s
    rw [hq] at he
    cases he
  · rintro said p s q a p' s' ⟨hs, hch, hp⟩ hq hr
    subst hs
    obtain ⟨q', hq', hcar⟩ := continuation_request s
    cases hq.symm.trans hq'
    obtain ⟨hc, rfl⟩ := collectReact_cases hr
    cases hc with
    | more hgot hcap =>
        obtain ⟨hst, hdata⟩ := frameResponse_ok hcar hgot
        rw [← List.append_assoc]
        refine ⟨rfl, .next hch hcar hst, ?_⟩
        rw [hadd, hdata, hp]
  · rintro said p s q a c s' ⟨hs, hch, hp⟩ hq hr
    subst hs
    obtain ⟨q', hq', hcar⟩ := continuation_request s
    cases hq.symm.trans hq'
    obtain ⟨hc, rfl⟩ := collectReact_cases hr
    cases hc with
    | last hgot hcap hend =>
        obtain ⟨hst, hdata⟩ := frameResponse_ok hcar hgot
        refine .inr ⟨_, rfl, rfl, ?_⟩
        rw [← List.append_assoc, hp, ← hdata, ← hadd]
        refine .completed hch hcar hst (hlong said) (fun _ => hend) ?_
        rw [hadd, List.length_append, hdata, ← hp]
        exact hcap
  · rintro said p s q a e s' ⟨hs, hch, hp⟩ hq hr
    subst hs
    obtain ⟨q', hq', hcar⟩ := continuation_request s
    cases hq.symm.trans hq'
    refine .inl ⟨e, rfl, ?_⟩
    rw [← List.append_assoc]
    obtain ⟨hc, rfl⟩ := collectReact_cases hr
    cases hc with
    | fault hgot => exact .fault hch hcar (frameResponse_error hcar hgot)
    | full hgot hcap =>
        obtain ⟨hst, hdata⟩ := frameResponse_ok hcar hgot
        refine .overflow hch hcar hst (hlong said) ?_
        rw [hadd, List.length_append, hdata, ← hp]
        exact hcap
  · refine ⟨rfl, ?_, ?_⟩
    · rw [List.append_nil]
      exact hfirst
    · rw [List.append_nil]
      exact hresp

/-- How `nxpsc_raw_exchange_ex` ends, for every card. -/
theorem rawExchangeEx_done {cmd : UInt8} {data : Bytes} {cap : Nat}
    {follow : Bool} {card card' : Card} {script rest : List Answer}
    {said : Said} {r : Except Err (UInt8 × Bytes)}
    (h : rawExchangeEx cmd data cap follow card script =
      .done said r card' rest) :
    RawEnds card cmd data.length cap follow said r card' := by
  rw [rawExchangeEx] at h
  rcases Prog.bind_eq_done.mp h with ⟨e, hsend, rfl⟩ |
    ⟨said₁, sent, card₁, rest₁, said₂, hsend, hcoll, rfl⟩
  · rcases sendRequest_done follow hsend with ⟨e', he, hends⟩ |
      ⟨pre, c, q, a, status, -, -, -, -, -, -, -, hr⟩
    · cases he
      exact hends
    · cases hr
  · rcases sendRequest_done follow hsend with ⟨e', he, hends⟩ |
      ⟨pre, c, q, a, status, rfl, rfl, hch, hcar, hst, hk, hcap, hr⟩
    · cases he
    cases hr
    have hdrop : cardData q a =
        saidData ((pre ++ [(q, a)]).drop (intermediateFrames data.length)) := by
      rw [← hk, List.drop_left, saidData_single]
    rcases Prog.bind_eq_done.mp hcoll with ⟨e, hc, rfl⟩ |
      ⟨said₃, last, card₂, rest₂, said₄, hc, hlast, rfl⟩
    · rw [collect] at hc
      split at hc
      · next haf =>
          obtain ⟨hfollow, haf⟩ := haf
          rw [show status = dfSAdditionalFrame from haf] at hst
          rcases collect_done follow (.next hch hcar hst)
            (by rw [List.length_append, List.length_singleton]; omega) hdrop hc
            with ⟨e', he, hends⟩ | ⟨last, hl, -, -⟩
          · cases he
            exact hends
          · cases hl
      · simp at hc
    · simp only [Prog.modify_bind, Prog.pure_run, Outcome.done.injEq] at hlast
      obtain ⟨rfl, rfl, rfl, rfl⟩ := hlast
      rw [List.append_nil]
      rw [collect] at hc
      split at hc
      · next haf =>
          obtain ⟨hfollow, haf⟩ := haf
          rw [show status = dfSAdditionalFrame from haf] at hst
          rcases collect_done follow (.next hch hcar hst)
            (by rw [List.length_append, List.length_singleton]; omega) hdrop hc
            with ⟨e', he, -⟩ | ⟨last', hl, rfl, hends⟩
          · cases he
          · cases hl
            exact hends
      · next haf =>
          simp only [Prog.pure_run, Outcome.done.injEq, Except.ok.injEq] at hc
          obtain ⟨rfl, rfl, rfl, rfl⟩ := hc
          rw [List.append_nil, hdrop]
          refine .completed hch hcar hst (by omega)
            (fun hf heq => haf ⟨hf, heq⟩) ?_
          rw [← hdrop]
          exact hcap

theorem RawEnds.shape {card card' : Card} {cmd : UInt8} {n cap : Nat}
    {follow : Bool} {said : Said} {r : Except Err (UInt8 × Bytes)}
    (h : RawEnds card cmd n cap follow said r card') :
    ∃ pre c q a, said = pre ++ [(q, a)] ∧ Chained card cmd pre c ∧
      Carries card c q := by
  cases h with
  | fault hpre hq => exact ⟨_, _, _, _, rfl, hpre, hq⟩
  | refused hpre hq => exact ⟨_, _, _, _, rfl, hpre, hq⟩
  | overflow hpre hq => exact ⟨_, _, _, _, rfl, hpre, hq⟩
  | completed hpre hq => exact ⟨_, _, _, _, rfl, hpre, hq⟩

theorem RawEnds.frame {card card' : Card} {cmd : UInt8} {n cap : Nat}
    {follow : Bool} {said : Said} {r : Except Err (UInt8 × Bytes)}
    (h : RawEnds card cmd n cap follow said r card') :
    ∃ status, card' = { card with lastStatus := status } := by
  cases h with
  | fault => exact ⟨card.lastStatus, rfl⟩
  | refused => exact ⟨_, rfl⟩
  | overflow => exact ⟨card.lastStatus, rfl⟩
  | completed => exact ⟨_, rfl⟩

/-! ## Answers nobody above sees -/

/-- A raw exchange fails exactly when the answer that ended it is unseen. -/
theorem RawEnds.unseen_iff {card card' : Card} {cmd : UInt8} {n : Nat}
    {said : Said} {r : Except Err (UInt8 × Bytes)}
    (h : RawEnds card cmd n maxResponse true said r card')
    {pre : Said} {q : Frame} {a : Answer} (hsaid : said = pre ++ [(q, a)]) :
    Unseen card.wraps (intermediateFrames n) (pre.map Prod.snd) a ↔
      ∃ e, r = .error e := by
  obtain ⟨pre', c, q', a', hsaid', hch, hcar⟩ := h.shape
  subst hsaid
  obtain ⟨rfl, rfl, rfl⟩ := said_last_inj hsaid'
  have hsw : ∀ qa ∈ pre ++ [(q, a)], qa.1.hasSw = card.wraps := by
    intro qa hqa
    rcases List.mem_append.mp hqa with hqa | hqa
    · exact hch.hasSw qa hqa
    · rw [List.mem_singleton.mp hqa]
      exact hcar.hasSw
  have hdata : answersData card.wraps
      ((pre.map Prod.snd ++ [a]).drop (intermediateFrames n)) =
      saidData ((pre ++ [(q, a)]).drop (intermediateFrames n)) := by
    rw [saidData_eq fun qa hqa => hsw qa (List.mem_of_mem_drop hqa),
      List.map_drop, List.map_append]
    rfl
  have hstatus : answerStatus card.wraps a = cardStatus q a := by
    rw [cardStatus, hcar.hasSw]
  rw [Unseen, hdata, hstatus, List.length_map]
  generalize hsaid : pre ++ [(q, a)] = said at h
  cases h with
  | fault _ _ ha =>
      obtain ⟨rfl, rfl, rfl⟩ := said_last_inj hsaid
      exact iff_of_true (.inr (.inl ha)) ⟨_, rfl⟩
  | refused _ _ _ _ hleft =>
      obtain ⟨rfl, rfl, rfl⟩ := said_last_inj hsaid
      exact iff_of_true (.inl hleft) ⟨_, rfl⟩
  | overflow _ _ _ _ hcap =>
      obtain ⟨rfl, rfl, rfl⟩ := said_last_inj hsaid
      exact iff_of_true (.inr (.inr hcap)) ⟨_, rfl⟩
  | completed _ _ ha hsent _ hcap =>
      obtain ⟨rfl, rfl, rfl⟩ := said_last_inj hsaid
      refine iff_of_false ?_ (by rintro ⟨e, he⟩; cases he)
      rw [ha]
      rintro (hleft | hnone | hover)
      · omega
      · cases hnone
      · omega

/-- Of the answers to one command only the last can be one that `P`, which no
continuation is, is looking for. -/
theorem RawEnds.any_iff {P : Bool → Answer → Bool}
    (hP : ∀ sw a, answerStatus sw a = some dfSAdditionalFrame →
      P sw a = false)
    {card card' : Card} {cmd : UInt8} {n cap : Nat}
    {follow : Bool} {said : Said} {r : Except Err (UInt8 × Bytes)}
    (h : RawEnds card cmd n cap follow said r card')
    {pre : Said} {q : Frame} {a : Answer} (hsaid : said = pre ++ [(q, a)]) :
    (∃ qa ∈ said, P qa.1.hasSw qa.2 = true) ↔ P card.wraps a = true := by
  obtain ⟨pre', c, q', a', hsaid', hch, hcar⟩ := h.shape
  subst hsaid
  obtain ⟨rfl, rfl, rfl⟩ := said_last_inj hsaid'
  rw [← hcar.hasSw]
  constructor
  · rintro ⟨qa, hqa, he⟩
    rcases List.mem_append.mp hqa with hqa | hqa
    · rw [hP _ _ (hch.continues qa hqa)] at he
      cases he
    · rwa [List.mem_singleton.mp hqa] at he
  · intro he
    exact ⟨(q, a), List.mem_append.mpr (.inr (List.mem_singleton.mpr rfl)),
      he⟩

theorem RawEnds.status {card card' : Card} {cmd status : UInt8} {n cap : Nat}
    {follow : Bool} {said : Said} {raw : Bytes}
    (h : RawEnds card cmd n cap follow said (.ok (status, raw)) card')
    {pre : Said} {q : Frame} {a : Answer} (hsaid : said = pre ++ [(q, a)]) :
    answerStatus card.wraps a = some status := by
  cases h with
  | completed hch hcar ha hsent hend hcap =>
      obtain ⟨rfl, rfl, rfl⟩ := said_last_inj hsaid
      rw [← hcar.hasSw]
      exact ha

theorem RawEnds.answer {card card' : Card} {cmd status : UInt8} {n cap : Nat}
    {follow : Bool} {said : Said} {raw : Bytes}
    (h : RawEnds card cmd n cap follow said (.ok (status, raw)) card') :
    raw = saidData (said.drop (intermediateFrames n)) ∧
      ∃ pre q a, said = pre ++ [(q, a)] ∧ cardStatus q a = some status := by
  cases h with
  | completed hch hcar ha hsent hend hcap => exact ⟨rfl, _, _, _, rfl, ha⟩

theorem RawEnds.status_ne {card card' : Card} {cmd status : UInt8}
    {n cap : Nat} {said : Said} {raw : Bytes}
    (h : RawEnds card cmd n cap true said (.ok (status, raw)) card') :
    status ≠ dfSAdditionalFrame := by
  cases h with
  | completed hch hcar ha hsent hend hcap => exact hend rfl

/-- Such an answer escapes exactly when there is one and the raw exchange
fails. -/
theorem RawEnds.escapes_iff {P : Bool → Answer → Bool}
    (hP : ∀ sw a, answerStatus sw a = some dfSAdditionalFrame →
      P sw a = false)
    {card card' : Card} {cmd : UInt8} {n : Nat}
    {said : Said} {r : Except Err (UInt8 × Bytes)}
    (h : RawEnds card cmd n maxResponse true said r card') :
    Escapes P card.wraps (intermediateFrames n) (said.map Prod.snd) ↔
      (∃ qa ∈ said, P qa.1.hasSw qa.2 = true) ∧ ∃ e, r = .error e := by
  obtain ⟨pre, c, q, a, hsaid, -, -⟩ := h.shape
  rw [h.any_iff hP hsaid, ← h.unseen_iff hsaid, hsaid, List.map_append]
  exact escapes_concat

/-! ## The whole exchange -/

theorem keeps_rawExchangeEx {I : Card → Prop}
    (h : ∀ card status, I card → I { card with lastStatus := status })
    (cmd : UInt8) (data : Bytes) (cap : Nat) (follow : Bool) :
    (rawExchangeEx cmd data cap follow).Keeps I := by
  intro s script said r s' rest hI hdone
  obtain ⟨status, rfl⟩ := (rawExchangeEx_done hdone).frame
  exact h s status hI

theorem reads_rawExchangeEx (cmd : UInt8) (data : Bytes) (cap : Nat)
    (follow : Bool) : (rawExchangeEx cmd data cap follow).Reads := by
  refine Prog.reads_bind (Prog.reads_converse _ _ _) fun first =>
    Prog.reads_bind ?_ fun last =>
      Prog.reads_bind (Prog.reads_act _) fun _ => Prog.reads_pure _
  rw [collect]
  split
  · exact Prog.reads_converse _ _ _
  · exact Prog.reads_pure _

theorem replays_rawExchangeEx (cmd : UInt8) (data : Bytes) (cap : Nat)
    (follow : Bool) : (rawExchangeEx cmd data cap follow).Replays := by
  refine Prog.replays_bind (Prog.replays_converse _ _ _) fun first =>
    Prog.replays_bind ?_ fun last =>
      Prog.replays_bind (Prog.replays_act _) fun _ => Prog.replays_pure _
  rw [collect]
  split
  · exact Prog.replays_converse _ _ _
  · exact Prog.replays_pure _

section

variable [BlockCipher]

theorem reads_exchange (cmd : UInt8) (data : Bytes) (txMode rxMode : Mode)
    (cap : Nat) : (exchange cmd data txMode rxMode cap).Reads :=
  Prog.reads_bind (Prog.reads_act _) fun _ =>
    Prog.reads_bind (reads_rawExchangeEx _ _ _ _) fun _ => Prog.reads_act _

/-- How `nxpsc_exchange` ends: before anything is sent, in the raw exchange,
or with what it makes of the answer. -/
inductive ExchangeEnds (card : Card) (cmd : UInt8) (data : Bytes)
    (txMode rxMode : Mode) (cap : Nat) :
    Said → Except Err Bytes → Card → Prop where
  | unsent {e : Err} {card' : Card}
      (hreq : exchangeRequest cmd data txMode rxMode card =
        (.error e, card')) :
      ExchangeEnds card cmd data txMode rxMode cap [] (.error e) card'
  | cut {wrapped : Bytes} {card₁ card' : Card} {said : Said} {e : Err}
      (hreq : exchangeRequest cmd data txMode rxMode card =
        (.ok wrapped, card₁))
      (hraw : RawEnds card₁ cmd wrapped.length maxResponse true said
        (.error e) card') :
      ExchangeEnds card cmd data txMode rxMode cap said (.error e) card'
  | answered {wrapped raw : Bytes} {card₁ card₂ : Card} {said : Said}
      {status : UInt8}
      (hreq : exchangeRequest cmd data txMode rxMode card =
        (.ok wrapped, card₁))
      (hraw : RawEnds card₁ cmd wrapped.length maxResponse true said
        (.ok (status, raw)) card₂) :
      ExchangeEnds card cmd data txMode rxMode cap said
        (exchangeAnswer rxMode cap status raw card₂).1
        (exchangeAnswer rxMode cap status raw card₂).2

theorem exchange_done {cmd : UInt8} {data : Bytes} {txMode rxMode : Mode}
    {cap : Nat} {card card' : Card} {script rest : List Answer} {said : Said}
    {r : Except Err Bytes}
    (h : exchange cmd data txMode rxMode cap card script =
      .done said r card' rest) :
    ExchangeEnds card cmd data txMode rxMode cap said r card' := by
  rw [exchange, Prog.act_bind] at h
  rcases hreq : exchangeRequest cmd data txMode rxMode card with
    ⟨_ | wrapped, card₁⟩
  · rw [hreq] at h
    cases h
    exact .unsent hreq
  rw [hreq] at h
  rcases Prog.bind_eq_done.mp h with ⟨e, hraw, rfl⟩ |
    ⟨said₁, answer, card₂, rest₁, said₂, hraw, hdec, rfl⟩
  · exact .cut hreq (rawExchangeEx_done hraw)
  · rw [Prog.act_run] at hdec
    cases hdec
    rw [List.append_nil]
    exact .answered hreq (rawExchangeEx_done hraw)

theorem ExchangeEnds.succeeds {card card' : Card} {cmd : UInt8} {data : Bytes}
    {txMode rxMode : Mode} {cap : Nat} {said : Said} {out : Bytes}
    (h : ExchangeEnds card cmd data txMode rxMode cap said (.ok out) card') :
    ∃ wrapped raw card₁ card₂ status,
      exchangeRequest cmd data txMode rxMode card = (.ok wrapped, card₁) ∧
      RawEnds card₁ cmd wrapped.length maxResponse true said
        (.ok (status, raw)) card₂ ∧
      statusEndsSession status = false ∧
      exchangeAnswer rxMode cap status raw card₂ = (.ok out, card') := by
  generalize hr : (Except.ok out : Except Err Bytes) = r at h
  cases h with
  | unsent hreq => cases hr
  | cut hreq hraw => cases hr
  | answered hreq hraw =>
      refine ⟨_, _, _, _, _, hreq, hraw, ?_, rfl⟩
      rw [exchangeAnswer] at hr
      split at hr
      · cases hr
      · next hst => exact eq_false_of_ne_true hst

/-- What making a request writes to the handle. -/
theorem exchangeRequest_frame {cmd : UInt8} {data : Bytes}
    {txMode rxMode : Mode} {card card₁ : Card} {r : Except Err Bytes}
    (h : exchangeRequest cmd data txMode rxMode card = (r, card₁)) :
    ∃ lastCmd zeroLen iv mode,
      card₁ =
        { card with
          macMismatch := false, lastCmd := lastCmd,
          lastRequestZeroLen := zeroLen, iv := iv, mode := mode } := by
  rw [exchangeRequest] at h
  split at h
  · cases h
    exact ⟨card.lastCmd, card.lastRequestZeroLen, card.iv, txMode, rfl⟩
  · obtain ⟨iv, mode, hframe⟩ := channelEncode_frame cmd data maxResponse
      { card with mode := txMode, macMismatch := false }
    rw [h] at hframe
    exact ⟨_, _, iv, mode, hframe⟩

theorem exchangeRequest_ok {cmd : UInt8} {data wrapped : Bytes}
    {txMode rxMode : Mode} {card card₁ : Card}
    (h : exchangeRequest cmd data txMode rxMode card = (.ok wrapped, card₁)) :
    intermediateFrames wrapped.length =
      requestFrames card cmd data.length txMode := by
  rw [exchangeRequest] at h
  split at h
  · cases h
  have hdel := channelEncode_delivers cmd data maxResponse
    { card with mode := txMode, macMismatch := false }
  rw [h] at hdel
  rcases hdel with ⟨-, he⟩ | ⟨-, w, hw, hlen⟩
  · cases he
  · cases hw
    rw [hlen]
    rfl

/-! ## Runs of exchanges -/

theorem reads_exchangeOf (req : Request) : (exchangeOf req).Reads :=
  Prog.reads_bind (reads_exchange _ _ _ _ _) fun _ => Prog.reads_pure _

theorem exchangeOf_done {st : ExchangeStep} (h : st.Of exchangeOf) :
    ∃ r : Except Err Bytes, st.result = r.map (fun _ => ()) ∧
      ExchangeEnds st.before st.call.cmd st.call.data st.call.txMode
        st.call.rxMode st.call.cap st.said r st.after := by
  obtain ⟨script, rest, h⟩ := h
  obtain ⟨r, h, hr⟩ := Prog.ignore_eq_done.mp h
  exact ⟨r, hr, exchange_done h⟩

end

end Nxpsc
