import Nxpsc.Lib.Trace
import Nxpsc.Proofs.Script
import Nxpsc.Proofs.TwoPass
import Nxpsc.Spec.Requests

/-!
# Chaining loses and duplicates nothing

The two loops of `nxpsc_raw_exchange_ex`, by the frames they put and by the
reply they put together. What is put does not depend on what the card
answers, only how much of it is.
-/

namespace Nxpsc

open Dialogue

/-! ## The pieces of a request -/

theorem flatten_chunks_le {size : Nat} :
    ∀ {count : Nat} {xs : Bytes}, xs.length ≤ count * size →
      (Bytes.chunks size count xs).flatten = xs := by
  intro count
  induction count with
  | zero =>
      intro xs hlen
      rw [Nat.zero_mul, Nat.le_zero, List.length_eq_zero_iff] at hlen
      rw [hlen, Bytes.chunks, List.flatten_nil]
  | succ n ih =>
      intro xs hlen
      rw [Nat.succ_mul] at hlen
      rw [Bytes.chunks, List.flatten_cons,
        ih (by rw [List.length_drop]; omega), List.take_append_drop]

theorem mem_chunks_le {size count : Nat} {xs c : Bytes}
    (h : c ∈ Bytes.chunks size count xs) : c.length ≤ size := by
  induction count generalizing xs with
  | zero => cases h
  | succ n ih =>
      rcases List.mem_cons.mp h with rfl | h
      · rw [List.length_take]
        exact Nat.min_le_left _ _
      · exact ih h

theorem frameCount_eq (n : Nat) : frameCount n = intermediateFrames n + 1 := by
  rw [frameCount, intermediateFrames, txFrameMax]
  omega

theorem flatten_requestPieces (data : Bytes) :
    (requestPieces data).flatten = data := by
  apply flatten_chunks_le
  rw [intermediateFrames, txFrameMax]
  omega

/-! ## The frames -/

theorem frameRequest_short {cmd : UInt8} {data : Bytes} {card : Card}
    (hlen : data.length ≤ txFrameMax) :
    frameRequest cmd data card = .ok (nativeFrame card.wraps cmd data) := by
  rw [frameRequest_one hlen, oneFrame, nativeFrame, Card.wraps]
  by_cases hset : card.cmdset = .nativeIso ∨ card.cmdset = .iso
  · rw [if_pos hset, decide_eq_true hset, if_pos rfl]
  · rw [if_neg hset, decide_eq_false hset]
    rfl

theorem pending_frame (p : Pending) (card : Card) :
    p.request card =
      .ok (nativeFrame card.wraps p.cmd (p.rest.take txFrameMax)) := by
  rw [Pending.request]
  exact frameRequest_short (by rw [List.length_take]; exact Nat.min_le_left _ _)

theorem goOn_frame (card : Card) :
    frameRequest dfAdditionalFrame [] card = .ok (goOn card.wraps) :=
  frameRequest_short (Nat.zero_le _)

theorem requestPieces_cons (data : Bytes) :
    ∃ pieces, requestPieces data = data.take txFrameMax :: pieces ∧
      (txFrameMax < data.length →
        pieces = requestPieces (data.drop txFrameMax)) := by
  refine ⟨_, rfl, ?_⟩
  intro hmore
  rw [requestPieces, List.length_drop]
  congr 1
  rw [intermediateFrames, intermediateFrames, txFrameMax] at *
  omega

theorem pieceFrames_more {wraps : Bool} {cmd : UInt8} {data : Bytes}
    (hmore : txFrameMax < data.length) :
    pieceFrames wraps cmd (requestPieces data) =
      nativeFrame wraps cmd (data.take txFrameMax) ::
        pieceFrames wraps dfAdditionalFrame
          (requestPieces (data.drop txFrameMax)) := by
  obtain ⟨pieces, heq, hrest⟩ := requestPieces_cons data
  obtain ⟨pieces', heq', -⟩ := requestPieces_cons (data.drop txFrameMax)
  rw [heq, pieceFrames, hrest hmore, heq', pieceFrames, List.map_cons]
  rfl

theorem pieceFrames_head (wraps : Bool) (cmd : UInt8) (data : Bytes) :
    ∃ frames, pieceFrames wraps cmd (requestPieces data) =
      nativeFrame wraps cmd (data.take txFrameMax) :: frames := by
  obtain ⟨pieces, heq, -⟩ := requestPieces_cons data
  exact ⟨_, by rw [heq, pieceFrames]⟩

theorem length_pieceFrames (wraps : Bool) (cmd : UInt8) (data : Bytes) :
    (pieceFrames wraps cmd (requestPieces data)).length =
      intermediateFrames data.length + 1 := by
  have hlen : (requestPieces data).length =
      intermediateFrames data.length + 1 := Bytes.length_chunks _ _ _
  obtain ⟨pieces, heq, -⟩ := requestPieces_cons data
  rw [← hlen, heq, pieceFrames, List.length_cons, List.length_map,
    List.length_cons]

/-- The frames of the request are put in order, one for each answer. -/
theorem sendRequest_queries (cmd : UInt8) (data : Bytes) (cap : Nat)
    (card : Card) (script : List Answer) :
    (sendRequest cmd data cap card script).queries <+:
      pieceFrames card.wraps cmd (requestPieces data) := by
  induction script generalizing cmd data with
  | nil =>
      obtain ⟨frames, hframes⟩ := pieceFrames_head card.wraps cmd data
      rw [sendRequest, Prog.converse_waits (pending_frame ⟨cmd, data⟩ card),
        hframes]
      exact List.prefix_append [_] frames
  | cons a tail ih =>
      have hq := pending_frame ⟨cmd, data⟩ card
      obtain ⟨frames, hframes⟩ := pieceFrames_head card.wraps cmd data
      have hone : [nativeFrame card.wraps cmd (data.take txFrameMax)] <+:
          pieceFrames card.wraps cmd (requestPieces data) := by
        rw [hframes]
        exact List.prefix_append [_] frames
      rw [sendRequest]
      rcases hr : Pending.react cap ⟨cmd, data⟩ a card with
        ⟨e | p' | x, card'⟩
      · rw [Prog.converse_fail tail hq hr]
        exact hone
      · rw [Prog.converse_next tail hq hr]
        -- only an acknowledged frame with more behind it comes back
        cases react_cases hr with
        | acked hresp hmore =>
            rw [Outcome.queries_prepend, pieceFrames_more hmore]
            exact (List.prefix_cons_inj _).mpr
              (ih dfAdditionalFrame (data.drop txFrameMax))
      · rw [Prog.converse_leave tail hq hr]
        exact hone

/-- The collecting loop asks to go on, and nothing else. -/
theorem collect_queries (cap : Nat) (card : Card) (script : List Answer)
    (resp : Bytes) :
    ∃ m, (Prog.converse (fun _ card => frameRequest dfAdditionalFrame [] card)
      (collectReact cap) resp card script).queries =
        List.replicate m (goOn card.wraps) := by
  induction script generalizing resp with
  | nil =>
      refine ⟨1, ?_⟩
      rw [Prog.converse, Prog.converseOn, goOn_frame]
      rfl
  | cons a tail ih =>
      rw [Prog.converse, Prog.converseOn, goOn_frame]
      dsimp only
      split
      · exact ⟨1, rfl⟩
      · exact ⟨1, rfl⟩
      · next resp' card' hr =>
          obtain ⟨-, rfl⟩ := collectReact_cases hr
          obtain ⟨m, hm⟩ := ih resp'
          rw [Prog.converse] at hm
          refine ⟨m + 1, ?_⟩
          rw [Outcome.queries_prepend, hm]
          rfl

/-- What a raw exchange puts on the wire, completed or not. -/
theorem rawExchangeEx_queries (cmd : UInt8) (data : Bytes) (cap : Nat)
    (follow : Bool) (card : Card) (script : List Answer) :
    ∃ m, (rawExchangeEx cmd data cap follow card script).queries <+:
        pieceFrames card.wraps cmd (requestPieces data) ++
          List.replicate m (goOn card.wraps) ∧
      (follow = false → m = 0) := by
  have hsent := sendRequest_queries cmd data cap card script
  have hcut := hsent.trans (List.prefix_append _ [])
  rw [rawExchangeEx, Prog.bind_def, Prog.bind]
  cases hsend : sendRequest cmd data cap card script with
  | waiting said q card₁ =>
      rw [hsend] at hcut
      exact ⟨0, hcut, fun _ => rfl⟩
  | done said r card₁ rest =>
      cases r with
      | error e =>
          rw [hsend] at hcut
          exact ⟨0, hcut, fun _ => rfl⟩
      | ok first =>
          -- the request went out whole
          have hall : said.map Prod.fst =
              pieceFrames card.wraps cmd (requestPieces data) ∧
              card₁ = card := by
            rw [hsend, Outcome.queries] at hsent
            rcases sendRequest_done follow hsend with ⟨e, he, -⟩ |
              ⟨pre, c, q, a, status, rfl, rfl, -, -, -, hlen, -, -⟩
            · cases he
            · refine ⟨hsent.eq_of_length ?_, rfl⟩
              rw [length_pieceFrames, List.length_map, List.length_append,
                hlen]
              rfl
          obtain ⟨hall, rfl⟩ := hall
          dsimp only
          rw [Outcome.queries_prepend, hall,
            Prog.queries_bind_silent fun _ _ _ => rfl]
          by_cases hmore : follow = true ∧ first.1 = dfSAdditionalFrame
          · obtain ⟨m, hm⟩ := collect_queries cap card₁ rest first.2
            refine ⟨m, ?_, fun hno => ?_⟩
            · rw [collect, if_pos hmore, hm]
            · rw [hmore.1] at hno
              cases hno
          · refine ⟨0, ?_, fun _ => rfl⟩
            rw [collect, if_neg hmore]
            exact List.prefix_rfl
/-- What a completed one put. -/
theorem rawExchangeEx_sent {cmd : UInt8} {data : Bytes} {cap : Nat}
    {follow : Bool} {card card' : Card} {script rest : List Answer}
    {said : Said} {r : Except Err (UInt8 × Bytes)}
    (h : rawExchangeEx cmd data cap follow card script =
      .done said r card' rest) :
    ∃ m, said.map Prod.fst <+:
        pieceFrames card.wraps cmd (requestPieces data) ++
          List.replicate m (goOn card.wraps) ∧
      (follow = false → m = 0) := by
  have hqueries := rawExchangeEx_queries cmd data cap follow card script
  rwa [h] at hqueries

/-- Before anything is answered, a call that makes one exchange has put the
first frame of it. -/
theorem queries_dataCall_nil [BlockCipher] {α : Type}
    {request : Card → Except Err Request}
    {finish : Bytes → Card → Except Err α × Card} {card card₁ : Card}
    {req : Request} {wrapped : Bytes} (hreq : request card = .ok req)
    (hwrapped : exchangeRequest req.cmd req.data req.txMode req.rxMode card =
      (.ok wrapped, card₁)) :
    (dataCall request finish card []).queries =
      [oneFrame req.cmd (wrapped.take txFrameMax) card₁] := by
  have hframe : Pending.request ⟨req.cmd, wrapped⟩ card₁ =
      .ok (oneFrame req.cmd (wrapped.take txFrameMax) card₁) :=
    frameRequest_one (List.length_take_le _ _)
  rw [dataCall, Prog.get_bind, hreq, Prog.ofExcept_ok_bind,
    Prog.queries_bind_silent fun _ _ _ => rfl, exchange, Prog.act_bind,
    hwrapped]
  dsimp only
  rw [Prog.queries_bind_silent fun _ _ _ => rfl, rawExchange, rawExchangeEx,
    sendRequest, Prog.converse_bind_nil hframe]
  rfl

theorem wraps_answer {card : Card} {a : Answer} {status : UInt8} {got : Bytes}
    (h : frameResponse card maxApdu a = .ok (status, got)) :
    answerStatus card.wraps a = some status := (frameResponse_iff.mp h).1

theorem sendRequest_waiting {cmd : UInt8} {data : Bytes} {cap : Nat}
    {card card' : Card} {script : List Answer} {said : Said} {q : Frame}
    (h : sendRequest cmd data cap card script = .waiting said q card') :
    ∀ a ∈ script, answerStatus card.wraps a = some dfSAdditionalFrame := by
  refine Prog.converse_waiting (I := fun s => s = card) ?_ rfl h
  rintro p a s p' s' rfl hr
  cases react_cases hr with
  | acked hresp hmore => exact ⟨wraps_answer hresp, rfl⟩

theorem collect_waiting {cap : Nat} {resp : Bytes} {card card' : Card}
    {script : List Answer} {said : Said} {q : Frame}
    (h : Prog.converse (fun _ card => frameRequest dfAdditionalFrame [] card)
      (collectReact cap) resp card script = .waiting said q card') :
    ∀ a ∈ script, answerStatus card.wraps a = some dfSAdditionalFrame := by
  refine Prog.converse_waiting (I := fun s => s = card) ?_ rfl h
  rintro resp a s resp' s' rfl hr
  obtain ⟨hc, rfl⟩ := collectReact_cases hr
  cases hc with
  | more hgot hcap => exact ⟨wraps_answer hgot, rfl⟩

/-- A raw exchange that still waits has had nothing but acknowledgements. -/
theorem rawExchangeEx_waiting {cmd : UInt8} {data : Bytes} {cap : Nat}
    {follow : Bool} {card card' : Card} {script : List Answer} {said : Said}
    {q : Frame}
    (h : rawExchangeEx cmd data cap follow card script =
      .waiting said q card') :
    ∀ a ∈ script, answerStatus card.wraps a = some dfSAdditionalFrame := by
  rw [rawExchangeEx, Prog.bind_def, Prog.bind] at h
  split at h
  · next said₁ first card₁ rest₁ hsend =>
      rcases sendRequest_done follow hsend with ⟨e, he, -⟩ |
        ⟨pre, c, q₁, a, status, rfl, rfl, hch, hcar, hst, -, -, hfirst⟩
      · cases he
      cases hfirst
      -- the loop was entered on an acknowledgement of the last frame
      have hloop : follow = true ∧ status = dfSAdditionalFrame := by
        by_contra hno
        rw [Prog.bind_def, Prog.bind, collect, if_neg hno] at h
        cases h
      rw [Prog.bind_def, Prog.bind, collect, if_pos hloop] at h
      have hread := Prog.reads_converse _ _ _ _ _ _ _ _ _ hsend
      intro b hb
      rw [hread, List.map_append, List.mem_append, List.mem_append] at hb
      rcases hb with (hb | hb) | hb
      · obtain ⟨qa, hqa, rfl⟩ := List.mem_map.mp hb
        have hc := hch.continues qa hqa
        rwa [cardStatus, hch.hasSw qa hqa] at hc
      · rw [List.map_singleton, List.mem_singleton] at hb
        rw [hb, ← hcar.hasSw, ← hloop.2]
        exact hst
      · split at h
        · cases h
        · cases h
        · next hcoll => exact collect_waiting hcoll b hb
  · cases h
  · next hsend => exact sendRequest_waiting hsend

/-! ## The whole exchange -/

section

variable {cmd : UInt8} {data : Bytes} {cap : Nat} {follow : Bool}
  {card card' : Card} {script rest : List Answer} {said : Said}
  {r : Except Err (UInt8 × Bytes)}

/-- Where every intermediate frame is acknowledged, all of them are sent. -/
theorem RawEnds.acked {pre : Said} {q : Frame} {a : Answer}
    (h : RawEnds card cmd data.length cap follow said r card')
    (hsaid : said = pre ++ [(q, a)])
    (hacks : ∀ qa ∈ said.take (intermediateFrames data.length),
      answerStatus card.wraps qa.2 = some dfSAdditionalFrame) :
    intermediateFrames data.length ≤ pre.length := by
  by_contra hshort
  have hlast : (q, a) ∈ said.take (intermediateFrames data.length) := by
    rw [hsaid, List.take_of_length_le (by
      rw [List.length_append, List.length_singleton]; omega)]
    exact List.mem_append_right _ (.head _)
  have hst := hacks _ hlast
  cases h with
  | fault hpre hq ha =>
      obtain ⟨rfl, rfl, rfl⟩ := said_last_inj hsaid
      rw [cardStatus, hq.hasSw, hst] at ha
      cases ha
  | refused hpre hq ha hne =>
      obtain ⟨rfl, rfl, rfl⟩ := said_last_inj hsaid
      rw [cardStatus, hq.hasSw, hst] at ha
      exact hne (Option.some.inj ha).symm
  | overflow hpre hq ha hsent =>
      obtain ⟨rfl, rfl, rfl⟩ := said_last_inj hsaid
      exact hshort hsent
  | completed hpre hq ha hsent =>
      obtain ⟨rfl, rfl, rfl⟩ := said_last_inj hsaid
      exact hshort hsent

/-- What a completed exchange hands over. -/
theorem RawEnds.reply {pre : Said} {q : Frame} {a : Answer}
    (h : RawEnds card cmd data.length cap follow said r card')
    (hsaid : said = pre ++ [(q, a)])
    (hsent : intermediateFrames data.length ≤ pre.length) :
    ChainedReply cap follow (pre.drop (intermediateFrames data.length)) (q, a)
      r card' := by
  have hdrop : ∀ (pre : Said) (qa : Frame × Answer),
      intermediateFrames data.length ≤ pre.length →
      (pre ++ [qa]).drop (intermediateFrames data.length) =
        pre.drop (intermediateFrames data.length) ++ [qa] :=
    fun pre qa hle => List.drop_append_of_le_length hle
  cases h with
  | fault hpre hq ha =>
      obtain ⟨rfl, rfl, rfl⟩ := said_last_inj hsaid
      refine ⟨?_, ?_, ?_⟩
      · intro status resp hr
        cases hr
      · intro status hst
        rw [ha] at hst
        cases hst
      · intro status hst
        rw [ha] at hst
        cases hst
  | refused hpre hq ha hne hleft =>
      obtain ⟨rfl, rfl, rfl⟩ := said_last_inj hsaid
      exact absurd hsent (Nat.not_le.mpr hleft)
  | overflow hpre hq ha _ hcap =>
      obtain ⟨rfl, rfl, rfl⟩ := said_last_inj hsaid
      rw [hdrop _ _ hsent] at hcap
      refine ⟨?_, fun _ _ hfits => absurd hcap (Nat.not_lt.mpr hfits),
        fun _ _ _ => rfl⟩
      intro status resp hr
      cases hr
  | completed hpre hq ha _ hend hcap =>
      obtain ⟨rfl, rfl, rfl⟩ := said_last_inj hsaid
      rw [hdrop _ _ hsent] at hcap ⊢
      refine ⟨?_, ?_, fun _ _ hlong => absurd hcap (Nat.not_le.mpr hlong)⟩
      · intro status' resp hr
        cases hr
        exact ⟨rfl, hcap, ha, rfl, hend⟩
      · intro status' hst _
        cases Option.some.inj (Eq.trans (Eq.symm ha) hst)
        exact ⟨_, rfl⟩

/-- A prefix that goes past the first part of a list ends in the second. -/
theorem prefix_replicate {α : Type} {xs ys : List α} {x : α} {m : Nat}
    (h : xs <+: ys ++ List.replicate m x) (hlen : ys.length ≤ xs.length) :
    xs = ys ++ List.replicate (xs.length - ys.length) x ∧
      xs.length ≤ ys.length + m := by
  have hle := h.length_le
  rw [List.length_append, List.length_replicate] at hle
  refine ⟨?_, hle⟩
  have htake := List.prefix_iff_eq_take.mp h
  rw [List.take_append, List.take_of_length_le hlen, List.take_replicate,
    Nat.min_eq_left (by omega)] at htake
  exact htake

theorem rawExchangeEx_request {pre : Said} {q : Frame} {a : Answer}
    (h : rawExchangeEx cmd data cap follow card script =
      .done said r card' rest)
    (hsaid : said = pre ++ [(q, a)])
    (hpre : ∀ qa ∈ pre, cardStatus qa.1 qa.2 = some dfSAdditionalFrame)
    (hsent : intermediateFrames data.length ≤ pre.length) :
    ChainedRequest card.wraps cmd data follow said (requestPieces data)
      (pre.take (intermediateFrames data.length))
      (pre.drop (intermediateFrames data.length)) (q, a) := by
  obtain ⟨m, hprefix, hzero⟩ := rawExchangeEx_sent h
  have hlen : said.length = pre.length + 1 := by
    rw [hsaid, List.length_append, List.length_singleton]
  obtain ⟨hframes, hle⟩ := prefix_replicate hprefix (by
    rw [length_pieceFrames, List.length_map]
    omega)
  rw [length_pieceFrames, List.length_map, hlen] at hframes hle
  rw [Nat.add_sub_add_right] at hframes
  exact
    { said_eq := by rw [List.take_append_drop, hsaid]
      pieces_count := by
        rw [frameCount_eq]
        exact Bytes.length_chunks _ _ _
      pieces_short := fun piece hpiece => mem_chunks_le hpiece
      pieces_data := flatten_requestPieces data
      acks_count := by
        rw [List.length_take, Nat.min_eq_left hsent, frameCount_eq]
      frames := by rw [List.length_drop, hframes]
      continued := fun qa hqa => hpre qa (List.mem_of_mem_drop hqa)
      not_followed := by
        intro hno
        rw [hzero hno] at hle
        exact List.drop_of_length_le (by omega) }

/-- Command and answer chaining lose and duplicate nothing. -/
theorem chaining_loses_nothing
    (hacks : ∀ a ∈ script.take (frameCount data.length - 1),
      answerStatus card.wraps a = some 0xAF) :
    ((∃ a ∈ script, answerStatus card.wraps a ≠ some 0xAF) →
      ∃ said r card' rest, rawExchangeEx cmd data cap follow card script =
        .done said r card' rest) ∧
    ∀ said r card' rest, rawExchangeEx cmd data cap follow card script =
        .done said r card' rest →
      ∃ pieces acks reply last,
        ChainedRequest card.wraps cmd data follow said pieces acks reply last ∧
          ChainedReply cap follow reply last r card' := by
  rw [frameCount_eq, Nat.add_sub_cancel] at hacks
  constructor
  · rintro ⟨a, ha, hne⟩
    cases hrun : rawExchangeEx cmd data cap follow card script with
    | done said r card' rest => exact ⟨said, r, card', rest, rfl⟩
    | waiting said q card' => exact absurd (rawExchangeEx_waiting hrun a ha) hne
  · intro said r card' rest h
    have hends := rawExchangeEx_done h
    have hread := reads_rawExchangeEx _ _ _ _ _ _ _ _ _ _ h
    obtain ⟨pre, c, q, a, hsaid, hch, hcar⟩ := hends.shape
    have hsent := hends.acked hsaid fun qa hqa => by
      refine hacks qa.2 ?_
      rw [hread, List.take_append, ← List.map_take]
      exact List.mem_append_left _ (List.mem_map_of_mem hqa)
    exact ⟨_, _, _, _, rawExchangeEx_request h hsaid hch.continues hsent,
      hends.reply hsaid hsent⟩

end

/-- 60 bytes in two frames, and a reply in two. -/
theorem chaining_loses_nothing_sixty :
    ∃ said r card' rest, rawExchangeEx dfWriteData (Bytes.zeros 60) 16 true
        (Card.opened none) [.ok [0xAF], .ok [0xAF, 1, 2], .ok [0x00, 3]] =
          .done said r card' rest ∧
      ∃ pieces acks reply last,
        ChainedRequest false dfWriteData (Bytes.zeros 60) true said pieces acks
          reply last ∧
        ChainedReply 16 true reply last r card' := by
  obtain ⟨hreturns, hexact⟩ := @chaining_loses_nothing dfWriteData
    (Bytes.zeros 60) 16 true (Card.opened none)
    [.ok [0xAF], .ok [0xAF, 1, 2], .ok [0x00, 3]] (by decide)
  obtain ⟨said, r, card', rest, h⟩ :=
    hreturns ⟨.ok [0x00, 3], by decide, by decide⟩
  exact ⟨said, r, card', rest, h, hexact said r card' rest h⟩

/-! ## The reply to a request that went out whole -/

theorem cardReply_cons {sw : Bool} {cap : Nat} {got : Bytes} {a : Answer}
    {rest : List Answer} {status : UInt8}
    (h : answerStatus sw a = some status) :
    cardReply sw cap got (a :: rest) =
      if cap < got.length + (answerData sw a).length then none
      else if status = dfSAdditionalFrame then
        cardReply sw cap (got ++ answerData sw a) rest
      else some ((status, got ++ answerData sw a), rest) := by
  rw [cardReply, h, ← List.length_append]
  rfl

theorem cardReply_fault {sw : Bool} {cap : Nat} {got : Bytes} {a : Answer}
    {rest : List Answer} (h : answerStatus sw a = none) :
    cardReply sw cap got (a :: rest) = none := by
  rw [cardReply, h]

theorem collect_reply_iff {cap : Nat} {card card' : Card} {got : Bytes}
    {script rest : List Answer} {x : UInt8 × Bytes} :
    (∃ said, Prog.converse
      (fun _ card => frameRequest dfAdditionalFrame [] card)
      (collectReact cap) got card script = .done said (.ok x) card' rest) ↔
      cardReply card.wraps cap got script = some (x, rest) ∧ card' = card := by
  induction script generalizing got with
  | nil =>
      rw [Prog.converse, Prog.converseOn, goOn_frame, cardReply]
      simp
  | cons a tail ih =>
      rw [Prog.converse, Prog.converseOn, goOn_frame]
      simp only [collectReact]
      rcases frameResponse_cases card a with ⟨e, he, hst⟩ | ⟨status, hs, hst⟩
      · rw [he, cardReply_fault hst]
        simp
      rw [hs, cardReply_cons hst]
      dsimp only
      by_cases hcap : cap < got.length + (answerData card.wraps a).length
      · rw [if_pos hcap, if_pos hcap]
        simp
      rw [if_neg hcap, if_neg hcap]
      by_cases haf : status = dfSAdditionalFrame
      · rw [if_pos haf, if_pos haf, ← ih]
        simp only [Outcome.prepend_eq_done]
        constructor
        · rintro ⟨said, said', h, -⟩
          exact ⟨said', h⟩
        · rintro ⟨said', h⟩
          exact ⟨_, said', h, rfl⟩
      · rw [if_neg haf, if_neg haf]
        constructor
        · rintro ⟨said, h⟩
          cases h
          exact ⟨rfl, rfl⟩
        · rintro ⟨h, rfl⟩
          cases h
          exact ⟨_, rfl⟩

theorem rawExchange_short_iff {cmd : UInt8} {data : Bytes} {cap : Nat}
    {card card' : Card} {script rest : List Answer} {x : UInt8 × Bytes}
    (hlen : data.length ≤ txFrameMax) :
    (∃ said, rawExchange cmd data cap card script =
      .done said (.ok x) card' rest) ↔
      cardReply card.wraps cap [] script = some (x, rest) ∧
        card' = { card with lastStatus := x.1 } := by
  have hshort : ¬ txFrameMax < data.length := Nat.not_lt.mpr hlen
  cases script with
  | nil =>
      rw [rawExchange, rawExchangeEx, Prog.bind_def, Prog.bind, sendRequest,
        Prog.converse, Prog.converseOn, pending_frame, cardReply]
      simp
  | cons a tail =>
      rw [rawExchange, rawExchangeEx, Prog.bind_def, Prog.bind, sendRequest,
        Prog.converse, Prog.converseOn, pending_frame]
      simp only [Pending.react]
      rcases frameResponse_cases card a with ⟨e, he, hst⟩ | ⟨status, hs, hst⟩
      · rw [he, cardReply_fault hst]
        simp
      rw [hs, cardReply_cons hst]
      dsimp only
      rw [if_neg hshort, List.length_nil, Nat.zero_add, List.nil_append]
      by_cases hcap : cap < (answerData card.wraps a).length
      · rw [if_pos hcap, if_pos hcap]
        simp
      rw [if_neg hcap, if_neg hcap]
      dsimp only
      by_cases haf : status = dfSAdditionalFrame
      · rw [collect, if_pos ⟨rfl, haf⟩, if_pos haf]
        constructor
        · rintro ⟨said, h⟩
          obtain ⟨said', h, -⟩ := Outcome.prepend_eq_done.mp h
          rcases Prog.bind_eq_done.mp h with ⟨e, -, he⟩ |
            ⟨said₁, last, card₁, rest₁, said₂, hcoll, hend, -⟩
          · cases he
          obtain ⟨hreply, rfl⟩ := collect_reply_iff.mp ⟨said₁, hcoll⟩
          rw [Prog.modify_bind, Prog.pure_run] at hend
          cases hend
          exact ⟨hreply, rfl⟩
        · rintro ⟨hreply, rfl⟩
          obtain ⟨said, hcoll⟩ := collect_reply_iff.mpr ⟨hreply, rfl⟩
          rw [Prog.bind_ok hcoll, Prog.modify_bind, Prog.pure_run]
          exact ⟨_, rfl⟩
      · rw [collect, if_neg fun h => haf h.2, if_neg haf, Prog.pure_bind',
          Prog.modify_bind, Prog.pure_run]
        constructor
        · rintro ⟨said, h⟩
          cases h
          exact ⟨rfl, rfl⟩
        · rintro ⟨h, rfl⟩
          cases h
          exact ⟨_, rfl⟩

/-- The frames up to the last piece of a request, all acknowledged. -/
theorem sendRequest_upto {cap : Nat} {card : Card} (script : List Answer) :
    ∀ (acks : List Answer) (cmd : UInt8) (data : Bytes),
      acks.length = intermediateFrames data.length →
      (∀ b ∈ acks, IsAck card b) →
      ∃ said cmd' data', data'.length ≤ txFrameMax ∧
        sendRequest cmd data cap card (acks ++ script) =
          (sendRequest cmd' data' cap card script).prepend said := by
  intro acks
  induction acks with
  | nil =>
      intro cmd data hlen _
      rw [List.length_nil, intermediateFrames, txFrameMax] at hlen
      refine ⟨[], cmd, data, ?_, ?_⟩
      · rw [txFrameMax]
        omega
      · rw [List.nil_append, Outcome.prepend_nil]
  | cons b acks ih =>
      intro cmd data hlen hacks
      obtain ⟨q, hq, -⟩ := pending_request ⟨cmd, data⟩ card
      obtain ⟨ackGot, hb⟩ := hacks b (.head _)
      obtain ⟨hlong, hrest⟩ := intermediateFrames_succ hlen.symm
      obtain ⟨said, cmd', data', hshort, hsaid⟩ := ih dfAdditionalFrame
        (data.drop txFrameMax) (by rw [List.length_drop, hrest])
        fun b' hb' => hacks b' (.tail _ hb')
      refine ⟨(q, b) :: said, cmd', data', hshort, ?_⟩
      rw [sendRequest, List.cons_append,
        Prog.converse_next _ hq (react_acked hb hlong)]
      exact (congrArg (Outcome.prepend [(q, b)]) hsaid).trans
        (Outcome.prepend_prepend [(q, b)] said _)

/-- A raw exchange succeeds just where the answers behind those to its
intermediate frames make up a reply, and hands that over. -/
theorem rawExchange_reply_iff {cmd : UInt8} {data : Bytes} {cap : Nat}
    {card card' : Card} {acks script rest : List Answer} {x : UInt8 × Bytes}
    (hlen : acks.length = intermediateFrames data.length)
    (hacks : ∀ b ∈ acks, IsAck card b) :
    (∃ said, rawExchange cmd data cap card (acks ++ script) =
      .done said (.ok x) card' rest) ↔
      cardReply card.wraps cap [] script = some (x, rest) ∧
        card' = { card with lastStatus := x.1 } := by
  obtain ⟨said, cmd', data', hshort, hsend⟩ := sendRequest_upto script acks
    cmd data hlen hacks
  rw [← @rawExchange_short_iff cmd' data' cap card card' script rest x hshort]
  have hrun : rawExchange cmd data cap card (acks ++ script) =
      (rawExchange cmd' data' cap card script).prepend said := by
    rw [rawExchange, rawExchange, rawExchangeEx, rawExchangeEx]
    exact Prog.bind_prepend hsend _
  rw [hrun]
  constructor
  · rintro ⟨said', h⟩
    obtain ⟨said₁, h, -⟩ := Outcome.prepend_eq_done.mp h
    exact ⟨said₁, h⟩
  · rintro ⟨said', h⟩
    exact ⟨_, Outcome.prepend_eq_done.mpr ⟨said', h, rfl⟩⟩

/-- A raw exchange puts its first frame, whatever is answered. -/
theorem rawExchange_first (cmd : UInt8) (data : Bytes) (cap : Nat)
    (card : Card) (script : List Answer) :
    ∃ frames, (rawExchange cmd data cap card script).queries =
      nativeFrame card.wraps cmd (data.take txFrameMax) :: frames := by
  obtain ⟨_, hsend⟩ := @Prog.queries_converse _ _ _ _ _ _ Pending.request
    (Pending.react cap) ⟨cmd, data⟩ card _ (pending_frame _ _) script
  exact Prog.queries_bind_first _ hsend

/-- A raw exchange of one frame puts that frame and asks to go on. -/
theorem rawExchange_queries (cmd : UInt8) {data : Bytes} (cap : Nat)
    (card : Card) (script : List Answer) (hlen : data.length ≤ txFrameMax) :
    ∃ m, (rawExchange cmd data cap card script).queries =
      nativeFrame card.wraps cmd data ::
        List.replicate m (goOn card.wraps) := by
  have hq : Pending.request ⟨cmd, data⟩ card =
      .ok (nativeFrame card.wraps cmd data) := by
    rw [pending_frame, List.take_of_length_le hlen]
  have hshort : ¬ txFrameMax < data.length := Nat.not_lt.mpr hlen
  rw [rawExchange, rawExchangeEx, sendRequest]
  cases script with
  | nil =>
      rw [Prog.converse_bind_nil hq]
      exact ⟨0, rfl⟩
  | cons a tail =>
      cases hr : Pending.react cap ⟨cmd, data⟩ a card with
      | mk r card₁ =>
      cases r with
      | error e =>
          rw [Prog.converse_bind_error hq hr]
          exact ⟨0, rfl⟩
      | ok again =>
      obtain ⟨status, got, rfl, rfl⟩ : ∃ status got,
          again = .inr (status, got) ∧ card₁ = card := by
        cases react_cases hr with
        | acked hresp hmore => exact absurd hmore hshort
        | last hresp hlast hcap => exact ⟨_, _, rfl, rfl⟩
      rw [Prog.converse_bind_leave hq hr, Outcome.queries_prepend,
        Prog.queries_bind_silent fun _ _ _ => rfl, collect]
      split
      · obtain ⟨m, hm⟩ := collect_queries cap card₁ tail got
        rw [hm]
        exact ⟨m, rfl⟩
      · exact ⟨0, rfl⟩

/-- A raw exchange of one frame hands over the reply there is, or ends without
one and leaves the handle as it was. -/
theorem rawExchange_short_cases (cmd : UInt8) {data : Bytes} (cap : Nat)
    (card : Card) (script : List Answer) (hlen : data.length ≤ txFrameMax) :
    (∃ x said rest, cardReply card.wraps cap [] script = some (x, rest) ∧
      rawExchange cmd data cap card script =
        .done said (.ok x) { card with lastStatus := x.1 } rest) ∨
    (cardReply card.wraps cap [] script = none ∧
      ((∃ said e rest, rawExchange cmd data cap card script =
        .done said (.error e) card rest) ∨
      ∃ said q card', rawExchange cmd data cap card script =
        .waiting said q card')) := by
  cases hreply : cardReply card.wraps cap [] script with
  | some found =>
      obtain ⟨x, rest⟩ := found
      obtain ⟨said, hrun⟩ :=
        (@rawExchange_short_iff cmd _ _ _ _ _ _ _ hlen).mpr ⟨hreply, rfl⟩
      exact .inl ⟨x, said, rest, rfl, hrun⟩
  | none =>
      refine .inr ⟨rfl, ?_⟩
      cases hrun : rawExchange cmd data cap card script with
      | waiting said q card' => exact .inr ⟨said, q, card', rfl⟩
      | done said r card' rest =>
      cases r with
      | ok x =>
          rw [((rawExchange_short_iff hlen).mp ⟨said, hrun⟩).1] at hreply
          cases hreply
      | error e =>
          refine .inl ⟨said, e, rest, ?_⟩
          cases rawExchangeEx_done hrun with
          | fault => rfl
          | overflow => rfl
          | refused _ _ _ _ hleft =>
              rw [intermediateFrames, txFrameMax] at hleft
              rw [txFrameMax] at hlen
              omega

end Nxpsc
