import Nxpsc.Proofs.Exchange

/-!
# An exchange on a script it completes on

The other direction of `Proofs.Exchange`: a card that acknowledges every
intermediate frame with 0xAF and then answers once brings the exchange to its
end, and the answer reaches `exchangeAnswer`.
-/

namespace Nxpsc

open Dialogue

theorem intermediateFrames_succ {n k : Nat}
    (h : intermediateFrames n = k + 1) :
    txFrameMax < n ∧ intermediateFrames (n - txFrameMax) = k := by
  rw [intermediateFrames, txFrameMax] at *
  omega

theorem sendRequest_acked {cap : Nat} {card : Card} {status : UInt8}
    {got : Bytes} {a : Answer} (rest : List Answer)
    (ha : frameResponse card maxApdu a = .ok (status, got))
    (hcap : got.length ≤ cap) :
    ∀ (acks : List Answer) (cmd : UInt8) (data : Bytes),
      acks.length = intermediateFrames data.length →
      (∀ b ∈ acks, IsAck card b) →
      ∃ said, sendRequest cmd data cap card (acks ++ a :: rest) =
        .done said (.ok (status, got)) card rest := by
  intro acks
  induction acks with
  | nil =>
      intro cmd data hlen _
      obtain ⟨q, hq, -⟩ := pending_request ⟨cmd, data⟩ card
      have hshort : ¬ txFrameMax < data.length := by
        rw [List.length_nil, intermediateFrames, txFrameMax] at hlen
        rw [txFrameMax]
        omega
      refine ⟨[(q, a)], ?_⟩
      exact Prog.converse_leave rest hq (react_last ha hshort hcap)
  | cons b acks ih =>
      intro cmd data hlen hacks
      obtain ⟨q, hq, -⟩ := pending_request ⟨cmd, data⟩ card
      obtain ⟨ackGot, hb⟩ := hacks b (.head _)
      obtain ⟨hlong, hrest⟩ := intermediateFrames_succ hlen.symm
      obtain ⟨said, hsaid⟩ := ih dfAdditionalFrame (data.drop txFrameMax)
        (by rw [List.length_drop, hrest])
        fun b' hb' => hacks b' (.tail _ hb')
      refine ⟨(q, b) :: said, ?_⟩
      rw [sendRequest, List.cons_append,
        Prog.converse_next _ hq (react_acked hb hlong)]
      exact congrArg (Outcome.prepend [(q, b)]) hsaid

theorem rawExchange_acked (cmd : UInt8) {data : Bytes} {cap : Nat}
    {card : Card} {status : UInt8} {got : Bytes} {acks : List Answer}
    {a : Answer} (rest : List Answer)
    (hlen : acks.length = intermediateFrames data.length)
    (hacks : ∀ b ∈ acks, IsAck card b)
    (ha : frameResponse card maxApdu a = .ok (status, got))
    (hcap : got.length ≤ cap) (hst : status ≠ dfSAdditionalFrame) :
    ∃ said, rawExchange cmd data cap card (acks ++ a :: rest) =
      .done said (.ok (status, got)) { card with lastStatus := status }
        rest := by
  obtain ⟨said, hsend⟩ := sendRequest_acked rest ha hcap acks cmd data
    hlen hacks
  refine ⟨said, ?_⟩
  rw [rawExchange, rawExchangeEx, Prog.bind_ok hsend, collect,
    if_neg fun h => hst h.2, Prog.pure_bind', Prog.modify_bind, Prog.pure_run]
  simp only [Outcome.prepend, List.append_nil]

theorem frameResponse_native {card : Card} {cap : Nat} {status : UInt8}
    {got : Bytes} (hset : card.cmdset = .native)
    (hlen : got.length + 1 ≤ maxApdu) (hcap : got.length ≤ cap) :
    frameResponse card cap (.ok (status :: got)) = .ok (status, got) := by
  have htake : (status :: got).take maxApdu = status :: got :=
    List.take_of_length_le hlen
  simp only [frameResponse, transceived, htake, hset, reduceCtorEq, or_self,
    if_false, List.length_cons, Nat.add_sub_cancel,
    if_neg (Nat.not_lt.mpr hcap), List.headD_cons, List.drop_one,
    List.tail_cons]

variable [BlockCipher]

/-- A request that fits is sent, unless a lost session forbids it. -/
theorem exchangeRequest_fits {cmd : UInt8} {data : Bytes}
    {txMode rxMode : Mode} {card : Card}
    (hopen : ¬ (card.sessionLost = true ∧
      (txMode ≠ .plain ∨ rxMode ≠ .plain)))
    (hfit : wireLength { card with mode := txMode } cmd data.length ≤
      maxResponse) :
    ∃ wrapped card₁,
      exchangeRequest cmd data txMode rxMode card = (.ok wrapped, card₁) ∧
      wrapped.length =
        wireLength { card with mode := txMode } cmd data.length := by
  rw [exchangeRequest, if_neg hopen]
  have hdel := channelEncode_delivers cmd data maxResponse
    { card with mode := txMode, macMismatch := false }
  rcases hdel with ⟨hover, -⟩ | ⟨-, wrapped, hw, hlen⟩
  · exact absurd hfit (Nat.not_le.mpr hover)
  · exact ⟨wrapped, _, Prod.ext hw rfl, hlen⟩

/-- Outside a lost session every request that fits is sent. -/
theorem exchangeRequest_isOk {cmd : UInt8} {data : Bytes}
    {txMode : Mode} (rxMode : Mode) {card : Card}
    (hlost : card.sessionLost = false)
    (hfit : wireLength { card with mode := txMode } cmd data.length ≤
      maxResponse) :
    ∃ wrapped card₁,
      exchangeRequest cmd data txMode rxMode card = (.ok wrapped, card₁) := by
  obtain ⟨wrapped, card₁, h, -⟩ := @exchangeRequest_fits _ _ _ _ rxMode _
    (fun h => absurd (hlost.symm.trans h.1) Bool.false_ne_true) hfit
  exact ⟨wrapped, card₁, h⟩

/-- The exchange on such a script: what it makes of the final answer. -/
theorem exchange_acked {cmd : UInt8} {data wrapped : Bytes}
    {txMode rxMode : Mode} (cap : Nat) {card card₁ : Card} {status : UInt8}
    {got : Bytes} {acks : List Answer} {a : Answer} (rest : List Answer)
    (hreq : exchangeRequest cmd data txMode rxMode card = (.ok wrapped, card₁))
    (hlen : acks.length = requestFrames card cmd data.length txMode)
    (hacks : ∀ b ∈ acks, IsAck card b)
    (ha : frameResponse card maxApdu a = .ok (status, got))
    (hcap : got.length ≤ maxResponse) (hst : status ≠ dfSAdditionalFrame) :
    ∃ said, exchange cmd data txMode rxMode cap card (acks ++ a :: rest) =
      .done said
        (exchangeAnswer rxMode cap status got
          { card₁ with lastStatus := status }).1
        (exchangeAnswer rxMode cap status got
          { card₁ with lastStatus := status }).2 rest := by
  rw [← exchangeRequest_ok hreq] at hlen
  have hset : card₁.cmdset = card.cmdset := by
    obtain ⟨_, _, _, _, hframe⟩ := exchangeRequest_frame hreq
    rw [hframe]
  have hresp : ∀ b, frameResponse card₁ maxApdu b =
      frameResponse card maxApdu b := by
    intro b
    rw [frameResponse, frameResponse, hset]
  obtain ⟨said, hraw⟩ := rawExchange_acked cmd rest hlen
    (fun b hb => by
      obtain ⟨ackGot, h⟩ := hacks b hb
      exact ⟨ackGot, (hresp b).trans h⟩)
    ((hresp a).trans ha) hcap hst
  refine ⟨said, ?_⟩
  rw [exchange, Prog.act_bind, hreq]
  simp only
  rw [Prog.bind_ok hraw, Prog.act_run]
  simp only [Outcome.prepend, List.append_nil]

end Nxpsc
