import Nxpsc.Lib.Refine
import Nxpsc.Proofs.Framing
import Nxpsc.Proofs.Reply
import Nxpsc.Spec.Carrier

/-!
# A chained command against a card that chains

Against a `Carrier` the loops of `nxpsc_raw_exchange_ex` are one step of the
interpreter behind it: the request arrives whole, however many frames it
took, and the answer comes back whole, however it was cut. The induction is
on what is left to send on the way out, and on the parts the card still has
on the way back.
-/

namespace Nxpsc

open Dialogue

theorem joined_cons (part : Part) (parts : List Part) :
    joined (part :: parts) = part.val ++ joined parts := rfl

/-! ## One frame -/

/-- A frame reaches the device, and its reply the handle. -/
theorem frame_answered {S : Type} {d : Device S} {p p' : S} {cmd : UInt8}
    {data : Bytes} {reply : Reply} (card : Card)
    (hstep : d p cmd data = (reply, p')) (hlen : data.length ≤ txFrameMax) :
    ∃ q, frameRequest cmd data card = .ok q ∧
      (d.party card.cmdset p q).2 = p' ∧
      frameResponse card maxApdu (d.party card.cmdset p q).1 =
        .ok (reply.status, reply.data) := by
  obtain ⟨q, hq, hread⟩ := frameRequest_read cmd card hlen
  have hparty : d.party card.cmdset p q =
      (card.cmdset.encoding.put reply, p') := by
    rw [Device.party, hread]
    simp only [hstep]
  refine ⟨q, hq, by rw [hparty], ?_⟩
  rw [hparty]
  exact frameResponse_put card reply

variable {S : Type} {c : Carrier S} {run : Interpreter S}

/-! ## The way back -/

/-- What the handle does with an answer that goes on, and with the last. -/
theorem collectReact_part {card : Card} {cap : Nat} {got data : Bytes}
    {status : UInt8} {a : Answer}
    (h : frameResponse card maxApdu a = .ok (status, data))
    (hcap : (got ++ data).length ≤ cap) :
    collectReact cap got a card =
      (if status = dfSAdditionalFrame then .ok (.inl (got ++ data))
        else .ok (.inr (status, got ++ data)), card) := by
  rw [List.length_append] at hcap
  rw [collectReact, h]
  simp only
  rw [if_neg (by omega)]
  split
  · rfl
  · rfl

/-- The handle collects what the card has left of its answer. -/
theorem collect_sending {card : Card} {cap : Nat} {status : UInt8}
    (hfinal : status ≠ dfSAdditionalFrame) (s : S) (part : Part)
    (parts : List Part) (got : Bytes)
    (hcap : (got ++ joined (part :: parts)).length ≤ cap) :
    ∃ said, Meets ((c.device run).party card.cmdset)
      (Prog.converse (fun _ card => frameRequest dfAdditionalFrame [] card)
        (collectReact cap) got)
      card (.sending status (part :: parts), s) said
      (.ok (status, got ++ joined (part :: parts))) card (.idle, s) := by
  induction parts generalizing part got with
  | nil =>
      have hjoined : joined [part] = part.val := List.append_nil _
      rw [hjoined] at hcap ⊢
      have hstep : c.device run (.sending status [part], s) dfAdditionalFrame
          [] = (⟨status, part.val, part.property⟩, .idle, s) := rfl
      obtain ⟨q, hq, hnext, hresp⟩ :=
        frame_answered card hstep (Nat.zero_le _)
      have hreact := collectReact_part hresp hcap
      rw [if_neg hfinal] at hreact
      have hleave := @meets_leave _ _ _ _ _ _ _ _
        (fun _ card => frameRequest dfAdditionalFrame [] card) _ _ _ _ _ _ _
        hq hreact
      rw [hnext] at hleave
      exact ⟨_, hleave⟩
  | cons next rest ih =>
      rw [joined_cons, ← List.append_assoc] at hcap ⊢
      have hstep : c.device run (.sending status (part :: next :: rest), s)
          dfAdditionalFrame [] = (⟨dfSAdditionalFrame, part.val,
            part.property⟩, .sending status (next :: rest), s) := rfl
      obtain ⟨q, hq, hnext, hresp⟩ :=
        frame_answered card hstep (Nat.zero_le _)
      have hgot : (got ++ part.val).length ≤ cap := by
        rw [List.length_append] at hcap
        omega
      have hreact := collectReact_part hresp hgot
      rw [if_pos rfl] at hreact
      obtain ⟨said, hrest⟩ := ih next (got ++ part.val) hcap
      rw [← hnext] at hrest
      exact ⟨_, @meets_again _ _ _ _ _ _ _ _
        (fun _ card => frameRequest dfAdditionalFrame [] card) _ _ _ _ _ _ _
        _ _ _ _ hq hreact hrest⟩

/-! ## The way out -/

/-- The first frame of an answer carries a part of it, and what is left is on
its way. -/
theorem sendParts_split (status : UInt8) (parts : List Part) :
    ((sendParts status parts).1.status = status ∧
        (sendParts status parts).1.data = joined parts ∧
        (sendParts status parts).2 = .idle) ∨
      ∃ next rest, (sendParts status parts).1.status = dfSAdditionalFrame ∧
        (sendParts status parts).1.data ++ joined (next :: rest) =
          joined parts ∧
        (sendParts status parts).2 = .sending status (next :: rest) := by
  rcases parts with _ | ⟨part, _ | ⟨next, rest⟩⟩
  · exact .inl ⟨rfl, rfl, rfl⟩
  · exact .inl ⟨rfl, (List.append_nil _).symm, rfl⟩
  · exact .inr ⟨next, rest, rfl, rfl, rfl⟩

theorem length_first_le (status : UInt8) (parts : List Part) :
    (sendParts status parts).1.data.length ≤ (joined parts).length := by
  rcases sendParts_split status parts with
    ⟨-, hdata, -⟩ | ⟨next, rest, -, hdata, -⟩
  · rw [hdata]
  · rw [← hdata, List.length_append]
    exact Nat.le_add_right _ _

/-- The card has the request as it was when the last frame of it is in. -/
theorem send_gathered {card : Card} {cap : Nat} {s : S} {op : UInt8}
    {request : Bytes} {first : Reply × Transfer × S}
    (hwhole : c.gathered run s op request request.length = first)
    (hroom : first.1.data.length ≤ cap) (p : Transfer × S) (cmd : UInt8)
    {got rest : Bytes} (hrequest : got ++ rest = request)
    (hstep : c.device run p cmd (rest.take txFrameMax) =
      c.gathered run s op (got ++ rest.take txFrameMax) request.length) :
    ∃ said, Meets ((c.device run).party card.cmdset)
      (Prog.converse Pending.request (Pending.react cap) ⟨cmd, rest⟩) card p
      said (.ok (first.1.status, first.1.data)) card first.2 := by
  induction hlen : rest.length using Nat.strong_induction_on generalizing
    p cmd got rest with
  | h n ih =>
  by_cases hmore : txFrameMax < rest.length
  · -- the card waits for more
    have hsplit : (got ++ rest.take txFrameMax) ++ rest.drop txFrameMax =
        request := by
      rw [List.append_assoc, List.take_append_drop, hrequest]
    have hshort : (got ++ rest.take txFrameMax).length < request.length := by
      rw [← hrequest, List.length_append, List.length_append,
        List.length_take]
      omega
    have hwaits : c.gathered run s op (got ++ rest.take txFrameMax)
        request.length = (⟨dfSAdditionalFrame, [], Nat.zero_le _⟩,
          .gathering op (got ++ rest.take txFrameMax) request.length, s) := by
      rw [Carrier.gathered, if_pos hshort]
    obtain ⟨q, hq, hnext, hresp⟩ := frame_answered card (hstep.trans hwaits)
      (List.length_take_le _ _)
    obtain ⟨said, hrest⟩ := ih _
      (by rw [← hlen, List.length_drop]; rw [txFrameMax] at *; omega)
      (.gathering op (got ++ rest.take txFrameMax) request.length, s)
      dfAdditionalFrame hsplit rfl rfl
    rw [← hnext] at hrest
    exact ⟨_, @meets_again _ _ _ _ _ _ _ _ Pending.request _ _ _ _ _ _ _ _ _
      _ _ hq (react_acked hresp hmore) hrest⟩
  · -- the request is whole
    have htake : rest.take txFrameMax = rest :=
      List.take_of_length_le (by omega)
    rw [htake, hrequest, hwhole] at hstep
    obtain ⟨q, hq, hnext, hresp⟩ :=
      frame_answered card hstep (by omega)
    have hq' : Pending.request ⟨cmd, rest⟩ card = .ok q := by
      rw [Pending.request, htake]
      exact hq
    have hleave := meets_leave hq' (react_last hresp hmore hroom)
    rw [hnext] at hleave
    exact ⟨_, hleave⟩

/-! ## The whole command -/

/-- Whatever the card was in the middle of. -/
theorem rawExchange_carried {card : Card} {cmd : UInt8} {request : Bytes}
    {cap : Nat} (p : Transfer) {s s' : S} {status : UInt8} {data : Bytes}
    (hcmd : cmd ≠ dfAdditionalFrame)
    (hexpects : c.expects s cmd (request.take txFrameMax) = request.length)
    (hrun : run s cmd request = ((status, data), s'))
    (hfinal : status ≠ dfSAdditionalFrame) (hcap : data.length ≤ cap) :
    ∃ said, Meets ((c.device run).party card.cmdset)
      (rawExchange cmd request cap) card (p, s) said (.ok (status, data))
      { card with lastStatus := status } (.idle, s') := by
  have hwhole : c.gathered run s cmd request request.length =
      ((sendParts status (c.cut s' data)).1,
        (sendParts status (c.cut s' data)).2, s') := by
    rw [Carrier.gathered, if_neg (Nat.lt_irrefl _), hrun]
  have hjoin := c.joined_cut s' data
  have hroom := length_first_le status (c.cut s' data)
  rw [hjoin] at hroom
  have hstart : c.device run (p, s) cmd (request.take txFrameMax) =
      c.gathered run s cmd ([] ++ request.take txFrameMax) request.length := by
    rw [Carrier.device, if_neg hcmd, hexpects, List.nil_append]
  obtain ⟨said₁, hsend⟩ : ∃ said, Meets ((c.device run).party card.cmdset)
      (sendRequest cmd request cap) card (p, s) said
      (.ok ((sendParts status (c.cut s' data)).1.status,
        (sendParts status (c.cut s' data)).1.data)) card
      ((sendParts status (c.cut s' data)).2, s') :=
    send_gathered hwhole (Nat.le_trans hroom hcap) (p, s) cmd
      (List.nil_append request) hstart
  have hend : ∀ p', Meets ((c.device run).party card.cmdset)
      (do
        Prog.modify fun card => { card with lastStatus := status }
        pure (status, data) : Api (UInt8 × Bytes)) card p' []
      (.ok (status, data)) { card with lastStatus := status } p' :=
    fun p' => ⟨fun _ => rfl, rfl⟩
  rcases sendParts_split status (c.cut s' data) with
    ⟨hstatus, hdata, hphase⟩ | ⟨next, rest, hstatus, hdata, hphase⟩
  · rw [hstatus, hdata, hjoin, hphase] at hsend
    refine ⟨said₁ ++ ([] ++ []), meets_bind hsend (meets_bind ?_ (hend _))⟩
    rw [collect, if_neg fun h => hfinal h.2]
    exact ⟨fun _ => rfl, rfl⟩
  · rw [hstatus, hphase] at hsend
    rw [hjoin] at hdata
    have hall : ((sendParts status (c.cut s' data)).1.data ++
        joined (next :: rest)).length ≤ cap := by
      rw [hdata]
      exact hcap
    obtain ⟨said₂, hcollect⟩ := @collect_sending _ c run card _ _ hfinal s'
      next rest _ hall
    rw [hdata] at hcollect
    refine ⟨said₁ ++ (said₂ ++ []),
      meets_bind hsend (meets_bind ?_ (hend _))⟩
    rw [collect, if_pos ⟨rfl, rfl⟩]
    exact hcollect

end Nxpsc
