import Nxpsc.Spec.Device

/-!
# The two framings of a native command

A card that is reached through either encoding cannot tell which one it is:
the frames carry the same requests, its replies are read the same, and the
loops of `nxpsc_raw_exchange_ex` branch on nothing else. The handles differ in
the command set only, and keep doing so.
-/

namespace Nxpsc

open Dialogue

/-! ## One frame -/

theorem readWrapped_bytes (cmd : UInt8) {data : Bytes}
    (hlen : data.length < 256) :
    readWrapped (Frame.wrapped cmd data).bytes = some (cmd, data) := by
  rcases data with _ | ⟨x, rest⟩
  · rfl
  · have hlc : (UInt8.ofNat (x :: rest).length).toNat = (x :: rest).length := by
      rw [UInt8.toNat_ofNat']
      exact Nat.mod_eq_of_lt hlen
    have hlast : (x :: rest ++ [(0x00 : UInt8)]).getLastD 0xFF = 0x00 :=
      List.getLastD_concat
    have hbytes : (Frame.wrapped cmd (x :: rest)).bytes =
        isoClaWrap :: cmd :: 0x00 :: 0x00 ::
          UInt8.ofNat (x :: rest).length :: (x :: rest ++ [0x00]) := by
      simp [Frame.bytes]
    rw [hbytes, List.cons_append, readWrapped]
    · rw [← List.cons_append, if_pos, hlc, List.take_left]
      refine ⟨rfl, rfl, rfl, ?_, hlast⟩
      rw [hlc, List.length_append, List.length_singleton]
    · simp

/-- A frame of either command set carries the command it was made for. -/
theorem frameRequest_read (cmd : UInt8) {data : Bytes} (card : Card)
    (hlen : data.length ≤ txFrameMax) :
    ∃ q, frameRequest cmd data card = .ok q ∧
      card.cmdset.encoding.read q = some (cmd, data) := by
  have hfits : ¬ maxApdu - 6 < data.length := by
    rw [maxApdu]
    rw [txFrameMax] at hlen
    omega
  have hbyte : data.length < 256 := by
    rw [txFrameMax] at hlen
    omega
  rw [frameRequest, if_neg hfits]
  cases hset : card.cmdset with
  | native => exact ⟨_, rfl, rfl⟩
  | nativeIso => exact ⟨_, rfl, readWrapped_bytes cmd hbyte⟩
  | iso => exact ⟨_, rfl, readWrapped_bytes cmd hbyte⟩

/-- A reply comes out of either framing as it went in. -/
theorem frameResponse_put (card : Card) (x : Reply) :
    frameResponse card maxApdu (card.cmdset.encoding.put x) =
      .ok (x.status, x.data) := by
  have hfits := x.fits
  rw [replyMax] at hfits
  have hcap : ¬ maxApdu < x.data.length := by
    rw [maxApdu]
    omega
  have hnative : ∀ h : card.cmdset = .native,
      frameResponse card maxApdu (nativeEncoding.put x) =
        .ok (x.status, x.data) := by
    intro h
    have htake : (x.status :: x.data).take maxApdu = x.status :: x.data := by
      rw [List.take_of_length_le]
      rw [List.length_cons, maxApdu]
      omega
    simp only [frameResponse, nativeEncoding, transceived, htake, h,
      reduceCtorEq, or_self, if_false, List.length_cons, Nat.add_sub_cancel,
      if_neg hcap, List.headD_cons, List.drop_one, List.tail_cons,
      Nat.add_eq_zero_iff, one_ne_zero, and_false]
  have hwrapped : ∀ h : card.cmdset = .nativeIso ∨ card.cmdset = .iso,
      frameResponse card maxApdu (wrappedEncoding.put x) =
        .ok (x.status, x.data) := by
    intro h
    have hlen : (x.data ++ [0x91, x.status]).length = x.data.length + 2 := by
      rw [List.length_append]
      rfl
    have htake : (x.data ++ [0x91, x.status]).take maxApdu =
        x.data ++ [0x91, x.status] := by
      rw [List.take_of_length_le]
      rw [hlen, maxApdu]
      omega
    have hsw1 : (x.data ++ [0x91, x.status]).getD x.data.length 0 = 0x91 := by
      rw [List.getD_eq_getElem?_getD,
        List.getElem?_append_right (Nat.le_refl _), Nat.sub_self]
      rfl
    have hsw2 : (x.data ++ [0x91, x.status]).getD (x.data.length + 1) 0 =
        x.status := by
      rw [List.getD_eq_getElem?_getD,
        List.getElem?_append_right (Nat.le_add_right _ _),
        Nat.add_sub_cancel_left]
      rfl
    have hshort : ¬ x.data.length + 2 < 2 := by omega
    simp only [frameResponse, wrappedEncoding, transceived, htake, hlen,
      if_pos h, if_neg hshort, Nat.add_sub_cancel, hsw1, ne_eq,
      not_true_eq_false, if_false, if_neg hcap,
      show x.data.length + 2 - 1 = x.data.length + 1 from rfl, hsw2,
      List.take_left, Nat.add_eq_zero_iff, OfNat.ofNat_ne_zero, and_false]
  cases hset : card.cmdset with
  | native => exact hnative hset
  | nativeIso => exact hwrapped (.inl hset)
  | iso => exact hwrapped (.inr hset)

/-! ## The loops -/

/-- The same handle, framing natively and in APDUs. -/
def Reframed (s s' : Card) : Prop :=
  s.cmdset = .native ∧ s' = { s with cmdset := .nativeIso }

theorem reframed_status {s s' : Card} (h : Reframed s s') (status : UInt8) :
    Reframed { s with lastStatus := status }
      { s' with lastStatus := status } := by
  obtain ⟨hset, rfl⟩ := h
  exact ⟨hset, rfl⟩

theorem frameRequest_alike {s s' : Card} (h : Reframed s s') (cmd : UInt8)
    {data : Bytes} (hlen : data.length ≤ txFrameMax) :
    (frameRequest cmd data s).map nativeEncoding.read =
      (frameRequest cmd data s').map wrappedEncoding.read := by
  obtain ⟨hset, rfl⟩ := h
  obtain ⟨q, hq, hread⟩ := frameRequest_read cmd s hlen
  obtain ⟨q', hq', hread'⟩ := frameRequest_read cmd
    { s with cmdset := .nativeIso } hlen
  rw [hset] at hread
  rw [hq, hq']
  exact congrArg Except.ok (hread.trans hread'.symm)

theorem frameResponse_alike {s s' : Card} (h : Reframed s s') (x : Reply) :
    frameResponse s maxApdu (nativeEncoding.put x) = .ok (x.status, x.data) ∧
      frameResponse s' maxApdu (wrappedEncoding.put x) =
        .ok (x.status, x.data) := by
  obtain ⟨hset, rfl⟩ := h
  have hnative := frameResponse_put s x
  rw [hset] at hnative
  exact ⟨hnative, frameResponse_put { s with cmdset := .nativeIso } x⟩

theorem alike_sendRequest (cmd : UInt8) (data : Bytes) (cap : Nat) :
    (sendRequest cmd data cap).Alike Reframed nativeEncoding
      wrappedEncoding := by
  refine Prog.alike_converse (fun p s s' hS => ?_) (fun p x s s' hS => ?_) _
  · refine frameRequest_alike hS p.cmd ?_
    rw [List.length_take]
    exact Nat.min_le_left _ _
  · obtain ⟨hx, hx'⟩ := frameResponse_alike hS x
    simp only [Pending.react, hx, hx']
    split
    · split
      · exact ⟨rfl, reframed_status hS _⟩
      · exact ⟨rfl, hS⟩
    · split
      · exact ⟨rfl, hS⟩
      · exact ⟨rfl, hS⟩

theorem alike_collect (cap : Nat) (follow : Bool) (status : UInt8)
    (resp : Bytes) :
    (collect cap follow status resp).Alike Reframed nativeEncoding
      wrappedEncoding := by
  refine Prog.alike_ite ?_ (Prog.alike_pure _)
  refine Prog.alike_converse (fun _ s s' hS => ?_) (fun b x s s' hS => ?_) _
  · exact frameRequest_alike hS _ (Nat.zero_le _)
  · obtain ⟨hx, hx'⟩ := frameResponse_alike hS x
    simp only [collectReact, hx, hx']
    split
    · exact ⟨rfl, hS⟩
    · split
      · exact ⟨rfl, hS⟩
      · exact ⟨rfl, hS⟩

theorem alike_rawExchangeEx (cmd : UInt8) (data : Bytes) (cap : Nat)
    (follow : Bool) :
    (rawExchangeEx cmd data cap follow).Alike Reframed nativeEncoding
      wrappedEncoding :=
  Prog.alike_bind (alike_sendRequest cmd data cap) fun first =>
    Prog.alike_bind (alike_collect cap follow first.1 first.2) fun last =>
      Prog.alike_bind (Prog.alike_act fun _ _ hS =>
        ⟨rfl, reframed_status hS last.1⟩) fun _ => Prog.alike_pure last

/-! ## What the card sees -/

variable {S : Type}

theorem reframed_card (card : Card) :
    Reframed { card with cmdset := .native }
      { card with cmdset := .nativeIso } := ⟨rfl, rfl⟩

theorem Reframed.eq_native {s card : Card}
    (h : Reframed s { card with cmdset := .nativeIso }) :
    s = { card with cmdset := .native } := by
  obtain ⟨hset, heq⟩ := h
  have hback : ({ card with cmdset := .native } : Card) =
      { s with cmdset := .native } :=
    congrArg (fun c : Card => { c with cmdset := .native }) heq
  rw [hback, ← hset]

/-- A program that runs alike under both encodings completes alike against
every card. -/
theorem completes_alike {α : Type} {m : Api α}
    (hm : m.Alike Reframed nativeEncoding wrappedEncoding) (d : Device S)
    {card card' : Card} {p p' : S} {requests : List (UInt8 × Bytes)}
    {r : Except Err α} :
    d.Completes m { card with cmdset := .native } p requests r
        { card' with cmdset := .native } p' ↔
      d.Completes m { card with cmdset := .nativeIso } p requests r
        { card' with cmdset := .nativeIso } p' := by
  have halike := hm _ _ (d.replies p requests).1 (reframed_card card)
  constructor
  · rintro ⟨said, hrun, htook, hasked⟩
    obtain ⟨hsaid, hp⟩ := (took_iff d _ hasked).mp htook
    have hnative : m { card with cmdset := .native }
        ((d.replies p requests).1.map nativeEncoding.put) =
          .done said r { card' with cmdset := .native } [] := by
      rw [← hrun, hsaid]
      rfl
    rw [hnative] at halike
    obtain ⟨said', s', hrun', hsaid', hasked', hS⟩ := halike.of_done
    obtain ⟨-, rfl⟩ := hS
    refine ⟨said', by rw [hsaid', hrun'], ?_, hasked'.symm.trans hasked⟩
    exact (took_iff d .nativeIso (hasked'.symm.trans hasked)).mpr ⟨hsaid', hp⟩
  · rintro ⟨said, hrun, htook, hasked⟩
    obtain ⟨hsaid, hp⟩ := (took_iff d _ hasked).mp htook
    have hwrapped : m { card with cmdset := .nativeIso }
        ((d.replies p requests).1.map wrappedEncoding.put) =
          .done said r { card' with cmdset := .nativeIso } [] := by
      rw [← hrun, hsaid]
      rfl
    rw [hwrapped] at halike
    obtain ⟨said', s', hrun', hsaid', hasked', hS⟩ := halike.symm.of_done
    obtain rfl := Reframed.eq_native hS
    refine ⟨said', by rw [hsaid', hrun'], ?_, hasked'.symm.trans hasked⟩
    exact (took_iff d .native (hasked'.symm.trans hasked)).mpr ⟨hsaid', hp⟩

theorem awaits_alike {α : Type} {m : Api α}
    (hm : m.Alike Reframed nativeEncoding wrappedEncoding) (d : Device S)
    {card : Card} {p p' : S} {requests : List (UInt8 × Bytes)}
    {request : UInt8 × Bytes} :
    d.Awaits m { card with cmdset := .native } p requests request p' ↔
      d.Awaits m { card with cmdset := .nativeIso } p requests request
        p' := by
  have halike := hm _ _ (d.replies p requests).1 (reframed_card card)
  constructor
  · rintro ⟨said, q, s₁, hrun, htook, hasked, hq⟩
    obtain ⟨hsaid, hp⟩ := (took_iff d _ hasked).mp htook
    have hnative : m { card with cmdset := .native }
        ((d.replies p requests).1.map nativeEncoding.put) =
          .waiting said q s₁ := by
      rw [← hrun, hsaid]
      rfl
    rw [hnative] at halike
    obtain ⟨said', q', s', hrun', hsaid', hasked', hq'⟩ := halike.of_waiting
    refine ⟨said', q', s', by rw [hsaid', hrun'], ?_,
      hasked'.symm.trans hasked, hq'.symm.trans hq⟩
    exact (took_iff d .nativeIso (hasked'.symm.trans hasked)).mpr ⟨hsaid', hp⟩
  · rintro ⟨said, q, s₁, hrun, htook, hasked, hq⟩
    obtain ⟨hsaid, hp⟩ := (took_iff d _ hasked).mp htook
    have hwrapped : m { card with cmdset := .nativeIso }
        ((d.replies p requests).1.map wrappedEncoding.put) =
          .waiting said q s₁ := by
      rw [← hrun, hsaid]
      rfl
    rw [hwrapped] at halike
    obtain ⟨said', q', s', hrun', hsaid', hasked', hq'⟩ :=
      halike.symm.of_waiting
    refine ⟨said', q', s', by rw [hsaid', hrun'], ?_,
      hasked'.symm.trans hasked, hq'.symm.trans hq⟩
    exact (took_iff d .native (hasked'.symm.trans hasked)).mpr ⟨hsaid', hp⟩

/-- Framed natively and framed in APDUs, every card is driven through the same
requests, whether the call comes back or not, and when it does it returns the
same and leaves the same handle. -/
theorem framings_equivalent (d : Device S) (card : Card) (p p' : S)
    (cmd : UInt8) (data : Bytes) (cap : Nat) (follow : Bool)
    (requests : List (UInt8 × Bytes)) :
    (∀ (r : Except Err (UInt8 × Bytes)) (card' : Card),
      d.Completes (rawExchangeEx cmd data cap follow)
        { card with cmdset := .native } p requests r
        { card' with cmdset := .native } p' ↔
      d.Completes (rawExchangeEx cmd data cap follow)
        { card with cmdset := .nativeIso } p requests r
        { card' with cmdset := .nativeIso } p') ∧
    (∀ request, d.Awaits (rawExchangeEx cmd data cap follow)
        { card with cmdset := .native } p requests request p' ↔
      d.Awaits (rawExchangeEx cmd data cap follow)
        { card with cmdset := .nativeIso } p requests request p') :=
  have halike := alike_rawExchangeEx cmd data cap follow
  ⟨fun _ _ => completes_alike halike d, fun _ => awaits_alike halike d⟩

end Nxpsc
