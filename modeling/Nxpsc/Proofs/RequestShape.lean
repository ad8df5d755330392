import Nxpsc.Proofs.AnswerRule
import Nxpsc.Proofs.ChannelFrame
import Nxpsc.Spec.Requests

/-!
# How a request is protected

A request is a part that stays in the clear, a part that is enciphered, and a
MAC or none. Which bytes are which is decided by three tables over the opcode,
per channel and mode. `requestShape` is that decision alone, and every encoder
sends what the shape calls for.
-/

namespace Nxpsc

theorem closed_empty {hdr : Nat} {src : Bytes} {maced : Bool}
    (h : src.length ≤ hdr) :
    RequestShape.closed hdr src maced = .open src maced := by
  rw [RequestShape.closed, RequestShape.open, List.take_of_length_le h,
    List.drop_of_length_le h]

/-- The header stays in the clear, whatever the shape. -/
theorem shape_clear (cmd : UInt8) (src : Bytes) (card : Card) :
    src.take (min (cmdHeaderLen cmd src.length) src.length) <+:
      (requestShape cmd src card).clear := by
  have hopen : ∀ n, src.take n <+: src := fun n => List.take_prefix n src
  rw [requestShape]
  split
  · split
    · exact hopen _
    · split
      · exact hopen _
      · exact List.prefix_rfl
  · split
    · exact hopen _
    · exact List.prefix_rfl
  · split
    · exact hopen _
    · split
      · exact hopen _
      · exact List.prefix_rfl
  · split
    · exact hopen _
    · split
      · exact hopen _
      · exact List.prefix_rfl
  · exact hopen _

theorem body_padded {src tail : Bytes} {hdr n bs : Nat} (hbs : 0 < bs)
    (hn : src.length - hdr + tail.length ≤ n) :
    ∃ pad, Bytes.fit (paddedLen n bs) (src.drop hdr ++ tail) =
      src.drop hdr ++ pad := by
  have hle := @le_paddedLen n bs hbs
  rw [Bytes.fit_of_le, List.append_assoc]
  · exact ⟨_, rfl⟩
  · rw [List.length_append, List.length_drop]
    omega

/-- Without a checksum only zeros follow the body. -/
theorem body_zeros {src : Bytes} {hdr bs : Nat} (hbs : 0 < bs) :
    ∃ pad, Bytes.fit (paddedLen (src.length - hdr) bs) (src.drop hdr) =
      src.drop hdr ++ pad := by
  have h := @body_padded src [] hdr (src.length - hdr) bs hbs (Nat.le_refl _)
  rwa [List.append_nil] at h

/-- With one it stands behind the body, and the pad byte behind it. -/
theorem body_crc {src crc tail : Bytes} {hdr k extra bs : Nat}
    (hbs : 0 < bs) (hle : hdr ≤ src.length) (hcrc : crc.length = k)
    (htail : tail.length = extra) :
    ∃ pad, Bytes.fit (paddedLen (src.length + k + extra - hdr) bs)
      (src.drop hdr ++ crc ++ tail) = src.drop hdr ++ pad := by
  rw [List.append_assoc]
  refine body_padded hbs ?_
  rw [List.length_append, htail, hcrc]
  omega

theorem pad_length (mode : Mode) :
    (if mode = .encPadded then ([0x80] : Bytes) else []).length =
      if mode = .encPadded then 1 else 0 := by
  split
  · rfl
  · rfl

section

variable [BlockCipher]

/-! ## The two kinds of shape -/

theorem sends_open {card : Card} {cmd : UInt8} {src : Bytes} :
    Sends card cmd src (.open src false) src :=
  ⟨(List.append_nil src).symm, [], [], by simp [RequestShape.open],
    .inl ⟨rfl, rfl⟩, rfl⟩

theorem sends_mac {card : Card} {cmd : UInt8} {src mac : Bytes}
    (h : MacsRequest card cmd src src mac) :
    Sends card cmd src (.open src true) (src ++ mac) := by
  refine ⟨(List.append_nil src).symm, [], mac, ?_, .inl ⟨rfl, rfl⟩, ?_⟩
  · simp [RequestShape.open]
  · simpa [RequestShape.open] using h

theorem sends_closed {card : Card} {cmd : UInt8} {src cipher : Bytes}
    {hdr : Nat}
    (h : ∃ pad, EnciphersRequest card (src.drop hdr ++ pad) cipher) :
    Sends card cmd src (.closed hdr src false) (src.take hdr ++ cipher) :=
  ⟨(List.take_append_drop hdr src).symm, cipher, [],
    (List.append_nil _).symm, .inr h, rfl⟩

/-- A body that something was padded to, enciphered. -/
theorem sends_body {card : Card} {cmd : UInt8} {src body cipher : Bytes}
    {hdr : Nat} (hbody : ∃ pad, body = src.drop hdr ++ pad)
    (henc : EnciphersRequest card body cipher) :
    Sends card cmd src (.closed hdr src false) (src.take hdr ++ cipher) := by
  obtain ⟨pad, rfl⟩ := hbody
  exact sends_closed ⟨pad, henc⟩

/-- There is no body to encipher. -/
theorem sends_header {card : Card} {cmd : UInt8} {src : Bytes} {hdr : Nat}
    (h : src.length ≤ hdr) :
    Sends card cmd src (.closed hdr src false) src := by
  rw [closed_empty h]
  exact sends_open

/-! ## The encoders -/

theorem enciphersD40 {card : Card} {plain cipher last : Bytes}
    (hchan : card.channel = .d40)
    (h : cbcCryptEx card.keyType card.sessionEnc.bytes (Bytes.zeros maxBlock)
      plain true false = .ok (cipher, last)) :
    EnciphersRequest card plain cipher := by
  simp only [EnciphersRequest, hchan]
  exact ⟨last, h⟩

theorem enciphersEv1 {card : Card} {plain cipher last : Bytes}
    (hchan : card.channel = .ev1)
    (h : cbcCrypt card.keyType card.sessionEnc.bytes card.iv.bytes plain true =
      .ok (cipher, last)) :
    EnciphersRequest card plain cipher := by
  simp only [EnciphersRequest, hchan]
  exact ⟨last, h⟩

/-- D40 MACs what follows the header, if anything does. -/
theorem encodeD40_macs {cmd : UInt8} {src out : Bytes} {cap : Nat}
    {card card' : Card} (hchan : card.channel = .d40)
    (hmaced : card.mode = .mac ∨ (card.mode = .enc ∧
      src.length ≤ min (cmdHeaderLen cmd src.length) src.length))
    (h : encodeD40 cmd src cap card = (.ok out, card')) :
    Sends card cmd src (.open src
      (decide (min (cmdHeaderLen cmd src.length) src.length < src.length) &&
        transmitsMac card cmd)) out := by
  have hmac4 : macLength card = 4 := by rw [macLength, hchan]
  simp only [encodeD40, hmac4] at h
  rw [if_pos hmaced] at h
  generalize hhdr : min (cmdHeaderLen cmd src.length) src.length = hdr at h ⊢
  split at h
  · cases h
  split at h
  · next hnil =>
      cases h
      rw [decide_eq_false (by omega), Bool.false_and]
      exact sends_open
  split at h
  · next hempty =>
      have hle : ¬ hdr < src.length := fun hlt => by
        have := @paddedLen_pos _ (blockLen card) (blockSize_pos card.keyType)
          (Nat.sub_pos_of_lt hlt)
        omega
      cases h
      rw [decide_eq_false hle, Bool.false_and]
      exact sends_open
  next hbody =>
  have hlt : hdr < src.length := by
    refine Nat.lt_of_not_le fun hle => hbody ?_
    rw [Nat.sub_eq_zero_of_le hle, paddedLen_zero]
  split at h
  · cases h
  next cipher last hcbc =>
  split at h
  · next htx =>
      split at h
      · cases h
      cases h
      rw [decide_eq_true hlt, htx]
      refine sends_mac ?_
      simp only [MacsRequest, hchan, hhdr]
      refine ⟨cipher, last, ?_, rfl⟩
      rw [List.length_drop]
      exact hcbc
  · next htx =>
      cases h
      rw [Bool.eq_false_of_not_eq_true htx, Bool.and_false]
      exact sends_open

theorem encodeD40_sends {cmd : UInt8} {src out : Bytes} {cap : Nat}
    {card card' : Card} (hchan : card.channel = .d40)
    (h : encodeD40 cmd src cap card = (.ok out, card')) :
    Sends card cmd src (requestShape cmd src card) out := by
  have hbs := blockSize_pos card.keyType
  simp only [requestShape, hchan]
  by_cases hmaced : card.mode = .mac ∨ (card.mode = .enc ∧
      src.length ≤ min (cmdHeaderLen cmd src.length) src.length)
  · rw [if_pos hmaced]
    exact encodeD40_macs hchan hmaced h
  simp only [encodeD40] at h
  rw [if_neg hmaced] at h ⊢
  have hle := Nat.min_le_right (cmdHeaderLen cmd src.length) src.length
  generalize min (cmdHeaderLen cmd src.length) src.length = hdr
    at h hle hmaced ⊢
  split at h
  · cases h
  have htail := pad_length card.mode
  split at h
  · next henc =>
      rw [if_neg (by rcases henc with he | he <;> rw [he] <;> decide)]
      split at h
      · next hempty =>
          cases h
          exact sends_header hempty
      generalize (if card.mode = .encPadded then ([0x80] : Bytes) else []) =
        tail at h htail
      generalize (if card.mode = .encPadded then 1 else 0) = extra at h htail
      split at h
      · cases h
      split at h
      · cases h
      next cipher last hcbc =>
      cases h
      exact sends_body (body_crc hbs hle (length_crc16 _) htail)
        (enciphersD40 hchan hcbc)
  next henc =>
  split at h
  · next hplain =>
      rw [if_neg (by rw [hplain]; decide)]
      split at h
      · next hempty =>
          cases h
          exact sends_header hempty
      split at h
      · cases h
      split at h
      · cases h
      next cipher last hcbc =>
      cases h
      exact sends_body (body_zeros hbs) (enciphersD40 hchan hcbc)
  · next hother =>
      cases h
      have hplain : card.mode = .plain := by
        cases hm : card.mode with
        | plain => rfl
        | mac => exact absurd (.inl hm) hmaced
        | enc => exact absurd (.inl hm) henc
        | encPadded => exact absurd (.inr hm) henc
        | encPlain => exact absurd hm hother
      rw [if_pos hplain]
      exact sends_open

/-- EV1 MACs every command and sends the MAC of few. -/
theorem encodeEv1_macs {cmd : UInt8} {src out : Bytes} {cap : Nat}
    {card card' : Card} (hchan : card.channel = .ev1)
    (hmaced : card.mode = .plain ∨ card.mode = .mac ∨ (card.mode = .enc ∧
      src.length ≤ min (cmdHeaderLen cmd src.length) src.length))
    (h : encodeEv1 cmd src cap card = (.ok out, card')) :
    Sends card cmd src
      (.open src (decide (card.mode = .mac) && transmitsMac card cmd)) out := by
  simp only [encodeEv1] at h
  rw [if_pos hmaced] at h
  split at h
  · cases h
  split at h
  · cases h
  next full hfull =>
  split at h
  · next hmac =>
      split at h
      · cases h
      cases h
      have htx : transmitsMac card cmd = true := hmac.2
      rw [decide_eq_true hmac.1, htx]
      refine sends_mac ?_
      simp only [MacsRequest, macLength, hchan]
      exact ⟨full, hfull, rfl⟩
  · next hno =>
      cases h
      have hopen : (decide (card.mode = .mac) && transmitsMac card cmd) =
          false := by
        refine Bool.eq_false_of_not_eq_true fun hyes => hno ?_
        obtain ⟨hm, htx⟩ := Bool.and_eq_true_iff.mp hyes
        exact ⟨of_decide_eq_true hm, htx⟩
      rw [hopen]
      exact sends_open

theorem encodeEv1_sends {cmd : UInt8} {src out : Bytes} {cap : Nat}
    {card card' : Card} (hchan : card.channel = .ev1)
    (h : encodeEv1 cmd src cap card = (.ok out, card')) :
    Sends card cmd src (requestShape cmd src card) out := by
  have hbs := blockSize_pos card.keyType
  simp only [requestShape, hchan]
  by_cases hmaced : card.mode = .plain ∨ card.mode = .mac ∨
      (card.mode = .enc ∧
        src.length ≤ min (cmdHeaderLen cmd src.length) src.length)
  · rw [if_pos hmaced]
    exact encodeEv1_macs hchan hmaced h
  simp only [encodeEv1] at h
  rw [if_neg hmaced] at h ⊢
  have hle := Nat.min_le_right (cmdHeaderLen cmd src.length) src.length
  generalize min (cmdHeaderLen cmd src.length) src.length = hdr
    at h hle hmaced ⊢
  split at h
  · cases h
  have htail := pad_length card.mode
  split at h
  · generalize (if card.mode = .encPadded then ([0x80] : Bytes) else []) =
      tail at h htail
    generalize (if card.mode = .encPadded then 1 else 0) = extra at h htail
    split at h
    · cases h
    split at h
    · cases h
    next cipher last hcbc =>
    cases h
    exact sends_body (body_crc hbs hle (length_crc32 _) htail)
      (enciphersEv1 hchan hcbc)
  next henc =>
  split at h
  · split at h
    · next hempty =>
        cases h
        exact sends_header hempty
    split at h
    · cases h
    split at h
    · cases h
    next cipher last hcbc =>
    cases h
    exact sends_body (body_zeros hbs) (enciphersEv1 hchan hcbc)
  · next hother =>
      cases hm : card.mode with
      | plain => exact absurd (.inl hm) hmaced
      | mac => exact absurd (.inr (.inl hm)) hmaced
      | enc => exact absurd (.inl hm) henc
      | encPadded => exact absurd (.inr hm) henc
      | encPlain => exact absurd hm hother

theorem ev2Cmac_iv (card : Card) (iv : Buf 16) (cmd : UInt8) (data : Bytes) :
    ev2Cmac { card with iv := iv } cmd data = ev2Cmac card cmd data := rfl

theorem enciphersEv2 {card after : Card} {plain cipher : Bytes} {room : Nat}
    (hchan : card.channel = .ev2 ∨ card.channel = .lrp)
    (h : ev2Encipher plain room card = (.ok cipher, after)) :
    EnciphersRequest card plain cipher := by
  rcases hchan with hc | hc
  · simp only [EnciphersRequest, hc]
    exact ⟨room, after, h⟩
  · simp only [EnciphersRequest, hc]
    exact ⟨room, after, h⟩

theorem macsEv2 {card : Card} {cmd : UInt8} {src sent mac : Bytes}
    (hchan : card.channel = .ev2 ∨ card.channel = .lrp)
    (h : ev2Cmac card cmd sent = .ok mac) :
    MacsRequest card cmd src sent mac := by
  rcases hchan with hc | hc
  · simp only [MacsRequest, hc]
    exact h
  · simp only [MacsRequest, hc]
    exact h

theorem encodeEv2_sends {cmd : UInt8} {src out : Bytes} {cap : Nat}
    {card card' : Card} (hchan : card.channel = .ev2 ∨ card.channel = .lrp)
    (h : encodeEv2 cmd src cap card = (.ok out, card')) :
    Sends card cmd src (requestShape cmd src card) out := by
  have hshape : requestShape cmd src card =
      if card.mode = .mac then .open src true
      else if card.mode = .plain then .open src false
      else .closed (min (cmdHeaderLen cmd src.length) src.length) src true := by
    rcases hchan with hc | hc
    · simp only [requestShape, hc]
    · simp only [requestShape, hc]
  rw [hshape]
  simp only [encodeEv2] at h
  generalize min (cmdHeaderLen cmd src.length) src.length = hdr at h ⊢
  split at h
  · cases h
  split at h
  · next hmode =>
      rw [if_pos hmode]
      split at h
      · cases h
      next mac hmac =>
      split at h
      · cases h
      cases h
      exact sends_mac (macsEv2 hchan hmac)
  next hmode =>
  rw [if_neg hmode]
  split at h
  · next henc =>
      rw [if_neg (by rcases henc with he | he | he <;> rw [he] <;> decide)]
      split at h
      · cases h
      split at h
      · cases h
      next cipher after hdone =>
      split at h
      · cases h
      next mac hmac =>
      split at h
      · cases h
      cases h
      refine ⟨(List.take_append_drop hdr src).symm, cipher, mac, rfl, ?_, ?_⟩
      · split at hdone
        · next hbody =>
            obtain ⟨pad, hpad⟩ := @body_padded src [0x80] hdr
              (src.length + 1 - hdr) aesBlock (by decide)
              (by rw [List.length_singleton]; omega)
            rw [hpad] at hdone
            exact .inr ⟨pad, enciphersEv2 hchan hdone⟩
        · next hbody =>
            cases hdone
            exact .inl ⟨List.drop_of_length_le (Nat.le_of_not_lt hbody), rfl⟩
      · refine macsEv2 hchan ?_
        split at hdone
        · obtain ⟨iv, hiv⟩ := ev2Encipher_frame
            (Bytes.fit (paddedLen (src.length + 1 - hdr) aesBlock)
              (src.drop hdr ++ [0x80])) (cap - hdr) card
          rw [hdone] at hiv
          cases hiv
          exact (ev2Cmac_iv card iv cmd _).symm.trans hmac
        · cases hdone
          exact hmac
  · next hother =>
      cases h
      have hplain : card.mode = .plain := by
        cases hm : card.mode with
        | plain => rfl
        | mac => exact absurd hm hmode
        | enc => exact absurd (.inl hm) hother
        | encPadded => exact absurd (.inr (.inl hm)) hother
        | encPlain => exact absurd (.inr (.inr hm)) hother
      rw [if_pos hplain]
      exact sends_open

/-- What `channelEncode` sends has the shape of the request. -/
theorem channelEncode_sends {cmd : UInt8} {src out : Bytes} {cap : Nat}
    {card card' : Card}
    (h : channelEncode cmd src cap card = (.ok out, card')) :
    Sends (remember cmd src card) cmd src
      (requestShape cmd src (remember cmd src card)) out := by
  have hnoted : ({ card with
      lastCmd := cmd
      lastRequestZeroLen :=
        decide (src.length ≤ cmdHeaderLen cmd src.length) } : Card) =
      remember cmd src card := rfl
  rw [channelEncode, hnoted] at h
  generalize remember cmd src card = noted at h ⊢
  split at h
  · next hchan => exact encodeD40_sends hchan h
  · next hchan => exact encodeEv1_sends hchan h
  · next hchan => exact encodeEv2_sends (.inl hchan) h
  · next hchan => exact encodeEv2_sends (.inr hchan) h
  · next hchan =>
      have hshape : requestShape cmd src noted = .open src false := by
        simp only [requestShape, hchan]
      rw [hshape]
      rw [(delivered_copy h).1]
      exact sends_open

/-- The header of a request is sent as it is. -/
theorem Sends.header {card before : Card} {cmd : UInt8} {src out : Bytes}
    (h : Sends before cmd src (requestShape cmd src card) out) {n : Nat}
    (hn : n ≤ min (cmdHeaderLen cmd src.length) src.length) :
    out.take n = src.take n := by
  obtain ⟨-, cipher, mac, rfl, -⟩ := h
  obtain ⟨more, hclear⟩ := shape_clear cmd src card
  have hlen : n ≤ (src.take (min (cmdHeaderLen cmd src.length)
      src.length)).length := by
    rw [List.length_take]
    omega
  rw [← hclear, List.append_assoc, List.append_assoc,
    List.take_append_of_le_length hlen, List.take_take, Nat.min_eq_left hn]

end

end Nxpsc
