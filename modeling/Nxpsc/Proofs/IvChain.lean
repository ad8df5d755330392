import Nxpsc.Proofs.Exchange
import Nxpsc.Proofs.Handshake
import Nxpsc.Spec.IvChain

/-!
# The IV chain of an EV1 session

The handle moves its IV with the card's at every MAC and whenever it enciphers.
It does not when it deciphers an answer, which it does on a copy of its IV, nor
where it takes an answer as it comes or sends a request as it is. `MovesChain`
leaves these out, and along a run of what is left the two stay together.
-/

namespace Nxpsc

open Dialogue

/-! ## The handle's side -/

theorem header_all {cmd : UInt8} {src : Bytes} :
    src.length ≤ min (cmdHeaderLen cmd src.length) src.length ↔
      src.length ≤ cmdHeaderLen cmd src.length := by
  rw [Nat.le_min]
  exact ⟨fun h => h.1, fun h => ⟨h, Nat.le_refl _⟩⟩

theorem chainIv_put {card card' : Card} {block : Bytes}
    (hlen : block.length = blockSize card.keyType)
    (hiv : card'.iv = card.iv.put block)
    (htype : card'.keyType = card.keyType) :
    card'.chainIv = block := by
  have hle : block.length ≤ 16 := by
    rw [hlen]
    exact blockSize_le card.keyType
  rw [Card.chainIv, htype, hiv, ← hlen]
  exact Buf.put_take hle

/-- An answer with a MAC is not enciphered. -/
theorem MovesByAnswer.plain {clear : Bool} {mode : Mode}
    (h : MovesByAnswer clear mode) : answerEnciphered clear mode = false := by
  rcases h with rfl | rfl | ⟨rfl, rfl⟩
  · rfl
  · rfl
  · rfl

section

variable [BlockCipher]

theorem chainMac_eq {card : Card} {message mac : Bytes}
    (h : cmac card.keyType card.sessionMac.bytes card.iv.bytes message 0 =
      .ok mac) :
    chainMac card.keyType card.sessionMac.bytes card.chainIv message = mac := by
  rw [chainMac, Card.chainIv, cmac_take, h]

/-- The ciphertext on the wire ends in the block the sender continues from. -/
theorem lastBlock_sent {card : Card} {hdr input out last : Bytes}
    (h : cbcCrypt card.keyType card.sessionEnc.bytes card.iv.bytes input true =
      .ok (out, last)) :
    lastBlock card.keyType (hdr ++ out) = last ∧
      last.length = blockSize card.keyType := by
  obtain ⟨hpos, hmod, hout, hlast⟩ := cbcCryptEx_ok (card_iv card) h
  have hle : blockSize card.keyType ≤ input.length :=
    Nat.le_of_dvd hpos (Nat.dvd_of_mod_eq_zero hmod)
  refine ⟨?_, hlast⟩
  have hsplit : hdr.length + out.length - blockSize card.keyType =
      hdr.length + (out.length - blockSize card.keyType) := by omega
  rw [cbcCryptEx_send_last (card_iv card) h, lastBlock, List.length_append,
    hsplit, List.drop_append, List.drop_of_length_le (Nat.le_add_right _ _),
    Nat.add_sub_cancel_left, List.nil_append]

/-- Encoding moves the handle's chain as the card's. -/
theorem encodeEv1_iv {cmd : UInt8} {src sent : Bytes} {cap : Nat} {clear : Bool}
    {card card' : Card}
    (hclear : clear = decide (src.length ≤ cmdHeaderLen cmd src.length))
    (hmoves : MovesByRequest clear card.mode)
    (h : encodeEv1 cmd src cap card = (.ok sent, card')) :
    card'.chainIv = requestIv card.keyType card.sessionMac.bytes card.chainIv
      cmd src sent clear card.mode := by
  simp only [encodeEv1, header_all] at h
  split at h
  · cases h
  split at h
  · next hmac =>
      have hplain : requestEnciphered clear card.mode = false := by
        rcases hmac with hm | hm | ⟨hm, hall⟩
        · rw [hm, requestEnciphered]
        · rw [hm, requestEnciphered]
        · rw [hm, requestEnciphered, hclear, decide_eq_true hall]
          rfl
      have hreq : requestIv card.keyType card.sessionMac.bytes card.chainIv
          cmd src sent clear card.mode = chainMac card.keyType
            card.sessionMac.bytes card.chainIv (cmd :: src) := by
        rw [requestIv, hplain, if_neg Bool.false_ne_true]
      obtain ⟨mac, hmac, hlen⟩ := cmac_isOk (cmd :: src) 0 (card_iv card)
      rw [hreq, chainMac_eq hmac]
      simp only [hmac] at h
      split at h
      · split at h <;> cases h
        exact chainIv_put hlen rfl rfl
      · cases h
        exact chainIv_put hlen rfl rfl
  next hmac =>
  split at h
  · next henc =>
      have hsecret : requestEnciphered clear card.mode = true := by
        rcases henc with hm | hm
        · have hbody : ¬ src.length ≤ cmdHeaderLen cmd src.length :=
            fun hall => hmac (.inr (.inr ⟨hm, hall⟩))
          rw [hm, requestEnciphered, hclear, decide_eq_false hbody]
          rfl
        · rw [hm, requestEnciphered]
      have hreq : requestIv card.keyType card.sessionMac.bytes card.chainIv
          cmd src sent clear card.mode = lastBlock card.keyType sent := by
        rw [requestIv, if_pos hsecret]
      -- whatever the padding is
      generalize (if card.mode = .encPadded then 1 else 0) = pad at h
      generalize (if card.mode = .encPadded then [0x80] else []) = tail at h
      split at h
      · cases h
      split at h
      · cases h
      next out last hcbc =>
      cases h
      obtain ⟨hlast, hlen⟩ := lastBlock_sent hcbc
      rw [hreq, hlast]
      exact chainIv_put hlen rfl rfl
  next henc =>
  split at h
  · next hplain =>
      have hbody := hmoves hplain
      rw [hclear, decide_eq_false_iff_not] at hbody
      rw [if_neg hbody] at h
      have hsecret : requestEnciphered clear card.mode = true := by
        rw [hplain, requestEnciphered, hmoves hplain]
        rfl
      have hreq : requestIv card.keyType card.sessionMac.bytes card.chainIv
          cmd src sent clear card.mode = lastBlock card.keyType sent := by
        rw [requestIv, if_pos hsecret]
      split at h
      · cases h
      split at h
      · cases h
      next out last hcbc =>
      cases h
      obtain ⟨hlast, hlen⟩ := lastBlock_sent hcbc
      rw [hreq, hlast]
      exact chainIv_put hlen rfl rfl
  · next hplain =>
      -- there is no further mode
      cases hm : card.mode <;> simp_all

/-- Decoding moves it as the card's too, when there is a MAC to check. -/
theorem decodeEv1_iv {src out : Bytes} {status : UInt8} {cap : Nat}
    {card card' : Card} (hchan : card.channel = .ev1)
    (h : decodeEv1 src status cap card = (.ok out, card'))
    (hmoves : MovesByAnswer card.lastRequestZeroLen card.mode) :
    card'.chainIv = answerIv card.keyType card.sessionMac.bytes card.chainIv
      card.lastRequestZeroLen card.mode src status := by
  have hmac8 : macLength card = 8 := by rw [macLength, hchan]
  have hans : answerIv card.keyType card.sessionMac.bytes card.chainIv
      card.lastRequestZeroLen card.mode src status =
      chainMac card.keyType card.sessionMac.bytes card.chainIv
        (src.take (src.length - 8) ++ [status]) := by
    rw [answerIv, hmoves.plain, if_neg fun h => Bool.noConfusion h.1]
  simp only [decodeEv1, hmac8] at h
  rw [if_pos (show _ ∨ _ ∨ _ from hmoves)] at h
  split at h
  · cases h
  obtain ⟨mac, hmac, hlen⟩ :=
    cmac_isOk (src.take (src.length - 8) ++ [status]) 0 (card_iv card)
  rw [hans, chainMac_eq hmac]
  simp only [hmac] at h
  split at h
  · cases h
  · simp only [Prod.mk.injEq] at h
    rw [← h.2]
    exact chainIv_put hlen rfl rfl

/-! ## A step of a session -/

theorem channelDecode_ev1 {card : Card} (hchan : card.channel = .ev1)
    {src : Bytes} {status : UInt8} {cap : Nat} :
    channelDecode src status cap card = decodeEv1 src status cap card := by
  rw [channelDecode, hchan]

/-- Making a request moves the chain, and notes whether there was a body. -/
theorem exchangeRequest_ev1 {cmd : UInt8} {data sent : Bytes}
    {txMode rxMode : Mode} {card card₁ : Card} (hchan : card.channel = .ev1)
    (h : exchangeRequest cmd data txMode rxMode card = (.ok sent, card₁))
    {clear : Bool}
    (hclear : clear = decide (data.length ≤ cmdHeaderLen cmd data.length))
    (hmoves : MovesByRequest clear txMode) :
    card₁.chainIv = requestIv card.keyType card.sessionMac.bytes card.chainIv
        cmd data sent clear txMode ∧
      card₁.lastRequestZeroLen = clear := by
  rw [exchangeRequest] at h
  split at h
  · cases h
  simp only [channelEncode, hchan] at h
  refine ⟨encodeEv1_iv hclear hmoves h, ?_⟩
  obtain ⟨iv, mode, hframe⟩ := encodeEv1_frame cmd data maxResponse
    { card with
      mode := txMode, macMismatch := false, lastCmd := cmd,
      lastRequestZeroLen :=
        decide (data.length ≤ cmdHeaderLen cmd data.length) }
  simp only [hchan, h] at hframe
  rw [hframe, hclear]

theorem chain_step {st : ExchangeStep} (h : st.Of exchangeOf)
    (hok : st.result = .ok ()) (hchan : st.before.channel = .ev1)
    (hmoves : MovesChain st) :
    ChainInStep st.before.chainIv st ∧ st.after.channel = .ev1 := by
  obtain ⟨r, hr, hends⟩ := exchangeOf_done h
  rw [hok] at hr
  cases r with
  | error e => cases hr
  | ok out =>
      obtain ⟨sent, raw, card₁, card₂, status, hreq, hraw, hst, hans⟩ :=
        hends.succeeds
      obtain ⟨hiv₁, hzero⟩ := exchangeRequest_ev1 hchan hreq
        (show clearOf st = _ from rfl) hmoves.1
      have hsent : sentOf st = sent := by rw [sentOf, hreq]
      obtain ⟨hdata, pre, q, a, hsaid, ha⟩ := hraw.answer
      have hrawOf : rawOf st = raw := by
        rw [rawOf, hdata, exchangeRequest_ok hreq]
        rfl
      have hstatus : statusOf st = status := by
        rw [statusOf, hsaid, List.getLast?_concat]
        simp only [ha, Option.getD_some]
      -- the handle that decodes: nothing moved since the request
      obtain ⟨_, _, _, _, hframe⟩ := exchangeRequest_frame hreq
      obtain ⟨status', hraw'⟩ := hraw.frame
      have hchan₂ : card₂.channel = .ev1 := by rw [hraw', hframe]; exact hchan
      have hquiet : ¬ (status ≠ dfSAdditionalFrame ∧
          card₂.authenticated = true ∧
          (card₂.channel = .ev2 ∨ card₂.channel = .lrp)) := by
        rw [hchan₂]
        rintro ⟨-, -, hev2 | hlrp⟩
        · cases hev2
        · cases hlrp
      rw [exchangeAnswer, hst, if_neg Bool.false_ne_true, if_neg hquiet,
        channelDecode_ev1 (by exact hchan₂)] at hans
      have htype : card₂.keyType = st.before.keyType := by rw [hraw', hframe]
      have hkey : card₂.sessionMac = st.before.sessionMac := by
        rw [hraw', hframe]
      have hzero₂ : card₂.lastRequestZeroLen = clearOf st := by
        rw [hraw']
        exact hzero
      have hiv₂ : card₂.chainIv = cardRequestIv st.before.chainIv st := by
        rw [cardRequestIv, hsent, ← hiv₁, hraw']
        rfl
      have hdec := decodeEv1_iv (by exact hchan₂) hans
        (by simpa only [hzero₂] using hmoves.2)
      obtain ⟨iv, mismatch, hafter⟩ := decodeEv1_frame raw status st.call.cap
        { card₂ with mode := st.call.rxMode }
      rw [hans] at hafter
      change st.after = _ at hafter
      refine ⟨⟨?_, ?_⟩, ?_⟩
      · rw [hreq, cardRequestIv, hsent]
        exact hiv₁
      · rw [cardIv, hrawOf, hstatus, ← hiv₂, ← htype, ← hkey, ← hzero₂]
        exact hdec
      · rw [hafter]
        exact hchan₂

/-- In every run of successful exchanges after an authentication on EV1 that
all move the chain of the handle, it holds the IV of a card that starts from zeros
and continues from the last block of its previous operation. -/
theorem iv_chain_in_step {rng : Rng} {keyNo : UInt8} {key : Option Key}
    {channel : Channel} {card₀ card card' : Card} {script rest : List Answer}
    {said : Said} {steps : List ExchangeStep}
    (hauth : authenticate rng keyNo key channel card₀ script =
      .done said (.ok ()) card rest)
    (hchan : card.channel = .ev1) (hrun : Run exchangeOf card steps card')
    (hok : ∀ st ∈ steps, st.result = .ok ())
    (hmoves : ∀ st ∈ steps, MovesChain st) :
    Along cardIv ChainInStep (Bytes.zeros (blockSize card.keyType)) steps := by
  have hiv := (leaves_authenticate _ _ _ _ _ _ _ _ _ _ hauth).2 hchan
  have hzero : card.chainIv = Bytes.zeros (blockSize card.keyType) := by
    have hle : blockSize card.keyType ≤ 16 := blockSize_le card.keyType
    rw [Card.chainIv, hiv, Buf.bytes_zero, Bytes.zeros, List.take_replicate,
      Nat.min_eq_left hle]
    rfl
  rw [← hzero]
  refine (hrun.along
    (fun iv card => card.channel = .ev1 ∧ card.chainIv = iv)
    (fun _ st => st.result = .ok () ∧ MovesChain st) ?_ ⟨hchan, rfl⟩
    (along_const fun st hst => ⟨hok st hst, hmoves st hst⟩)).1
  rintro iv st hof ⟨hchan, hiv⟩ ⟨hok, hmoves⟩
  subst hiv
  obtain ⟨hstep, hchan'⟩ := chain_step hof hok hchan hmoves
  exact ⟨hstep, hchan', hstep.2⟩

end

/-! ### Two commands after a handshake -/

/-- The identity cipher accepts a card that answers with zeros. -/
def zeroHandshakeEv1 : List Answer :=
  [.ok (0xAF :: Bytes.zeros 16), .ok (0x00 :: Bytes.zeros 16)]

def macedFileIds : Request := ⟨dfGetFileIds, [], .plain, .mac, 16⟩

def encipheredUid : Request := ⟨dfGetCardUid, [], .plain, .enc, 16⟩

/-- The CMAC of the command under the identity cipher, which is where an
enciphered answer continues. -/
def uidRequestMac : Bytes := [dfGetCardUid, 0x80] ++ Bytes.zeros 14

/-- One byte with its checksum, enciphered by the identity. -/
def encipheredAnswer : Bytes :=
  Bytes.xor ([0x04] ++ crc32 [0x04, 0x00] ++ Bytes.zeros 11) uidRequestMac

theorem iv_chain_in_step_maced :
    ∃ said card st,
      @authenticate .identity (.ok []) 0 (some zeroKey) .ev1 (Card.opened none)
        zeroHandshakeEv1 = .done said (.ok ()) card [] ∧
      @Run _ _ _ _ _ (@exchangeOf .identity) card [st] st.after ∧
      Along (@cardIv .identity) (@ChainInStep .identity)
        (Bytes.zeros (blockSize card.keyType)) [st] := by
  obtain ⟨said, card, said', card', hauth, hchan, hex⟩ :
      ∃ said card said' card',
        @authenticate .identity (.ok []) 0 (some zeroKey) .ev1
          (Card.opened none) zeroHandshakeEv1 = .done said (.ok ()) card [] ∧
        card.channel = .ev1 ∧
        @exchangeOf .identity macedFileIds card
          [.ok ([0x00, 0x6F] ++ Bytes.zeros 7)] =
          .done said' (.ok ()) card' [] :=
    ⟨_, _, _, _, rfl, rfl, rfl⟩
  have hrun : @Run _ _ _ _ _ (@exchangeOf .identity) card
      [⟨macedFileIds, card, said', .ok (), card'⟩] card' :=
    .cons_done hex .nil
  refine ⟨said, card, _, hauth, hrun, ?_⟩
  refine @iv_chain_in_step .identity _ _ _ _ _ _ _ _ _ _ _ hauth hchan hrun
    (fun st hst => ?_) fun st hst => ?_
  · rw [List.mem_singleton.mp hst]
  · rw [List.mem_singleton.mp hst]
    exact ⟨Mode.noConfusion, .inr (.inl rfl)⟩

set_option maxRecDepth 20000 in
/-- An enciphered answer leaves the handle where the request left it. -/
theorem iv_chain_may_fall_behind :
    ¬ ∀ (_ : BlockCipher) (rng : Rng) (keyNo : UInt8) (key : Option Key)
      (channel : Channel) (card₀ card card' : Card)
      (script rest : List Answer) (said : Said) (steps : List ExchangeStep),
      authenticate rng keyNo key channel card₀ script =
        .done said (.ok ()) card rest →
      card.channel = .ev1 → Run exchangeOf card steps card' →
      (∀ st ∈ steps, st.result = .ok ()) →
      Along cardIv ChainInStep (Bytes.zeros (blockSize card.keyType))
        steps := by
  intro hall
  obtain ⟨said, card, said', card', hauth, hchan, hex, hiv⟩ :
      ∃ said card said' card',
        @authenticate .identity (.ok []) 0 (some zeroKey) .ev1
          (Card.opened none) zeroHandshakeEv1 = .done said (.ok ()) card [] ∧
        card.channel = .ev1 ∧
        @exchangeOf .identity encipheredUid card
          [.ok (0x00 :: encipheredAnswer)] = .done said' (.ok ()) card' [] ∧
        card'.chainIv ≠
          @cardIv .identity (Bytes.zeros (blockSize card.keyType))
            ⟨encipheredUid, card, said', .ok (), card'⟩ :=
    ⟨_, _, _, _, rfl, rfl, rfl, by decide⟩
  have hchain := hall .identity _ _ _ _ _ card card' _ _ said _ hauth hchan
    (.cons_done hex .nil) fun st hst => by rw [List.mem_singleton.mp hst]
  exact hiv hchain.1.2

end Nxpsc
