import Mathlib.Data.List.GetD
import Nxpsc.Proofs.Agreement
import Nxpsc.Proofs.AnswerRule
import Nxpsc.Proofs.Cmac
import Nxpsc.Proofs.Wire
import Nxpsc.Spec.Peer

/-!
# Messages of a session come through

A request encoded for EV2 or LRP is read by the peer of `Spec.Peer` as what
was encoded, and an answer of the peer is decoded as what it answered, for
every command and payload. After either the two sides still share one
session: on LRP a direction moves the counter of both by the blocks it
enciphered, whichever of them it was that sent.

The header needs an argument of its own: the peer takes its length from the
command and from the body, which has grown by then. A header that is all of
the payload leaves nothing to encipher, and every other one is of a length
that does not look at the payload.
-/

namespace Nxpsc

/-! ## Padding -/

/-- The scan from the end steps over the zeros and stops at the mark. -/
theorem iso9797M2Len_zeros (xs : Bytes) {n m : Nat} (hm : m ≤ n) :
    iso9797M2Len (xs ++ Bytes.padMark :: Bytes.zeros n)
      (xs.length + 1 + m) = xs.length := by
  have hbehind : ∀ i, (xs ++ Bytes.padMark :: Bytes.zeros n).getD
      (xs.length + i) 0 = (Bytes.padMark :: Bytes.zeros n).getD i 0 := by
    intro i
    rw [List.getD_append_right _ _ _ _ (Nat.le_add_right _ i),
      Nat.add_sub_cancel_left]
  induction m with
  | zero =>
      have hmark := hbehind 0
      rw [iso9797M2Len]
      exact if_pos hmark
  | succ m ih =>
      have hzero : (xs ++ Bytes.padMark :: Bytes.zeros n).getD
          (xs.length + 1 + m) 0 = 0 := by
        rw [Nat.add_assoc, Nat.add_comm 1 m, hbehind, List.getD_cons_succ,
          Bytes.zeros]
        exact List.getD_replicate _ (by omega)
      rw [← Nat.add_assoc, iso9797M2Len, hzero, if_neg (by decide),
        if_neg fun h => h rfl]
      exact ih (by omega)

theorem iso9797M2Len_pad (data : Bytes) :
    iso9797M2Len (Bytes.pad aesBlock data) (Bytes.pad aesBlock data).length =
      data.length := by
  rw [Bytes.length_pad, Bytes.pad]
  exact iso9797M2Len_zeros data (Nat.le_refl _)

theorem take_pad (data : Bytes) :
    (Bytes.pad aesBlock data).take data.length = data := by
  rw [Bytes.pad, List.take_left]

/-! ## Headers -/

/-- A header is all of the payload or of a length of its own. -/
theorem cmdHeaderLen_cases (cmd : UInt8) :
    (∀ n, cmdHeaderLen cmd n = n) ∨
      ∃ len, ∀ n, cmdHeaderLen cmd n = len := by
  simp only [cmdHeaderLen]
  cases hrow : cmdHeaders.lookup cmd with
  | none => exact .inr ⟨0, fun _ => rfl⟩
  | some row =>
      cases row with
      | all => exact .inl fun _ => rfl
      | fixed len => exact .inr ⟨len, fun _ => rfl⟩
      | allExceptMac =>
          obtain ⟨front, back, hrows, -⟩ := List.lookup_eq_some_iff.mp hrow
          have hmem : (cmd, HdrLen.allExceptMac) ∈ cmdHeaders := by
            rw [hrows]
            exact List.mem_append_right _ (.head _)
          simp [cmdHeaders] at hmem

/-! ## The pieces, on both sides -/

theorem peer_iv_put {card : Card} {counter : Bytes}
    (h : counter.length = 4) :
    { card with iv := card.iv.put counter }.peer =
      { card.peer with iv := counter } := by
  simp only [Card.peer, Buf.put_take_eq h (by omega : 4 ≤ 16)]

section

variable [c : BlockCipher]

/-- The bytes of a key behind the sixteenth are nothing to AES-128. -/
theorem sameCipher_take (key : Bytes) :
    SameCipher .aes128 (key.take aesBlock) key := by
  constructor
  · funext block
    rw [ecbEncryptBlock, ecbEncryptBlock, List.take_take, keySize, aesBlock,
      Nat.min_self]
  · funext block
    rw [ecbDecryptBlock, ecbDecryptBlock, List.take_take, keySize, aesBlock,
      Nat.min_self]

/-- The MAC of the handle is the card's. -/
theorem ev2Cmac_peer (card : Card) (cmd : UInt8) (body : Bytes) :
    ev2Cmac card cmd body = .ok (peerMac card.onLrp card.peer cmd body) := by
  rw [ev2Cmac, peerMac, Card.onLrp]
  split
  · next hlrp =>
      rw [if_pos (beq_iff_eq.mpr hlrp), Card.peer, ← lrpCmac8_card,
        lrpInit_take]
      rfl
  · next hlrp =>
      rw [if_neg fun heq => hlrp (beq_iff_eq.mp heq), Card.peer, cardMac_take,
        ← truncateMac_nist, cmac_zero]
      rfl

theorem peerMac_eq {card : Card} {cmd : UInt8} {body mac : Bytes}
    (h : ev2Cmac card cmd body = .ok mac) :
    peerMac card.onLrp card.peer cmd body = mac :=
  Except.ok.inj ((ev2Cmac_peer card cmd body).symm.trans h)

theorem length_peerMac (lrp : Bool) (s : Shared) (cmd : UInt8) (body : Bytes) :
    (peerMac lrp s cmd body).length = 8 := by
  simp only [peerMac]
  split
  · exact length_cardLrpMac _ _
  · exact length_cardMac _ _

theorem peerIv_request (card : Card) :
    peerIv card.peer requestLabel = ev2FillIv card true := by
  rw [peerIv, ev2FillIv, Card.peer, (sameCipher_take _).encrypt]
  rfl

theorem peerIv_answer (card : Card) :
    peerIv card.peer answerLabel = ev2FillIv card false := by
  rw [peerIv, ev2FillIv, Card.peer, (sameCipher_take _).encrypt]
  rfl

theorem length_ev2FillIv (card : Card) (forCommand : Bool) :
    (ev2FillIv card forCommand).length = blockSize .aes128 :=
  ecbEncryptBlock_length (Bytes.length_fit aesBlock _)

/-- The other side recovers what it is sent, and its counter moves as far. -/
theorem lrpReceived_sent (hinv : DecryptInverts c) (session counter : Bytes)
    {data : Bytes} (hmod : data.length % aesBlock = 0) :
    lrpReceived session counter (lrpSent session counter data).1 =
      (data, (lrpSent session counter data).2) := by
  have hcount : data.length = data.length / aesBlock * aesBlock :=
    (Nat.div_mul_cancel (Nat.dvd_of_mod_eq_zero hmod)).symm
  have hlen := length_lrpSent session counter hmod
  have hback := lrpBlocks_sent hinv
    (lrpSetCounter (lrpInit session 1 false) counter 8) hmod
  simp only [lrpReceived, hlen]
  simp only [lrpSent, hback, Bytes.flatten_chunks hcount]

theorem lrpSent_take (session counter data : Bytes) :
    lrpSent (session.take aesBlock) counter data =
      lrpSent session counter data := by
  rw [lrpSent, lrpInit_take]
  rfl

/-- A body the library enciphers is deciphered by the peer, and the two
sides stay together. -/
theorem ev2Encipher_deciphered (hinv : DecryptInverts c) (body : Bytes)
    (room : Nat) (card : Card) (hpos : 0 < body.length)
    (hmod : body.length % aesBlock = 0) (hroom : body.length ≤ room) :
    ∃ out iv, ev2Encipher body room card = (.ok out, { card with iv := iv }) ∧
      out.length = body.length ∧
      peerDeciphers card.onLrp card.peer requestLabel out =
        (body, { card with iv := iv }.peer) := by
  by_cases hlrp : card.channel = .lrp
  · have hcounter : card.iv.bytes.take 4 = (card.iv.bytes.take 4).take 4 := by
      rw [List.take_take, Nat.min_self]
    obtain ⟨ctx', hencode, hctr⟩ := lrpEncode_sent card.sessionEnc.bytes
      hcounter hpos hmod hroom
    have hlen : (ctx'.counter.bytes.take 4).length = 4 := by
      rw [List.length_take, ctx'.counter.size]
      rfl
    refine ⟨(lrpSent card.sessionEnc.bytes (card.iv.bytes.take 4) body).1,
      card.iv.put (ctx'.counter.bytes.take 4), ?_, length_lrpSent _ _ hmod, ?_⟩
    · rw [ev2Encipher, if_pos hlrp, hencode]
    · have hback := lrpReceived_sent hinv
        (card.sessionEnc.bytes.take aesBlock) (card.iv.bytes.take 4) hmod
      rw [lrpSent_take] at hback
      rw [peerDeciphers, Card.onLrp, if_pos (beq_iff_eq.mpr hlrp),
        peer_iv_put hlen, hctr]
      simp only [Card.peer, hback]
  · have hiv := Nat.le_of_eq (length_ev2FillIv card true).symm
    have hsends := (sameCipher_take card.sessionEnc.bytes).sends
      (ev2FillIv card true) hpos hmod
    refine ⟨(encSent .aes128 (card.sessionEnc.bytes.take aesBlock)
      (ev2FillIv card true) body).1, card.iv, ?_,
      length_encSent _ hinv hiv hmod, ?_⟩
    · rw [ev2Encipher, if_neg hlrp, cbcCrypt, hsends]
    · rw [peerDeciphers, Card.onLrp,
        if_neg fun heq => hlrp (beq_iff_eq.mp heq), peerIv_request]
      exact congrArg (fun x => (x.1, card.peer))
        (decReceived_encSent _ hinv hiv hmod)

/-- The same the other way round. -/
theorem ev2Decipher_enciphered (hinv : DecryptInverts c) {data : Bytes}
    (card : Card) (hpos : 0 < data.length)
    (hmod : data.length % aesBlock = 0) (hroom : data.length ≤ maxResponse) :
    ∃ out iv, peerEnciphers card.onLrp card.peer answerLabel data =
        (out, { card with iv := iv }.peer) ∧
      out.length = data.length ∧
      ev2Decipher out card = (.ok data, { card with iv := iv }) := by
  by_cases hlrp : card.channel = .lrp
  · have hcounter : card.iv.bytes.take 4 = (card.iv.bytes.take 4).take 4 := by
      rw [List.take_take, Nat.min_self]
    obtain ⟨ctx', hdecode, hctr⟩ := lrpDecode_sent hinv card.sessionEnc.bytes
      hcounter hpos hmod hroom
    have hlen : (ctx'.counter.bytes.take 4).length = 4 := by
      rw [List.length_take, ctx'.counter.size]
      rfl
    refine ⟨(lrpSent card.sessionEnc.bytes (card.iv.bytes.take 4) data).1,
      card.iv.put (ctx'.counter.bytes.take 4), ?_, length_lrpSent _ _ hmod, ?_⟩
    · rw [peerEnciphers, Card.onLrp, if_pos (beq_iff_eq.mpr hlrp),
        peer_iv_put hlen, hctr]
      simp only [Card.peer, lrpSent_take]
    · rw [ev2Decipher, if_pos hlrp, hdecode]
      rfl
  · have hiv := Nat.le_of_eq (length_ev2FillIv card false).symm
    have hreads := (sameCipher_take card.sessionEnc.bytes).reads hinv hiv hpos
      hmod
    refine ⟨(encSent .aes128 (card.sessionEnc.bytes.take aesBlock)
      (ev2FillIv card false) data).1, card.iv, ?_,
      length_encSent _ hinv hiv hmod, ?_⟩
    · rw [peerEnciphers, Card.onLrp,
        if_neg fun heq => hlrp (beq_iff_eq.mp heq), peerIv_answer]
      rfl
    · rw [ev2Decipher, if_neg hlrp, cbcCrypt, hreads]

/-! ## Requests -/

theorem ev2Cmac_length {card : Card} {cmd : UInt8} {data mac : Bytes}
    (h : ev2Cmac card cmd data = .ok mac) : mac.length = 8 := by
  rw [← peerMac_eq h]
  exact length_peerMac _ _ _ _

/-- A frame the peer finds the MAC of right, when it has nothing to
decipher. -/
theorem peerReads_clear {card : Card} {cmd : UInt8} {body mac : Bytes}
    {enc : Bool} (hmac : ev2Cmac card cmd body = .ok mac)
    (hclear : enc = false ∨ body.length ≤ cmdHeaderLen cmd body.length) :
    peerReads card.onLrp card.peer enc cmd (body ++ mac) =
      some (body, card.peer) := by
  have hlen := ev2Cmac_length hmac
  simp only [peerReads, Bytes.take_tail hlen, Bytes.drop_tail hlen,
    peerMac_eq hmac]
  rw [if_neg, if_pos hclear]
  rw [List.length_append, hlen]
  exact not_or.mpr ⟨by omega, fun h => h rfl⟩

/-- One with a padded body behind the header. -/
theorem peerReads_body {card : Card} {cmd : UInt8} {head out mac data : Bytes}
    {s : Shared}
    (hmac : ev2Cmac card cmd (head ++ out) = .ok mac)
    (hhead : cmdHeaderLen cmd (head ++ out).length = head.length)
    (hout : 0 < out.length)
    (hplain : peerDeciphers card.onLrp card.peer requestLabel out =
      (Bytes.pad aesBlock data, s)) :
    peerReads card.onLrp card.peer true cmd (head ++ out ++ mac) =
      some (head ++ data, s) := by
  have hlen := ev2Cmac_length hmac
  simp only [peerReads, Bytes.take_tail hlen, Bytes.drop_tail hlen,
    peerMac_eq hmac, hhead, List.take_left, List.drop_left, hplain,
    Bytes.unpad_pad, Option.map_some]
  rw [if_neg, if_neg]
  · rw [List.length_append]
    exact not_or.mpr ⟨fun h => Bool.noConfusion h, by omega⟩
  · rw [List.length_append, hlen]
    exact not_or.mpr ⟨by omega, fun h => h rfl⟩

theorem encodeEv2_read (hinv : DecryptInverts c) {cmd : UInt8} {src : Bytes}
    {cap : Nat} (card : Card) {enc : Bool}
    (hchan : card.channel = .ev2 ∨ card.channel = .lrp)
    (hmode : if enc then card.mode = .enc ∨ card.mode = .encPadded ∨
      card.mode = .encPlain else card.mode = .mac)
    (hcap : securedLen cmd src enc ≤ cap) :
    ∃ frame card', encodeEv2 cmd src cap card = (.ok frame, card') ∧
      peerReads card.onLrp card.peer enc cmd frame =
        some (src, card'.peer) := by
  have hmacLen : macLength card = 8 := by
    rcases hchan with h | h <;> rw [macLength, h]
  rw [securedLen] at hcap
  cases enc with
  | false =>
      have hmac : card.mode = .mac := hmode
      obtain ⟨mac, hok, -⟩ := ev2Cmac_isOk card cmd src
      rw [if_neg fun h => Bool.false_ne_true h.1] at hcap
      refine ⟨src ++ mac, card, ?_, peerReads_clear hok (.inl rfl)⟩
      simp only [encodeEv2, hmac, if_true, hok, hmacLen]
      rw [if_neg (by omega), if_neg (by omega)]
  | true =>
      have henc : card.mode = .enc ∨ card.mode = .encPadded ∨
          card.mode = .encPlain := hmode
      have hmac : card.mode ≠ .mac := by
        rintro h
        rw [h] at henc
        rcases henc with henc | henc | henc <;> cases henc
      by_cases hbody : cmdHeaderLen cmd src.length < src.length
      · rw [if_pos ⟨rfl, hbody⟩] at hcap
        rcases cmdHeaderLen_cases cmd with hall | ⟨hdr, hdr_eq⟩
        · rw [hall] at hbody
          exact absurd hbody (Nat.lt_irrefl _)
        rw [hdr_eq] at hbody hcap
        have hpad := fit_pad (by decide : 0 < aesBlock) (src.drop hdr)
        have hplen : paddedLen ((src.drop hdr).length + 1) aesBlock =
            (Bytes.pad aesBlock (src.drop hdr)).length := by
          rw [← hpad, Bytes.length_fit]
        rw [hplen] at hpad
        have hrest : src.length + 1 - hdr = (src.drop hdr).length + 1 := by
          rw [List.length_drop]
          omega
        have hgrow := Bytes.length_pad aesBlock (src.drop hdr)
        rw [List.length_drop] at hgrow
        obtain ⟨out, iv, hout, houtLen, hplain⟩ := ev2Encipher_deciphered hinv
          (Bytes.pad aesBlock (src.drop hdr)) (cap - hdr) card (by omega)
          (Bytes.length_pad_mod (by decide) _) (by omega)
        obtain ⟨mac, hok, -⟩ := ev2Cmac_isOk card cmd (src.take hdr ++ out)
        have hok' : ev2Cmac { card with iv := iv } cmd (src.take hdr ++ out) =
            .ok mac := hok
        have hhead : (src.take hdr).length = hdr := by
          rw [List.length_take]
          omega
        have hread := peerReads_body hok (by rw [hdr_eq, hhead]) (by omega)
          hplain
        rw [List.take_append_drop] at hread
        refine ⟨src.take hdr ++ out ++ mac,
          { card with iv := iv, mode := .enc }, ?_, hread⟩
        simp only [encodeEv2, hmac, henc, if_false, if_true, hdr_eq,
          Nat.min_eq_left (Nat.le_of_lt hbody), hbody, true_and, hrest,
          hplen, hmacLen, hpad, hout, hok']
        rw [if_neg (by omega), if_neg (by omega), if_neg (by omega)]
      · rw [if_neg fun h => hbody h.2] at hcap
        obtain ⟨mac, hok, -⟩ := ev2Cmac_isOk card cmd src
        refine ⟨src ++ mac, { card with mode := .enc }, ?_,
          peerReads_clear hok (.inr (by omega))⟩
        have hmin : min (cmdHeaderLen cmd src.length) src.length = src.length :=
          Nat.min_eq_right (by omega)
        simp only [encodeEv2, hmac, henc, if_false, if_true, hmin,
          Nat.lt_irrefl, false_and, List.take_length, List.append_nil,
          hok, hmacLen, List.length_nil]
        rw [if_neg (by omega), if_neg (by omega)]

/-! ## Answers -/

theorem decodeEv2_answered (hinv : DecryptInverts c) {data : Bytes}
    {cap : Nat} {card : Card} {enc : Bool}
    (hchan : card.channel = .ev2 ∨ card.channel = .lrp)
    (hmode : card.mode = if enc then .enc else .mac) (hdata : data ≠ [])
    (hcap : data.length ≤ cap)
    (hroom : enc = true → (Bytes.pad aesBlock data).length ≤ maxResponse) :
    ∃ frame card', peerAnswers card.onLrp card.peer enc data =
        (frame, card'.peer) ∧
      decodeEv2 frame cap card = (.ok data, card') := by
  have hmacLen : macLength card = 8 := by
    rcases hchan with h | h <;> rw [macLength, h]
  have hcopy : copyOutput cap data = .ok data := copyOutput_eq (by omega)
  cases enc with
  | false =>
      have hmac : card.mode = .mac := hmode
      obtain ⟨mac, hok, hlen⟩ := ev2Cmac_isOk card 0x00 data
      refine ⟨data ++ mac, card, ?_, ?_⟩
      · simp only [peerAnswers, Bool.false_eq_true, if_false, peerMac_eq hok]
      · simp only [decodeEv2, hmac, hmacLen, Bytes.take_tail hlen,
          Bytes.drop_tail hlen, hok, hcopy, ne_eq, not_true_eq_false,
          false_and, true_or, if_true, if_false]
        rw [if_neg (by rw [List.length_append, hlen]; omega)]
  | true =>
      have henc : card.mode = .enc := hmode
      have hpos := List.length_pos_iff.mpr hdata
      have hmod : (Bytes.pad aesBlock data).length % aesBlock = 0 :=
        Bytes.length_pad_mod (by decide) data
      have hgrow := Bytes.length_pad aesBlock data
      obtain ⟨out, iv, hsent, houtLen, hplain⟩ := ev2Decipher_enciphered hinv
        card (by omega) hmod (hroom rfl)
      obtain ⟨mac, hok, hlen⟩ := ev2Cmac_isOk card 0x00 out
      refine ⟨out ++ mac, { card with iv := iv }, ?_, ?_⟩
      · simp only [peerAnswers, if_true, hsent, peerMac_eq hok]
      · have hblock : ¬ out.length < aesBlock := by
          have := Nat.le_of_dvd (by omega) (Nat.dvd_of_mod_eq_zero hmod)
          omega
        have hout : (out ++ mac).length - 8 = out.length := by
          rw [List.length_append, hlen, Nat.add_sub_cancel]
        simp only [decodeEv2, henc, hmacLen, hout, List.take_left,
          List.drop_left, hok, hplain, ne_eq, reduceCtorEq,
          not_true_eq_false, not_false_eq_true, false_and, and_false,
          false_or, if_false, hblock]
        rw [if_neg (by rw [List.length_append, hlen]; omega), houtLen,
          iso9797M2Len_pad, if_neg (by omega), take_pad, hcopy]

/-! ## Both directions -/

/-- For every session, payload and answer. -/
theorem messages_round_trip (hinv : DecryptInverts c) (card : Card)
    (hchan : card.channel = .ev2 ∨ card.channel = .lrp) (enc : Bool)
    (hmode : card.mode = if enc then .enc else .mac) :
    (∀ cmd src cap, securedLen cmd src enc ≤ cap →
      ∃ frame card', channelEncode cmd src cap card = (.ok frame, card') ∧
        peerReads card.onLrp card.peer enc cmd frame =
          some (src, card'.peer)) ∧
    (∀ data status cap, data ≠ [] → data.length ≤ cap →
      (enc = true → (Bytes.pad aesBlock data).length ≤ maxResponse) →
      ∃ frame card', peerAnswers card.onLrp card.peer enc data =
          (frame, card'.peer) ∧
        channelDecode frame status cap card = (.ok data, card')) := by
  constructor
  · intro cmd src cap hcap
    have hmode' : if enc then card.mode = .enc ∨ card.mode = .encPadded ∨
        card.mode = .encPlain else card.mode = .mac := by
      cases enc with
      | false => exact hmode
      | true => exact .inl hmode
    obtain ⟨frame, card', hencode, hread⟩ := encodeEv2_read hinv
      { card with
        lastCmd := cmd
        lastRequestZeroLen :=
          decide (src.length ≤ cmdHeaderLen cmd src.length) }
      hchan hmode' hcap
    refine ⟨frame, card', ?_, hread⟩
    rcases hchan with h | h <;> simp only [channelEncode, h, ← hencode]
  · intro data status cap hdata hcap hroom
    obtain ⟨frame, card', hanswer, hdecode⟩ := decodeEv2_answered hinv hchan
      hmode hdata hcap hroom
    refine ⟨frame, card', hanswer, ?_⟩
    rcases hchan with h | h <;> simp only [channelDecode, h, hdecode]

end

/-- An LRP session, a payload behind a header of seven bytes and an answer
that ends in the mark. -/
theorem messages_round_trip_lrp :
    let card : Card := { Card.opened none with channel := .lrp, mode := .enc }
    (∃ frame card', @channelEncode .identity dfWriteData
        [1, 0, 0, 0, 2, 0, 0, 0x80, 0] 64 card = (.ok frame, card') ∧
      @peerReads .identity true card.peer true dfWriteData frame =
        some ([1, 0, 0, 0, 2, 0, 0, 0x80, 0], card'.peer)) ∧
    (∃ frame card', @peerAnswers .identity true card.peer true [7, 0x80] =
        (frame, card'.peer) ∧
      @channelDecode .identity frame 0x00 16 card =
        (.ok [7, 0x80], card')) := by
  intro card
  have h := @messages_round_trip .identity decryptInverts_identity card
    (.inr rfl) true rfl
  refine ⟨h.1 _ _ _ (Nat.le_of_ble_eq_true rfl),
    h.2 _ _ _ (List.cons_ne_nil _ _) (Nat.le_of_ble_eq_true rfl) fun _ =>
      Nat.le_of_ble_eq_true rfl⟩

end Nxpsc
