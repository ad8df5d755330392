import Nxpsc.Proofs.Acceptance
import Nxpsc.Proofs.Enciphered
import Nxpsc.Proofs.Layout
import Nxpsc.Proofs.Reply
import Nxpsc.Proofs.RoundTrip
import Nxpsc.Spec.FileRead

/-!
# How long a read may be

A read is one exchange, however long. The card's answer is put together in one
buffer with its MAC, its checksum and its padding, so the longest read depends
on the session. Two more things decide: whether the tables of
`nxpsc_channel.c` know the opcode, and whether the checksum of an enciphered
answer is the first the search comes to.
-/

namespace Nxpsc

open Dialogue

/-! ## The answer as it is put together -/

theorem cardReply_framed {sw : Bool} {answers : List Answer} {data : Bytes}
    (h : Framed sw answers data) (cap : Nat) (got : Bytes)
    (rest : List Answer) :
    cardReply sw cap got (answers ++ rest) =
      if (got ++ data).length ≤ cap then some ((0x00, got ++ data), rest)
      else none := by
  induction h generalizing got with
  | last hst =>
      rw [List.singleton_append, cardReply_cons hst, List.length_append]
      split
      · next hlong => rw [if_neg (by omega)]
      · next hfits =>
          rw [if_neg (by decide), if_pos (by omega)]
  | more hst _ ih =>
      rw [List.cons_append, cardReply_cons hst]
      split
      · next hlong =>
          rw [if_neg]
          rw [List.length_append, List.length_append]
          omega
      · rw [if_pos rfl, ih, List.append_assoc]

/-! ## How long it is -/

theorem length_answerPlain (card : Card) (data crc : Bytes) :
    (answerPlain card data crc).length =
      paddedLen (data.length + crc.length) (blockLen card) :=
  Bytes.length_fit _ _

theorem answerPlain_mod (card : Card) (data crc : Bytes) :
    (answerPlain card data crc).length % blockSize card.keyType = 0 := by
  rw [length_answerPlain]
  exact paddedLen_mod (blockSize_pos _)

theorem answerPlain_pos (card : Card) {data : Bytes} (crc : Bytes)
    (hne : data ≠ []) : 0 < (answerPlain card data crc).length :=
  Nat.lt_of_lt_of_le (blockSize_pos card.keyType)
    (answerPlain_blocks card data crc hne)

theorem le_servedLength (card : Card) (mode : Mode) (n : Nat) :
    n ≤ servedLength card mode n := by
  have hbs : 0 < blockLen card := blockSize_pos card.keyType
  have h2 := @le_paddedLen (n + 2) _ hbs
  have h4 := @le_paddedLen (n + 4) _ hbs
  simp only [servedLength, aesBlock]
  repeat' split
  all_goals omega

theorem copyOutput_ne {cap : Nat} {data : Bytes} {tail : Bytes}
    (h : tail ≠ []) : copyOutput cap (data ++ tail) ≠ .ok data := by
  intro hcopy
  have hlen := congrArg List.length (copyOutput_ok hcopy).1
  have hpos := List.length_pos_iff.mpr h
  rw [List.length_append] at hlen
  omega

theorem fileMode_eff (card : Card) (comm : CommMode) :
    FileMode (eff card (modeFromPublic comm)) := by
  rw [eff]
  split
  · exact .inl rfl
  · cases comm
    · exact .inl rfl
    · exact .inr (.inl rfl)
    · exact .inr (.inr rfl)

theorem readDataRequest_ok {offset length : UInt32} (fileNo : UInt8)
    (comm : CommMode) (cap : Nat) (card : Card)
    (hoffset : offset.toNat < 2 ^ 24) (hlength : length.toNat < 2 ^ 24) :
    readDataRequest fileNo offset length comm cap card =
      .ok ⟨fileCmd card dfReadData dfReadData2, readArgs fileNo offset length,
        eff card (modeFromPublic comm), eff card (modeFromPublic comm),
        cap⟩ := by
  rw [readDataRequest, fitsU24_of_lt hoffset, fitsU24_of_lt hlength]
  rfl

theorem answering_eq (card : Card) :
    card.answering = { card with cmdCtr := card.answering.cmdCtr } := by
  rw [Card.answering]
  split
  · rfl
  · rfl

theorem answering_status (card : Card) (status : UInt8) :
    ({ card with lastStatus := status } : Card).answering =
      { card.answering with lastStatus := status } := by
  rw [Card.answering, Card.answering]
  split
  · rfl
  · rfl

section

variable [c : BlockCipher]

theorem length_peerAnswers (hinv : DecryptInverts c) (card : Card) (enc : Bool)
    (data : Bytes) :
    (peerAnswers card.onLrp card.peer enc data).1.length =
      (if enc then (Bytes.pad aesBlock data).length else data.length) + 8 := by
  have hmod : (Bytes.pad aesBlock data).length % aesBlock = 0 :=
    Bytes.length_pad_mod (by decide) data
  have hsent : (peerEnciphers card.onLrp card.peer answerLabel
      (Bytes.pad aesBlock data)).1.length =
        (Bytes.pad aesBlock data).length := by
    rw [peerEnciphers]
    split
    · exact length_lrpSent _ _ hmod
    · rw [peerIv_answer]
      exact length_encSent _ hinv
        (Nat.le_of_eq (length_ev2FillIv card false).symm) hmod
  simp only [peerAnswers]
  rw [List.length_append, length_peerMac]
  cases enc with
  | false => rfl
  | true => exact congrArg (· + 8) hsent

theorem length_servedAnswer (hinv : DecryptInverts c) {card : Card}
    {mode : Mode} (hmode : FileMode mode) {data sealed : Bytes}
    (h : servedAnswer card mode data = some sealed) :
    sealed.length = servedLength card mode data.length := by
  have hblock : 8 ≤ blockSize card.keyType := by
    cases card.keyType <;> decide
  have hpad : (Bytes.pad aesBlock data).length =
      (data.length / aesBlock + 1) * aesBlock := by
    rw [Bytes.length_pad, aesBlock]
    omega
  have henc : ∀ iv crc, blockSize card.keyType ≤ iv.length →
      (encSent card.keyType card.sessionEnc.bytes iv
        (answerPlain card data crc)).1.length =
          paddedLen (data.length + crc.length) (blockLen card) := by
    intro iv crc hiv
    rw [length_encSent _ hinv hiv (answerPlain_mod card data crc),
      length_answerPlain]
  have hlast : (encSent card.keyType card.sessionMac.bytes zeroIv
      (answerPlain card data [])).2.length = blockSize card.keyType :=
    length_encSent_last hinv (blockSize_le_zeroIv card.keyType)
      (answerPlain_mod card data [])
  cases hc : card.channel with
  | auto =>
      simp only [servedAnswer, servedLength, hc] at h ⊢
      cases h
      rfl
  | d40 =>
      simp only [servedAnswer, servedLength, hc] at h ⊢
      rcases hmode with rfl | rfl | rfl
      · cases h
        rfl
      · cases h
        rw [List.length_append, List.length_take, hlast,
          Nat.min_eq_left (by omega)]
      · cases h
        exact henc zeroIv (crc16 data) (blockSize_le_zeroIv _)
  | ev1 =>
      simp only [servedAnswer, servedLength, hc] at h ⊢
      obtain ⟨mac, hmac, hlen⟩ : ∃ mac, cmac card.keyType
          card.sessionMac.bytes card.iv.bytes (data ++ [0x00]) 0 = .ok mac ∧
            mac.length = blockSize card.keyType :=
        cmac_isOk _ 0 (card_iv card)
      rw [hmac] at h
      have hfull : (data ++ mac.take 8).length = data.length + 8 := by
        rw [List.length_append, List.length_take, hlen,
          Nat.min_eq_left hblock]
      rcases hmode with rfl | rfl | rfl
      · cases h
        exact hfull
      · cases h
        exact hfull
      · cases h
        exact henc card.iv.bytes (crc32 (data ++ [0x00])) (card_iv card)
  | ev2 | lrp =>
      simp only [servedAnswer, servedLength, hc] at h ⊢
      rcases hmode with rfl | rfl | rfl
      · cases h
        rfl
      · cases h
        exact length_peerAnswers hinv card false data
      · cases h
        rw [← hpad]
        exact length_peerAnswers hinv card true data

/-! ## What the decoders make of it -/

/-- A MACed answer on D40. -/
theorem decodeD40_maced (hinv : DecryptInverts c) {card : Card} {data : Bytes}
    {cap : Nat} (hchan : card.channel = .d40) (hmode : card.mode = .mac)
    (hne : data ≠ []) (hcap : data.length ≤ cap) :
    (decodeD40 (data ++ (encSent card.keyType card.sessionMac.bytes zeroIv
      (answerPlain card data [])).2.take 4) 0x00 cap card).1 = .ok data ↔
      receivesMac card card.lastCmd = true := by
  have hpos := List.length_pos_iff.mpr hne
  have hlen : ((encSent card.keyType card.sessionMac.bytes zeroIv
      (answerPlain card data [])).2.take 4).length = 4 := by
    rw [List.length_take, length_encSent_last hinv
      (blockSize_le_zeroIv card.keyType) (answerPlain_mod card data [])]
    cases card.keyType <;> rfl
  have hplain : answerPlain card data [] =
      Bytes.fit (paddedLen data.length (blockLen card)) data := by
    rw [answerPlain, List.append_nil, List.length_nil, Nat.add_zero]
  have hsend := (sameCipher_refl card.keyType card.sessionMac.bytes).sends
    zeroIv (answerPlain_pos card [] hne) (answerPlain_mod card data [])
  have hmac4 : macLength card = 4 := by rw [macLength, hchan]
  generalize hlast : (encSent card.keyType card.sessionMac.bytes zeroIv
    (answerPlain card data [])).2.take 4 = mac at hlen
  rw [decodeD40, if_pos hmode]
  simp only [hmac4, Bytes.take_tail hlen, Bytes.drop_tail hlen]
  cases hrx : receivesMac card card.lastCmd with
  | false =>
      rw [if_pos rfl]
      refine iff_of_false (copyOutput_ne fun hnil => ?_) Bool.false_ne_true
      rw [hnil] at hlen
      cases hlen
  | true =>
      refine iff_of_true ?_ rfl
      have hsize : (data ++ mac).length - 4 = data.length := by
        rw [List.length_append, hlen, Nat.add_sub_cancel]
      have hzero : Bytes.zeros maxBlock = zeroIv := rfl
      rw [if_neg Bool.noConfusion, if_neg (by rw [List.length_append]; omega),
        hsize, ← hplain, hzero, hsend]
      simp only [hlast, ne_eq, not_true_eq_false, if_false]
      exact copyOutput_eq hcap

/-- An answer the EV1 decoder takes for a MACed one. -/
theorem decodeEv1_maced {card : Card} {data src : Bytes} {cap : Nat}
    (hchan : card.channel = .ev1)
    (hmode : card.mode = .plain ∨ card.mode = .mac ∨
      (card.mode = .enc ∧ card.lastRequestZeroLen = false))
    (hcap : data.length ≤ cap) :
    (decodeEv1 src 0x00 cap card).1 = .ok data ↔
      servedAnswer card .mac data = some src := by
  have hmac8 : macLength card = 8 := by rw [macLength, hchan]
  have hrule : answerRule card = .maced := by
    simp only [answerRule, hchan, if_pos hmode]
  obtain ⟨mac, hmac, hblock⟩ : ∃ mac, cmac card.keyType
      card.sessionMac.bytes card.iv.bytes (data ++ [0x00]) 0 = .ok mac ∧
        mac.length = blockSize card.keyType :=
    cmac_isOk _ 0 (card_iv card)
  have hserved : servedAnswer card .mac data = some (data ++ mac.take 8) := by
    simp only [servedAnswer, hchan, reduceCtorEq, if_false, hmac]
    rfl
  rw [hserved, Option.some.injEq]
  constructor
  · intro h
    have hacc := decodeEv1_accepted hchan (Prod.ext h rfl)
    rw [hrule] at hacc
    simp only [AcceptedBy, AcceptedMac, hchan] at hacc
    obtain ⟨mac', hmac', rfl⟩ := hacc
    rw [Except.ok.inj (hmac.symm.trans hmac')]
  · rintro rfl
    have hlen : (mac.take 8).length = 8 := by
      rw [List.length_take, hblock]
      cases card.keyType <;> rfl
    rw [decodeEv1, if_pos hmode]
    simp only [hmac8, Bytes.take_tail hlen, Bytes.drop_tail hlen, hmac,
      ne_eq, not_true_eq_false, if_false]
    rw [if_neg (by rw [List.length_append]; omega)]
    exact copyOutput_eq hcap

/-- What the card enciphered, on D40 and EV1. -/
theorem enciphers_served {card : Card} {data crc iv : Bytes}
    (hne : data ≠ []) :
    Enciphers card iv (answerPlain card data crc)
      (encSent card.keyType card.sessionEnc.bytes iv
        (answerPlain card data crc)).1 :=
  ⟨_, (sameCipher_refl card.keyType card.sessionEnc.bytes).sends iv
    (answerPlain_pos card crc hne) (answerPlain_mod card data crc)⟩

theorem decodeD40_served (hinv : DecryptInverts c) {card : Card}
    {data : Bytes} {cap : Nat} (hmode : card.mode = .enc) (hne : data ≠ [])
    (hcap : data.length ≤ cap) (hmax : data.length ≤ maxResponse) :
    (decodeD40 (encSent card.keyType card.sessionEnc.bytes zeroIv
      (answerPlain card data (crc16 data))).1 0x00 cap card).1 = .ok data ↔
      FirstHit (answerPlain card data (crc16 data)) 0x00 2 data.length := by
  obtain ⟨hat, hstart, htake⟩ := crc16_at card hne hmax
  have hzero : zeroIv = Bytes.zeros maxBlock := rfl
  rw [hzero, decodeD40_enciphered hinv hmode hne (enciphers_served hne),
    delivered_iff htake hne hcap (foundD40_le _ _ _),
    ← searchCrcPos_eq_iff (List.length_pos_iff.mpr hne) hat hstart]
  exact foundD40_crc16 hne hmax

theorem decodeEv1_served (hinv : DecryptInverts c) {card : Card}
    {data : Bytes} {cap : Nat} (hmode : card.mode = .enc)
    (hclear : card.lastRequestZeroLen = true) (hne : data ≠ [])
    (hcap : data.length ≤ cap) (hmax : data.length ≤ maxResponse) :
    (decodeEv1 (encSent card.keyType card.sessionEnc.bytes card.iv.bytes
      (answerPlain card data (crc32 (data ++ [0x00])))).1 0x00 cap card).1 =
        .ok data ↔
      FirstHit (answerPlain card data (crc32 (data ++ [0x00]))) 0x00 4
        data.length := by
  obtain ⟨hat, hstart, htake⟩ := crc32_at card hne hmax
  rw [decodeEv1_enciphered hinv hmode hclear hne (enciphers_served hne),
    delivered_iff htake hne hcap (searchCrcPos_le _ _ _)]
  exact searchCrcPos_eq_iff (List.length_pos_iff.mpr hne) hat hstart

/-- On EV2 and LRP the answer decodes in both modes. -/
theorem decodeEv2_served (hinv : DecryptInverts c) {card : Card}
    {data sealed : Bytes} {cap : Nat}
    (hchan : card.channel = .ev2 ∨ card.channel = .lrp)
    (hmode : FileMode card.mode) (hne : data ≠ []) (hcap : data.length ≤ cap)
    (hroom : sealed.length ≤ maxResponse)
    (hserved : servedAnswer card card.mode data = some sealed) :
    (decodeEv2 sealed cap card).1 = .ok data := by
  by_cases hplain : card.mode = .plain
  · have hsealed : sealed = data := by
      rcases hchan with hc | hc
      · simp only [servedAnswer, hc, hplain, if_true] at hserved
        exact (Option.some.inj hserved).symm
      · simp only [servedAnswer, hc, hplain, if_true] at hserved
        exact (Option.some.inj hserved).symm
    rw [hsealed, decodeEv2, if_pos (by rw [hplain]; decide)]
    exact copyOutput_eq hcap
  have hanswer : (peerAnswers card.onLrp card.peer (card.mode == .enc)
      data).1 = sealed := by
    refine Option.some.inj (Eq.trans ?_ hserved)
    rcases hchan with hc | hc
    · simp only [servedAnswer, hc, if_neg hplain]
    · simp only [servedAnswer, hc, if_neg hplain]
  have henc : card.mode = if (card.mode == .enc) = true then .enc
      else .mac := by
    rcases hmode with hm | hm | hm
    · exact absurd hm hplain
    · rw [hm]
      rfl
    · rw [hm]
      rfl
  have hlen := length_peerAnswers hinv card (card.mode == .enc) data
  rw [hanswer] at hlen
  obtain ⟨frame, card', hframe, hdecode⟩ := decodeEv2_answered hinv hchan
    henc hne hcap fun hm => by
      rw [hm, if_pos rfl] at hlen
      omega
  rw [hframe] at hanswer
  rw [← hanswer, hdecode]

/-- The handle as it is when the answer to a read arrives. -/
structure AwaitsRead (card : Card) (mode : Mode) : Prop where
  mode : card.mode = mode
  lastCmd : card.lastCmd = fileCmd card dfReadData dfReadData2
  zeroLen : card.lastRequestZeroLen = !card.isoChaining

theorem channelDecode_served (hinv : DecryptInverts c) {card : Card}
    {mode : Mode} {data sealed : Bytes} {cap : Nat} (hmode : FileMode mode)
    (hcard : AwaitsRead card mode) (hne : data ≠ [])
    (hcap : data.length ≤ cap) (hroom : sealed.length ≤ maxResponse)
    (hserved : servedAnswer card mode data = some sealed) :
    (channelDecode sealed 0x00 cap card).1 = .ok data ↔
      ReadChecks card mode data := by
  obtain ⟨rfl, hcmd, hzero⟩ := hcard
  have hlen := length_servedAnswer hinv hmode hserved
  have hgrow := le_servedLength card card.mode data.length
  have hmax : data.length ≤ maxResponse := by omega
  have hcopy : copyOutput cap data = .ok data := copyOutput_eq hcap
  cases hc : card.channel with
  | auto =>
      simp only [servedAnswer, ReadChecks, channelDecode, hc] at hserved ⊢
      cases hserved
      exact iff_of_true hcopy trivial
  | d40 =>
      rcases hmode with hm | hm | hm
      · simp only [servedAnswer, ReadChecks, channelDecode, decodeD40, hc,
          hm, reduceCtorEq, or_self, if_false] at hserved ⊢
        cases hserved
        exact iff_of_true hcopy trivial
      · simp only [servedAnswer, ReadChecks, channelDecode, hc, hm,
          if_true] at hserved ⊢
        cases hserved
        rw [decodeD40_maced hinv hc hm hne hcap, receivesMac,
          if_neg (not_not.mpr hc), hcmd, fileCmd]
        cases card.isoChaining <;> decide
      · simp only [servedAnswer, ReadChecks, channelDecode, hc, hm,
          reduceCtorEq, if_false, if_true] at hserved ⊢
        cases hserved
        exact decodeD40_served hinv hm hne hcap hmax
  | ev1 =>
      rcases hmode with hm | hm | hm
      · have hmac : servedAnswer card .mac data = some sealed := by
          rw [← hserved]
          simp only [servedAnswer, hc, hm, reduceCtorEq, if_false]
        simp only [channelDecode, ReadChecks, hc, hm]
        exact iff_of_true
          ((decodeEv1_maced hc (.inl hm) hcap).mpr hmac) trivial
      · rw [hm] at hserved
        simp only [channelDecode, ReadChecks, hc, hm]
        exact iff_of_true
          ((decodeEv1_maced hc (.inr (.inl hm)) hcap).mpr hserved) trivial
      · rw [hm] at hserved
        simp only [channelDecode, ReadChecks, hc, hm]
        cases hiso : card.isoChaining with
        | true =>
            rw [hiso] at hzero
            rw [decodeEv1_maced hc (.inr (.inr ⟨hm, hzero⟩)) hcap,
              if_pos rfl, hserved]
            exact eq_comm
        | false =>
            rw [hiso] at hzero
            rw [if_neg Bool.false_ne_true]
            simp only [servedAnswer, hc, if_true] at hserved
            cases hserved
            exact decodeEv1_served hinv hm hzero hne hcap hmax
  | ev2 =>
      simp only [channelDecode, ReadChecks, hc]
      exact iff_of_true
        (decodeEv2_served hinv (.inl hc) hmode hne hcap hroom hserved) trivial
  | lrp =>
      simp only [channelDecode, ReadChecks, hc]
      exact iff_of_true
        (decodeEv2_served hinv (.inr hc) hmode hne hcap hroom hserved) trivial

/-! ## The read -/

/-- An exchange of one frame delivers what the decoder makes of the reply. -/
theorem exchange_delivers_iff {cmd : UInt8} {data wrapped out : Bytes}
    {txMode rxMode : Mode} {cap : Nat} {card card₁ : Card}
    {script : List Answer}
    (hreq : exchangeRequest cmd data txMode rxMode card = (.ok wrapped, card₁))
    (hshort : wrapped.length ≤ txFrameMax) :
    (∃ said card' rest, exchange cmd data txMode rxMode cap card script =
      .done said (.ok out) card' rest) ↔
      ∃ status raw rest, cardReply card₁.wraps maxResponse [] script =
          some ((status, raw), rest) ∧
        (exchangeAnswer rxMode cap status raw
          { card₁ with lastStatus := status }).1 = .ok out := by
  rw [exchange, Prog.act_bind, hreq]
  simp only
  constructor
  · rintro ⟨said, card', rest, h⟩
    rcases Prog.bind_eq_done.mp h with ⟨e, -, he⟩ |
      ⟨said₁, ⟨status, raw⟩, card₂, rest₁, said₂, hraw, hans, -⟩
    · cases he
    obtain ⟨hreply, rfl⟩ := (rawExchange_short_iff hshort).mp ⟨said₁, hraw⟩
    rw [Prog.act_run] at hans
    obtain ⟨-, hok, -, rfl⟩ := Outcome.done.inj hans
    exact ⟨status, raw, rest₁, hreply, hok⟩
  · rintro ⟨status, raw, rest, hreply, hans⟩
    obtain ⟨said, hraw⟩ := (@rawExchange_short_iff cmd _ _ _ _ _ _ _
      hshort).mpr ⟨hreply, rfl⟩
    rw [Prog.bind_ok hraw, Prog.act_run]
    simp only [hans, Outcome.prepend]
    exact ⟨_, _, rest, rfl⟩

theorem readRequest_sent (fileNo : UInt8) (offset length : UInt32) {mode : Mode}
    {card : Card} (hopen : ¬ (card.sessionLost = true ∧
      (mode ≠ .plain ∨ mode ≠ .plain))) :
    ∃ wrapped card₁, wrapped.length ≤ txFrameMax ∧
      exchangeRequest (fileCmd card dfReadData dfReadData2)
        (readArgs fileNo offset length) mode mode card =
          (.ok wrapped, card₁) ∧
      ∃ iv m, card₁ =
        { card with
          macMismatch := false
          lastCmd := fileCmd card dfReadData dfReadData2
          lastRequestZeroLen := !card.isoChaining
          iv := iv
          mode := m } := by
  have hargs : (readArgs fileNo offset length).length = 7 := rfl
  have hwire := wireLength_le { card with mode := mode }
    (fileCmd card dfReadData dfReadData2) 7
  obtain ⟨wrapped, card₁, hreq, hlen⟩ := @exchangeRequest_fits _
    (fileCmd card dfReadData dfReadData2) (readArgs fileNo offset length) mode
    mode card hopen (by rw [hargs, maxResponse]; omega)
  have hzero : decide (7 ≤ cmdHeaderLen
      (fileCmd card dfReadData dfReadData2) 7) = !card.isoChaining := by
    rw [fileCmd]
    cases card.isoChaining <;> rfl
  have hcard := hreq
  rw [exchangeRequest, if_neg hopen] at hcard
  obtain ⟨iv, m, hframe⟩ := channelEncode_frame
    (fileCmd card dfReadData dfReadData2) (readArgs fileNo offset length)
    maxResponse { card with mode := mode, macMismatch := false }
  rw [hcard, hargs, hzero] at hframe
  refine ⟨wrapped, card₁, ?_, hreq, iv, m, hframe⟩
  rw [hlen, hargs, txFrameMax]
  omega

/-- What is left of the exchange is the decoder, in the session the card
answers from. -/
theorem exchangeAnswer_answering (mode : Mode) (cap : Nat) (raw : Bytes)
    (card : Card) :
    exchangeAnswer mode cap 0x00 raw card =
      channelDecode raw 0x00 cap { card.answering with mode := mode } := by
  have hcount : (0x00 : UInt8) ≠ dfSAdditionalFrame := by decide
  simp only [exchangeAnswer, Card.answering, ne_eq, hcount, not_false_eq_true,
    true_and]
  rfl

/-- A read is its exchange. -/
theorem readData_eq {fileNo : UInt8} {offset length : UInt32}
    {comm : CommMode} {cap : Nat} {card : Card} (script : List Answer)
    (hoffset : offset.toNat < 2 ^ 24) (hlength : length.toNat < 2 ^ 24) :
    readData fileNo offset length comm cap card script =
      exchange (fileCmd card dfReadData dfReadData2)
        (readArgs fileNo offset length) (eff card (modeFromPublic comm))
        (eff card (modeFromPublic comm)) cap card script := by
  rw [readData, dataCall, Prog.get_bind,
    readDataRequest_ok fileNo comm cap card hoffset hlength,
    Prog.ofExcept_ok_bind]
  exact congrFun (congrFun (Prog.bind_hand _) card) script

/-- A read that is not refused delivers what the decoder makes of the whole
answer, if there is room for it. -/
theorem readData_delivers_iff {fileNo : UInt8} {offset length : UInt32}
    {comm : CommMode} {cap : Nat} {card : Card} {sealed out : Bytes}
    {answers : List Answer} (rest : List Answer)
    (hoffset : offset.toNat < 2 ^ 24) (hlength : length.toNat < 2 ^ 24)
    (hopen : ¬ (card.sessionLost = true ∧
      (eff card (modeFromPublic comm) ≠ .plain ∨
        eff card (modeFromPublic comm) ≠ .plain)))
    (hframed : Framed card.wraps answers sealed) :
    (∃ said card' rest',
      readData fileNo offset length comm cap card (answers ++ rest) =
        .done said (.ok out) card' rest') ↔
      sealed.length ≤ maxResponse ∧
        (channelDecode sealed 0x00 cap
          { readSession fileNo offset length comm card with
            lastStatus := 0x00
            mode := eff card (modeFromPublic comm) }).1 = .ok out := by
  obtain ⟨wrapped, card₁, hshort, hreq, iv, m, hcard₁⟩ :=
    readRequest_sent fileNo offset length hopen
  have hwraps : card₁.wraps = card.wraps := by
    rw [hcard₁]
    rfl
  rw [readData_eq _ hoffset hlength, exchange_delivers_iff hreq hshort, hwraps,
    cardReply_framed hframed, List.nil_append, readSession, hreq]
  constructor
  · rintro ⟨status, raw, rest', hreply, hans⟩
    split at hreply
    · next hroom =>
        cases hreply
        rw [exchangeAnswer_answering, answering_status] at hans
        exact ⟨hroom, hans⟩
    · cases hreply
  · rintro ⟨hroom, hdecode⟩
    refine ⟨0x00, sealed, rest, if_pos hroom, ?_⟩
    rw [exchangeAnswer_answering, answering_status]
    exact hdecode

/-- For every session or none, every mode, offset and length, and however the
card cuts its answer. -/
theorem file_read_returns_iff (hinv : DecryptInverts c) {fileNo : UInt8}
    {offset length : UInt32} {comm : CommMode} {cap : Nat} {card : Card}
    {data : Bytes} {answers : List Answer} (rest : List Answer)
    (hoffset : offset.toNat < 2 ^ 24) (hlength : length.toNat < 2 ^ 24)
    (hpos : 0 < length.toNat) (hdata : data.length = length.toNat)
    (hcap : length.toNat ≤ cap)
    (hserves : Serves fileNo offset length comm card answers data) :
    (∃ said card' rest',
      readData fileNo offset length comm cap card (answers ++ rest) =
        .done said (.ok data) card' rest') ↔
      ReadReturns fileNo offset length comm card data := by
  have hmode := fileMode_eff card comm
  have hne : data ≠ [] := List.length_pos_iff.mp (hdata ▸ hpos)
  obtain ⟨sealed, hserved, hframed⟩ := hserves
  by_cases hopen : card.sessionLost = true ∧
      (eff card (modeFromPublic comm) ≠ .plain ∨
        eff card (modeFromPublic comm) ≠ .plain)
  · -- refused before anything is sent
    refine iff_of_false ?_ fun hreturns => ?_
    · rintro ⟨said, card', rest', h⟩
      rw [readData_eq _ hoffset hlength, exchange, Prog.act_bind,
        exchangeRequest, if_pos hopen] at h
      cases h
    · rw [hreturns.session hopen.1, eff] at hopen
      obtain ⟨-, h | h⟩ := hopen
      · exact h (ite_self _)
      · exact h (ite_self _)
  obtain ⟨wrapped, card₁, -, hreq, iv, m, hcard₁⟩ :=
    readRequest_sent fileNo offset length hopen
  have hsession : readSession fileNo offset length comm card =
      { card₁ with cmdCtr := card₁.answering.cmdCtr } := by
    rw [readSession, hreq]
    exact answering_eq card₁
  have hawaits : AwaitsRead { readSession fileNo offset length comm card with
      lastStatus := 0x00, mode := eff card (modeFromPublic comm) }
      (eff card (modeFromPublic comm)) := by
    rw [hsession, hcard₁]
    exact ⟨rfl, rfl, rfl⟩
  have hlen : sealed.length =
      servedLength card (eff card (modeFromPublic comm)) data.length := by
    rw [length_servedAnswer hinv hmode hserved, hsession, hcard₁]
    rfl
  have hlost : card.sessionLost = true → comm = .plain := by
    intro hlost
    have hplain : eff card (modeFromPublic comm) = .plain :=
      not_not.mp fun hm => hopen ⟨hlost, .inl hm⟩
    rw [eff, if_neg fun h => Bool.false_ne_true (h.2.symm.trans hlost)]
      at hplain
    cases comm with
    | plain => rfl
    | mac | full => cases hplain
  rw [readData_delivers_iff rest hoffset hlength hopen hframed]
  constructor
  · rintro ⟨hroom, hdecode⟩
    exact ⟨hlost, hlen ▸ hroom, (channelDecode_served hinv hmode hawaits hne
      (by omega) hroom hserved).mp hdecode⟩
  · rintro ⟨-, hfits, hchecks⟩
    have hroom : sealed.length ≤ maxResponse := hlen ▸ hfits
    exact ⟨hroom, (channelDecode_served hinv hmode hawaits hne (by omega)
      hroom hserved).mpr hchecks⟩

end

/-- The enciphered answer of a card in an EV1 session, in two frames. -/
def enciphered2 : List Answer :=
  [.ok [0xAF, 186, 8, 33, 139, 51, 214, 0],
    .ok [0x00, 0, 128, 0, 0, 0, 0, 0, 0, 0]]

set_option maxRecDepth 20000 in
/-- Two enciphered bytes. -/
theorem file_read_returns_two :
    ∃ said card' rest', @readData .identity 0x01 0 2 .full 2 liveEv1
      (enciphered2 ++ []) = .done said (.ok [0x07, 0x09]) card' rest' := by
  have hfirst : FirstHit (answerPlain liveEv1 [0x07, 0x09]
      (crc32 ([0x07, 0x09] ++ [0x00]))) 0x00 4 2 := by decide
  exact (@file_read_returns_iff .identity decryptInverts_identity 0x01 0 2
    .full 2 liveEv1 [0x07, 0x09] enciphered2 [] (by decide) (by decide)
    (by decide) (by decide) (by decide)
    ⟨_, by decide, .more (by decide) (.last (by decide))⟩).mpr
      (@ReadReturns.mk .identity _ _ _ _ _ _ (fun h => Bool.noConfusion h)
        (by decide) hfirst)

theorem framed_byteFrames (n : Nat) :
    Framed false (byteFrames n) (Bytes.zeros (n + 1)) := by
  induction n with
  | zero => exact .last rfl
  | succ n ih => exact .more rfl ih

/-- A plain read of one byte more than the buffer has room for, outside a
session. -/
theorem long_read_fails :
    @Serves .identity 0x01 0 4097 .plain (Card.opened none) (byteFrames 4096)
        (Bytes.zeros 4097) ∧
      ¬ ∃ said card' rest', @readData .identity 0x01 0 4097 .plain 4097
        (Card.opened none) (byteFrames 4096) =
          .done said (.ok (Bytes.zeros 4097)) card' rest' := by
  have hopen : ¬ ((Card.opened none).sessionLost = true ∧
      (eff (Card.opened none) (modeFromPublic .plain) ≠ .plain ∨
        eff (Card.opened none) (modeFromPublic .plain) ≠ .plain)) := by
    decide
  refine ⟨⟨Bytes.zeros 4097, rfl, framed_byteFrames 4096⟩, fun h => ?_⟩
  rw [← List.append_nil (byteFrames 4096), @readData_delivers_iff .identity _ _
    _ _ _ _ _ _ _ [] (by decide) (by decide) hopen
    (framed_byteFrames 4096), Bytes.length_zeros] at h
  exact absurd h.1 (by decide)

end Nxpsc
