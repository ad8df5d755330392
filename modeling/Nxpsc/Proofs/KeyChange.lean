import Nxpsc.Proofs.Acceptance
import Nxpsc.Proofs.EncodeFailure
import Nxpsc.Proofs.RoundTrip
import Nxpsc.Proofs.Script
import Nxpsc.Proofs.WrittenKey
import Nxpsc.Spec.KeyChange

/-!
# The card recovers the new key

A ChangeKey request is a key, mixed with the old one or not, its version and
one or two sums. The card undoes what the library did as long as both take the
key for the session's own or both do not.
-/

namespace Nxpsc

/-! ## The parts of the request -/

theorem length_piccKey (key : Key) :
    (piccKey key).length = piccKeyLen key.type := by
  rw [← wireKey_picc, wireKey, piccKeyLen]
  split
  · next htype =>
      rw [List.length_append, length_storedKey, htype]
      rfl
  · exact length_storedKey key

theorem piccKeyLen_le (type : KeyType) : piccKeyLen type ≤ maxKeySize := by
  cases type <;> decide

theorem length_piccVersion (key : Key) :
    (piccVersion key).length = piccVersionLen key.type := by
  rw [piccVersion, piccVersionLen]
  cases key.type <;> rfl

theorem length_payloadSum (card : Card) (head : UInt8) (payload : Bytes) :
    (payloadSum card head payload).length =
      (payloadSum card 0 []).length := by
  rw [payloadSum, payloadSum]
  cases card.channel <;> simp only [length_crc16, length_crc32]

/-- The key as it is transmitted. -/
def mixedKey (same : Bool) (held new : Key) : Bytes :=
  if same then piccKey new
  else Bytes.xor (piccKey new)
    (Bytes.fit (piccKeyLen new.type) (piccKey held))

theorem length_mixedKey (same : Bool) (held new : Key) :
    (mixedKey same held new).length = piccKeyLen new.type := by
  rw [mixedKey]
  split
  · exact length_piccKey new
  · rw [Bytes.length_xor, length_piccKey, Bytes.length_fit, Nat.min_self]

/-- Everything behind the key number. -/
def keyBody (card : Card) (head : UInt8) (same : Bool) (held new : Key) :
    Bytes :=
  let payload := mixedKey same held new ++ piccVersion new
  payload ++ (payloadSum card head payload ++
    (if same then [] else newKeySum card (piccKey new)))

theorem length_keyBody (card : Card) (head : UInt8) (same : Bool)
    (held new : Key) :
    (keyBody card head same held new).length =
      piccKeyLen new.type + piccVersionLen new.type +
        ((payloadSum card 0 []).length +
          if same then 0 else (newKeySum card (piccKey new)).length) := by
  rw [keyBody, List.length_append, List.length_append, List.length_append,
    length_mixedKey, length_piccVersion, length_payloadSum]
  cases same <;> rfl

theorem length_sums_le (card : Card) (key : Bytes) :
    (payloadSum card 0 []).length ≤ 4 ∧ (newKeySum card key).length ≤ 4 := by
  constructor
  · rw [payloadSum]
    cases card.channel <;> decide
  · rw [newKeySum]
    split
    · rw [length_crc16]
      decide
    · rw [length_crc32]

/-! What the card finds where, with `pad` behind the body. -/

section

variable (card : Card) (head : UInt8) (same : Bool) (held new : Key)
  (pad : Bytes)

theorem keyBody_key :
    (keyBody card head same held new ++ pad).take (piccKeyLen new.type) =
      mixedKey same held new := by
  rw [keyBody, List.append_assoc, List.append_assoc,
    List.take_left' (length_mixedKey same held new)]

theorem keyBody_version :
    ((keyBody card head same held new ++ pad).drop
      (piccKeyLen new.type)).take (piccVersionLen new.type) =
        piccVersion new := by
  rw [keyBody, List.append_assoc, List.append_assoc,
    List.drop_left' (length_mixedKey same held new),
    List.take_left' (length_piccVersion new)]

theorem keyBody_payload :
    (keyBody card head same held new ++ pad).take
      (piccKeyLen new.type + piccVersionLen new.type) =
        mixedKey same held new ++ piccVersion new := by
  rw [keyBody, List.append_assoc, List.take_left' (by
    rw [List.length_append, length_mixedKey, length_piccVersion])]

theorem keyBody_sums :
    (keyBody card head same held new ++ pad).drop
      (piccKeyLen new.type + piccVersionLen new.type) =
        payloadSum card head (mixedKey same held new ++ piccVersion new) ++
          ((if same then [] else newKeySum card (piccKey new)) ++ pad) := by
  rw [keyBody, List.append_assoc, List.drop_left' (by
    rw [List.length_append, length_mixedKey, length_piccVersion]),
    List.append_assoc]

/-- Version and first sum are right however the key was read. -/
theorem keyTaken_read :
    KeyTaken card held new (head :: (keyBody card head same held new ++ pad)) ↔
      piccNewKey card (piccKey held) new.type
          (head :: (keyBody card head same held new ++ pad)) = piccKey new ∧
        (head &&& 0x3F ≠ card.keyNo →
          ((if same then [] else newKeySum card (piccKey new)) ++ pad).take
            (newKeySum card (piccKey new)).length =
              newKeySum card (piccKey new)) := by
  have hbehind : (keyBody card head same held new ++ pad).drop
      (piccKeyLen new.type + piccVersionLen new.type +
        (payloadSum card head
          (mixedKey same held new ++ piccVersion new)).length) =
      (if same then [] else newKeySum card (piccKey new)) ++ pad := by
    rw [← List.drop_drop, keyBody_sums, List.drop_left]
  constructor
  · rintro ⟨hkey, -, -, hsum⟩
    refine ⟨hkey, fun ho => ?_⟩
    have := hsum (decide_eq_true ho)
    simp only [List.drop_succ_cons, List.drop_zero, List.headD_cons,
      keyBody_payload, hbehind, hkey] at this
    exact this
  · rintro ⟨hkey, hsum⟩
    refine ⟨hkey, ?_, ?_, fun ho => ?_⟩
    · exact keyBody_version card head same held new pad
    · simp only [List.drop_succ_cons, List.drop_zero, List.headD_cons,
        keyBody_payload, keyBody_sums]
      exact List.take_left
    · simp only [List.drop_succ_cons, List.drop_zero, List.headD_cons,
        keyBody_payload, hbehind, hkey]
      exact hsum (of_decide_eq_true ho)

/-- The new key comes out if the old one went in where it is taken off; it
makes no difference when it is zero. -/
theorem piccNewKey_iff :
    piccNewKey card (piccKey held) new.type
        (head :: (keyBody card head same held new ++ pad)) = piccKey new ↔
      same = !decide (head &&& 0x3F ≠ card.keyNo) ∨
      Bytes.fit (piccKeyLen new.type) (piccKey held) =
        Bytes.zeros (piccKeyLen new.type) := by
  have hnew : (piccKey new).length =
      (Bytes.fit (piccKeyLen new.type) (piccKey held)).length := by
    rw [length_piccKey, Bytes.length_fit]
  have hzero : Bytes.xor (piccKey new)
      (Bytes.fit (piccKeyLen new.type) (piccKey held)) = piccKey new ↔
        Bytes.fit (piccKeyLen new.type) (piccKey held) =
          Bytes.zeros (piccKeyLen new.type) := by
    rw [Bytes.xor_eq_self_iff hnew, length_piccKey]
  have hother : decide (head &&& 0x3F ≠ card.keyNo) =
      piccOther card (head :: (keyBody card head same held new ++ pad)) := rfl
  rw [hother, piccNewKey]
  generalize piccOther card
    (head :: (keyBody card head same held new ++ pad)) = other
  rw [List.drop_succ_cons, List.drop_zero, keyBody_key, mixedKey]
  cases same with
  | false =>
      cases other with
      | true => exact iff_of_true (Bytes.xor_cancel hnew) (.inl rfl)
      | false => simpa using hzero
  | true =>
      cases other with
      | true => simpa using hzero
      | false => exact iff_of_true rfl (.inl rfl)

/-- What the card makes of it. -/
theorem keyTaken_iff :
    KeyTaken card held new (head :: (keyBody card head same held new ++ pad)) ↔
      (same = !decide (head &&& 0x3F ≠ card.keyNo)) ∨
      (Bytes.fit (piccKeyLen new.type) (piccKey held) =
          Bytes.zeros (piccKeyLen new.type) ∧
        (same = true → (pad.take (newKeySum card (piccKey new)).length) =
          newKeySum card (piccKey new))) := by
  rw [keyTaken_read, piccNewKey_iff]
  by_cases ho : head &&& 0x3F ≠ card.keyNo
  · rw [decide_eq_true ho]
    cases same with
    | false => exact iff_of_true ⟨.inl rfl, fun _ => List.take_left⟩ (.inl rfl)
    | true => simp [ho]
  · rw [decide_eq_false ho]
    cases same with
    | false => simp [ho]
    | true => exact iff_of_true ⟨.inl rfl, (absurd · ho)⟩ (.inl rfl)

end

/-! ## On the wire -/

theorem keyNoData_low (card : Card) (keyNo : UInt8) (new : Key) :
    keyNoData card keyNo new &&& 0x3F = keyNo &&& 0x3F := by
  rw [keyNoData]
  split
  · next hmaster =>
      rw [hmaster.2]
      cases new.type <;> rfl
  · rw [UInt8.and_assoc, UInt8.and_self]

/-- The request of a session, with the old key the card has. -/
theorem changeKeyRequest_ok {card : Card} {keyNo : UInt8} {oldKey : Option Key}
    {held : Key} (new : Key) (hauth : card.authenticated = true)
    (hchan : card.channel ≠ .auto)
    (hold : oldKey = some held ∨ oldKey = none ∧ keyNo = card.keyNo) :
    ∃ rxMode, changeKeyRequest false 0 keyNo oldKey (some new) card =
      .ok ⟨dfChangeKey, keyNoData card keyNo new ::
        keyBody card (keyNoData card keyNo new) (keyNo == card.keyNo) held new,
        .encPlain, rxMode, 16⟩ := by
  have hsame : changesSameKey card false keyNo = (keyNo == card.keyNo) :=
    Bool.and_true _
  have hvalid : ¬ ((keyNo == card.keyNo) = false ∧
      keyIsValid oldKey = false) := by
    rintro ⟨hne, hinvalid⟩
    rcases hold with rfl | ⟨rfl, rfl⟩
    · rw [keyIsValid] at hinvalid
      cases htype : held.type <;> rw [htype] at hinvalid <;> cases hinvalid
    · rw [beq_self_eq_true] at hne
      cases hne
  have hmixed : changeKeyCryptogram card false keyNo oldKey new =
      mixedKey (keyNo == card.keyNo) held new ++ piccVersion new := by
    have hfit : Bytes.xor (piccKey new)
        (Bytes.fit maxKeySize (piccKey held)) = Bytes.xor (piccKey new)
          (Bytes.fit (piccKeyLen new.type) (piccKey held)) := by
      rw [← Bytes.xor_take_right _ (Bytes.fit maxKeySize _), length_piccKey,
        Bytes.take_fit (piccKeyLen_le _)]
    rcases hold with rfl | ⟨rfl, rfl⟩
    · simp only [changeKeyCryptogram, wireKey_picc, versionByte_picc, hsame,
        mixedKey, hfit]
    · simp only [changeKeyCryptogram, wireKey_picc, versionByte_picc, mixedKey,
        beq_self_eq_true, if_true]
  have hsums : changeKeyChecksums card false keyNo new
      (mixedKey (keyNo == card.keyNo) held new ++ piccVersion new) =
      .ok (payloadSum card (keyNoData card keyNo new)
        (mixedKey (keyNo == card.keyNo) held new ++ piccVersion new) ++
          (if keyNo == card.keyNo then [] else
            newKeySum card (piccKey new))) := by
    simp only [changeKeyChecksums, wireKey_picc, hsame, payloadSum, newKeySum]
    cases hc : card.channel <;>
      simp_all [dfChangeKey]
  refine ⟨if changeEndsSession card false 0 keyNo then .plain else .mac, ?_⟩
  simp only [changeKeyRequest, hauth, hsame, hmixed, hsums, keyBody,
    Bool.true_eq_false, if_false, if_neg hvalid]
  rfl

/-- The body of a request, with zeros to the block. -/
def blockBody (card : Card) (body : Bytes) : Bytes :=
  Bytes.fit (paddedLen body.length (blockLen card)) body

theorem blockBody_mod (card : Card) (body : Bytes) :
    (blockBody card body).length % blockSize card.keyType = 0 := by
  rw [blockBody, Bytes.length_fit]
  exact paddedLen_mod (blockSize_pos _)

theorem le_blockBody (card : Card) (body : Bytes) :
    body.length ≤ (blockBody card body).length := by
  rw [blockBody, Bytes.length_fit]
  exact le_paddedLen (blockSize_pos _)

theorem blockBody_eq (card : Card) (body : Bytes) :
    blockBody card body = body ++
      Bytes.zeros (paddedLen body.length (blockLen card) - body.length) :=
  Bytes.fit_of_le (le_paddedLen (blockSize_pos _))

/-- The body behind the key number, as the encoders measure and pad it. -/
theorem blockBody_tail (card : Card) (src : Bytes) :
    paddedLen (src.length - 1) (blockLen card) =
        (blockBody card (src.drop 1)).length ∧
      Bytes.fit (blockBody card (src.drop 1)).length (src.drop 1) =
        blockBody card (src.drop 1) := by
  have hdrop : (src.drop 1).length = src.length - 1 := List.length_drop
  have hplen : paddedLen (src.length - 1) (blockLen card) =
      (blockBody card (src.drop 1)).length := by
    rw [blockBody, Bytes.length_fit, hdrop]
  refine ⟨hplen, ?_⟩
  rw [← hplen, ← hdrop, ← blockBody]

theorem changeKey_header {src : Bytes} (hsrc : 1 < src.length) :
    min (cmdHeaderLen dfChangeKey src.length) src.length = 1 :=
  Nat.min_eq_left (Nat.le_of_lt hsrc)

section

variable [BlockCipher] {card : Card} {src : Bytes} {cap : Nat}

theorem encodeD40_encPlain (hmode : card.mode = .encPlain)
    (hsrc : 1 < src.length)
    (hroom : 1 + (blockBody card (src.drop 1)).length ≤ cap) :
    (encodeD40 dfChangeKey src cap card).1 =
      .ok (src.take 1 ++ (decSent card.keyType card.sessionEnc.bytes zeroIv
        (blockBody card (src.drop 1))).1) := by
  have hdrop : (src.drop 1).length = src.length - 1 := List.length_drop
  have hle := le_blockBody card (src.drop 1)
  have hrun := (sameCipher_refl card.keyType card.sessionEnc.bytes).mirrors
    zeroIv (by omega) (blockBody_mod card (src.drop 1))
  obtain ⟨hplen, hfit⟩ := blockBody_tail card src
  have hzero : Bytes.zeros maxBlock = zeroIv := rfl
  simp only [encodeD40, changeKey_header hsrc, hmode, reduceCtorEq, false_and,
    or_self, if_false, if_true, hplen, hfit, hzero, hrun]
  rw [if_neg (by omega), if_neg (by omega), if_neg (by omega)]

theorem encodeEv1_encPlain (hmode : card.mode = .encPlain)
    (hsrc : 1 < src.length)
    (hroom : 1 + (blockBody card (src.drop 1)).length ≤ cap) :
    (encodeEv1 dfChangeKey src cap card).1 =
      .ok (src.take 1 ++ (encSent card.keyType card.sessionEnc.bytes
        card.iv.bytes (blockBody card (src.drop 1))).1) := by
  have hdrop : (src.drop 1).length = src.length - 1 := List.length_drop
  have hle := le_blockBody card (src.drop 1)
  have hrun := (sameCipher_refl card.keyType card.sessionEnc.bytes).sends
    card.iv.bytes (by omega) (blockBody_mod card (src.drop 1))
  obtain ⟨hplen, hfit⟩ := blockBody_tail card src
  simp only [encodeEv1, changeKey_header hsrc, hmode, reduceCtorEq, false_and,
    or_self, if_false, if_true, hplen, hfit, cbcCrypt, hrun]
  rw [if_neg (by omega), if_neg (by omega), if_neg (by omega)]

end

section

variable [c : BlockCipher]

/-- A request in MODE_ENC_PLAIN is read by the card with its padding. -/
theorem encPlain_read (hinv : DecryptInverts c) {card : Card}
    (hchan : card.channel ≠ .auto) {src : Bytes} (hsrc : 1 < src.length)
    (hlen : src.length ≤ 64) :
    ∃ frame, (channelEncode dfChangeKey src maxResponse
        { card with mode := .encPlain, macMismatch := false }).1 = .ok frame ∧
      piccReads card frame =
        some (src ++ requestPadding card (src.length - 1)) := by
  have hdrop : (src.drop 1).length = src.length - 1 := List.length_drop
  have hroom : 1 + (blockBody card (src.drop 1)).length ≤ maxResponse := by
    have hlt := @paddedLen_lt (src.length - 1) _ (blockSize_pos card.keyType)
    have hbs := blockSize_le card.keyType
    rw [maxBlock] at hbs
    rw [blockBody, Bytes.length_fit, hdrop, blockLen, maxResponse]
    omega
  have hhead : (src.take 1).length = 1 := by
    rw [List.length_take]
    exact Nat.min_eq_left (Nat.le_of_lt hsrc)
  -- zeros to the block, where the channel leaves the padding to the reader
  have hplain : src.take 1 ++ (blockBody card (src.drop 1)) =
      src ++ Bytes.zeros
        (paddedLen (src.length - 1) (blockLen card) - (src.length - 1)) := by
    rw [blockBody_eq, hdrop, ← List.append_assoc, List.take_append_drop]
  have hmod := blockBody_mod card (src.drop 1)
  have hcases : card.channel = .d40 ∨ card.channel = .ev1 ∨
      card.channel = .ev2 ∨ card.channel = .lrp := by
    cases hc : card.channel with
    | auto => exact absurd hc hchan
    | d40 | ev1 | ev2 | lrp => simp
  rcases hcases with hc | hc | hev2
  · refine ⟨src.take 1 ++ (decSent card.keyType card.sessionEnc.bytes zeroIv
      (blockBody card (src.drop 1))).1, ?_, ?_⟩
    · simp only [channelEncode, hc]
      exact encodeD40_encPlain rfl hsrc hroom
    · simp only [piccReads, requestPadding, hc]
      rw [List.take_left' hhead, List.drop_left' hhead,
        encReceived_decSent _ hinv (blockSize_le_zeroIv _) hmod, hplain]
  · refine ⟨src.take 1 ++ (encSent card.keyType card.sessionEnc.bytes
      card.iv.bytes (blockBody card (src.drop 1))).1, ?_, ?_⟩
    · simp only [channelEncode, hc]
      exact encodeEv1_encPlain rfl hsrc hroom
    · simp only [piccReads, requestPadding, hc]
      rw [List.take_left' hhead, List.drop_left' hhead,
        decReceived_encSent _ hinv (card_iv card) hmod, hplain]
  · have hsecured : securedLen dfChangeKey src true ≤ maxResponse := by
      have hgrow := Bytes.length_pad aesBlock (src.drop 1)
      have hone : cmdHeaderLen dfChangeKey src.length = 1 := rfl
      rw [aesBlock] at hgrow
      simp only [securedLen, hone, hsrc, and_self, if_true, aesBlock,
        maxResponse]
      omega
    have hsend := @channelEncode_ev2 _
      { card with mode := .encPlain, macMismatch := false } dfChangeKey src
      maxResponse hev2
    obtain ⟨frame, card', hencode, hread⟩ := @encodeEv2_read _ hinv
      dfChangeKey src maxResponse (remember dfChangeKey src
        { card with mode := .encPlain, macMismatch := false }) true hev2
      (.inr (.inr rfl)) hsecured
    refine ⟨frame, by rw [hsend, hencode], ?_⟩
    have hread' : peerReads card.onLrp card.peer true dfChangeKey frame =
        some (src, card'.peer) := hread
    rcases hev2 with hc | hc
    · simp only [piccReads, requestPadding, hc, hread', Option.map_some,
        List.append_nil]
    · simp only [piccReads, requestPadding, hc, hread', Option.map_some,
        List.append_nil]

/-- The request is made and encoded, and deciphered by the card. -/
theorem changed_key_read (hinv : DecryptInverts c) {card : Card}
    (hauth : card.authenticated = true) (hlost : card.sessionLost = false)
    (hchan : card.channel ≠ .auto) (keyNo : UInt8) {oldKey : Option Key}
    (held new : Key)
    (hold : oldKey = some held ∨ oldKey = none ∧ keyNo = card.keyNo) :
    ∃ req frame card',
      changeKeyRequest false 0 keyNo oldKey (some new) card = .ok req ∧
      exchangeRequest req.cmd req.data req.txMode req.rxMode card =
        (.ok frame, card') ∧
      piccReads card frame = some (keyNoData card keyNo new ::
        (keyBody card (keyNoData card keyNo new) (keyNo == card.keyNo) held
          new ++ requestPadding card (piccKeyLen new.type +
            piccVersionLen new.type + ((payloadSum card 0 []).length +
              if keyNo == card.keyNo then 0
              else (newKeySum card (piccKey new)).length)))) := by
  obtain ⟨rxMode, hreq⟩ := changeKeyRequest_ok new hauth hchan hold
  generalize (keyNo == card.keyNo) = same at hreq ⊢
  generalize keyNoData card keyNo new = head at hreq ⊢
  have hbody := length_keyBody card head same held new
  obtain ⟨hfirst, hsum⟩ := length_sums_le card (piccKey new)
  have hkey := piccKeyLen_le new.type
  have hversion : piccVersionLen new.type ≤ 1 := by
    rw [piccVersionLen]
    split <;> decide
  have hkeyPos : 0 < piccKeyLen new.type := by
    cases new.type <;> decide
  rw [maxKeySize] at hkey
  have hsrc : (head :: keyBody card head same held new).length =
      (keyBody card head same held new).length + 1 := rfl
  have hlong : 1 < (head :: keyBody card head same held new).length := by
    rw [hsrc, hbody]
    omega
  have hshort : (head :: keyBody card head same held new).length ≤ 64 := by
    rw [hsrc, hbody]
    split <;> omega
  obtain ⟨frame, hencode, hread⟩ := encPlain_read hinv hchan hlong hshort
  have hopen : ¬ (card.sessionLost = true ∧
      (Mode.encPlain ≠ .plain ∨ rxMode ≠ .plain)) := by
    rw [hlost]
    exact fun h => Bool.false_ne_true h.1
  refine ⟨_, frame, _, hreq, Prod.ext ?_ rfl, ?_⟩
  · rw [exchangeRequest, if_neg hopen]
    exact hencode
  · rw [hread, hsrc, Nat.add_sub_cancel, hbody]
    rfl

/-- For every session, number and pair of keys, the card takes the new key out
of the request just where both sides read the number alike, or where it does
not matter. -/
theorem changed_key_recovered_iff (hinv : DecryptInverts c) {card : Card}
    (hauth : card.authenticated = true) (hlost : card.sessionLost = false)
    (hchan : card.channel ≠ .auto) (keyNo : UInt8) {oldKey : Option Key}
    (held new : Key)
    (hold : oldKey = some held ∨ oldKey = none ∧ keyNo = card.keyNo) :
    ∃ req frame card' msg,
      changeKeyRequest false 0 keyNo oldKey (some new) card = .ok req ∧
      exchangeRequest req.cmd req.data req.txMode req.rxMode card =
        (.ok frame, card') ∧
      piccReads card frame = some msg ∧
      (KeyTaken card held new msg ↔
        SameReading card keyNo ∨ ReadingHarmless card keyNo held new) := by
  obtain ⟨req, frame, card', hreq, hencode, hread⟩ :=
    changed_key_read hinv hauth hlost hchan keyNo held new hold
  refine ⟨req, frame, card', _, hreq, hencode, hread, ?_⟩
  have hnum : (keyNo == card.keyNo) = true ↔ keyNo = card.keyNo := beq_iff_eq
  rw [keyTaken_iff, keyNoData_low]
  refine or_congr ?_ (and_congr_right fun _ => ?_)
  · rw [SameReading]
    by_cases hfull : keyNo = card.keyNo
    · rw [iff_true_left hfull, hnum.mpr hfull]
      simp
    · rw [iff_false_left hfull, beq_eq_false_iff_ne.mpr hfull]
      simp
  · refine imp_congr_ctx hnum fun heq => ?_
    rw [if_pos (hnum.mpr heq), Nat.add_zero]

end

/-- A key whose bytes are not all zeros. -/
def markedKey : Key := { zeroKey with data := (Buf.zero 32).put [0x5A] }

/-- Key 0x01 of an EV2 session opened with key 0x00. -/
theorem changed_key_recovered_other :
    ∃ req frame card' msg,
      changeKeyRequest false 0 0x01 (some markedKey) (some zeroKey) liveEv2 =
        .ok req ∧
      @exchangeRequest .identity req.cmd req.data req.txMode req.rxMode
        liveEv2 = (.ok frame, card') ∧
      @piccReads .identity liveEv2 frame = some msg ∧
      (KeyTaken liveEv2 markedKey zeroKey msg ↔
        SameReading liveEv2 0x01 ∨
          ReadingHarmless liveEv2 0x01 markedKey zeroKey) :=
  @changed_key_recovered_iff .identity decryptInverts_identity liveEv2 rfl rfl
    Channel.noConfusion 0x01 (some markedKey) markedKey zeroKey (.inl rfl)

/-- In a session opened with key 0x01, ChangeKey of 0x41 sends the new key
mixed with the old one, under the session's own number. -/
theorem aliased_key_not_recovered :
    ∃ req frame card' msg,
      changeKeyRequest false 0 0x41 (some markedKey) (some zeroKey)
        { liveEv2 with keyNo := 0x01 } = .ok req ∧
      @exchangeRequest .identity req.cmd req.data req.txMode req.rxMode
        { liveEv2 with keyNo := 0x01 } = (.ok frame, card') ∧
      @piccReads .identity { liveEv2 with keyNo := 0x01 } frame = some msg ∧
      ¬ KeyTaken { liveEv2 with keyNo := 0x01 } markedKey zeroKey msg := by
  obtain ⟨req, frame, card', hreq, hencode, hread⟩ := @changed_key_read
    .identity decryptInverts_identity { liveEv2 with keyNo := 0x01 } rfl rfl
    Channel.noConfusion 0x41 (some markedKey) markedKey zeroKey (.inl rfl)
  refine ⟨req, frame, card', _, hreq, hencode, hread, ?_⟩
  rw [keyTaken_iff, keyNoData_low]
  rintro (hsame | ⟨hzero, -⟩)
  · exact absurd hsame (by decide)
  · exact absurd hzero (by decide)

end Nxpsc
