import Nxpsc.Proofs.Authenticity
import Nxpsc.Spec.HonestCard

/-!
# Deciphering what the card enciphered

The card sends a payload, its checksum and zeros up to whole blocks, and no
length. The reader looks for the checksum, so it gets the payload back exactly
when the payload is what the search comes to first. It cannot always be: a
payload that ends in its own checksum is sent like the payload without it.
-/

namespace Nxpsc

theorem answerPlain_eq (card : Card) (payload crc : Bytes) :
    ∃ k, answerPlain card payload crc = payload ++ crc ++ Bytes.zeros k := by
  rw [answerPlain, Bytes.fit_of_le]
  · exact ⟨_, rfl⟩
  · rw [List.length_append]
    exact le_paddedLen (blockSize_pos card.keyType)

/-- The checksum the search looks for. -/
def answerCrc (crcLen : Nat) (payload : Bytes) (status : UInt8) : Bytes :=
  if crcLen = 4 then crc32 (payload ++ [status]) else crc16 payload

theorem answerPlain_at {card : Card} {payload : Bytes} {status : UInt8}
    {crcLen : Nat} (hcrc : (answerCrc crcLen payload status).length = crcLen)
    (hne : payload ≠ [])
    (hmax : payload.length ≤ maxResponse) :
    CrcAt (answerPlain card payload (answerCrc crcLen payload status)) status
        crcLen payload.length ∧
      crcSearchStart
        (answerPlain card payload (answerCrc crcLen payload status)) ≤
          payload.length + crcLen ∧
      (answerPlain card payload (answerCrc crcLen payload status)).take
        payload.length = payload := by
  obtain ⟨k, hplain⟩ :=
    answerPlain_eq card payload (answerCrc crcLen payload status)
  have hpos := List.length_pos_iff.mpr hne
  have hfront : (payload ++ answerCrc crcLen payload status).length =
      payload.length + crcLen := by rw [List.length_append, hcrc]
  have htake : (answerPlain card payload
      (answerCrc crcLen payload status)).take payload.length = payload := by
    rw [hplain, List.append_assoc, List.take_left]
  refine ⟨⟨?_, hmax, ?_⟩, ?_, htake⟩
  · rw [hplain, List.length_append, hfront]
    omega
  · rw [crcMatches, htake, hplain, List.append_assoc, List.drop_left,
      List.take_left' hcrc, beq_iff_eq]
    rfl
  · rw [hplain, ← hfront]
    exact crcSearchStart_le k (by rw [hfront]; omega)

theorem crc16_at (card : Card) {payload : Bytes} (hne : payload ≠ [])
    (hmax : payload.length ≤ maxResponse) :
    CrcAt (answerPlain card payload (crc16 payload)) 0x00 2 payload.length ∧
      crcSearchStart (answerPlain card payload (crc16 payload)) ≤
        payload.length + 2 ∧
      (answerPlain card payload (crc16 payload)).take payload.length =
        payload :=
  @answerPlain_at card payload 0x00 2 (length_crc16 payload) hne hmax

theorem crc32_at (card : Card) {payload : Bytes} (hne : payload ≠ [])
    (hmax : payload.length ≤ maxResponse) :
    CrcAt (answerPlain card payload (crc32 (payload ++ [0x00]))) 0x00 4
        payload.length ∧
      crcSearchStart (answerPlain card payload (crc32 (payload ++ [0x00]))) ≤
        payload.length + 4 ∧
      (answerPlain card payload (crc32 (payload ++ [0x00]))).take
        payload.length = payload :=
  @answerPlain_at card payload 0x00 4 (length_crc32 (payload ++ [0x00])) hne
    hmax

/-- What is delivered at a position is the payload exactly when the position
is the payload's. -/
theorem delivered_iff {plain payload : Bytes} {cap r : Nat} {card : Card}
    (htake : plain.take payload.length = payload) (hne : payload ≠ [])
    (hcap : payload.length ≤ cap) (hr : r ≤ plain.length) :
    (if r = 0 then (Except.error Err.crypto, card)
      else (copyOutput cap (plain.take r), card)).1 = .ok payload ↔
      r = payload.length := by
  have hpos := List.length_pos_iff.mpr hne
  constructor
  · intro h
    split at h
    · cases h
    · have hlen := congrArg List.length (copyOutput_ok h).1
      rw [List.length_take] at hlen
      omega
  · intro h
    rw [h, if_neg (by omega), htake, copyOutput,
      if_neg (Nat.not_lt.mpr hcap)]

theorem answerPlain_blocks (card : Card) (payload crc : Bytes)
    (hne : payload ≠ []) :
    blockLen card ≤ (answerPlain card payload crc).length := by
  have hpos := List.length_pos_iff.mpr hne
  have hbs := blockSize_pos card.keyType
  rw [answerPlain, Bytes.length_fit]
  exact Nat.le_of_dvd (paddedLen_pos hbs (by omega))
    (Nat.dvd_of_mod_eq_zero (paddedLen_mod hbs))

/-- What the search of `decode_d40` settles on: a CRC16 if there is one, else
on newer silicon a CRC32. -/
def foundD40 (card : Card) (plain : Bytes) (status : UInt8) : Nat :=
  if searchCrcPos plain status 2 = 0 ∧ card.type ≠ .desfireMf3icd40 then
    searchCrcPos plain status 4
  else searchCrcPos plain status 2

theorem foundD40_le (card : Card) (plain : Bytes) (status : UInt8) :
    foundD40 card plain status ≤ plain.length := by
  rw [foundD40]
  split
  · exact searchCrcPos_le plain status 4
  · exact searchCrcPos_le plain status 2

theorem foundD40_crc16 {card : Card} {payload : Bytes} (hne : payload ≠ [])
    (hmax : payload.length ≤ maxResponse) :
    foundD40 card (answerPlain card payload (crc16 payload)) 0x00 =
        payload.length ↔
      searchCrcPos (answerPlain card payload (crc16 payload)) 0x00 2 =
        payload.length := by
  obtain ⟨hat, hstart, -⟩ := crc16_at card hne hmax
  have hpos := List.length_pos_iff.mpr hne
  rw [foundD40]
  split
  · next hnone =>
      obtain ⟨hzero, -⟩ := hnone
      refine iff_of_false (fun hfour => ?_) (by omega)
      rcases searchCrcPos_spec (answerPlain card payload (crc16 payload)) 0x00 2
        with ⟨-, hno⟩ | ⟨-, hwin, -, -⟩
      · rcases searchCrcPos_spec (answerPlain card payload (crc16 payload))
          0x00 4 with ⟨hr, -⟩ | ⟨hlong, hwin, -, -⟩
        · omega
        · have hbelow := hwin.2.1
          have hlen := hat.1
          refine hno (by omega) (by omega) payload.length ⟨hpos, ?_, ?_⟩ hat
          · omega
          · omega
      · have := hwin.1
        omega
  · rfl

section

variable [c : BlockCipher]

theorem decodeD40_enciphered (hinv : DecryptInverts c) {card : Card}
    {payload crc src : Bytes} {status : UInt8} {cap : Nat}
    (hmode : card.mode = .enc) (hne : payload ≠ [])
    (hsrc : Enciphers card (Bytes.zeros maxBlock)
      (answerPlain card payload crc) src) :
    decodeD40 src status cap card =
      if foundD40 card (answerPlain card payload crc) status = 0 then
        (.error .crypto, card)
      else (copyOutput cap ((answerPlain card payload crc).take
        (foundD40 card (answerPlain card payload crc) status)), card) := by
  obtain ⟨last, henc⟩ := hsrc
  have hlen := (cbcCryptEx_ok (maxBlock_iv card.keyType) henc).2.2.1
  have hblock : ¬ src.length < blockLen card := by
    rw [hlen]
    exact Nat.not_lt.mpr (answerPlain_blocks card payload crc hne)
  have hdec := cbcCryptEx_decipher hinv (maxBlock_iv card.keyType) henc
  simp only [decodeD40, hmode, reduceCtorEq, if_false, true_or, if_true,
    if_neg hblock, hdec, foundD40]
  rfl

theorem decodeEv1_enciphered (hinv : DecryptInverts c) {card : Card}
    {payload crc src : Bytes} {status : UInt8} {cap : Nat}
    (hmode : card.mode = .enc) (hclear : card.lastRequestZeroLen = true)
    (hne : payload ≠ [])
    (hsrc : Enciphers card card.iv.bytes (answerPlain card payload crc) src) :
    decodeEv1 src status cap card =
      if searchCrcPos (answerPlain card payload crc) status 4 = 0 then
        (.error .crypto, card)
      else (copyOutput cap ((answerPlain card payload crc).take
        (searchCrcPos (answerPlain card payload crc) status 4)), card) := by
  obtain ⟨last, henc⟩ := hsrc
  have hlen := (cbcCryptEx_ok (card_iv card) henc).2.2.1
  have hblock : ¬ src.length < blockLen card := by
    rw [hlen]
    exact Nat.not_lt.mpr (answerPlain_blocks card payload crc hne)
  have hdec : cbcCrypt card.keyType card.sessionEnc.bytes card.iv.bytes src
      false = _ := cbcCryptEx_decipher hinv (card_iv card) henc
  simp only [decodeEv1, hmode, hclear, reduceCtorEq, Bool.true_eq_false,
    and_false, or_self, if_false, true_or, if_true, if_neg hblock, hdec]

end

end Nxpsc
