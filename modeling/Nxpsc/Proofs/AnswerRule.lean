import Nxpsc.Proofs.CrcSearch
import Nxpsc.Spec.Answers

/-!
# How an answer is checked

What is accepted as an answer was delivered as it came, or it was checked
against a MAC, or it was deciphered. Which of the three depends on the channel,
the mode, the command the answer belongs to and whether its request had a
body. The rule is read off the handle here, and `channelDecode` follows it.
-/

namespace Nxpsc

theorem copyOutput_eq {cap : Nat} {data : Bytes} (h : data.length ≤ cap) :
    copyOutput cap data = .ok data := by
  rw [copyOutput, if_neg (Nat.not_lt.mpr h)]

theorem copyOutput_ok {cap : Nat} {src out : Bytes}
    (h : copyOutput cap src = .ok out) : out = src ∧ src.length ≤ cap := by
  rw [copyOutput] at h
  split at h
  · cases h
  · next hcap =>
      cases h
      exact ⟨rfl, Nat.le_of_not_lt hcap⟩

/-- A decoder that ends with a copy delivers its source. -/
theorem delivered_copy {cap : Nat} {src out : Bytes} {card card' : Card}
    (h : (copyOutput cap src, card) = (.ok out, card')) :
    out = src ∧ src.length ≤ cap :=
  copyOutput_ok (Prod.mk.inj h).1

theorem split_mac {src mac : Bytes} {n : Nat} (h : src.drop n = mac) :
    src = src.take n ++ mac := by
  rw [← h, List.take_append_drop]

/-- An accepted position splits the deciphered answer at its checksum. -/
theorem crcAt_split {plain : Bytes} {status : UInt8} {crcLen c : Nat}
    (h : CrcAt plain status crcLen c) :
    ∃ rest, plain = plain.take c ++ (if crcLen = 4 then
      crc32 (plain.take c ++ [status]) else crc16 (plain.take c)) ++ rest := by
  obtain ⟨-, -, hmatch⟩ := h
  rw [crcMatches, beq_iff_eq] at hmatch
  refine ⟨(plain.drop c).drop crcLen, ?_⟩
  rw [hmatch, List.append_assoc, List.take_append_drop, List.take_append_drop]

/-- A position the search returns stands behind checked bytes. -/
theorem searchCrcPos_split {plain : Bytes} {status : UInt8} {crcLen : Nat}
    (h : searchCrcPos plain status crcLen ≠ 0) :
    ∃ rest, plain = plain.take (searchCrcPos plain status crcLen) ++
      (if crcLen = 4 then
        crc32 (plain.take (searchCrcPos plain status crcLen) ++ [status])
      else crc16 (plain.take (searchCrcPos plain status crcLen))) ++ rest := by
  rcases searchCrcPos_spec plain status crcLen with ⟨hr, -⟩ | ⟨-, -, hat, -⟩
  · exact absurd hr h
  · exact crcAt_split hat

section

variable [BlockCipher]

theorem decodeD40_accepted {src out : Bytes} {status : UInt8} {cap : Nat}
    {card card' : Card} (hchan : card.channel = .d40)
    (h : decodeD40 src status cap card = (.ok out, card')) :
    AcceptedBy card src status cap out (answerRule card) := by
  have hmac4 : macLength card = 4 := by rw [macLength, hchan]
  simp only [answerRule, hchan]
  rw [decodeD40] at h
  split at h
  · next hmode =>
      rw [if_pos hmode]
      dsimp only at h
      rw [hmac4] at h
      split at h
      · next hno =>
          rw [if_neg (by rw [hno]; decide)]
          exact (delivered_copy h).1
      next hreceives =>
      rw [if_pos (eq_true_of_ne_false hreceives)]
      split at h
      · cases h
      have hdata : (src.take (src.length - 4)).length = src.length - 4 := by
        rw [List.length_take]
        omega
      split at h
      · cases h
      next cipher last hcbc =>
      split at h
      · cases h
      next heq =>
      obtain ⟨rfl, -⟩ := delivered_copy h
      simp only [AcceptedBy, AcceptedMac, hchan]
      refine ⟨cipher, last, ?_, split_mac (not_not.mp heq).symm⟩
      rw [hdata]
      exact hcbc
  next hmode =>
  rw [if_neg hmode]
  split at h
  · next henc =>
      rw [if_pos henc]
      simp only [AcceptedBy, AcceptedCipher, hchan]
      split at h
      · next hblock =>
          obtain ⟨hout, hcap⟩ := delivered_copy h
          exact .inl ⟨hblock, hcap, hout⟩
      split at h
      · cases h
      next plain last hcbc =>
      refine .inr ⟨plain, ⟨last, hcbc⟩, ?_⟩
      dsimp only at h
      split at h
      · next hfallback =>
          split at h
          · cases h
          next hfound =>
          obtain ⟨rfl, -⟩ := delivered_copy h
          exact .inr ⟨hfallback.2, searchCrcPos_split hfound⟩
      · split at h
        · cases h
        next hfound =>
        obtain ⟨rfl, -⟩ := delivered_copy h
        exact .inl (searchCrcPos_split hfound)
  · next hplain =>
      rw [if_neg hplain]
      exact (delivered_copy h).1

theorem decodeEv1_accepted {src out : Bytes} {status : UInt8} {cap : Nat}
    {card card' : Card} (hchan : card.channel = .ev1)
    (h : decodeEv1 src status cap card = (.ok out, card')) :
    AcceptedBy card src status cap out (answerRule card) := by
  have hmac8 : macLength card = 8 := by rw [macLength, hchan]
  simp only [answerRule, hchan]
  simp only [decodeEv1, hmac8] at h
  split at h
  · next hmaced =>
      rw [if_pos hmaced]
      split at h
      · cases h
      split at h
      · cases h
      next mac hmac =>
      split at h
      · cases h
      next heq =>
      obtain ⟨rfl, -⟩ := delivered_copy h
      simp only [AcceptedBy, AcceptedMac, hchan]
      exact ⟨mac, hmac, split_mac (not_not.mp heq)⟩
  next hmaced =>
  rw [if_neg hmaced]
  split at h
  · next henc =>
      rw [if_pos henc]
      simp only [AcceptedBy, AcceptedCipher, hchan]
      split at h
      · next hblock =>
          obtain ⟨hout, hcap⟩ := delivered_copy h
          exact .inl ⟨hblock, hcap, hout⟩
      split at h
      · cases h
      next plain last hcbc =>
      split at h
      · cases h
      next hfound =>
      obtain ⟨rfl, -⟩ := delivered_copy h
      exact .inr ⟨plain, ⟨last, hcbc⟩, searchCrcPos_split hfound⟩
  · next hplain =>
      rw [if_neg hplain]
      exact (delivered_copy h).1

theorem decodeEv2_accepted {src out : Bytes} {status : UInt8} {cap : Nat}
    {card card' : Card} (hchan : card.channel = .ev2 ∨ card.channel = .lrp)
    (h : decodeEv2 src cap card = (.ok out, card')) :
    AcceptedBy card src status cap out (answerRule card) := by
  have hrule : answerRule card =
      if card.mode = .mac then .maced
      else if card.mode = .enc ∨ card.mode = .encPadded then .deciphered
      else .delivered := by
    rcases hchan with hchan | hchan
    · simp only [answerRule, hchan]
    · simp only [answerRule, hchan]
  rw [hrule]
  simp only [decodeEv2] at h
  split at h
  · next hno =>
      rw [if_neg hno.1, if_neg (not_or.mpr hno.2)]
      exact (delivered_copy h).1
  next hyes =>
  split at h
  · cases h
  split at h
  · cases h
  next mac hmac =>
  split at h
  · cases h
  next heq =>
  have hsrc := split_mac (not_not.mp heq)
  have hdata : (src.take (src.length - macLength card)).length =
      src.length - macLength card := by
    rw [List.length_take]
    omega
  by_cases hmode : card.mode = .mac
  · rw [if_pos hmode]
    rw [if_pos (.inl hmode)] at h
    obtain ⟨rfl, -⟩ := delivered_copy h
    rcases hchan with hchan | hchan
    · simp only [AcceptedBy, AcceptedMac, hchan]
      exact ⟨mac, hmac, hsrc⟩
    · simp only [AcceptedBy, AcceptedMac, hchan]
      exact ⟨mac, hmac, hsrc⟩
  have henc : card.mode = .enc ∨ card.mode = .encPadded :=
    Classical.not_not.mp fun hplain => hyes ⟨hmode, not_or.mp hplain⟩
  rw [if_neg hmode, if_pos henc]
  suffices hcipher : MacEv2 card src out by
    rcases hchan with hchan | hchan
    · simp only [AcceptedBy, AcceptedCipher, hchan]
      exact hcipher
    · simp only [AcceptedBy, AcceptedCipher, hchan]
      exact hcipher
  split at h
  · obtain ⟨rfl, -⟩ := delivered_copy h
    exact ⟨_, mac, hmac, hsrc, .inl rfl⟩
  split at h
  · cases h
  next plain after hplain =>
  split at h
  · cases h
  obtain ⟨rfl, -⟩ := delivered_copy h
  refine ⟨_, mac, hmac, hsrc, .inr ⟨plain, after, hplain, ?_⟩⟩
  rw [hdata]

/-- What `channelDecode` accepts, it accepts by the rule. -/
theorem channelDecode_accepted {src out : Bytes} {status : UInt8} {cap : Nat}
    {card card' : Card}
    (h : channelDecode src status cap card = (.ok out, card')) :
    AcceptedBy card src status cap out (answerRule card) := by
  rw [channelDecode] at h
  split at h
  · next hchan => exact decodeD40_accepted hchan h
  · next hchan => exact decodeEv1_accepted hchan h
  · next hchan => exact decodeEv2_accepted (.inl hchan) h
  · next hchan => exact decodeEv2_accepted (.inr hchan) h
  · next hchan =>
      simp only [answerRule, hchan]
      exact (delivered_copy h).1

end

end Nxpsc
