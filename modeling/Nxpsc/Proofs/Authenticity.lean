import Nxpsc.Proofs.AnswerRule
import Nxpsc.Proofs.Wire
import Nxpsc.Spec.Session

/-!
# What an accepted answer proves

An answer in a MACed or enciphered mode is evidence of the card only if a
check over the delivered bytes passed: the MAC behind them, or the checksum
behind them in the deciphered answer. `Verified` says which check that is,
channel by channel; the decoders deliver nothing else, except an enciphered
answer too short to be a block.
-/

namespace Nxpsc

theorem no_tag {out tag : Bytes} {n : Nat} (hlen : n ≤ tag.length)
    (hn : 0 < n) :
    out ≠ out ++ tag.take n := by
  intro h
  have := congrArg List.length h
  rw [List.length_append, List.length_take, Nat.min_eq_left hlen] at this
  omega

section

variable [BlockCipher]

/-- On EV2 and LRP the MAC is there in both modes. -/
theorem ev2_verified {src out : Bytes} {status : UInt8} {cap : Nat}
    {card : Card} (hchan : card.channel = .ev2 ∨ card.channel = .lrp)
    (hmode : card.mode = .mac ∨ card.mode = .enc)
    (hby : AcceptedBy card src status cap out (answerRule card)) :
    MacEv2 card src out := by
  rcases hmode with hm | hm
  · rcases hchan with hc | hc
    all_goals
      simp only [answerRule, hc, hm, if_true, AcceptedBy, AcceptedMac] at hby
      obtain ⟨mac, hmac, hsrc⟩ := hby
      exact ⟨out, mac, hmac, hsrc, .inl rfl⟩
  · rcases hchan with hc | hc
    all_goals
      simpa only [answerRule, hc, hm, reduceCtorEq, if_false, true_or, if_true,
        AcceptedBy, AcceptedCipher] using hby

theorem channelDecode_verified {src out : Bytes} {status : UInt8} {cap : Nat}
    {card card' : Card} (hmode : card.mode = .mac ∨ card.mode = .enc)
    (hchan : card.channel ≠ .auto)
    (hrx : card.channel = .d40 → card.lastCmd ∈ rxMacCmds)
    (hshort : ¬ ShortAnswer card src cap)
    (h : channelDecode src status cap card = (.ok out, card')) :
    Verified card src status out := by
  have hby := channelDecode_accepted h
  rw [Verified]
  cases hc : card.channel with
  | d40 =>
      have hreceives : receivesMac card card.lastCmd = true := by
        rw [receivesMac, if_neg (not_not.mpr hc)]
        simpa using hrx hc
      rcases hmode with hm | hm
      · simp only [answerRule, hc, hm, if_true, hreceives, AcceptedBy,
          AcceptedMac] at hby
        exact .inl hby
      · simp only [answerRule, hc, hm, reduceCtorEq, if_false, true_or,
          if_true, AcceptedBy, AcceptedCipher] at hby
        rcases hby with ⟨hblock, hcap, -⟩ | hplain
        · exact absurd ⟨hm, .inl hc, hblock, hcap⟩ hshort
        · exact .inr hplain
  | ev1 =>
      simp only [answerRule, hc] at hby
      split at hby
      · simp only [AcceptedBy, AcceptedMac, hc] at hby
        exact .inl hby
      next hmaced =>
      -- what is left is the enciphered mode after a request without a body
      have hm : card.mode = .enc := by
        rcases hmode with hm | hm
        · exact absurd (.inr (.inl hm)) hmaced
        · exact hm
      have hclear : card.lastRequestZeroLen = true := by
        refine eq_true_of_ne_false fun hbody => ?_
        exact hmaced (.inr (.inr ⟨hm, hbody⟩))
      simp only [hm, true_or, if_true, AcceptedBy, AcceptedCipher, hc] at hby
      rcases hby with ⟨hblock, hcap, -⟩ | hplain
      · exact absurd ⟨hm, .inr ⟨hc, hclear⟩, hblock, hcap⟩ hshort
      · exact .inr hplain
  | ev2 => exact ev2_verified (.inl hc) hmode hby
  | lrp => exact ev2_verified (.inr hc) hmode hby
  | auto => exact absurd hc hchan

/-! ## The short answer -/

theorem not_deciphers_short {card : Card} {iv src plain : Bytes}
    (h : src.length < blockLen card) : ¬ Deciphers card iv src plain := by
  rintro ⟨last, hcbc⟩
  rw [cbcCryptEx] at hcbc
  rw [blockLen] at h
  have hno : src.length = 0 ∨ src.length % blockSize card.keyType ≠ 0 := by
    rw [Nat.mod_eq_of_lt h]
    omega
  rw [if_pos hno] at hcbc
  cases hcbc

/-- A short answer is delivered as it came, and nothing vouches for it. -/
theorem short_unverified {src : Bytes} (status : UInt8) {cap : Nat}
    {card : Card} (h : ShortAnswer card src cap) :
    channelDecode src status cap card = (.ok src, card) ∧
      ¬ Verified card src status src := by
  obtain ⟨hmode, hchan, hblock, hcap⟩ := h
  have hcopy : copyOutput cap src = .ok src := copyOutput_eq hcap
  rcases hchan with hc | ⟨hc, hclear⟩
  · refine ⟨?_, ?_⟩
    · simp only [channelDecode, hc, decodeD40, hmode, reduceCtorEq, if_false,
        true_or, if_true, if_pos hblock, hcopy]
    · simp only [Verified, hc]
      rintro (⟨cipher, last, hcbc, hsrc⟩ | ⟨plain, hdec, -⟩)
      · have hlast := (cbcCryptEx_ok (maxBlock_iv card.keyType) hcbc).2.2.2
        have h8 := eight_le_blockSize card.keyType
        exact no_tag (by omega) (by decide) hsrc
      · exact not_deciphers_short hblock hdec
  · refine ⟨?_, ?_⟩
    · simp only [channelDecode, hc, decodeEv1, hmode, hclear, reduceCtorEq,
        Bool.true_eq_false, and_false, or_self, if_false, true_or, if_true,
        if_pos hblock, hcopy]
    · simp only [Verified, hc]
      rintro (⟨mac, hmac, hsrc⟩ | ⟨plain, hdec, -⟩)
      · obtain ⟨mac', hmac', hlen⟩ :=
          cmac_isOk (src ++ [status]) 0 (card_iv card)
        cases hmac.symm.trans hmac'
        have h8 := eight_le_blockSize card.keyType
        exact no_tag (by omega) (by decide) hsrc
      · exact not_deciphers_short hblock hdec

/-- Every answer accepted in a MACed or enciphered mode is verified, exactly
when it is not a short answer to be deciphered. -/
theorem accepted_answer_verified {src : Bytes} {status : UInt8} {cap : Nat}
    {card : Card} (hmode : card.mode = .mac ∨ card.mode = .enc)
    (hchan : card.channel ≠ .auto)
    (hrx : card.channel = .d40 → card.lastCmd ∈ rxMacCmds) :
    (∀ out card', channelDecode src status cap card = (.ok out, card') →
        Verified card src status out) ↔ ¬ ShortAnswer card src cap := by
  constructor
  · intro hall hshort
    obtain ⟨hdec, hno⟩ := short_unverified status hshort
    exact hno (hall _ _ hdec)
  · intro hshort out card' h
    exact channelDecode_verified hmode hchan hrx hshort h

end

/-- A handle that expects an enciphered answer to a request without a body. -/
def awaitsUid : Card :=
  { liveEv1 with
    mode := .enc
    lastCmd := dfGetCardUid
    lastRequestZeroLen := true }

theorem accepted_answer_verified_uid :
    (∀ out card', @channelDecode .identity (Bytes.zeros 16) 0x00 16 awaitsUid =
        (.ok out, card') →
        @Verified .identity awaitsUid (Bytes.zeros 16) 0x00 out) ↔
      ¬ ShortAnswer awaitsUid (Bytes.zeros 16) 16 :=
  @accepted_answer_verified .identity _ _ _ _ (.inr rfl) (by decide)
    fun h => nomatch h

/-- Three bytes nobody sent are taken for an enciphered answer. -/
theorem accepted_answer_may_be_unverified :
    ¬ ∀ (_ : BlockCipher) (card card' : Card) (src out : Bytes)
      (status : UInt8) (cap : Nat),
      card.mode = .mac ∨ card.mode = .enc → card.channel ≠ .auto →
      (card.channel = .d40 → card.lastCmd ∈ rxMacCmds) →
      channelDecode src status cap card = (.ok out, card') →
      Verified card src status out := by
  intro hall
  have hshort : ShortAnswer awaitsUid [0x01, 0x02, 0x03] 16 :=
    ⟨rfl, .inr ⟨rfl, rfl⟩, by decide, by decide⟩
  obtain ⟨hdec, hno⟩ := @short_unverified .identity _ 0x00 _ _ hshort
  exact hno (hall .identity _ _ _ _ _ _ (.inr rfl) (by decide)
    (fun h => nomatch h) hdec)

end Nxpsc
