import Nxpsc.Proofs.RequestShape
import Nxpsc.Proofs.Wire
import Nxpsc.Spec.Session

/-!
# A request that cannot be encoded

What an encoder that reports an error has already done to the handle. D40
keeps no running state, EV2 and LRP check the destination before they touch
theirs; EV1 takes its CMAC first, and with it the running IV.
-/

namespace Nxpsc

/-- An error comes with the handle as it was. -/
def Spared (card : Card) (done : Except Err Bytes × Card) : Prop :=
  ∀ e, done.1 = .error e → done.2 = card

theorem spared_error (card : Card) (e : Err) : Spared card (.error e, card) :=
  fun _ _ => rfl

theorem spared_ok (card card' : Card) (w : Bytes) :
    Spared card (.ok w, card') := fun e h => by cases h

section

variable [BlockCipher] {cmd : UInt8} {src : Bytes} {cap : Nat} {card : Card}

theorem encodeD40_spared : Spared card (encodeD40 cmd src cap card) := by
  simp only [encodeD40]
  repeat' split
  all_goals first
    | exact spared_error card _
    | exact spared_ok card _ _

theorem encodeEv1_spared (hchan : card.channel = .ev1)
    (hfits : ¬ MacOutgrows card cmd src.length cap) :
    Spared card (encodeEv1 cmd src cap card) := by
  have hmac8 : ∀ iv, macLength { card with iv := iv } = 8 := by
    intro iv
    rw [macLength, hchan]
  simp only [encodeEv1]
  split
  · exact spared_error card _
  next hlen =>
  split
  · cases hcmac : cmac card.keyType card.sessionMac.bytes card.iv.bytes
        (cmd :: src) 0 with
    | error e => exact spared_error card e
    | ok mac =>
        dsimp only
        split
        · next hsends =>
            rw [hmac8]
            -- the IV has moved on, so the MAC has to fit
            rw [if_neg fun hcap =>
              hfits ⟨hchan, hsends.1, hsends.2, Nat.not_lt.mp hlen, hcap⟩]
            exact spared_ok _ _ _
        · exact spared_ok _ _ _
  · repeat' split
    all_goals first
      | exact spared_error card _
      | exact spared_ok card _ _

/-- The enciphering cannot fail where there is room for what it delivers. -/
theorem encodeEv2_spared (hchan : card.channel = .ev2 ∨ card.channel = .lrp) :
    Spared card (encodeEv2 cmd src cap card) := by
  have hmac8 : macLength card = 8 := by
    rcases hchan with h | h <;> rw [macLength, h]
  have hle : min (cmdHeaderLen cmd src.length) src.length ≤ src.length :=
    Nat.min_le_right _ _
  simp only [encodeEv2, hmac8]
  generalize min (cmdHeaderLen cmd src.length) src.length = hdr at hle
  have hdel := @delivers_ev2Body _ card cmd src hdr cap hle
  split
  · exact spared_error card _
  next hcap =>
  rw [if_neg hcap] at hdel
  split
  · repeat' split
    all_goals first
      | exact spared_error card _
      | exact spared_ok card _ _
  split
  swap
  · exact spared_ok card _ _
  by_cases hbody : hdr < src.length
  · by_cases hroom : cap < hdr + paddedLen (src.length + 1 - hdr) aesBlock + 8
    · rw [if_pos ⟨hbody, hroom⟩]
      exact spared_error card _
    · have hno : ¬ (hdr < src.length ∧
          cap < hdr + paddedLen (src.length + 1 - hdr) aesBlock + 8) :=
        fun h => hroom h.2
      rw [if_neg hno, if_pos hbody] at hdel ⊢
      intro e h
      rcases hdel with ⟨hover, -⟩ | ⟨-, w, hw, -⟩
      · rw [if_pos hbody] at hover
        exact absurd hover hroom
      · cases h.symm.trans hw
  · rw [if_neg fun h => hbody h.1, if_neg hbody]
    dsimp only
    repeat' split
    all_goals first
      | exact spared_error card _
      | exact spared_ok card _ _

/-- What the failing request has done: the error, and the IV one MAC on. -/
theorem encodeEv1_outgrown (hout : MacOutgrows card cmd src.length cap) :
    ∃ mac, cmac card.keyType card.sessionMac.bytes card.iv.bytes (cmd :: src) 0
        = .ok mac ∧
      encodeEv1 cmd src cap card =
        (.error .length, { card with iv := card.iv.put mac }) := by
  obtain ⟨hchan, hmode, hsends, hlen, hcap⟩ := hout
  have hmac8 : ∀ iv, macLength { card with iv := iv } = 8 := by
    intro iv
    rw [macLength, hchan]
  obtain ⟨mac, hmac, -⟩ := cmac_isOk (cmd :: src) 0 (card_iv card)
  refine ⟨mac, hmac, ?_⟩
  simp only [encodeEv1, if_neg (Nat.not_lt.mpr hlen)]
  rw [if_pos (.inr (.inl hmode)), hmac]
  dsimp only
  rw [if_pos ⟨hmode, hsends⟩, hmac8, if_pos hcap]

theorem channelEncode_eq (cmd : UInt8) (src : Bytes) (cap : Nat)
    (card : Card) :
    channelEncode cmd src cap card =
      match card.channel with
      | .d40 => encodeD40 cmd src cap (remember cmd src card)
      | .ev1 => encodeEv1 cmd src cap (remember cmd src card)
      | .ev2 | .lrp => encodeEv2 cmd src cap (remember cmd src card)
      | .auto => (copyOutput cap src, remember cmd src card) := rfl

theorem channelEncode_ev2 (cmd : UInt8) (src : Bytes) (cap : Nat)
    (hchan : card.channel = .ev2 ∨ card.channel = .lrp) :
    channelEncode cmd src cap card =
      encodeEv2 cmd src cap (remember cmd src card) := by
  rw [channelEncode_eq]
  rcases hchan with h | h <;> rw [h]

theorem channelEncode_spared (hfits : ¬ MacOutgrows card cmd src.length cap) :
    Spared (remember cmd src card) (channelEncode cmd src cap card) := by
  have hfits' : ¬ MacOutgrows (remember cmd src card) cmd src.length cap :=
    hfits
  rw [channelEncode_eq]
  cases hchan : card.channel with
  | d40 => exact encodeD40_spared
  | ev1 => exact encodeEv1_spared hchan hfits'
  | ev2 => exact encodeEv2_spared (.inl hchan)
  | lrp => exact encodeEv2_spared (.inr hchan)
  | auto => exact fun _ _ => rfl

/-- A request that cannot be encoded leaves the session as it was, unless its
EV1 MAC is what does not fit. -/
theorem encode_failure_intact_iff (cmd : UInt8) (src : Bytes) (cap : Nat)
    (card : Card) :
    ((∃ e, (channelEncode cmd src cap card).1 = .error e) →
      CryptoIntact card (channelEncode cmd src cap card).2) ↔
    (¬ MacOutgrows card cmd src.length cap ∨ CmacFixesIv card cmd src) := by
  by_cases hout : MacOutgrows card cmd src.length cap
  · obtain ⟨mac, hmac, hrun⟩ :=
      @encodeEv1_outgrown _ cmd src cap (remember cmd src card) hout
    have hdone : channelEncode cmd src cap card = (.error .length,
        { remember cmd src card with iv := card.iv.put mac }) := by
      rw [channelEncode_eq, hout.1]
      exact hrun
    rw [hdone, or_iff_right (not_not.mpr hout)]
    constructor
    · intro h mac' hmac'
      cases hmac.symm.trans hmac'
      exact (h ⟨_, rfl⟩).iv
    · intro hfix _
      exact ⟨hfix mac hmac, rfl, rfl, rfl, rfl, rfl, rfl⟩
  · refine iff_of_true ?_ (.inl hout)
    rintro ⟨e, he⟩
    rw [channelEncode_spared hout e he]
    exact ⟨rfl, rfl, rfl, rfl, rfl, rfl, rfl⟩

end

/-- A WriteData of one byte, into a buffer of one byte: the error, and a
running IV the card knows nothing of. -/
theorem failed_writeData_moves_iv :
    ¬ ((∃ e, (@channelEncode .identity dfWriteData [0x01] 1
          { liveEv1 with mode := .mac }).1 = .error e) →
        CryptoIntact { liveEv1 with mode := .mac }
          (@channelEncode .identity dfWriteData [0x01] 1
            { liveEv1 with mode := .mac }).2) := by
  intro h
  have hiv := (h ⟨.length, rfl⟩).iv
  exact absurd hiv (by decide)

end Nxpsc
