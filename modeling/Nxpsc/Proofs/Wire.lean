import Nxpsc.Spec.Steps

/-!
# How long an encoded request is

`wireLength` is the length of a request on the wire in closed form: the
header stays, the body grows to whole blocks, a MAC adds its bytes. Every
encoder delivers exactly that many bytes, and it refuses exactly the
requests that would not fit, so the number of frames a command takes is
known before it is sent.
-/

namespace Nxpsc

/-- Padding, checksum, pad byte and MAC together add at most 25 bytes. -/
theorem wireLength_le (card : Card) (cmd : UInt8) (n : Nat) :
    wireLength card cmd n ≤ n + 25 := by
  have hpad : ∀ len, paddedLen len (blockLen card) < len + 16 := fun len =>
    Nat.lt_of_lt_of_le (paddedLen_lt (blockSize_pos _))
      (Nat.add_le_add_left (blockSize_le _) _)
  have haes : ∀ len, paddedLen len aesBlock < len + 16 := fun len =>
    paddedLen_lt (by decide)
  have h2 := hpad (n + 2 - min (cmdHeaderLen cmd n) n)
  have h3 := hpad (n + 3 - min (cmdHeaderLen cmd n) n)
  have h4 := hpad (n + 4 - min (cmdHeaderLen cmd n) n)
  have h5 := hpad (n + 5 - min (cmdHeaderLen cmd n) n)
  have h0 := hpad (n - min (cmdHeaderLen cmd n) n)
  have h1 := haes (n + 1 - min (cmdHeaderLen cmd n) n)
  simp only [wireLength]
  repeat' split
  all_goals omega

/-- A destination of `cap` bytes gets `len` of them, or an error when it is
too small. -/
def Delivers (r : Except Err Bytes) (len cap : Nat) : Prop :=
  (cap < len ∧ r = .error .length) ∨
    (len ≤ cap ∧ ∃ w, r = .ok w ∧ w.length = len)

theorem delivers_ok {w : Bytes} {len cap : Nat} (hlen : w.length = len)
    (hcap : len ≤ cap) : Delivers (.ok w) len cap :=
  .inr ⟨hcap, w, rfl, hlen⟩

theorem delivers_error {len cap : Nat} (hcap : cap < len) :
    Delivers (.error .length) len cap := .inl ⟨hcap, rfl⟩

theorem maxBlock_iv (type : KeyType) :
    blockSize type ≤ (Bytes.zeros maxBlock).length := by
  rw [Bytes.length_zeros]
  exact blockSize_le type

theorem card_iv (card : Card) :
    blockSize card.keyType ≤ card.iv.bytes.length := by
  rw [card.iv.size]
  exact blockSize_le card.keyType

theorem delivers_plain {src : Bytes} {cap : Nat} {card after : Card} :
    Delivers (if cap < src.length then (Except.error Err.length, card)
      else (.ok src, after)).1 src.length cap := by
  split
  · next hcap => exact delivers_error hcap
  · next hcap => exact delivers_ok rfl (by omega)

theorem delivers_mac {src mac : Bytes} {len cap : Nat} {transmits : Bool}
    {card after : Card} (hmac : mac.length = len) :
    Delivers
      (if cap < src.length then (Except.error Err.length, card)
      else if transmits = true then
        if cap < src.length + len then (.error .length, after)
        else (.ok (src ++ mac), after)
      else (.ok src, after)).1
      (if transmits = true then src.length + len else src.length) cap := by
  split
  · next hcap => exact delivers_error (by split <;> omega)
  · next hcap =>
      split
      · split
        · next hmore => exact delivers_error hmore
        · next hmore =>
            exact delivers_ok (by rw [List.length_append, hmac]) (by omega)
      · exact delivers_ok rfl (by omega)

variable [BlockCipher]

/-! ## The pieces -/

theorem ev2Cmac_isOk (card : Card) (cmd : UInt8) (data : Bytes) :
    ∃ mac, ev2Cmac card cmd data = .ok mac ∧ mac.length = 8 := by
  rw [ev2Cmac]
  split
  · exact ⟨_, rfl, lrpCmac8_length _ _⟩
  · have hiv : blockSize .aes128 ≤ (Bytes.zeros aesBlock).length := by
      rw [Bytes.length_zeros]
      exact Nat.le_refl _
    obtain ⟨full, hfull, hlen⟩ := cmac_isOk (ev2MacInput card cmd data) 0 hiv
    rw [hfull]
    refine ⟨_, rfl, ?_⟩
    rw [length_truncateMac, hlen]
    rfl

theorem ev2Encipher_isOk {body : Bytes} {room : Nat} (card : Card)
    (hpos : 0 < body.length) (hmod : body.length % aesBlock = 0)
    (hroom : body.length ≤ room) :
    ∃ out, (ev2Encipher body room card).1 = .ok out ∧
      out.length = body.length := by
  rw [ev2Encipher]
  split
  · exact lrpEncode_isOk (lrpSetCounter_bitPadding _ _ _) hpos hmod hroom
  · obtain ⟨out, last, hok⟩ : ∃ out last, cbcCrypt .aes128
        card.sessionEnc.bytes (ev2FillIv card true) body true
          = .ok (out, last) := cbcCryptEx_isOk hpos hmod
    have hiv : blockSize .aes128 ≤ (ev2FillIv card true).length := by
      have hin : (ev2IvInput card true).length = blockSize .aes128 :=
        Bytes.length_fit _ _
      rw [ev2FillIv, ecbEncryptBlock_length hin]
    rw [hok]
    exact ⟨out, rfl, (cbcCryptEx_ok hiv hok).2.2.1⟩

theorem cbcCryptEx_fit {type : KeyType} {iv : Bytes} {n : Nat}
    (key data : Bytes) (dirToSend encode : Bool)
    (hiv : blockSize type ≤ iv.length) (hn : 0 < n) :
    ∃ out last,
      cbcCryptEx type key iv (Bytes.fit (paddedLen n (blockSize type)) data)
        dirToSend encode = .ok (out, last) ∧
      out.length = paddedLen n (blockSize type) ∧
      last.length = blockSize type := by
  have hbs := blockSize_pos type
  have hlen : (Bytes.fit (paddedLen n (blockSize type)) data).length
      = paddedLen n (blockSize type) := Bytes.length_fit _ _
  obtain ⟨out, last, hok⟩ : ∃ out last, cbcCryptEx type key iv
      (Bytes.fit (paddedLen n (blockSize type)) data) dirToSend encode
        = .ok (out, last) :=
    cbcCryptEx_isOk (by rw [hlen]; exact paddedLen_pos hbs hn)
      (by rw [hlen]; exact paddedLen_mod hbs)
  obtain ⟨-, -, hout, hlast⟩ := cbcCryptEx_ok hiv hok
  exact ⟨out, last, hok, hout.trans hlen, hlast⟩

/-! ## The encoders -/

/-- The enciphering branch every encoder has: a header in the clear, and the
body, with its checksum and padding, in whole blocks. -/
theorem delivers_body {type : KeyType} {src key iv data : Bytes}
    {hdr n cap : Nat} {dirToSend encode : Bool} {card : Card}
    {after : Bytes → Card} (hiv : blockSize type ≤ iv.length)
    (hhdr : hdr ≤ src.length) (hn : 0 < n) (hgrow : src.length ≤ hdr + n) :
    Delivers
      (if cap < src.length then (Except.error Err.length, card)
      else if cap < hdr + paddedLen n (blockSize type) then
        (.error .length, card)
      else
        match cbcCryptEx type key iv
          (Bytes.fit (paddedLen n (blockSize type)) data) dirToSend encode with
        | .error e => (.error e, card)
        | .ok (out, last) => (.ok (src.take hdr ++ out), after last)).1
      (hdr + paddedLen n (blockSize type)) cap := by
  obtain ⟨out, last, hok, hout, -⟩ :=
    cbcCryptEx_fit key data dirToSend encode hiv hn
  have hpad : n ≤ paddedLen n (blockSize type) :=
    le_paddedLen (blockSize_pos type)
  rw [hok]
  split
  · next hcap => exact delivers_error (by omega)
  · split
    · next hmore => exact delivers_error hmore
    · next hmore =>
        refine delivers_ok ?_ (by omega)
        rw [List.length_append, List.length_take, hout, Nat.min_eq_left hhdr]

theorem encodeD40_delivers {cmd : UInt8} {src : Bytes} {cap : Nat}
    {card : Card} (hchan : card.channel = .d40) :
    Delivers (encodeD40 cmd src cap card).1
      (wireLength card cmd src.length) cap := by
  have hbs : 8 ≤ blockSize card.keyType := eight_le_blockSize _
  have hle : min (cmdHeaderLen cmd src.length) src.length ≤ src.length :=
    Nat.min_le_right _ _
  have hmac : macLength card = 4 := by rw [macLength, hchan]
  simp only [encodeD40, wireLength, hchan, hmac, blockLen]
  generalize min (cmdHeaderLen cmd src.length) src.length = hdr at hle
  cases hmode : card.mode with
  | plain =>
      simp only [reduceCtorEq, false_and, or_self, if_false]
      exact delivers_plain
  | mac =>
      simp only [reduceCtorEq, false_and, or_false, if_true]
      by_cases hbody : hdr < src.length
      · obtain ⟨out, iv, hok, -, hiv⟩ := cbcCryptEx_fit
          card.sessionMac.bytes (src.drop hdr) true true
          (maxBlock_iv card.keyType) (Nat.sub_pos_of_lt hbody)
        have hplen : ¬ paddedLen (src.length - hdr) (blockSize card.keyType)
            = 0 := Nat.ne_of_gt
          (paddedLen_pos (by omega) (Nat.sub_pos_of_lt hbody))
        have hsrc : ¬ src.length = 0 := by omega
        have hlen : (iv.take 4).length = 4 := by
          rw [List.length_take, hiv]; omega
        rw [hok, if_neg hsrc, if_neg hplen]
        simp only [hbody, true_and]
        exact delivers_mac hlen
      · have hnone : src.length - hdr = 0 := by omega
        simp only [hnone, paddedLen_zero, hbody, false_and, if_true, if_false,
          ite_self]
        exact delivers_plain
  | enc =>
      simp only [reduceCtorEq, true_and, false_or, true_or, if_true]
      by_cases hbody : src.length ≤ hdr
      · have hnone : src.length - hdr = 0 := by omega
        simp only [hnone, paddedLen_zero, hbody, if_true, ite_self]
        exact delivers_plain
      · simp only [hbody, if_false, Nat.add_zero]
        exact delivers_body (maxBlock_iv _) hle (by omega) (by omega)
  | encPadded =>
      simp only [reduceCtorEq, false_and, or_self, or_true, if_true, if_false]
      by_cases hbody : src.length ≤ hdr
      · simp only [hbody, if_true]
        exact delivers_plain
      · simp only [hbody, if_false]
        exact delivers_body (maxBlock_iv _) hle (by omega) (by omega)
  | encPlain =>
      simp only [reduceCtorEq, false_and, or_self, if_true, if_false]
      by_cases hbody : src.length ≤ hdr
      · simp only [hbody, if_true]
        exact delivers_plain
      · simp only [hbody, if_false]
        exact delivers_body (maxBlock_iv _) hle (by omega) (by omega)

theorem encodeEv1_delivers {cmd : UInt8} {src : Bytes} {cap : Nat}
    {card : Card} (hchan : card.channel = .ev1) :
    Delivers (encodeEv1 cmd src cap card).1
      (wireLength card cmd src.length) cap := by
  have hle : min (cmdHeaderLen cmd src.length) src.length ≤ src.length :=
    Nat.min_le_right _ _
  obtain ⟨mac, hok, hlen⟩ : ∃ mac, cmac card.keyType card.sessionMac.bytes
      card.iv.bytes (cmd :: src) 0 = .ok mac ∧
        mac.length = blockSize card.keyType := cmac_isOk _ _ (card_iv card)
  have hbs : 8 ≤ blockSize card.keyType := eight_le_blockSize _
  simp only [encodeEv1, wireLength, hchan, blockLen, hok, cbcCrypt]
  generalize min (cmdHeaderLen cmd src.length) src.length = hdr at hle
  cases hmode : card.mode with
  | plain =>
      simp only [reduceCtorEq, false_and, or_false, if_true, if_false]
      exact delivers_plain
  | mac =>
      have hlen' : (mac.take 8).length = 8 := by
        rw [List.length_take, hlen]; omega
      simp only [reduceCtorEq, false_and, or_false, or_true, true_and, if_true,
        transmitsMac, macLength, hchan]
      exact delivers_mac hlen'
  | enc =>
      simp only [reduceCtorEq, true_and, false_or, true_or, false_and, if_true,
        if_false]
      by_cases hbody : src.length ≤ hdr
      · simp only [hbody, if_true]
        exact delivers_plain
      · simp only [hbody, if_false, Nat.add_zero]
        exact delivers_body (card_iv card) hle (by omega) (by omega)
  | encPadded =>
      simp only [reduceCtorEq, false_and, or_self, or_true, if_true, if_false]
      exact delivers_body (card_iv card) hle (by omega) (by omega)
  | encPlain =>
      simp only [reduceCtorEq, false_and, or_self, if_true, if_false]
      by_cases hbody : src.length ≤ hdr
      · simp only [hbody, if_true]
        exact delivers_plain
      · simp only [hbody, if_false]
        exact delivers_body (card_iv card) hle (by omega) (by omega)

theorem delivers_ev2Mac {card after : Card} {cmd : UInt8} {part : Bytes}
    {len cap : Nat} (hlen : part.length = len) :
    Delivers
      (match ev2Cmac card cmd part with
      | Except.error e => (Except.error e, card)
      | Except.ok mac =>
          if cap < len + 8 then (Except.error Err.length, card)
          else (Except.ok (part ++ mac), after)).1
      (len + 8) cap := by
  obtain ⟨mac, hok, hmac⟩ := ev2Cmac_isOk card cmd part
  rw [hok]
  dsimp only
  split
  · next hmore => exact delivers_error hmore
  · next hmore =>
      exact delivers_ok (by rw [List.length_append, hlen, hmac]) (by omega)

theorem delivers_ev2Body {card : Card} {cmd : UInt8} {src : Bytes}
    {hdr cap : Nat} (hle : hdr ≤ src.length) :
    Delivers
      (if cap < src.length then (Except.error Err.length, card)
      else if hdr < src.length ∧
          cap < hdr + paddedLen (src.length + 1 - hdr) aesBlock + 8 then
        (Except.error Err.length, card)
      else
        match (if hdr < src.length then
          ev2Encipher (Bytes.fit (paddedLen (src.length + 1 - hdr) aesBlock)
            (src.drop hdr ++ [0x80])) (cap - hdr) card
          else (Except.ok [], card)) with
        | (Except.error e, card) => (Except.error e, card)
        | (Except.ok out, card) =>
            match ev2Cmac card cmd (src.take hdr ++ out) with
            | Except.error e => (Except.error e, card)
            | Except.ok mac =>
                if cap < hdr + out.length + 8 then
                  (Except.error Err.length, card)
                else
                  (Except.ok (src.take hdr ++ out ++ mac),
                    { card with mode := .enc })).1
      (hdr + (if hdr < src.length then
        paddedLen (src.length + 1 - hdr) aesBlock else 0) + 8) cap := by
  have htake : (src.take hdr).length = hdr := by
    rw [List.length_take, Nat.min_eq_left hle]
  have hpad : src.length + 1 - hdr
      ≤ paddedLen (src.length + 1 - hdr) aesBlock := le_paddedLen (by decide)
  by_cases hbody : hdr < src.length
  · simp only [hbody, true_and, if_true]
    split
    · next hcap => exact delivers_error (by omega)
    split
    · next hmore => exact delivers_error hmore
    next hmore =>
    have hplen : (Bytes.fit (paddedLen (src.length + 1 - hdr) aesBlock)
        (src.drop hdr ++ [0x80])).length
          = paddedLen (src.length + 1 - hdr) aesBlock := Bytes.length_fit _ _
    obtain ⟨out, hok, hout⟩ := ev2Encipher_isOk card
      (by rw [hplen]; omega)
      (by rw [hplen]; exact paddedLen_mod (by decide))
      (by rw [hplen]; omega : _ ≤ cap - hdr)
    rcases hdone : ev2Encipher (Bytes.fit
        (paddedLen (src.length + 1 - hdr) aesBlock) (src.drop hdr ++ [0x80]))
        (cap - hdr) card with ⟨r, card'⟩
    rw [hdone] at hok
    dsimp only at hok
    subst hok
    rw [← hplen, ← hout]
    exact delivers_ev2Mac (by rw [List.length_append, htake])
  · simp only [hbody, false_and, if_false, Nat.add_zero]
    split
    · next hcap => exact delivers_error (by omega)
    · have hlen : (src.take hdr ++ []).length = hdr := by
        rw [List.append_nil, htake]
      exact delivers_ev2Mac hlen

theorem encodeEv2_delivers {cmd : UInt8} {src : Bytes} {cap : Nat}
    {card : Card} (hchan : card.channel = .ev2 ∨ card.channel = .lrp) :
    Delivers (encodeEv2 cmd src cap card).1
      (wireLength card cmd src.length) cap := by
  have hle : min (cmdHeaderLen cmd src.length) src.length ≤ src.length :=
    Nat.min_le_right _ _
  have hmac : macLength card = 8 := by
    rcases hchan with h | h <;> rw [macLength, h]
  have hplain : card.mode = .plain →
      wireLength card cmd src.length = src.length := by
    intro hm
    rcases hchan with h | h <;> simp only [wireLength, h, hm]
  have hmaced : card.mode = .mac →
      wireLength card cmd src.length = src.length + 8 := by
    intro hm
    rcases hchan with h | h <;> simp only [wireLength, h, hm]
  have hbody : card.mode ≠ .plain → card.mode ≠ .mac →
      wireLength card cmd src.length =
        min (cmdHeaderLen cmd src.length) src.length +
          (if min (cmdHeaderLen cmd src.length) src.length < src.length then
            paddedLen (src.length + 1 -
              min (cmdHeaderLen cmd src.length) src.length) aesBlock
          else 0) + 8 := by
    intro hnp hnm
    rcases hchan with h | h <;> cases hm : card.mode <;>
      first
        | exact absurd hm hnp
        | exact absurd hm hnm
        | simp only [wireLength, h, hm]
  simp only [encodeEv2, hmac]
  generalize min (cmdHeaderLen cmd src.length) src.length = hdr at hle hbody ⊢
  cases hmode : card.mode with
  | plain =>
      simp only [reduceCtorEq, or_self, if_false, hplain hmode]
      exact delivers_plain
  | mac =>
      simp only [if_true, hmaced hmode]
      split
      · next hcap => exact delivers_error (by omega)
      · exact delivers_ev2Mac rfl
  | enc | encPadded | encPlain =>
      rw [hbody (by simp [hmode]) (by simp [hmode])]
      simp only [reduceCtorEq, or_self, or_true, or_false, if_true, if_false]
      exact delivers_ev2Body hle

/-- Every request that fits is encoded, to exactly its length on the wire. -/
theorem channelEncode_delivers (cmd : UInt8) (src : Bytes) (cap : Nat)
    (card : Card) :
    Delivers (channelEncode cmd src cap card).1
      (wireLength card cmd src.length) cap := by
  simp only [channelEncode]
  split
  · next hchan => exact encodeD40_delivers hchan
  · next hchan => exact encodeEv1_delivers hchan
  · next hchan => exact encodeEv2_delivers (.inl hchan)
  · next hchan => exact encodeEv2_delivers (.inr hchan)
  · next hchan =>
      simp only [wireLength, hchan, copyOutput]
      split
      · next hcap => exact delivers_error hcap
      · next hcap => exact delivers_ok rfl (by omega)

end Nxpsc
