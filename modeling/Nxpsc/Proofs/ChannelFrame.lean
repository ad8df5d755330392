import Nxpsc.Ref.Channel

/-!
# What the codecs leave alone

An encoder writes the IV and the mode of the handle, a decoder the IV and
the mismatch flag; `nxpsc_channel_encode` adds the two fields that tell the
decoder about the request. The session itself, its keys, TI and counter, is
read and never written. Every branch says so by itself; stating it once, as
an equation between handles, is what lets a result about an exchange speak
of a field without opening a codec.
-/

namespace Nxpsc

variable [BlockCipher]

theorem encodeD40_frame (cmd : UInt8) (src : Bytes) (cap : Nat)
    (card : Card) :
    ∃ mode, (encodeD40 cmd src cap card).2 = { card with mode := mode } := by
  simp only [encodeD40]
  repeat' split
  all_goals exact ⟨_, rfl⟩

theorem encodeEv1_frame (cmd : UInt8) (src : Bytes) (cap : Nat)
    (card : Card) :
    ∃ iv mode,
      (encodeEv1 cmd src cap card).2 =
        { card with iv := iv, mode := mode } := by
  simp only [encodeEv1]
  repeat' split
  all_goals exact ⟨_, _, rfl⟩

theorem ev2Encipher_frame (body : Bytes) (room : Nat) (card : Card) :
    ∃ iv, (ev2Encipher body room card).2 = { card with iv := iv } := by
  simp only [ev2Encipher]
  repeat' split
  all_goals exact ⟨_, rfl⟩

theorem encodeEv2_frame (cmd : UInt8) (src : Bytes) (cap : Nat)
    (card : Card) :
    ∃ iv mode,
      (encodeEv2 cmd src cap card).2 =
        { card with iv := iv, mode := mode } := by
  simp only [encodeEv2]
  split
  · exact ⟨_, _, rfl⟩
  split
  · repeat' split
    all_goals exact ⟨_, _, rfl⟩
  split
  · split
    · exact ⟨_, _, rfl⟩
    · obtain ⟨iv, hiv⟩ : ∃ iv, (if min (cmdHeaderLen cmd src.length) src.length
            < src.length then
          ev2Encipher
            (Bytes.fit
              (paddedLen (src.length + 1 -
                min (cmdHeaderLen cmd src.length) src.length) aesBlock)
              (src.drop (min (cmdHeaderLen cmd src.length) src.length)
                ++ [0x80]))
            (cap - min (cmdHeaderLen cmd src.length) src.length) card
          else (.ok [], card)).2 = { card with iv := iv } := by
        split
        · exact ev2Encipher_frame _ _ _
        · exact ⟨_, rfl⟩
      split
      · next heq =>
          rw [heq] at hiv
          exact ⟨iv, _, hiv⟩
      · next heq =>
          rw [heq] at hiv
          subst hiv
          repeat' split
          all_goals exact ⟨_, _, rfl⟩
  · exact ⟨_, _, rfl⟩

theorem channelEncode_frame (cmd : UInt8) (src : Bytes) (cap : Nat)
    (card : Card) :
    ∃ iv mode, (channelEncode cmd src cap card).2 =
      { card with
        lastCmd := cmd
        lastRequestZeroLen := decide (src.length ≤ cmdHeaderLen cmd src.length)
        iv := iv
        mode := mode } := by
  simp only [channelEncode]
  split
  · obtain ⟨mode, h⟩ := encodeD40_frame cmd src cap
      { card with
        lastCmd := cmd
        lastRequestZeroLen :=
          decide (src.length ≤ cmdHeaderLen cmd src.length) }
    exact ⟨_, mode, h⟩
  · exact encodeEv1_frame _ _ _ _
  · exact encodeEv2_frame _ _ _ _
  · exact encodeEv2_frame _ _ _ _
  · exact ⟨_, _, rfl⟩

theorem decodeD40_frame (src : Bytes) (status : UInt8) (cap : Nat)
    (card : Card) :
    ∃ mismatch,
      (decodeD40 src status cap card).2 =
        { card with macMismatch := mismatch } := by
  simp only [decodeD40]
  repeat' split
  all_goals exact ⟨_, rfl⟩

theorem decodeEv1_frame (src : Bytes) (status : UInt8) (cap : Nat)
    (card : Card) :
    ∃ iv mismatch,
      (decodeEv1 src status cap card).2 =
        { card with iv := iv, macMismatch := mismatch } := by
  simp only [decodeEv1]
  repeat' split
  all_goals exact ⟨_, _, rfl⟩

theorem ev2Decipher_frame (body : Bytes) (card : Card) :
    ∃ iv, (ev2Decipher body card).2 = { card with iv := iv } := by
  simp only [ev2Decipher]
  repeat' split
  all_goals exact ⟨_, rfl⟩

theorem decodeEv2_frame (src : Bytes) (cap : Nat) (card : Card) :
    ∃ iv mismatch,
      (decodeEv2 src cap card).2 =
        { card with iv := iv, macMismatch := mismatch } := by
  simp only [decodeEv2]
  split
  · exact ⟨_, _, rfl⟩
  split
  · exact ⟨_, _, rfl⟩
  split
  · exact ⟨_, _, rfl⟩
  split
  · exact ⟨_, _, rfl⟩
  split
  · exact ⟨_, _, rfl⟩
  obtain ⟨iv, hiv⟩ := ev2Decipher_frame
    (src.take (src.length - macLength card)) card
  split
  · next heq =>
      rw [heq] at hiv
      exact ⟨iv, _, hiv⟩
  · next heq =>
      rw [heq] at hiv
      subst hiv
      split <;> exact ⟨_, _, rfl⟩

theorem channelDecode_frame (src : Bytes) (status : UInt8) (cap : Nat)
    (card : Card) :
    ∃ iv mismatch, (channelDecode src status cap card).2 =
      { card with iv := iv, macMismatch := mismatch } := by
  simp only [channelDecode]
  split
  · obtain ⟨mismatch, h⟩ := decodeD40_frame src status cap card
    exact ⟨_, mismatch, h⟩
  · exact decodeEv1_frame _ _ _ _
  · exact decodeEv2_frame _ _ _
  · exact decodeEv2_frame _ _ _
  · exact ⟨_, _, rfl⟩

end Nxpsc
