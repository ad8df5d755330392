import Nxpsc.Proofs.ChannelMemory

/-!
# Runs inside their arrays

An encoder or a decoder run on its arrays ends without a fault, leaves the
handle the function on byte strings leaves, and has the result of that
function in the destination, which is large enough for it. The rules follow
the program; a branch comes to one of few ends: an error, a copy of something
checked before, a MAC behind what the destination begins with.
-/

namespace Nxpsc.InMemory

open Checked

variable {cap : Nat}

/-- Run on the handle, the program keeps inside its arrays and returns this
result. -/
def InBounds (prog : Run Card (Buf cap × Nat)) (card : Card)
    (result : Except Err Bytes × Card) : Prop :=
  ∃ r, prog card = some (r, result.2) ∧
    result.1 = r.map (fun out => out.1.bytes.take out.2) ∧
    ∀ out, r = .ok out → out.2 ≤ cap

namespace InBounds

theorem raise (e : Err) (card : Card) :
    InBounds (raise e : Run Card (Buf cap × Nat)) card (.error e, card) := by
  refine ⟨.error e, rfl, rfl, ?_⟩
  intro _ hok
  cases hok

theorem pure {dst : Buf cap} {xs : Bytes} {len : Nat} (card : Card)
    (hdst : xs <+: dst.bytes) (hlen : xs.length = len) :
    InBounds (pure (dst, len)) card (.ok xs, card) := by
  have hle := hdst.length_le
  rw [dst.size, hlen] at hle
  refine ⟨.ok (dst, len), rfl, ?_, ?_⟩
  · have htake := List.prefix_iff_eq_take.mp hdst
    rw [hlen] at htake
    exact congrArg Except.ok htake
  · intro out hout
    cases hout
    exact hle

theorem get {k : Card → Run Card (Buf cap × Nat)} {card : Card}
    {result : Except Err Bytes × Card} (h : InBounds (k card) card result) :
    InBounds (Checked.get >>= k) card result := h

theorem modify {f : Card → Card} {prog : Run Card (Buf cap × Nat)}
    {card : Card} {result : Except Err Bytes × Card}
    (h : InBounds prog (f card) result) :
    InBounds (Checked.modify f >>= fun _ => prog) card result := h

/-- A step that works on the handle. -/
theorem bind {α : Type} {step : Run Card α} {k : α → Run Card (Buf cap × Nat)}
    {a : α} {card after : Card} {result : Except Err Bytes × Card}
    (hstep : step card = some (.ok a, after))
    (h : InBounds (k a) after result) :
    InBounds (step >>= k) card result := by
  obtain ⟨r, hrun, hrest⟩ := h
  exact ⟨r, (bind_run hstep).trans hrun, hrest⟩

theorem bind_error {α : Type} {step : Run Card α}
    {k : α → Run Card (Buf cap × Nat)} {e : Err} {card after : Card}
    (hstep : step card = some (.error e, after)) :
    InBounds (step >>= k) card (.error e, after) := by
  refine ⟨.error e, bind_raise hstep, rfl, ?_⟩
  intro _ hok
  cases hok

end InBounds

/-! ## Endings -/

theorem prefix_written {xs : Bytes} (dst : Buf cap) (h : xs.length ≤ cap) :
    xs <+: (dst.patch 0 xs).bytes :=
  Buf.prefix_patch List.nil_prefix (by rw [List.length_nil]; omega)

theorem copyOutput_inBounds {src : Bytes} {len : Nat} (dst : Buf cap)
    (card : Card) (h : len ≤ src.length) :
    InBounds (copyOutput dst src len) card
      (Nxpsc.copyOutput cap (src.take len), card) := by
  have hlen : (src.take len).length = len := by
    rw [List.length_take]
    omega
  rw [copyOutput, Nxpsc.copyOutput, hlen]
  split
  · exact .raise _ card
  · rw [load_front h, pure_bind', store_eq (by omega), pure_bind']
    exact .pure card (prefix_written dst (by omega)) hlen

theorem copyOutput_all (src : Bytes) (dst : Buf cap) (card : Card) :
    InBounds (copyOutput dst src src.length) card
      (Nxpsc.copyOutput cap src, card) := by
  have h := copyOutput_inBounds dst card (Nat.le_refl src.length)
  rwa [List.take_length] at h

theorem iso9797M2Len_le (data : Bytes) :
    ∀ i, Nxpsc.iso9797M2Len data i ≤ i
  | 0 => Nat.le_refl 0
  | i + 1 => by
      have ih := iso9797M2Len_le data i
      rw [Nxpsc.iso9797M2Len]
      split
      · omega
      · split <;> omega

/-- What a search has found, from the array it was deciphered into. -/
theorem found_inBounds {n len found : Nat} {b : Buf n} {plain : Bytes}
    (dst : Buf cap) (card : Card) (hplain : b.bytes.take len = plain)
    (hfound : found ≤ len) (hlen : len ≤ n) :
    InBounds (if found = 0 then Checked.raise .crypto
      else copyOutput dst b.bytes found) card
      (if found = 0 then (.error .crypto, card)
        else (Nxpsc.copyOutput cap (plain.take found), card)) := by
  split
  · exact .raise _ card
  · rw [← hplain, List.take_take, Nat.min_eq_left hfound]
    exact copyOutput_inBounds dst card (by rw [b.size]; omega)

/-- A MAC that is not the one computed. -/
theorem mismatch_inBounds (card : Card) :
    InBounds (do
        Checked.modify fun card => { card with macMismatch := true }
        Checked.raise .crypto : Run Card (Buf cap × Nat)) card
      (.error .crypto, { card with macMismatch := true }) :=
  .modify (.raise _ _)

/-- A MAC behind what the destination begins with, from an array that holds
its bytes in front. -/
theorem appendMac_inBounds {n k : Nat} {src full : Bytes} {mac : Buf n}
    {dst : Buf cap} (card : Card) (hdst : src <+: dst.bytes) (hk : k ≤ n)
    (hmac : mac.bytes.take k = full.take k) :
    InBounds (if cap < src.length + k then Checked.raise .length
      else do
        let mac ← load mac.bytes 0 k
        let dst ← store dst src.length mac
        pure (dst, src.length + k)) card
      (if cap < src.length + k then (.error .length, card)
        else (.ok (src ++ full.take k), card)) := by
  have hlen : (mac.bytes.take k).length = k := by
    rw [List.length_take, mac.size]
    omega
  rw [← hmac]
  split
  · exact .raise _ card
  · rw [load_front (by rw [mac.size]; exact hk), pure_bind',
      store_eq (by omega), pure_bind']
    exact .pure card (Buf.prefix_patch hdst (by omega))
      (by rw [List.length_append, hlen])

/-- A header and a body behind it. -/
theorem prefix_body {src out : Bytes} {hdr : Nat} (dst : Buf cap)
    (hhdr : hdr ≤ src.length) (hroom : hdr + out.length ≤ cap) :
    src.take hdr ++ out <+:
      ((dst.patch 0 (src.take hdr)).patch hdr out).bytes := by
  have hlen : (src.take hdr).length = hdr := by
    rw [List.length_take]
    omega
  have h := @Buf.prefix_patch cap _ _ out
    (prefix_written dst (by omega : (src.take hdr).length ≤ cap)) (by omega)
  rwa [hlen] at h

/-! ## How long a MAC is -/

theorem macLength_le_block (card : Card) (type : KeyType) :
    macLength card ≤ blockSize type := by
  have hblock := eight_le_blockSize type
  rw [macLength]
  split <;> omega

theorem macLength_le (card : Card) : macLength card ≤ maxBlock :=
  Nat.le_trans (macLength_le_block card .des) (blockSize_le .des)

theorem macLength_ev2 {card : Card}
    (hchan : card.channel = .ev2 ∨ card.channel = .lrp) :
    macLength card = 8 := by
  rw [macLength]
  rcases hchan with hchan | hchan <;> rw [hchan]

/-- A MAC is the front of the block it was computed in. -/
theorem put_mac {full : Bytes} {type : KeyType} (card : Card)
    (hfull : full.length = blockSize type) :
    ((Buf.zero maxBlock).put full).bytes.take (macLength card) =
      full.take (macLength card) := by
  have hmac := macLength_le_block card type
  have hblock := blockSize_le type
  exact Buf.put_front (by omega) (by omega)

end Nxpsc.InMemory
