import Nxpsc.Proofs.InBounds

/-!
# Message buffers are never overrun

The sizes of the temporary arrays are the branch's own, so the argument goes
through the encoders and the decoders branch by branch: how much a branch asks
for, against how much it writes there.
-/

namespace Nxpsc.InMemory

open Checked

variable {cap : Nat}

/-! ## What branches share -/

/-- The pad byte one of the modes adds behind a checksum. -/
theorem padByte (card : Card) : ∃ (pad : Nat) (tail : Bytes),
    (if card.mode = .encPadded then 1 else 0) = pad ∧
      (if card.mode = .encPadded then [0x80] else []) = tail ∧
      tail.length = pad ∧
      ∀ {n off : Nat} {xs : Bytes}, xs.length = off → off + pad ≤ n →
        (if 0 < pad then store (Buf.of n xs) off [0x80]
          else pure (Buf.of n xs) : Run Card (Buf n)) =
            pure (Buf.of n (xs ++ tail)) := by
  by_cases hmode : card.mode = .encPadded
  · refine ⟨1, [0x80], if_pos hmode, if_pos hmode, rfl, ?_⟩
    intro n off xs hoff hroom
    rw [if_pos Nat.zero_lt_one, store_of hoff hroom]
  · refine ⟨0, [], if_neg hmode, if_neg hmode, rfl, ?_⟩
    intro n off xs _ _
    rw [if_neg (Nat.lt_irrefl 0), List.append_nil]

/-- What the three encoders begin with. -/
theorem encodeWith_inBounds {body : UInt8 → Bytes → Nat → Buf cap → Card →
    Run Card (Buf cap × Nat)} {cmd : UInt8} {src : Bytes} {dst : Buf cap}
    {card : Card} {result : Except Err Bytes × Card}
    (hbody : src.length ≤ cap → ∀ dst : Buf cap, src <+: dst.bytes →
      InBounds (body cmd src (min (cmdHeaderLen cmd src.length) src.length)
        dst card) card result) :
    InBounds (encodeWith body cmd src dst) card
      (if cap < src.length then (.error .length, card) else result) := by
  refine .get ?_
  dsimp only
  split
  · exact .raise _ card
  next hcap =>
  rw [load_all, pure_bind', store_eq (by omega), pure_bind']
  exact hbody (by omega) _ (prefix_written dst (by omega))

section

variable [BlockCipher]

/-- A chaining that only its last block is wanted of, in the array the data
were padded in. -/
theorem chained_eq (type : KeyType) (key : Bytes) {data : Bytes} {n bs : Nat}
    (hbs : blockSize type = bs) (hn : 0 < n) :
    ∃ out last after, Nxpsc.cbcCryptEx type key (Bytes.zeros maxBlock)
        (Bytes.fit (paddedLen n bs) data) true true = .ok (out, last) ∧
      last.length = blockSize type ∧
      (cbcCryptEx type key (.zero maxBlock) (Buf.of (paddedLen n bs) data).bytes
        0 (paddedLen n bs) (Buf.of (paddedLen n bs) data) 0 true true :
          Run Card _) = pure (after, (Buf.zero maxBlock).put last) := by
  subst hbs
  obtain ⟨out, last, hdone, -, hlast⟩ :=
    cbcCryptEx_fit key data true true (maxBlock_iv type) hn
  refine ⟨out, last, (Buf.of _ data).patch 0 out, hdone, hlast, ?_⟩
  rw [cbcCryptEx_eq true true (by rw [Buf.bytes_length]; omega) (by omega),
    Buf.of_whole, Buf.bytes_zero, hdone, cbcResult]

/-- The enciphering every encoder has, into the destination behind the
header, of a part of an array. -/
theorem body_inBounds {n plen hdr inAt : Nat} {type : KeyType} {key : Bytes}
    {iv : Buf maxBlock} {xs src : Bytes} {dst : Buf cap} {encode : Bool}
    {card : Card} {after : Bytes → Card}
    {k : Buf cap × Buf maxBlock → Run Card (Buf cap × Nat)}
    (hin : inAt + plen ≤ n) (hhdr : hdr ≤ src.length) (hroom : hdr + plen ≤ cap)
    (hk : ∀ dst last, k (dst, iv.put last) card =
      some (.ok (dst, hdr + plen), after last)) :
    InBounds (do
        let head ← load src 0 hdr
        let dst ← store dst 0 head
        let done ← cbcCryptEx type key iv (Buf.of n xs).bytes inAt plen dst hdr
          true encode
        k done) card
      (match Nxpsc.cbcCryptEx type key iv.bytes
        (Bytes.fit plen (xs.drop inAt)) true encode with
      | .error e => (.error e, card)
      | .ok (out, last) => (.ok (src.take hdr ++ out), after last)) := by
  have hhead : (src.take hdr).length = hdr := by
    rw [List.length_take]
    omega
  have hdata : ((Buf.of n xs).bytes.drop inAt).take plen =
      Bytes.fit plen (xs.drop inAt) := Bytes.fit_part hin xs
  rw [load_front hhdr, pure_bind', store_eq (by omega), pure_bind',
    cbcCryptEx_eq true encode (by rw [Buf.bytes_length]; exact hin) hroom,
    hdata]
  cases hdone : Nxpsc.cbcCryptEx type key iv.bytes
    (Bytes.fit plen (xs.drop inAt)) true encode with
  | error e => exact .raise e card
  | ok done =>
      obtain ⟨out, last⟩ := done
      have hout : out.length = plen :=
        (cbcCryptEx_ok (blockSize_le_iv type iv) hdone).2.2.1.trans
          (Bytes.length_fit _ _)
      obtain ⟨r, hrun, hrest⟩ := @InBounds.pure cap _ _ (hdr + plen)
        (after last) (prefix_body dst hhdr (by omega : hdr + out.length ≤ cap))
        (by rw [List.length_append, hhead, hout])
      exact ⟨r, (hk _ _).trans hrun, hrest⟩

/-- A body that is enciphered as it stands. -/
theorem plainBody_inBounds {plen hdr : Nat} {type : KeyType} {key : Bytes}
    {iv : Buf maxBlock} {src : Bytes} {dst : Buf cap} {encode : Bool}
    {card : Card} {after : Bytes → Card}
    {k : Buf cap × Buf maxBlock → Run Card (Buf cap × Nat)}
    (hhdr : hdr ≤ src.length) (hgrow : src.length - hdr ≤ plen)
    (hk : ∀ dst last, k (dst, iv.put last) card =
      some (.ok (dst, hdr + plen), after last)) :
    InBounds (if cap < hdr + plen then Checked.raise .length
      else do
        let body ← load src hdr (src.length - hdr)
        let buf ← store (.zero plen) 0 body
        let head ← load src 0 hdr
        let dst ← store dst 0 head
        let done ← cbcCryptEx type key iv buf.bytes 0 plen dst hdr true encode
        k done) card
      (if cap < hdr + plen then (.error .length, card)
      else
        match Nxpsc.cbcCryptEx type key iv.bytes (Bytes.fit plen (src.drop hdr))
          true encode with
        | .error e => (.error e, card)
        | .ok (out, last) => (.ok (src.take hdr ++ out), after last)) := by
  split
  · exact .raise _ card
  · rw [load_tail (by omega), pure_bind', store_zero (by
      rw [List.length_drop]
      exact hgrow), pure_bind']
    exact body_inBounds (by omega) hhdr (by omega) hk

/-! ## Encoding -/

theorem encodeD40_inBounds (cmd : UInt8) (src : Bytes) (dst : Buf cap)
    (card : Card) :
    InBounds (encodeD40 cmd src dst) card
      (Nxpsc.encodeD40 cmd src cap card) := by
  refine encodeWith_inBounds fun hcap dst hdst => ?_
  have hle : min (cmdHeaderLen cmd src.length) src.length ≤ src.length :=
    Nat.min_le_right _ _
  have hpos : 0 < blockLen card := blockSize_pos card.keyType
  generalize min (cmdHeaderLen cmd src.length) src.length = hdr at hle ⊢
  have hrest : (src.drop hdr).length = src.length - hdr := List.length_drop
  simp only [encodeD40Body]
  split
  · -- the MAC, over the payload behind the header
    split
    · exact .pure card hdst rfl
    rw [minus_eq hle, pure_bind']
    split
    · exact .pure card hdst rfl
    next hplen =>
    have hsome : 0 < src.length - hdr := by
      rcases Nat.eq_zero_or_pos (src.length - hdr) with hzero | hsome
      · rw [hzero, paddedLen_zero] at hplen
        exact absurd rfl hplen
      · exact hsome
    obtain ⟨out, mac, after, hdone, hmac, hrun⟩ := @chained_eq _ card.keyType
      card.sessionMac.bytes (src.drop hdr) _ (blockLen card) rfl hsome
    have hgrow := @le_paddedLen (src.length - hdr) _ hpos
    rw [load_tail (by omega), pure_bind', store_zero (by omega), pure_bind',
      hrun, pure_bind', hdone]
    dsimp only
    split
    · exact appendMac_inBounds card hdst (macLength_le card)
        (put_mac card hmac)
    · exact .pure card hdst rfl
  split
  · -- payload, checksum and padding
    split
    · exact .pure card hdst rfl
    obtain ⟨pad, tail, hpad, htail, hlen, hstore⟩ := padByte card
    rw [hpad, htail, minus_eq (by omega), pure_bind']
    split
    · exact .raise _ card
    next hroom =>
    have hgrow := @le_paddedLen (src.length + 2 + pad - hdr) _ hpos
    generalize paddedLen (src.length + 2 + pad - hdr) (blockLen card) = plen
      at hroom hgrow ⊢
    have hcrc := length_crc16 (src.drop hdr)
    rw [minus_eq hle, pure_bind', load_tail (by omega), pure_bind',
      store_zero (by omega), pure_bind', load_front (by
        rw [Buf.bytes_length]
        omega), pure_bind', Buf.of_front hrest (by omega),
      store_of hrest (by omega), pure_bind', hstore (by
        rw [List.length_append]
        omega) (by omega), pure_bind']
    exact body_inBounds (by omega) hle (by omega) fun _ _ => rfl
  split
  · split
    · exact .pure card hdst rfl
    rw [minus_eq hle, pure_bind']
    exact plainBody_inBounds hle (le_paddedLen hpos) fun _ _ => rfl
  · exact .pure card hdst rfl

theorem encodeEv1_inBounds (cmd : UInt8) (src : Bytes) (dst : Buf cap)
    (card : Card) :
    InBounds (encodeEv1 cmd src dst) card
      (Nxpsc.encodeEv1 cmd src cap card) := by
  refine encodeWith_inBounds fun hcap dst hdst => ?_
  have hle : min (cmdHeaderLen cmd src.length) src.length ≤ src.length :=
    Nat.min_le_right _ _
  have hpos : 0 < blockLen card := blockSize_pos card.keyType
  have hcmd : ([cmd] : Bytes).length = 1 := rfl
  have hmsg : ([cmd] ++ src).length = src.length + 1 := by
    rw [List.length_append, hcmd, Nat.add_comm]
  generalize min (cmdHeaderLen cmd src.length) src.length = hdr at hle ⊢
  simp only [encodeEv1Body]
  split
  · -- the MAC over the command and the payload
    obtain ⟨mac, hmac, hblock, hrun⟩ := @cmac_eq Card _ card.keyType
      card.sessionMac.bytes card.iv (.zero maxBlock)
      (Buf.of (src.length + 1) ([cmd] ++ src)).bytes (src.length + 1) 0
      (Nat.le_of_eq (Buf.bytes_length _).symm)
    rw [Buf.of_front hmsg (Nat.le_refl _)] at hmac
    rw [store_zero (by omega), pure_bind', load_all, pure_bind',
      store_of hcmd (by omega), pure_bind', hrun, pure_bind',
      ← List.singleton_append, hmac]
    -- nothing but the IV has changed
    have hsends : transmitsMac { card with iv := card.iv.put mac } cmd =
      transmitsMac card cmd := rfl
    have hlong : macLength { card with iv := card.iv.put mac } =
      macLength card := rfl
    refine .modify ?_
    dsimp only
    rw [hsends, hlong]
    split
    · exact appendMac_inBounds _ hdst (macLength_le card) (put_mac card hblock)
    · exact .pure _ hdst rfl
  split
  · -- the payload, a checksum over command and payload, and padding
    obtain ⟨pad, tail, hpad, htail, hlen, hstore⟩ := padByte card
    rw [hpad, htail, minus_eq (by omega), pure_bind']
    split
    · exact .raise _ card
    next hroom =>
    have hgrow := @le_paddedLen (src.length + 4 + pad - hdr) _ hpos
    generalize paddedLen (src.length + 4 + pad - hdr) (blockLen card) = plen
      at hroom hgrow ⊢
    have hcrc := length_crc32 ([cmd] ++ src)
    have hpart : src.drop hdr ++ crc32 (cmd :: src) ++ tail =
        ([cmd] ++ src ++ crc32 ([cmd] ++ src) ++ tail).drop (1 + hdr) := by
      rw [List.append_assoc ([cmd] ++ src), List.append_assoc [cmd],
        List.singleton_append, Nat.add_comm, List.drop_succ_cons,
        List.drop_append_of_le_length hle, List.append_assoc]
      rfl
    rw [store_zero (by omega), pure_bind', load_all, pure_bind',
      store_of hcmd (by omega), pure_bind', load_front (by
        rw [Buf.bytes_length]
        omega), pure_bind', Buf.of_front hmsg (by omega),
      store_of hmsg (by omega), pure_bind', hstore (by
        rw [List.length_append]
        omega) (by omega), pure_bind', hpart]
    exact body_inBounds (by omega) hle (by omega) fun _ _ => rfl
  split
  · split
    · exact .pure card hdst rfl
    rw [minus_eq hle, pure_bind']
    exact plainBody_inBounds hle (le_paddedLen hpos) fun _ _ => rfl
  · exact .pure card hdst rfl

/-- The end of `encode_ev2`: the MAC over what the destination begins with. -/
theorem finish_inBounds {card : Card} {cmd : UInt8} {part : Bytes}
    {dst : Buf cap} {hdr plen : Nat} (hpart : part <+: dst.bytes)
    (hlen : part.length = hdr + plen) :
    InBounds (encodeEv2Body.finish cmd hdr plen 8 dst) card
      (match Nxpsc.ev2Cmac card cmd part with
      | .error e => (.error e, card)
      | .ok mac =>
          if cap < hdr + plen + 8 then (.error .length, card)
          else (.ok (part ++ mac), { card with mode := .enc })) := by
  have hfront := List.prefix_iff_eq_take.mp hpart
  have hle := hpart.length_le
  rw [hlen] at hfront hle
  obtain ⟨mac, hmac, hrun⟩ := @ev2Cmac_eq Card _ card cmd dst.bytes (hdr + plen)
    (.zero 8) hle
  rw [← hfront] at hmac
  have hsize := mac.size
  refine .get ?_
  rw [hrun, pure_bind', hmac]
  dsimp only
  split
  · exact .raise _ card
  next hroom =>
  rw [load_whole, pure_bind', store_eq (by omega), pure_bind', ← hlen]
  refine .modify ?_
  exact .pure _ (Buf.prefix_patch hpart (by omega))
    (by rw [List.length_append, hsize])

theorem encodeEv2_inBounds (cmd : UInt8) (src : Bytes) (dst : Buf cap)
    {card : Card} (hchan : card.channel = .ev2 ∨ card.channel = .lrp) :
    InBounds (encodeEv2 cmd src dst) card
      (Nxpsc.encodeEv2 cmd src cap card) := by
  refine encodeWith_inBounds fun hcap dst hdst => ?_
  have hle : min (cmdHeaderLen cmd src.length) src.length ≤ src.length :=
    Nat.min_le_right _ _
  generalize min (cmdHeaderLen cmd src.length) src.length = hdr at hle ⊢
  have hrest : (src.drop hdr).length = src.length - hdr := List.length_drop
  have hhead : (src.take hdr).length = hdr := by
    rw [List.length_take]
    omega
  simp only [encodeEv2Body, macLength_ev2 hchan]
  split
  · obtain ⟨mac, hmac, hrun⟩ := @ev2Cmac_eq Card _ card cmd src src.length
      (.zero 8) (Nat.le_refl _)
    rw [List.take_length] at hmac
    have hend := @appendMac_inBounds cap 8 8 src mac.bytes mac dst card hdst
      (Nat.le_refl _) rfl
    rw [List.take_of_length_le (Nat.le_of_eq mac.size)] at hend
    rw [hrun, pure_bind', hmac]
    exact hend
  split
  · rw [load_front hle, pure_bind', store_eq (by omega), pure_bind']
    by_cases hmore : hdr < src.length
    · simp only [hmore, true_and, if_true]
      rw [minus_eq (by omega), pure_bind']
      split
      · exact .raise _ card
      next hroom =>
      have hgrow := @le_paddedLen (src.length + 1 - hdr) aesBlock (by decide)
      have hmod := @paddedLen_mod (src.length + 1 - hdr) aesBlock (by decide)
      generalize paddedLen (src.length + 1 - hdr) aesBlock = plen
        at hroom hgrow hmod ⊢
      have hlen : (Bytes.fit plen (src.drop hdr ++ [0x80])).length = plen :=
        Bytes.length_fit _ _
      obtain ⟨out, hout, hsize⟩ := @ev2Encipher_isOk _
        (Bytes.fit plen (src.drop hdr ++ [0x80])) (cap - hdr) card (by omega)
        (by rw [hlen]; exact hmod) (by omega)
      have hrun := @ev2Encipher_eq cap _ card
        (Bytes.fit plen (src.drop hdr ++ [0x80])) out
        (dst.patch 0 (src.take hdr)) hdr (by omega) hout (by omega)
      rw [hlen] at hrun hsize
      rw [minus_eq hle, pure_bind', load_tail (by omega), pure_bind',
        store_zero (by omega), pure_bind', store_of hrest (by
          rw [List.length_singleton]
          omega), pure_bind']
      cases hdone : Nxpsc.ev2Encipher (Bytes.fit plen (src.drop hdr ++ [0x80]))
        (cap - hdr) card with
      | mk res after =>
      rw [hdone] at hout hrun
      cases hout
      refine .bind hrun ?_
      dsimp only
      rw [hsize]
      exact finish_inBounds (prefix_body dst hle (by omega))
        (by rw [List.length_append, hhead, hsize])
    · simp only [hmore, false_and, if_false]
      have hpart : src.take hdr ++ [] <+:
          (dst.patch 0 (src.take hdr)).bytes := by
        rw [List.append_nil]
        exact prefix_written dst (by omega)
      exact finish_inBounds hpart (by
        rw [List.append_nil, hhead]
        rfl)
  · exact .pure card hdst rfl

theorem channelEncode_inBounds (cmd : UInt8) (src : Bytes) (dst : Buf cap)
    (card : Card) :
    InBounds (channelEncode cmd src dst) card
      (Nxpsc.channelEncode cmd src cap card) := by
  refine .modify (.get ?_)
  rw [Nxpsc.channelEncode]
  generalize ({ card with
    lastCmd := cmd
    lastRequestZeroLen := decide (src.length ≤ cmdHeaderLen cmd src.length) } :
      Card) = after
  cases hchan : after.channel with
  | d40 => exact encodeD40_inBounds cmd src dst after
  | ev1 => exact encodeEv1_inBounds cmd src dst after
  | ev2 => exact encodeEv2_inBounds cmd src dst (.inl hchan)
  | lrp => exact encodeEv2_inBounds cmd src dst (.inr hchan)
  | auto => exact copyOutput_all src dst after

/-! ## Decoding -/

theorem decodeD40_inBounds {src : Bytes} (status : UInt8) (dst : Buf cap)
    (card : Card) (hsrc : src.length ≤ maxResponse) :
    InBounds (decodeD40 src status dst) card
      (Nxpsc.decodeD40 src status cap card) := by
  refine .get ?_
  simp only [Nxpsc.decodeD40]
  split
  · split
    · exact copyOutput_all src dst card
    split
    · exact .raise _ card
    next hlong =>
    have hmac := macLength_le card
    have hdata : (src.take (src.length - macLength card)).length =
        src.length - macLength card := by
      rw [List.length_take]
      omega
    obtain ⟨out, mac, after, hdone, hblock, hrun⟩ := @chained_eq _ card.keyType
      card.sessionMac.bytes (src.take (src.length - macLength card)) _
      (blockLen card) rfl (by omega : 0 < src.length - macLength card)
    have hgrow := @le_paddedLen (src.length - macLength card) (blockLen card)
      (blockSize_pos card.keyType)
    rw [minus_eq (by omega), pure_bind', load_front (by omega), pure_bind',
      store_zero (by omega), pure_bind', hrun, pure_bind',
      load_front (by rw [Buf.bytes_length]; exact hmac), pure_bind',
      put_mac card hblock, load_tail (by omega), pure_bind', hdone]
    dsimp only
    split
    · exact mismatch_inBounds card
    · exact copyOutput_inBounds dst card (by omega)
  split
  · split
    · exact copyOutput_all src dst card
    have hdecipher := @decipher_eq Card _ card.keyType card.sessionEnc.bytes
      (.zero maxBlock) src src.length maxResponse (Nat.le_refl _) hsrc
    rw [List.take_length, cbcCrypt, Nxpsc.cbcCrypt] at hdecipher
    rcases hdecipher with ⟨e, hdone, hrun⟩ |
      ⟨plain, last, out, after, hdone, hrun, hplain, hfront⟩
    · rw [hrun, ← Buf.bytes_zero, hdone]
      exact .raise e card
    have hread : src.length ≤ out.bytes.length := by
      rw [out.size]
      exact hsrc
    have hshort := searchCrcPos_le plain status 2
    have hlong := searchCrcPos_le plain status 4
    rw [hrun, ← Buf.bytes_zero, hdone, pure_bind',
      searchCrcPos_eq status hread (.inl rfl), hfront, pure_bind',
      searchCrcPos_eq status hread (.inr rfl), hfront]
    by_cases hretry : Nxpsc.searchCrcPos plain status 2 = 0 ∧
        card.type ≠ .desfireMf3icd40
    · simp only [if_pos hretry]
      exact found_inBounds dst card hfront (by omega) hsrc
    · simp only [if_neg hretry]
      exact found_inBounds dst card hfront (by omega) hsrc
  · exact copyOutput_all src dst card

theorem decodeEv1_inBounds {src : Bytes} (status : UInt8) (dst : Buf cap)
    (card : Card) (hsrc : src.length ≤ maxResponse) :
    InBounds (decodeEv1 src status dst) card
      (Nxpsc.decodeEv1 src status cap card) := by
  refine .get ?_
  simp only [Nxpsc.decodeEv1]
  split
  · split
    · exact .raise _ card
    next hlong =>
    have hdata : (src.take (src.length - macLength card)).length =
        src.length - macLength card := by
      rw [List.length_take]
      omega
    have hmsg : (src.take (src.length - macLength card) ++ [status]).length =
        src.length - macLength card + 1 := by
      rw [List.length_append, hdata, List.length_singleton]
    obtain ⟨mac, hmac, hblock, hrun⟩ := @cmac_eq Card _ card.keyType
      card.sessionMac.bytes card.iv (.zero maxBlock)
      (Buf.of (src.length - macLength card + 1)
        (src.take (src.length - macLength card) ++ [status])).bytes
      (src.length - macLength card + 1) 0
      (Nat.le_of_eq (Buf.bytes_length _).symm)
    rw [Buf.of_front hmsg (Nat.le_refl _)] at hmac
    rw [minus_eq (by omega), pure_bind', load_front (by omega), pure_bind',
      store_zero (by omega), pure_bind', store_of hdata (by
        rw [List.length_singleton]), pure_bind', hrun, pure_bind', hmac]
    refine .modify ?_
    dsimp only
    rw [load_tail (by omega), pure_bind', load_front (by
        rw [Buf.bytes_length]
        exact macLength_le card), pure_bind', put_mac card hblock]
    split
    · exact mismatch_inBounds _
    · exact copyOutput_inBounds dst _ (by omega)
  split
  · split
    · exact copyOutput_all src dst card
    have hdecipher := @decipher_eq Card _ card.keyType card.sessionEnc.bytes
      card.iv src src.length maxResponse (Nat.le_refl _) hsrc
    rw [List.take_length] at hdecipher
    rcases hdecipher with ⟨e, hdone, hrun⟩ |
      ⟨plain, last, out, after, hdone, hrun, hplain, hfront⟩
    · rw [hrun, hdone]
      exact .raise e card
    have hread : src.length ≤ out.bytes.length := by
      rw [out.size]
      exact hsrc
    have hfound := searchCrcPos_le plain status 4
    rw [hrun, hdone, pure_bind', searchCrcPos_eq status hread (.inr rfl),
      hfront, pure_bind']
    exact found_inBounds dst card hfront (by omega) hsrc
  · exact copyOutput_all src dst card

theorem decodeEv2_inBounds {src : Bytes} (dst : Buf cap) {card : Card}
    (hchan : card.channel = .ev2 ∨ card.channel = .lrp)
    (hsrc : src.length ≤ maxResponse) :
    InBounds (decodeEv2 src dst) card (Nxpsc.decodeEv2 src cap card) := by
  refine .get ?_
  simp only [Nxpsc.decodeEv2, macLength_ev2 hchan]
  split
  · exact copyOutput_all src dst card
  split
  · exact .raise _ card
  next hlong =>
  obtain ⟨mac, hmac, hrun⟩ := @ev2Cmac_eq Card _ card 0x00 src
    (src.length - 8) (.zero 8) (Nat.sub_le _ _)
  rw [minus_eq (by omega), pure_bind', hrun, pure_bind', hmac,
    load_tail (by omega), pure_bind', load_whole, pure_bind']
  dsimp only
  split
  · exact mismatch_inBounds card
  split
  · exact copyOutput_inBounds dst card (Nat.sub_le _ _)
  obtain ⟨r, hdecipher, hres⟩ := @ev2Decipher_eq _ src (src.length - 8) card
    (Nat.sub_le _ _) (by omega)
  cases hdone : Nxpsc.ev2Decipher (src.take (src.length - 8)) card with
  | mk res after =>
  rw [hdone] at hdecipher hres
  dsimp only at hdecipher hres
  subst hres
  cases r with
  | error e => exact .bind_error hdecipher
  | ok plain =>
      refine .bind hdecipher ?_
      have hread : src.length - 8 ≤ plain.bytes.length := by
        rw [plain.size]
        omega
      rw [iso9797M2Len_eq hread _ (Nat.le_refl _), pure_bind']
      exact found_inBounds dst after rfl (iso9797M2Len_le _ _) (by omega)

theorem channelDecode_inBounds {src : Bytes} (status : UInt8) (dst : Buf cap)
    (card : Card) (hsrc : src.length ≤ maxResponse) :
    InBounds (channelDecode src status dst) card
      (Nxpsc.channelDecode src status cap card) := by
  refine .get ?_
  rw [Nxpsc.channelDecode]
  cases hchan : card.channel with
  | d40 => exact decodeD40_inBounds status dst card hsrc
  | ev1 => exact decodeEv1_inBounds status dst card hsrc
  | ev2 => exact decodeEv2_inBounds dst (.inl hchan) hsrc
  | lrp => exact decodeEv2_inBounds dst (.inr hchan) hsrc
  | auto => exact copyOutput_all src dst card

/-- Every index is in bounds, for a request of any length and a destination of
any size, for an answer that fits the receive buffer, and for a search over
any input with a checksum its array has room for. -/
theorem message_buffers_in_bounds :
    (∀ {cap : Nat} (cmd : UInt8) (src : Bytes) (dst : Buf cap) (card : Card),
      InBounds (channelEncode cmd src dst) card
        (Nxpsc.channelEncode cmd src cap card)) ∧
    (∀ {cap : Nat} (src : Bytes) (status : UInt8) (dst : Buf cap) (card : Card),
      src.length ≤ maxResponse →
        InBounds (channelDecode src status dst) card
          (Nxpsc.channelDecode src status cap card)) ∧
    ∀ (data : Bytes) (status : UInt8) (crcLen : Nat), 0 < crcLen → crcLen ≤ 4 →
      ∃ pos, (searchCrcPos data data.length status crcLen : Run Card Nat) =
          pure pos ∧ pos ≤ data.length ∧
        (crcLen = 2 ∨ crcLen = 4 →
          pos = Nxpsc.searchCrcPos data status crcLen) := by
  refine ⟨fun cmd src dst card => channelEncode_inBounds cmd src dst card,
    fun src status dst card hsrc => channelDecode_inBounds status dst card hsrc,
    fun data status crcLen hpos hcrc => ?_⟩
  have h := @searchCrcPos_runs Card data data.length status crcLen
    (Nat.le_refl _) hpos hcrc
  rwa [List.take_length] at h

end

/-- The longest answer, on a handle that searches it for a checksum. -/
theorem message_buffers_in_bounds_longest :
    @InBounds 4 (@channelDecode 4 .identity (Bytes.zeros maxResponse) 0x00
        (.zero 4)) { Card.opened none with channel := .d40, mode := .enc }
      (@Nxpsc.channelDecode .identity (Bytes.zeros maxResponse) 0x00 4
        { Card.opened none with channel := .d40, mode := .enc }) ∧
    ∃ pos, (searchCrcPos (Bytes.zeros maxResponse)
        (Bytes.zeros maxResponse).length 0x00 4 : Run Card Nat) = pure pos ∧
      pos ≤ (Bytes.zeros maxResponse).length ∧
      (4 = 2 ∨ 4 = 4 →
        pos = Nxpsc.searchCrcPos (Bytes.zeros maxResponse) 0x00 4) := by
  have h := @message_buffers_in_bounds .identity
  exact ⟨h.2.1 (Bytes.zeros maxResponse) 0x00 (.zero 4) _
    (Nat.le_of_eq (Bytes.length_zeros _)),
    h.2.2 (Bytes.zeros maxResponse) 0x00 4 (by decide) (by decide)⟩

end Nxpsc.InMemory
