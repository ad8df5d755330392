import Nxpsc.Proofs.CrcSearch
import Nxpsc.Proofs.CryptoMemory
import Nxpsc.Proofs.Wire

/-!
# The helpers of the channel stay inside their arrays

The searches, the IV, the MAC and the two enciphering steps, each as the
function on byte strings of the same name. The search for a checksum takes an
input of any length: what its buffer cannot hold it passes over.
-/

namespace Nxpsc.InMemory

open Checked

variable {σ : Type} {cap : Nat}

/-! ## Searching -/

theorem skipZeros_eq {data : Bytes} {len : Nat} (hdata : len ≤ data.length) :
    ∀ (pos : Nat), pos = 0 ∨ pos < len →
      (skipZeros data pos : Run σ _) =
        pure (Nxpsc.skipZeros (data.take len) pos) := by
  intro pos
  induction pos with
  | zero =>
      intro _
      rw [skipZeros, Nxpsc.skipZeros]
  | succ pos ih =>
      intro hpos
      rw [skipZeros, Nxpsc.skipZeros, byteAt_eq (by omega), pure_bind',
        Bytes.getD_take (by omega), ih (by omega)]
      split <;> rfl

/-- The array for the checksum holds either of the two. -/
theorem candidateCrc_eq {data : Bytes} (status : UInt8) {crcLen candidate : Nat}
    (buffer : Buf (maxResponse + 1)) (hdata : candidate ≤ data.length)
    (hroom : candidate < maxResponse + 1) :
    ∃ (crc : Buf 4) (after : Buf (maxResponse + 1)),
      (candidateCrc data status crcLen candidate buffer : Run σ _) =
        pure (crc, after) ∧
      (crcLen = 4 → crc.bytes = crc32 (data.take candidate ++ [status])) ∧
      (crcLen ≠ 4 → crc.bytes.take 2 = crc16 (data.take candidate)) := by
  have hlen : (data.take candidate).length = candidate := by
    rw [List.length_take]
    omega
  rw [candidateCrc, load_front hdata, pure_bind']
  split
  · next hlong =>
      have hcovered : ((buffer.patch 0 (data.take candidate)).patch candidate
          [status]).bytes.take (candidate + 1) =
          data.take candidate ++ [status] := by
        rw [Buf.take_patch (by rw [List.length_singleton]) (by omega),
          Buf.take_patch (by omega) (by omega), List.take_zero,
          List.nil_append]
      have hcrc : (Buf.zero 4).patch 0
          (crc32 (data.take candidate ++ [status])) =
            Buf.of 4 (crc32 (data.take candidate ++ [status])) :=
        Buf.zero_patch (Nat.le_of_eq (length_crc32 _))
      rw [store_eq (by omega), pure_bind', store_eq (by
          rw [List.length_singleton]
          omega), pure_bind', load_front (by rw [Buf.bytes_length]; omega),
        pure_bind', hcovered, store_eq (by rw [length_crc32]), pure_bind', hcrc]
      exact ⟨_, _, rfl, fun _ => Bytes.fit_self (length_crc32 _),
        fun hno => absurd hlong hno⟩
  · next hshort =>
      rw [store_eq (by
          rw [length_crc16]
          omega), pure_bind']
      refine ⟨_, _, rfl, fun hno => absurd hno hshort, fun _ => ?_⟩
      exact Buf.take_patch (by rw [length_crc16]) (by omega)

theorem searchCrcFrom_eq {data : Bytes} {len : Nat} (status : UInt8)
    {crcLen pos : Nat} (hdata : len ≤ data.length) (hcrc : crcLen ≤ 4) :
    ∀ (rounds i found : Nat) (buffer : Buf (maxResponse + 1)), ∃ r,
      (searchCrcFrom data len status crcLen pos rounds i found buffer :
        Run σ _) = pure r ∧
      (r = found ∨ r + crcLen ≤ len) ∧
      (crcLen = 2 ∨ crcLen = 4 →
        r = Nxpsc.searchCrcFrom (data.take len) status crcLen pos rounds i
          found) := by
  have hlen : (data.take len).length = len := by
    rw [List.length_take]
    omega
  intro rounds
  induction rounds with
  | zero =>
      intro i found _
      exact ⟨found, rfl, .inl rfl, fun _ => rfl⟩
  | succ rounds ih =>
      intro i found buffer
      rw [searchCrcFrom, Nxpsc.searchCrcFrom]
      split
      · exact ⟨found, rfl, .inl rfl, fun _ => rfl⟩
      next hlive =>
      rw [minus_eq (by omega), pure_bind', hlen]
      generalize pos - i = candidate at hlive ⊢
      dsimp only
      split
      · exact ih (i + 1) found buffer
      next hin =>
      obtain ⟨crc, after, hrun, hcrc32, hcrc16⟩ := @candidateCrc_eq σ data
        status crcLen candidate buffer (by omega) (by omega)
      obtain ⟨r, hrest, hwhere, hsame⟩ := ih (i + 1)
        (if crc.bytes.take crcLen = (data.drop candidate).take crcLen
          then candidate else found) after
      rw [hrun, pure_bind', load_front (by rw [Buf.bytes_length]; exact hcrc),
        pure_bind', load_eq (by omega), pure_bind']
      refine ⟨r, hrest, ?_, fun hkind => ?_⟩
      · rcases hwhere with hr | hr
        · rw [hr]
          split
          · exact .inr (by omega)
          · exact .inl rfl
        · exact .inr hr
      · have hfront : (data.take len).take candidate = data.take candidate := by
          rw [List.take_take, Nat.min_eq_left (by omega)]
        have hstored : ((data.take len).drop candidate).take crcLen =
            (data.drop candidate).take crcLen := by
          rw [List.drop_take, List.take_take, Nat.min_eq_left (by omega)]
        have hcomputed : crc.bytes.take crcLen =
            if crcLen = 4 then crc32 (data.take candidate ++ [status])
              else crc16 (data.take candidate) := by
          rcases hkind with hk | hk
          · rw [hk] at hcrc16 ⊢
            exact hcrc16 (by decide)
          · rw [hk, if_pos rfl, List.take_of_length_le
              (Nat.le_of_eq crc.size)]
            exact hcrc32 hk
        rw [hsame hkind, crcMatches, hfront, hstored, ← hcomputed]
        split
        · next heq => rw [if_pos (beq_iff_eq.mpr heq)]
        · next hne => rw [if_neg fun hbeq => hne (beq_iff_eq.mp hbeq)]

/-- Whatever the input is, a checksum of up to four bytes is searched for
inside it. -/
theorem searchCrcPos_runs {data : Bytes} {len : Nat} (status : UInt8)
    {crcLen : Nat} (hdata : len ≤ data.length) (hpos : 0 < crcLen)
    (hcrc : crcLen ≤ 4) :
    ∃ r, (searchCrcPos data len status crcLen : Run σ _) = pure r ∧
      r ≤ len ∧
      (crcLen = 2 ∨ crcLen = 4 →
        r = Nxpsc.searchCrcPos (data.take len) status crcLen) := by
  have hlen : (data.take len).length = len := by
    rw [List.length_take]
    omega
  rw [searchCrcPos, Nxpsc.searchCrcPos, hlen]
  split
  · exact ⟨0, rfl, Nat.zero_le _, fun _ => rfl⟩
  next hlong =>
  rw [minus_eq (by omega), pure_bind', skipZeros_eq hdata _ (by omega),
    pure_bind']
  dsimp only
  split
  · exact ⟨0, rfl, Nat.zero_le _, fun _ => rfl⟩
  · obtain ⟨r, hrun, hwhere, hsame⟩ := @searchCrcFrom_eq σ data len status
      crcLen (Nxpsc.skipZeros (data.take len) (len - 1) + 1) hdata hcrc
      (crcLen + 2) 0 0 (.zero _)
    exact ⟨r, hrun, by omega, hsame⟩

theorem searchCrcPos_eq {data : Bytes} {len : Nat} (status : UInt8)
    {crcLen : Nat} (hdata : len ≤ data.length)
    (hkind : crcLen = 2 ∨ crcLen = 4) :
    (searchCrcPos data len status crcLen : Run σ _) =
      pure (Nxpsc.searchCrcPos (data.take len) status crcLen) := by
  obtain ⟨r, hrun, _, hsame⟩ := @searchCrcPos_runs σ data len status crcLen
    hdata (by omega) (by omega)
  rw [hrun, hsame hkind]

theorem iso9797M2Len_eq {data : Bytes} {len : Nat} (hdata : len ≤ data.length) :
    ∀ (i : Nat), i ≤ len →
      (iso9797M2Len data i : Run σ _) =
        pure (Nxpsc.iso9797M2Len (data.take len) i) := by
  intro i
  induction i with
  | zero =>
      intro _
      rw [iso9797M2Len, Nxpsc.iso9797M2Len]
  | succ i ih =>
      intro hi
      rw [iso9797M2Len, Nxpsc.iso9797M2Len, byteAt_eq (by omega), pure_bind',
        Bytes.getD_take (by omega), ih (by omega)]
      split
      · rfl
      · split <;> rfl

/-- Four bytes of the counter go to the IV. -/
theorem carried_eq (iv : Buf 16) (ctx : LrpCtx) :
    (load ctx.counter.bytes 0 4 : Run σ _) = pure (ctx.counter.bytes.take 4) ∧
      (store iv 0 (ctx.counter.bytes.take 4) : Run σ _) =
        pure (iv.put (ctx.counter.bytes.take 4)) := by
  have hfour : (ctx.counter.bytes.take 4).length = 4 := by
    rw [List.length_take, ctx.counter.size]
    rfl
  exact ⟨load_front (by rw [Buf.bytes_length]; decide),
    store_put (by rw [hfour]; decide)⟩

section

variable [BlockCipher]

/-! ## The steps of the EV2 and LRP channels -/

theorem ev2FillIv_eq (card : Card) (forCommand : Bool) (iv : Buf aesBlock) :
    ∃ out, (ev2FillIv card forCommand iv : Run σ _) = pure out ∧
      out.bytes = Nxpsc.ev2FillIv card forCommand := by
  have hti := card.ti.size
  have hctr : (putU16 card.cmdCtr).length = 2 := rfl
  have hlabel : (if forCommand = true then [0xA5, 0x5A]
      else [0x5A, 0xA5] : Bytes).length = 2 := by
    cases forCommand <;> rfl
  have henc : (Nxpsc.ev2FillIv card forCommand).length = aesBlock :=
    ecbEncryptBlock_length (Bytes.length_fit _ _)
  have hput : ∀ b : Buf aesBlock,
      (b.put (Nxpsc.ev2FillIv card forCommand)).bytes =
        Nxpsc.ev2FillIv card forCommand := fun b => Buf.put_all henc
  refine ⟨iv.put (Nxpsc.ev2FillIv card forCommand), ?_, hput iv⟩
  simp only [ev2FillIv]
  rw [store_zero (by rw [hlabel]; decide), pure_bind',
    store_of hlabel (by rw [hti]; decide), pure_bind',
    store_of (by rw [List.length_append, hlabel, hti])
      (by rw [hctr]; decide), pure_bind']
  have hinput : (Buf.of aesBlock ((if forCommand = true then [0xA5, 0x5A]
      else [0x5A, 0xA5]) ++ card.ti.bytes ++ putU16 card.cmdCtr)).bytes =
        ev2IvInput card forCommand := rfl
  rw [hinput, ← Nxpsc.ev2FillIv, store_put (Nat.le_of_eq henc), pure_bind',
    hput, store_put (Nat.le_of_eq henc)]

theorem ev2Cmac_eq {card : Card} {cmd : UInt8} {data : Bytes} {len : Nat}
    (mac8 : Buf 8) (hdata : len ≤ data.length) :
    ∃ mac, Nxpsc.ev2Cmac card cmd (data.take len) = .ok mac.bytes ∧
      (ev2Cmac card cmd data len mac8 : Run σ _) = pure mac := by
  have hti := card.ti.size
  have hctr : (putU16 card.cmdCtr).length = 2 := rfl
  have hlen : (data.take len).length = len := by
    rw [List.length_take]
    omega
  obtain ⟨mac, hmac, height⟩ := ev2Cmac_isOk card cmd (data.take len)
  have hput : (mac8.put mac).bytes = mac := Buf.put_all height
  refine ⟨mac8.put mac, by rw [hput, hmac], ?_⟩
  have hinput : [cmd] ++ putU16 card.cmdCtr ++ card.ti.bytes ++
      data.take len = ev2MacInput card cmd (data.take len) := by
    simp only [ev2MacInput, List.cons_append, List.nil_append,
      List.append_assoc]
  have htotal : (ev2MacInput card cmd (data.take len)).length = 7 + len := by
    simp only [ev2MacInput, List.length_cons, List.length_append, hlen, hti,
      hctr]
    omega
  have hbuf : (Buf.of (7 + len)
      (ev2MacInput card cmd (data.take len))).bytes =
        ev2MacInput card cmd (data.take len) := Bytes.fit_self htotal
  have hall : (ev2MacInput card cmd (data.take len)).take (7 + len) =
      ev2MacInput card cmd (data.take len) :=
    List.take_of_length_le (Nat.le_of_eq htotal)
  have hlong := Nat.le_of_eq htotal.symm
  have hhead : ([cmd] ++ putU16 card.cmdCtr).length = 3 := rfl
  simp only [ev2Cmac]
  rw [store_zero (by rw [List.length_singleton]; omega), pure_bind',
    store_of (List.length_singleton) (by rw [hctr]; omega), pure_bind',
    store_of hhead (by rw [hti]; omega), pure_bind', load_front hdata,
    pure_bind', store_of (by
      rw [List.length_append, List.length_append, hti, hctr]
      rfl) (by rw [hlen]), pure_bind', hinput, hbuf]
  rw [Nxpsc.ev2Cmac] at hmac
  split
  · next hlrp =>
      rw [if_pos hlrp] at hmac
      cases hmac
      rw [lrpCmac8_eq mac8 hlong, hall]
  · next hno =>
      rw [if_neg hno] at hmac
      obtain ⟨full, hfull, hblock, hrun⟩ := @cmac_eq σ _ .aes128
        card.sessionMac.bytes (.zero maxBlock) (.zero maxBlock) _ (7 + len) 0
        hlong
      have hbytes : ((Buf.zero maxBlock).put full).bytes = full :=
        Buf.put_all hblock
      rw [hall] at hfull
      have hzeros : (Buf.zero maxBlock).bytes = Bytes.zeros aesBlock := rfl
      rw [hzeros] at hfull
      rw [hfull] at hmac
      cases hmac
      rw [hrun, pure_bind', hbytes, truncateMac_eq mac8 hblock]

/-- The body goes behind a header the destination has room for. -/
theorem ev2Encipher_eq {card : Card} {buf out : Bytes} {dst : Buf cap}
    {hdr : Nat} (hhdr : hdr ≤ cap)
    (hok : (Nxpsc.ev2Encipher buf (cap - hdr) card).1 = .ok out)
    (hlen : hdr + buf.length ≤ cap) :
    ev2Encipher buf buf.length dst hdr card card =
      some (.ok (dst.patch hdr out),
        (Nxpsc.ev2Encipher buf (cap - hdr) card).2) := by
  rw [ev2Encipher]
  rw [Nxpsc.ev2Encipher] at hok ⊢
  split
  · next hlrp =>
      rw [if_pos hlrp] at hok
      have hall : buf.take buf.length = buf := List.take_length
      dsimp only at hok ⊢
      rw [minus_eq hhdr, pure_bind', lrpEncode_eq (Nat.le_refl _) (by omega),
        hall, pure_bind']
      generalize Nxpsc.lrpEncode (lrpSetCounter
        (lrpInit card.sessionEnc.bytes 1 false) card.iv.bytes (4 * 2)) buf
        (cap - hdr) = done at hok ⊢
      obtain ⟨hload, hstore⟩ := @carried_eq Card card.iv done.2
      dsimp only
      rw [hload, pure_bind', hstore, pure_bind', hok]
      rfl
  · next hno =>
      rw [if_neg hno] at hok
      obtain ⟨iv, hrun, hiv⟩ := @ev2FillIv_eq Card _ card true (.zero aesBlock)
      have hall : (buf.drop 0).take buf.length = buf := by
        rw [List.drop_zero, List.take_length]
      have hcbc := @cbcCryptEx_eq Card cap _ .aes128 card.sessionEnc.bytes iv
        buf 0 buf.length dst hdr true true (by omega) hlen
      rw [hiv, hall] at hcbc
      rw [hrun, pure_bind']
      dsimp only [cbcCrypt]
      rw [hcbc, ← Nxpsc.cbcCrypt]
      cases hdone : Nxpsc.cbcCrypt .aes128 card.sessionEnc.bytes
        (Nxpsc.ev2FillIv card true) buf true with
      | error e =>
          rw [hdone] at hok
          cases hok
      | ok done =>
          rw [hdone] at hok
          cases hok
          rfl

/-- Deciphering what fits the array for it. -/
theorem decipher_eq (type : KeyType) (key : Bytes) (iv : Buf maxBlock)
    {src : Bytes} {len n : Nat} (hsrc : len ≤ src.length) (hroom : len ≤ n) :
    (∃ e, Nxpsc.cbcCrypt type key iv.bytes (src.take len) false = .error e ∧
      (cbcCrypt type key iv src 0 len (.zero n) 0 false : Run σ _) =
        raise e) ∨
    ∃ plain last out after,
      Nxpsc.cbcCrypt type key iv.bytes (src.take len) false =
        .ok (plain, last) ∧
      (cbcCrypt type key iv src 0 len (.zero n) 0 false : Run σ _) =
        pure (out, after) ∧
      plain.length = len ∧ out.bytes.take len = plain := by
  have hlen : (src.take len).length = len := by
    rw [List.length_take]
    omega
  have hrun := @cbcCryptEx_eq σ n _ type key iv src 0 len (.zero n) 0 false
    false (by omega) (by omega)
  rw [List.drop_zero] at hrun
  rw [cbcCrypt, hrun, ← Nxpsc.cbcCrypt]
  cases hdone : Nxpsc.cbcCrypt type key iv.bytes (src.take len) false with
  | error e => exact .inl ⟨e, rfl, rfl⟩
  | ok done =>
      obtain ⟨plain, last⟩ := done
      have hplain : plain.length = len :=
        (cbcCryptEx_ok (blockSize_le_iv type iv) hdone).2.2.1.trans hlen
      exact .inr ⟨plain, last, _, _, rfl, rfl, hplain,
        Buf.take_zero_patch hplain hroom⟩

theorem lrpDecode_fits {ctx : LrpCtx} {data : Bytes} {room : Nat}
    {o : Bytes × Nat} (h : (Nxpsc.lrpDecode ctx data room).1 = .ok o) :
    o.1.length = data.length := by
  rw [Nxpsc.lrpDecode] at h
  split at h
  · cases h
  next hgood =>
  split at h
  · cases h
  cases h
  exact lrpBlocks_flatten (fun y b hb => ecbDecryptBlock_length hb)
    (Nat.div_mul_cancel (Nat.dvd_of_mod_eq_zero (by omega))).symm

/-- An answer no longer than the array it is deciphered into. -/
theorem ev2Decipher_eq {src : Bytes} {dataLen : Nat} (card : Card)
    (hsrc : dataLen ≤ src.length) (hroom : dataLen ≤ maxResponse) :
    ∃ r, ev2Decipher src dataLen card card =
        some (r, (Nxpsc.ev2Decipher (src.take dataLen) card).2) ∧
      (Nxpsc.ev2Decipher (src.take dataLen) card).1 =
        r.map fun b => b.bytes.take dataLen := by
  have hlen : (src.take dataLen).length = dataLen := by
    rw [List.length_take]
    omega
  rw [ev2Decipher, Nxpsc.ev2Decipher]
  split
  · next hlrp =>
      dsimp only
      rw [lrpDecode_eq hsrc (Nat.lt_of_le_of_lt hroom (by decide)),
        pure_bind']
      cases hdone : Nxpsc.lrpDecode (lrpSetCounter
        (lrpInit card.sessionEnc.bytes 1 false) card.iv.bytes (4 * 2))
        (src.take dataLen) maxResponse with
      | mk res ctx =>
      obtain ⟨hload, hstore⟩ := @carried_eq Card card.iv ctx
      dsimp only
      rw [hload, pure_bind', hstore, pure_bind']
      cases res with
      | error e => exact ⟨.error e, rfl, rfl⟩
      | ok o =>
          have hout : o.1.length = dataLen := by
            rw [lrpDecode_fits (congrArg Prod.fst hdone), hlen]
          refine ⟨.ok ((Buf.zero maxResponse).patch 0 o.1), rfl, ?_⟩
          exact congrArg Except.ok (Buf.take_zero_patch hout hroom).symm
  · next hno =>
      obtain ⟨iv, hrun, hiv⟩ :=
        @ev2FillIv_eq Card _ card false (.zero aesBlock)
      have hdecipher := @decipher_eq Card _ .aes128 card.sessionEnc.bytes iv
        src dataLen maxResponse hsrc hroom
      rw [hiv] at hdecipher
      rw [hrun, pure_bind']
      rcases hdecipher with ⟨e, hdone, hstep⟩ |
        ⟨plain, last, out, after, hdone, hstep, -, hout⟩
      · rw [hstep, hdone]
        exact ⟨.error e, rfl, rfl⟩
      · rw [hstep, hdone]
        exact ⟨.ok out, rfl, congrArg Except.ok hout.symm⟩

end

end Nxpsc.InMemory
