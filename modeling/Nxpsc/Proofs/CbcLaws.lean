import Mathlib.Algebra.BigOperators.Ring.List
import Nxpsc.Proofs.Chaining
import Nxpsc.Proofs.CryptoMemory
import Nxpsc.Spec.CbcLaws

/-!
# Chaining keeps its laws

Between two arrays `nxpsc_cbc_crypt_ex` is one end of a chain. The ends of a
chain undo each other whichever primitive comes first, and a chain goes on from
its last block. In place a round reads what no round before it has written: the
array and a copy of its first contents agree from the block that is next.
-/

namespace Nxpsc.InMemory

open Checked

variable {σ : Type} {n : Nat}

/-- The last block of what was sent is the block a chain goes on from. -/
theorem cbcSent_last {bs : Nat} {f g : Bytes → Bytes} {iv data : Bytes}
    (hpair : BlockPair bs f g) (hiv : bs ≤ iv.length) (hpos : 0 < data.length)
    (hmod : data.length % bs = 0) :
    (cbcSent bs f iv data).2 =
      (cbcSent bs f iv data).1.drop (data.length - bs) := by
  have hlen := hpair.length_sent hiv hmod
  obtain ⟨hall, -, -⟩ := hpair.sent_ok hiv hmod
  have hne : (Cbc.send f Bytes.xor (iv.take bs)
      (Bytes.chunks bs (data.length / bs) data)).1 ≠ [] := by
    intro hnil
    rw [cbcSent, hnil, List.flatten_nil, List.length_nil] at hlen
    omega
  have hlast := Bytes.drop_flatten_last (iv.take bs) hne hall
  rw [← Cbc.send_last] at hlast
  rw [← hlen]
  exact hlast.symm

/-- What is still to be read is as it was before the first round. -/
theorem cbcBlocksInPlace_eq {prim : Bytes → Bytes} {bs start : Nat}
    {dirToSend : Bool} {input : Bytes} (hinput : input.length = n)
    (hprim : ∀ b, b.length = bs → (prim b).length = bs) :
    ∀ (rounds off : Nat) {civ : Bytes} (buf : Buf n), civ.length = bs →
      input.drop (start + off) = buf.bytes.drop (start + off) →
      (cbcBlocksInPlace prim bs dirToSend start rounds off civ buf :
        Run σ _) =
        cbcBlocks prim bs dirToSend input start start rounds off civ buf := by
  intro rounds
  induction rounds with
  | zero => exact fun _ _ _ _ _ => rfl
  | succ rounds ih =>
      intro off civ buf hciv hagree
      by_cases hin : start + off + bs ≤ n
      swap
      · rw [cbcBlocksInPlace, cbcBlocks, load, load, if_neg (by
          rw [Buf.bytes_length]
          exact hin), if_neg (by rw [hinput]; exact hin)]
        rfl
      have hsrc : ((input.drop (start + off)).take bs).length = bs :=
        Bytes.length_part (by omega)
      simp only [cbcBlocksInPlace, cbcBlocks]
      rw [load_eq (by rw [Buf.bytes_length]; exact hin), pure_bind',
        load_eq (by rw [hinput]; exact hin), pure_bind', ← hagree]
      have hdst := length_cbcRound dirToSend hprim hsrc hciv
      generalize (if dirToSend = true then
        prim (Bytes.xor ((input.drop (start + off)).take bs) civ)
        else Bytes.xor (prim ((input.drop (start + off)).take bs)) civ) = dst
        at hdst ⊢
      have hcarry : (if dirToSend = true then dst
          else (input.drop (start + off)).take bs).length = bs := by
        split
        · exact hdst
        · exact hsrc
      rw [store_eq (by rw [hdst]; exact hin), pure_bind', pure_bind']
      refine ih (off + bs) _ hcarry ?_
      have hbehind := @Buf.drop_patch n buf (start + off) dst
        (by rw [hdst]; exact hin) 0
      rw [hdst, Nat.add_zero] at hbehind
      calc input.drop (start + (off + bs))
          = (input.drop (start + off)).drop bs := by
            rw [List.drop_drop, Nat.add_assoc]
        _ = buf.bytes.drop (start + off + bs) := by
            rw [hagree, List.drop_drop]
        _ = _ := by rw [← hbehind, Nat.add_assoc]

section

variable [c : BlockCipher] {type : KeyType} {key : Bytes}

/-! ## One end of a chain -/

/-- What comes out at an end, and the last block of the chain. -/
def cbcEnd (type : KeyType) (key iv data : Bytes) (dirToSend encode : Bool) :
    Bytes × Bytes :=
  if dirToSend then
    cbcSent (blockSize type) (blockPrim type key encode) iv data
  else cbcReceived (blockSize type) (blockPrim type key encode) iv data

theorem cbcCryptEx_end (iv : Bytes) {data : Bytes} (dirToSend encode : Bool)
    (hpos : 0 < data.length) (hmod : data.length % blockSize type = 0) :
    Nxpsc.cbcCryptEx type key iv data dirToSend encode =
      .ok (cbcEnd type key iv data dirToSend encode) := by
  rw [cbcCryptEx_pure, if_neg (by omega)]
  cases dirToSend
  · rfl
  · rfl

theorem length_cbcEnd {iv data : Bytes} (dirToSend encode : Bool)
    (hiv : blockSize type ≤ iv.length) (hpos : 0 < data.length)
    (hmod : data.length % blockSize type = 0) :
    (cbcEnd type key iv data dirToSend encode).1.length = data.length ∧
      (cbcEnd type key iv data dirToSend encode).2.length =
        blockSize type := by
  have hdone := cbcCryptEx_ok hiv
    (@cbcCryptEx_end c type key iv data dirToSend encode hpos hmod)
  exact ⟨hdone.2.2.1, hdone.2.2.2⟩

/-- A run between two arrays that are large enough. -/
theorem cbcCryptEx_run {iv : Buf maxBlock} {input : Bytes} {inAt len : Nat}
    {out : Buf n} {outAt : Nat} (dirToSend encode : Bool)
    (hin : inAt + len ≤ input.length) (hout : outAt + len ≤ n)
    (hpos : 0 < len) (hmod : len % blockSize type = 0) :
    let done := cbcEnd type key iv.bytes ((input.drop inAt).take len) dirToSend
      encode
    (cbcCryptEx type key iv input inAt len out outAt dirToSend encode :
      Run σ _) = pure (out.patch outAt done.1, iv.put done.2) := by
  have hlen : ((input.drop inAt).take len).length = len :=
    Bytes.length_part (by omega)
  rw [cbcCryptEx_eq dirToSend encode hin hout,
    cbcCryptEx_end _ _ _ (by omega) (by rw [hlen]; exact hmod)]
  rfl

/-! ## There and back -/

theorem primPair (hinv : DecryptInverts c) (type : KeyType) (key : Bytes)
    (encode : Bool) :
    BlockPair (blockSize type) (blockPrim type key encode)
      (blockPrim type key (!encode)) := by
  cases encode
  · exact decryptPair hinv type key
  · exact encryptPair hinv type key

theorem cbc_comes_back (hinv : DecryptInverts c) (iv : Buf maxBlock)
    {input : Bytes} {inAt len : Nat} (hin : inAt + len ≤ input.length)
    (hpos : 0 < len) (hmod : len % blockSize type = 0) (encode : Bool) :
    ComesBack type key iv input inAt len encode := by
  intro n m out outAt back backAt hout hback
  have hiv := blockSize_le_iv type iv
  have hlen : ((input.drop inAt).take len).length = len :=
    Bytes.length_part (by omega)
  have hpair := primPair hinv type key encode
  have hsend := @cbcCryptEx_run Unit n c type key iv input inAt len out outAt
    true encode hin hout hpos hmod
  generalize (input.drop inAt).take len = data at hlen hsend ⊢
  have hmod' : data.length % blockSize type = 0 := by
    rw [hlen]
    exact hmod
  obtain ⟨htext, hlast⟩ := @length_cbcEnd c type key iv.bytes data true encode
    hiv (by omega) hmod'
  have hblock := cbcSent_last hpair hiv (by omega) hmod'
  have hreceived : cbcEnd type key iv.bytes
      (cbcEnd type key iv.bytes data true encode).1 false (!encode) =
        (data, (cbcEnd type key iv.bytes data true encode).2) :=
    hpair.received hiv hmod'
  rw [hlen] at htext hblock
  have hpart := Buf.part_patch out htext hout
  have hreceive := @cbcCryptEx_run Unit m c type key iv (out.patch outAt
    (cbcEnd type key iv.bytes data true encode).1).bytes outAt len back backAt
    false (!encode) (by rw [Buf.bytes_length]; exact hout) hback hpos hmod
  rw [hpart, hreceived] at hreceive
  refine ⟨_, _, _, hsend, hreceive, Buf.part_patch back hlen hback, ?_⟩
  have hsize : blockSize type ≤ len :=
    Nat.le_of_dvd hpos (Nat.dvd_of_mod_eq_zero hmod)
  rw [Buf.put_take_eq hlast (blockSize_le type)]
  calc (cbcEnd type key iv.bytes data true encode).2
      = (cbcEnd type key iv.bytes data true encode).1.drop
          (len - blockSize type) := hblock
    _ = _ := by
        rw [← hpart, List.drop_take, List.drop_drop, hpart]
        congr 1
        · omega
        · congr 1
          omega

/-! ## In pieces -/

theorem cbcEnd_append {iv xs ys iv' : Bytes} (dirToSend encode : Bool)
    (hxs : xs.length % blockSize type = 0)
    (hiv : iv'.take (blockSize type) =
      (cbcEnd type key iv xs dirToSend encode).2) :
    cbcEnd type key iv (xs ++ ys) dirToSend encode =
      ((cbcEnd type key iv xs dirToSend encode).1 ++
        (cbcEnd type key iv' ys dirToSend encode).1,
        (cbcEnd type key iv' ys dirToSend encode).2) := by
  have hbs := blockSize_pos type
  have hcount : xs.length = xs.length / blockSize type * blockSize type :=
    (Nat.div_mul_cancel (Nat.dvd_of_mod_eq_zero hxs)).symm
  have hsum : (xs ++ ys).length / blockSize type =
      xs.length / blockSize type + ys.length / blockSize type := by
    rw [List.length_append,
      Nat.add_div_of_dvd_right (Nat.dvd_of_mod_eq_zero hxs)]
  have hchunks := Bytes.chunks_append (ys.length / blockSize type) ys hcount
  rw [← hsum] at hchunks
  cases dirToSend with
  | true =>
      simp only [cbcEnd, if_true, cbcSent] at hiv ⊢
      rw [hchunks, Cbc.send_append, ← hiv, List.flatten_append]
  | false =>
      simp only [cbcEnd, Bool.false_eq_true, if_false, cbcReceived] at hiv ⊢
      rw [hchunks, Cbc.receive_append, ← hiv, List.flatten_append]

/-- Two calls, the second with the IV of the first. -/
theorem cbcCryptEx_add {iv : Buf maxBlock} {input : Bytes}
    {inAt len more : Nat} {out : Buf n} {outAt : Nat}
    (dirToSend encode : Bool) (hin : inAt + len + more ≤ input.length)
    (hout : outAt + len + more ≤ n) (hpos : 0 < len)
    (hmod : len % blockSize type = 0) (hpos' : 0 < more)
    (hmod' : more % blockSize type = 0) :
    (cbcCryptEx type key iv input inAt len out outAt dirToSend encode >>=
      fun done => cbcCryptEx type key done.2 input (inAt + len) more done.1
        (outAt + len) dirToSend encode : Run σ _) =
      cbcCryptEx type key iv input inAt (len + more) out outAt dirToSend
        encode := by
  have hiv := blockSize_le_iv type iv
  have hlen : ((input.drop inAt).take len).length = len :=
    Bytes.length_part (by omega)
  have hlen' : ((input.drop (inAt + len)).take more).length = more :=
    Bytes.length_part (by omega)
  have hdata : (input.drop inAt).take (len + more) =
      (input.drop inAt).take len ++ (input.drop (inAt + len)).take more := by
    rw [List.take_add, List.drop_drop]
  have hsum : (len + more) % blockSize type = 0 := by
    rw [Nat.add_mod, hmod, hmod']
    exact Nat.zero_mod _
  have hfirst := @cbcCryptEx_run σ n c type key iv input inAt len out outAt
    dirToSend encode (by omega) (by omega) hpos hmod
  have hwhole := @cbcCryptEx_run σ n c type key iv input inAt (len + more) out
    outAt dirToSend encode (by omega) (by omega) (by omega) hsum
  have hends := fun iv' => @cbcEnd_append c type key iv.bytes
    ((input.drop inAt).take len) ((input.drop (inAt + len)).take more) iv'
    dirToSend encode (by rw [hlen]; exact hmod)
  obtain ⟨htext, hlast⟩ := @length_cbcEnd c type key iv.bytes
    ((input.drop inAt).take len) dirToSend encode hiv (by omega)
    (by rw [hlen]; exact hmod)
  rw [hdata] at hwhole
  rw [hlen] at htext
  generalize cbcEnd type key iv.bytes ((input.drop inAt).take len) dirToSend
    encode = first at hfirst hends htext hlast
  have hput : (iv.put first.2).bytes.take (blockSize type) = first.2 :=
    Buf.put_take_eq hlast (blockSize_le type)
  have hsecond := @cbcCryptEx_run σ n c type key (iv.put first.2) input
    (inAt + len) more (out.patch outAt first.1) (outAt + len) dirToSend encode
    (by omega) (by omega) hpos' hmod'
  obtain ⟨htext', hlast'⟩ := @length_cbcEnd c type key (iv.put first.2).bytes
    ((input.drop (inAt + len)).take more) dirToSend encode
    (blockSize_le_iv type _) (by omega) (by rw [hlen']; exact hmod')
  have hsame := hlast.trans hlast'.symm
  have hlastle : first.2.length ≤ maxBlock := by
    rw [hlast]
    exact blockSize_le type
  rw [hends _ hput] at hwhole
  dsimp only at hfirst hsecond hwhole
  rw [hfirst, pure_bind', hsecond, hwhole, Buf.put_put _ hsame hlastle,
    ← htext, Buf.patch_patch _ (by rw [htext, htext', hlen']; omega)]

theorem cbc_adds_up (iv : Buf maxBlock) {input : Bytes} {inAt len : Nat}
    (hin : inAt + len ≤ input.length) (hpos : 0 < len)
    (dirToSend encode : Bool) :
    AddsUp type key iv input inAt len dirToSend encode := by
  intro n out outAt lens hout hsum hall
  induction lens generalizing iv inAt len out outAt with
  | nil =>
      rw [List.sum_nil] at hsum
      omega
  | cons l rest ih =>
      rw [List.sum_cons] at hsum
      obtain ⟨hl, hmod⟩ := hall l (.head _)
      rw [cbcPieces, cbcCryptEx_run dirToSend encode (by omega) (by omega) hl
        hmod, pure_bind']
      cases rest with
      | nil =>
          rw [List.sum_nil] at hsum
          have hone : l = len := by omega
          subst hone
          rw [cbcPieces, cbcCryptEx_run dirToSend encode hin hout hl hmod]
      | cons l' rest =>
          have htail : ∀ x ∈ l' :: rest, 0 < x ∧ x % blockSize type = 0 :=
            fun x hx => hall x (.tail _ hx)
          have hmore : 0 < (l' :: rest).sum := by
            have hl' := (htail l' (.head _)).1
            rw [List.sum_cons]
            omega
          have hmore' : (l' :: rest).sum % blockSize type = 0 :=
            Nat.mod_eq_zero_of_dvd (List.dvd_sum fun x hx =>
              Nat.dvd_of_mod_eq_zero (htail x hx).2)
          have hadd := @cbcCryptEx_add Unit n c type key iv input inAt l
            (l' :: rest).sum out outAt dirToSend encode (by omega) (by omega)
            hl hmod hmore hmore'
          rw [cbcCryptEx_run dirToSend encode (by omega) (by omega) hl hmod,
            pure_bind', hsum] at hadd
          rw [ih _ (by omega) hmore _ _ (by omega) rfl htail]
          exact hadd

/-! ## In place -/

/-- The output may be the input. -/
theorem cbcCryptExInPlace_eq (iv : Buf maxBlock) (buf : Buf n)
    (start len : Nat) (dirToSend encode : Bool) :
    (cbcCryptExInPlace type key iv buf start len dirToSend encode :
      Run σ _) =
      cbcCryptEx type key iv buf.bytes start len buf start dirToSend
        encode := by
  have hiv := blockSize_le_iv type iv
  have hciv : (iv.bytes.take (blockSize type)).length = blockSize type := by
    rw [List.length_take, Nat.min_eq_left hiv]
  simp only [cbcCryptExInPlace, cbcCryptEx]
  split
  · rfl
  · rw [load_front hiv, pure_bind', pure_bind',
      cbcBlocksInPlace_eq buf.size (isBlock_prim type key encode) _ _ _ hciv
        rfl]

theorem cbc_may_alias (iv : Buf maxBlock) (buf : Buf n) {start len : Nat}
    (hbuf : start + len ≤ n) (hpos : 0 < len)
    (hmod : len % blockSize type = 0) (dirToSend encode : Bool) :
    MayAlias type key iv buf start len dirToSend encode := by
  intro m out outAt hout
  have hiv := blockSize_le_iv type iv
  have hin : start + len ≤ buf.bytes.length := by
    rw [buf.size]
    exact hbuf
  have hlen : ((buf.bytes.drop start).take len).length = len :=
    Bytes.length_part (by omega)
  refine ⟨_, _, cbcCryptEx_run dirToSend encode hin hout hpos hmod, ?_, ?_⟩
  · rw [cbcCryptExInPlace_eq, cbcCryptEx_run dirToSend encode hin hbuf hpos
      hmod]
  · rw [(length_cbcEnd dirToSend encode hiv (by omega) (by
      rw [hlen]
      exact hmod)).1, hlen]

/-- The laws of chaining, for both primitives and both directions. -/
theorem cbc_laws (hinv : DecryptInverts c) (type : KeyType) (key : Bytes)
    (iv : Buf maxBlock) {input : Bytes} {inAt len : Nat}
    (hin : inAt + len ≤ input.length) (hpos : 0 < len)
    (hmod : len % blockSize type = 0) (encode : Bool) :
    ComesBack type key iv input inAt len encode ∧
      (∀ dirToSend, AddsUp type key iv input inAt len dirToSend encode) ∧
      ∀ {n : Nat} (buf : Buf n) (start : Nat), start + len ≤ n →
        ∀ dirToSend, MayAlias type key iv buf start len dirToSend encode :=
  ⟨cbc_comes_back hinv iv hin hpos hmod encode,
    fun dirToSend => cbc_adds_up iv hin hpos dirToSend encode,
    fun buf _ hbuf dirToSend =>
      cbc_may_alias iv buf hbuf hpos hmod dirToSend encode⟩

end

theorem cbc_laws_two_blocks :
    @ComesBack .identity .aes128 (Bytes.zeros 16) (.zero 16) (Bytes.zeros 33) 1
        32 false ∧
      (∀ dirToSend, @AddsUp .identity .aes128 (Bytes.zeros 16) (.zero 16)
        (Bytes.zeros 33) 1 32 dirToSend false) ∧
      ∀ {n : Nat} (buf : Buf n) (start : Nat), start + 32 ≤ n →
        ∀ dirToSend, @MayAlias .identity n .aes128 (Bytes.zeros 16) (.zero 16)
          buf start 32 dirToSend false :=
  @cbc_laws .identity decryptInverts_identity .aes128 (Bytes.zeros 16)
    (.zero 16) (Bytes.zeros 33) 1 32 (by decide) (by decide) (by decide) false

end Nxpsc.InMemory
