import Nxpsc.Lib.XorLinear
import Nxpsc.Ref.Des
import Nxpsc.Spec.Des

/-!
# The DES of `des.c` is the one of the standard

The source keeps both halves turned by one bit, so that the six bits a box is
entered with are adjacent, and its boxes have the permutation behind them in
their entries. Its permutations are made of exchanges of bits between the two
halves. All of that carries exclusive or over; what is left to compare are
words of one bit, and the entries of the boxes.
-/

namespace Nxpsc

open Fips46

theorem xorLinear_permute {m n : Nat} (table : List Nat) :
    XorLinear (permute (m := m) n table) := by
  intro x y
  have hfold : ∀ a b : BitVec n,
      table.foldl (fun acc p => acc.shiftConcat ((x ^^^ y).getMsbD (p - 1)))
          (a ^^^ b) =
        table.foldl (fun acc p => acc.shiftConcat (x.getMsbD (p - 1))) a ^^^
          table.foldl (fun acc p => acc.shiftConcat (y.getMsbD (p - 1))) b := by
    induction table with
    | nil => exact fun _ _ => rfl
    | cons p rest ih =>
        intro a b
        have hstep : (a ^^^ b).shiftConcat ((x ^^^ y).getMsbD (p - 1)) =
            a.shiftConcat (x.getMsbD (p - 1)) ^^^
              b.shiftConcat (y.getMsbD (p - 1)) := by
          rw [BitVec.getMsbD_xor]
          refine BitVec.eq_of_getLsbD_eq fun i hi => ?_
          simp only [BitVec.getLsbD_shiftConcat, BitVec.getLsbD_xor]
          cases decide (i < n) <;> by_cases h0 : i = 0 <;> simp [h0]
        rw [List.foldl_cons, List.foldl_cons, List.foldl_cons, hstep, ih]
  have h := hfold 0#n 0#n
  rwa [BitVec.xor_self] at h

namespace Mbedtls

/-! ## Pairs of words -/

/-- The left and the right half of a block. -/
def halves (v : BitVec 64) : Word × Word :=
  (v.extractLsb' 32 32, v.extractLsb' 0 32)

/-- Both halves of the result carry exclusive or over. -/
structure BothLinear {m : Nat} (f : BitVec m → Word × Word) : Prop where
  fst : XorLinear fun v => (f v).1
  snd : XorLinear fun v => (f v).2

theorem bothLinear_halves : BothLinear halves :=
  ⟨XorLinear.id.extract 32 32, XorLinear.id.extract 0 32⟩

theorem xorLinear_rotateLeft (n : Nat) :
    XorLinear fun x : Word => x.rotateLeft n := by
  intro x y
  refine BitVec.eq_of_getLsbD_eq fun i hi => ?_
  simp only [BitVec.getLsbD_rotateLeft, BitVec.getLsbD_xor]
  cases decide (i < n % 32) <;> simp [hi]

theorem turn_eq {n : Nat} (hn : n < 32) (x : Word) :
    ((x <<< n) ||| (x >>> (32 - n))) &&& 0xFFFFFFFF = x.rotateLeft n := by
  rw [BitVec.rotateLeft_def, Nat.mod_eq_of_lt hn]
  exact BitVec.and_allOnes

theorem xorLinear_turn {n : Nat} (hn : n < 32) : XorLinear fun x : Word =>
    ((x <<< n) ||| (x >>> (32 - n))) &&& 0xFFFFFFFF :=
  funext (turn_eq hn) ▸ xorLinear_rotateLeft n

namespace BothLinear

variable {m : Nat} {f g : BitVec m → Word × Word}

theorem swap (hf : BothLinear f) : BothLinear fun v => (f v).swap :=
  ⟨hf.snd, hf.fst⟩

theorem exchange (hf : BothLinear f) (s : Nat) (mask : Word) :
    BothLinear fun v => Mbedtls.exchange s mask (f v) :=
  have ht := ((hf.fst.ushiftRight s).xor hf.snd).and mask
  ⟨hf.fst.xor (ht.shiftLeft s), hf.snd.xor ht⟩

theorem map {a b : Word → Word} (ha : XorLinear a) (hb : XorLinear b)
    (hf : BothLinear f) : BothLinear fun v => (a (f v).1, b (f v).2) :=
  ⟨ha.comp hf.fst, hb.comp hf.snd⟩

/-- Maps that agree on the words of one bit agree. -/
theorem agree (hf : BothLinear f) (hg : BothLinear g)
    (h : ∀ i < m, f (BitVec.twoPow m i) = g (BitVec.twoPow m i))
    (v : BitVec m) : f v = g v :=
  Prod.ext (hf.fst.agree hg.fst (fun i hi => congrArg Prod.fst (h i hi)) v)
    (hf.snd.agree hg.snd (fun i hi => congrArg Prod.snd (h i hi)) v)

end BothLinear

/-! ## The permutations of a block -/

/-- Both halves turned left by one bit. -/
def turned (h : Word × Word) : Word × Word :=
  (h.1.rotateLeft 1, h.2.rotateLeft 1)

theorem BothLinear.turned {m : Nat} {f : BitVec m → Word × Word}
    (hf : BothLinear f) : BothLinear fun v => Mbedtls.turned (f v) :=
  hf.map (xorLinear_rotateLeft 1) (xorLinear_rotateLeft 1)

theorem bothLinear_permute {m : Nat} (table : List Nat) :
    BothLinear fun v : BitVec m => halves (permute 64 table v) :=
  ⟨(xorLinear_permute table).extract 32 32,
    (xorLinear_permute table).extract 0 32⟩

theorem bothLinear_desIp : BothLinear fun v => desIp (halves v) := by
  have h := (((((bothLinear_halves.exchange 4 0x0F0F0F0F).exchange 16
    0x0000FFFF).swap.exchange 2 0x33333333).exchange 8 0x00FF00FF).swap)
  exact ((h.map .id (xorLinear_turn (n := 1) (by decide))).exchange 0
    0xAAAAAAAA).map (xorLinear_turn (n := 1) (by decide)) .id

theorem bothLinear_desFp : BothLinear fun v => desFp (turned (halves v)) := by
  have h := ((bothLinear_halves.turned.map
    (xorLinear_turn (n := 31) (by decide)) .id).exchange 0 0xAAAAAAAA).map .id
    (xorLinear_turn (n := 31) (by decide))
  exact (((((h.swap.exchange 8 0x00FF00FF).exchange 2 0x33333333).swap).exchange
    16 0x0000FFFF).exchange 4 0x0F0F0F0F)

theorem desIp_halves (v : BitVec 64) :
    desIp (halves v) = turned (halves (permute 64 ip v)) :=
  bothLinear_desIp.agree (bothLinear_permute ip).turned (by decide +kernel) v

theorem desFp_halves (v : BitVec 64) :
    desFp (turned (halves v)) = halves (permute 64 fp v) :=
  bothLinear_desFp.agree (bothLinear_permute fp) (by decide +kernel) v

/-! ## A round -/

/-- A subkey as the source has it: the groups of six bits for the even boxes
in one word, for the odd ones in the other, each in a byte of its own. -/
def split (k : BitVec 48) : Word × Word :=
  (0#2 ++ k.extractLsb' 36 6 ++ 0#2 ++ k.extractLsb' 24 6 ++ 0#2 ++
      k.extractLsb' 12 6 ++ 0#2 ++ k.extractLsb' 0 6,
    0#2 ++ k.extractLsb' 42 6 ++ 0#2 ++ k.extractLsb' 30 6 ++ 0#2 ++
      k.extractLsb' 18 6 ++ 0#2 ++ k.extractLsb' 6 6)

theorem bothLinear_split : BothLinear split where
  fst := ((((((XorLinear.const_zero.append (XorLinear.id.extract 36 6)).append
    .const_zero).append (XorLinear.id.extract 24 6)).append .const_zero).append
    (XorLinear.id.extract 12 6)).append .const_zero).append
    (XorLinear.id.extract 0 6)
  snd := ((((((XorLinear.const_zero.append (XorLinear.id.extract 42 6)).append
    .const_zero).append (XorLinear.id.extract 30 6)).append .const_zero).append
    (XorLinear.id.extract 18 6)).append .const_zero).append
    (XorLinear.id.extract 6 6)

theorem sixOf_eq (w : Word) (s : Nat) :
    sixOf w s = (w.extractLsb' s 6).toNat := by
  rw [sixOf, BitVec.toNat_and, BitVec.extractLsb'_toNat,
    BitVec.toNat_ushiftRight]
  exact Nat.and_two_pow_sub_one_eq_mod _ 6

/-- The six bits at a place of the word that a subkey and a half are added to
are a group of the subkey and of the expanded half. -/
structure GroupAt (word : Word × Word → Word) (turn : Word → Word)
    (place group : Nat) : Prop where
  key : ∀ k : BitVec 48, (word (split k)).extractLsb' place 6 =
    k.extractLsb' group 6
  half : ∀ r : BitVec 32, (turn (r.rotateLeft 1)).extractLsb' place 6 =
    (permute 48 expansion r).extractLsb' group 6

theorem GroupAt.of_bits {word : Word × Word → Word} {turn : Word → Word}
    {place group : Nat} (hword : XorLinear fun k => word (split k))
    (hturn : XorLinear turn)
    (hkey : ∀ i < 48, (word (split (BitVec.twoPow 48 i))).extractLsb' place 6 =
      (BitVec.twoPow 48 i).extractLsb' group 6)
    (hhalf : ∀ i < 32,
      (turn ((BitVec.twoPow 32 i).rotateLeft 1)).extractLsb' place 6 =
        (permute 48 expansion (BitVec.twoPow 32 i)).extractLsb' group 6) :
    GroupAt word turn place group where
  key := (hword.extract place 6).agree (XorLinear.id.extract group 6) hkey
  half := ((hturn.comp (xorLinear_rotateLeft 1)).extract place 6).agree
    ((xorLinear_permute expansion).extract group 6) hhalf

theorem groupAt_fst {place group : Nat}
    (hkey : ∀ i < 48, (split (BitVec.twoPow 48 i)).1.extractLsb' place 6 =
      (BitVec.twoPow 48 i).extractLsb' group 6)
    (hhalf : ∀ i < 32,
      ((BitVec.twoPow 32 i).rotateLeft 1).extractLsb' place 6 =
        (permute 48 expansion (BitVec.twoPow 32 i)).extractLsb' group 6) :
    GroupAt Prod.fst (fun x => x) place group :=
  .of_bits bothLinear_split.fst .id hkey hhalf

theorem groupAt_snd {place group : Nat}
    (hkey : ∀ i < 48, (split (BitVec.twoPow 48 i)).2.extractLsb' place 6 =
      (BitVec.twoPow 48 i).extractLsb' group 6)
    (hhalf : ∀ i < 32, (((BitVec.twoPow 32 i).rotateLeft 1).rotateLeft
        28).extractLsb' place 6 =
      (permute 48 expansion (BitVec.twoPow 32 i)).extractLsb' group 6) :
    GroupAt Prod.snd (·.rotateLeft 28) place group :=
  .of_bits bothLinear_split.snd (xorLinear_rotateLeft 28) hkey hhalf

/-- What the result of one box is worth behind the permutation, in a half
turned by one bit. -/
def worth (v : BitVec 32) : Word := (permute 32 pbox v).rotateLeft 1

theorem xorLinear_worth : XorLinear worth :=
  (xorLinear_rotateLeft 1).comp (xorLinear_permute pbox)

/-- A table of the source has what the result of a box is worth, where it
stands in the row of the eight. -/
structure BoxOf (table : List Word) (box : List (BitVec 4))
    (stands : BitVec 4 → BitVec 32) : Prop where
  value : ∀ v : BitVec 6, table.getD v.toNat 0 = worth (stands (entry box v))

theorem BoxOf.of_entries {table : List Word} {box : List (BitVec 4)}
    {stands : BitVec 4 → BitVec 32} (h : ∀ i < 64, table.getD i 0 =
      worth (stands (entry box (BitVec.ofNat 6 i)))) :
    BoxOf table box stands where
  value v := by
    have hv := h v.toNat v.isLt
    rwa [BitVec.ofNat_toNat, BitVec.setWidth_eq] at hv

/-- One lookup of a round. -/
theorem lookup {table : List Word} {box : List (BitVec 4)}
    {stands : BitVec 4 → BitVec 32} (htable : BoxOf table box stands)
    {word : Word × Word → Word} {turn : Word → Word} {place group : Nat}
    (hgroup : GroupAt word turn place group) (k : BitVec 48) (r : BitVec 32) :
    table.getD (sixOf (word (split k) ^^^ turn (r.rotateLeft 1)) place) 0 =
      worth (stands (entry box
        ((permute 48 expansion r ^^^ k).extractLsb' group 6))) := by
  rw [sixOf_eq, htable.value, BitVec.extractLsb'_xor, hgroup.key, hgroup.half,
    BitVec.extractLsb'_xor, BitVec.xor_comm]

theorem sideBySide_xor (a b c d e f g h a' b' c' d' e' f' g' h' : BitVec 4) :
    sideBySide a b c d e f g h ^^^ sideBySide a' b' c' d' e' f' g' h' =
      sideBySide (a ^^^ a') (b ^^^ b') (c ^^^ c') (d ^^^ d') (e ^^^ e')
        (f ^^^ f') (g ^^^ g') (h ^^^ h') := by
  show (a ++ b ++ c ++ d ++ e ++ f ++ g ++ h :
      BitVec (4 + 4 + 4 + 4 + 4 + 4 + 4 + 4)) ^^^
    (a' ++ b' ++ c' ++ d' ++ e' ++ f' ++ g' ++ h') = _
  simp only [BitVec.xor_append]
  rfl

theorem sideBySide_sum (a b c d e f g h : BitVec 4) :
    sideBySide a b c d e f g h =
      (sideBySide 0 0 0 0 0 0 0 h ^^^ sideBySide 0 0 0 0 0 f 0 0 ^^^
          sideBySide 0 0 0 d 0 0 0 0 ^^^ sideBySide 0 b 0 0 0 0 0 0) ^^^
        (sideBySide 0 0 0 0 0 0 g 0 ^^^ sideBySide 0 0 0 0 e 0 0 0 ^^^
          sideBySide 0 0 c 0 0 0 0 0 ^^^ sideBySide a 0 0 0 0 0 0 0) := by
  simp [sideBySide_xor]

theorem desRound_split (k : BitVec 48) (r : BitVec 32) :
    desRound (split k) (r.rotateLeft 1) =
      (cipherFunction k r).rotateLeft 1 := by
  have h1 := @lookup sb1 s1 (fun s => sideBySide s 0 0 0 0 0 0 0)
    (.of_entries (by decide +kernel)) _ _ 24 42
    (groupAt_snd (by decide +kernel) (by decide +kernel)) k r
  have h2 := @lookup sb2 s2 (fun s => sideBySide 0 s 0 0 0 0 0 0)
    (.of_entries (by decide +kernel)) _ _ 24 36
    (groupAt_fst (by decide +kernel) (by decide +kernel)) k r
  have h3 := @lookup sb3 s3 (fun s => sideBySide 0 0 s 0 0 0 0 0)
    (.of_entries (by decide +kernel)) _ _ 16 30
    (groupAt_snd (by decide +kernel) (by decide +kernel)) k r
  have h4 := @lookup sb4 s4 (fun s => sideBySide 0 0 0 s 0 0 0 0)
    (.of_entries (by decide +kernel)) _ _ 16 24
    (groupAt_fst (by decide +kernel) (by decide +kernel)) k r
  have h5 := @lookup sb5 s5 (fun s => sideBySide 0 0 0 0 s 0 0 0)
    (.of_entries (by decide +kernel)) _ _ 8 18
    (groupAt_snd (by decide +kernel) (by decide +kernel)) k r
  have h6 := @lookup sb6 s6 (fun s => sideBySide 0 0 0 0 0 s 0 0)
    (.of_entries (by decide +kernel)) _ _ 8 12
    (groupAt_fst (by decide +kernel) (by decide +kernel)) k r
  have h7 := @lookup sb7 s7 (fun s => sideBySide 0 0 0 0 0 0 s 0)
    (.of_entries (by decide +kernel)) _ _ 0 6
    (groupAt_snd (by decide +kernel) (by decide +kernel)) k r
  have h8 := @lookup sb8 s8 (fun s => sideBySide 0 0 0 0 0 0 0 s)
    (.of_entries (by decide +kernel)) _ _ 0 0
    (groupAt_fst (by decide +kernel) (by decide +kernel)) k r
  have hturn : ((r.rotateLeft 1) <<< 28) ||| ((r.rotateLeft 1) >>> 4) =
      (r.rotateLeft 1).rotateLeft 28 := rfl
  simp only [desRound, hturn, h1, h2, h3, h4, h5, h6, h7, h8]
  show _ = worth (boxes (permute 48 expansion r ^^^ k))
  conv => rhs; rw [boxes, sideBySide_sum]
  simp only [xorLinear_worth _ _]

end Mbedtls
end Nxpsc
