import Nxpsc.Proofs.Aes

/-!
# The key schedule of `aes.c`

The source writes four or eight words a time, as many as the key has, where
the standard writes one after the other; for a key of 256 bits it writes four
words more than there are rounds for. The schedule for decryption is the same
one from behind, with the columns of the keys in the middle mixed.
-/

namespace Nxpsc

open Fips197

/-! ## The standard's schedule, a few words at a time -/

namespace Fips197

theorem expandKey_add (nk : Nat) (key : List Column) (n m : Nat) :
    expandKey nk key (n + m) = expandKey nk (expandKey nk key n) m := by
  induction m with
  | zero => rfl
  | succ m ih => rw [← Nat.add_assoc, expandKey, expandKey, ih]

theorem expandKey_length (nk : Nat) (key : List Column) (n : Nat) :
    (expandKey nk key n).length = key.length + n := by
  induction n with
  | zero => rfl
  | succ n ih =>
      rw [expandKey, List.length_append, ih]
      rfl

/-- Words that are there stay. -/
theorem expandKey_prefix (nk : Nat) (key : List Column) (n : Nat) :
    key <+: expandKey nk key n := by
  induction n with
  | zero => exact List.prefix_refl key
  | succ n ih => exact ih.trans (List.prefix_append _ _)

theorem nextWord_append (pre mid : List Column) (a z : Column) :
    nextWord (mid.length + 2) (pre ++ a :: (mid ++ [z])) =
      xorWord a (temp (mid.length + 2) (pre.length + (mid.length + 2)) z) := by
  have hlen : (pre ++ a :: (mid ++ [z])).length =
      pre.length + (mid.length + 2) := by simp
  have hfirst : (pre ++ a :: (mid ++ [z])).getD pre.length zeroWord = a := by
    simp
  have hlast : (pre ++ a :: (mid ++ [z])).getD
      (pre.length + (mid.length + 2) - 1) zeroWord = z := by
    have hpos : pre.length + (mid.length + 2) - 1 =
        pre.length + (mid.length + 1) := rfl
    rw [hpos]
    simp
  rw [nextWord, hlen, Nat.add_sub_cancel, hfirst, hlast]

/-- One more word behind words that end in `a`, `mid`, `z`. -/
theorem expandKey_one (pre mid : List Column) (a z : Column) (n : Nat) :
    expandKey (mid.length + 2) (pre ++ a :: (mid ++ [z])) (n + 1) =
      expandKey (mid.length + 2) ((pre ++ [a]) ++ (mid ++ [z, xorWord a
        (temp (mid.length + 2) (pre.length + (mid.length + 2)) z)])) n := by
  rw [Nat.add_comm n 1, expandKey_add, expandKey, expandKey, nextWord_append]
  simp

/-- The first word of a stretch is rotated, substituted and takes a round
constant. -/
theorem temp_first (nk i : Nat) (z : Column) (hnk : 0 < nk) :
    temp nk (nk * i + nk) z =
      xorWord (subWord (rotWord z)) (rcon (i + 1)) := by
  rw [temp, ← Nat.mul_succ, Nat.mul_mod_right, if_pos rfl,
    Nat.mul_div_cancel_left _ hnk]

/-- The words behind it are left alone, but for the fourth of a key of more
than six words, which is substituted. -/
theorem temp_rest (nk i j : Nat) (z : Column) (hj : 0 < j) (hnk : j < nk) :
    temp nk (nk * i + j + nk) z =
      if 6 < nk ∧ j = 4 then subWord z else z := by
  have hmod : (nk * i + j + nk) % nk = j := by
    rw [Nat.add_mod_right, Nat.mul_add_mod, Nat.mod_eq_of_lt hnk]
  rw [temp, hmod, if_neg (Nat.ne_of_gt hj)]

/-- Four words on, for a key of four. -/
theorem expandKey_four {pre : List Column} {i : Nat}
    (hpre : pre.length = 4 * i) (a b c d : Column) :
    let e := xorWord a (xorWord (subWord (rotWord d)) (rcon (i + 1)))
    let f := xorWord b e
    let g := xorWord c f
    expandKey 4 (pre ++ [a, b, c, d]) 4 =
      pre ++ [a, b, c, d] ++ [e, f, g, xorWord d g] := by
  intro e f g
  have h0 := expandKey_one pre [b, c] a d 3
  have h1 := expandKey_one (pre ++ [a]) [c, d] b e 2
  have h2 := expandKey_one (pre ++ [a, b]) [d, e] c f 1
  have h3 := expandKey_one (pre ++ [a, b, c]) [e, f] d g 0
  simp only [List.length_cons, List.length_nil, List.length_append, hpre,
    Nat.zero_add, Nat.reduceAdd, List.cons_append, List.nil_append,
    List.append_assoc] at h0 h1 h2 h3
  rw [temp_first 4 i d (by decide)] at h0
  rw [temp_rest 4 i 1 e (by decide) (by decide), if_neg (by decide)] at h1
  rw [temp_rest 4 i 2 f (by decide) (by decide), if_neg (by decide)] at h2
  rw [temp_rest 4 i 3 g (by decide) (by decide), if_neg (by decide)] at h3
  rw [h0, h1, h2, h3, expandKey]
  simp

/-- Eight words on, for a key of eight. -/
theorem expandKey_eight {pre : List Column} {i : Nat}
    (hpre : pre.length = 8 * i) (a b c d e f g h : Column) :
    let a' := xorWord a (xorWord (subWord (rotWord h)) (rcon (i + 1)))
    let b' := xorWord b a'
    let c' := xorWord c b'
    let d' := xorWord d c'
    let e' := xorWord e (subWord d')
    let f' := xorWord f e'
    let g' := xorWord g f'
    expandKey 8 (pre ++ [a, b, c, d, e, f, g, h]) 8 =
      pre ++ [a, b, c, d, e, f, g, h] ++
        [a', b', c', d', e', f', g', xorWord h g'] := by
  intro a' b' c' d' e' f' g'
  have h0 := expandKey_one pre [b, c, d, e, f, g] a h 7
  have h1 := expandKey_one (pre ++ [a]) [c, d, e, f, g, h] b a' 6
  have h2 := expandKey_one (pre ++ [a, b]) [d, e, f, g, h, a'] c b' 5
  have h3 := expandKey_one (pre ++ [a, b, c]) [e, f, g, h, a', b'] d c' 4
  have h4 := expandKey_one (pre ++ [a, b, c, d]) [f, g, h, a', b', c'] e d' 3
  have h5 := expandKey_one (pre ++ [a, b, c, d, e]) [g, h, a', b', c', d']
    f e' 2
  have h6 := expandKey_one (pre ++ [a, b, c, d, e, f]) [h, a', b', c', d', e']
    g f' 1
  have h7 := expandKey_one (pre ++ [a, b, c, d, e, f, g])
    [a', b', c', d', e', f'] h g' 0
  simp only [List.length_cons, List.length_nil, List.length_append, hpre,
    Nat.zero_add, Nat.reduceAdd, List.cons_append, List.nil_append,
    List.append_assoc] at h0 h1 h2 h3 h4 h5 h6 h7
  rw [temp_first 8 i h (by decide)] at h0
  rw [temp_rest 8 i 1 a' (by decide) (by decide), if_neg (by decide)] at h1
  rw [temp_rest 8 i 2 b' (by decide) (by decide), if_neg (by decide)] at h2
  rw [temp_rest 8 i 3 c' (by decide) (by decide), if_neg (by decide)] at h3
  rw [temp_rest 8 i 4 d' (by decide) (by decide), if_pos (by decide)] at h4
  rw [temp_rest 8 i 5 e' (by decide) (by decide), if_neg (by decide)] at h5
  rw [temp_rest 8 i 6 f' (by decide) (by decide), if_neg (by decide)] at h6
  rw [temp_rest 8 i 7 g' (by decide) (by decide), if_neg (by decide)] at h7
  rw [h0, h1, h2, h3, h4, h5, h6, h7, expandKey]
  simp

/-! ## Strings -/

theorem ofBytes_bytes (s : State) : ofBytes s.bytes = s := rfl

theorem bytes_ofBytes {b : Bytes} (h : b.length = 16) :
    (ofBytes b).bytes = b := by
  match b, h with
  | [_, _, _, _, _, _, _, _, _, _, _, _, _, _, _, _], _ => rfl

end Fips197

/-! ## The words the source writes -/

namespace Mbedtls

theorem column_subRot (w : Word) :
    column (subRot w) = subWord (rotWord (column w)) := by
  rw [subRot]
  simp only [fsbAt_byteOf, column_placed]
  rfl

theorem column_subAll (w : Word) : column (subAll w) = subWord (column w) := by
  rw [subAll]
  simp only [fsbAt_byteOf, column_placed]
  rfl

theorem column_rcon : ∀ i < 10,
    column (rcon.getD i 0) = Fips197.rcon (i + 1) := by decide +kernel

theorem xorWord_right_comm (u v w : Column) :
    xorWord (xorWord u v) w = xorWord u (xorWord w v) := by
  simp only [xorWord, Column.mk.injEq]
  refine ⟨?_, ?_, ?_, ?_⟩ <;> ac_rfl

/-- A round of `case 10`. -/
theorem column_next128 {i : Nat} (hi : i < 10) {pre : List Column}
    (hpre : pre.length = 4 * i) (a b c d : Word) :
    pre ++ [a, b, c, d].map column ++ (next128 i [a, b, c, d]).map column =
      expandKey 4 (pre ++ [a, b, c, d].map column) 4 := by
  rw [List.map_cons, List.map_cons, List.map_cons, List.map_cons, List.map_nil,
    expandKey_four hpre]
  simp only [next128, List.getD_cons_zero, List.getD_cons_succ, List.map_cons,
    List.map_nil, column_xor, column_subRot, column_rcon i hi,
    xorWord_right_comm]

/-- A round of `case 14`. -/
theorem column_next256 {i : Nat} (hi : i < 7) {pre : List Column}
    (hpre : pre.length = 8 * i) (a b c d e f g h : Word) :
    pre ++ [a, b, c, d, e, f, g, h].map column ++
        (next256 i [a, b, c, d, e, f, g, h]).map column =
      expandKey 8 (pre ++ [a, b, c, d, e, f, g, h].map column) 8 := by
  simp only [List.map_cons, List.map_nil]
  rw [expandKey_eight hpre]
  simp only [next256, List.getD_cons_zero, List.getD_cons_succ, List.map_cons,
    List.map_nil, column_xor, column_subRot, column_subAll,
    column_rcon i (by omega), xorWord_right_comm]

/-- What one round of an expansion has to do. -/
def Stretches (nk rounds : Nat) (next : Nat → List Word → List Word) : Prop :=
  ∀ i < rounds, ∀ pre : List Column, pre.length = nk * i →
    ∀ w : List Word, w.length = nk →
      pre ++ w.map column ++ (next i w).map column =
        expandKey nk (pre ++ w.map column) nk

theorem stretches_next128 : Stretches 4 10 next128 := by
  rintro i hi pre hpre w hw
  match w, hw with
  | [a, b, c, d], _ => exact column_next128 hi hpre a b c d

theorem stretches_next256 : Stretches 8 7 next256 := by
  rintro i hi pre hpre w hw
  match w, hw with
  | [a, b, c, d, e, f, g, h], _ => exact column_next256 hi hpre a b c d e f g h

theorem column_expandRounds {nk rounds : Nat}
    {next : Nat → List Word → List Word} (h : Stretches nk rounds next)
    {words : List Word} (hwords : words.length = nk) {n : Nat}
    (hn : n ≤ rounds) : (expandRounds next nk n words).map column =
      expandKey nk (words.map column) (nk * n) := by
  induction n with
  | zero => rfl
  | succ n ih =>
      have hprev := ih (by omega)
      rw [expandRounds]
      -- what is there is the words before the last stretch, and that stretch
      generalize expandRounds next nk n words = rk at hprev ⊢
      have hlen : rk.length = nk + nk * n := by
        have hmap := congrArg List.length hprev
        rwa [List.length_map, expandKey_length, List.length_map, hwords] at hmap
      have hsplit : (rk.take (nk * n)).map column ++
          (rk.drop (nk * n)).map column = rk.map column := by
        rw [← List.map_append, List.take_append_drop]
      have hstage := h n (by omega) ((rk.take (nk * n)).map column)
        (by rw [List.length_map, List.length_take, hlen]; omega)
        (rk.drop (nk * n)) (by rw [List.length_drop, hlen]; omega)
      rw [hsplit, hprev, ← expandKey_add] at hstage
      rw [List.map_append, hprev, Nat.mul_succ]
      exact hstage

/-- The words `mbedtls_aes_setkey_enc` begins with. -/
theorem column_keyWords (key : Bytes) (nk : Nat) :
    ((List.range nk).map fun i => getUint32Le key (4 * i)).map column =
      keyWords nk key := by
  rw [List.map_map]
  exact List.map_congr_left fun i _ => column_getUint32Le key (4 * i)

/-- A context that has the schedule of a key, and perhaps words behind it. -/
structure Schedules (nk : Nat) (key : Bytes) (ctx : AesContext) : Prop where
  nr : ctx.nr = rounds nk
  rk : schedule nk (keyWords nk key) <+: ctx.rk.map column

theorem aesSetkeyEnc_schedules {key : Bytes} {keybits : Nat} {ctx : AesContext}
    (h : aesSetkeyEnc key keybits = some ctx) :
    (keybits = 128 ∨ keybits = 256) ∧ Schedules (keybits / 32) key ctx := by
  rw [aesSetkeyEnc] at h
  split at h
  · rename_i hbits
    subst hbits
    cases h
    refine ⟨.inl rfl, rfl, ?_⟩
    rw [column_expandRounds stretches_next128 (by simp) (Nat.le_refl 10),
      column_keyWords]
    exact List.prefix_refl _
  · split at h
    · rename_i hbits
      subst hbits
      cases h
      refine ⟨.inr rfl, rfl, ?_⟩
      rw [column_expandRounds stretches_next256 (by simp) (Nat.le_refl 7),
        column_keyWords]
      -- four words more than the rounds need
      show schedule 8 (keyWords 8 key) <+: expandKey 8 (keyWords 8 key) (52 + 4)
      rw [expandKey_add]
      exact expandKey_prefix 8 _ 4
    · cases h

/-! ## The round keys -/

theorem quad_state (rk : List Word) (i : Nat) :
    (quad (rk.drop (4 * i))).state = roundKey (rk.map column) i := by
  have hword : ∀ j, column ((rk.drop (4 * i)).getD j 0) =
      (rk.map column).getD (4 * i + j) zeroWord := by
    intro j
    rw [List.getD_eq_getElem?_getD, List.getElem?_drop,
      List.getD_eq_getElem?_getD, List.getElem?_map]
    cases rk[4 * i + j]? <;> rfl
  simp only [quad, Quad.state, hword, roundKey, Nat.add_zero]

theorem roundKey_prefix {ws ws' : List Column} (h : ws <+: ws') {i : Nat}
    (hi : 4 * i + 4 ≤ ws.length) : roundKey ws' i = roundKey ws i := by
  obtain ⟨rest, rfl⟩ := h
  have hword : ∀ j < ws.length,
      (ws ++ rest).getD j zeroWord = ws.getD j zeroWord := by
    intro j hj
    rw [List.getD_eq_getElem?_getD, List.getElem?_append_left hj,
      List.getD_eq_getElem?_getD]
  simp (disch := omega) only [roundKey, hword]

/-- The keys of the rounds in the middle. -/
theorem Schedules.middle {nk : Nat} {key : Bytes} {ctx : AesContext}
    (h : Schedules nk key ctx) (hlen : 4 * (rounds nk + 1) ≤
      (schedule nk (keyWords nk key)).length) :
    roundKeys (ctx.rk.drop 4) (ctx.nr - 1) =
      middleKeys nk (schedule nk (keyWords nk key)) := by
  rw [roundKeys, middleKeys, h.nr]
  refine List.map_congr_left fun i hi => ?_
  have hlt := List.mem_range.mp hi
  rw [List.drop_drop, show 4 + 4 * i = 4 * (i + 1) by omega, quad_state]
  exact roundKey_prefix h.rk (by omega)

/-! ## The cipher -/

theorem internalAesEncrypt_layers (n : Nat) (rk : List Word) (input : Bytes) :
    internalAesEncrypt ⟨2 * (n + 1), rk⟩ input =
      (aesLayers.encrypt (quad rk).state (roundKeys (rk.drop 4) (2 * n + 1))
        (quad (rk.drop (8 * (n + 1)))).state (ofBytes input)).bytes :=
  @internalAes_eq _ _ _ (fun s k => aesLayers.add (aesLayers.confuse s) k)
    state_aesFround state_lastFround n rk input

theorem internalAesDecrypt_layers (n : Nat) (rk : List Word) (input : Bytes) :
    internalAesDecrypt ⟨2 * (n + 1), rk⟩ input =
      (aesLayers.decrypt (quad rk).state (roundKeys (rk.drop 4) (2 * n + 1))
        (quad (rk.drop (8 * (n + 1)))).state (ofBytes input)).bytes :=
  @internalAes_eq _ _ _ (fun s k => aesLayers.add (aesLayers.unconfuse s) k)
    state_aesRround state_lastRround n rk input

/-- A context from a key, in the form the rounds are stated for. -/
theorem aesSetkeyEnc_rounds {key : Bytes} {keybits : Nat} {ctx : AesContext}
    (h : aesSetkeyEnc key keybits = some ctx) : ∃ n, ctx.nr = 2 * (n + 1) ∧
      4 * (ctx.nr + 1) ≤ (schedule (keybits / 32)
        (keyWords (keybits / 32) key)).length := by
  obtain ⟨hbits, hctx⟩ := aesSetkeyEnc_schedules h
  have hlen : (schedule (keybits / 32) (keyWords (keybits / 32) key)).length =
      keybits / 32 + (4 * (rounds (keybits / 32) + 1) - keybits / 32) := by
    rw [schedule, expandKey_length, keyWords, List.length_map,
      List.length_range]
  rw [hctx.nr, hlen]
  rcases hbits with rfl | rfl
  · exact ⟨4, rfl, by decide⟩
  · exact ⟨6, rfl, by decide⟩

/-- With a key of either length the source encrypts a block as the standard
does. -/
theorem internalAesEncrypt_cipher {key : Bytes} {keybits : Nat}
    {ctx : AesContext} (h : aesSetkeyEnc key keybits = some ctx)
    (input : Bytes) : internalAesEncrypt ctx input =
      (cipher (keybits / 32) (keyWords (keybits / 32) key)
        (ofBytes input)).bytes := by
  obtain ⟨n, hnr, hlen⟩ := aesSetkeyEnc_rounds h
  obtain ⟨-, hctx⟩ := aesSetkeyEnc_schedules h
  have hnk := hctx.nr
  have hmiddle := hctx.middle (hnk ▸ hlen)
  have hfirst := roundKey_prefix hctx.rk (i := 0) (by omega)
  have hlast := roundKey_prefix hctx.rk (i := ctx.nr) (by omega)
  rw [← quad_state] at hfirst hlast
  obtain ⟨nr, rk⟩ := ctx
  subst hnr
  rw [internalAesEncrypt_layers, show 2 * n + 1 = 2 * (n + 1) - 1 by omega,
    hmiddle, show 8 * (n + 1) = 4 * (2 * (n + 1)) by omega, hlast]
  rw [Nat.mul_zero, List.drop_zero] at hfirst
  rw [hfirst, hnk]
  rfl

/-! ## The schedule for decryption -/

theorem inverseMix_table :
    TableOf (fun i => aesRt0 (fsbAt i).toNat) invMixRow id where
  entry b := by
    have hindex : (fsbAt b.toNat).toNat = (sbox b).toNat := by
      rw [fsbAt, fsb_sbox, BitVec.toNat_setWidth]
      exact Nat.mod_eq_of_lt (Nat.lt_trans (sbox b).isLt (by decide))
    rw [hindex, rt0_table.entry, invSbox_sbox]
    rfl

theorem column_inverseMixWord (w : Word) :
    column (inverseMixWord w) = mulMatrix invMixRow (column w) :=
  inverseMix_table.column_four w w w w

theorem quad_append {l : List Word} (hl : l.length = 4) (rest : List Word) :
    quad (l ++ rest) = quad l := by
  match l, hl with
  | [_, _, _, _], _ => rfl

theorem quad_take (rk : List Word) : quad (rk.take 4) = quad rk := by
  match rk with
  | [] => rfl
  | [_] => rfl
  | [_, _] => rfl
  | [_, _, _] => rfl
  | _ :: _ :: _ :: _ :: _ => rfl

theorem quad_map_inverseMixWord {l : List Word} (hl : l.length = 4) :
    (quad (l.map inverseMixWord)).state = invMixColumns (quad l).state := by
  match l, hl with
  | [a, b, c, d], _ =>
      simp only [quad, Quad.state, List.map_cons, List.map_nil,
        List.getD_cons_zero, List.getD_cons_succ, column_inverseMixWord]
      rfl

/-- The middle of the schedule for decryption is the middle of the other one
from behind, with the columns mixed. -/
theorem roundKeys_inverseKeys (sk rest : List Word) (n : Nat)
    (hlen : 4 * (n + 1) ≤ sk.length) :
    roundKeys (inverseKeys sk n ++ rest) n =
        aesLayers.turned (roundKeys (sk.drop 4) n) ∧
      (inverseKeys sk n ++ rest).drop (4 * n) = rest := by
  induction n with
  | zero => exact ⟨rfl, rfl⟩
  | succ n ih =>
      obtain ⟨hkeys, hrest⟩ := ih (by omega)
      have htake : ((sk.drop (4 * (n + 1))).take 4).length = 4 := by
        rw [List.length_take, List.length_drop]
        omega
      have hmap : (((sk.drop (4 * (n + 1))).take 4).map inverseMixWord).length =
          4 := by rw [List.length_map, htake]
      have hdrop := @List.drop_left' _ _ (inverseKeys sk n ++ rest) _ hmap
      rw [inverseKeys, List.append_assoc]
      constructor
      · rw [roundKeys_succ, hdrop, hkeys, quad_append hmap,
          quad_map_inverseMixWord htake, quad_take, roundKeys_concat,
          List.drop_drop, show 4 + 4 * n = 4 * (n + 1) by omega,
          Rounds.Layers.turned, Rounds.Layers.turned, List.reverse_append]
        rfl
      · have hfour : ∀ l : List Word,
            l.drop (4 * (n + 1)) = (l.drop 4).drop (4 * n) := by
          intro l
          rw [List.drop_drop, Nat.mul_succ, Nat.add_comm]
        exact (hfour _).trans (by rw [hdrop, hrest])

/-- What `mbedtls_aes_setkey_dec` makes of a schedule. -/
theorem internalAesDecrypt_turned (n : Nat) {rk : List Word}
    (hlen : 8 * (n + 1) + 4 ≤ rk.length) (input : Bytes) :
    internalAesDecrypt ⟨2 * (n + 1), (rk.drop (8 * (n + 1))).take 4 ++
        inverseKeys rk (2 * n + 1) ++ rk.take 4⟩ input =
      (aesLayers.decrypt (quad (rk.drop (8 * (n + 1)))).state
        (aesLayers.turned (roundKeys (rk.drop 4) (2 * n + 1))) (quad rk).state
        (ofBytes input)).bytes := by
  have htake : ((rk.drop (8 * (n + 1))).take 4).length = 4 := by
    rw [List.length_take, List.length_drop]
    omega
  obtain ⟨hkeys, hrest⟩ := roundKeys_inverseKeys rk (rk.take 4) (2 * n + 1)
    (by omega)
  have hlast : ((rk.drop (8 * (n + 1))).take 4 ++ (inverseKeys rk (2 * n + 1) ++
      rk.take 4)).drop (8 * (n + 1)) = rk.take 4 := by
    have hfour : ∀ l : List Word,
        l.drop (8 * (n + 1)) = (l.drop 4).drop (4 * (2 * n + 1)) := by
      intro l
      rw [List.drop_drop]
      congr 1
      omega
    exact (hfour _).trans (by rw [List.drop_left' htake, hrest])
  rw [internalAesDecrypt_layers, List.append_assoc, quad_append htake,
    quad_take, List.drop_left' htake, hkeys, hlast, quad_take]

/-! ## There and back -/

theorem aesSetkeyDec_eq {key : Bytes} {keybits : Nat} {enc dec : AesContext}
    (henc : aesSetkeyEnc key keybits = some enc)
    (hdec : aesSetkeyDec key keybits = some dec) :
    dec = ⟨enc.nr, (enc.rk.drop (4 * enc.nr)).take 4 ++
      inverseKeys enc.rk (enc.nr - 1) ++ enc.rk.take 4⟩ := by
  rw [aesSetkeyDec, henc] at hdec
  exact (Option.some.inj hdec).symm

/-- The two directions of one key are each other's inverses, on every block. -/
theorem internalAes_inverse {key : Bytes} {keybits : Nat}
    {enc dec : AesContext} (henc : aesSetkeyEnc key keybits = some enc)
    (hdec : aesSetkeyDec key keybits = some dec) {input : Bytes}
    (hlen : input.length = 16) :
    internalAesDecrypt dec (internalAesEncrypt enc input) = input ∧
      internalAesEncrypt enc (internalAesDecrypt dec input) = input := by
  obtain ⟨n, hnr, hwords⟩ := aesSetkeyEnc_rounds henc
  obtain ⟨-, hctx⟩ := aesSetkeyEnc_schedules henc
  have hrk : 8 * (n + 1) + 4 ≤ enc.rk.length := by
    have hprefix := hctx.rk.length_le
    rw [List.length_map] at hprefix
    omega
  rw [aesSetkeyDec_eq henc hdec]
  obtain ⟨nr, rk⟩ := enc
  subst hnr
  rw [show 4 * (2 * (n + 1)) = 8 * (n + 1) by omega,
    show 2 * (n + 1) - 1 = 2 * n + 1 by omega]
  simp only [internalAesDecrypt_turned n hrk, internalAesEncrypt_layers,
    ofBytes_bytes]
  rw [Rounds.Layers.decrypt_encrypt, Rounds.Layers.encrypt_decrypt,
    bytes_ofBytes hlen]
  exact ⟨rfl, rfl⟩

end Mbedtls
end Nxpsc
