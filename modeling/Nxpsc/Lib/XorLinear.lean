import Mathlib.Data.BitVec

/-!
# Maps on words that carry exclusive or over

Permutations, expansions, shifts, masks and multiplications by a constant of a
binary field are all maps of this kind, and so is whatever is composed of
them. Such a map is what it does to the words of one bit. Two of them are
compared, or one is shown to be the identity, by evaluating them there: as many
evaluations as the word has bits, instead of one for every word.

An `or` of two such maps is one only where they have no bit in common.
`Masked` keeps a mask of the bits a map may set, so that this is a question
about the two masks.
-/

variable {l m n k : Nat}

def XorLinear (f : BitVec m → BitVec n) : Prop :=
  ∀ x y, f (x ^^^ y) = f x ^^^ f y

/-- A map of this kind that sets no bit outside the mask. -/
structure XorLinear.Masked (mask : BitVec n) (f : BitVec m → BitVec n) :
    Prop where
  linear : XorLinear f
  within : ∀ x, f x &&& mask = f x

namespace XorLinear

/-! ## What they do to words of one bit -/

theorem zero {f : BitVec m → BitVec n} (hf : XorLinear f) : f 0#m = 0#n := by
  have h := hf 0#m 0#m
  rw [BitVec.xor_self, BitVec.xor_self] at h
  exact h

/-- A word without one of its bits, and that bit. -/
theorem split_bit (x : BitVec m) {i : Nat} (hi : i < m)
    (hbit : x.getLsbD i = true) :
    ∃ y, x = y ^^^ BitVec.twoPow m i ∧ y.getLsbD i = false ∧
      ∀ j, x.getLsbD j = false → y.getLsbD j = false := by
  refine ⟨x ^^^ BitVec.twoPow m i, ?_, ?_, ?_⟩
  · rw [BitVec.xor_assoc, BitVec.xor_self, BitVec.xor_zero]
  · rw [BitVec.getLsbD_xor, hbit, BitVec.getLsbD_twoPow]
    simp [hi]
  · intro j hj
    have hij : i ≠ j := by
      rintro rfl
      rw [hbit] at hj
      cases hj
    rw [BitVec.getLsbD_xor, hj, BitVec.getLsbD_twoPow]
    simp [hij]

/-- Maps that agree on the words of one bit agree. -/
theorem agree {f g : BitVec m → BitVec n} (hf : XorLinear f)
    (hg : XorLinear g)
    (h : ∀ i < m, f (BitVec.twoPow m i) = g (BitVec.twoPow m i))
    (x : BitVec m) : f x = g x := by
  -- by the number of low bits that may be set
  have hlow : ∀ k ≤ m, ∀ x : BitVec m,
      (∀ i, k ≤ i → x.getLsbD i = false) → f x = g x := by
    intro k
    induction k with
    | zero =>
        intro _ x hx
        have hzero : x = 0#m := BitVec.eq_of_getLsbD_eq fun i _ => by
          rw [hx i (Nat.zero_le i)]
          simp
        rw [hzero, hf.zero, hg.zero]
    | succ k ih =>
        intro hk x hx
        by_cases hbit : x.getLsbD k = true
        · obtain ⟨y, rfl, hy, hrest⟩ := split_bit x hk hbit
          rw [hf, hg, h k hk, ih (by omega) y]
          intro i hi
          rcases Nat.eq_or_lt_of_le hi with rfl | hlt
          · exact hy
          · exact hrest i (hx i hlt)
        · refine ih (by omega) x fun i hi => ?_
          rcases Nat.eq_or_lt_of_le hi with rfl | hlt
          · exact Bool.eq_false_of_not_eq_true hbit
          · exact hx i hlt
  exact hlow m (Nat.le_refl m) x fun i hi => BitVec.getLsbD_of_ge x i hi

/-! ## How they are composed -/

theorem id : XorLinear (fun x : BitVec m => x) := fun _ _ => rfl

theorem const_zero : XorLinear (fun _ : BitVec m => 0#n) :=
  fun _ _ => BitVec.xor_self.symm

theorem comp {g : BitVec m → BitVec n} {f : BitVec l → BitVec m}
    (hg : XorLinear g) (hf : XorLinear f) : XorLinear fun x => g (f x) := by
  intro x y
  show g (f (x ^^^ y)) = g (f x) ^^^ g (f y)
  rw [hf, hg]

theorem xor {f g : BitVec m → BitVec n} (hf : XorLinear f)
    (hg : XorLinear g) : XorLinear fun x => f x ^^^ g x := by
  intro x y
  simp only [hf x y, hg x y]
  ac_rfl

theorem and {f : BitVec m → BitVec n} (hf : XorLinear f) (mask : BitVec n) :
    XorLinear fun x => f x &&& mask := by
  intro x y
  simp only [hf x y]
  refine BitVec.eq_of_getLsbD_eq fun i _ => ?_
  simp only [BitVec.getLsbD_and, BitVec.getLsbD_xor]
  exact Bool.and_xor_distrib_right _ _ _

theorem shiftLeft {f : BitVec m → BitVec n} (hf : XorLinear f) (s : Nat) :
    XorLinear fun x => f x <<< s := by
  intro x y
  simp only [hf x y, BitVec.shiftLeft_xor_distrib]

theorem ushiftRight {f : BitVec m → BitVec n} (hf : XorLinear f) (s : Nat) :
    XorLinear fun x => f x >>> s := by
  intro x y
  simp only [hf x y, BitVec.ushiftRight_xor_distrib]

theorem extract {f : BitVec m → BitVec n} (hf : XorLinear f)
    (start len : Nat) : XorLinear fun x => (f x).extractLsb' start len := by
  intro x y
  simp only [hf x y]
  refine BitVec.eq_of_getLsbD_eq fun i hi => ?_
  simp [hi]

theorem setWidth {f : BitVec m → BitVec n} (hf : XorLinear f) (w : Nat) :
    XorLinear fun x => (f x).setWidth w := by
  intro x y
  simp only [hf x y]
  refine BitVec.eq_of_getLsbD_eq fun i hi => ?_
  simp [hi]

theorem append {f : BitVec l → BitVec m} {g : BitVec l → BitVec n}
    (hf : XorLinear f) (hg : XorLinear g) :
    XorLinear fun x => f x ++ g x := by
  intro x y
  simp only [hf x y, hg x y]
  refine BitVec.eq_of_getLsbD_eq fun i hi => ?_
  simp only [BitVec.getLsbD_append, BitVec.getLsbD_xor]
  split <;> rfl

/-! ## Bits nobody else sets -/

namespace Masked

variable {f g : BitVec m → BitVec n} {mask mask' : BitVec n}

theorem of_and (hf : XorLinear f) (mask : BitVec n) :
    Masked mask fun x => f x &&& mask :=
  ⟨hf.and mask, fun x => by rw [BitVec.and_assoc, BitVec.and_self]⟩

theorem shiftLeft (hf : Masked mask f) (s : Nat) :
    Masked (mask <<< s) fun x => f x <<< s :=
  ⟨hf.linear.shiftLeft s, fun x => by
    rw [← BitVec.shiftLeft_and_distrib, hf.within]⟩

/-- Two maps that have no bit in common. -/
theorem or (hf : Masked mask f) (hg : Masked mask' g)
    (hdisj : mask &&& mask' = 0#n) : Masked (mask ||| mask') fun x =>
      f x ||| g x := by
  have hzero : ∀ x, f x &&& g x = 0#n := by
    intro x
    rw [← hf.within, ← hg.within]
    calc f x &&& mask &&& (g x &&& mask')
        = f x &&& g x &&& (mask &&& mask') := by ac_rfl
      _ = 0#n := by rw [hdisj, BitVec.and_zero]
  have heq : (fun x => f x ||| g x) = fun x => f x ^^^ g x := by
    funext x
    refine BitVec.eq_of_getLsbD_eq fun i _ => ?_
    have hbit := congrArg (BitVec.getLsbD · i) (hzero x)
    simp only [BitVec.getLsbD_and, BitVec.getLsbD_zero] at hbit
    rw [BitVec.getLsbD_or, BitVec.getLsbD_xor]
    revert hbit
    cases (f x).getLsbD i <;> cases (g x).getLsbD i <;> simp
  refine ⟨heq ▸ hf.linear.xor hg.linear, fun x => ?_⟩
  refine BitVec.eq_of_getLsbD_eq fun i _ => ?_
  have h₁ := congrArg (BitVec.getLsbD · i) (hf.within x)
  have h₂ := congrArg (BitVec.getLsbD · i) (hg.within x)
  simp only [BitVec.getLsbD_and] at h₁ h₂
  simp only [BitVec.getLsbD_and, BitVec.getLsbD_or]
  revert h₁ h₂
  cases (f x).getLsbD i <;> cases (g x).getLsbD i <;>
    cases mask.getLsbD i <;> cases mask'.getLsbD i <;> simp

/-- Any number of maps that have no bit in common, one `or` after the
other. -/
theorem foldl_or {α : Type} {value : α → BitVec m → BitVec n}
    {mask : α → BitVec n} {terms : List α}
    (h : ∀ t ∈ terms, Masked (mask t) (value t))
    (hdisj : terms.Pairwise fun s t => mask s &&& mask t = 0#n) :
    XorLinear fun x => terms.foldl (fun acc t => acc ||| value t x) 0#n := by
  -- what is collected so far keeps to a mask that the rest does not meet
  have hfold : ∀ (acc : BitVec m → BitVec n) (collected : BitVec n),
      Masked collected acc → (∀ t ∈ terms, collected &&& mask t = 0#n) →
      XorLinear fun x => terms.foldl (fun acc t => acc ||| value t x) (acc x) := by
    induction terms with
    | nil => exact fun acc collected hacc _ => hacc.linear
    | cons t rest ih =>
        intro acc collected hacc hmeet
        obtain ⟨hhead, hrest⟩ := List.pairwise_cons.mp hdisj
        refine ih (fun s hs => h s (.tail _ hs)) hrest
          (fun x => acc x ||| value t x) (collected ||| mask t)
          (hacc.or (h t (.head _)) (hmeet t (.head _))) fun s hs => ?_
        have hor : (collected ||| mask t) &&& mask s =
            (collected &&& mask s) ||| (mask t &&& mask s) := by
          refine BitVec.eq_of_getLsbD_eq fun i _ => ?_
          simp only [BitVec.getLsbD_and, BitVec.getLsbD_or]
          exact Bool.and_or_distrib_right _ _ _
        rw [hor, hmeet s (.tail _ hs), hhead s hs, BitVec.or_zero]
  exact hfold (fun _ => 0#n) 0#n ⟨.const_zero, fun _ => BitVec.zero_and⟩
    fun _ _ => BitVec.zero_and

end Masked
end XorLinear
