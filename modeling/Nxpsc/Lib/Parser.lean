import Mathlib.Data.Nat.Digits.Defs
import Nxpsc.Lib.Bytes

/-!
# Parsers, and what they read back

A parser takes a value off the front of a list of tokens. `Takes p xs a` says
that `xs` is written the way `p` reads: whatever stands behind it, `p` takes
exactly `xs` and finds `a`. Parsers put in sequence read what was written in
sequence, so a layout is read back field by field.

A field without a length of its own runs to the end, and nothing can follow
it; `Whole p xs a` is the reading of a complete list, nothing left over.
-/

/-- A value read off the front, and what is left. -/
abbrev Parser (τ α : Type) := StateT (List τ) Option α

namespace Parser

variable {τ α β : Type}

/-- Reads one token. -/
def item : Parser τ τ
  | [] => none
  | t :: rest => some (t, rest)

/-- Reads the next `n` tokens. -/
def take (n : Nat) : Parser τ (List τ) := fun xs =>
  if xs.length < n then none else some (xs.take n, xs.drop n)

/-- Everything to the end. -/
def rest : Parser τ (List τ) := fun xs => some (xs, [])

/-- A value that has to be there. -/
def expect (a : Option α) : Parser τ α := fun xs => a.map fun a => (a, xs)

/-- A field that is there when it was announced. -/
def announced (b : Bool) (p : Parser τ α) : Parser τ (Option α) :=
  if b then some <$> p else pure none

def Takes (p : Parser τ α) (xs : List τ) (a : α) : Prop :=
  ∀ more, p (xs ++ more) = some (a, more)

def Whole (p : Parser τ α) (xs : List τ) (a : α) : Prop :=
  p xs = some (a, [])

variable {p : Parser τ α} {f : α → Parser τ β} {xs ys : List τ} {a : α} {b : β}

theorem bind_run (p : Parser τ α) (f : α → Parser τ β) (xs : List τ) :
    (p >>= f) xs = (p xs).bind fun q => f q.1 q.2 := rfl

/-! ## In sequence -/

theorem takes_pure (a : α) : Takes (pure a : Parser τ α) [] a := fun _ => rfl

theorem Takes.bind (hp : Takes p xs a) (hf : Takes (f a) ys b) :
    Takes (p >>= f) (xs ++ ys) b := by
  intro more
  rw [bind_run, List.append_assoc, hp, Option.bind_some]
  exact hf more

theorem Takes.bind_whole (hp : Takes p xs a) (hf : Whole (f a) ys b) :
    Whole (p >>= f) (xs ++ ys) b := by
  rw [Whole, bind_run, hp, Option.bind_some]
  exact hf

/-- A step that takes nothing. -/
theorem Takes.bind_nil_whole (hp : Takes p [] a) (hf : Whole (f a) ys b) :
    Whole (p >>= f) ys b := hp.bind_whole hf

theorem Whole.map (g : α → β) (hp : Whole p xs a) :
    Whole (g <$> p) xs (g a) := by
  rw [Whole, map_eq_pure_bind, bind_run, show p xs = _ from hp]
  rfl

/-- What a parser reads is one value. -/
theorem Whole.unique {a' : α} (h : Whole p xs a) (h' : Whole p xs a') :
    a = a' := by
  have heq := Eq.trans (Eq.symm h) h'
  simpa using heq

/-! ## The parts -/

theorem takes_item (t : τ) : Takes item [t] t := fun _ => rfl

theorem takes_take {n : Nat} (h : xs.length = n) : Takes (take n) xs xs := by
  intro more
  rw [take, if_neg (by rw [List.length_append]; omega), List.take_left' h,
    List.drop_left' h]

theorem whole_rest (xs : List τ) : Whole rest xs xs := rfl

theorem takes_expect (a : α) : Takes (expect (some a) : Parser τ α) [] a :=
  fun _ => rfl

theorem takes_announced {q : Bool} (hp : q = true → Takes p xs a) :
    Takes (announced q p) (if q then xs else [])
      (if q then some a else none) := by
  intro more
  cases q with
  | false => rfl
  | true =>
      rw [announced, if_pos rfl, if_pos rfl, if_pos rfl, map_eq_pure_bind,
        bind_run, hp rfl]
      rfl

theorem whole_announced {q : Bool} (hp : q = true → Whole p xs a) :
    Whole (announced q p) (if q then xs else [])
      (if q then some a else none) := by
  cases q with
  | false => rfl
  | true => exact (hp rfl).map some

/-! ## One behind the other -/

/-- Readable pieces that are put one behind the other without a mark between
them come apart in one way. -/
theorem flatten_unique {as bs : List α} {xss yss : List (List τ)}
    (has : List.Forall₂ (fun a xs => Takes p xs a ∧ xs ≠ []) as xss)
    (hbs : List.Forall₂ (fun b ys => Takes p ys b ∧ ys ≠ []) bs yss)
    (h : xss.flatten = yss.flatten) : as = bs := by
  induction has generalizing bs yss with
  | nil =>
      cases hbs with
      | nil => rfl
      | cons hb =>
          rw [List.flatten_nil, List.flatten_cons] at h
          exact absurd (List.append_eq_nil_iff.mp h.symm).1 hb.2
  | cons ha _ ih =>
      cases hbs with
      | nil =>
          rw [List.flatten_nil, List.flatten_cons] at h
          exact absurd (List.append_eq_nil_iff.mp h).1 ha.2
      | cons hb hbs =>
          rw [List.flatten_cons, List.flatten_cons] at h
          -- the first piece is read off both, and leaves both remainders
          have hread := (ha.1 _).symm.trans ((congrArg p h).trans (hb.1 _))
          obtain ⟨hhead, hrest⟩ := Prod.mk.inj (Option.some.inj hread)
          rw [hhead, ih hbs hrest]

/-! ## Numbers, the least significant byte first -/

/-- The number a string of bytes stands for. -/
def value (bs : Bytes) : Nat := Nat.ofDigits 256 (bs.map UInt8.toNat)

/-- A number of so many bytes. -/
def number (n : Nat) : Parser UInt8 Nat := do
  let bs ← take n
  pure (value bs)

theorem takes_number {n : Nat} {bs : Bytes} (h : bs.length = n) :
    Takes (number n) bs (value bs) := by
  have hread := (takes_take h).bind (f := fun bs => pure (value bs))
    (takes_pure (value bs))
  rwa [List.append_nil] at hread

theorem value_cons (b : UInt8) (bs : Bytes) :
    value (b :: bs) = b.toNat + 256 * value bs := by
  rw [value, List.map_cons, Nat.ofDigits_cons]
  rfl

@[simp] theorem value_nil : value [] = 0 := rfl

/-- A number of a fixed width is written in one way. -/
theorem value_injective : ∀ {xs ys : Bytes}, xs.length = ys.length →
    value xs = value ys → xs = ys
  | [], [], _, _ => rfl
  | x :: xs, y :: ys, hlen, h => by
      rw [value_cons, value_cons] at h
      have hx := x.toNat_lt
      have hy := y.toNat_lt
      have hhead : x.toNat = y.toNat := by omega
      rw [UInt8.toNat_inj.mp hhead,
        value_injective (Nat.succ.inj hlen) (show value xs = value ys by omega)]

theorem value_lt (bs : Bytes) : value bs < 256 ^ bs.length := by
  rw [← bs.length_map UInt8.toNat]
  refine Nat.ofDigits_lt_base_pow_length (by decide) fun x hx => ?_
  obtain ⟨b, -, rfl⟩ := List.mem_map.mp hx
  exact b.toNat_lt

end Parser
