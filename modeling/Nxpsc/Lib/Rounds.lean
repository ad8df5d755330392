import Mathlib.Data.List.Basic

/-!
# Block ciphers made of rounds

Two constructions, over any type of state and for any number of rounds.

A *key alternating* cipher adds a key, confuses and diffuses, round after
round; the last round does not diffuse. Its inverse can be computed in rounds
of the same shape, with the keys in the other order and those in the middle
diffused the other way first. That works because diffusion carries the
addition of a key.

A *Feistel* network mixes one half into the other by a function that need not
be invertible, and swaps. It is undone by itself, on the swapped result and
with the keys in the other order.
-/

namespace Rounds

/-! ## Key alternating ciphers -/

/-- What a round is made of, and that each part can be undone. -/
structure Layers (S : Type) where
  add : S → S → S
  confuse : S → S
  unconfuse : S → S
  diffuse : S → S
  undiffuse : S → S
  add_add : ∀ s k, add (add s k) k = s
  unconfuse_confuse : ∀ s, unconfuse (confuse s) = s
  confuse_unconfuse : ∀ s, confuse (unconfuse s) = s
  undiffuse_diffuse : ∀ s, undiffuse (diffuse s) = s
  diffuse_undiffuse : ∀ s, diffuse (undiffuse s) = s
  undiffuse_add : ∀ s k, undiffuse (add s k) = add (undiffuse s) (undiffuse k)

namespace Layers

variable {S : Type} (L : Layers S)

/-- One round in the middle. -/
def round (s k : S) : S := L.add (L.diffuse (L.confuse s)) k

/-- The key to begin with, the keys in the middle, the last key. -/
def encrypt (first : S) (keys : List S) (last : S) (s : S) : S :=
  L.add (L.confuse (keys.foldl L.round (L.add s first))) last

/-- A round of the inverse, of the same shape. -/
def unround (s k : S) : S := L.add (L.undiffuse (L.unconfuse s)) k

/-- The inverse, on a schedule of its own. -/
def decrypt (first : S) (keys : List S) (last : S) (s : S) : S :=
  L.add (L.unconfuse (keys.foldl L.unround (L.add s first))) last

/-- The keys in the middle, for the inverse. -/
def turned (keys : List S) : List S := keys.reverse.map L.undiffuse

/-- One round taken back: what a round was given is what the inverse has
before it adds the key. -/
theorem unround_round (s k : S) :
    L.unround (L.confuse (L.round s k)) (L.undiffuse k) = L.confuse s := by
  rw [unround, unconfuse_confuse, round, ← undiffuse_add, add_add,
    undiffuse_diffuse]

theorem foldl_turned (keys : List S) (s : S) :
    (L.turned keys).foldl L.unround (L.confuse (keys.foldl L.round s)) =
      L.confuse s := by
  induction keys generalizing s with
  | nil => rfl
  | cons k rest ih =>
      rw [turned, List.reverse_cons, List.map_append, List.foldl_append,
        List.foldl_cons]
      rw [turned] at ih
      rw [ih]
      exact L.unround_round s k

theorem decrypt_encrypt (first : S) (keys : List S) (last s : S) :
    L.decrypt last (L.turned keys) first (L.encrypt first keys last s) =
      s := by
  rw [decrypt, encrypt, add_add, foldl_turned, unconfuse_confuse, add_add]

/-- The layers of the inverse. -/
def inverse : Layers S where
  add := L.add
  confuse := L.unconfuse
  unconfuse := L.confuse
  diffuse := L.undiffuse
  undiffuse := L.diffuse
  add_add := L.add_add
  unconfuse_confuse := L.confuse_unconfuse
  confuse_unconfuse := L.unconfuse_confuse
  undiffuse_diffuse := L.diffuse_undiffuse
  diffuse_undiffuse := L.undiffuse_diffuse
  undiffuse_add s k := by
    have h := L.undiffuse_add (L.diffuse s) (L.diffuse k)
    rw [L.undiffuse_diffuse, L.undiffuse_diffuse] at h
    rw [← h, L.diffuse_undiffuse]

theorem inverse_turned (keys : List S) :
    L.inverse.turned (L.turned keys) = keys := by
  rw [turned, turned, ← List.map_reverse, List.reverse_reverse, List.map_map]
  refine (List.map_congr_left fun k _ => ?_).trans (List.map_id keys)
  exact L.diffuse_undiffuse k

theorem encrypt_decrypt (first : S) (keys : List S) (last s : S) :
    L.encrypt first keys last (L.decrypt last (L.turned keys) first s) = s := by
  have h := L.inverse.decrypt_encrypt last (L.turned keys) first s
  rw [inverse_turned] at h
  exact h

end Layers

/-! ## Feistel networks -/

section

variable {K H : Type} (add : H → H → H) (f : K → H → H)

/-- One round: the right half moves to the left, and what it makes of the key
is added to the left one. -/
def feistelRound (s : H × H) (k : K) : H × H := (s.2, add s.1 (f k s.2))

def feistel (keys : List K) (s : H × H) : H × H :=
  keys.foldl (feistelRound add f) s

theorem feistel_append (keys keys' : List K) (s : H × H) :
    feistel add f (keys ++ keys') s =
      feistel add f keys' (feistel add f keys s) :=
  List.foldl_append

variable {add}

/-- A network takes itself back. -/
theorem feistel_reverse (hadd : ∀ x y, add (add x y) y = x) (keys : List K)
    (s : H × H) :
    feistel add f keys.reverse (feistel add f keys s).swap = s.swap := by
  induction keys generalizing s with
  | nil => rfl
  | cons k rest ih =>
      rw [List.reverse_cons, feistel_append]
      have hrest : feistel add f (k :: rest) s =
          feistel add f rest (feistelRound add f s k) := rfl
      rw [hrest, ih]
      show feistelRound add f (add s.1 (f k s.2), s.2) k = (s.2, s.1)
      rw [feistelRound, hadd]

end

/-- A network seen through a map that carries addition over. -/
theorem feistel_map {K K' H H' : Type} {add : H → H → H}
    {add' : H' → H' → H'} {f : K → H → H} {f' : K' → H' → H'}
    {key : K → K'} {half : H → H'}
    (hadd : ∀ x y, half (add x y) = add' (half x) (half y))
    (hf : ∀ k x, f' (key k) (half x) = half (f k x)) (keys : List K)
    (s : H × H) : feistel add' f' (keys.map key) (s.map half half) =
      (feistel add f keys s).map half half := by
  induction keys generalizing s with
  | nil => rfl
  | cons k rest ih =>
      have hround : feistelRound add' f' (s.map half half) (key k) =
          (feistelRound add f s k).map half half := by
        refine Prod.ext rfl ?_
        show add' (half s.1) (f' (key k) (half s.2)) = half (add s.1 (f k s.2))
        rw [hf, hadd]
      have hrest := ih (feistelRound add f s k)
      rwa [← hround] at hrest

end Rounds
