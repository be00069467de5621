import Mathlib.Data.Finset.Card
import Mathlib.Tactic

/-! # Bits in an array of words

    A set of positions kept as an array of words, and as the bits of one number.

    * `bitOf_orBit` — setting a bit adds its position and no other;
    * `firstFrom_eq_some`, `firstFrom_eq_none` — a scan for the next position that
      satisfies a test;
    * `bitCount_bounds` — a number whose bits are the values of a function on `n`
      arguments has at most `n` bits, and at least one. -/

namespace WordBits

/-! ## Arrays of words -/

section Words

variable {w : Nat}

/-- Bit `j` of the array, the least significant bit of each word first. -/
def bitOf (words : List (BitVec w)) (j : Nat) : Bool :=
  (words.getD (j / w) 0).getLsbD (j % w)

def orBit (words : List (BitVec w)) (j : Nat) : List (BitVec w) :=
  words.modify (j / w) (· ||| 1#w <<< (j % w))

@[simp] theorem length_orBit (words : List (BitVec w)) (j : Nat) :
    (orBit words j).length = words.length := List.length_modify ..

/-- A word with one bit, bit by bit. -/
theorem getLsbD_one_shiftLeft (hw : 0 < w) {i : Nat} (hi : i < w) (j : Nat) :
    (1#w <<< i).getLsbD j = decide (j = i) := by
  rw [BitVec.getLsbD_shiftLeft, BitVec.getLsbD_one]
  by_cases hj : j = i
  · subst hj
    simp [hw, hi]
  · by_cases hlt : j < i
    · simp [hlt, hj]
    · have hne : ¬ j - i = 0 := by omega
      simp [hne, hj]

/-- **SETTING A BIT** adds its position. -/
theorem bitOf_orBit (hw : 0 < w) {words : List (BitVec w)} {i : Nat}
    (hi : i / w < words.length) (j : Nat) :
    bitOf (orBit words i) j = (bitOf words j || decide (j = i)) := by
  rw [bitOf, orBit, bitOf, List.getD_eq_getElem?_getD, List.getD_eq_getElem?_getD,
    List.getElem?_modify]
  by_cases hword : i / w = j / w
  · have hj : j / w < words.length := hword ▸ hi
    have hmod : decide (j % w = i % w) = decide (j = i) := by
      refine decide_eq_decide.mpr ⟨fun h => ?_, fun h => by rw [h]⟩
      rw [← Nat.div_add_mod j w, ← Nat.div_add_mod i w, h, hword]
    rw [List.getElem?_eq_getElem hj]
    simp only [hword, if_true, Option.map_eq_map, Option.map_some, Option.getD_some]
    rw [BitVec.getLsbD_or, getLsbD_one_shiftLeft hw (Nat.mod_lt i hw), hmod]
  · have hne : j ≠ i := fun h => hword (by rw [h])
    simp only [hword, if_false, Option.map_eq_map, Option.map_id']
    rw [decide_eq_false hne, Bool.or_false]

theorem bitOf_replicate (n j : Nat) : bitOf (List.replicate n 0#w) j = false := by
  rw [bitOf, List.getD_eq_getElem?_getD, List.getElem?_replicate]
  split
  · exact BitVec.getLsbD_zero
  · exact BitVec.getLsbD_zero

/-- The test of one bit by a mask. -/
theorem and_one_shiftLeft_ne_zero_iff (x : BitVec w) {i : Nat} (hi : i < w) :
    x &&& 1#w <<< i ≠ 0 ↔ x.getLsbD i = true := by
  have hw : 0 < w := Nat.zero_lt_of_lt hi
  constructor
  · intro h
    by_contra hx
    refine h (BitVec.eq_of_getLsbD_eq fun j hj => ?_)
    rw [BitVec.getLsbD_and, getLsbD_one_shiftLeft hw hi]
    by_cases hji : j = i
    · rw [hji, Bool.eq_false_iff.mpr hx]
      simp
    · simp [hji]
  · intro hx h
    have hbit := congrArg (fun y => y.getLsbD i) h
    rw [BitVec.getLsbD_and, getLsbD_one_shiftLeft hw hi, hx] at hbit
    simp at hbit

end Words

/-! ## The next position -/

/-- The first of the `left` positions from `i` on that passes the test. -/
def firstFrom (p : Nat → Bool) : Nat → Nat → Option Nat
  | 0, _ => none
  | left + 1, i => if p i then some i else firstFrom p left (i + 1)

variable {p : Nat → Bool} {left i j : Nat}

theorem firstFrom_eq_some (h : firstFrom p left i = some j) :
    i ≤ j ∧ j < i + left ∧ p j = true ∧ ∀ k, i ≤ k → k < j → p k = false := by
  induction left generalizing i with
  | zero => cases h
  | succ left ih =>
      rw [firstFrom] at h
      by_cases hp : p i = true
      · rw [if_pos hp] at h
        cases h
        exact ⟨le_refl _, by omega, hp, fun k _ _ => by omega⟩
      · rw [if_neg hp] at h
        obtain ⟨hle, hlt, hj, hmin⟩ := ih h
        refine ⟨by omega, by omega, hj, fun k hk hkj => ?_⟩
        by_cases hki : k = i
        · rw [hki]
          exact Bool.eq_false_iff.mpr hp
        · exact hmin k (by omega) hkj

theorem firstFrom_eq_none (h : firstFrom p left i = none) :
    ∀ k, i ≤ k → k < i + left → p k = false := by
  induction left generalizing i with
  | zero => exact fun k _ _ => by omega
  | succ left ih =>
      intro k hk hlt
      rw [firstFrom] at h
      by_cases hp : p i = true
      · rw [if_pos hp] at h
        cases h
      · rw [if_neg hp] at h
        by_cases hki : k = i
        · rw [hki]
          exact Bool.eq_false_iff.mpr hp
        · exact ih h k (by omega) (by omega)

/-! ## The bits of a number -/

/-- How many bits of a number are set. -/
def bitCount {w : Nat} (v : BitVec w) : Nat :=
  ((Finset.range w).filter fun i => v.getLsbD i = true).card

/-- **COUNTING**: the values of a function on `n` arguments are at most `n` bits. -/
theorem bitCount_bounds {w n : Nat} {v : BitVec w} {f : Nat → Nat} (hn : 0 < n)
    (hv : ∀ i, v.getLsbD i = true ↔ ∃ k < n, f k = i) :
    1 ≤ bitCount v ∧ bitCount v ≤ n := by
  have himage : (Finset.range w).filter (fun i => v.getLsbD i = true)
      = (Finset.range n).image f := by
    ext i
    rw [Finset.mem_filter, Finset.mem_range, Finset.mem_image]
    constructor
    · rintro ⟨-, hi⟩
      obtain ⟨k, hk, hfk⟩ := (hv i).mp hi
      exact ⟨k, Finset.mem_range.mpr hk, hfk⟩
    · rintro ⟨k, hk, hfk⟩
      have hi := (hv i).mpr ⟨k, Finset.mem_range.mp hk, hfk⟩
      exact ⟨BitVec.lt_of_getLsbD hi, hi⟩
  rw [bitCount, himage]
  constructor
  · exact Finset.card_pos.mpr ⟨f 0, Finset.mem_image_of_mem f (Finset.mem_range.mpr hn)⟩
  · exact Finset.card_image_le.trans (Finset.card_range n).le

end WordBits
