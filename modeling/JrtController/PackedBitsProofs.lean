import Mathlib.Tactic

/-! # Bit fields packed into byte strings

    A byte string is read as one big-endian run of bits: bit `0` is the most
    significant bit of byte `0`.  A field is a contiguous run of such bits and
    may straddle bytes, so code that reads or writes one works piecewise, one
    byte at a time.

    * `slice b lo w` — the field of `w` bits at offset `lo`, as a number;
    * `Updates f lo w b b' v` — `b'` is `b` with the field combined bit by bit
      with `v` through `f` (overwriting and OR-ing are the two instances);
    * `Updates.byte` / `Updates.append` — a one-byte piece, and gluing two
      adjacent pieces, which is how a straddling field is assembled;
    * `slice_overwrite`, `Updates.slice_disjoint`, `overwrite_eq_self_iff` —
      the record laws a field accessor must satisfy. -/

namespace PackedBits

variable {n m : Nat}

/-- Bit `k` of a byte string, counted from the most significant bit of byte
    `0`; past the end the string reads as zero. -/
def bitAt (b : Vector (BitVec 8) n) (k : Nat) : Bool :=
  (b[k / 8]?.getD 0#8).getLsbD (7 - k % 8)

/-- Bit `i` of byte `j` (least significant first) as a bit of the string. -/
theorem bitAt_byte (b : Vector (BitVec 8) n) {j i : Nat} (hj : j < n)
    (hi : i < 8) : bitAt b (8 * j + (7 - i)) = b[j].getLsbD i := by
  have hdiv : (8 * j + (7 - i)) / 8 = j := by omega
  have hmod : 7 - (8 * j + (7 - i)) % 8 = i := by omega
  rw [bitAt, hdiv, hmod, Vector.getElem?_eq_getElem hj, Option.getD_some]

/-- Every bit of the string is a bit of one of its bytes. -/
theorem bitAt_eq_byte (b : Vector (BitVec 8) n) {k : Nat} (hj : k / 8 < n) :
    bitAt b k = b[k / 8].getLsbD (7 - k % 8) := by
  rw [bitAt, Vector.getElem?_eq_getElem hj, Option.getD_some]

/-- Byte strings with the same bits are equal. -/
theorem ext_bitAt {a b : Vector (BitVec 8) n}
    (h : ∀ k, k < 8 * n → bitAt a k = bitAt b k) : a = b := by
  apply Vector.ext
  intro j hj
  apply BitVec.eq_of_getLsbD_eq
  intro i hi
  have hk := h (8 * j + (7 - i)) (by omega)
  rw [bitAt_byte a hj hi, bitAt_byte b hj hi] at hk
  exact hk

/-- The field of `w` bits at offset `lo`, most significant bit first. -/
def slice (b : Vector (BitVec 8) n) (lo : Nat) : (w : Nat) → BitVec w
  | 0     => 0#0
  | w + 1 => (slice b lo w).concat (bitAt b (lo + w))

theorem slice_getLsbD (b : Vector (BitVec 8) n) (lo : Nat) {w i : Nat}
    (hi : i < w) : (slice b lo w).getLsbD i = bitAt b (lo + (w - 1 - i)) := by
  induction w generalizing i with
  | zero => exact absurd hi (Nat.not_lt_zero i)
  | succ w ih =>
      rw [slice, BitVec.getLsbD_concat]
      by_cases h0 : i = 0
      · rw [if_pos h0, h0]
        congr 1
      · rw [if_neg h0, ih (by omega)]
        congr 1
        omega

/-- A bit of the string, found inside a field that covers it. -/
theorem bitAt_eq_slice (b : Vector (BitVec 8) n) {lo w k : Nat}
    (hlo : lo ≤ k) (hhi : k < lo + w) :
    bitAt b k = (slice b lo w).getLsbD (lo + w - 1 - k) := by
  rw [slice_getLsbD b lo (by omega)]
  congr 1
  omega

/-- Two fields are equal exactly when their bits are. -/
theorem slice_eq_iff (a b : Vector (BitVec 8) n) (lo w : Nat) :
    slice a lo w = slice b lo w
      ↔ ∀ k, lo ≤ k → k < lo + w → bitAt a k = bitAt b k := by
  constructor
  · intro h k hlo hhi
    rw [bitAt_eq_slice a hlo hhi, bitAt_eq_slice b hlo hhi, h]
  · intro h
    apply BitVec.eq_of_getLsbD_eq
    intro i hi
    rw [slice_getLsbD a lo hi, slice_getLsbD b lo hi]
    exact h _ (by omega) (by omega)

/-! ## Updating a field -/

/-- `b'` is `b` with the `w` bits at `lo` combined through `f` with the bits
    `s .. s + w` of `v`; every other bit is kept. -/
def Updates (f : Bool → Bool → Bool) (lo w s : Nat)
    (b b' : Vector (BitVec 8) n) (v : BitVec m) : Prop :=
  ∀ k, k < 8 * n → bitAt b' k =
    if lo ≤ k ∧ k < lo + w
    then f (bitAt b k) (v.getLsbD (s + (lo + w - 1 - k)))
    else bitAt b k

/-- Plain assignment of a field. -/
def overwrite (_old new : Bool) : Bool := new

variable {f : Bool → Bool → Bool} {lo w s : Nat}
  {b b' b'' : Vector (BitVec 8) n} {v : BitVec m}

/-- **ONE-BYTE PIECE**: rewriting byte `j` so that its bits `p .. p + len`
    change updates the field of `len` bits that ends `p` bits before the end of
    that byte. -/
theorem Updates.byte (j p len : Nat) (hj : j < n) (hp : p + len ≤ 8)
    (x : BitVec 8)
    (hx : ∀ i, i < 8 → x.getLsbD i =
      if p ≤ i ∧ i < p + len then f (b[j].getLsbD i) (v.getLsbD (s + (i - p)))
      else b[j].getLsbD i) :
    Updates f (8 * j + (8 - p - len)) len s b (b.set j x) v := by
  intro k hk
  have hkn : k / 8 < n := by omega
  rw [bitAt_eq_byte (b.set j x) hkn, bitAt_eq_byte b hkn, Vector.getElem_set]
  by_cases hkj : j = k / 8
  · subst hkj
    rw [if_pos rfl, hx _ (by omega)]
    by_cases hin : p ≤ 7 - k % 8 ∧ 7 - k % 8 < p + len
    · rw [if_pos hin, if_pos (by omega)]
      congr 2
      omega
    · rw [if_neg hin, if_neg (by omega)]
  · rw [if_neg hkj, if_neg (by omega)]

/-- The bits a byte piece covers. -/
def inPiece (p len i : Nat) : Bool := decide (p ≤ i ∧ i < p + len)

/-- Assigning a piece: the rest of the byte is kept and the new bits are OR-ed
    in. -/
theorem Updates.set_piece {d : Nat} (j p len : Nat) (hj : j < n)
    (hp : p + len ≤ 8) {x : BitVec d}
    (hx : ∀ i, i < 8 → x.getLsbD i = ((b[j].getLsbD i && !inPiece p len i)
      || (inPiece p len i && v.getLsbD (s + (i - p))))) :
    Updates overwrite (8 * j + (8 - p - len)) len s b
      (b.set j (x.setWidth 8)) v := by
  refine Updates.byte j p len hj hp _ ?_
  intro i hi
  rw [BitVec.getLsbD_setWidth, decide_eq_true hi, Bool.true_and, hx i hi]
  by_cases hin : p ≤ i ∧ i < p + len
  · rw [if_pos hin, inPiece, decide_eq_true hin]
    simp [overwrite]
  · rw [if_neg hin, inPiece, decide_eq_false hin]
    simp

/-- OR-ing a mask into a piece: nothing of the byte is cleared. -/
theorem Updates.or_piece {d : Nat} (j p len : Nat) (hj : j < n)
    (hp : p + len ≤ 8) {x : BitVec d}
    (hx : ∀ i, i < 8 → x.getLsbD i = (b[j].getLsbD i
      || (inPiece p len i && v.getLsbD (s + (i - p))))) :
    Updates or (8 * j + (8 - p - len)) len s b (b.set j (x.setWidth 8)) v := by
  refine Updates.byte j p len hj hp _ ?_
  intro i hi
  rw [BitVec.getLsbD_setWidth, decide_eq_true hi, Bool.true_and, hx i hi]
  by_cases hin : p ≤ i ∧ i < p + len
  · rw [if_pos hin, inPiece, decide_eq_true hin, Bool.true_and]
  · rw [if_neg hin, inPiece, decide_eq_false hin, Bool.false_and,
      Bool.or_false]

/-- Clearing a piece: the rest of the byte is kept. -/
theorem Updates.clear_piece (j p len : Nat) (hj : j < n) (hp : p + len ≤ 8)
    {x : BitVec 8} (hx : ∀ i, i < 8 → x.getLsbD i = (b[j].getLsbD i && !inPiece p len i)) :
    Updates overwrite (8 * j + (8 - p - len)) len s b (b.set j x) (0#m) := by
  refine Updates.byte j p len hj hp _ ?_
  intro i hi
  rw [hx i hi]
  by_cases hin : p ≤ i ∧ i < p + len
  · rw [if_pos hin, inPiece, decide_eq_true hin, overwrite, BitVec.getLsbD_zero,
      Bool.not_true, Bool.and_false]
  · rw [if_neg hin, inPiece, decide_eq_false hin, Bool.not_false, Bool.and_true]

/-- The low `len` bits of a shifted value, as the piece at the end of a byte. -/
theorem ushiftRight_and_piece (v : BitVec m) (s len : Nat) {mask : BitVec m}
    (hmask : ∀ i, i < 8 → mask.getLsbD i = inPiece 0 len i) :
    ∀ i, i < 8 → ((v >>> s) &&& mask).getLsbD i
      = (inPiece 0 len i && v.getLsbD (s + (i - 0))) := by
  intro i hi
  rw [BitVec.getLsbD_and, BitVec.getLsbD_ushiftRight, hmask i hi,
    Bool.and_comm, Nat.sub_zero]

/-- The low bits of a value moved up to the start of a byte. -/
theorem and_shiftLeft_piece (v : BitVec m) (p len : Nat) {mask : BitVec m}
    (hm : 8 ≤ m) (hp : p + len = 8)
    (hmask : ∀ i, i < 8 → mask.getLsbD i = inPiece 0 len i) :
    ∀ i, i < 8 → ((v &&& mask) <<< p).getLsbD i
      = (inPiece p len i && v.getLsbD (0 + (i - p))) := by
  intro i hi
  rw [BitVec.getLsbD_shiftLeft, BitVec.getLsbD_and, hmask _ (by omega),
    decide_eq_true (show i < m by omega), Nat.zero_add]
  by_cases hin : p ≤ i
  · have h0 : inPiece 0 len (i - p) = true := decide_eq_true (by omega)
    have hp' : inPiece p len i = true := decide_eq_true (by omega)
    rw [h0, hp', decide_eq_false (show ¬ i < p by omega)]
    simp
  · have hp' : inPiece p len i = false := decide_eq_false (by omega)
    rw [hp', decide_eq_true (show i < p by omega)]
    simp

/-- **GLUING**: two adjacent pieces, the upper one taking the upper bits of the
    value, update the whole field. -/
theorem Updates.append (w₁ w₂ : Nat)
    (h₁ : Updates f lo w₁ (s + w₂) b b' v)
    (h₂ : Updates f (lo + w₁) w₂ s b' b'' v) :
    Updates f lo (w₁ + w₂) s b b'' v := by
  intro k hk
  rw [h₂ k hk, h₁ k hk]
  by_cases hup : lo ≤ k ∧ k < lo + w₁
  · rw [if_neg (by omega), if_pos hup, if_pos (by omega)]
    congr 2
    omega
  · rw [if_neg hup]
    by_cases hlow : lo + w₁ ≤ k ∧ k < lo + w₁ + w₂
    · rw [if_pos hlow, if_pos (by omega)]
      congr 2
      omega
    · rw [if_neg hlow, if_neg (by omega)]

/-- Only the bits that land in the field matter. -/
theorem Updates.congr_value {m' : Nat} {v' : BitVec m'}
    (h : Updates f lo w s b b' v)
    (hv : ∀ i, i < w → v'.getLsbD (s + i) = v.getLsbD (s + i)) :
    Updates f lo w s b b' v' := by
  intro k hk
  rw [h k hk]
  by_cases hin : lo ≤ k ∧ k < lo + w
  · rw [if_pos hin, if_pos hin, hv _ (by omega)]
  · rw [if_neg hin, if_neg hin]

/-- A field that does not meet the updated one is unchanged. -/
theorem Updates.slice_disjoint (h : Updates f lo w s b b' v) {lo' w' : Nat}
    (hn : lo' + w' ≤ 8 * n) (hd : lo' + w' ≤ lo ∨ lo + w ≤ lo') :
    slice b' lo' w' = slice b lo' w' := by
  rw [slice_eq_iff]
  intro k hlo hhi
  rw [h k (by omega), if_neg (by omega)]

/-- Reading back an updated field. -/
theorem Updates.slice_getLsbD (h : Updates f lo w 0 b b' v)
    (hn : lo + w ≤ 8 * n) {i : Nat} (hi : i < w) :
    (slice b' lo w).getLsbD i = f ((slice b lo w).getLsbD i) (v.getLsbD i) := by
  rw [PackedBits.slice_getLsbD b' lo hi, PackedBits.slice_getLsbD b lo hi,
    h _ (by omega), if_pos (by omega)]
  congr 2
  omega

/-- Writing a field and reading it back gives the value modulo `2 ^ w`. -/
theorem slice_overwrite (h : Updates overwrite lo w 0 b b' v)
    (hn : lo + w ≤ 8 * n) : slice b' lo w = v.setWidth w := by
  apply BitVec.eq_of_getLsbD_eq
  intro i hi
  rw [h.slice_getLsbD hn hi, BitVec.getLsbD_setWidth, decide_eq_true hi,
    Bool.true_and]
  rfl

/-- Writing a field changes nothing exactly when its bits were already there. -/
theorem overwrite_eq_self_iff (h : Updates overwrite lo w 0 b b' v)
    (hn : lo + w ≤ 8 * n) :
    b' = b ↔ ∀ i, i < w → v.getLsbD i = (slice b lo w).getLsbD i := by
  constructor
  · intro he i hi
    have hr := h.slice_getLsbD hn hi
    rw [he] at hr
    exact hr.symm
  · intro hv
    apply ext_bitAt
    intro k hk
    rw [h k hk]
    by_cases hin : lo ≤ k ∧ k < lo + w
    · rw [if_pos hin, bitAt_eq_slice b hin.1 hin.2, Nat.zero_add]
      exact hv _ (by omega)
    · rw [if_neg hin]

end PackedBits
