import Mathlib.Tactic

/-! # Bit-fields

    The members of a C structure that are bit-fields, as the System V ABI for x86-64 places
    them: one after the other from the low bits on, except that a member never crosses a
    boundary of its declared type.  Reading a member loads the whole unit of the declared
    type it lies in.

    * `place_fits` — where a member is placed it lies in one unit;
    * `readField_eq_error_iff` — a member can be read iff its unit lies in the object;
    * `readField_getLsbD` — the bits of a member are bits of the object, the low bits of a
      byte first. -/

namespace BitFields

/-- A member: the bytes of its declared type, and its own bits. -/
structure Decl where
  bytes     : Nat
  width     : Nat
  width_pos : 0 < width
  width_le  : width ≤ 8 * bytes

/-- The bits of the declared type. -/
def Decl.unit (d : Decl) : Nat := 8 * d.bytes

/-- The first bit of a member, if the members before it end at bit `off`. -/
def Decl.place (d : Decl) (off : Nat) : Nat :=
  if off % d.unit + d.width ≤ d.unit then off else (off / d.unit + 1) * d.unit

/-- The first bits of the members of a structure, in the order of their declaration. -/
def layout : Nat → List Decl → List Nat
  | _, [] => []
  | off, d :: ds => d.place off :: layout (d.place off + d.width) ds

/-- **A MEMBER LIES IN ONE UNIT** of its declared type. -/
theorem place_fits (d : Decl) (off : Nat) : d.place off % d.unit + d.width ≤ d.unit := by
  rw [Decl.place]
  by_cases hfit : off % d.unit + d.width ≤ d.unit
  · rw [if_pos hfit]
    exact hfit
  · rw [if_neg hfit, Nat.mul_mod_left, Nat.zero_add]
    exact d.width_le

/-! ## Objects -/

/-- A byte outside an object was read. -/
inductive Fault where
  | outside
  deriving DecidableEq, Repr

/-- Bytes as a number, the least significant byte first. -/
def leNat : List (BitVec 8) → Nat
  | [] => 0
  | b :: bs => 2 ^ 8 * leNat bs + b.toNat

/-- A bit of an object, the low bits of a byte first. -/
def bitOf (obj : List (BitVec 8)) (p : Nat) : Bool := (obj.getD (p / 8) 0).getLsbD (p % 8)

/-- The bytes from `off` on, loaded as a number. -/
def load (obj : List (BitVec 8)) (off len : Nat) : Except Fault Nat :=
  if off + len ≤ obj.length then .ok (leNat ((obj.drop off).take len)) else .error .outside

/-- A member that is placed at bit `start`: its unit is loaded and shifted. -/
def readField (obj : List (BitVec 8)) (d : Decl) (start : Nat) :
    Except Fault (BitVec d.width) := do
  let unit ← load obj (start / d.unit * d.bytes) d.bytes
  pure (BitVec.ofNat d.width (unit >>> (start % d.unit)))

theorem testBit_leNat (bs : List (BitVec 8)) (p : Nat) :
    (leNat bs).testBit p = bitOf bs p := by
  induction bs generalizing p with
  | nil =>
      rw [leNat, Nat.zero_testBit, bitOf, List.getD_nil]
      exact (BitVec.getLsbD_zero).symm
  | cons b bs ih =>
      rw [leNat, Nat.testBit_two_pow_mul_add _ b.isLt, bitOf]
      by_cases hp : p < 8
      · rw [if_pos hp, Nat.div_eq_of_lt hp, Nat.mod_eq_of_lt hp]
        rfl
      · rw [if_neg hp, ih, bitOf]
        have hdiv : p / 8 = (p - 8) / 8 + 1 := by omega
        have hmod : p % 8 = (p - 8) % 8 := by omega
        rw [hdiv, hmod, List.getD_cons_succ]

/-- A bit of what was loaded. -/
theorem bitOf_drop_take (obj : List (BitVec 8)) (off len : Nat) {p : Nat} (hp : p < 8 * len) :
    bitOf ((obj.drop off).take len) p = bitOf obj (8 * off + p) := by
  have hdiv : (8 * off + p) / 8 = off + p / 8 := by omega
  have hmod : (8 * off + p) % 8 = p % 8 := by omega
  rw [bitOf, bitOf, hdiv, hmod, List.getD_eq_getElem?_getD, List.getD_eq_getElem?_getD,
    List.getElem?_take_of_lt (by omega), List.getElem?_drop]

section Read

variable {obj : List (BitVec 8)} {d : Decl} {start : Nat}

theorem readField_eq_error_iff :
    (∃ f, readField obj d start = .error f) ↔ obj.length < (start / d.unit + 1) * d.bytes := by
  rw [readField, load, Nat.add_mul, Nat.one_mul]
  by_cases hin : start / d.unit * d.bytes + d.bytes ≤ obj.length
  · rw [if_pos hin]
    refine iff_of_false ?_ (not_lt.mpr hin)
    rintro ⟨f, hf⟩
    cases hf
  · rw [if_neg hin]
    exact iff_of_true ⟨.outside, rfl⟩ (not_le.mp hin)

/-- **THE BITS OF A MEMBER** that lies in one unit of the object. -/
theorem readField_getLsbD (hfit : start % d.unit + d.width ≤ d.unit)
    (hin : (start / d.unit + 1) * d.bytes ≤ obj.length) :
    ∃ v, readField obj d start = .ok v
      ∧ ∀ i, i < d.width → v.getLsbD i = bitOf obj (start + i) := by
  rw [Nat.add_mul, Nat.one_mul] at hin
  refine ⟨_, by rw [readField, load, if_pos hin]; rfl, ?_⟩
  intro i hi
  have hpos : start % d.unit + i < 8 * d.bytes := by
    have hunit : d.unit = 8 * d.bytes := rfl
    omega
  have hstart : 8 * (start / d.unit * d.bytes) + (start % d.unit + i) = start + i := by
    have hsplit := Nat.div_add_mod start d.unit
    have hmul : 8 * (start / d.unit * d.bytes) = d.unit * (start / d.unit) := by
      rw [Decl.unit]
      ring
    omega
  rw [BitVec.getLsbD_ofNat, decide_eq_true hi, Bool.true_and, Nat.testBit_shiftRight,
    testBit_leNat, bitOf_drop_take obj _ _ hpos, hstart]

end Read

end BitFields
