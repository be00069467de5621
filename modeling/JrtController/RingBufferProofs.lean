import Mathlib.Data.BitVec
import Mathlib.Data.Nat.ModEq

/-! # Ring buffers with free-running counters

    A ring for one producer and one consumer.  The counters of the two only ever grow,
    modulo the size of their type, and a slot is a counter masked to the size of the
    ring; one slot always stays empty.

    * `slot_toNat`, `slot_inj` — masking is a remainder, and slots that are close to each
      other are different;
    * `Holds` — the list that a ring stands for;
    * `Holds.enqueue`, `Holds.dequeue` — the operations are those of a bounded queue. -/

namespace RingBuffers

structure Ring (w : Nat) (α : Type*) where
  mask  : BitVec w
  head  : BitVec w
  tail  : BitVec w
  slots : BitVec w → Option α

namespace Ring

variable {w : Nat} {α : Type*}

/-- An empty ring. -/
def init (mask : BitVec w) : Ring w α := ⟨mask, 0, 0, fun _ => none⟩

/-- The slot of a counter. -/
def slot (r : Ring w α) (counter : BitVec w) : BitVec w := counter &&& r.mask

/-- The slot after the next one is that of the oldest element. -/
def Full (r : Ring w α) : Prop := r.slot (r.tail + 1) = r.slot r.head

instance (r : Ring w α) : Decidable r.Full :=
  inferInstanceAs (Decidable (r.slot (r.tail + 1) = r.slot r.head))

def enqueue (r : Ring w α) (a : α) : Bool × Ring w α :=
  if r.Full then (false, r)
  else (true, { r with
    slots := Function.update r.slots (r.slot r.tail) (some a)
    tail := r.tail + 1 })

def dequeue (r : Ring w α) : Option (Option α × Ring w α) :=
  if r.head = r.tail then none
  else some (r.slots (r.slot r.head), { r with head := r.head + 1 })

/-- The ring of `2 ^ k` slots stands for a list, oldest element first. -/
structure Holds (r : Ring w α) (k : Nat) (l : List α) : Prop where
  mask  : r.mask.toNat = 2 ^ k - 1
  tail  : r.tail = r.head + BitVec.ofNat w l.length
  room  : l.length < 2 ^ k
  slots : ∀ i a, l[i]? = some a → r.slots (r.slot (r.head + BitVec.ofNat w i)) = some a

theorem slot_toNat {r : Ring w α} {k : Nat} (h : r.mask.toNat = 2 ^ k - 1)
    (x : BitVec w) : (r.slot x).toNat = x.toNat % 2 ^ k := by
  rw [slot, BitVec.toNat_and, h, Nat.and_two_pow_sub_one_eq_mod]

/-- Wrapping a counter does not change its slots. -/
theorem slot_add_toNat {r : Ring w α} {k : Nat} (h : r.mask.toNat = 2 ^ k - 1)
    (x : BitVec w) (n : Nat) :
    (r.slot (x + BitVec.ofNat w n)).toNat = (x.toNat + n) % 2 ^ k := by
  have hdvd : 2 ^ k ∣ 2 ^ w := by
    refine Nat.pow_dvd_pow 2 ((Nat.pow_le_pow_iff_right Nat.one_lt_two).mp ?_)
    have hmask := r.mask.isLt
    omega
  rw [slot_toNat h, BitVec.toNat_add, BitVec.toNat_ofNat, Nat.add_mod_mod,
    Nat.mod_mod_of_dvd _ hdvd]

/-- The slots of a counter and those after it, up to the size of the ring, differ. -/
theorem slot_inj {r : Ring w α} {k : Nat} (h : r.mask.toNat = 2 ^ k - 1) {x : BitVec w}
    {i j : Nat} (hi : i < 2 ^ k) (hj : j < 2 ^ k)
    (heq : r.slot (x + BitVec.ofNat w i) = r.slot (x + BitVec.ofNat w j)) : i = j := by
  have hmod : x.toNat + i ≡ x.toNat + j [MOD 2 ^ k] := by
    have hnat := congrArg BitVec.toNat heq
    rwa [slot_add_toNat h, slot_add_toNat h] at hnat
  exact Nat.ModEq.eq_of_lt_of_lt (Nat.ModEq.add_left_cancel' x.toNat hmod) hi hj

theorem holds_init {mask : BitVec w} {k : Nat} (h : mask.toNat = 2 ^ k - 1) :
    (init mask : Ring w α).Holds k [] where
  mask := h
  tail := by simp [init]
  room := Nat.two_pow_pos k
  slots := fun i a ha => by simp at ha

namespace Holds

variable {r : Ring w α} {k : Nat} {l : List α}

theorem tail_succ (h : r.Holds k l) :
    r.tail + 1 = r.head + BitVec.ofNat w (l.length + 1) := by
  rw [h.tail, BitVec.ofNat_add, BitVec.add_assoc]
  rfl

/-- The ring is full when one slot is left. -/
theorem full_iff (h : r.Holds k l) : r.Full ↔ l.length + 1 = 2 ^ k := by
  have hhead : r.slot r.head = r.slot (r.head + BitVec.ofNat w 0) := by simp
  rw [Full, h.tail_succ]
  constructor
  · intro hfull
    by_contra hne
    have hroom := h.room
    exact absurd (slot_inj h.mask (by omega) (Nat.two_pow_pos k) (hfull.trans hhead))
      (Nat.succ_ne_zero _)
  · intro hfull
    refine BitVec.eq_of_toNat_eq ?_
    rw [slot_add_toNat h.mask, slot_toNat h.mask, hfull, Nat.add_mod_right]

/-- **ENQUEUE** appends while more than one slot is left, and refuses otherwise. -/
theorem enqueue (h : r.Holds k l) (a : α) :
    l.length + 1 = 2 ^ k ∧ r.enqueue a = (false, r)
      ∨ l.length + 1 < 2 ^ k ∧ ∃ r', r.enqueue a = (true, r') ∧ r'.Holds k (l ++ [a])
        ∧ r'.head = r.head ∧ r'.tail = r.tail + 1 := by
  have hroom := h.room
  by_cases hfull : r.Full
  · exact Or.inl ⟨h.full_iff.mp hfull, if_pos hfull⟩
  have hlt : l.length + 1 < 2 ^ k := by
    have hne := mt h.full_iff.mpr hfull
    omega
  refine Or.inr ⟨hlt, _, if_neg hfull, ⟨h.mask, ?_, ?_, fun i b hb => ?_⟩, rfl, rfl⟩
  · rw [List.length_append, List.length_singleton]
    exact h.tail_succ
  · rwa [List.length_append, List.length_singleton]
  · show Function.update r.slots (r.slot r.tail) (some a)
      (r.slot (r.head + BitVec.ofNat w i)) = some b
    rw [h.tail]
    by_cases hi : i < l.length
    · rw [List.getElem?_append_left hi] at hb
      rw [Function.update_of_ne, h.slots i b hb]
      exact fun heq => absurd (slot_inj h.mask (hi.trans hroom) hroom heq) (Nat.ne_of_lt hi)
    · have hlen : i < (l ++ [a]).length := (List.getElem?_eq_some_iff.mp hb).1
      rw [List.length_append, List.length_singleton] at hlen
      obtain rfl : i = l.length := by omega
      rw [List.getElem?_concat_length] at hb
      rw [Function.update_self, hb]

theorem dequeue_nil (h : r.Holds k []) : r.dequeue = none := by
  refine if_pos ?_
  rw [h.tail, List.length_nil, BitVec.add_zero]

/-- **DEQUEUE** takes the oldest element. -/
theorem dequeue_cons {a : α} (h : r.Holds k (a :: l)) :
    ∃ r', r.dequeue = some (some a, r') ∧ r'.Holds k l ∧ r'.head = r.head + 1
      ∧ r'.tail = r.tail := by
  have hroom : l.length + 1 < 2 ^ k := h.room
  have hsucc : ∀ n, r.head + BitVec.ofNat w (n + 1) = r.head + 1 + BitVec.ofNat w n := by
    intro n
    rw [Nat.add_comm n 1, BitVec.ofNat_add, BitVec.add_assoc]
    rfl
  have hne : r.head ≠ r.tail := by
    intro heq
    have hslot : r.slot (r.head + BitVec.ofNat w 0)
        = r.slot (r.head + BitVec.ofNat w (l.length + 1)) := by
      rw [BitVec.add_zero]
      exact congrArg r.slot (heq.trans h.tail)
    exact absurd (slot_inj h.mask (Nat.two_pow_pos k) hroom hslot) (Nat.succ_ne_zero _).symm
  have hfirst : r.slots (r.slot r.head) = some a := by
    have hzero := h.slots 0 a rfl
    rwa [BitVec.add_zero] at hzero
  refine ⟨{ r with head := r.head + 1 }, ?_, ⟨h.mask, ?_, ?_, fun i b hb => ?_⟩, rfl, rfl⟩
  · rw [Ring.dequeue, if_neg hne, hfirst]
  · rw [← hsucc]
    exact h.tail
  · omega
  · have hold := h.slots (i + 1) b hb
    rwa [hsucc] at hold

end Holds

end Ring

end RingBuffers
