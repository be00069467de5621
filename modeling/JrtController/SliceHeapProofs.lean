import Mathlib.Tactic

/-! # Slices that share arrays

    A slice of Go is a view of the start of an array in the heap.  `append` writes behind
    the slice if the array has room there, for every slice of that array to see, and copies
    to a new array otherwise.

    * `content_append` — the new slice has what the old one had, and what was appended;
    * `extends_append_of_full`, `Extends.append` — a slice that is full, or of a new array,
      can be appended to without a change to the arrays that were there. -/

namespace SliceHeap

variable {α : Type}

/-- The arrays, by their addresses. -/
abbrev Heap (α : Type) := List (List α)

/-- The first elements of an array. -/
structure Slice where
  array : Nat
  len   : Nat
  deriving DecidableEq, Repr

/-- The array of a slice, up to its capacity. -/
def arrayOf (h : Heap α) (s : Slice) : List α := h[s.array]?.getD []

def content (h : Heap α) (s : Slice) : List α := (arrayOf h s).take s.len

/-- `append`; a new array also has what the runtime adds as room. -/
def append (h : Heap α) (s : Slice) (xs room : List α) : Heap α × Slice :=
  if s.len + xs.length ≤ (arrayOf h s).length then
    (h.set s.array (content h s ++ (xs ++ (arrayOf h s).drop (s.len + xs.length))),
      ⟨s.array, s.len + xs.length⟩)
  else (h ++ [content h s ++ (xs ++ room)], ⟨h.length, s.len + xs.length⟩)

/-- A slice of an array that is there. -/
structure Valid (h : Heap α) (s : Slice) : Prop where
  array : s.array < h.length
  len   : s.len ≤ (arrayOf h s).length

section

variable {h : Heap α} {s t : Slice}

theorem length_content (hs : Valid h s) : (content h s).length = s.len := by
  rw [content, List.length_take]
  exact Nat.min_eq_left hs.len

theorem arrayOf_append_of_lt (ht : t.array < h.length) (a : List α) :
    arrayOf (h ++ [a]) t = arrayOf h t := by
  rw [arrayOf, arrayOf, List.getElem?_append_left ht]

theorem arrayOf_new (h : Heap α) (a : List α) (n : Nat) :
    arrayOf (h ++ [a]) ⟨h.length, n⟩ = a := by
  rw [arrayOf, List.getElem?_concat_length]
  rfl

theorem arrayOf_set_self (hs : s.array < h.length) (a : List α) (n : Nat) :
    arrayOf (h.set s.array a) ⟨s.array, n⟩ = a := by
  rw [arrayOf, List.getElem?_set_self hs]
  rfl

/-- A slice without room is copied. -/
theorem append_of_full (hfull : (arrayOf h s).length ≤ s.len) {xs : List α} (hxs : xs ≠ [])
    (room : List α) : append h s xs room
      = (h ++ [content h s ++ (xs ++ room)], ⟨h.length, s.len + xs.length⟩) := by
  have hpos := List.length_pos_iff.mpr hxs
  rw [append, if_neg (by omega)]

/-- **WHAT IS APPENDED** stands behind what was there. -/
theorem content_append (hs : Valid h s) (xs room : List α) :
    content (append h s xs room).1 (append h s xs room).2 = content h s ++ xs := by
  have hlen : (content h s ++ xs).length = s.len + xs.length := by
    rw [List.length_append, length_content hs]
  rw [append]
  split
  · rw [content, arrayOf_set_self hs.array, ← List.append_assoc, ← hlen, List.take_left]
  · rw [content, arrayOf_new, ← List.append_assoc, ← hlen, List.take_left]

theorem valid_append (hs : Valid h s) (xs room : List α) :
    Valid (append h s xs room).1 (append h s xs room).2 := by
  have hlen := length_content hs
  rw [append]
  split
  case isTrue hroom =>
      refine ⟨?_, ?_⟩
      · rw [List.length_set]
        exact hs.array
      · rw [arrayOf_set_self hs.array, List.length_append, List.length_append, hlen]
        show s.len + xs.length ≤ _
        omega
  case isFalse =>
      refine ⟨?_, ?_⟩
      · rw [List.length_append]
        exact Nat.lt_succ_self _
      · rw [arrayOf_new, List.length_append, List.length_append, hlen]
        show s.len + xs.length ≤ _
        omega

/-! ## What stays -/

/-- The arrays of a heap are still there, and as they were. -/
structure Extends (h h' : Heap α) : Prop where
  length  : h.length ≤ h'.length
  arrayOf : ∀ t : Slice, t.array < h.length → arrayOf h' t = arrayOf h t

variable {h₀ : Heap α}

theorem Extends.trans {h₁ : Heap α} (hext : Extends h₀ h) (hext' : Extends h h₁) :
    Extends h₀ h₁ := by
  refine ⟨hext.length.trans hext'.length, fun t ht => ?_⟩
  rw [hext'.arrayOf t (ht.trans_le hext.length), hext.arrayOf t ht]

theorem Extends.valid (hext : Extends h₀ h) (ht : Valid h₀ t) : Valid h t := by
  refine ⟨ht.array.trans_le hext.length, ?_⟩
  rw [hext.arrayOf t ht.array]
  exact ht.len

theorem Extends.content_eq (hext : Extends h₀ h) (ht : Valid h₀ t) :
    content h t = content h₀ t := by
  rw [content, content, hext.arrayOf t ht.array]

/-- **A FULL SLICE**: what is appended to it goes to a new array. -/
theorem extends_append_of_full (hfull : (arrayOf h s).length ≤ s.len) {xs : List α}
    (hxs : xs ≠ []) (room : List α) : Extends h (append h s xs room).1 := by
  rw [append_of_full hfull hxs]
  refine ⟨?_, fun t ht => arrayOf_append_of_lt ht _⟩
  rw [List.length_append]
  exact Nat.le_add_right _ _

/-- **A NEW ARRAY**: what is appended to a slice of it does not touch the old ones. -/
theorem Extends.append (hext : Extends h₀ h) (hnew : h₀.length ≤ s.array) (xs room : List α) :
    Extends h₀ (append h s xs room).1 := by
  refine ⟨hext.length.trans ?_, fun t ht => ?_⟩
  · rw [SliceHeap.append]
    split
    · rw [List.length_set]
    · rw [List.length_append]
      exact Nat.le_add_right _ _
  · rw [← hext.arrayOf t ht, SliceHeap.append]
    split
    · rw [SliceHeap.arrayOf, List.getElem?_set_ne (by omega)]
      rfl
    · exact arrayOf_append_of_lt (ht.trans_le hext.length) _

end

end SliceHeap
