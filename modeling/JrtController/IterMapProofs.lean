import Mathlib.Data.List.Nodup
import Mathlib.Tactic

/-! # Maps with an iteration order

    A finite map as the list of entries an iteration over it yields, with distinct
    keys.  Two such lists are the same map if one is a permutation of the other: an
    unordered map may be iterated in any of these orders.

    * `get_set_self`, `get_set_ne` — assignment;
    * `mem_fill_iff` — the entries of a map that a loop fills under different keys;
    * `SameMap.get_eq` — a look-up does not depend on the order;
    * `SameMap.exists_first` — any entry can come first. -/

namespace IterMaps

/-- The entries of a map, in the order of an iteration. -/
structure IterMap (K V : Type*) where
  entries : List (K × V)
  nodup   : (entries.map Prod.fst).Nodup

section

variable {K V : Type*} [DecidableEq K]

namespace IterMap

def empty : IterMap K V := ⟨[], List.nodup_nil⟩

/-- The value of a key. -/
def get (m : IterMap K V) (k : K) : Option V :=
  (m.entries.find? fun x => x.1 = k).map Prod.snd

/-- The entries of the other keys. -/
def others (m : IterMap K V) (k : K) : List (K × V) :=
  m.entries.filter fun x => x.1 ≠ k

theorem mem_others {m : IterMap K V} {k : K} {x : K × V} :
    x ∈ m.others k ↔ x ∈ m.entries ∧ x.1 ≠ k := by
  rw [others, List.mem_filter, decide_eq_true_eq]

/-- Assignment: the entry replaces an earlier one of its key. -/
def set (m : IterMap K V) (k : K) (v : V) : IterMap K V where
  entries := m.others k ++ [(k, v)]
  nodup := by
    rw [List.map_append, List.nodup_append]
    refine ⟨m.nodup.sublist (List.filter_sublist.map _), List.nodup_singleton _, ?_⟩
    intro k' hk' k'' hk''
    obtain ⟨x, hx, rfl⟩ := List.mem_map.mp hk'
    rw [List.mem_singleton.mp hk'']
    exact (mem_others.mp hx).2

omit [DecidableEq K] in
/-- The same keys with other values. -/
def mapValues {W : Type*} (m : IterMap K V) (f : V → W) : IterMap K W where
  entries := m.entries.map fun x => (x.1, f x.2)
  nodup := by
    rw [List.map_map]
    exact m.nodup

omit [DecidableEq K] in
theorem mapValues_mapValues {W X : Type*} (m : IterMap K V) (f : V → W) (g : W → X) :
    (m.mapValues f).mapValues g = m.mapValues fun v => g (f v) := by
  simp [mapValues]

omit [DecidableEq K] in
theorem mapValues_inj {W : Type*} {m : IterMap K V} {f g : V → W} :
    m.mapValues f = m.mapValues g ↔ ∀ x ∈ m.entries, f x.2 = g x.2 := by
  rw [mapValues, mapValues, IterMap.mk.injEq, List.map_inj_left]
  simp

theorem mem_set {m : IterMap K V} {k : K} {v : V} {x : K × V} :
    x ∈ (m.set k v).entries ↔ x ∈ m.entries ∧ x.1 ≠ k ∨ x = (k, v) := by
  rw [set, List.mem_append, mem_others, List.mem_singleton]

omit [DecidableEq K] in
/-- Entries with the same key are the same. -/
theorem entry_unique {m : IterMap K V} {x y : K × V} (hx : x ∈ m.entries)
    (hy : y ∈ m.entries) (h : x.1 = y.1) : x = y :=
  List.inj_on_of_nodup_map m.nodup hx hy h

theorem get_eq_some_iff {m : IterMap K V} {k : K} {v : V} :
    m.get k = some v ↔ (k, v) ∈ m.entries := by
  unfold get
  constructor
  · intro h
    obtain ⟨⟨k', v'⟩, hfind, rfl⟩ := Option.map_eq_some_iff.mp h
    have hk : k' = k := by simpa using List.find?_some hfind
    rw [← hk]
    exact List.mem_of_find?_eq_some hfind
  · intro h
    cases hfind : m.entries.find? fun x => x.1 = k with
    | none =>
        have hno := List.find?_eq_none.mp hfind (k, v) h
        exact absurd (decide_eq_true rfl) hno
    | some y =>
        have hk : y.1 = k := by simpa using List.find?_some hfind
        rw [Option.map_some, entry_unique (List.mem_of_find?_eq_some hfind) h hk]

theorem get_set_self (m : IterMap K V) (k : K) (v : V) : (m.set k v).get k = some v :=
  get_eq_some_iff.mpr (mem_set.mpr (Or.inr rfl))

theorem get_set_ne (m : IterMap K V) {k k' : K} (v : V) (h : k' ≠ k) :
    (m.set k v).get k' = m.get k' := by
  refine Option.ext fun w => ?_
  rw [get_eq_some_iff, get_eq_some_iff, mem_set]
  constructor
  · rintro (⟨hmem, -⟩ | heq)
    · exact hmem
    · exact absurd (Prod.mk.inj heq).1 h
  · exact fun hmem => Or.inl ⟨hmem, h⟩

section Fill

variable {A : Type*} (key : A → K) (val : A → V)

/-- The map after a loop that assigns an entry in each turn. -/
def fill (m : IterMap K V) (l : List A) : IterMap K V :=
  l.foldl (fun m a => m.set (key a) (val a)) m

variable {key val}

theorem mem_of_mem_fill {l : List A} {m : IterMap K V} {x : K × V}
    (h : x ∈ (m.fill key val l).entries) :
    x ∈ m.entries ∨ ∃ a ∈ l, x = (key a, val a) := by
  induction l generalizing m with
  | nil => exact Or.inl h
  | cons a l ih =>
      rcases ih (m := m.set (key a) (val a)) h with hset | ⟨b, hb, rfl⟩
      · rcases mem_set.mp hset with ⟨hmem, -⟩ | rfl
        · exact Or.inl hmem
        · exact Or.inr ⟨a, List.mem_cons_self, rfl⟩
      · exact Or.inr ⟨b, List.mem_cons_of_mem _ hb, rfl⟩

/-- An entry stays while its key is not assigned. -/
theorem mem_fill_of_mem {l : List A} {m : IterMap K V} {x : K × V} (h : x ∈ m.entries)
    (hother : ∀ a ∈ l, x.1 ≠ key a) : x ∈ (m.fill key val l).entries := by
  induction l generalizing m with
  | nil => exact h
  | cons a l ih =>
      refine ih (m := m.set (key a) (val a)) ?_ fun b hb => hother b (List.mem_cons_of_mem _ hb)
      exact mem_set.mpr (Or.inl ⟨h, hother a List.mem_cons_self⟩)

/-- **DIFFERENT KEYS**: each turn of the loop leaves its entry. -/
theorem mem_fill_iff {l : List A} (hnodup : (l.map key).Nodup) {x : K × V} :
    x ∈ ((empty : IterMap K V).fill key val l).entries ↔ ∃ a ∈ l, x = (key a, val a) := by
  constructor
  · intro h
    exact (mem_of_mem_fill h).resolve_left List.not_mem_nil
  · rintro ⟨a, ha, rfl⟩
    obtain ⟨before, after, rfl⟩ := List.append_of_mem ha
    rw [fill, List.foldl_append, List.foldl_cons]
    refine mem_fill_of_mem (mem_set.mpr (Or.inr rfl)) fun b hb heq => ?_
    rw [List.map_append, List.map_cons] at hnodup
    have hafter := (List.nodup_cons.mp (List.nodup_append.mp hnodup).2.1).1
    exact hafter (List.mem_map.mpr ⟨b, hb, heq.symm⟩)

end Fill

end IterMap

/-- Two iteration orders of one map. -/
def SameMap (m m' : IterMap K V) : Prop := m.entries.Perm m'.entries

theorem SameMap.get_eq {m m' : IterMap K V} (h : SameMap m m') (k : K) :
    m.get k = m'.get k := by
  refine Option.ext fun v => ?_
  rw [IterMap.get_eq_some_iff, IterMap.get_eq_some_iff, h.mem_iff]

end

/-- Without one of its entries, a list begins with one more at most. -/
theorem mem_take_of_mem_take_erase {α : Type*} [BEq α] [LawfulBEq α] {l : List α}
    {x y : α} {n : Nat} (h : y ∈ (l.erase x).take n) : y ∈ l.take (n + 1) := by
  induction l generalizing n with
  | nil =>
      rw [List.erase_nil, List.take_nil] at h
      cases h
  | cons z l ih =>
      rw [List.take_succ_cons, List.mem_cons]
      by_cases hz : z = x
      · subst hz
        rw [List.erase_cons_head] at h
        exact Or.inr h
      · rw [List.erase_cons_tail (by simpa using hz)] at h
        cases n with
        | zero =>
            rw [List.take_zero] at h
            cases h
        | succ n =>
            rw [List.take_succ_cons, List.mem_cons] at h
            exact h.imp_right ih

/-- Every entry of a map comes first in some iteration, and the entries before any
    point of that one are it and entries before the same point. -/
theorem SameMap.exists_first {K V : Type*} {m : IterMap K V} {x : K × V}
    (hx : x ∈ m.entries) : ∃ m', SameMap m m' ∧ m'.entries.head? = some x
      ∧ ∀ n, ∀ y ∈ m'.entries.take n, y = x ∨ y ∈ m.entries.take n := by
  classical
  have hperm := List.perm_cons_erase hx
  refine ⟨⟨x :: m.entries.erase x, (hperm.map Prod.fst).nodup_iff.mp m.nodup⟩, hperm, rfl,
    fun n y hy => ?_⟩
  cases n with
  | zero =>
      rw [List.take_zero] at hy
      cases hy
  | succ n =>
      rw [List.take_succ_cons, List.mem_cons] at hy
      exact hy.imp_right mem_take_of_mem_take_erase

end IterMaps
