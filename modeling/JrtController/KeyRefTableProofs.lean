import Mathlib.Tactic

/-! # Hash tables that keep their keys by reference

    An entry stores the hash of its key and the address the key was at when it
    was inserted, not the key.  Look-ups compare the hash, and then the contents
    of the address as they are now.

    * `set_of_no_hit` — a key nobody is found under is added;
    * `remove_of_unique` — removing a key that one entry is found under removes
      that entry. -/

namespace KeyRefTable

variable {A K V : Type*}

structure Entry (A V : Type*) where
  hash  : Nat
  key   : A
  value : V
  deriving DecidableEq

/-- With memory as it is, the entry is found under the key. -/
def Entry.Hit (mem : A → K) (hash : Nat) (k : K) (e : Entry A V) : Prop :=
  e.hash = hash ∧ mem e.key = k

instance [DecidableEq K] (mem : A → K) (hash : Nat) (k : K) (e : Entry A V) :
    Decidable (e.Hit mem hash k) :=
  inferInstanceAs (Decidable (_ ∧ _))

variable [DecidableEq K] {mem : A → K}

/-- Insert an entry, in the place of the first one found under its key. -/
def set (mem : A → K) (e : Entry A V) : List (Entry A V) → List (Entry A V)
  | [] => [e]
  | x :: t => if x.Hit mem e.hash (mem e.key) then e :: t else x :: set mem e t

/-- Remove the first entry found under a key; `none` if there is none. -/
def remove (mem : A → K) (hash : Nat) (k : K) :
    List (Entry A V) → Option (List (Entry A V))
  | [] => none
  | x :: t => if x.Hit mem hash k then some t else (remove mem hash k t).map (x :: ·)

/-- An insertion adds nothing but the new entry. -/
theorem mem_of_mem_set {e x : Entry A V} {t : List (Entry A V)} (h : x ∈ set mem e t) :
    x = e ∨ x ∈ t := by
  induction t with
  | nil => exact Or.inl (List.mem_singleton.mp h)
  | cons y t ih =>
      rw [set] at h
      by_cases hy : y.Hit mem e.hash (mem e.key)
      · rw [if_pos hy] at h
        exact (List.mem_cons.mp h).imp_right (List.mem_cons_of_mem y)
      · rw [if_neg hy] at h
        rcases List.mem_cons.mp h with rfl | h
        · exact Or.inr (List.mem_cons_self ..)
        · exact (ih h).imp_right (List.mem_cons_of_mem y)

theorem set_of_no_hit {e : Entry A V} {t : List (Entry A V)}
    (h : ∀ x ∈ t, ¬ x.Hit mem e.hash (mem e.key)) : set mem e t = t ++ [e] := by
  induction t with
  | nil => rfl
  | cons y t ih =>
      rw [set, if_neg (h y (List.mem_cons_self ..)),
        ih fun x hx => h x (List.mem_cons_of_mem y hx)]
      rfl

/-- A removal adds nothing. -/
theorem mem_of_mem_remove {hash : Nat} {k : K} {t t' : List (Entry A V)}
    (h : remove mem hash k t = some t') {x : Entry A V} (hx : x ∈ t') : x ∈ t := by
  induction t generalizing t' with
  | nil => exact nomatch h
  | cons y t ih =>
      rw [remove] at h
      by_cases hy : y.Hit mem hash k
      · rw [if_pos hy] at h
        obtain rfl := Option.some.inj h
        exact List.mem_cons_of_mem y hx
      · rw [if_neg hy] at h
        obtain ⟨t'', ht, rfl⟩ := Option.map_eq_some_iff.mp h
        rcases List.mem_cons.mp hx with rfl | hx
        · exact List.mem_cons_self ..
        · exact List.mem_cons_of_mem y (ih ht hx)

/-- Entries are told apart by their values here, as the values are pointers. -/
theorem remove_of_unique [DecidableEq V] {hash : Nat} {k : K} {t : List (Entry A V)}
    {e : Entry A V} (hnd : (t.map Entry.value).Nodup) (he : e ∈ t)
    (hit : e.Hit mem hash k) (honly : ∀ x ∈ t, x.Hit mem hash k → x = e) :
    remove mem hash k t = some (t.filter fun x => x.value ≠ e.value) := by
  induction t with
  | nil => exact nomatch he
  | cons y t ih =>
      obtain ⟨hy, hnd'⟩ := List.nodup_cons.mp hnd
      rw [remove]
      by_cases hhit : y.Hit mem hash k
      · obtain rfl := honly y (List.mem_cons_self ..) hhit
        have hrest : (t.filter fun x => x.value ≠ y.value) = t := by
          refine List.filter_eq_self.mpr fun x hx => decide_eq_true ?_
          exact fun heq => hy (heq ▸ List.mem_map_of_mem hx)
        rw [if_pos hhit, List.filter_cons_of_neg (by simp), hrest]
      · have het : e ∈ t := by
          rcases List.mem_cons.mp he with rfl | het
          · exact absurd hit hhit
          · exact het
        have hne : y.value ≠ e.value := fun heq => hy (heq ▸ List.mem_map_of_mem het)
        rw [if_neg hhit, ih hnd' het fun x hx => honly x (List.mem_cons_of_mem y hx),
          List.filter_cons_of_pos (by simpa using hne)]
        rfl

end KeyRefTable
