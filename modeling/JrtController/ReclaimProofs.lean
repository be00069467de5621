import Mathlib.Data.Finset.Basic
import Mathlib.Tactic

/-! # Reclamation after a grace period

    Readers look objects up inside sections and use what they find until the section
    ends.  A writer takes an object out of the readers' sight, waits until every section
    that is open at that moment has ended, and only then frees it.  Nothing else keeps a
    reader from an object that is gone.

    * `Domain` — which readers are inside a section, what each found there, and what
      state each object is in;
    * `Domain.Covered` — what a reader has found can still be found, or a wait for this
      very reader is still to come or not over;
    * `Covered.held_ne_free` — so no reader has an object that was freed;
    * `Covered.enter` … `Covered.free` — every operation keeps it. -/

namespace Reclaims

variable {R P : Type*}

/-- What state an object is in: not allocated, known to its owner only, to be found by
    readers, taken out of their sight, or waiting for the sections of some readers to
    end. -/
inductive Status (R : Type*) where
  | free
  | owned
  | linked
  | unlinked
  | waiting (rs : Finset R)

/-- A section of `r` ends: no wait is for it any more. -/
def Status.left [DecidableEq R] (r : R) : Status R → Status R
  | .waiting rs => .waiting (rs.erase r)
  | st => st

structure Domain (R P : Type*) where
  active : Finset R
  held   : R → Finset P
  status : P → Status R

namespace Domain

/-- Nobody reads and nothing is allocated. -/
def empty : Domain R P := ⟨∅, fun _ => ∅, fun _ => .free⟩

variable [DecidableEq R]

/-- A section begins. -/
def enter (d : Domain R P) (r : R) : Domain R P := { d with active := insert r d.active }

/-- A reader finds an object. -/
def find [DecidableEq P] (d : Domain R P) (r : R) (p : P) : Domain R P :=
  { d with held := Function.update d.held r (insert p (d.held r)) }

/-- A section ends, and with it the use of what was found in it. -/
def leave (d : Domain R P) (r : R) : Domain R P where
  active := d.active.erase r
  held := Function.update d.held r ∅
  status := fun p => (d.status p).left r

variable [DecidableEq P]

def setStatus (d : Domain R P) (p : P) (st : Status R) : Domain R P :=
  { d with status := Function.update d.status p st }

abbrev alloc (d : Domain R P) (p : P) : Domain R P := d.setStatus p .owned

abbrev link (d : Domain R P) (p : P) : Domain R P := d.setStatus p .linked

abbrev unlink (d : Domain R P) (p : P) : Domain R P := d.setStatus p .unlinked

/-- A wait begins: it is for the sections that are open now. -/
abbrev wait (d : Domain R P) (p : P) : Domain R P := d.setStatus p (.waiting d.active)

abbrev free (d : Domain R P) (p : P) : Domain R P := d.setStatus p .free

end Domain

section

variable [DecidableEq R] (d : Domain R P)

@[simp] theorem Domain.active_enter (r : R) : (d.enter r).active = insert r d.active := rfl

@[simp] theorem Domain.held_enter (r : R) : (d.enter r).held = d.held := rfl

@[simp] theorem Domain.status_enter (r : R) : (d.enter r).status = d.status := rfl

@[simp] theorem Domain.active_leave (r : R) : (d.leave r).active = d.active.erase r := rfl

@[simp] theorem Domain.held_leave (r : R) :
    (d.leave r).held = Function.update d.held r ∅ := rfl

@[simp] theorem Domain.status_leave (r : R) (p : P) :
    (d.leave r).status p = (d.status p).left r := rfl

variable [DecidableEq P]

@[simp] theorem Domain.active_find (r : R) (p : P) : (d.find r p).active = d.active := rfl

@[simp] theorem Domain.held_find (r : R) (p : P) :
    (d.find r p).held = Function.update d.held r (insert p (d.held r)) := rfl

@[simp] theorem Domain.status_find (r : R) (p : P) : (d.find r p).status = d.status := rfl

omit [DecidableEq R]

@[simp] theorem Domain.active_setStatus (p : P) (st : Status R) :
    (d.setStatus p st).active = d.active := rfl

@[simp] theorem Domain.held_setStatus (p : P) (st : Status R) :
    (d.setStatus p st).held = d.held := rfl

@[simp] theorem Domain.status_setStatus (p : P) (st : Status R) :
    (d.setStatus p st).status = Function.update d.status p st := rfl

end

/-- An object a reader may still use: it can be found, or the wait for the reader is to
    come or not over. -/
def Status.Covers (r : R) : Status R → Prop
  | .linked => True
  | .unlinked => True
  | .waiting rs => r ∈ rs
  | .owned => False
  | .free => False

/-- What a reader has found in its section is covered. -/
def Domain.Covered (d : Domain R P) : Prop :=
  ∀ r, ∀ p ∈ d.held r, r ∈ d.active ∧ (d.status p).Covers r

namespace Domain.Covered

variable {d : Domain R P}

theorem empty : (Domain.empty : Domain R P).Covered := by
  intro r p hp
  exact absurd hp (Finset.notMem_empty p)

/-- **NO READER HAS AN OBJECT THAT WAS FREED.** -/
theorem held_ne_free (h : d.Covered) {r : R} {p : P} (hp : p ∈ d.held r) :
    d.status p ≠ .free := by
  intro hst
  have hcov := (h r p hp).2
  rw [hst] at hcov
  exact hcov

section

variable [DecidableEq P]

/-- A change of one object's state keeps what is covered if the new state covers the
    readers that the old one did. -/
theorem setStatus (h : d.Covered) {p : P} {st : Status R}
    (hst : ∀ r ∈ d.active, (d.status p).Covers r → st.Covers r) :
    (d.setStatus p st).Covered := by
  intro r q hq
  obtain ⟨hact, hcov⟩ := h r q hq
  refine ⟨hact, ?_⟩
  show (Function.update d.status p st q).Covers r
  by_cases hqp : q = p
  · subst hqp
    rw [Function.update_self]
    exact hst r hact hcov
  · rwa [Function.update_of_ne hqp]

theorem alloc (h : d.Covered) {p : P} (hp : d.status p = .free) : (d.alloc p).Covered :=
  h.setStatus fun r _ hcov => by
    rw [hp] at hcov
    exact hcov.elim

theorem link (h : d.Covered) (p : P) : (d.link p).Covered :=
  h.setStatus fun _ _ _ => trivial

theorem unlink (h : d.Covered) (p : P) : (d.unlink p).Covered :=
  h.setStatus fun _ _ _ => trivial

/-- The wait is for every reader that may have found the object. -/
theorem wait (h : d.Covered) (p : P) : (d.wait p).Covered :=
  h.setStatus fun _ hact _ => hact

theorem free (h : d.Covered) {p : P} (hp : d.status p = .waiting ∅) : (d.free p).Covered :=
  h.setStatus fun r _ hcov => by
    rw [hp] at hcov
    exact absurd hcov (Finset.notMem_empty r)

end

variable [DecidableEq R]

theorem enter (h : d.Covered) (r : R) : (d.enter r).Covered := by
  intro r' p hp
  obtain ⟨hact, hcov⟩ := h r' p hp
  exact ⟨Finset.mem_insert_of_mem hact, hcov⟩

theorem find [DecidableEq P] (h : d.Covered) {r : R} {p : P} (hr : r ∈ d.active)
    (hp : d.status p = .linked) : (d.find r p).Covered := by
  intro r' q hq
  by_cases hr' : r' = r
  · subst hr'
    rw [Domain.held_find, Function.update_self] at hq
    rcases Finset.mem_insert.mp hq with rfl | hq
    · refine ⟨hr, ?_⟩
      show (d.status q).Covers r'
      rw [hp]
      trivial
    · exact h r' q hq
  · rw [Domain.held_find, Function.update_of_ne hr'] at hq
    exact h r' q hq

theorem leave (h : d.Covered) (r : R) : (d.leave r).Covered := by
  intro r' p hp
  by_cases hr' : r' = r
  · subst hr'
    rw [Domain.held_leave, Function.update_self] at hp
    exact absurd hp (Finset.notMem_empty p)
  · rw [Domain.held_leave, Function.update_of_ne hr'] at hp
    obtain ⟨hact, hcov⟩ := h r' p hp
    refine ⟨Finset.mem_erase.mpr ⟨hr', hact⟩, ?_⟩
    show ((d.status p).left r).Covers r'
    cases hst : d.status p with
    | waiting rs =>
        rw [hst] at hcov
        exact Finset.mem_erase.mpr ⟨hr', hcov⟩
    | free => rwa [hst] at hcov
    | owned => rwa [hst] at hcov
    | linked => trivial
    | unlinked => trivial

end Domain.Covered

end Reclaims
