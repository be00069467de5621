import Mathlib.Data.Finset.Basic
import Mathlib.Tactic

/-! # Reader-writer locks

    A lock that many may hold together or one alone.

    * `RwLock` — who holds the lock, and how;
    * `RwLock.Agrees` — the lock says of everyone what their own place in the code says;
    * `Agrees.alone` — who holds the lock alone is the only holder;
    * `Agrees.rlock` … `Agrees.unlock` — every operation keeps the agreement. -/

namespace RwLocks

variable {G : Type*}

/-- How a thread holds the lock. -/
inductive Mode where
  | out
  | shared
  | exclusive
  deriving DecidableEq

structure RwLock (G : Type*) where
  readers : Finset G
  writer  : Option G

namespace RwLock

def free : RwLock G := ⟨∅, none⟩

def rlock [DecidableEq G] (l : RwLock G) (g : G) : RwLock G :=
  { l with readers := insert g l.readers }

def runlock [DecidableEq G] (l : RwLock G) (g : G) : RwLock G :=
  { l with readers := l.readers.erase g }

def lock (l : RwLock G) (g : G) : RwLock G := { l with writer := some g }

def unlock (l : RwLock G) : RwLock G := { l with writer := none }

/-- The lock agrees with where the threads are. -/
structure Agrees (l : RwLock G) (mode : G → Mode) : Prop where
  shared    : ∀ g, mode g = .shared ↔ g ∈ l.readers
  exclusive : ∀ g, mode g = .exclusive ↔ l.writer = some g
  apart     : l.writer ≠ none → l.readers = ∅

namespace Agrees

variable {l : RwLock G} {mode mode' : G → Mode}

theorem free : (free : RwLock G).Agrees fun _ => .out where
  shared g := iff_of_false Mode.noConfusion (Finset.notMem_empty g)
  exclusive g := iff_of_false Mode.noConfusion fun h => Option.some_ne_none g h.symm
  apart h := (h rfl).elim

/-- **ALONE.**  Nobody else holds the lock that one holds exclusively. -/
theorem alone (h : l.Agrees mode) {g g' : G} (hg : mode g = .exclusive)
    (hg' : mode g' ≠ .out) : g' = g := by
  have hwriter := (h.exclusive g).mp hg
  have hempty : l.readers = ∅ := h.apart fun hnone =>
    Option.some_ne_none g (hwriter.symm.trans hnone)
  cases hm : mode g' with
  | out => exact absurd hm hg'
  | shared =>
      have hmem := (h.shared g').mp hm
      rw [hempty] at hmem
      exact absurd hmem (Finset.notMem_empty g')
  | exclusive => exact Option.some.inj (((h.exclusive g').mp hm).symm.trans hwriter)

/-- Nobody writes where one reads. -/
theorem writer_none (h : l.Agrees mode) {g : G} (hg : mode g = .shared) : l.writer = none := by
  by_contra hne
  have hmem := (h.shared g).mp hg
  rw [h.apart hne] at hmem
  exact Finset.notMem_empty g hmem

theorem congr (h : l.Agrees mode) (hmode : ∀ g, mode' g = mode g) : l.Agrees mode' := by
  have heq : mode' = mode := funext hmode
  rwa [heq]

variable [DecidableEq G]

theorem rlock (h : l.Agrees mode) {g : G} (hfree : l.writer = none)
    (hg : mode' g = .shared) (hne : ∀ g', g' ≠ g → mode' g' = mode g') :
    (l.rlock g).Agrees mode' where
  shared g' := by
    by_cases hg' : g' = g
    · subst hg'
      exact iff_of_true hg (Finset.mem_insert_self g' _)
    · rw [hne g' hg', h.shared]
      exact (Finset.mem_insert.trans (or_iff_right hg')).symm
  exclusive g' := by
    by_cases hg' : g' = g
    · subst hg'
      refine iff_of_false (by rw [hg]; exact Mode.noConfusion) fun hw => ?_
      exact Option.some_ne_none g' (hw.symm.trans hfree)
    · rw [hne g' hg']
      exact h.exclusive g'
  apart hw := absurd hfree hw

theorem runlock (h : l.Agrees mode) {g : G} (hin : mode g = .shared)
    (hg : mode' g = .out) (hne : ∀ g', g' ≠ g → mode' g' = mode g') :
    (l.runlock g).Agrees mode' where
  shared g' := by
    by_cases hg' : g' = g
    · subst hg'
      exact iff_of_false (by rw [hg]; exact Mode.noConfusion) (Finset.notMem_erase g' _)
    · rw [hne g' hg', h.shared]
      exact ⟨fun hmem => Finset.mem_erase.mpr ⟨hg', hmem⟩, fun hmem => Finset.mem_of_mem_erase hmem⟩
  exclusive g' := by
    by_cases hg' : g' = g
    · subst hg'
      refine iff_of_false (by rw [hg]; exact Mode.noConfusion) fun hw => ?_
      exact Option.some_ne_none g' (hw.symm.trans (h.writer_none hin))
    · rw [hne g' hg']
      exact h.exclusive g'
  apart hw := absurd (h.writer_none hin) hw

theorem lock (h : l.Agrees mode) {g : G} (hfree : l.writer = none) (hempty : l.readers = ∅)
    (hg : mode' g = .exclusive) (hne : ∀ g', g' ≠ g → mode' g' = mode g') :
    (l.lock g).Agrees mode' where
  shared g' := by
    by_cases hg' : g' = g
    · subst hg'
      refine iff_of_false (by rw [hg]; exact Mode.noConfusion) fun hmem => ?_
      rw [show (l.lock g').readers = ∅ from hempty] at hmem
      exact Finset.notMem_empty g' hmem
    · rw [hne g' hg']
      exact h.shared g'
  exclusive g' := by
    by_cases hg' : g' = g
    · subst hg'
      exact iff_of_true hg rfl
    · rw [hne g' hg', h.exclusive, hfree]
      refine iff_of_false (fun hw => Option.some_ne_none g' hw.symm) fun hw => ?_
      exact hg' (Option.some.inj hw).symm
  apart _ := hempty

theorem unlock (h : l.Agrees mode) {g : G} (hin : mode g = .exclusive)
    (hg : mode' g = .out) (hne : ∀ g', g' ≠ g → mode' g' = mode g') :
    l.unlock.Agrees mode' where
  shared g' := by
    by_cases hg' : g' = g
    · subst hg'
      refine iff_of_false (by rw [hg]; exact Mode.noConfusion) fun hmem => ?_
      have hshared := (h.shared g').mpr hmem
      rw [hin] at hshared
      exact Mode.noConfusion hshared
    · rw [hne g' hg']
      exact h.shared g'
  exclusive g' := by
    refine iff_of_false (fun hw => ?_) fun hw => Option.some_ne_none g' hw.symm
    by_cases hg' : g' = g
    · subst hg'
      rw [hg] at hw
      exact Mode.noConfusion hw
    · rw [hne g' hg'] at hw
      exact hg' (h.alone hin (by rw [hw]; exact Mode.noConfusion))
  apart hw := absurd rfl hw

end Agrees

end RwLock

end RwLocks
