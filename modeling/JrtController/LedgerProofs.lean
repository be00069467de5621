import Mathlib.Data.Finset.Dedup
import Mathlib.Tactic

/-! # Ledgers

    What a program does with resources it takes and gives back, as a list of entries that
    is read from the front with the set of resources held so far.  Reading fails at a
    resource that is taken while it is held, given back while it is not, or used while it
    is not held.

    * `run_append` — a ledger in two parts;
    * `run_give` — everything that is held can be given back, once;
    * `count_take_add` — a ledger that can be read gives back each resource as often as it
      takes it, up to what is held;
    * `count_filterMap_congr` — counting the calls that made the entries counts the
      entries. -/

namespace Ledgers

variable {α : Type} [DecidableEq α]

inductive Op (α : Type) where
  | take (a : α)
  | give (a : α)
  | use (as : List α)
  deriving DecidableEq

/-- One entry of a ledger, read while `held` is held. -/
def Op.apply (held : Finset α) : Op α → Option (Finset α)
  | .take a => if a ∈ held then none else some (insert a held)
  | .give a => if a ∈ held then some (held.erase a) else none
  | .use as => if ∀ a ∈ as, a ∈ held then some held else none

/-- What is held after a ledger was read. -/
def run (held : Finset α) (ops : List (Op α)) : Option (Finset α) :=
  ops.foldlM Op.apply held

theorem run_append (held : Finset α) (ops ops' : List (Op α)) :
    run held (ops ++ ops') = (run held ops).bind (run · ops') :=
  List.foldlM_append

theorem run_cons (held : Finset α) (op : Op α) (ops : List (Op α)) :
    run held (op :: ops) = (op.apply held).bind (run · ops) :=
  List.foldlM_cons

theorem run_take {held : Finset α} {a : α} (h : a ∉ held) (ops : List (Op α)) :
    run held (.take a :: ops) = run (insert a held) ops := by
  rw [run_cons, Op.apply, if_neg h]
  rfl

theorem run_use {held : Finset α} {as : List α} (h : ∀ a ∈ as, a ∈ held)
    (ops : List (Op α)) : run held (.use as :: ops) = run held ops := by
  rw [run_cons, Op.apply, if_pos h]
  rfl

/-- What is taken and given back at once changes nothing. -/
theorem run_take_give {held : Finset α} {a : α} (h : a ∉ held) (ops : List (Op α)) :
    run held (.take a :: .give a :: ops) = run held ops := by
  rw [run_take h, run_cons, Op.apply, if_pos (Finset.mem_insert_self a held),
    Finset.erase_insert h]
  rfl

/-- **EVERYTHING THAT IS HELD** can be given back. -/
theorem run_give {as : List α} (h : as.Nodup) : run as.toFinset (as.map .give) = some ∅ := by
  induction as with
  | nil => rfl
  | cons a as ih =>
      obtain ⟨ha, has⟩ := List.nodup_cons.mp h
      have hmem : a ∉ as.toFinset := fun h => ha (List.mem_toFinset.mp h)
      rw [List.map_cons, run_cons, Op.apply, List.toFinset_cons,
        if_pos (Finset.mem_insert_self a _), Finset.erase_insert hmem]
      exact ih has

/-- **A LEDGER THAT CAN BE READ** is balanced. -/
theorem count_take_add {held held' : Finset α} {ops : List (Op α)}
    (h : run held ops = some held') (a : α) :
    ops.count (.take a) + (if a ∈ held then 1 else 0)
      = ops.count (.give a) + (if a ∈ held' then 1 else 0) := by
  induction ops generalizing held with
  | nil =>
      cases h
      rfl
  | cons op ops ih =>
      rw [run_cons] at h
      obtain ⟨held₁, hop, hrest⟩ := Option.bind_eq_some_iff.mp h
      have hrest := ih hrest
      cases op with
      | take b =>
          obtain ⟨hb, hheld⟩ := Option.ite_none_left_eq_some.mp hop
          cases hheld
          rw [List.count_cons, List.count_cons_of_ne (by intro h; cases h)]
          grind
      | give b =>
          obtain ⟨hb, hheld⟩ := Option.ite_none_right_eq_some.mp hop
          cases hheld
          rw [List.count_cons_of_ne (by intro h; cases h), List.count_cons]
          grind
      | use as =>
          obtain ⟨-, hheld⟩ := Option.ite_none_right_eq_some.mp hop
          cases hheld
          rw [List.count_cons_of_ne (by intro h; cases h),
            List.count_cons_of_ne (by intro h; cases h)]
          exact hrest

/-- Two readings of the same calls agree on an entry that the same calls make. -/
theorem count_filterMap_congr {β γ δ : Type} [BEq γ] [LawfulBEq γ] [BEq δ] [LawfulBEq δ]
    {f : β → Option γ} {g : β → Option δ} {c : γ} {d : δ}
    (h : ∀ b, f b = some c ↔ g b = some d) (calls : List β) :
    (calls.filterMap f).count c = (calls.filterMap g).count d := by
  have hhit : ∀ {ε : Type} [BEq ε] [LawfulBEq ε] (o : Option ε) (e : ε),
      (o.map (· == e)).getD false = true ↔ o = some e := by
    intro ε _ _ o e
    cases o <;> simp
  rw [List.count, List.count, List.countP_filterMap, List.countP_filterMap]
  refine List.countP_congr fun b _ => ?_
  rw [hhit, hhit, h b]

end Ledgers
