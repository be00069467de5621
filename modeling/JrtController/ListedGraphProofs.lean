import Mathlib.Logic.Relation
import Mathlib.Tactic

/-! # Graphs listed node by node

    A graph is given as a list of nodes, each with the nodes it has an edge to.  A
    node may be listed more than once, and then has the edges of all its entries.

    * `acyclic_snoc_iff` — one more entry closes a cycle iff one of its targets reaches
      its node already;
    * `acyclic_iff` — so a cycle shows at an entry, in the graph of the entries before;
    * `acyclic_iff_of_backward` — if every edge leads to a node listed before, it shows
      at an entry of a node that was listed before. -/

namespace ListedGraph

open Relation

variable {α : Type*} {ns : List (α × List α)} {n : α × List α} {a b x y : α}

/-- No node reaches itself. -/
def Acyclic (R : α → α → Prop) : Prop := ∀ x, ¬ TransGen R x x

/-- The edges of the listed entries. -/
def Edge (ns : List (α × List α)) (x y : α) : Prop := ∃ n ∈ ns, n.1 = x ∧ y ∈ n.2

theorem edge_snoc : Edge (ns ++ [n]) x y ↔ Edge ns x y ∨ (x = n.1 ∧ y ∈ n.2) := by
  constructor
  · rintro ⟨m, hm, hx, hy⟩
    rcases List.mem_append.mp hm with hm | hm
    · exact Or.inl ⟨m, hm, hx, hy⟩
    · rw [List.mem_singleton.mp hm] at hx hy
      exact Or.inr ⟨hx.symm, hy⟩
  · rintro (⟨m, hm, hx, hy⟩ | ⟨hx, hy⟩)
    · exact ⟨m, List.mem_append_left _ hm, hx, hy⟩
    · exact ⟨n, List.mem_append_right _ List.mem_cons_self, hx.symm, hy⟩

/-- A path to the node of the new entry needs none of the new edges: they all start
    where it ends. -/
theorem reaches_of_snoc (h : ReflTransGen (Edge (ns ++ [n])) a n.1) :
    ReflTransGen (Edge ns) a n.1 := by
  induction h using ReflTransGen.head_induction_on with
  | refl => exact .refl
  | head hstep _ ih =>
      rcases edge_snoc.mp hstep with hold | ⟨hx, -⟩
      · exact .head hold ih
      · rw [hx]

/-- A path in the larger graph, cut at the last of the new edges. -/
theorem transGen_snoc (h : TransGen (Edge (ns ++ [n])) a b) :
    TransGen (Edge ns) a b
      ∨ ReflTransGen (Edge (ns ++ [n])) a n.1
        ∧ ∃ y ∈ n.2, ReflTransGen (Edge (ns ++ [n])) y b := by
  induction h with
  | single hstep =>
      rcases edge_snoc.mp hstep with hold | ⟨hx, hy⟩
      · exact Or.inl (.single hold)
      · exact Or.inr ⟨hx ▸ .refl, _, hy, .refl⟩
  | tail hpath hstep ih =>
      rcases edge_snoc.mp hstep with hold | ⟨hx, hy⟩
      · rcases ih with hin | ⟨hto, y, hy, hfrom⟩
        · exact Or.inl (hin.tail hold)
        · exact Or.inr ⟨hto, y, hy, hfrom.tail hstep⟩
      · exact Or.inr ⟨hx ▸ hpath.to_reflTransGen, _, hy, .refl⟩

/-- **ONE MORE ENTRY** closes a cycle iff its node is reached from one of its targets. -/
theorem acyclic_snoc_iff : Acyclic (Edge (ns ++ [n]))
    ↔ Acyclic (Edge ns) ∧ ∀ y ∈ n.2, ¬ ReflTransGen (Edge ns) y n.1 := by
  have hmono : ∀ x y, Edge ns x y → Edge (ns ++ [n]) x y :=
    fun _ _ h => edge_snoc.mpr (Or.inl h)
  constructor
  · intro h
    refine ⟨fun x hx => h x (TransGen.mono hmono _ _ hx), fun y hy hreach => ?_⟩
    have hnew : Edge (ns ++ [n]) n.1 y := edge_snoc.mpr (Or.inr ⟨rfl, hy⟩)
    exact h n.1 (.head' hnew (ReflTransGen.mono hmono _ _ hreach))
  · rintro ⟨hold, hnew⟩ x hx
    rcases transGen_snoc hx with hx | ⟨hto, y, hy, hfrom⟩
    · exact hold x hx
    · exact hnew y hy (reaches_of_snoc (hfrom.trans hto))

/-! ## The whole list -/

/-- What holds of every entry and those before it, for a list with one more entry. -/
theorem forall_split_snoc {β : Type*} {l : List β} {c : β} {P : List β → β → Prop} :
    (∀ before d after, l ++ [c] = before ++ d :: after → P before d)
      ↔ (∀ before d after, l = before ++ d :: after → P before d) ∧ P l c := by
  constructor
  · intro h
    refine ⟨fun before d after heq => h before d (after ++ [c]) ?_, h l c [] rfl⟩
    rw [heq, List.append_assoc, List.cons_append]
  · rintro ⟨hold, hnew⟩ before d after heq
    rcases List.eq_nil_or_concat after with rfl | ⟨after', e, rfl⟩
    · obtain ⟨hl, hc⟩ := List.append_inj' heq rfl
      cases hc
      exact hl ▸ hnew
    · rw [List.concat_eq_append, ← List.cons_append, ← List.append_assoc] at heq
      exact hold before d after' (List.append_inj' heq rfl).1

/-- The same, for a list whose entries are read off another's. -/
theorem forall_split_map {β γ : Type*} {f : β → γ} {l : List β} {P : List γ → γ → Prop} :
    (∀ before d after, l.map f = before ++ d :: after → P before d)
      ↔ ∀ before c after, l = before ++ c :: after → P (before.map f) (f c) := by
  constructor
  · rintro h before c after rfl
    exact h _ _ (after.map f) (by rw [List.map_append, List.map_cons])
  · intro h before d after heq
    obtain ⟨l₁, l₂, rfl, rfl, hl₂⟩ := List.map_eq_append_iff.mp heq
    obtain ⟨c, l₃, rfl, rfl, -⟩ := List.map_eq_cons_iff.mp hl₂
    exact h l₁ c l₃ rfl

/-- **A CYCLE SHOWS** at the first entry that closes it. -/
theorem acyclic_iff : Acyclic (Edge ns)
    ↔ ∀ before n after, ns = before ++ n :: after →
      ∀ y ∈ n.2, ¬ ReflTransGen (Edge before) y n.1 := by
  induction ns using List.reverseRecOn with
  | nil =>
      refine iff_of_true (fun x hx => ?_) fun before n after h => by simp at h
      obtain ⟨y, ⟨n, hn, -⟩, -⟩ := TransGen.head'_iff.mp hx
      exact List.not_mem_nil hn
  | append_singleton ns n ih => rw [acyclic_snoc_iff, ih, forall_split_snoc]

/-- Every edge leads to a node that was listed before. -/
def Backward (ns : List (α × List α)) : Prop :=
  ∀ before n after, ns = before ++ n :: after → ∀ y ∈ n.2, y ∈ before.map Prod.fst

/-- From a listed node only listed nodes are reached. -/
theorem Backward.mem_of_reaches (h : Backward ns) (hy : y ∈ ns.map Prod.fst)
    (hreach : ReflTransGen (Edge ns) y x) : x ∈ ns.map Prod.fst := by
  induction hreach with
  | refl => exact hy
  | tail _ hstep _ =>
      obtain ⟨n, hn, -, hz⟩ := hstep
      obtain ⟨before, after, rfl⟩ := List.append_of_mem hn
      rw [List.map_append]
      exact List.mem_append_left _ (h before n after rfl _ hz)

theorem Backward.of_append {before after : List (α × List α)}
    (h : Backward (before ++ after)) : Backward before := by
  rintro before' n after' rfl y hy
  exact h before' n (after' ++ after) (by rw [List.append_assoc, List.cons_append]) y hy

/-- **WHERE EDGES LEAD BACK** a cycle is closed only by a node that is listed again. -/
theorem acyclic_iff_of_backward (h : Backward ns) : Acyclic (Edge ns)
    ↔ ∀ before n after, ns = before ++ n :: after → n.1 ∈ before.map Prod.fst →
      ∀ y ∈ n.2, ¬ ReflTransGen (Edge before) y n.1 := by
  rw [acyclic_iff]
  constructor
  · intro hall before n after heq _
    exact hall before n after heq
  · intro hall before n after heq y hy hreach
    have hback : Backward before := Backward.of_append (heq ▸ h)
    have hlisted : n.1 ∈ before.map Prod.fst :=
      hback.mem_of_reaches (h before n after heq y hy) hreach
    exact hall before n after heq hlisted y hy hreach

end ListedGraph
