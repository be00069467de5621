import Mathlib.Tactic

/-! # Runs of a labelled transition system

    A system is a relation `step s l s'`; the label carries whatever the
    environment chooses (arguments, allocation results, scheduling).  A run
    records each step it takes together with the state it was taken in, so a
    condition on steps and a property of states can be compared on one run.

    * `Run.invariant` — what every step preserves holds at the end of a run;
    * `Run.along_of_meets` — what a step preserves only under a condition holds
      all along the runs whose steps all meet it;
    * `Run.along_iff_meets` — if a step outside the condition breaks the
      property, the two are equivalent on every run;
    * `Run.obeys_of_meets`, `Run.obeys_iff_meets` — the same for a property of each
      step;
    * `Once` — what holds at some moment of a run;
    * `Run.part`, `Run.lift` — a run of a system seen through one of its parts, and a run of
      a part as one of the system;
    * `exists_run_of_measure` — if wherever the goal is not met some step brings it
      nearer, it can be reached;
    * `lastFor` — the most recent value recorded for a key in a history. -/

namespace Runs

section

variable {S L : Type*} {step : S → L → S → Prop}

/-- `Run step s₀ tr s`: the steps `tr`, oldest first, each with the state it is
    taken in, lead from `s₀` to `s`. -/
inductive Run (step : S → L → S → Prop) (s₀ : S) : List (S × L) → S → Prop
  | start : Run step s₀ [] s₀
  | next {tr : List (S × L)} {s : S} {l : L} {s' : S} :
      Run step s₀ tr s → step s l s' → Run step s₀ (tr ++ [(s, l)]) s'

/-- `P` holds in every state the run passes through, the last one included. -/
def Along (P : S → Prop) (tr : List (S × L)) (s : S) : Prop :=
  (∀ x ∈ tr, P x.1) ∧ P s

/-- Every step of the run is taken under the condition `C`. -/
def Meets (C : S → L → Prop) (tr : List (S × L)) : Prop :=
  ∀ x ∈ tr, C x.1 x.2

theorem along_snoc {P : S → Prop} {tr : List (S × L)} {s s' : S} {l : L} :
    Along P (tr ++ [(s, l)]) s' ↔ Along P tr s ∧ P s' := by
  simp [Along, or_imp, forall_and]

theorem meets_nil {C : S → L → Prop} : Meets C ([] : List (S × L)) :=
  fun _ hx => (List.not_mem_nil hx).elim

theorem meets_snoc {C : S → L → Prop} {tr : List (S × L)} {s : S} {l : L} :
    Meets C (tr ++ [(s, l)]) ↔ Meets C tr ∧ C s l := by
  simp [Meets, or_imp, forall_and]

theorem meets_append {C : S → L → Prop} {tr tr' : List (S × L)} :
    Meets C (tr ++ tr') ↔ Meets C tr ∧ Meets C tr' :=
  List.forall_mem_append

theorem Along.imp {P Q : S → Prop} {tr : List (S × L)} {s : S}
    (h : ∀ s, P s → Q s) (hP : Along P tr s) : Along Q tr s :=
  ⟨fun x hx => h x.1 (hP.1 x hx), h s hP.2⟩

/-- `P` holds in some state the run passes through, the last one included. -/
def Once (P : S → Prop) (tr : List (S × L)) (s : S) : Prop :=
  (∃ x ∈ tr, P x.1) ∨ P s

theorem once_snoc {P : S → Prop} {tr : List (S × L)} {s s' : S} {l : L} :
    Once P (tr ++ [(s, l)]) s' ↔ Once P tr s ∨ P s' := by
  simp [Once, or_and_right, exists_or]

theorem Once.next {P : S → Prop} {tr : List (S × L)} {s s' : S} {l : L}
    (h : Once P tr s) : Once P (tr ++ [(s, l)]) s' :=
  once_snoc.mpr (Or.inl h)

/-- What never holds does not hold once. -/
theorem Along.not_once {P Q : S → Prop} {tr : List (S × L)} {s : S}
    (hP : Along P tr s) (h : ∀ s, P s → ¬ Q s) : ¬ Once Q tr s := by
  rintro (⟨x, hx, hQ⟩ | hQ)
  · exact h x.1 (hP.1 x hx) hQ
  · exact h s hP.2 hQ

theorem Along.prev {P : S → Prop} {tr : List (S × L)} {s s' : S} {l : L}
    (h : Along P (tr ++ [(s, l)]) s') : Along P tr s :=
  (along_snoc.mp h).1

/-- Runs compose. -/
theorem Run.trans {s₀ s₁ s : S} {tr₁ tr₂ : List (S × L)} (h₁ : Run step s₀ tr₁ s₁)
    (h₂ : Run step s₁ tr₂ s) : Run step s₀ (tr₁ ++ tr₂) s := by
  induction h₂ with
  | start => rwa [List.append_nil]
  | next _ hs ih =>
      rw [← List.append_assoc]
      exact ih.next hs

/-- **STEP TO RUN.**  A property of the first state that every step preserves
    holds at the end of every run. -/
theorem Run.invariant {P : S → Prop} {s₀ s : S} {tr : List (S × L)} (h₀ : P s₀)
    (hstep : ∀ {s l s'}, P s → step s l s' → P s') (h : Run step s₀ tr s) :
    P s := by
  induction h with
  | start => exact h₀
  | next _ hs ih => exact hstep ih hs

/-- A property that steps preserve under a condition holds all along the runs
    whose steps all meet the condition. -/
theorem Run.along_of_meets {Q : S → Prop} {C : S → L → Prop} {s₀ s : S}
    {tr : List (S × L)} (h₀ : Q s₀)
    (hkeep : ∀ {s l s'}, Q s → C s l → step s l s' → Q s')
    (h : Run step s₀ tr s) (hC : Meets C tr) : Along Q tr s := by
  induction h with
  | start => exact ⟨fun _ hx => (List.not_mem_nil hx).elim, h₀⟩
  | next _ hs ih =>
      obtain ⟨hCtr, hCs⟩ := meets_snoc.mp hC
      have hQ := ih hCtr
      exact along_snoc.mpr ⟨hQ, hkeep hQ.2 hCs hs⟩

/-- **THE CONDITION IS EXACT.**  Let `Q` be what steps preserve under the
    condition, and let it give `P`.  If a step outside the condition, taken where
    `Q` holds, breaks `P`, then on every run `P` holds all along iff all steps
    meet the condition. -/
theorem Run.along_iff_meets {Q P : S → Prop} {C : S → L → Prop} {s₀ s : S}
    {tr : List (S × L)} (h₀ : Q s₀) (hQP : ∀ s, Q s → P s)
    (hkeep : ∀ {s l s'}, Q s → C s l → step s l s' → Q s')
    (hbreak : ∀ {s l s'}, Q s → ¬ C s l → step s l s' → ¬ P s')
    (h : Run step s₀ tr s) : Along P tr s ↔ Meets C tr := by
  refine ⟨fun hP => ?_, fun hC => (h.along_of_meets h₀ hkeep hC).imp hQP⟩
  induction h with
  | start => exact meets_nil
  | next hrun hs ih =>
      obtain ⟨hPtr, hPs⟩ := along_snoc.mp hP
      have hCtr := ih hPtr
      refine meets_snoc.mpr ⟨hCtr, ?_⟩
      by_contra hC
      exact hbreak (hrun.along_of_meets h₀ hkeep hCtr).2 hC hs hPs

/-- Every step the run takes is as `P` says, which may compare the states before
    and after it. -/
def Obeys (P : S → L → S → Prop) (s₀ : S) (tr : List (S × L)) (s : S) : Prop :=
  Run P s₀ tr s

theorem obeys_snoc {P : S → L → S → Prop} {s₀ s s' : S} {tr : List (S × L)} {l : L} :
    Obeys P s₀ (tr ++ [(s, l)]) s' ↔ Obeys P s₀ tr s ∧ P s l s' := by
  constructor
  · intro h
    generalize htr : tr ++ [(s, l)] = tr' at h
    cases h with
    | start => simp at htr
    | next hrun hP =>
        obtain ⟨rfl, hx⟩ := List.append_inj' htr rfl
        obtain ⟨rfl, rfl⟩ := Prod.mk.inj (List.singleton_inj.mp hx)
        exact ⟨hrun, hP⟩
  · rintro ⟨hrun, hP⟩
    exact Run.next hrun hP

/-- If a step under the condition keeps `Q` and is as `P` says, so are all steps of
    the runs whose steps all meet the condition. -/
theorem Run.obeys_of_meets {Q : S → Prop} {P : S → L → S → Prop}
    {C : S → L → Prop} {s₀ s : S} {tr : List (S × L)} (h₀ : Q s₀)
    (hkeep : ∀ {s l s'}, Q s → C s l → step s l s' → Q s' ∧ P s l s')
    (h : Run step s₀ tr s) (hC : Meets C tr) : Q s ∧ Obeys P s₀ tr s := by
  induction h with
  | start => exact ⟨h₀, Run.start⟩
  | next _ hs ih =>
      obtain ⟨hCtr, hCs⟩ := meets_snoc.mp hC
      obtain ⟨hQ, hP⟩ := ih hCtr
      have hnext := hkeep hQ hCs hs
      exact ⟨hnext.1, obeys_snoc.mpr ⟨hP, hnext.2⟩⟩

/-- **THE CONDITION IS EXACT, STEP BY STEP.**  If a step under the condition keeps
    `Q` and is as `P` says, and one outside it is not, then on every run all steps
    are as `P` says iff all meet the condition. -/
theorem Run.obeys_iff_meets {Q : S → Prop} {P : S → L → S → Prop}
    {C : S → L → Prop} {s₀ s : S} {tr : List (S × L)} (h₀ : Q s₀)
    (hkeep : ∀ {s l s'}, Q s → C s l → step s l s' → Q s' ∧ P s l s')
    (hbreak : ∀ {s l s'}, Q s → ¬ C s l → step s l s' → ¬ P s l s')
    (h : Run step s₀ tr s) : Obeys P s₀ tr s ↔ Meets C tr := by
  induction h with
  | start => exact ⟨fun _ => meets_nil, fun _ => Run.start⟩
  | next hrun hs ih =>
      rw [obeys_snoc, meets_snoc, ih]
      refine and_congr_right fun hC => ?_
      have hQ := (hrun.obeys_of_meets h₀ hkeep hC).1
      exact ⟨fun hP => not_not.mp fun hn => hbreak hQ hn hs hP,
        fun hc => (hkeep hQ hc hs).2⟩

/-- **STEP BY STEP TO A GOAL.**  If in every state with `P` that is not a goal some step
    under the condition keeps `P` and makes a measure smaller, a goal is reached by steps
    under the condition. -/
theorem exists_run_of_measure {P G : S → Prop} {C : S → L → Prop} (μ : S → Nat)
    (hstep : ∀ s, P s → ¬ G s → ∃ l s', step s l s' ∧ C s l ∧ P s' ∧ μ s' < μ s)
    {s : S} (h : P s) : ∃ tr s', Run step s tr s' ∧ Meets C tr ∧ P s' ∧ G s' := by
  induction hn : μ s using Nat.strong_induction_on generalizing s with
  | _ n ih =>
      by_cases hG : G s
      · exact ⟨[], s, Run.start, meets_nil, h, hG⟩
      · obtain ⟨l, s₁, hs, hC, hP, hlt⟩ := hstep s h hG
        obtain ⟨tr, s', hrun, hmeets, hP', hG'⟩ := ih (μ s₁) (hn ▸ hlt) hP rfl
        refine ⟨[(s, l)] ++ tr, s', (Run.start.next hs).trans hrun, ?_, hP', hG'⟩
        exact meets_append.mpr ⟨meets_snoc.mpr ⟨meets_nil, hC⟩, hmeets⟩

end

/-! ## Parts of a system -/

section

variable {S L T M : Type*} {step : S → L → S → Prop} {stepT : T → M → T → Prop}

/-- The steps of a run that a part takes, with the part's own states and labels. -/
def part (f : S → T) (g : L → Option M) (tr : List (S × L)) : List (T × M) :=
  tr.filterMap fun x => (g x.2).map fun m => (f x.1, m)

/-- A run of the system is a run of the part, if every step is one of the part or leaves
    it as it is. -/
theorem Run.part {f : S → T} {g : L → Option M} {s₀ s : S} {tr : List (S × L)}
    (hstep : ∀ {s l s'}, step s l s' →
      (∃ m, g l = some m ∧ stepT (f s) m (f s')) ∨ g l = none ∧ f s' = f s)
    (h : Run step s₀ tr s) : Run stepT (f s₀) (Runs.part f g tr) (f s) := by
  induction h with
  | start => exact Run.start
  | @next tr s l s' _ hs ih =>
      rw [Runs.part, List.filterMap_append]
      rcases hstep hs with ⟨m, hm, ht⟩ | ⟨hg, heq⟩
      · rw [List.filterMap_cons_some (b := (f s, m)) (by rw [hm]; rfl), List.filterMap_nil]
        exact ih.next ht
      · rw [List.filterMap_cons_none (by rw [hg]; rfl), List.filterMap_nil, List.append_nil,
          heq]
        exact ih

theorem mem_part {f : S → T} {g : L → Option M} {tr : List (S × L)} {y : T × M}
    (h : y ∈ part f g tr) : ∃ x ∈ tr, f x.1 = y.1 ∧ g x.2 = some y.2 := by
  obtain ⟨x, hx, hy⟩ := List.mem_filterMap.mp h
  obtain ⟨m, hm, rfl⟩ := Option.map_eq_some_iff.mp hy
  exact ⟨x, hx, rfl, hm⟩

theorem Along.part {f : S → T} {P : T → Prop} {tr : List (S × L)} {s : S}
    (h : Along (fun s => P (f s)) tr s) (g : L → Option M) :
    Along P (Runs.part f g tr) (f s) := by
  refine ⟨fun y hy => ?_, h.2⟩
  obtain ⟨x, hx, heq, -⟩ := mem_part hy
  exact heq ▸ h.1 x hx

theorem Once.of_part {f : S → T} {g : L → Option M} {P : T → Prop} {tr : List (S × L)} {s : S}
    (h : Once P (part f g tr) (f s)) : Once (fun s => P (f s)) tr s := by
  rcases h with ⟨y, hy, hP⟩ | hP
  · obtain ⟨x, hx, heq, -⟩ := mem_part hy
    exact Or.inl ⟨x, hx, show P (f x.1) from heq ▸ hP⟩
  · exact Or.inr hP

/-- A run of a part is a run of the system around it, if its steps are all ones the system
    lets it take. -/
theorem Run.lift {f : T → S} {g : M → L} {C : T → M → Prop} {t₀ t : T} {tr : List (T × M)}
    (hstep : ∀ {t m t'}, C t m → stepT t m t' → step (f t) (g m) (f t'))
    (h : Run stepT t₀ tr t) (hC : Meets C tr) :
    Run step (f t₀) (tr.map fun x => (f x.1, g x.2)) (f t) := by
  induction h with
  | start => exact Run.start
  | next _ hs ih =>
      obtain ⟨hCtr, hCs⟩ := meets_snoc.mp hC
      rw [List.map_append]
      exact (ih hCtr).next (hstep hCs hs)

end

/-! ## Histories -/

section

variable {K V : Type*} [DecidableEq K]

/-- The most recent value recorded for a key, in a history written oldest
    first. -/
def lastFor (k : K) : List (K × V) → Option V
  | [] => none
  | (k', v) :: rest => (lastFor k rest).or (if k' = k then some v else none)

theorem lastFor_append_self (k : K) (v : V) (log : List (K × V)) :
    lastFor k (log ++ [(k, v)]) = some v := by
  induction log with
  | nil => simp [lastFor]
  | cons x rest ih => simp [lastFor, ih]

theorem lastFor_append_ne {k k' : K} (h : k' ≠ k) (v : V) (log : List (K × V)) :
    lastFor k (log ++ [(k', v)]) = lastFor k log := by
  induction log with
  | nil => simp [lastFor, h]
  | cons x rest ih => simp [lastFor, ih]

/-- A key that was never recorded has no value. -/
theorem lastFor_eq_none {k : K} {log : List (K × V)} (h : ∀ x ∈ log, x.1 ≠ k) :
    lastFor k log = none := by
  induction log with
  | nil => rfl
  | cons x rest ih =>
      rw [lastFor, ih fun y hy => h y (List.mem_cons_of_mem x hy),
        if_neg (h x (List.mem_cons_self ..))]
      rfl

end

end Runs
