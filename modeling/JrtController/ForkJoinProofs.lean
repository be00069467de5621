import JrtController.RunProofs

/-! # Groups of goroutines that are started and waited for

    A command starts goroutines, waits until all have returned, and may then start more.
    The goroutines run side by side on one shared state.  The group keeps the first error
    that one of them returns with, and every wait returns what is kept.

    * `Outline` — what holds of the shared state while a goroutine is at a point of its
      code, and once it has returned without an error, whatever the others do meanwhile;
    * `Outline.done_of_run` — after a wait without an error, all its goroutines were to do
      is done, and stays so;
    * `err_eq_firstError` — the error that is kept is the first one in time;
    * `waited_of_error` — a wait after an error returns that error again;
    * `length_le`, `can_step` — goroutines that go on, but not for ever, let the command
      end. -/

namespace ForkJoin

open Runs

variable {S G L E : Type*}

/-! ## The group -/

/-- Where a goroutine is: at a point of its code, or it has returned, with an error or
    without one. -/
inductive Turn (G E : Type*) where
  | runs (g : G)
  | returned (e : Option E)

def Turn.error : Turn G E → Option E
  | .runs _ => none
  | .returned e => e

def Turn.Returned : Turn G E → Prop
  | .runs _ => False
  | .returned _ => True

/-- A command: what its goroutines share, those of the phase in progress in the order in
    which they were started, the error the group keeps, and what each wait has returned. -/
structure Cmd (S G E : Type*) where
  shared  : S
  started : List (Turn G E)
  err     : Option E
  waited  : List (Option E)
  isOver    : Bool

def Cmd.init (shared : S) : Cmd S G E := ⟨shared, [], none, [], false⟩

inductive Event (L E : Type*) where
  | go
  /-- a step of the `k`th goroutine, and the error it returns with in that step -/
  | act (k : Nat) (l : L) (e : Option E)
  | wait

def Event.error : Event L E → Option E
  | .act _ _ e => e
  | _ => none

section

variable (code : S → G → L → S → Turn G E → Prop) (phases : List (List G)) (stops : Bool)

/-- The wait is over.  A command that stops at an error does not start the next phase. -/
def Cmd.joined (s : Cmd S G E) : Cmd S G E :=
  { s with
    started := []
    waited := s.waited ++ [s.err]
    isOver := (stops && s.err.isSome) || s.waited.length + 1 == phases.length }

inductive Step : Cmd S G E → Event L E → Cmd S G E → Prop
  | go {s : Cmd S G E} {p : List G} {g : G} :
      s.isOver = false → phases[s.waited.length]? = some p → p[s.started.length]? = some g →
      Step s .go { s with started := s.started ++ [.runs g] }
  | act {s : Cmd S G E} {k : Nat} {g : G} {l : L} {shared : S} {x : Turn G E} :
      s.started[k]? = some (.runs g) → code s.shared g l shared x →
      Step s (.act k l x.error) { s with
        shared := shared, started := s.started.set k x, err := s.err.or x.error }
  | wait {s : Cmd S G E} {p : List G} :
      s.isOver = false → phases[s.waited.length]? = some p → s.started.length = p.length →
      (∀ x ∈ s.started, x.Returned) → Step s .wait (s.joined phases stops)

end

variable {code : S → G → L → S → Turn G E → Prop} {phases : List (List G)} {stops : Bool}

/-! ## What the goroutines do to what they share -/

/-- Assertions for the code of a goroutine.  `P g₀ s g` is for one that was started as `g₀`
    and is at `g`, `Q g₀ s` for one that has returned without an error; every step is as `R`
    says, and what is as `R` says keeps them both. -/
structure Outline (code : S → G → L → S → Turn G E → Prop) (phases : List (List G))
    (R : S → S → Prop) (P : G → S → G → Prop) (Q : G → S → Prop) : Prop where
  start    : ∀ p ∈ phases, ∀ g ∈ p, ∀ s, P g s g
  runs     : ∀ {g₀ s g l s' g'}, P g₀ s g → code s g l s' (.runs g') → P g₀ s' g'
  returns  : ∀ {g₀ s g l s'}, P g₀ s g → code s g l s' (.returned none) → Q g₀ s'
  gives    : ∀ {g₀ s g l s' x}, P g₀ s g → code s g l s' x → R s s'
  stable   : ∀ {g₀ s s' g}, R s s' → P g₀ s g → P g₀ s' g
  stays    : ∀ {g₀ s s'}, R s s' → Q g₀ s → Q g₀ s'

theorem getElem?_concat_iff {α : Type*} {xs : List α} {x y : α} {k : Nat} :
    (xs ++ [x])[k]? = some y ↔ xs[k]? = some y ∨ k = xs.length ∧ x = y := by
  rcases Nat.lt_trichotomy k xs.length with hlt | rfl | hgt
  · rw [List.getElem?_append_left hlt]
    simp [Nat.ne_of_lt hlt]
  · simp
  · rw [List.getElem?_eq_none (by simpa using hgt), List.getElem?_eq_none (Nat.le_of_lt hgt)]
    simp [Nat.ne_of_gt hgt]

/-- The goroutine of the phase in progress that was started as the `k`th one. -/
def Cmd.At (phases : List (List G)) (s : Cmd S G E) (k : Nat) (g₀ : G) : Prop :=
  ∃ p, phases[s.waited.length]? = some p ∧ p[k]? = some g₀

/-- The assertions hold where the goroutines are. -/
structure Cmd.Holds (phases : List (List G)) (P : G → S → G → Prop) (Q : G → S → Prop)
    (s : Cmd S G E) : Prop where
  runs     : ∀ (k : Nat) g, s.started[k]? = some (.runs g) → ∃ g₀, s.At phases k g₀ ∧ P g₀ s.shared g
  returned : ∀ k : Nat, s.started[k]? = some (.returned none) →
    ∃ g₀, s.At phases k g₀ ∧ Q g₀ s.shared
  errs     : s.err = none → ∀ x ∈ s.started, x.error = none
  waited   : ∀ (i : Nat) p, s.waited[i]? = some none → phases[i]? = some p → ∀ g₀ ∈ p, Q g₀ s.shared

section

variable {R : S → S → Prop} {P : G → S → G → Prop} {Q : G → S → Prop} {s s' : Cmd S G E}
  {l : Event L E}

theorem holds_init (shared : S) : (Cmd.init shared : Cmd S G E).Holds phases P Q where
  runs := fun k g h => by simp [Cmd.init] at h
  returned := fun k h => by simp [Cmd.init] at h
  errs := fun _ x hx => (List.not_mem_nil hx).elim
  waited := fun i p h => by simp [Cmd.init] at h

theorem Cmd.Holds.go (h : s.Holds phases P Q) (ho : Outline code phases R P Q) {p : List G}
    {g : G} (hp : phases[s.waited.length]? = some p) (hg : p[s.started.length]? = some g) :
    ({ s with started := s.started ++ [.runs g] } : Cmd S G E).Holds phases P Q := by
  constructor
  case runs =>
    intro k g' hk
    rcases getElem?_concat_iff.mp hk with hk | ⟨rfl, heq⟩
    · exact h.runs k g' hk
    · cases heq
      exact ⟨g, ⟨p, hp, hg⟩, ho.start p (List.mem_of_getElem? hp) g (List.mem_of_getElem? hg) _⟩
  case returned =>
    intro k hk
    rcases getElem?_concat_iff.mp hk with hk | ⟨-, heq⟩
    · exact h.returned k hk
    · cases heq
  case errs =>
    intro he x hx
    rcases List.mem_append.mp hx with hx | hx
    · exact h.errs he x hx
    · rw [List.mem_singleton.mp hx]
      rfl
  case waited => exact h.waited

theorem Cmd.Holds.act (h : s.Holds phases P Q) (ho : Outline code phases R P Q) {k : Nat}
    {g : G} {l : L} {shared : S} {x : Turn G E} (hk : s.started[k]? = some (.runs g))
    (hc : code s.shared g l shared x) :
    ({ s with shared := shared, started := s.started.set k x, err := s.err.or x.error } :
      Cmd S G E).Holds phases P Q := by
  obtain ⟨g₀, hat, hP⟩ := h.runs k g hk
  have hR : R s.shared shared := ho.gives hP hc
  constructor
  case runs =>
    intro j g' hj
    rw [List.getElem?_set] at hj
    split at hj
    case isTrue hkj =>
      subst hkj
      rw [if_pos (List.getElem?_eq_some_iff.mp hk).1] at hj
      cases hj
      exact ⟨g₀, hat, ho.runs hP hc⟩
    case isFalse =>
      obtain ⟨g₁, hat₁, hP₁⟩ := h.runs j g' hj
      exact ⟨g₁, hat₁, ho.stable hR hP₁⟩
  case returned =>
    intro j hj
    rw [List.getElem?_set] at hj
    split at hj
    case isTrue hkj =>
      subst hkj
      rw [if_pos (List.getElem?_eq_some_iff.mp hk).1] at hj
      cases hj
      exact ⟨g₀, hat, ho.returns hP hc⟩
    case isFalse =>
      obtain ⟨g₁, hat₁, hQ₁⟩ := h.returned j hj
      exact ⟨g₁, hat₁, ho.stays hR hQ₁⟩
  case errs =>
    intro he y hy
    obtain ⟨he, hx⟩ := Option.or_eq_none_iff.mp he
    rcases List.mem_or_eq_of_mem_set hy with hy | rfl
    · exact h.errs he y hy
    · exact hx
  case waited => exact fun i p hi hp g₁ hg₁ => ho.stays hR (h.waited i p hi hp g₁ hg₁)

theorem Cmd.Holds.wait (h : s.Holds phases P Q) {p : List G}
    (hp : phases[s.waited.length]? = some p) (hlen : s.started.length = p.length)
    (hret : ∀ x ∈ s.started, x.Returned) : (s.joined phases stops).Holds phases P Q := by
  constructor
  case runs => exact fun k g hk => by simp [Cmd.joined] at hk
  case returned => exact fun k hk => by simp [Cmd.joined] at hk
  case errs => exact fun _ x hx => (List.not_mem_nil hx).elim
  case waited =>
    intro i p' hi hp' g₀ hg₀
    rcases getElem?_concat_iff.mp hi with hi | ⟨rfl, herr⟩
    · exact h.waited i p' hi hp' g₀ hg₀
    · -- the phase that was waited for: all its goroutines have returned, without an error
      rw [hp] at hp'
      cases hp'
      obtain ⟨k, hk⟩ := List.mem_iff_getElem?.mp hg₀
      have hklt : k < s.started.length := hlen ▸ (List.getElem?_eq_some_iff.mp hk).1
      have hx := List.getElem?_eq_getElem hklt
      have hmem := List.getElem_mem hklt
      cases hturn : s.started[k] with
      | runs g =>
          have hbad := hret _ hmem
          rw [hturn] at hbad
          exact hbad.elim
      | returned e =>
          have he := h.errs herr _ hmem
          rw [hturn] at he hx
          cases (show e = none from he)
          obtain ⟨g₁, ⟨p₁, hp₁, hk₁⟩, hQ⟩ := h.returned k hx
          rw [hp] at hp₁
          cases hp₁
          rw [hk] at hk₁
          cases hk₁
          exact hQ

theorem Outline.step (ho : Outline code phases R P Q) (h : s.Holds phases P Q)
    (hs : Step code phases stops s l s') : s'.Holds phases P Q := by
  cases hs with
  | go _ hp hg => exact h.go ho hp hg
  | act hk hc => exact h.act ho hk hc
  | wait _ hp hlen hret => exact h.wait hp hlen hret

theorem Outline.holds_of_run (ho : Outline code phases R P Q) {shared : S}
    {tr : List (Cmd S G E × Event L E)}
    (hrun : Run (Step code phases stops) (Cmd.init shared) tr s) : s.Holds phases P Q :=
  hrun.invariant (holds_init shared) fun h hs => ho.step h hs

/-- **A PHASE IS DONE** once it was waited for without an error, and it stays done. -/
theorem Outline.done_of_run (ho : Outline code phases R P Q) {shared : S}
    {tr : List (Cmd S G E × Event L E)}
    (hrun : Run (Step code phases stops) (Cmd.init shared) tr s) {i : Nat} {p : List G}
    (hi : s.waited[i]? = some none) (hp : phases[i]? = some p) {g₀ : G} (hg₀ : g₀ ∈ p) :
    Q g₀ s.shared :=
  (ho.holds_of_run hrun).waited i p hi hp g₀ hg₀

end

/-! ## Errors -/

section

variable {s s' : Cmd S G E} {l : Event L E} {shared : S} {tr : List (Cmd S G E × Event L E)}

/-- The first error that a goroutine has returned with. -/
def firstError (tr : List (Cmd S G E × Event L E)) : Option E :=
  tr.findSome? fun x => x.2.error

theorem err_step (hs : Step code phases stops s l s') : s'.err = s.err.or l.error := by
  cases hs with
  | go => exact Option.or_none.symm
  | act => rfl
  | wait => exact Option.or_none.symm

/-- **THE ERROR THAT IS KEPT** is the first one in time. -/
theorem err_eq_firstError (hrun : Run (Step code phases stops) (Cmd.init shared) tr s) :
    s.err = firstError tr := by
  induction hrun with
  | start => rfl
  | next _ hs ih =>
      rw [err_step hs, ih, firstError, firstError, List.findSome?_append,
        List.findSome?_singleton]

/-- What the waits have returned so far, and where that leaves the command. -/
structure Cmd.Waited (phases : List (List G)) (stops : Bool) (s : Cmd S G E) : Prop where
  kept   : ∀ w ∈ s.waited, w ≠ none → w = s.err
  mono   : s.waited.Pairwise fun w w' => w ≠ none → w' = w
  goesOn : stops = true → s.isOver = false → ∀ w ∈ s.waited, w = none
  ended  : s.isOver = true → stops = true ∧ (∃ e, s.waited.getLast? = some (some e))
    ∨ s.waited.length = phases.length

theorem waited_init : (Cmd.init shared : Cmd S G E).Waited phases stops where
  kept := fun _ hw => (List.not_mem_nil hw).elim
  mono := List.Pairwise.nil
  goesOn := fun _ _ _ hw => (List.not_mem_nil hw).elim
  ended := fun h => by cases h

theorem Cmd.Waited.joined (h : s.Waited phases stops) (hover : s.isOver = false) :
    (s.joined phases stops).Waited phases stops where
  kept := by
    intro w hw hne
    rcases List.mem_append.mp hw with hw | hw
    · exact h.kept w hw hne
    · exact List.mem_singleton.mp hw
  mono := by
    refine List.pairwise_append.mpr ⟨h.mono, List.pairwise_singleton _ _, ?_⟩
    intro w hw w' hw' hne
    rw [List.mem_singleton.mp hw']
    exact (h.kept w hw hne).symm
  goesOn := by
    intro hstops hgo w hw
    have hnone : s.err = none := by
      have hgo' : ((stops && s.err.isSome) || s.waited.length + 1 == phases.length) = false := hgo
      rw [hstops, Bool.true_and, Bool.or_eq_false_iff] at hgo'
      exact Option.isNone_iff_eq_none.mp (by simpa using hgo'.1)
    rcases List.mem_append.mp hw with hw | hw
    · exact h.goesOn hstops hover w hw
    · exact (List.mem_singleton.mp hw).trans hnone
  ended := by
    intro hend
    have hend' : ((stops && s.err.isSome) || s.waited.length + 1 == phases.length) = true := hend
    rcases Bool.or_eq_true_iff.mp hend' with hstop | hlast
    · obtain ⟨hstops, herr⟩ := Bool.and_eq_true_iff.mp hstop
      obtain ⟨e, he⟩ := Option.isSome_iff_exists.mp herr
      refine Or.inl ⟨hstops, e, ?_⟩
      rw [← he]
      exact List.getLast?_concat
    · refine Or.inr ?_
      rw [show (s.joined phases stops).waited = s.waited ++ [s.err] from rfl,
        List.length_append, List.length_singleton]
      exact beq_iff_eq.mp hlast

theorem waited_step (h : s.Waited phases stops) (hs : Step code phases stops s l s') :
    s'.Waited phases stops := by
  cases hs with
  | go => exact ⟨h.kept, h.mono, h.goesOn, h.ended⟩
  | act =>
      refine ⟨fun w hw hne => ?_, h.mono, h.goesOn, h.ended⟩
      obtain ⟨e, rfl⟩ := Option.ne_none_iff_exists'.mp hne
      exact (Option.or_eq_some_iff.mpr (Or.inl (h.kept _ hw hne).symm)).symm
  | wait hover => exact h.joined hover

theorem waited_of_run (hrun : Run (Step code phases stops) (Cmd.init shared) tr s) :
    s.Waited phases stops :=
  hrun.invariant waited_init waited_step

/-- **AFTER AN ERROR** every wait returns that error again, whatever else has failed. -/
theorem waited_of_error (hrun : Run (Step code phases stops) (Cmd.init shared) tr s) {i j : Nat}
    {e : E} {w : Option E} (hij : i < j) (hi : s.waited[i]? = some (some e))
    (hj : s.waited[j]? = some w) : w = some e := by
  obtain ⟨hilt, hie⟩ := List.getElem?_eq_some_iff.mp hi
  obtain ⟨hjlt, hje⟩ := List.getElem?_eq_some_iff.mp hj
  have hmono := List.pairwise_iff_getElem.mp (waited_of_run hrun).mono i j hilt hjlt hij
  rw [hie, hje] at hmono
  exact hmono (Option.some_ne_none e)

end

/-! ## The end -/

section

variable {s s' : Cmd S G E} {l : Event L E} {shared : S} {tr : List (Cmd S G E × Event L E)}

def Turn.weight (w : G → Nat) : Turn G E → Nat
  | .runs g => w g
  | .returned _ => 0

/-- How much a phase has before it. -/
def phaseWeight (w : G → Nat) (p : List G) : Nat := (p.map fun g => w g + 1).sum

/-- How much the command has before it. -/
def Cmd.weight (w : G → Nat) (phases : List (List G)) (s : Cmd S G E) : Nat :=
  (s.started.map (Turn.weight w)).sum
    + phaseWeight w ((phases[s.waited.length]?.getD []).drop s.started.length)
    + ((phases.drop (s.waited.length + 1)).map (phaseWeight w)).sum
    + (phases.length - s.waited.length)

theorem sum_set_lt {w : G → Nat} {started : List (Turn G E)} {k : Nat} {g : G} {x : Turn G E}
    (hk : started[k]? = some (.runs g)) (hx : x.weight w < w g) :
    ((started.set k x).map (Turn.weight w)).sum < (started.map (Turn.weight w)).sum := by
  induction started generalizing k with
  | nil => simp at hk
  | cons y started ih =>
      cases k with
      | zero =>
          cases hk
          simpa [Turn.weight] using hx
      | succ k =>
          have hlt := ih hk
          simpa using hlt

/-- Every step brings the command nearer to its end, if every step of a goroutine does. -/
theorem weight_step {w : G → Nat} (hw : ∀ {s g l s' x}, code s g l s' x → x.weight w < w g)
    (hs : Step code phases stops s l s') : s'.weight w phases < s.weight w phases := by
  cases hs with
  | @go p g _ hp hg =>
      obtain ⟨hlt, hget⟩ := List.getElem?_eq_some_iff.mp hg
      have hdrop : p.drop s.started.length = g :: p.drop (s.started.length + 1) := by
        rw [← hget]
        exact List.drop_eq_getElem_cons hlt
      simp only [Cmd.weight, hp, Option.getD_some, hdrop, List.length_append,
        List.length_singleton, List.map_append, List.sum_append, phaseWeight, List.map_cons,
        List.sum_cons, List.map_nil, List.sum_nil, Turn.weight]
      omega
  | act hk hc =>
      have hlt := sum_set_lt hk (hw hc)
      simp only [Cmd.weight, List.length_set]
      omega
  | @wait p _ hp hlen _ =>
      have hlt : s.waited.length < phases.length := (List.getElem?_eq_some_iff.mp hp).1
      have hnext : phaseWeight w (phases[s.waited.length + 1]?.getD [])
          + ((phases.drop (s.waited.length + 1 + 1)).map (phaseWeight w)).sum
          = ((phases.drop (s.waited.length + 1)).map (phaseWeight w)).sum := by
        cases hq : phases[s.waited.length + 1]? with
        | none =>
            have hge := List.getElem?_eq_none_iff.mp hq
            rw [List.drop_eq_nil_of_le hge, List.drop_eq_nil_of_le (Nat.le_succ_of_le hge)]
            rfl
        | some q =>
            obtain ⟨hqlt, hqget⟩ := List.getElem?_eq_some_iff.mp hq
            rw [List.drop_eq_getElem_cons hqlt, hqget, List.map_cons, List.sum_cons]
            rfl
      simp only [Cmd.weight, Cmd.joined, List.length_append, List.length_singleton,
        List.length_nil, List.drop_zero, List.map_nil, List.sum_nil]
      omega

/-- **A BOUND ON EVERY RUN.** -/
theorem length_le {w : G → Nat} (hw : ∀ {s g l s' x}, code s g l s' x → x.weight w < w g)
    (hrun : Run (Step code phases stops) (Cmd.init shared) tr s) :
    tr.length ≤ (Cmd.init shared : Cmd S G E).weight w phases := by
  suffices h : tr.length + s.weight w phases ≤ (Cmd.init shared : Cmd S G E).weight w phases from
    Nat.le_of_add_right_le h
  induction hrun with
  | start => simp
  | next _ hs ih =>
      have hlt := weight_step hw hs
      rw [List.length_append, List.length_singleton]
      omega

/-- A command that is not over has as many phases before it as it has not waited for. -/
theorem phase_of_run (hphases : phases ≠ [])
    (hrun : Run (Step code phases stops) (Cmd.init shared) tr s) (hover : s.isOver = false) :
    s.waited.length < phases.length ∧ s.started.length ≤ (phases[s.waited.length]?.getD []).length := by
  have hinv : s.waited.length ≤ phases.length ∧ (s.isOver = false →
      s.waited.length < phases.length ∧
        s.started.length ≤ (phases[s.waited.length]?.getD []).length) := by
    refine hrun.invariant (P := fun s => s.waited.length ≤ phases.length ∧ (s.isOver = false →
      s.waited.length < phases.length ∧
        s.started.length ≤ (phases[s.waited.length]?.getD []).length)) ?_ ?_
    · exact ⟨Nat.zero_le _, fun _ => ⟨List.length_pos_iff.mpr hphases, Nat.zero_le _⟩⟩
    · rintro s l s' ⟨hle, hgo⟩ hs
      cases hs with
      | go hover hp hg =>
          refine ⟨hle, fun _ => ⟨(hgo hover).1, ?_⟩⟩
          have hlt := (List.getElem?_eq_some_iff.mp hg).1
          rw [hp, Option.getD_some, List.length_append, List.length_singleton]
          omega
      | act hk hc =>
          refine ⟨hle, fun hover => ⟨(hgo hover).1, ?_⟩⟩
          rw [List.length_set]
          exact (hgo hover).2
      | wait hover hp hlen hret =>
          have hlt := (List.getElem?_eq_some_iff.mp hp).1
          have hlen' : (s.joined phases stops).waited.length = s.waited.length + 1 := by
            rw [show (s.joined phases stops).waited = s.waited ++ [s.err] from rfl,
              List.length_append, List.length_singleton]
          refine ⟨by omega, fun hnot => ⟨?_, Nat.zero_le _⟩⟩
          have hne : (s.waited.length + 1 == phases.length) = false :=
            (Bool.or_eq_false_iff.mp (show ((stops && s.err.isSome)
              || s.waited.length + 1 == phases.length) = false from hnot)).2
          have := beq_eq_false_iff_ne.mp hne
          omega
  exact hinv.2 hover

/-- **A COMMAND THAT IS NOT OVER CAN GO ON**, if its goroutines can. -/
theorem can_step (hphases : phases ≠ []) (hcode : ∀ s g, ∃ l s' x, code s g l s' x)
    (hrun : Run (Step code phases stops) (Cmd.init shared) tr s) (hover : s.isOver = false) :
    ∃ l s', Step code phases stops s l s' := by
  obtain ⟨hlt, hle⟩ := phase_of_run hphases hrun hover
  have hp := List.getElem?_eq_getElem hlt
  rw [hp, Option.getD_some] at hle
  rcases Nat.lt_or_eq_of_le hle with hmore | hall
  · exact ⟨_, _, Step.go hover hp (List.getElem?_eq_getElem hmore)⟩
  · by_cases hret : ∀ x ∈ s.started, x.Returned
    · exact ⟨_, _, Step.wait hover hp hall hret⟩
    · push Not at hret
      obtain ⟨x, hx, hnot⟩ := hret
      obtain ⟨k, hk⟩ := List.mem_iff_getElem?.mp hx
      cases x with
      | runs g =>
          obtain ⟨l, s', y, hc⟩ := hcode s.shared g
          exact ⟨_, _, Step.act hk hc⟩
      | returned e => exact (hnot trivial).elim

end

end ForkJoin
