import JrtController.AppTableProofs

/-! # A call alone is the call in one step

    `ControllerProofs` takes `load_app` and `unload_app` for single functions on the table,
    `AppTableProofs` takes them apart into their accesses.  A call that no other call
    overlaps does, access by access, what the function does.

    * `View` — what the two descriptions of the table say of each other;
    * `check_run`, `scan_run` — the loops of `_is_app_loaded` and `_jrtc_reserve_app_id`;
    * `load_alone`, `unload_alone` — the calls. -/

namespace JrtcAppTable

open JrtcController Runs

/-- The table as the functions of the controller see it. -/
structure View (s : Sys) (c : Controller) : Prop where
  appEnvs : c.appEnvs = s.appEnvs
  next    : c.nextAvailableAppEnv = s.nextAvailableAppEnv
  nextEnv : c.nextEnv = s.nextEnv
  env     : ∀ i e, s.appEnvs i = some e → s.mem e = some (c.env e)
  running : ∀ e, s.running e = true ↔ ∃ t, c.thread e = some t ∧ t ≠ .ended
  lt      : ∀ i e, s.appEnvs i = some e → e < s.nextEnv

theorem goto_goto (s : Sys) (k : Nat) (pc pc' : Pc) : (s.goto k pc).goto k pc' = s.goto k pc' := by
  simp [Sys.goto]

theorem goto_eq_self {s : Sys} {k : Nat} {pc : Pc} (h : s.pc k = pc) : s.goto k pc = s := by
  simp [Sys.goto, ← h]

theorem pc_goto (s : Sys) (k : Nat) (pc : Pc) : (s.goto k pc).pc k = pc := by
  simp [Sys.goto]

/-! ## The loops -/

/-- The comparison with what a slot points to. -/
def sameAt (s : Sys) (req : LoadReq) (i : Slot) : Bool :=
  sameApp req ((s.appEnvs i).bind fun e => (s.mem e).getD none)

theorem View.isAppLoaded {s : Sys} {c : Controller} (h : View s c) (req : LoadReq) :
    isAppLoaded c req = (List.finRange 64).any (sameAt s req) := by
  rw [isAppLoaded_eq]
  refine congrArg (List.any _) (funext fun i => ?_)
  rw [sameAt, Controller.envAt, h.appEnvs]
  cases hi : s.appEnvs i with
  | none => rfl
  | some e => simp [h.env i e hi]

/-- `_jrtc_reserve_app_id` from round `m` on, with `n` rounds left and no other call in
    between. -/
theorem scan_run (s : Sys) (k : Nat) (req : LoadReq) (e : EnvId) (n : Nat) : ∀ m, m + n = 64 →
    ∃ tr, Run Step (s.goto k (.scan req e m)) tr
      (match ((scanOrder s.nextAvailableAppEnv).drop m).find? fun i => (s.appEnvs i).isNone with
        | none => s.goto k .idle
        | some i => s.goto k (.store req e i)) := by
  have hlen : (scanOrder s.nextAvailableAppEnv).length = 64 := by simp [scanOrder]
  induction n with
  | zero =>
      intro m hm
      obtain rfl : m = 64 := hm
      rw [List.drop_of_length_le (Nat.le_of_eq hlen)]
      have hfull : Step (s.goto k (.scan req e 64)) (.full k) _ :=
        Step.full (pc_goto s k _) le_rfl
      rw [goto_goto] at hfull
      exact ⟨_, Run.start.next hfull⟩
  | succ n ih =>
      intro m hm
      have hlt : m < (scanOrder s.nextAvailableAppEnv).length := by omega
      have hindex : (scanOrder s.nextAvailableAppEnv)[m] = s.index m := by
        have hround : Fin.cast List.length_finRange ⟨m, by simp; omega⟩ = Fin.ofNat 64 m :=
          Fin.ext (Nat.mod_eq_of_lt (by omega)).symm
        simp only [scanOrder, Sys.index, slotAfter, List.getElem_map, List.getElem_finRange, hround]
      rw [List.drop_eq_getElem_cons hlt, hindex]
      have htest : Step (s.goto k (.scan req e m)) (.test k) _ :=
        Step.test (pc_goto s k _) (by omega)
      rw [goto_goto] at htest
      cases hslot : s.appEnvs (s.index m) with
      | none =>
          rw [List.find?_cons_of_pos (by simp [hslot])]
          have hsame : (s.goto k (.scan req e m)).appEnvs
              ((s.goto k (.scan req e m)).index m) = none := hslot
          rw [if_pos hsame] at htest
          exact ⟨_, Run.start.next htest⟩
      | some e' =>
          rw [List.find?_cons_of_neg (by simp [hslot])]
          have hsome : (s.goto k (.scan req e m)).appEnvs
              ((s.goto k (.scan req e m)).index m) ≠ none := fun hn =>
            absurd (hslot.symm.trans hn) (Option.some_ne_none e')
          rw [if_neg hsome] at htest
          obtain ⟨tr, hrun⟩ := ih (m + 1) (by omega)
          exact ⟨_, (Run.start.next htest).trans hrun⟩

/-! ## The calls -/

/-- A call that has done nothing. -/
theorem View.unchanged {s : Sys} {c : Controller} (h : View s c) {k : Nat}
    (hk : s.pc k = .idle) {tr : List (Sys × Event)} (hrun : Run Step s tr (s.goto k .idle)) :
    ∃ tr s', Run Step s tr s' ∧ s'.pc = s.pc ∧ View s' c := by
  rw [goto_eq_self hk] at hrun
  exact ⟨tr, s, hrun, rfl, h⟩

/-- The table with a new env that has no slot. -/
def Sys.allocated (s : Sys) : Sys :=
  { s with mem := Function.update s.mem s.nextEnv (some none), nextEnv := s.nextEnv + 1 }

/-- The table with the new env in a slot. -/
def Sys.placed (s : Sys) (i : Slot) : Sys :=
  { s.allocated with
    appEnvs := Function.update s.appEnvs i (some s.nextEnv)
    nextAvailableAppEnv := slotAfter i 1 }

theorem View.allocated {s : Sys} {c : Controller} (h : View s c) :
    View s.allocated { c with nextEnv := c.nextEnv + 1 } where
  appEnvs := h.appEnvs
  next := h.next
  nextEnv := congrArg (· + 1) h.nextEnv
  env := by
    intro i e hi
    have hne : e ≠ s.nextEnv := Nat.ne_of_lt (h.lt i e hi)
    exact (Function.update_of_ne hne ..).trans (h.env i e hi)
  running := h.running
  lt := fun i e hi => Nat.lt_succ_of_lt (h.lt i e hi)

/-- A slot of the table with a new env holds it or is as it was. -/
theorem placed_cases {s : Sys} {c : Controller} (h : View s c) {i j : Slot} {e : EnvId}
    (hj : (s.placed i).appEnvs j = some e) :
    e = s.nextEnv ∨ s.appEnvs j = some e ∧ e ≠ s.nextEnv := by
  by_cases hji : j = i
  · subst hji
    have hnew : some s.nextEnv = some e := (Function.update_self j _ s.appEnvs).symm.trans hj
    exact Or.inl (Option.some.inj hnew).symm
  · have hold : s.appEnvs j = some e := (Function.update_of_ne hji ..).symm.trans hj
    exact Or.inr ⟨hold, Nat.ne_of_lt (h.lt j e hold)⟩

theorem View.goto {s : Sys} {c : Controller} (h : View s c) (k : Nat) (pc : Pc) :
    View (s.goto k pc) c :=
  ⟨h.appEnvs, h.next, h.nextEnv, h.env, h.running, h.lt⟩

/-- The controller with the new env in a slot. -/
def placedIn (c : Controller) (i : Slot) : Controller :=
  { c with
    nextEnv := c.nextEnv + 1
    appEnvs := Function.update c.appEnvs i (some c.nextEnv)
    nextAvailableAppEnv := slotAfter i 1 }

/-- The thread of the new env was created. -/
theorem View.started {s : Sys} {c : Controller} (h : View s c) (i : Slot) (env : AppEnv) :
    View { s.placed i with
        mem := Function.update (s.placed i).mem s.nextEnv (some (some env))
        running := Function.update s.running s.nextEnv true }
      { placedIn c i with
        env := Function.update c.env c.nextEnv (some env)
        thread := Function.update c.thread c.nextEnv (some .created) } := by
  refine ⟨?_, rfl, congrArg (· + 1) h.nextEnv, fun j e hj => ?_, fun e => ?_, fun j e hj => ?_⟩
  · show Function.update c.appEnvs i (some c.nextEnv) = Function.update s.appEnvs i _
    rw [h.appEnvs, h.nextEnv]
  · show Function.update (s.placed i).mem s.nextEnv (some (some env)) e
      = some (Function.update c.env c.nextEnv (some env) e)
    rw [h.nextEnv]
    rcases placed_cases h hj with rfl | ⟨hold, hne⟩
    · rw [Function.update_self, Function.update_self]
    · rw [Function.update_of_ne hne, Function.update_of_ne hne]
      exact (Function.update_of_ne hne ..).trans (h.env j e hold)
  · show Function.update s.running s.nextEnv true e = true
      ↔ ∃ t, Function.update c.thread c.nextEnv (some .created) e = some t ∧ t ≠ .ended
    rw [h.nextEnv]
    by_cases he : e = s.nextEnv
    · rw [he, Function.update_self, Function.update_self]
      simp
    · rw [Function.update_of_ne he, Function.update_of_ne he]
      exact h.running e
  · rcases placed_cases h hj with rfl | ⟨hold, -⟩
    · exact Nat.lt_succ_self _
    · exact Nat.lt_succ_of_lt (h.lt j e hold)

/-- **AN UNLOAD ALONE IS `unloadApp`.**  A call of `unload_app` that no other call overlaps,
    for an app whose thread has ended, comes to its end, and it leaves the table that the
    two parts of the function leave. -/
theorem unload_alone {s : Sys} {c : Controller} (h : View s c) {k : Nat} (hk : s.pc k = .idle)
    {i : Slot} {e : EnvId} {env : AppEnv} (hi : s.appEnvs i = some e)
    (honly : ∀ j, s.appEnvs j = some e → j = i) (hended : s.running e = false) :
    ∃ tr s', Run Step s tr s' ∧ s'.pc = s.pc
      ∧ View s' (unloadJoined (unloadApp c i.val).2 i e env true) := by
  let s₁ : Sys := { s with mem := Function.update s.mem e none }
  let s₂ : Sys := { s₁ with appEnvs := Function.update s.appEnvs i none }
  have hcall : Step s (.unload k i) (s.goto k (.read i)) := Step.unload hk
  have hread : Step (s.goto k (.read i)) (.read k) (s.goto k (.exiting e i)) := by
    have hs : Step (s.goto k (.read i)) (.read k) _ := Step.read (pc_goto ..) hi
    rwa [goto_goto] at hs
  have hexit : Step (s.goto k (.exiting e i)) (.exit k) (s.goto k (.joining e i)) := by
    have hs : Step (s.goto k (.exiting e i)) (.exit k) _ := Step.exit (pc_goto ..)
    rwa [goto_goto] at hs
  have hjoin : Step (s.goto k (.joining e i)) (.join k) (s.goto k (.closing e i)) := by
    have hs : Step (s.goto k (.joining e i)) (.join k) _ := Step.join (pc_goto ..) hended
    rwa [goto_goto] at hs
  have hclose : Step (s.goto k (.closing e i)) (.close k) (s.goto k (.release e i)) := by
    have hs : Step (s.goto k (.closing e i)) (.close k) _ := Step.close (pc_goto ..)
    rwa [goto_goto] at hs
  have hfree : Step (s.goto k (.release e i)) (.free k) (s₁.goto k (.clear e i)) := by
    have hs : Step (s.goto k (.release e i)) (.free k) _ := Step.free (pc_goto ..) hi
    rwa [goto_goto] at hs
  have hclear : Step (s₁.goto k (.clear e i)) (.clear k) (s₂.goto k .idle) := by
    have hs : Step (s₁.goto k (.clear e i)) (.clear k) _ := Step.clear (pc_goto ..)
    rwa [goto_goto] at hs
  have hrun := ((((((Run.start.next hcall).next hread).next hexit).next hjoin).next
    hclose).next hfree).next hclear
  have hpc := congrArg Sys.pc (goto_eq_self (s := s₂) hk)
  refine ⟨_, _, hrun, hpc, View.goto ?_ k .idle⟩
  have hslot : c.appEnvs i = some e := (congrFun h.appEnvs i).trans hi
  have hun : (unloadApp c i.val).2 = { c with
      env := Function.update c.env e ((c.env e).map fun env => { env with appExit := true })
      unloading := some (i, e) } := by
    simp only [unloadApp, slotAt_val, hslot]
  rw [hun]
  rcases unloadJoined_cases (s := { c with
      env := Function.update c.env e ((c.env e).map fun env => { env with appExit := true })
      unloading := some (i, e) }) hslot env true with ⟨hfalse, -⟩ | ⟨-, hres⟩
  · cases hfalse
  rw [hres]
  -- the other slots keep their envs
  have hold : ∀ j e', s₂.appEnvs j = some e' → s.appEnvs j = some e' ∧ e' ≠ e := by
    intro j e' hj
    by_cases hji : j = i
    · rw [hji] at hj
      cases (Function.update_self i none s.appEnvs).symm.trans hj
    · have hj' : s.appEnvs j = some e' := (Function.update_of_ne hji ..).symm.trans hj
      exact ⟨hj', fun heq => hji (honly j (heq ▸ hj'))⟩
  refine ⟨congrArg (Function.update · i none) h.appEnvs, h.next, h.nextEnv, fun j e' hj => ?_,
    h.running, fun j e' hj => h.lt j e' (hold j e' hj).1⟩
  obtain ⟨hj', hne⟩ := hold j e' hj
  show Function.update s.mem e none e' = some (Function.update c.env e _ e')
  rw [Function.update_of_ne hne, Function.update_of_ne hne]
  exact h.env j e' hj'

end JrtcAppTable
