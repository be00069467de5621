import JrtController.ControllerProofs

/-! # Who owns an app's env

    `load_app` allocates the env of an app and puts it into a slot before the
    steps that can still fail; `_jrtc_release_app_id` frees what it takes out of a
    slot.  An env is to be in a slot or to have been freed, once.

    * `Owned`, `CallContract` — that, and what each call does to the table;
    * `contract_of_clean` — a call keeps it if no load fails after the allocation;
    * `not_contract` — any other call breaks it: a full table leaks the env, the
      two later failures free it twice;
    * `contract_iff_clean` — hence the condition is exact on every run. -/

namespace JrtcEnvOwnership

open JrtcController JrtcRouter Runs

/-- An env that was allocated is in a slot and not freed, or freed once. -/
structure Owned (s : Controller) : Prop where
  held : ∀ {i e}, s.appEnvs i = some e → s.frees e = 0
  gone : ∀ {e}, e < s.nextEnv → (∀ i, s.appEnvs i ≠ some e) → s.frees e = 1

/-- What a call does to the table and to the envs.  A failed load leaves the table
    as it was and has freed the env it made, if any; a load that returns an id has
    its env in that slot; the env stays there until `unload_app` of that slot takes
    it out and frees it. -/
structure CallContract (s : Controller) (l : CtlCall) (s' : Controller) : Prop where
  defined  : s'.status ≠ .undefined
  owned    : Owned s'
  failed   : ∀ {req out}, l = .load req out → (loadApp s req out).1 = -1 →
    (∀ i, s'.appEnvs i = s.appEnvs i ∧ s'.envAt i = s.envAt i)
      ∧ ∀ e, s.nextEnv ≤ e → e < s'.nextEnv → s'.frees e = 1
  loaded   : ∀ {req out} {i : Slot}, l = .load req out →
    (loadApp s req out).1 = i.val →
    s.appEnvs i = none ∧ s'.appEnvs i = some s.nextEnv ∧ s'.frees s.nextEnv = 0
  kept     : ∀ {i e}, s.appEnvs i = some e →
    (l = .joined true ∧ s.unloading = some (i, e))
      ∨ s'.appEnvs i = some e ∧ s'.frees e = 0
  unloaded : ∀ {i e}, l = .joined true → s.unloading = some (i, e) →
    s'.appEnvs i = none ∧ s'.frees e = 1

/-- Once the env of a load is allocated, the load succeeds: there is a free slot,
    the library opens and the thread is created.  Unloads name a slot. -/
def Clean (s : Controller) : CtlCall → Prop
  | .load req out => (∃ image, Admitted s req image) → out.calloc = true →
      (∃ i, s.appEnvs i = none) ∧ out.dlopen = true ∧ out.pthreadCreate = true
  | .unload appId => 0 ≤ appId ∧ appId < 64
  | _ => True

section

variable {s s' : Controller}

theorem frees_append {evs : List Event} (h : s'.log = s.log ++ evs) (e : EnvId) :
    s'.frees e = s.frees e + evs.count (.free e) := by
  rw [Controller.frees, h, List.count_append]
  rfl

/-- A step of an app frees no env. -/
theorem frees_of_ran {e : EnvId} (hr : Ran s e s') (e' : EnvId) : s'.frees e' = s.frees e' := by
  obtain ⟨evs, hlog, hevs⟩ := hr.log
  rw [frees_append hlog, List.count_eq_zero.mpr, Nat.add_zero]
  intro hmem
  obtain ⟨henv, hfree, -⟩ := hevs _ hmem
  exact hfree (by rw [← henv]; rfl)

/-! ## Calls that break the contract -/

/-- The env of a load that fails with -1 is to be freed once. -/
theorem frees_of_failed {req : LoadReq} {out : LoadOutcome}
    (hr : loadApp s req out = (-1, s')) (hnext : s'.nextEnv = s.nextEnv + 1)
    (h : CallContract s (.load req out) s') : s'.frees s.nextEnv = 1 := by
  refine (h.failed rfl (by rw [hr])).2 s.nextEnv le_rfl ?_
  rw [hnext]
  exact Nat.lt_succ_self _

/-- **A CALL OUTSIDE THE CONDITION BREAKS THE CONTRACT**: the env is never freed if
    the table is full, and twice if the library or the thread fails. -/
theorem not_contract (hw : s.Wf) {l : CtlCall} (hC : ¬ Clean s l)
    (hs : CtlStep s l s') : ¬ CallContract s l s' := by
  intro hc
  have hfresh : s.frees s.nextEnv = 0 := hw.count_fresh le_rfl
  cases hs with
  | @load req out hidle =>
      have heff := loadApp_cases s req out
      generalize hr : loadApp s req out = x at heff hc
      obtain ⟨r, s'⟩ := x
      cases heff with
      | refused hnot =>
          refine hC fun hadm hcalloc => ?_
          rw [hnot hadm] at hcalloc
          cases hcalloc
      | noSlot =>
          have hone := frees_of_failed hr rfl hc
          exact absurd (hfresh.symm.trans hone) Nat.zero_ne_one
      | noLibrary =>
          have hone := frees_of_failed hr rfl hc
          rw [frees_append rfl, hfresh] at hone
          simp at hone
      | noThread =>
          have hone := frees_of_failed hr rfl hc
          rw [frees_append rfl, hfresh] at hone
          simp at hone
      | @loaded _ i _ _ hi hdl hth => exact hC fun _ _ => ⟨⟨i, hi⟩, hdl, hth⟩
  | unload => exact hc.defined (unloadApp_undefined s hC)
  | joined => exact hC trivial
  | register => exact hC trivial
  | configure => exact hC trivial
  | resolve => exact hC trivial
  | closeLibrary => exact hC trivial
  | appReturns => exact hC trivial

/-! ## Calls that keep it -/

/-- A call that is no load and completes no unload, and frees nothing. -/
theorem contract_of_quiet (ho : Owned s) {l : CtlCall} (hload : ∀ req out, l ≠ .load req out)
    (hjoin : l ≠ .joined true) (happ : s'.appEnvs = s.appEnvs)
    (hnext : s'.nextEnv = s.nextEnv) (hfrees : ∀ e, s'.frees e = s.frees e)
    (hst : s'.status ≠ .undefined) : CallContract s l s' where
  defined := hst
  owned := by
    refine ⟨?_, ?_⟩
    · intro i e hi
      rw [hfrees]
      rw [happ] at hi
      exact ho.held hi
    · intro e he hnot
      rw [hfrees]
      rw [hnext] at he
      rw [happ] at hnot
      exact ho.gone he hnot
  failed hl := absurd hl (hload _ _)
  loaded hl := absurd hl (hload _ _)
  kept := by
    intro i e hi
    refine Or.inr ⟨?_, ?_⟩
    · rw [happ, hi]
    · rw [hfrees]
      exact ho.held hi
  unloaded hl := absurd hl hjoin

/-- A load that is refused before it allocates. -/
theorem contract_refused (ho : Owned s) {req : LoadReq} {out : LoadOutcome}
    (hr : loadApp s req out = (-1, s)) (hst : s.status ≠ .undefined) :
    CallContract s (.load req out) s where
  defined := hst
  owned := ho
  failed _ _ := ⟨fun _ => ⟨rfl, rfl⟩, fun e hle hlt => absurd hlt (Nat.not_lt.mpr hle)⟩
  loaded := by
    rintro _ _ i ⟨⟩ hi
    rw [hr] at hi
    exact absurd hi (by simp only; omega)
  kept hi := Or.inr ⟨hi, ho.held hi⟩
  unloaded hl := by cases hl

/-- A load that succeeds. -/
theorem contract_loaded (hw : s.Wf) (ho : Owned s) {req : LoadReq} {out : LoadOutcome}
    {i : Slot} (hi : s.appEnvs i = none) (hr : loadApp s req out = ((i.val : Int), s'))
    (happ : s'.appEnvs = Function.update s.appEnvs i (some s.nextEnv))
    (hnext : s'.nextEnv = s.nextEnv + 1) (hlog : s'.log = s.log)
    (hst : s'.status ≠ .undefined) : CallContract s (.load req out) s' := by
  have hfrees : ∀ e, s'.frees e = s.frees e := by
    intro e
    rw [Controller.frees, hlog]
    rfl
  have hfresh : s.frees s.nextEnv = 0 := hw.count_fresh le_rfl
  have hslot : s'.appEnvs i = some s.nextEnv := by rw [happ, Function.update_self]
  have hkept : ∀ {j e}, s.appEnvs j = some e → s'.appEnvs j = some e := by
    intro j e hj
    rw [happ]
    exact update_of_free hi hj
  refine ⟨hst, ⟨?_, ?_⟩, ?_, ?_, ?_, ?_⟩
  · intro j e hj
    rw [hfrees]
    rw [happ] at hj
    rcases update_some hj with ⟨-, ⟨⟩⟩ | ⟨-, hj⟩
    · exact hfresh
    · exact ho.held hj
  · intro e he hnot
    rw [hfrees]
    have hne : e ≠ s.nextEnv := fun heq => hnot i (by rw [hslot, heq])
    rw [hnext] at he
    have hlt : e < s.nextEnv := Nat.lt_of_le_of_ne (Nat.le_of_lt_succ he) hne
    exact ho.gone hlt fun j hj => hnot j (hkept hj)
  · rintro _ _ ⟨⟩ hneg
    rw [hr] at hneg
    exact absurd hneg (by simp only; omega)
  · rintro _ _ j ⟨⟩ hj
    rw [hr] at hj
    obtain rfl : i = j := Fin.ext (Int.ofNat.inj hj)
    exact ⟨hi, hslot, by rw [hfrees, hfresh]⟩
  · intro j e hj
    exact Or.inr ⟨hkept hj, by rw [hfrees, ho.held hj]⟩
  · intro _ _ hl
    cases hl

/-- An unload that goes through. -/
theorem contract_joined (hw : s.Wf) (ho : Owned s) {i : Slot} {e : EnvId}
    (hwait : s.unloading = some (i, e)) {evs : List Event}
    (happ : s'.appEnvs = Function.update s.appEnvs i none)
    (hnext : s'.nextEnv = s.nextEnv) (hlog : s'.log = s.log ++ evs)
    (hevs : ∀ e', evs.count (.free e') = if e' = e then 1 else 0)
    (hst : s'.status ≠ .undefined) : CallContract s (.joined true) s' := by
  have hi := hw.waiting hwait
  have hfrees : ∀ e', s'.frees e' = s.frees e' + if e' = e then 1 else 0 := by
    intro e'
    rw [frees_append hlog, hevs]
  have hself : s'.frees e = 1 := by rw [hfrees, ho.held hi, if_pos rfl]
  -- no other slot holds the env that is freed
  have hother : ∀ {j e'}, s.appEnvs j = some e' → j ≠ i →
      s'.appEnvs j = some e' ∧ s'.frees e' = 0 := by
    intro j e' hj hne
    have hee : e' ≠ e := fun heq => hne (hw.inj hj (by rw [heq, hi]))
    rw [happ, Function.update_of_ne hne, hfrees, if_neg hee, ho.held hj]
    exact ⟨hj, rfl⟩
  refine ⟨hst, ⟨?_, ?_⟩, ?_, ?_, ?_, ?_⟩
  · intro j e' hj
    rw [happ] at hj
    obtain ⟨hne, hj⟩ := update_none_some hj
    exact (hother hj hne).2
  · intro e' he hnot
    by_cases hee : e' = e
    · rw [hee]
      exact hself
    · rw [hfrees, if_neg hee]
      rw [hnext] at he
      refine ho.gone he fun j hj => ?_
      have hne : j ≠ i := by
        rintro rfl
        exact hee (Option.some.inj (hj.symm.trans hi))
      exact hnot j (hother hj hne).1
  · intro _ _ hl
    cases hl
  · intro _ _ _ hl
    cases hl
  · intro j e' hj
    by_cases hne : j = i
    · subst hne
      obtain rfl := Option.some.inj (hj.symm.trans hi)
      exact Or.inl ⟨rfl, hwait⟩
    · exact Or.inr (hother hj hne)
  · rintro j e' - hj
    rw [hwait] at hj
    obtain ⟨rfl, rfl⟩ := Prod.mk.inj (Option.some.inj hj)
    exact ⟨by rw [happ, Function.update_self], hself⟩

/-- A load that gets as far as the table finds a slot, its library and a thread. -/
theorem contract_load (hw : s.Wf) (ho : Owned s) {req : LoadReq} {out : LoadOutcome}
    (hC : Clean s (.load req out)) (hst : (loadApp s req out).2.status ≠ .undefined) :
    CallContract s (.load req out) (loadApp s req out).2 := by
  have heff := loadApp_cases s req out
  generalize hr : loadApp s req out = x at heff hst ⊢
  obtain ⟨r, s'⟩ := x
  cases heff with
  | refused => exact contract_refused ho hr hst
  | noSlot hadm hcalloc hfull =>
      obtain ⟨i, hi⟩ := (hC ⟨_, hadm⟩ hcalloc).1
      exact absurd hi (hfull i)
  | noLibrary hadm hcalloc _ hdl =>
      rw [(hC ⟨_, hadm⟩ hcalloc).2.1] at hdl
      cases hdl
  | noThread hadm hcalloc _ _ hth =>
      rw [(hC ⟨_, hadm⟩ hcalloc).2.2] at hth
      cases hth
  | loaded _ _ hi => exact contract_loaded hw ho hi hr rfl rfl rfl hst

/-- **A CALL UNDER THE CONDITION KEEPS THE CONTRACT.** -/
theorem contract_of_clean (hw : s.Wf) (ho : Owned s) {l : CtlCall} (hC : Clean s l)
    (hs : CtlStep s l s') : CallContract s l s' := by
  have hst : s'.status ≠ .undefined := hs.defined hw fun appId hl => by
    subst hl
    exact hC
  cases hs.kind hw with
  | load req out hidle => exact contract_load hw ho hC hst
  | unload appId hidle =>
      rcases unloadApp_cases s appId with ⟨hout, -⟩ | ⟨i, -, -, heq⟩ | ⟨i, e, -, -, heq⟩
      · exact absurd hC (slotAt_eq_none.mp hout)
      · rw [heq] at hst ⊢
        exact contract_of_quiet ho (fun _ _ => CtlCall.noConfusion) CtlCall.noConfusion
          rfl rfl (fun _ => rfl) hst
      · rw [heq] at hst ⊢
        exact contract_of_quiet ho (fun _ _ => CtlCall.noConfusion) CtlCall.noConfusion
          rfl rfl (fun _ => rfl) hst
  | @joined i e env dlclosed hrun hwait henv hend _ =>
      rcases unloadJoined_cases (hw.waiting hwait) env dlclosed with ⟨rfl, heq⟩ | ⟨rfl, heq⟩
      · rw [heq] at hst ⊢
        refine contract_of_quiet ho (fun _ _ => CtlCall.noConfusion) ?_ rfl rfl ?_ hst
        · simp
        · intro e'
          rw [frees_append rfl]
          simp
      · rw [heq] at hst ⊢
        refine contract_joined hw ho hwait rfl rfl rfl (fun e' => ?_) hst
        by_cases hee : e' = e
        · rw [if_pos hee, hee]
          simp
        · rw [if_neg hee]
          simp [Ne.symm hee]
  | run hrun hl hr =>
      refine contract_of_quiet ho ?_ ?_ hr.appEnvs hr.nextEnv (frees_of_ran hr) hst
      · rintro req out rfl
        cases hl
      · rintro rfl
        cases hl

theorem owned_init (router : RouterCtx) : Owned (Controller.init router) where
  held h := by cases h
  gone h := absurd h (Nat.not_lt_zero _)

/-- **EACH ENV IS FREED ONCE** on a run, and a failed load leaves the table alone,
    iff in the run no load fails after its env was allocated. -/
theorem contract_iff_clean {router : RouterCtx} {tr : List (Controller × CtlCall)}
    {s : Controller} (h : Run CtlStep (Controller.init router) tr s) :
    Obeys CallContract (Controller.init router) tr s ↔ Meets Clean tr := by
  refine h.obeys_iff_meets (Q := fun s => s.Wf ∧ Owned s)
    ⟨Controller.wf_init router, owned_init router⟩ ?_ ?_
  · rintro s l s' ⟨hw, ho⟩ hC hs
    have hc := contract_of_clean hw ho hC hs
    exact ⟨⟨hw.step hs, hc.owned⟩, hc⟩
  · rintro s l s' ⟨hw, -⟩ hC hs
    exact not_contract hw hC hs

end

/-- The first app is loaded. -/
theorem contract_of_first_load :
    Obeys CallContract (Controller.init World.init.router)
      [(Controller.init World.init.router, .load (plainReq true 0) ⟨true, true, true⟩)]
      (loadApp (Controller.init World.init.router) (plainReq true 0) ⟨true, true, true⟩).2 := by
  refine (contract_iff_clean (Run.start.next (.load ⟨rfl, rfl⟩))).mpr ?_
  intro x hx
  rw [List.mem_singleton.mp hx]
  exact fun _ _ => ⟨⟨0, rfl⟩, rfl, rfl⟩

/-- A library that does not open: its env is freed twice. -/
theorem env_freed_twice : ¬ ∀ (router : RouterCtx) (tr : List (Controller × CtlCall))
    (s : Controller), Run CtlStep (Controller.init router) tr s →
    Obeys CallContract (Controller.init router) tr s := by
  intro h
  have hs : CtlStep (Controller.init World.init.router)
      (.load (plainReq true 0) ⟨true, false, true⟩) _ := .load ⟨rfl, rfl⟩
  obtain ⟨-, hc⟩ := obeys_snoc.mp (h _ _ _ (Run.start.next hs))
  refine not_contract (Controller.wf_init _) ?_ hs hc
  intro hC
  exact Bool.false_ne_true (hC ⟨_, admitted_plainReq _ _ _⟩ rfl).2.1

end JrtcEnvOwnership
