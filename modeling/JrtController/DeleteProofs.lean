import JrtController.RestServerProofs

/-! # Deleting an app

    `DELETE /app/{id}` hands any `i32` to `unload_app`, which indexes `app_envs` with
    it, and consults the store only after the app is gone.

    * `unloadSafe_iff` — the call stays inside the table iff the id names a slot;
    * `honest_iff_findsEntry` — an error means that nothing was unloaded iff every
      DELETE that unloaded an app finds its entry;
    * `findsEntry_of_settled` — it does if the app came through REST and no POST with
      the id waits for the lock. -/

namespace JrtcDelete

open JrtcController JrtcLoadRequest JrtcRestServer Runs

/-! ## The id -/

/-- `unload_app(id)` uses `app_envs` at the index of a slot, the same one before and after
    the wait, and if there is no app at the id it fails and changes nothing. -/
structure UnloadSafe (s : Controller) (id : BitVec 32) : Prop where
  inside  : (unloadApp s id.toInt).2.status ≠ .undefined
  refused : (∀ i, slotAt id.toInt = some i → s.appEnvs i = none) →
    ∃ r < 0, unloadApp s id.toInt = (some r, s)
  before  : (unloadApp s id.toInt).2.appEnvs = s.appEnvs
  after   : ∀ i e, (unloadApp s id.toInt).2.unloading = some (i, e) →
    slotAt id.toInt = some i ∧ ∀ w env dlclosed j, j ≠ i →
      (unloadJoined w i e env dlclosed).appEnvs j = w.appEnvs j

/-- The end of `unload_app` touches one slot. -/
theorem unloadJoined_appEnvs_of_ne {w : Controller} {i j : Slot} {e : EnvId} {env : AppEnv}
    {dlclosed : Bool} (hj : j ≠ i) :
    (unloadJoined w i e env dlclosed).appEnvs j = w.appEnvs j := by
  cases dlclosed with
  | false => rfl
  | true =>
      cases hi : w.appEnvs i with
      | none =>
          simp only [unloadJoined, Bool.not_true, Bool.false_eq_true, if_false, releaseAppId,
            hi]
      | some e' =>
          simp only [unloadJoined, Bool.not_true, Bool.false_eq_true, if_false, releaseAppId,
            hi]
          exact Function.update_of_ne hj _ _

/-- **ONLY THE IDS OF SLOTS ARE SAFE**: nothing checks the id on its way. -/
theorem unloadSafe_iff {s : Controller} (hidle : s.Idle) (id : BitVec 32) :
    UnloadSafe s id ↔ 0 ≤ id.toInt ∧ id.toInt < 64 := by
  constructor
  · intro h
    by_contra hout
    refine h.inside ?_
    rw [unloadApp, slotAt_eq_none.mpr hout]
  · intro hin
    rcases unloadApp_cases s id.toInt with ⟨hnone, -⟩ | ⟨i, hi, hfree, heq⟩ | ⟨i, e, hi, he, heq⟩
    · exact absurd hin (slotAt_eq_none.mp hnone)
    · refine ⟨?_, fun _ => ⟨-1, by decide, heq⟩, by rw [heq], fun j e hwait => ?_⟩
      · rw [heq]
        exact Controller.defined_of_running hidle.1
      · rw [heq] at hwait
        exact absurd (hidle.2.symm.trans hwait) (Option.some_ne_none _).symm
    · refine ⟨?_, fun hfree => ?_, by rw [heq], fun j e' hwait => ?_⟩
      · rw [heq]
        exact Controller.defined_of_running hidle.1
      · exact absurd ((hfree i hi).symm.trans he) (Option.some_ne_none _).symm
      · rw [heq] at hwait
        obtain ⟨rfl, rfl⟩ := Prod.mk.inj (Option.some.inj hwait)
        exact ⟨hi, fun _ _ _ _ hj => unloadJoined_appEnvs_of_ne hj⟩

theorem unloadSafe_zero : UnloadSafe (Controller.init JrtcRouter.World.init.router) 0#32 :=
  (unloadSafe_iff ⟨rfl, rfl⟩ 0#32).mpr (by decide)

/-- The id after the last slot: the code reads past the end of the table. -/
theorem unload_past_table :
    ¬ UnloadSafe (Controller.init JrtcRouter.World.init.router) 64#32 :=
  fun h => h.inside rfl

/-! ## The answer -/

def isError : Answer → Bool
  | .ok _ => false
  | .noContent => false
  | .badRequest _ => true
  | .internalError _ => true
  | .notFound _ => true

/-- A DELETE that answers with an error has unloaded nothing. -/
def Honest (s : Rest) (l : RestCall) (s' : Rest) : Prop :=
  match l with
  | .delete _ => s'.ctl.status ≠ .undefined
      ∧ ∀ a, isError a = true → s'.answers = s.answers ++ [a] →
        s'.ctl.appEnvs = s.ctl.appEnvs ∧ s'.store = s.store
  | .remove n => ∀ id e a, s.removing[n]? = some (id, e) → isError a = true →
      s'.answers = s.answers ++ [a] → e = none ∧ s'.store = s.store
  | _ => True

/-- The id names a slot, and a DELETE that gets the lock finds its entry. -/
def FindsEntry (s : Rest) : RestCall → Prop
  | .delete id => 0 ≤ id ∧ id < 64
  | .remove n => ∀ id e, s.removing[n]? = some (id, e) → ∃ x ∈ s.store, x.id = id
  | _ => True

/-- What every run keeps: a DELETE that waits for the lock has unloaded an app. -/
structure Unloaded (s : Rest) : Prop where
  wf       : s.ctl.Wf
  defined  : s.ctl.status ≠ .undefined
  removing : ∀ x ∈ s.removing, x.2 ≠ none

/-- The answer of a DELETE that has the lock. -/
theorem remove_answers {s : Rest} (n : Nat) (id : Int) :
    (∃ x ∈ s.store, x.id = id) ∧ (s.remove n id).answers = s.answers ++ [.noContent]
      ∨ (¬ ∃ x ∈ s.store, x.id = id)
        ∧ (s.remove n id).answers = s.answers ++ [.notFound "App not found"] := by
  cases hfind : s.store.findIdx? fun x => x.id = id with
  | some index =>
      obtain ⟨hlt, hid, -⟩ := List.findIdx?_eq_some_iff_getElem.mp hfind
      refine Or.inl ⟨⟨_, List.getElem_mem hlt, of_decide_eq_true hid⟩, ?_⟩
      rw [Rest.remove, hfind]
      rfl
  | none =>
      refine Or.inr ⟨fun ⟨x, hx, hid⟩ => ?_, ?_⟩
      · have hno := List.findIdx?_eq_none_iff.mp hfind x hx
        exact of_decide_eq_false hno hid
      · rw [Rest.remove, hfind]
        rfl

namespace Unloaded

variable {s s' : Rest}

theorem step (h : Unloaded s) {l : RestCall} (hs : RestStep s l s')
    (hC : ∀ id, l = .delete id → 0 ≤ id ∧ id < 64) : Unloaded s' where
  wf := (hs.keeps h.wf).1
  defined := hs.defined h.wf h.defined hC
  removing := by
    intro x hx
    cases hs.effect h.wf with
    | quiet _ _ _ hre => exact h.removing x (hre ▸ hx)
    | loaded _ _ _ _ _ _ _ hre => exact h.removing x (hre ▸ hx)
    | pushed _ _ _ _ hre => exact h.removing x (hre ▸ hx)
    | unloaded _ _ _ _ hre =>
        rw [hre, List.mem_append, List.mem_singleton] at hx
        rcases hx with hx | rfl
        · exact h.removing x hx
        · exact Option.some_ne_none _
    | removed _ _ _ _ _ _ hre => exact h.removing x (List.mem_of_mem_eraseIdx (hre ▸ hx))
    | notFound _ _ _ _ _ hre => exact h.removing x (List.mem_of_mem_eraseIdx (hre ▸ hx))

/-- A DELETE that finds its entry is honest. -/
theorem honest (h : Unloaded s) {l : RestCall} (hC : FindsEntry s l)
    (hs : RestStep s l s') : Honest s l s' := by
  cases hs with
  | @delete id hidle =>
      have hdefined := (RestStep.delete hidle).defined h.wf h.defined
        (fun id' hid => by cases hid; exact hC)
      refine ⟨hdefined, fun _ _ _ => ?_⟩
      cases s.delete_effect id with
      | quiet htab hst => exact ⟨htab, hst⟩
  | @remove n id e hidle hreq =>
      intro id' e' a hreq' herr hans
      obtain ⟨rfl, rfl⟩ := Prod.mk.inj (Option.some.inj (hreq.symm.trans hreq'))
      rcases remove_answers n id (s := s) with ⟨-, heq⟩ | ⟨hno, -⟩
      · rw [heq] at hans
        obtain rfl := List.singleton_inj.mp (List.append_cancel_left hans)
        cases herr
      · exact absurd (hC id e hreq) hno
  | post => trivial
  | push => trivial
  | joined => trivial
  | run => trivial

/-- One that does not is not. -/
theorem not_honest (h : Unloaded s) {l : RestCall} (hC : ¬ FindsEntry s l)
    (hs : RestStep s l s') : ¬ Honest s l s' := by
  cases hs with
  | @delete id hidle =>
      intro hhonest
      refine hhonest.1 ?_
      rw [Rest.delete, unloadApp, slotAt_eq_none.mpr hC]
  | @remove n id e hidle hreq =>
      intro hhonest
      have hno : ¬ ∃ x ∈ s.store, x.id = id := by
        intro hex
        refine hC fun id' e' hreq' => ?_
        obtain ⟨rfl, -⟩ := Prod.mk.inj (Option.some.inj (hreq.symm.trans hreq'))
        exact hex
      rcases remove_answers n id (s := s) with ⟨hex, -⟩ | ⟨-, heq⟩
      · exact hno hex
      · exact h.removing (id, e) (List.mem_of_getElem? hreq) (hhonest id e _ hreq rfl heq).1
  | post => exact absurd trivial hC
  | push => exact absurd trivial hC
  | joined => exact absurd trivial hC
  | run => exact absurd trivial hC

end Unloaded

theorem FindsEntry.inTable {s : Rest} {l : RestCall} (h : FindsEntry s l) (id : Int)
    (hl : l = .delete id) : 0 ≤ id ∧ id < 64 := by
  subst hl
  exact h

theorem findsEntry_of_onlyFirst {s : Rest} {l : RestCall}
    (h : OnlyFirst s l) : FindsEntry s l := by
  cases l with
  | delete id =>
      obtain rfl : id = 0 := h
      exact ⟨le_rfl, by decide⟩
  | remove n => exact h.elim
  | post => trivial
  | push => trivial
  | joined => trivial
  | run => trivial

/-- **AN ERROR MEANS THAT NOTHING WAS UNLOADED** all along a run iff each DELETE names a
    slot and, if it unloaded an app, finds its entry in the store. -/
theorem honest_iff_findsEntry {router : JrtcRouter.RouterCtx} {ctl : Controller}
    {tr₀ : List (Controller × CtlCall)} {tr : List (Rest × RestCall)} {s : Rest}
    (h₀ : Run CtlStep (Controller.init router) tr₀ ctl) (hidle : ctl.Idle)
    (h : Run RestStep (Rest.init ctl) tr s) :
    Obeys Honest (Rest.init ctl) tr s ↔ Meets FindsEntry tr :=
  h.obeys_iff_meets (Q := Unloaded)
    ⟨Controller.wf_run h₀, Controller.defined_of_running hidle.1,
      fun _ hx => absurd hx List.not_mem_nil⟩
    (fun hq hc hs => ⟨hq.step hs hc.inTable, hq.honest hc hs⟩)
    (fun hq hc hs => hq.not_honest hc hs)

/-- A POST and then a DELETE of its app. -/
theorem honest_post_delete : ∃ tr s,
    Run RestStep (Rest.init (Controller.init JrtcRouter.World.init.router)) tr s
      ∧ Obeys Honest (Rest.init (Controller.init JrtcRouter.World.init.router)) tr s := by
  obtain ⟨tr, ctl, hrun, hC, hidle, -⟩ := run_post_delete JrtcRouter.World.init.router
  have hpush := hrun.next (@RestStep.push _ 0 _ hidle rfl)
  have hremove := hpush.next (@RestStep.remove _ 0 0 (some 0) hidle rfl)
  refine ⟨_, _, hremove, (honest_iff_findsEntry Run.start ⟨rfl, rfl⟩ hremove).mpr ?_⟩
  refine meets_snoc.mpr ⟨meets_snoc.mpr ⟨fun x hx => findsEntry_of_onlyFirst (hC x hx), trivial⟩, ?_⟩
  rintro id e ⟨⟩
  exact ⟨_, List.mem_singleton_self _, rfl⟩

/-! ## When the entry is found -/

/-- A DELETE names a slot that does not hold an app of the controller itself, and when it
    gets the lock no POST with its id waits for it. -/
def Settled (s : Rest) : RestCall → Prop
  | .delete id => (0 ≤ id ∧ id < 64) ∧ ∀ i e, slotAt id = some i →
      s.ctl.appEnvs i = some e → s.fromRest (some e) = true
  | .remove n => ∀ id e, s.removing[n]? = some (id, e) → s.toPush id = 0
  | _ => True

theorem loadApp_unloading (s : Controller) (req : LoadReq) (out : LoadOutcome) :
    (loadApp s req out).2.unloading = s.unloading := by
  have heff := loadApp_cases s req out
  generalize (loadApp s req out).1 = r, (loadApp s req out).2 = s' at heff
  cases heff <;> rfl

/-- `unload_app` begins to wait in a DELETE only. -/
theorem unloading_cases {s s' : Rest} {l : RestCall} (hw : s.ctl.Wf) (hs : RestStep s l s')
    {i : Slot} {e : EnvId} (h : s'.ctl.unloading = some (i, e)) :
    s.ctl.unloading = some (i, e)
      ∨ ∃ id, l = .delete id ∧ slotAt id = some i ∧ s.ctl.appEnvs i = some e := by
  rcases hs.ctl.1 with heq | ⟨l', hctl, hid⟩
  · exact Or.inl (heq ▸ h)
  generalize s'.ctl = ctl' at h hctl
  cases hctl.kind hw with
  | load req out =>
      rw [loadApp_unloading] at h
      exact Or.inl h
  | unload id hidle =>
      rcases unloadApp_cases s.ctl id with ⟨-, heq⟩ | ⟨j, -, -, heq⟩ | ⟨j, e', hj, he, heq⟩
      · exact Or.inl (by rwa [heq] at h)
      · exact Or.inl (by rwa [heq] at h)
      · rw [heq] at h
        obtain ⟨rfl, rfl⟩ := Prod.mk.inj (Option.some.inj h)
        exact Or.inr ⟨id, hid id rfl, hj, he⟩
  | @joined j e' env dlclosed _ hwait =>
      rcases unloadJoined_cases (hw.waiting hwait) env dlclosed with ⟨-, heq⟩ | ⟨-, heq⟩
      · exact Or.inl (by rwa [heq] at h)
      · rw [heq] at h
        cases h
  | run _ _ hr => exact Or.inl (hr.unloading ▸ h)

/-- A DELETE that comes to wait for the lock is the one that waited for an app's thread. -/
theorem removing_cases {s s' : Rest} {l : RestCall} (hs : RestStep s l s')
    {x : Int × Option EnvId} (hx : x ∈ s'.removing) :
    x ∈ s.removing ∨ ∃ i e, s.ctl.unloading = some (i, e) ∧ x = ((i.val : Int), some e) := by
  cases hs with
  | @post p out =>
      cases s.post_effect p out with
      | quiet _ _ _ hre => exact Or.inl (hre ▸ hx)
      | loaded _ _ _ _ _ _ _ hre => exact Or.inl (hre ▸ hx)
  | push => exact Or.inl hx
  | @delete id =>
      cases s.delete_effect id with
      | quiet _ _ _ hre => exact Or.inl (hre ▸ hx)
  | @joined i e dlclosed ctl hwait =>
      cases dlclosed with
      | false => exact Or.inl hx
      | true =>
          have hre : (s.joined i e ctl true).removing
              = s.removing ++ [((i.val : Int), some e)] := rfl
          rw [hre, List.mem_append, List.mem_singleton] at hx
          exact hx.imp_right fun hx => ⟨i, e, hwait, hx⟩
  | @remove n id e _ hreq =>
      cases Rest.remove_effect hreq with
      | quiet _ _ _ hre => exact Or.inl (hre ▸ hx)
      | removed _ _ _ _ _ _ hre => exact Or.inl (List.mem_of_mem_eraseIdx (hre ▸ hx))
      | notFound _ _ _ _ _ hre => exact Or.inl (List.mem_of_mem_eraseIdx (hre ▸ hx))
  | run => exact Or.inl hx

/-- What runs with settled steps keep: only apps that came through REST are unloaded. -/
structure OnlyRest (s : Rest) : Prop where
  balanced : s.Balanced
  waiting  : ∀ i e, s.ctl.unloading = some (i, e) → s.fromRest (some e) = true
  removing : ∀ x ∈ s.removing, s.fromRest x.2 = true

namespace OnlyRest

variable {s s' : Rest} {l : RestCall}

/-- The entry of an app that came through REST is stored, is about to be, or is about to be
    removed by the DELETE itself. -/
theorem findsEntry (h : OnlyRest s) (hC : Settled s l) : FindsEntry s l := by
  cases l with
  | delete id => exact hC.1
  | remove n =>
      intro id e hreq
      have hmem := List.mem_of_getElem? hreq
      have hremove : 0 < s.toRemove id :=
        List.countP_pos_iff.mpr ⟨(id, e), hmem, decide_eq_true ⟨rfl, h.removing _ hmem⟩⟩
      have hstored : 0 < s.stored id := by
        have hbal := h.balanced.balanced id
        rw [hC id e hreq] at hbal
        omega
      obtain ⟨x, hx, hid⟩ := List.countP_pos_iff.mp hstored
      exact ⟨x, hx, of_decide_eq_true hid⟩
  | post => trivial
  | push => trivial
  | joined => trivial
  | run => trivial

theorem inOrder (h : OnlyRest s) (hC : Settled s l) : InOrder s l := by
  have hfinds := h.findsEntry hC
  cases l with
  | delete id => exact hC.1
  | remove n =>
      intro id e hreq
      exact iff_of_true (h.removing _ (List.mem_of_getElem? hreq)) (hfinds id e hreq)
  | post => trivial
  | push => trivial
  | joined => trivial
  | run => trivial

theorem step (h : OnlyRest s) (hC : Settled s l) (hs : RestStep s l s') : OnlyRest s' := by
  have hpay := hs.ctl.2
  have hwf := h.balanced.wf
  have hslot : ∀ {i e}, s.ctl.appEnvs i = some e → s'.fromRest (some e) = s.fromRest (some e) :=
    fun hi => Rest.Balanced.fromRest_eq hpay fun x hx =>
      Option.some.inj hx ▸ h.balanced.slot_lt hi
  refine ⟨h.balanced.step (h.inOrder hC) hs, fun i e hwait => ?_, fun x hx => ?_⟩
  · rcases unloading_cases hwf hs hwait with hold | ⟨id, rfl, hid, hi⟩
    · rw [hslot (hwf.waiting hold)]
      exact h.waiting i e hold
    · rw [hslot hi]
      exact hC.2 i e hid hi
  · rcases removing_cases hs hx with hold | ⟨i, e, hwait, rfl⟩
    · rw [h.balanced.fromRest_of_removing hpay hold]
      exact h.removing x hold
    · exact (hslot (hwf.waiting hwait)).trans (h.waiting i e hwait)

end OnlyRest

/-- **THE ENTRY IS FOUND** in every run in which a DELETE is of an app that came through REST
    and no POST with its id waits for the lock when it gets it. -/
theorem findsEntry_of_settled {router : JrtcRouter.RouterCtx} {ctl : Controller}
    {tr₀ : List (Controller × CtlCall)} {tr : List (Rest × RestCall)} {s : Rest}
    (h₀ : Run CtlStep (Controller.init router) tr₀ ctl) (hidle : ctl.Idle)
    (h : Run RestStep (Rest.init ctl) tr s) (hC : Meets Settled tr) : Meets FindsEntry tr := by
  have hinit : OnlyRest (Rest.init ctl) :=
    ⟨Rest.balanced_init (Controller.wf_run h₀) hidle,
      fun i e hwait => absurd (hidle.2.symm.trans hwait) (Option.some_ne_none _).symm,
      fun _ hx => absurd hx List.not_mem_nil⟩
  have halong := h.along_of_meets hinit (fun hq hc hs => hq.step hc hs) hC
  exact fun x hx => (halong.1 x hx).findsEntry (hC x hx)

/-! ## The app that the controller loads itself -/

/-- The request that `load_default_north_io_app` makes: it has no type. -/
def northIoReq (path : String) (data : Image) : LoadReq where
  app := some data
  appName := some "north_io_app"
  runtimeUs := 0
  deadlineUs := 0
  periodUs := 0
  ioqSize := 1000
  appPath := some path
  appType := none
  params := fun _ => ⟨none, none⟩
  deviceMapping := fun _ => ⟨none, none⟩
  appModules := fun _ => none

/-- `load_default_north_io_app`, with the value of `JRTC_APP_PATH`. -/
def loadDefaultNorthIoApp (s : Controller) (appPath : Option String)
    (readFile : String → Option Image) (out : LoadOutcome) : Int × Controller :=
  let name := appPath.getD "" ++ "libjrtc_north_io.so"
  match readFile name with
  | none => (-1, s)
  | some data => loadApp s (northIoReq name data) out

/-- It never went through the store: a DELETE of its id unloads it and answers that there
    was no such app. -/
theorem delete_north_io_app : ∃ ctl tr₀ tr s,
    (loadDefaultNorthIoApp (Controller.init JrtcRouter.World.init.router) none
        (fun _ => some ⟨1, true⟩) ⟨true, true, true⟩) = (0, ctl)
      ∧ Run CtlStep (Controller.init JrtcRouter.World.init.router) tr₀ ctl ∧ ctl.Idle
      ∧ Run RestStep (Rest.init ctl) tr s ∧ ¬ Obeys Honest (Rest.init ctl) tr s := by
  have hload := (@Run.start _ _ CtlStep (Controller.init JrtcRouter.World.init.router)).next
    (@CtlStep.load _ (northIoReq "libjrtc_north_io.so" ⟨1, true⟩) ⟨true, true, true⟩ ⟨rfl, rfl⟩)
  obtain ⟨tr₁, ctl₁, env, hctl, hruns, hst, htab, hwait, ht, henv, -⟩ :=
    exists_run_ended (e := 0) rfl rfl rfl ⟨true, true, true, true, true⟩
      (s := (loadApp (Controller.init JrtcRouter.World.init.router)
        (northIoReq "libjrtc_north_io.so" ⟨1, true⟩) ⟨true, true, true⟩).2)
  obtain ⟨tr₂, hthreads, -⟩ := run_threads (s := Rest.init _) hctl fun x hx => ⟨0, hruns x hx⟩
  obtain ⟨ctl₂, ctl, hdelete, hjoined, hidle, -⟩ := delete_ended (i := 0) (e := 0)
    ⟨hst, hwait⟩ (congrFun htab 0) ht henv (s := Rest.init ctl₁)
  have hremove := ((hthreads.next hdelete).next hjoined).next
    (@RestStep.remove _ 0 0 (some 0) hidle rfl)
  refine ⟨_, _, _, _, rfl, hload, ⟨rfl, rfl⟩, hremove, fun h => ?_⟩
  have hlast := (obeys_snoc.mp h).2 0 (some 0) _ rfl rfl rfl
  exact absurd hlast.1 (Option.some_ne_none 0)

end JrtcDelete
