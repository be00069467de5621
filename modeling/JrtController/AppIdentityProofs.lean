import JrtController.RestServerProofs

/-! # Which application is in a slot

    `_is_app_loaded` is to keep an application from being loaded twice.  For an app
    of type "python" it compares the first parameter, which is the first of an
    iteration over a map, with that of every env; for others the path of the library,
    which for every Python app is that of the loader.

    * `Application` — what makes two apps the same: the path, or the script;
    * `isAppLoaded_python`, `isAppLoaded_native` — what the check compares;
    * `Rest.Recorded` — the envs of live apps have the paths and parameters of the
      payloads;
    * `identified_of_told` — no application is live twice and none is refused for
      another, if the first parameter is the script and no app of the other kind has
      the same. -/

namespace JrtcAppIdentity

open JrtcController JrtcLoadRequest JrtcRestServer IterMaps Runs

/-! ## Applications -/

/-- An application: a library, by its path, or a Python script. -/
inductive Application where
  | native (appPath : String)
  | python (script : String)
  deriving DecidableEq, Repr

/-- The application a payload is for.  The script is the parameter "python". -/
def application (p : Payload) : Option Application :=
  if p.appType = "python" then (p.appParams.get "python").map .python
  else some (.native p.appPath)

theorem application_python_iff {p : Payload} {v : String} :
    application p = some (.python v)
      ↔ p.appType = "python" ∧ p.appParams.get "python" = some v := by
  unfold application
  split
  case _ hpy =>
    simp only [Option.map_eq_some_iff, Application.python.injEq, exists_eq_right, hpy,
      true_and]
  case _ hpy => simp [hpy]

theorem application_native_iff {p : Payload} {path : String} :
    application p = some (.native path) ↔ p.appType ≠ "python" ∧ p.appPath = path := by
  unfold application
  split
  case _ hpy => simp [hpy]
  case _ hpy => simp [hpy]

/-- Slot `i` holds the application `a`.  The apps that the controller loaded itself
    are not Python apps. -/
def RunsAt (s : Rest) (i : Slot) (a : Application) : Prop :=
  ∃ e env, s.ctl.appEnvs i = some e ∧ s.ctl.env e = some env
    ∧ match s.payloadOf e with
      | some p => application p = some a
      | none => a = .native env.appPath

/-- A POST is refused since `_is_app_loaded` finds its app. -/
def AlreadyLoaded (s : Rest) (p : Payload) : Prop :=
  p.Convertible ∧ p.app.size ≠ 0 ∧ isAppLoaded s.ctl p.cRequest = true

/-- After a step no application is in two slots, and a step that refuses an
    application as already loaded does so where it is in one. -/
structure Identified (s : Rest) (l : RestCall) (s' : Rest) : Prop where
  defined : s'.ctl.status ≠ .undefined
  unique  : ∀ i j a, RunsAt s' i a → RunsAt s' j a → i = j
  refusal : ∀ p out, l = .post p out → AlreadyLoaded s p →
    ∃ i a, application p = some a ∧ RunsAt s i a

/-! ## What the check compares -/

theorem isAppLoaded_python {c : Controller} {p : Payload} (hpy : p.appType = "python") :
    isAppLoaded c p.cRequest = true ↔ ∃ k v i env, p.appParams.entries.head? = some (k, v)
      ∧ c.envAt i = some env ∧ env.params 0 = ⟨some k, some v⟩ := by
  simp only [isAppLoaded, Payload.cRequest, if_pos hpy, cPairs_zero]
  cases p.appParams.entries.head? with
  | none => simp
  | some x =>
      obtain ⟨k, v⟩ := x
      simp only [Option.map_some, List.any_eq_true, List.mem_finRange, true_and]
      constructor
      · rintro ⟨i, hi⟩
        cases henv : c.envAt i with
        | none =>
            rw [henv] at hi
            cases hi
        | some env =>
            rw [henv] at hi
            obtain ⟨hk, hv⟩ := of_decide_eq_true hi
            exact ⟨k, v, i, env, rfl, henv, by rw [← hk, ← hv]⟩
      · rintro ⟨_, _, i, env, ⟨⟩, henv, hpar⟩
        refine ⟨i, ?_⟩
        rw [henv]
        exact decide_eq_true ⟨congrArg KeyValuePair.key hpar, congrArg KeyValuePair.val hpar⟩

theorem isAppLoaded_native {c : Controller} {p : Payload} (hpy : p.appType ≠ "python") :
    isAppLoaded c p.cRequest = true
      ↔ ∃ i env, c.envAt i = some env ∧ env.appPath = p.appPath := by
  simp only [isAppLoaded, Payload.cRequest, if_neg hpy, List.any_eq_true,
    List.mem_finRange, true_and]
  refine exists_congr fun i => ?_
  cases c.envAt i with
  | none => simp
  | some env => simp

/-! ## What every run keeps -/

/-- The first parameter of a Python app, if it has any, is its script. -/
def ScriptFirst (p : Payload) : Prop :=
  p.appType = "python" → ∀ x, p.appParams.entries.head? = some x → x.1 = "python"

/-- With the script first, the first parameter tells the script. -/
theorem ScriptFirst.head_iff {p : Payload} (h : ScriptFirst p) (hpy : p.appType = "python")
    {v : String} : p.appParams.entries.head? = some ("python", v)
      ↔ application p = some (.python v) := by
  rw [application_python_iff, IterMap.get_eq_some_iff]
  constructor
  · exact fun hhead => ⟨hpy, List.mem_of_head? hhead⟩
  · rintro ⟨-, hmem⟩
    obtain ⟨x, l, hcons⟩ := List.exists_cons_of_ne_nil (List.ne_nil_of_mem hmem)
    have hhead : p.appParams.entries.head? = some x := by rw [hcons, List.head?_cons]
    rw [hhead, IterMap.entry_unique (List.mem_of_head? hhead) hmem (h hpy x hhead)]

/-- A payload that the check tells from the live apps of the other kind: the script
    is its first parameter, which no library has, or no Python app has its path. -/
structure Telling (s : Rest) (p : Payload) : Prop where
  scriptFirst : ScriptFirst p
  noNative    : p.appType = "python" → ∀ v i e env,
    p.appParams.entries.head? = some ("python", v) → s.ctl.appEnvs i = some e →
    s.ctl.env e = some env → env.params 0 = ⟨some "python", some v⟩ →
    ∃ q, s.payloadOf e = some q ∧ q.appType = "python"
  noPython    : p.appType ≠ "python" → ∀ i e q, s.ctl.appEnvs i = some e →
    s.payloadOf e = some q → q.appPath = p.appPath → q.appType ≠ "python"

/-- Each POST is told from the live apps, and each DELETE names a slot. -/
def Told (s : Rest) : RestCall → Prop
  | .post p _ => Telling s p
  | .delete id => 0 ≤ id ∧ id < 64
  | _ => True

/-- The env of a live app has path and parameters of its payload, with the script
    first, and no application is live twice. -/
structure Recorded (s : Rest) : Prop where
  wf          : s.ctl.Wf
  defined     : s.ctl.status ≠ .undefined
  env         : ∀ {i e p env}, s.ctl.appEnvs i = some e → s.payloadOf e = some p →
    s.ctl.env e = some env → env.appPath = p.appPath ∧ env.params = cPairs p.appParams
  scriptFirst : ∀ {i e p}, s.ctl.appEnvs i = some e → s.payloadOf e = some p →
    ScriptFirst p
  unique      : ∀ i j a, RunsAt s i a → RunsAt s j a → i = j

namespace Recorded

variable {s s' : Rest}

/-- **NOT MISSED.**  The check finds a live application. -/
theorem isAppLoaded_of_runsAt (h : Recorded s) {p : Payload} (hp : ScriptFirst p)
    {a : Application} (ha : application p = some a) {i : Slot} (hi : RunsAt s i a) :
    isAppLoaded s.ctl p.cRequest = true := by
  obtain ⟨e, env, he, henv, happ⟩ := hi
  have henvAt : s.ctl.envAt i = some env := by
    rw [Controller.envAt, he, Option.bind_some, henv]
  cases a with
  | python v =>
      have hpy := (application_python_iff.mp ha).1
      rw [isAppLoaded_python hpy]
      refine ⟨"python", v, i, env, (hp.head_iff hpy).mpr ha, henvAt, ?_⟩
      split at happ
      case _ q hq =>
        have hqpy := (application_python_iff.mp happ).1
        rw [(h.env he hq henv).2, cPairs_zero,
          ((h.scriptFirst he hq).head_iff hqpy).mpr happ]
        rfl
      case _ => cases happ
  | native path =>
      obtain ⟨hpy, rfl⟩ := application_native_iff.mp ha
      rw [isAppLoaded_native hpy]
      refine ⟨i, env, henvAt, ?_⟩
      split at happ
      case _ q hq =>
        rw [(h.env he hq henv).1]
        exact (application_native_iff.mp happ).2
      case _ => exact (Application.native.inj happ).symm

/-- **NOT MISTAKEN.**  What the check finds is the application. -/
theorem runsAt_of_isAppLoaded (h : Recorded s) {p : Payload} (hp : Telling s p)
    (hload : isAppLoaded s.ctl p.cRequest = true) :
    ∃ i a, application p = some a ∧ RunsAt s i a := by
  have hslot : ∀ {i env}, s.ctl.envAt i = some env →
      ∃ e, s.ctl.appEnvs i = some e ∧ s.ctl.env e = some env := fun hi =>
    Option.bind_eq_some_iff.mp hi
  by_cases hpy : p.appType = "python"
  · obtain ⟨k, v, i, env, hhead, hi, hpar⟩ := (isAppLoaded_python hpy).mp hload
    obtain rfl : k = "python" := hp.scriptFirst hpy _ hhead
    obtain ⟨e, he, henv⟩ := hslot hi
    obtain ⟨q, hq, hqpy⟩ := hp.noNative hpy v i e env hhead he henv hpar
    refine ⟨i, .python v, (hp.scriptFirst.head_iff hpy).mp hhead, e, env, he, henv, ?_⟩
    rw [hq]
    refine ((h.scriptFirst he hq).head_iff hqpy).mp ?_
    rw [(h.env he hq henv).2, cPairs_zero, KeyValuePair.mk.injEq] at hpar
    obtain ⟨⟨x, hx, hk⟩, hv⟩ := hpar.imp_left Option.map_eq_some_iff.mp
    rw [hx, Option.map_some, Option.some.injEq] at hv
    rw [hx, ← hk, ← hv]
  · obtain ⟨i, env, hi, hpath⟩ := (isAppLoaded_native hpy).mp hload
    obtain ⟨e, he, henv⟩ := hslot hi
    refine ⟨i, .native p.appPath, application_native_iff.mpr ⟨hpy, rfl⟩, e, env, he, henv,
      ?_⟩
    cases hq : s.payloadOf e with
    | none => exact congrArg _ hpath.symm
    | some q =>
        have hqpath : q.appPath = p.appPath := (h.env he hq henv).1.symm.trans hpath
        have hqn := hp.noPython hpy i e q he hq hqpath
        exact application_native_iff.mpr ⟨hqn, hqpath⟩

/-- An env that was in its slot before. -/
theorem kept (h : Recorded s) {l : RestCall} (hs : RestStep s l s') {j : Slot} {e : EnvId}
    {env' : AppEnv} (hj : s.ctl.appEnvs j = some e) (henv' : s'.ctl.env e = some env') :
    s'.payloadOf e = s.payloadOf e ∧ ∃ env, s.ctl.env e = some env
      ∧ env'.appPath = env.appPath ∧ env'.params = env.params := by
  obtain ⟨t, ht⟩ := h.wf.slot hj
  have hlt := (h.wf.thread ht).1
  exact ⟨hs.ctl.2 e hlt, (hs.keeps h.wf).2.env hlt henv'⟩

/-- An application in a slot was there before, or a POST for it has just passed the
    check. -/
theorem runsAt_cases (h : Recorded s) {l : RestCall} (hs : RestStep s l s') {j : Slot}
    {a : Application} (hj : RunsAt s' j a) :
    RunsAt s j a ∨ s'.ctl.appEnvs j = some s.ctl.nextEnv
      ∧ ∃ p out, l = .post p out ∧ application p = some a
        ∧ isAppLoaded s.ctl p.cRequest = false := by
  obtain ⟨e, env', hslot, henv', happ⟩ := hj
  rcases hs.slot_cases h.wf hslot with hold | ⟨p, out, handle, hl, hload, rfl, hp, -⟩
  · obtain ⟨hpay, env, henv, hpath, -⟩ := h.kept hs hold henv'
    rw [hpay, hpath] at happ
    exact Or.inl ⟨e, env, hold, henv, happ⟩
  · rw [hp] at happ
    exact Or.inr ⟨hslot, p, out, hl, happ, hload⟩

theorem unique_step (h : Recorded s) {l : RestCall} (hC : Told s l) (hs : RestStep s l s')
    (i j : Slot) (a : Application) (hi : RunsAt s' i a) (hj : RunsAt s' j a) : i = j := by
  -- a POST that has passed the check is for an application that is not live
  have hnew : ∀ {j p out}, l = .post p out → application p = some a →
      isAppLoaded s.ctl p.cRequest = false → ¬ RunsAt s j a := by
    rintro j p out rfl ha hload hj
    rw [h.isAppLoaded_of_runsAt hC.scriptFirst ha hj] at hload
    cases hload
  rcases h.runsAt_cases hs hi with hi | ⟨hi, p, out, hl, ha, hload⟩
  · rcases h.runsAt_cases hs hj with hj | ⟨-, p, out, hl, ha, hload⟩
    · exact h.unique i j a hi hj
    · exact absurd hi (hnew hl ha hload)
  · rcases h.runsAt_cases hs hj with hj | ⟨hj, -⟩
    · exact absurd hj (hnew hl ha hload)
    · exact (hs.keeps h.wf).1.inj hi hj

theorem step (h : Recorded s) {l : RestCall} (hC : Told s l) (hs : RestStep s l s') :
    Recorded s' where
  wf := (hs.keeps h.wf).1
  defined := hs.defined h.wf h.defined fun id hl => by
    subst hl
    exact hC
  env := by
    intro j e p env' hj hp henv'
    rcases hs.slot_cases h.wf hj with hold | ⟨q, _, handle, -, -, -, hq, hfill⟩
    · obtain ⟨hpay, env, henv, hpath, hpar⟩ := h.kept hs hold henv'
      rw [hpath, hpar]
      exact h.env hold (hpay.symm.trans hp) henv
    · obtain rfl := Option.some.inj (hq.symm.trans hp)
      obtain rfl := Option.some.inj (hfill.symm.trans henv')
      exact ⟨rfl, rfl⟩
  scriptFirst := by
    intro j e p hj hp
    rcases hs.slot_cases h.wf hj with hold | ⟨q, _, _, rfl, -, -, hq, -⟩
    · obtain ⟨t, ht⟩ := h.wf.slot hold
      rw [hs.ctl.2 e (h.wf.thread ht).1] at hp
      exact h.scriptFirst hold hp
    · obtain rfl := Option.some.inj (hq.symm.trans hp)
      exact hC.scriptFirst
  unique := h.unique_step hC hs

theorem identified (h : Recorded s) {l : RestCall} (hC : Told s l) (hs : RestStep s l s') :
    Identified s l s' where
  defined := (h.step hC hs).defined
  unique := (h.step hC hs).unique
  refusal := by
    rintro p out rfl ⟨-, -, hload⟩
    exact h.runsAt_of_isAppLoaded hC hload

end Recorded

/-- The apps that the controller loaded itself have different paths. -/
def OwnApps (ctl : Controller) : Prop :=
  ∀ i j env env', ctl.envAt i = some env → ctl.envAt j = some env' →
    env.appPath = env'.appPath → i = j

theorem recorded_init {ctl : Controller} (hw : ctl.Wf) (hidle : ctl.Idle)
    (hown : OwnApps ctl) : Recorded (Rest.init ctl) where
  wf := hw
  defined := Controller.defined_of_running hidle.1
  env := by
    intro i e p env _ hp
    cases hp
  scriptFirst := by
    intro i e p _ hp
    cases hp
  unique := by
    rintro i j a ⟨e, env, he, henv, rfl⟩ ⟨e', env', he', henv', happ⟩
    refine hown i j env env' ?_ ?_ (Application.native.inj happ)
    · exact Option.bind_eq_some_iff.mpr ⟨e, he, henv⟩
    · exact Option.bind_eq_some_iff.mpr ⟨e', he', henv'⟩

/-- **NO APPLICATION TWICE**, and none refused for another, in every run whose POSTs
    are told from the live apps. -/
theorem identified_of_told {router : JrtcRouter.RouterCtx} {ctl : Controller}
    {tr₀ : List (Controller × CtlCall)} {tr : List (Rest × RestCall)} {s : Rest}
    (h₀ : Run CtlStep (Controller.init router) tr₀ ctl) (hidle : ctl.Idle)
    (hown : OwnApps ctl) (h : Run RestStep (Rest.init ctl) tr s) (hC : Meets Told tr) :
    Obeys Identified (Rest.init ctl) tr s :=
  (h.obeys_of_meets (recorded_init (Controller.wf_run h₀) hidle hown)
    (fun hr hc hs => ⟨hr.step hc hs, hr.identified hc hs⟩) hC).2

/-- A Python app with the given parameters. -/
def pythonPayload (appParams : IterMap String String) : Payload :=
  { plainPayload with appPath := "loader.so", appType := "python", appParams := appParams }

theorem convertible_pythonPayload {appParams : IterMap String String}
    (h : ∀ x ∈ appParams.entries, hasNul x.1 = false ∧ hasNul x.2 = false) :
    (pythonPayload appParams).Convertible := by
  constructor
  case appParams => exact fun x hx => h x (List.mem_of_mem_take hx)
  all_goals simp [pythonPayload, plainPayload, hasNul, IterMap.empty]

/-- A Python app whose only parameter is its script. -/
theorem identified_script : ∃ tr s,
    Run RestStep (Rest.init (Controller.init JrtcRouter.World.init.router)) tr s
      ∧ Obeys Identified (Rest.init (Controller.init JrtcRouter.World.init.router)) tr s
      ∧ RunsAt s 0 (.python "app.py") := by
  have hstart : Run RestStep (Rest.init (Controller.init JrtcRouter.World.init.router)) [] _ :=
    Run.start
  have hpost := hstart.next (@RestStep.post _ (pythonPayload (.set .empty "python" "app.py"))
    ⟨true, true, true⟩ ⟨rfl, rfl⟩)
  refine ⟨_, _, hpost, identified_of_told Run.start ⟨rfl, rfl⟩ ?_ hpost ?_, ?_⟩
  · intro i j env env' hi
    cases hi
  · refine meets_snoc.mpr ⟨meets_nil, ?_, ?_, ?_⟩
    · rintro - x ⟨⟩
      rfl
    · intro _ v i e env _ he
      cases he
    · intro hpy
      exact absurd rfl hpy
  · have hconv : (pythonPayload (.set .empty "python" "app.py")).Convertible :=
      convertible_pythonPayload (by simp [IterMap.set, IterMap.others, IterMap.empty, hasNul])
    rw [@Rest.post_loaded _ _ _ 0 hconv rfl]
    exact ⟨0, _, rfl, rfl, rfl⟩

/-- One script, sent twice: the parameters are iterated in two orders, and the app is
    loaded twice. -/
theorem same_script_twice : ¬ ∀ (router : JrtcRouter.RouterCtx) (ctl : Controller)
    (tr₀ : List (Controller × CtlCall)) (tr : List (Rest × RestCall)) (s : Rest),
    Run CtlStep (Controller.init router) tr₀ ctl → ctl.Idle → OwnApps ctl →
    Run RestStep (Rest.init ctl) tr s → Obeys Identified (Rest.init ctl) tr s := by
  intro h
  let params₁ : IterMap String String := ⟨[("python", "app.py"), ("mode", "fast")], by decide⟩
  let params₂ : IterMap String String := ⟨[("mode", "fast"), ("python", "app.py")], by decide⟩
  have hconv₁ : (pythonPayload params₁).Convertible :=
    convertible_pythonPayload (by simp [params₁, hasNul])
  have hconv₂ : (pythonPayload params₂).Convertible :=
    convertible_pythonPayload (by simp [params₂, hasNul])
  have hstart : Run RestStep (Rest.init (Controller.init JrtcRouter.World.init.router)) [] _ :=
    Run.start
  have hfirst := hstart.next
    (@RestStep.post _ (pythonPayload params₁) ⟨true, true, true⟩ ⟨rfl, rfl⟩)
  rw [@Rest.post_loaded _ _ _ 0 hconv₁ rfl] at hfirst
  have hsecond := hfirst.next
    (@RestStep.post _ (pythonPayload params₂) ⟨true, true, true⟩ ⟨rfl, rfl⟩)
  rw [@Rest.post_loaded _ _ _ 1 hconv₂ rfl] at hsecond
  have hobeys := h _ _ _ _ _ Run.start ⟨rfl, rfl⟩ (fun i j env env' hi => by cases hi) hsecond
  have hunique := (obeys_snoc.mp hobeys).2.unique 0 1 (.python "app.py")
    ⟨0, _, rfl, rfl, rfl⟩ ⟨1, _, rfl, rfl, rfl⟩
  cases hunique

end JrtcAppIdentity
