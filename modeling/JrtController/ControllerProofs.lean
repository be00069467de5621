import JrtController.RouterProofs

/-! # The controller's apps

    `jrtc_int.c`: `load_app` and `unload_app` on the table `app_envs`, and the
    thread `run_app` of each loaded app.  The callers of the two are served one at
    a time; `unload_app` waits for the app's thread, and the threads of all apps
    run in between.  The log records what is done to an env, its library and its
    router context; that each is given back once is a statement about it.

    * `loadApp_cases` — what `load_app` does, by the point at which it returns;
    * `Wf` — what every run keeps: an occupied slot holds an env of its own, with a
      thread;
    * `Ran` — what a step of an app's thread leaves alone;
    * `CtlStep.kind` — the kinds of steps, from which the invariants follow. -/

namespace JrtcController

open JrtcReqTable JrtcAppQueue JrtcRouter Runs

/-! ## The data -/

/-- An index of `app_envs`: there are `MAX_NUM_JRTC_APPS` slots. -/
abbrev Slot := Fin 64

/-- A `struct jrtc_app_env`, by the number of the `calloc` that made it. -/
abbrev EnvId := Nat

/-- `key_value_pair_t`; either pointer can be NULL. -/
structure KeyValuePair where
  key : Option String
  val : Option String
  deriving DecidableEq, Repr

/-- The bytes of a shared library: how many there are, and whether the library
    exports `jrtc_start_app`. -/
structure Image where
  size     : Nat
  startApp : Bool
  deriving DecidableEq, Repr

/-- `load_app_request_t`.  The arrays have 255 elements. -/
structure LoadReq where
  app           : Option Image
  appName       : Option String
  runtimeUs     : BitVec 32
  deadlineUs    : BitVec 32
  periodUs      : BitVec 32
  ioqSize       : BitVec 32
  appPath       : Option String
  appType       : Option String
  params        : Fin 255 → KeyValuePair
  deviceMapping : Fin 255 → KeyValuePair
  appModules    : Fin 255 → Option String

/-- `jrtc_sched_policy_e`. -/
inductive SchedPolicy where
  | normal
  | fifo
  | deadline
  deriving DecidableEq, Repr

/-- `jrtc_sched_config_t`. -/
structure SchedConfig where
  schedPolicy     : SchedPolicy
  schedPriority   : Int
  schedRuntimeUs  : BitVec 64
  schedDeadlineUs : BitVec 64
  schedPeriodUs   : BitVec 64
  deriving DecidableEq, Repr

/-- What a `dlopen` returned, by the env it was opened for. -/
structure Handle where
  env   : EnvId
  image : Image
  deriving DecidableEq, Repr

/-- `struct jrtc_app_env`, as `load_app` and `run_app` use it. -/
structure AppEnv where
  appName       : String
  appHandle     : Handle
  dappCtx       : Option AppId
  ioQueueSize   : BitVec 32
  appExit       : Bool
  schedConfig   : SchedConfig
  appPath       : String
  params        : Fin 255 → KeyValuePair
  deviceMapping : Fin 255 → KeyValuePair
  appModules    : Fin 255 → Option String

/-- `struct sched_attr`. -/
structure SchedAttr where
  schedPolicy   : Nat
  schedFlags    : Nat
  schedNice     : Int
  schedPriority : Nat
  schedRuntime  : BitVec 64
  schedDeadline : BitVec 64
  schedPeriod   : BitVec 64
  deriving DecidableEq, Repr

/-- What `jrtc_thread_set_scheduler` asks of the system. -/
inductive SchedCall where
  | nothing
  | setSchedParam (schedPriority : Int)
  | setAttr (attr : SchedAttr)
  deriving DecidableEq, Repr

/-- Where the thread of an app is in `run_app`. -/
inductive Thread where
  /-- the thread was created -/
  | created
  /-- `jrtc_router_register_app` has returned -/
  | registered
  /-- scheduler and name are set -/
  | configured
  /-- in the app's entry point -/
  | inApp
  /-- there is no entry point: in the else branch -/
  | noEntry
  /-- the thread has ended -/
  | ended
  deriving DecidableEq, Repr

/-- What is done to an env, its library and its router context. -/
inductive Event where
  | free (e : EnvId)
  | release (e : EnvId)
  | dlclose (h : Handle)
  | registered (e : EnvId) (ctx : Option AppId)
  | sched (e : EnvId) (call : SchedCall)
  | appStarted (e : EnvId) (ctx : Option AppId)
  | deregister (e : EnvId) (ctx : Option AppId)
  deriving DecidableEq, Repr

/-- The env an event is about. -/
def Event.env : Event → EnvId
  | .free e => e
  | .release e => e
  | .dlclose h => h.env
  | .registered e _ => e
  | .sched e _ => e
  | .appStarted e _ => e
  | .deregister e _ => e

/-- Whether the process goes on.  After an access outside `app_envs` nothing is
    known of it. -/
inductive Status where
  | running
  | aborted
  | undefined
  deriving DecidableEq, Repr

/-- The controller: the table, the envs with the threads of their apps, the
    `unload_app` that waits in `pthread_join`, and the router. -/
structure Controller where
  appEnvs             : Slot → Option EnvId
  nextAvailableAppEnv : Slot
  env                 : EnvId → Option AppEnv
  nextEnv             : EnvId
  thread              : EnvId → Option Thread
  unloading           : Option (Slot × EnvId)
  router              : RouterCtx
  status              : Status
  log                 : List Event

/-- The controller before its first load, with a router as it finds it. -/
def Controller.init (router : RouterCtx) : Controller where
  appEnvs := fun _ => none
  nextAvailableAppEnv := 0
  env := fun _ => none
  nextEnv := 0
  thread := fun _ => none
  unloading := none
  router := router
  status := .running
  log := []

/-- What `app_envs[i]` points to. -/
def Controller.envAt (s : Controller) (i : Slot) : Option AppEnv :=
  (s.appEnvs i).bind s.env

/-! ## The functions -/

/-- The indices in the order `_jrtc_reserve_app_id` tries them. -/
def scanOrder (next : Slot) : List Slot := (List.finRange 64).map (next + ·)

/-- The index some places after another one, in the round. -/
def slotAfter (i : Slot) (n : Nat) : Slot := i + Fin.ofNat 64 n

/-- `_jrtc_reserve_app_id`. -/
def reserveAppId (s : Controller) (e : EnvId) : Option Slot × Controller :=
  match (scanOrder s.nextAvailableAppEnv).find? fun i => (s.appEnvs i).isNone with
  | none => (none, s)
  | some i => (some i, { s with
      appEnvs := Function.update s.appEnvs i (some e)
      nextAvailableAppEnv := i + 1 })

/-- `free` of an env. -/
def freeEnv (s : Controller) (e : EnvId) : Controller :=
  { s with log := s.log ++ [.free e] }

/-- `_jrtc_release_app_id`, for an index in the table. -/
def releaseAppId (s : Controller) (i : Slot) : Controller :=
  match s.appEnvs i with
  | none => s
  | some e => { s with
      appEnvs := Function.update s.appEnvs i none
      log := s.log ++ [.release e, .free e] }

/-- `_is_app_loaded`. -/
def isAppLoaded (s : Controller) (req : LoadReq) : Bool :=
  match req.appType with
  | none => false
  | some appType =>
      if appType = "python" then
        match (req.params 0).key, (req.params 0).val with
        | some key, some val => (List.finRange 64).any fun i =>
            match s.envAt i with
            | none => false
            | some env => (env.params 0).key = some key ∧ (env.params 0).val = some val
        | _, _ => false
      else
        match req.appPath with
        | none => false
        | some appPath => (List.finRange 64).any fun i =>
            match s.envAt i with
            | none => false
            | some env => env.appPath = appPath

/-- The comparison of `_is_app_loaded` with one env.  One that `calloc` has just returned
    has nothing to compare. -/
def sameApp (req : LoadReq) : Option AppEnv → Bool
  | none => false
  | some env =>
      match req.appType with
      | none => false
      | some appType =>
          if appType = "python" then
            match (req.params 0).key, (req.params 0).val with
            | some key, some val => (env.params 0).key = some key ∧ (env.params 0).val = some val
            | _, _ => false
          else
            match req.appPath with
            | none => false
            | some appPath => env.appPath = appPath

/-- `_is_app_loaded` in one step is the comparison with every env of the table. -/
theorem isAppLoaded_eq (s : Controller) (req : LoadReq) :
    isAppLoaded s req = (List.finRange 64).any fun i => sameApp req (s.envAt i) := by
  -- where nothing is looked for, no env is the same app
  have hnone : (∀ env, sameApp req env = false) →
      false = (List.finRange 64).any fun i => sameApp req (s.envAt i) := fun h =>
    (List.any_eq_false.mpr fun i _ => by simp [h]).symm
  unfold isAppLoaded
  cases htype : req.appType with
  | none => exact hnone fun env => by cases env <;> simp [sameApp, htype]
  | some appType =>
      by_cases hpy : appType = "python"
      · simp only [if_pos hpy]
        cases hkey : (req.params 0).key with
        | none => exact hnone fun env => by cases env <;> simp [sameApp, htype, hpy, hkey]
        | some key =>
            cases hval : (req.params 0).val with
            | none =>
                exact hnone fun env => by cases env <;> simp [sameApp, htype, hpy, hkey, hval]
            | some val =>
                refine congrArg (List.any _) (funext fun i => ?_)
                cases s.envAt i <;> simp [sameApp, htype, hpy, hkey, hval]
      · simp only [if_neg hpy]
        cases hpath : req.appPath with
        | none => exact hnone fun env => by cases env <;> simp [sameApp, htype, hpy, hpath]
        | some appPath =>
            refine congrArg (List.any _) (funext fun i => ?_)
            cases s.envAt i <;> simp [sameApp, htype, hpy, hpath]

/-- Whether `_is_app_loaded` has anything to look for. -/
def looksUp (req : LoadReq) : Bool :=
  match req.appType with
  | none => false
  | some appType =>
      if appType = "python" then (req.params 0).key.isSome && (req.params 0).val.isSome
      else req.appPath.isSome

/-- What `load_app` puts into a new env. -/
def fillEnv (req : LoadReq) (handle : Handle) : AppEnv where
  appName := req.appName.getD "jrtc_app"
  appHandle := handle
  dappCtx := none
  ioQueueSize := req.ioqSize
  appExit := false
  schedConfig := {
    schedPolicy := if 0 < req.deadlineUs.setWidth 64 then .deadline else .normal
    schedPriority := 0
    schedRuntimeUs := req.runtimeUs.setWidth 64
    schedDeadlineUs := req.deadlineUs.setWidth 64
    schedPeriodUs := req.periodUs.setWidth 64 }
  appPath := req.appPath.getD "unknown"
  params := req.params
  deviceMapping := req.deviceMapping
  appModules := req.appModules

/-- Whether the calls of a load succeed: the allocation of the env, opening the
    library from memory, creating the thread. -/
structure LoadOutcome where
  calloc        : Bool
  dlopen        : Bool
  pthreadCreate : Bool
  deriving DecidableEq, Repr

/-- `load_app` from the reservation of `appId` on. -/
def loadReserved (s : Controller) (e : EnvId) (appId : Slot) (req : LoadReq)
    (image : Image) (out : LoadOutcome) : Int × Controller :=
  if !out.dlopen then (-1, freeEnv (releaseAppId s appId) e)
  else
    let handle : Handle := ⟨e, image⟩
    let s := { s with env := Function.update s.env e (some (fillEnv req handle)) }
    if !out.pthreadCreate then
      let s : Controller := { s with log := s.log ++ [.dlclose handle] }
      (-1, freeEnv (releaseAppId s appId) e)
    else (appId.val, { s with thread := Function.update s.thread e (some .created) })

/-- `load_app`. -/
def loadApp (s : Controller) (req : LoadReq) (out : LoadOutcome) : Int × Controller :=
  match req.app with
  | none => (-1, s)
  | some image =>
      if image.size = 0 then (-1, s)
      else if isAppLoaded s req then (-1, s)
      else if !out.calloc then (-1, s)
      else
        let e := s.nextEnv
        match reserveAppId { s with nextEnv := e + 1 } e with
        | (none, s) => (-1, s)
        | (some appId, s) => loadReserved s e appId req image out

/-- `jrtc_thread_set_scheduler`.  `SCHED_DEADLINE` is 6. -/
def threadSetScheduler (c : SchedConfig) : SchedCall :=
  match c.schedPolicy with
  | .normal => .nothing
  | .fifo => .setSchedParam c.schedPriority
  | .deadline => .setAttr {
      schedPolicy := 6
      schedFlags := 0
      schedNice := 0
      schedPriority := 0
      schedRuntime := c.schedRuntimeUs * 1000
      schedPeriod := c.schedPeriodUs * 1000
      schedDeadline := c.schedDeadlineUs * 1000 }

/-- A thread moves on, and something may be recorded. -/
def Controller.advance (s : Controller) (e : EnvId) (t : Thread) (evs : List Event) :
    Controller :=
  { s with thread := Function.update s.thread e (some t), log := s.log ++ evs }

/-- `run_app` up to the return of `jrtc_router_register_app`. -/
def runRegister (s : Controller) (e : EnvId) (env : AppEnv) (al : AppAlloc) :
    Controller :=
  let (ctx, router) := registerApp s.router env.ioQueueSize.toNat al
  { s with
    router := router
    env := Function.update s.env e (some { env with dappCtx := ctx })
    : Controller }.advance e .registered [.registered e ctx]

/-- `run_app` up to the `dlsym`: scheduler and name of the thread. -/
def runConfigure (s : Controller) (e : EnvId) (env : AppEnv) : Controller :=
  s.advance e .configured
    (if 0 < env.schedConfig.schedDeadlineUs
      then [.sched e (threadSetScheduler env.schedConfig)] else [])

/-- The `dlsym` of `jrtc_start_app`, and the branch it decides. -/
def runResolve (s : Controller) (e : EnvId) (env : AppEnv) : Controller :=
  if env.appHandle.image.startApp then
    s.advance e .inApp [.appStarted e env.dappCtx]
  else s.advance e .noEntry []

/-- The element of `app_envs` an index denotes: none is outside the table. -/
def slotAt (appId : Int) : Option Slot :=
  if h : 0 ≤ appId ∧ appId < 64 then some ⟨appId.toNat, by omega⟩ else none

/-- `unload_app` until it returns or waits in `pthread_join`. -/
def unloadApp (s : Controller) (appId : Int) : Option Int × Controller :=
  match slotAt appId with
  | none => (none, { s with status := .undefined })
  | some i =>
      match s.appEnvs i with
      | none => (some (-1), s)
      | some e => (none, { s with
          env := Function.update s.env e
            ((s.env e).map fun env => { env with appExit := true })
          unloading := some (i, e) })

/-- `unload_app` from the return of `pthread_join`: a `dlclose` that fails aborts
    the process. -/
def unloadJoined (s : Controller) (i : Slot) (e : EnvId) (env : AppEnv)
    (dlclosed : Bool) : Controller :=
  let s : Controller := { s with log := s.log ++ [.dlclose env.appHandle] }
  if !dlclosed then { s with status := .aborted }
  else
    let ctx := env.dappCtx.bind s.router.ctx
    let s : Controller := { s with
      router := deregisterApp s.router ctx
      log := s.log ++ [.deregister e env.dappCtx] }
    { releaseAppId s i with unloading := none }

/-! ## The system -/

/-- The calls of `load_app` and `unload_app` and the steps of the threads, with
    what the environment answers. -/
inductive CtlCall where
  | load (req : LoadReq) (out : LoadOutcome)
  | unload (appId : Int)
  | joined (dlclosed : Bool)
  | register (e : EnvId) (al : AppAlloc)
  | configure (e : EnvId)
  | resolve (e : EnvId)
  | closeLibrary (e : EnvId)
  | appReturns (e : EnvId)

/-- How often a library was closed, a slot given back and an env freed. -/
def Controller.closes (s : Controller) (h : Handle) : Nat := s.log.count (.dlclose h)

def Controller.releases (s : Controller) (e : EnvId) : Nat := s.log.count (.release e)

def Controller.frees (s : Controller) (e : EnvId) : Nat := s.log.count (.free e)

/-- No call of `load_app` or `unload_app` is in progress. -/
def Controller.Idle (s : Controller) : Prop := s.status = .running ∧ s.unloading = none

/-- One step.  An app's code returns whenever it likes, `pthread_join` returns
    once the thread has ended, and closing a library that is open succeeds. -/
inductive CtlStep : Controller → CtlCall → Controller → Prop
  | load {s : Controller} {req : LoadReq} {out : LoadOutcome} : s.Idle →
      CtlStep s (.load req out) (loadApp s req out).2
  | unload {s : Controller} {appId : Int} : s.Idle →
      CtlStep s (.unload appId) (unloadApp s appId).2
  | joined {s : Controller} {i : Slot} {e : EnvId} {env : AppEnv} {dlclosed : Bool} :
      s.status = .running → s.unloading = some (i, e) → s.env e = some env →
      s.thread e = some .ended →
      (s.closes env.appHandle = 0 → dlclosed = true) →
      CtlStep s (.joined dlclosed) (unloadJoined s i e env dlclosed)
  | register {s : Controller} {e : EnvId} {env : AppEnv} {al : AppAlloc} :
      s.status = .running → s.thread e = some .created → s.env e = some env →
      CtlStep s (.register e al) (runRegister s e env al)
  | configure {s : Controller} {e : EnvId} {env : AppEnv} :
      s.status = .running → s.thread e = some .registered → s.env e = some env →
      CtlStep s (.configure e) (runConfigure s e env)
  | resolve {s : Controller} {e : EnvId} {env : AppEnv} :
      s.status = .running → s.thread e = some .configured → s.env e = some env →
      CtlStep s (.resolve e) (runResolve s e env)
  | closeLibrary {s : Controller} {e : EnvId} {env : AppEnv} :
      s.status = .running → s.thread e = some .noEntry → s.env e = some env →
      CtlStep s (.closeLibrary e) (s.advance e .ended [.dlclose env.appHandle])
  | appReturns {s : Controller} {e : EnvId} :
      s.status = .running → s.thread e = some .inApp →
      CtlStep s (.appReturns e) (s.advance e .ended [])

/-- What every run keeps.  The env of an occupied slot is in no other slot and has
    a thread; a thread that has not ended keeps its slot; `unload_app` waits for
    the app in its slot. -/
structure Controller.Wf (s : Controller) : Prop where
  slot    : ∀ {i e}, s.appEnvs i = some e → ∃ t, s.thread e = some t
  inj     : ∀ {i j e}, s.appEnvs i = some e → s.appEnvs j = some e → i = j
  thread  : ∀ {e t}, s.thread e = some t → e < s.nextEnv ∧ ∃ env, s.env e = some env
  active  : ∀ {e t}, s.thread e = some t → t ≠ .ended → ∃ i, s.appEnvs i = some e
  waiting : ∀ {i e}, s.unloading = some (i, e) → s.appEnvs i = some e
  handle  : ∀ {e env}, s.env e = some env → env.appHandle.env = e
  log_lt  : ∀ {ev}, ev ∈ s.log → ev.env < s.nextEnv

/-! ## What a step can do -/

/-- A value in an updated table is the new one or an old one. -/
theorem update_some {α β : Type*} [DecidableEq α] {f : α → Option β} {k x : α}
    {v : Option β} {y : β} (h : Function.update f k v x = some y) :
    x = k ∧ v = some y ∨ x ≠ k ∧ f x = some y := by
  by_cases hx : x = k
  · rw [hx, Function.update_self] at h
    exact Or.inl ⟨hx, h⟩
  · rw [Function.update_of_ne hx] at h
    exact Or.inr ⟨hx, h⟩

/-- Filling a free place of a table keeps what the table holds. -/
theorem update_of_free {α β : Type*} [DecidableEq α] {f : α → Option β} {k x : α}
    {v : Option β} {y : β} (hk : f k = none) (hx : f x = some y) :
    Function.update f k v x = some y := by
  have hne : x ≠ k := by
    rintro rfl
    cases hk.symm.trans hx
  rw [Function.update_of_ne hne, hx]

/-- What is left in a table that was cleared at one place. -/
theorem update_none_some {α β : Type*} [DecidableEq α] {f : α → Option β} {k x : α}
    {y : β} (h : Function.update f k none x = some y) : x ≠ k ∧ f x = some y := by
  rcases update_some h with ⟨-, ⟨⟩⟩ | h
  exact h

theorem mem_scanOrder (next i : Slot) : i ∈ scanOrder next :=
  List.mem_map.mpr ⟨i - next, List.mem_finRange _, add_sub_cancel next i⟩

/-- `_jrtc_reserve_app_id` fails only on a full table. -/
theorem reserveAppId_cases (s : Controller) (e : EnvId) :
    (∀ i, s.appEnvs i ≠ none) ∧ reserveAppId s e = (none, s)
      ∨ ∃ i, s.appEnvs i = none ∧ reserveAppId s e = (some i, { s with
          appEnvs := Function.update s.appEnvs i (some e)
          nextAvailableAppEnv := i + 1 }) := by
  unfold reserveAppId
  cases hfind : (scanOrder s.nextAvailableAppEnv).find? fun i => (s.appEnvs i).isNone with
  | none =>
      refine Or.inl ⟨fun i hi => ?_, rfl⟩
      have := List.find?_eq_none.mp hfind i (mem_scanOrder _ i)
      exact this (by rw [hi]; rfl)
  | some i =>
      have hi := List.find?_some hfind
      exact Or.inr ⟨i, Option.isNone_iff_eq_none.mp hi, rfl⟩

/-- The checks before the allocation let a request through. -/
structure Admitted (s : Controller) (req : LoadReq) (image : Image) : Prop where
  app    : req.app = some image
  size   : image.size ≠ 0
  notYet : isAppLoaded s req = false

/-- What `load_app` returns and does, by the point at which it returns.  The two
    failures after the reservation free the env in `_jrtc_release_app_id` and once
    more. -/
inductive LoadEffect (s : Controller) (req : LoadReq) (out : LoadOutcome) :
    Int → Controller → Prop
  | refused : ((∃ image, Admitted s req image) → out.calloc = false) →
      LoadEffect s req out (-1) s
  | noSlot {image : Image} : Admitted s req image → out.calloc = true →
      (∀ i, s.appEnvs i ≠ none) →
      LoadEffect s req out (-1) { s with nextEnv := s.nextEnv + 1 }
  | noLibrary {image : Image} {i : Slot} : Admitted s req image → out.calloc = true →
      s.appEnvs i = none → out.dlopen = false →
      LoadEffect s req out (-1) { s with
        nextEnv := s.nextEnv + 1
        nextAvailableAppEnv := i + 1
        log := s.log ++ [.release s.nextEnv, .free s.nextEnv, .free s.nextEnv] }
  | noThread {image : Image} {i : Slot} : Admitted s req image → out.calloc = true →
      s.appEnvs i = none → out.dlopen = true → out.pthreadCreate = false →
      LoadEffect s req out (-1) { s with
        nextEnv := s.nextEnv + 1
        nextAvailableAppEnv := i + 1
        env := Function.update s.env s.nextEnv (some (fillEnv req ⟨s.nextEnv, image⟩))
        log := s.log ++ [.dlclose ⟨s.nextEnv, image⟩, .release s.nextEnv,
          .free s.nextEnv, .free s.nextEnv] }
  | loaded {image : Image} {i : Slot} : Admitted s req image → out.calloc = true →
      s.appEnvs i = none → out.dlopen = true → out.pthreadCreate = true →
      LoadEffect s req out i.val { s with
        appEnvs := Function.update s.appEnvs i (some s.nextEnv)
        nextEnv := s.nextEnv + 1
        nextAvailableAppEnv := i + 1
        env := Function.update s.env s.nextEnv (some (fillEnv req ⟨s.nextEnv, image⟩))
        thread := Function.update s.thread s.nextEnv (some .created) }

/-- Giving a slot back that was just taken restores the table. -/
theorem releaseAppId_reserved {s : Controller} {i : Slot} {e : EnvId}
    {appEnvs : Slot → Option EnvId} (hi : appEnvs i = none)
    (hs : s.appEnvs = Function.update appEnvs i (some e)) :
    releaseAppId s i = { s with
      appEnvs := appEnvs, log := s.log ++ [.release e, .free e] } := by
  have hold : s.appEnvs i = some e := by rw [hs, Function.update_self]
  have hback : Function.update s.appEnvs i none = appEnvs := by
    rw [hs, Function.update_idem, ← hi, Function.update_eq_self]
  simp only [releaseAppId, hold, hback]

theorem loadReserved_cases {s : Controller} {req : LoadReq} {image : Image} {i : Slot}
    (hadm : Admitted s req image) {out : LoadOutcome} (hcalloc : out.calloc = true)
    (hi : s.appEnvs i = none) {r : Int × Controller}
    (hr : r = loadReserved { s with
      nextEnv := s.nextEnv + 1
      appEnvs := Function.update s.appEnvs i (some s.nextEnv)
      nextAvailableAppEnv := i + 1 } s.nextEnv i req image out) :
    LoadEffect s req out r.1 r.2 := by
  unfold loadReserved at hr
  split at hr
  case _ hdl =>
    rw [releaseAppId_reserved hi rfl, freeEnv] at hr
    rw [hr]
    simp only [List.append_assoc, List.cons_append, List.nil_append]
    exact .noLibrary hadm hcalloc hi (by simpa using hdl)
  case _ hdl =>
    have hdl : out.dlopen = true := by simpa using hdl
    simp only at hr
    split at hr
    case _ hth =>
      rw [releaseAppId_reserved hi rfl, freeEnv] at hr
      rw [hr]
      simp only [List.append_assoc, List.cons_append, List.nil_append]
      exact .noThread hadm hcalloc hi hdl (by simpa using hth)
    case _ hth =>
      rw [hr]
      exact .loaded hadm hcalloc hi hdl (by simpa using hth)

/-- **`load_app`, BY ITS EXIT.** -/
theorem loadApp_cases (s : Controller) (req : LoadReq) (out : LoadOutcome) :
    LoadEffect s req out (loadApp s req out).1 (loadApp s req out).2 := by
  generalize hr : loadApp s req out = r
  unfold loadApp at hr
  have hrefused : ((∃ image, Admitted s req image) → out.calloc = false) →
      (-1, s) = r → LoadEffect s req out r.1 r.2 := by
    rintro hnot rfl
    exact .refused hnot
  split at hr
  case _ happ =>
    refine hrefused (fun ⟨image, h⟩ => ?_) hr
    rw [h.app] at happ
    cases happ
  case _ image happ =>
    split at hr
    case _ hsize =>
      refine hrefused (fun ⟨image', h⟩ => absurd hsize ?_) hr
      rw [← Option.some.inj (h.app.symm.trans happ)]
      exact h.size
    case _ hsize =>
      split at hr
      case _ hloaded =>
        refine hrefused (fun ⟨image', h⟩ => ?_) hr
        rw [h.notYet] at hloaded
        cases hloaded
      case _ hloaded =>
        have hadm : Admitted s req image := ⟨happ, hsize, Bool.eq_false_iff.mpr hloaded⟩
        split at hr
        case _ hcalloc =>
          exact hrefused (fun _ => by simpa using hcalloc) hr
        case _ hcalloc =>
          have hcalloc : out.calloc = true := by simpa using hcalloc
          rcases reserveAppId_cases { s with nextEnv := s.nextEnv + 1 } s.nextEnv with
            ⟨hfull, heq⟩ | ⟨i, hi, heq⟩
          · simp only [heq] at hr
            rw [← hr]
            exact .noSlot hadm hcalloc hfull
          · simp only [heq] at hr
            exact loadReserved_cases hadm hcalloc hi hr.symm

/-- A load that returns an id was admitted and has filled the env in that slot. -/
theorem loadApp_eq_id {s : Controller} {req : LoadReq} {out : LoadOutcome} {i : Slot}
    (h : (loadApp s req out).1 = i.val) : ∃ image, Admitted s req image
      ∧ (loadApp s req out).2.envAt i = some (fillEnv req ⟨s.nextEnv, image⟩) := by
  have heff := loadApp_cases s req out
  generalize (loadApp s req out).1 = r, (loadApp s req out).2 = s' at heff h
  have hneg : (-1 : Int) ≠ i.val := by omega
  cases heff with
  | refused => exact absurd h hneg
  | noSlot => exact absurd h hneg
  | noLibrary => exact absurd h hneg
  | noThread => exact absurd h hneg
  | @loaded image j hadm =>
      obtain rfl : j = i := Fin.ext (Int.ofNat.inj h)
      refine ⟨image, hadm, ?_⟩
      show (Function.update s.appEnvs j (some s.nextEnv) j).bind _ = _
      rw [Function.update_self]
      exact Function.update_self ..

/-- An admitted request is loaded if nothing fails and a slot is free. -/
theorem Admitted.loaded {s : Controller} {req : LoadReq} {image : Image}
    (hadm : Admitted s req image) {i : Slot} (hi : s.appEnvs i = none) :
    ∃ i : Slot, (loadApp s req ⟨true, true, true⟩).1 = i.val := by
  have heff := loadApp_cases s req ⟨true, true, true⟩
  generalize (loadApp s req ⟨true, true, true⟩).1 = r,
    (loadApp s req ⟨true, true, true⟩).2 = s' at heff
  cases heff with
  | refused h => cases h ⟨image, hadm⟩
  | noSlot _ _ hfull => exact absurd hi (hfull i)
  | noLibrary _ _ _ hlib => cases hlib
  | noThread _ _ _ _ hthread => cases hthread
  | @loaded _ j => exact ⟨j, rfl⟩

theorem slotAt_eq_none {appId : Int} :
    slotAt appId = none ↔ ¬ (0 ≤ appId ∧ appId < 64) := by
  unfold slotAt
  split
  case _ h => simp [h]
  case _ h => simp [h]

theorem slotAt_eq_some {appId : Int} {i : Slot} (h : slotAt appId = some i) :
    0 ≤ appId ∧ appId < 64 := by
  by_contra hn
  rw [slotAt_eq_none.mpr hn] at h
  cases h

theorem slotAt_val (i : Slot) : slotAt i.val = some i := by
  unfold slotAt
  rw [dif_pos ⟨by omega, by omega⟩]
  rfl

theorem eq_val_of_slotAt {appId : Int} {i : Slot} (h : slotAt appId = some i) :
    appId = i.val := by
  unfold slotAt at h
  split at h
  case _ hrange =>
    obtain rfl := Option.some.inj h
    exact (Int.toNat_of_nonneg hrange.1).symm
  case _ => cases h

/-- What `unload_app` does before it waits. -/
theorem unloadApp_cases (s : Controller) (appId : Int) :
    slotAt appId = none ∧ unloadApp s appId = (none, { s with status := .undefined })
      ∨ (∃ i, slotAt appId = some i ∧ s.appEnvs i = none
          ∧ unloadApp s appId = (some (-1), s))
      ∨ ∃ i e, slotAt appId = some i ∧ s.appEnvs i = some e
          ∧ unloadApp s appId = (none, { s with
              env := Function.update s.env e
                ((s.env e).map fun env => { env with appExit := true })
              unloading := some (i, e) }) := by
  unfold unloadApp
  cases hslot : slotAt appId with
  | none => exact Or.inl ⟨rfl, rfl⟩
  | some i =>
      cases henv : s.appEnvs i with
      | none => exact Or.inr (Or.inl ⟨i, rfl, henv, by simp only [henv]⟩)
      | some e => exact Or.inr (Or.inr ⟨i, e, rfl, henv, by simp only [henv]⟩)

/-- An id outside the table reads past it. -/
theorem unloadApp_undefined (s : Controller) {appId : Int} (h : ¬ (0 ≤ appId ∧ appId < 64)) :
    (unloadApp s appId).2.status = .undefined := by
  rcases unloadApp_cases s appId with ⟨-, heq⟩ | ⟨i, hi, -⟩ | ⟨i, _, hi, -⟩
  · rw [heq]
  · exact absurd (slotAt_eq_some hi) h
  · exact absurd (slotAt_eq_some hi) h

/-- While `unload_app` waits, an env differs at most in its flag `app_exit`. -/
theorem env_of_exiting {s : Controller} {e e' : EnvId} {x : AppEnv}
    (hx : Function.update s.env e
      ((s.env e).map fun env => { env with appExit := true }) e' = some x) :
    ∃ y, s.env e' = some y ∧ x = { y with appExit := x.appExit } := by
  rcases update_some hx with ⟨rfl, hx⟩ | ⟨-, hx⟩
  · obtain ⟨y, hy, rfl⟩ := Option.map_eq_some_iff.mp hx
    exact ⟨y, hy, rfl⟩
  · exact ⟨x, hx, rfl⟩

/-- What `unload_app` does after the wait, if its slot is as it was. -/
theorem unloadJoined_cases {s : Controller} {i : Slot} {e : EnvId}
    (hi : s.appEnvs i = some e) (env : AppEnv) (dlclosed : Bool) :
    dlclosed = false ∧ unloadJoined s i e env dlclosed = { s with
        status := .aborted, log := s.log ++ [.dlclose env.appHandle] }
      ∨ dlclosed = true ∧ unloadJoined s i e env dlclosed = { s with
          appEnvs := Function.update s.appEnvs i none
          unloading := none
          router := deregisterApp s.router (env.dappCtx.bind s.router.ctx)
          log := s.log ++ [.dlclose env.appHandle, .deregister e env.dappCtx,
            .release e, .free e] } := by
  cases dlclosed with
  | false => exact Or.inl ⟨rfl, rfl⟩
  | true =>
      refine Or.inr ⟨rfl, ?_⟩
      simp only [unloadJoined, Bool.not_true, Bool.false_eq_true, if_false, releaseAppId,
        hi, List.append_assoc, List.cons_append, List.nil_append]

/-- What a step of an app's thread does: it moves that thread on, may fill in the
    router context of its env, and neither frees the env nor gives its slot back. -/
structure Ran (s : Controller) (e : EnvId) (s' : Controller) : Prop where
  appEnvs   : s'.appEnvs = s.appEnvs
  nextEnv   : s'.nextEnv = s.nextEnv
  unloading : s'.unloading = s.unloading
  status    : s'.status = s.status
  other     : ∀ e', e' ≠ e → s'.env e' = s.env e' ∧ s'.thread e' = s.thread e'
  thread    : ∃ t t', s.thread e = some t ∧ t ≠ .ended ∧ s'.thread e = some t'
  env       : ∀ env', s'.env e = some env' →
    ∃ env, s.env e = some env ∧ env' = { env with dappCtx := env'.dappCtx }
  env_some  : (s.env e).isSome → (s'.env e).isSome
  log       : ∃ evs, s'.log = s.log ++ evs
    ∧ ∀ ev ∈ evs, ev.env = e ∧ ev ≠ .free e ∧ ev ≠ .release e

/-- A step that only moves the thread on. -/
theorem Ran.advance {s : Controller} {e : EnvId} {t : Thread} {evs : List Event}
    (ht : s.thread e = some t) (hne : t ≠ .ended) (t' : Thread)
    (hevs : ∀ ev ∈ evs, ev.env = e ∧ ev ≠ .free e ∧ ev ≠ .release e) :
    Ran s e (s.advance e t' evs) where
  appEnvs := rfl
  nextEnv := rfl
  unloading := rfl
  status := rfl
  other := fun _ h => ⟨rfl, Function.update_of_ne h _ _⟩
  thread := ⟨t, t', ht, hne, Function.update_self ..⟩
  env := fun env' h => ⟨env', h, rfl⟩
  env_some := id
  log := ⟨evs, rfl, hevs⟩

theorem runRegister_env_self (s : Controller) (e : EnvId) (env : AppEnv) (al : AppAlloc) :
    (runRegister s e env al).env e = some { env with
      dappCtx := (registerApp s.router env.ioQueueSize.toNat al).1 } :=
  Function.update_self ..

theorem runRegister_env {s : Controller} {e e' : EnvId} {env x : AppEnv} {al : AppAlloc}
    (hx : (runRegister s e env al).env e' = some x) :
    e' = e ∧ x = { env with dappCtx := (registerApp s.router env.ioQueueSize.toNat al).1 }
      ∨ e' ≠ e ∧ s.env e' = some x := by
  by_cases he : e' = e
  · rw [he, runRegister_env_self] at hx
    exact Or.inl ⟨he, (Option.some.inj hx).symm⟩
  · exact Or.inr ⟨he, (Function.update_of_ne he _ _).symm.trans hx⟩

theorem runRegister_thread_self (s : Controller) (e : EnvId) (env : AppEnv)
    (al : AppAlloc) : (runRegister s e env al).thread e = some .registered :=
  Function.update_self ..

theorem Controller.advance_thread_self (s : Controller) (e : EnvId) (t : Thread)
    (evs : List Event) : (s.advance e t evs).thread e = some t :=
  Function.update_self ..

theorem Ran.register {s : Controller} {e : EnvId} {env : AppEnv}
    (ht : s.thread e = some .created) (henv : s.env e = some env) (al : AppAlloc) :
    Ran s e (runRegister s e env al) where
  appEnvs := rfl
  nextEnv := rfl
  unloading := rfl
  status := rfl
  other := fun _ h => ⟨Function.update_of_ne h _ _, Function.update_of_ne h _ _⟩
  thread := ⟨.created, .registered, ht, Thread.noConfusion, Function.update_self ..⟩
  env := by
    intro env' h
    rw [runRegister_env_self] at h
    obtain rfl := Option.some.inj h
    exact ⟨env, henv, rfl⟩
  env_some := fun _ => by
    rw [runRegister_env_self]
    rfl
  log := ⟨_, rfl, fun ev hev => by
    rw [List.mem_singleton.mp hev]
    exact ⟨rfl, Event.noConfusion, Event.noConfusion⟩⟩

/-- The app whose thread takes the step. -/
def CtlCall.runs : CtlCall → Option EnvId
  | .register e _ => some e
  | .configure e => some e
  | .resolve e => some e
  | .closeLibrary e => some e
  | .appReturns e => some e
  | _ => none

/-- **THE FOUR KINDS OF STEPS.** -/
inductive StepKind (s : Controller) : CtlCall → Controller → Prop
  | load (req : LoadReq) (out : LoadOutcome) : s.Idle →
      StepKind s (.load req out) (loadApp s req out).2
  | unload (appId : Int) : s.Idle → StepKind s (.unload appId) (unloadApp s appId).2
  | joined {i : Slot} {e : EnvId} {env : AppEnv} (dlclosed : Bool) :
      s.status = .running → s.unloading = some (i, e) → s.env e = some env →
      s.thread e = some .ended → (s.closes env.appHandle = 0 → dlclosed = true) →
      StepKind s (.joined dlclosed) (unloadJoined s i e env dlclosed)
  | run {l : CtlCall} {e : EnvId} {s' : Controller} : s.status = .running →
      l.runs = some e → Ran s e s' → StepKind s l s'

theorem CtlStep.kind {s s' : Controller} {l : CtlCall} (hw : s.Wf)
    (h : CtlStep s l s') : StepKind s l s' := by
  cases h with
  | load hidle => exact .load _ _ hidle
  | unload hidle => exact .unload _ hidle
  | joined hst hwait henv hend hcl => exact .joined _ hst hwait henv hend hcl
  | register hst ht henv => exact .run hst rfl (Ran.register ht henv _)
  | configure hst ht henv =>
      refine .run hst rfl (Ran.advance ht Thread.noConfusion _ ?_)
      intro ev hev
      split at hev
      · rw [List.mem_singleton.mp hev]
        exact ⟨rfl, Event.noConfusion, Event.noConfusion⟩
      · exact absurd hev List.not_mem_nil
  | resolve hst ht henv =>
      refine .run hst rfl ?_
      unfold runResolve
      split
      · refine Ran.advance ht Thread.noConfusion _ ?_
        intro ev hev
        rw [List.mem_singleton.mp hev]
        exact ⟨rfl, Event.noConfusion, Event.noConfusion⟩
      · exact Ran.advance ht Thread.noConfusion _ fun ev hev => absurd hev List.not_mem_nil
  | closeLibrary hst ht henv =>
      refine .run hst rfl (Ran.advance ht Thread.noConfusion _ ?_)
      intro ev hev
      rw [List.mem_singleton.mp hev]
      exact ⟨hw.handle henv, Event.noConfusion, Event.noConfusion⟩
  | appReturns hst ht =>
      refine .run hst rfl (Ran.advance ht Thread.noConfusion _ ?_)
      exact fun ev hev => absurd hev List.not_mem_nil

/-! ## What every run keeps -/

theorem Controller.wf_init (router : RouterCtx) : (Controller.init router).Wf where
  slot h := by cases h
  inj h := by cases h
  thread h := by cases h
  active h := by cases h
  waiting h := by cases h
  handle h := by cases h
  log_lt h := absurd h List.not_mem_nil

namespace Controller.Wf

variable {s s' : Controller}

/-- A load that fails after the allocation leaves table and threads alone. -/
theorem of_failed (h : s.Wf) (env : Option AppEnv) (evs : List Event) (next : Slot)
    (henv : ∀ x, env = some x → x.appHandle.env = s.nextEnv)
    (hevs : ∀ ev ∈ evs, ev.env = s.nextEnv) :
    Controller.Wf { s with
      nextEnv := s.nextEnv + 1
      nextAvailableAppEnv := next
      env := Function.update s.env s.nextEnv env
      log := s.log ++ evs } where
  slot := h.slot
  inj := h.inj
  thread := by
    intro e t ht
    obtain ⟨hlt, x, hx⟩ := h.thread ht
    refine ⟨Nat.lt_succ_of_lt hlt, x, ?_⟩
    show Function.update s.env s.nextEnv env e = some x
    rw [Function.update_of_ne (Nat.ne_of_lt hlt), hx]
  active := h.active
  waiting := h.waiting
  handle := by
    intro e x hx
    rcases update_some hx with ⟨rfl, hx'⟩ | ⟨-, hx'⟩
    · exact henv x hx'
    · exact h.handle hx'
  log_lt := by
    intro ev hev
    rcases List.mem_append.mp hev with hev | hev
    · exact Nat.lt_succ_of_lt (h.log_lt hev)
    · show ev.env < s.nextEnv + 1
      rw [hevs ev hev]
      exact Nat.lt_succ_self _

theorem env_fresh (h : s.Wf) {i : Slot} : s.appEnvs i ≠ some s.nextEnv := by
  intro hi
  obtain ⟨t, ht⟩ := h.slot hi
  exact Nat.lt_irrefl _ (h.thread ht).1

theorem loaded (h : s.Wf) {i next : Slot} (hi : s.appEnvs i = none) {env : AppEnv}
    (henv : env.appHandle.env = s.nextEnv) (hidle : s.unloading = none) :
    Controller.Wf { s with
      appEnvs := Function.update s.appEnvs i (some s.nextEnv)
      nextEnv := s.nextEnv + 1
      nextAvailableAppEnv := next
      env := Function.update s.env s.nextEnv (some env)
      thread := Function.update s.thread s.nextEnv (some .created) } where
  slot := by
    intro j e hj
    show ∃ t, Function.update s.thread s.nextEnv (some .created) e = some t
    rcases update_some hj with ⟨-, ⟨⟩⟩ | ⟨-, hj⟩
    · exact ⟨_, Function.update_self ..⟩
    · obtain ⟨t, ht⟩ := h.slot hj
      exact ⟨t, (Function.update_of_ne (Nat.ne_of_lt (h.thread ht).1) _ _).trans ht⟩
  inj := by
    intro j k e hj hk
    rcases update_some hj with ⟨rfl, ⟨⟩⟩ | ⟨-, hj⟩
    · rcases update_some hk with ⟨hk, -⟩ | ⟨-, hk⟩
      · exact hk.symm
      · exact absurd hk h.env_fresh
    · rcases update_some hk with ⟨-, ⟨⟩⟩ | ⟨-, hk⟩
      · exact absurd hj h.env_fresh
      · exact h.inj hj hk
  thread := by
    intro e t ht
    rcases update_some ht with ⟨rfl, -⟩ | ⟨hne, ht⟩
    · exact ⟨Nat.lt_succ_self _, _, Function.update_self ..⟩
    · obtain ⟨hlt, x, hx⟩ := h.thread ht
      exact ⟨Nat.lt_succ_of_lt hlt, x, (Function.update_of_ne hne _ _).trans hx⟩
  active := by
    intro e t ht hne
    rcases update_some ht with ⟨rfl, -⟩ | ⟨-, ht⟩
    · exact ⟨i, Function.update_self ..⟩
    · obtain ⟨j, hj⟩ := h.active ht hne
      exact ⟨j, update_of_free hi hj⟩
  waiting := by
    intro j e hj
    rw [hidle] at hj
    cases hj
  handle := by
    intro e x hx
    rcases update_some hx with ⟨rfl, ⟨⟩⟩ | ⟨-, hx⟩
    · exact henv
    · exact h.handle hx
  log_lt := fun hev => Nat.lt_succ_of_lt (h.log_lt hev)

theorem load (h : s.Wf) (hidle : s.Idle) (req : LoadReq) (out : LoadOutcome) :
    (loadApp s req out).2.Wf := by
  have hself : Function.update s.env s.nextEnv (s.env s.nextEnv) = s.env :=
    Function.update_eq_self ..
  have heff := loadApp_cases s req out
  generalize (loadApp s req out).1 = r, (loadApp s req out).2 = s' at heff
  cases heff with
  | refused => exact h
  | noSlot =>
      have hfail := h.of_failed (s.env s.nextEnv) [] s.nextAvailableAppEnv
        (fun x hx => h.handle hx) (fun ev hev => absurd hev List.not_mem_nil)
      rw [hself, List.append_nil] at hfail
      exact hfail
  | @noLibrary _ i =>
      have hfail := h.of_failed (s.env s.nextEnv)
        [.release s.nextEnv, .free s.nextEnv, .free s.nextEnv] (i + 1)
        (fun x hx => h.handle hx) (by simp [Event.env])
      rw [hself] at hfail
      exact hfail
  | noThread =>
      refine h.of_failed _ _ _ ?_ (by simp [Event.env])
      rintro x ⟨⟩
      rfl
  | loaded _ _ hi => exact h.loaded hi rfl hidle.2

/-- Only the flag `app_exit` of a waiting env changes. -/
theorem unload (h : s.Wf) (appId : Int) : (unloadApp s appId).2.Wf := by
  rcases unloadApp_cases s appId with ⟨-, heq⟩ | ⟨i, -, -, heq⟩ | ⟨i, e, -, hi, heq⟩
  · rw [heq]
    exact ⟨h.slot, h.inj, h.thread, h.active, h.waiting, h.handle, h.log_lt⟩
  · rw [heq]
    exact h
  · rw [heq]
    refine ⟨h.slot, h.inj, ?_, h.active, ?_, ?_, h.log_lt⟩
    · intro e' t ht
      obtain ⟨hlt, x, hx⟩ := h.thread ht
      refine ⟨hlt, ?_⟩
      show ∃ x, Function.update s.env e ((s.env e).map _) e' = some x
      by_cases he : e' = e
      · rw [he, Function.update_self, ← he, hx]
        exact ⟨_, rfl⟩
      · rw [Function.update_of_ne he]
        exact ⟨x, hx⟩
    · rintro j e' ⟨⟩
      exact hi
    · intro e' x hx
      obtain ⟨y, hy, heq⟩ := env_of_exiting hx
      rw [heq]
      exact (h.handle hy :)

theorem joined (h : s.Wf) {i : Slot} {e : EnvId} {env : AppEnv}
    (hwait : s.unloading = some (i, e)) (henv : s.env e = some env)
    (hend : s.thread e = some .ended) (dlclosed : Bool) :
    (unloadJoined s i e env dlclosed).Wf := by
  have hi := h.waiting hwait
  have hlt := (h.thread hend).1
  have hhandle := h.handle henv
  rcases unloadJoined_cases hi env dlclosed with ⟨-, heq⟩ | ⟨-, heq⟩
  · rw [heq]
    refine ⟨h.slot, h.inj, h.thread, h.active, h.waiting, h.handle, ?_⟩
    intro ev hev
    rcases List.mem_append.mp hev with hev | hev
    · exact h.log_lt hev
    · rw [List.mem_singleton.mp hev]
      exact hhandle.trans_lt hlt
  · rw [heq]
    refine ⟨fun hj => h.slot (update_none_some hj).2,
      fun hj hk => h.inj (update_none_some hj).2 (update_none_some hk).2,
      h.thread, ?_, ?_, h.handle, ?_⟩
    · intro e' t ht hne
      obtain ⟨j, hj⟩ := h.active ht hne
      refine ⟨j, (Function.update_of_ne ?_ _ _).trans hj⟩
      rintro rfl
      -- the thread that was waited for has ended
      obtain rfl := Option.some.inj (hi.symm.trans hj)
      exact hne (Option.some.inj (ht.symm.trans hend))
    · rintro j e' ⟨⟩
    · intro ev hev
      have hev : ev ∈ s.log ∨ ev.env = e := by
        simp only [List.mem_append, List.mem_cons, List.not_mem_nil, or_false] at hev
        rcases hev with hev | rfl | rfl | rfl | rfl
        · exact Or.inl hev
        · exact Or.inr hhandle
        · exact Or.inr rfl
        · exact Or.inr rfl
        · exact Or.inr rfl
      rcases hev with hev | hev
      · exact h.log_lt hev
      · exact hev.trans_lt hlt

theorem ran (h : s.Wf) {e : EnvId} (hr : Ran s e s') : s'.Wf where
  slot := by
    intro i e' hi
    rw [hr.appEnvs] at hi
    by_cases he : e' = e
    · obtain ⟨_, t', -, -, ht'⟩ := hr.thread
      exact ⟨t', by rw [he, ht']⟩
    · rw [(hr.other e' he).2]
      exact h.slot hi
  inj := by
    rw [hr.appEnvs]
    exact h.inj
  thread := by
    intro e' t ht
    rw [hr.nextEnv]
    by_cases he : e' = e
    · subst he
      obtain ⟨t₀, _, ht₀, -, -⟩ := hr.thread
      obtain ⟨hlt, x, hx⟩ := h.thread ht₀
      exact ⟨hlt, Option.isSome_iff_exists.mp (hr.env_some (by rw [hx]; rfl))⟩
    · rw [(hr.other e' he).2] at ht
      rw [(hr.other e' he).1]
      exact h.thread ht
  active := by
    intro e' t ht hne
    rw [hr.appEnvs]
    by_cases he : e' = e
    · subst he
      obtain ⟨t₀, _, ht₀, hne₀, -⟩ := hr.thread
      exact h.active ht₀ hne₀
    · rw [(hr.other e' he).2] at ht
      exact h.active ht hne
  waiting := by
    rw [hr.unloading, hr.appEnvs]
    exact h.waiting
  handle := by
    intro e' x hx
    by_cases he : e' = e
    · subst he
      obtain ⟨y, hy, heq⟩ := hr.env x hx
      rw [heq]
      exact (h.handle hy :)
    · rw [(hr.other e' he).1] at hx
      exact h.handle hx
  log_lt := by
    intro ev hev
    rw [hr.nextEnv]
    obtain ⟨evs, heq, hevs⟩ := hr.log
    rw [heq] at hev
    rcases List.mem_append.mp hev with hev | hev
    · exact h.log_lt hev
    · rw [(hevs ev hev).1]
      obtain ⟨t₀, _, ht₀, -, -⟩ := hr.thread
      exact (h.thread ht₀).1

theorem step (h : s.Wf) {l : CtlCall} (hs : CtlStep s l s') : s'.Wf := by
  cases hs.kind h with
  | load req out hidle => exact h.load hidle req out
  | unload appId _ => exact h.unload appId
  | joined dlclosed _ hwait henv hend _ => exact h.joined hwait henv hend dlclosed
  | run _ _ hr => exact h.ran hr

/-- The env of a thread is older than the one a load is about to fill. -/
theorem env_old (h : s.Wf) {e : EnvId} {t : Thread} {env : Option AppEnv} {env' : AppEnv}
    (ht : s.thread e = some t) (hx : Function.update s.env s.nextEnv env e = some env') :
    s.env e = some env' := by
  rwa [Function.update_of_ne (Nat.ne_of_lt (h.thread ht).1)] at hx

/-- Nothing is recorded yet of an env that was not allocated. -/
theorem count_fresh (h : s.Wf) {ev : Event} (hev : s.nextEnv ≤ ev.env) :
    s.log.count ev = 0 :=
  List.count_eq_zero.mpr fun hmem => Nat.not_lt.mpr hev (h.log_lt hmem)

end Controller.Wf

/-- Every reachable state is well formed. -/
theorem Controller.wf_run {router : RouterCtx} {tr : List (Controller × CtlCall)}
    {s : Controller} (h : Run CtlStep (Controller.init router) tr s) : s.Wf :=
  h.invariant (Controller.wf_init router) fun hw hs => hw.step hs

theorem Controller.defined_of_running {s : Controller} (h : s.status = .running) :
    s.status ≠ .undefined := by
  rw [h]
  exact Status.noConfusion

/-- Only an unload that names no slot is undefined. -/
theorem CtlStep.defined {s s' : Controller} {l : CtlCall} (hw : s.Wf)
    (h : CtlStep s l s') (hC : ∀ appId, l = .unload appId → 0 ≤ appId ∧ appId < 64) :
    s'.status ≠ .undefined := by
  cases h.kind hw with
  | load req out hidle =>
      have heff := loadApp_cases s req out
      generalize (loadApp s req out).1 = r, (loadApp s req out).2 = s' at heff
      cases heff <;> exact Controller.defined_of_running hidle.1
  | unload appId hidle =>
      rcases unloadApp_cases s appId with ⟨hout, -⟩ | ⟨i, -, -, heq⟩ | ⟨i, e, -, -, heq⟩
      · exact absurd (hC appId rfl) (slotAt_eq_none.mp hout)
      · rw [heq]
        exact Controller.defined_of_running hidle.1
      · rw [heq]
        exact Controller.defined_of_running hidle.1
  | @joined i e env dlclosed hst hwait _ _ _ =>
      rcases unloadJoined_cases (hw.waiting hwait) env dlclosed with ⟨-, heq⟩ | ⟨-, heq⟩
      · rw [heq]
        exact Status.noConfusion
      · rw [heq]
        exact Controller.defined_of_running hst
  | run hst _ hr =>
      rw [hr.status]
      exact Controller.defined_of_running hst

/-- What no step changes of an env that was allocated before it. -/
structure Keeps (s s' : Controller) : Prop where
  nextEnv : s.nextEnv ≤ s'.nextEnv
  env     : ∀ {e env'}, e < s.nextEnv → s'.env e = some env' →
    ∃ env, s.env e = some env ∧ env'.appPath = env.appPath ∧ env'.params = env.params

theorem Keeps.of_env {s s' : Controller} (hnext : s.nextEnv ≤ s'.nextEnv)
    (henv : ∀ e, e < s.nextEnv → s'.env e = s.env e) : Keeps s s' :=
  ⟨hnext, fun {e env'} he h => ⟨env', (henv e he).symm.trans h, rfl, rfl⟩⟩

theorem CtlStep.keeps {s s' : Controller} {l : CtlCall} (hw : s.Wf)
    (h : CtlStep s l s') : Keeps s s' := by
  cases h.kind hw with
  | load req out hidle =>
      have hfresh : ∀ env e, e < s.nextEnv →
          Function.update s.env s.nextEnv env e = s.env e := fun env e he =>
        Function.update_of_ne (Nat.ne_of_lt he) _ _
      have heff := loadApp_cases s req out
      generalize (loadApp s req out).1 = r, (loadApp s req out).2 = s' at heff
      cases heff with
      | refused => exact .of_env le_rfl fun _ _ => rfl
      | noSlot => exact .of_env (Nat.le_succ _) fun _ _ => rfl
      | noLibrary => exact .of_env (Nat.le_succ _) fun _ _ => rfl
      | noThread => exact .of_env (Nat.le_succ _) (hfresh _)
      | loaded => exact .of_env (Nat.le_succ _) (hfresh _)
  | unload appId hidle =>
      rcases unloadApp_cases s appId with ⟨-, heq⟩ | ⟨i, -, -, heq⟩ | ⟨i, e, -, -, heq⟩
      · rw [heq]
        exact .of_env le_rfl fun _ _ => rfl
      · rw [heq]
        exact .of_env le_rfl fun _ _ => rfl
      · rw [heq]
        refine ⟨le_rfl, fun {e' env'} _ hx => ?_⟩
        obtain ⟨env, henv, heq⟩ := env_of_exiting hx
        rw [heq]
        exact ⟨env, henv, rfl, rfl⟩
  | @joined i e env dlclosed hst hwait _ _ _ =>
      rcases unloadJoined_cases (hw.waiting hwait) env dlclosed with ⟨-, heq⟩ | ⟨-, heq⟩
      · rw [heq]
        exact .of_env le_rfl fun _ _ => rfl
      · rw [heq]
        exact .of_env le_rfl fun _ _ => rfl
  | @run _ e _ hst _ hr =>
      refine ⟨hr.nextEnv.ge, fun {e' env'} _ hx => ?_⟩
      by_cases he : e' = e
      · subst he
        obtain ⟨env, henv, heq⟩ := hr.env env' hx
        rw [heq]
        exact ⟨env, henv, rfl, rfl⟩
      · rw [(hr.other e' he).1] at hx
        exact ⟨env', hx, rfl, rfl⟩

/-! ## The life of an app -/

/-- A thread that was created can run to its end. -/
theorem exists_run_ended {s : Controller} {e : EnvId} {env : AppEnv}
    (hst : s.status = .running) (ht : s.thread e = some .created) (henv : s.env e = some env)
    (al : AppAlloc) : ∃ tr s' env', Run CtlStep s tr s' ∧ (∀ x ∈ tr, x.2.runs = some e)
      ∧ s'.status = .running ∧ s'.appEnvs = s.appEnvs ∧ s'.unloading = s.unloading
      ∧ s'.thread e = some .ended ∧ s'.env e = some env' ∧ env'.appHandle = env.appHandle := by
  have hstart : Run CtlStep s [] s := Run.start
  have hreg := hstart.next (@CtlStep.register _ _ _ al hst ht henv)
  have henv' := runRegister_env_self s e env al
  have hconf := hreg.next (.configure hst (runRegister_thread_self ..) henv')
  have hres := hconf.next (.resolve hst (Controller.advance_thread_self ..) henv')
  rw [runResolve] at hres
  split at hres
  · have hend := hres.next (.appReturns hst (Controller.advance_thread_self ..))
    refine ⟨_, _, _, hend, ?_, hst, rfl, rfl, Controller.advance_thread_self .., henv', rfl⟩
    simp [CtlCall.runs]
  · have hend := hres.next (.closeLibrary hst (Controller.advance_thread_self ..) henv')
    refine ⟨_, _, _, hend, ?_, hst, rfl, rfl, Controller.advance_thread_self .., henv', rfl⟩
    simp [CtlCall.runs]

/-- An app whose thread has ended can be unloaded. -/
theorem unload_ended {s : Controller} {i : Slot} {e : EnvId} {env : AppEnv} (hidle : s.Idle)
    (hi : s.appEnvs i = some e) (ht : s.thread e = some .ended)
    (henv : s.env e = some env) :
    ∃ s₁ env₁, unloadApp s i.val = (none, s₁) ∧ s₁.appEnvs = s.appEnvs
      ∧ s₁.status = .running ∧ s₁.unloading = some (i, e)
      ∧ s₁.thread e = some .ended ∧ s₁.env e = some env₁
      ∧ env₁.appHandle = env.appHandle
      ∧ CtlStep s₁ (.joined true) (unloadJoined s₁ i e env₁ true) := by
  rcases unloadApp_cases s i.val with ⟨hout, -⟩ | ⟨j, hj, hnone, -⟩ | ⟨j, e', hj, hj', heq⟩
  · rw [slotAt_val] at hout
    cases hout
  · obtain rfl := Option.some.inj ((slotAt_val i).symm.trans hj)
    rw [hi] at hnone
    cases hnone
  · obtain rfl := Option.some.inj ((slotAt_val i).symm.trans hj)
    obtain rfl := Option.some.inj (hi.symm.trans hj')
    have henv₁ : Function.update s.env e
        ((s.env e).map fun env => { env with appExit := true }) e
        = some { env with appExit := true } := by
      rw [Function.update_self, henv]
      rfl
    exact ⟨_, _, heq, rfl, hidle.1, rfl, ht, henv₁, rfl,
      .joined hidle.1 rfl henv₁ ht fun _ => rfl⟩

/-- No app is loaded yet if the table is empty. -/
theorem isAppLoaded_of_empty {s : Controller} (h : ∀ i, s.envAt i = none) (req : LoadReq) :
    isAppLoaded s req = false := by
  unfold isAppLoaded
  simp only [h]
  repeat' split
  all_goals simp

/-- A request for one app, with nothing but its library and the size of its queue. -/
def plainReq (startApp : Bool) (ioqSize : BitVec 32) : LoadReq where
  app := some ⟨1, startApp⟩
  appName := some "app"
  runtimeUs := 0
  deadlineUs := 0
  periodUs := 0
  ioqSize := ioqSize
  appPath := some "app.so"
  appType := some "c"
  params := fun _ => ⟨none, none⟩
  deviceMapping := fun _ => ⟨none, none⟩
  appModules := fun _ => none

theorem admitted_plainReq (router : RouterCtx) (startApp : Bool) (ioqSize : BitVec 32) :
    Admitted (Controller.init router) (plainReq startApp ioqSize) ⟨1, startApp⟩ :=
  ⟨rfl, Nat.one_ne_zero, isAppLoaded_of_empty (fun _ => rfl) _⟩

end JrtcController
