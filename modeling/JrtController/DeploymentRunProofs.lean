import JrtController.DeleteProofs
import JrtController.DeploymentProofs

/-! # Loading and unloading deployments

    `jrtc-ctl load` posts the apps of a deployment to the controller.  `jrtc-ctl unload` has
    only their names: for each it asks for the apps in the store and deletes the first one
    with that name.  One run of the tool follows another; the goroutines of a run and the
    handlers of the server interleave.

    * `SiteStep` — the tool, the server and the threads of the apps in one system;
    * `Tidy` — an entry of the store is of an app in its slot that its deployment loaded, or
      of one that is about to be removed;
    * `unloadsOwn_iff_apart` — an unload touches apps of its own deployment only iff no
      deployment has the name of an app that another one can load. -/

namespace JrtcDeploymentRun

open IterMaps JrtcController JrtcLoadRequest JrtcRestServer JrtcDelete JrtcDeployment Runs

/-! ## The tool -/

/-- A deployment: files that the tool accepts, and what it reads from them. -/
structure Deployment (host : DeployHost) where
  files    : List String
  config   : CLIConfig
  accepted : parseOptions host files = .ok config

/-- `GetDeviceMap`. -/
def getDeviceMap (c : JBPFConfig) : IterMap String (BitVec 8) :=
  c.devices.foldl (fun out d => out.set (d.ip ++ ":" ++ toString d.port.toNat) d.id)
    IterMap.empty

/-- The library that runs the Python apps; the others have none. -/
def loaderFor (host : DeployHost) (appType : String) : Except String (String × Image) :=
  if appType = "python" then do
    let path := host.expandEnv "$\x7bJRTC_PATH\x7d/out/lib/libjrtc_pythonapp_loader.so"
    let data ← host.readFile path
    pure (path, ⟨data.length, host.startApp data⟩)
  else .ok ("", ⟨0, false⟩)

/-- The goroutine that loads an app, up to its request. -/
def appRequest (host : DeployHost) (cfg : CLIConfig) (a : DeployedApp) :
    Except String JrtcAppLoadRequest := do
  let loader ← loaderFor host a.app.appType
  pure (loadRequest loader (getDeviceMap cfg.jbpf).entries a.app)

/-- `App` of the unload command, from the answer to its GET up to its DELETE. -/
def findApp (appStates : List JrtcAppState) (appName : String) : Option Int :=
  match appStates.find? fun x => x.request.appName = appName with
  | some x => if x.id ≠ -1 then some x.id else none
  | none => none

/-! ## The system -/

/-- The run of the tool that is in progress: the apps whose goroutines have not sent a
    request yet, and the ids that those of an unload have found. -/
inductive Activity (host : DeployHost) where
  | idle
  | loading (d : Deployment host) (todo : List DeployedApp)
  | unloading (d : Deployment host) (todo : List DeployedApp) (found : List Int)

/-- The server, the tool, and the deployment whose load an env came from. -/
structure Site (host : DeployHost) where
  rest     : Rest
  activity : Activity host
  owner    : EnvId → Option (Deployment host)

/-- The server at its start. -/
def Site.init (host : DeployHost) (ctl : Controller) : Site host where
  rest := Rest.init ctl
  activity := .idle
  owner := fun _ => none

inductive SiteCall (host : DeployHost) where
  | load (d : Deployment host)
  | unload (d : Deployment host)
  | post (n : Nat) (p : Payload) (out : LoadOutcome)
  | get (n : Nat)
  | delete (n : Nat)
  /-- a goroutine ends before its first request is served -/
  | giveUp (n : Nat)
  /-- a goroutine ends before its DELETE is served -/
  | giveUpDelete (n : Nat)
  | finish
  | server (l : RestCall)
  /-- the handler of a POST or DELETE is dropped while it waits for the lock -/
  | dropPost (n : Nat)
  | dropDelete (n : Nat)

/-- The steps of the server that are not the beginning of a request. -/
def Inner : RestCall → Prop
  | .post _ _ => False
  | .delete _ => False
  | _ => True

/-- One step.  The tool's runs follow each other; a run ends once its goroutines have. -/
inductive SiteStep {host : DeployHost} : Site host → SiteCall host → Site host → Prop
  | load {s : Site host} {d : Deployment host} : s.activity = .idle →
      SiteStep s (.load d) { s with activity := .loading d d.config.apps }
  | unload {s : Site host} {d : Deployment host} : s.activity = .idle →
      SiteStep s (.unload d) { s with activity := .unloading d d.config.apps [] }
  | post {s : Site host} {d : Deployment host} {todo : List DeployedApp} {n : Nat}
      {a : DeployedApp} {req : JrtcAppLoadRequest} {p : Payload} {out : LoadOutcome}
      {rest : Rest} : s.activity = .loading d todo → todo[n]? = some a →
      appRequest host d.config a = .ok req → Decodes req p →
      RestStep s.rest (.post p out) rest →
      SiteStep s (.post n p out)
        { rest := rest
          activity := .loading d (todo.eraseIdx n)
          owner := Function.update s.owner s.rest.ctl.nextEnv (some d) }
  | get {s : Site host} {d : Deployment host} {todo : List DeployedApp} {found : List Int}
      {n : Nat} {a : DeployedApp} : s.activity = .unloading d todo found →
      todo[n]? = some a → s.rest.ctl.Idle →
      SiteStep s (.get n) { s with
        activity := .unloading d (todo.eraseIdx n)
          (found ++ (findApp s.rest.store a.app.name).toList) }
  | delete {s : Site host} {d : Deployment host} {todo : List DeployedApp} {found : List Int}
      {n : Nat} {id : Int} {rest : Rest} : s.activity = .unloading d todo found →
      found[n]? = some id → RestStep s.rest (.delete id) rest →
      SiteStep s (.delete n) { s with
        rest := rest, activity := .unloading d todo (found.eraseIdx n) }
  | giveUpLoad {s : Site host} {d : Deployment host} {todo : List DeployedApp} {n : Nat} :
      s.activity = .loading d todo →
      SiteStep s (.giveUp n) { s with activity := .loading d (todo.eraseIdx n) }
  | giveUpUnload {s : Site host} {d : Deployment host} {todo : List DeployedApp}
      {found : List Int} {n : Nat} : s.activity = .unloading d todo found →
      SiteStep s (.giveUp n) { s with activity := .unloading d (todo.eraseIdx n) found }
  | giveUpDelete {s : Site host} {d : Deployment host} {todo : List DeployedApp}
      {found : List Int} {n : Nat} : s.activity = .unloading d todo found →
      SiteStep s (.giveUpDelete n) { s with activity := .unloading d todo (found.eraseIdx n) }
  | finishLoad {s : Site host} {d : Deployment host} : s.activity = .loading d [] →
      SiteStep s .finish { s with activity := .idle }
  | finishUnload {s : Site host} {d : Deployment host} : s.activity = .unloading d [] [] →
      SiteStep s .finish { s with activity := .idle }
  | server {s : Site host} {l : RestCall} {rest : Rest} : Inner l → RestStep s.rest l rest →
      SiteStep s (.server l) { s with rest := rest }
  | dropPost {s : Site host} {n : Nat} :
      SiteStep s (.dropPost n) { s with
        rest := { s.rest with pushing := s.rest.pushing.eraseIdx n } }
  | dropDelete {s : Site host} {n : Nat} :
      SiteStep s (.dropDelete n) { s with
        rest := { s.rest with removing := s.rest.removing.eraseIdx n } }

/-! ## Names -/

/-- The names of the apps of a deployment. -/
def Deployment.names {host : DeployHost} (d : Deployment host) : Set String :=
  { name | ∃ a ∈ d.config.apps, a.app.name = name }

/-- A payload that the REST server may make of the request for an app of a deployment, and
    that neither it nor the controller refuses by itself. -/
structure Deployment.Sends {host : DeployHost} (d : Deployment host) (p : Payload) : Prop where
  request     : ∃ a ∈ d.config.apps, ∃ req, appRequest host d.config a = .ok req ∧ Decodes req p
  convertible : p.Convertible
  size        : p.app.size ≠ 0

/-- No deployment has the name of an app that another one can load.  What counts as another
    one is up to `ident`: the files, the name, or what is in it. -/
def Apart {host : DeployHost} {ι : Type*} (ident : Deployment host → ι)
    (ds : Set (Deployment host)) : Prop :=
  ∀ d ∈ ds, ∀ d' ∈ ds, ∀ p, d.Sends p → p.appName ∈ d'.names → ident d = ident d'

theorem appRequest_appName {host : DeployHost} {cfg : CLIConfig} {a : DeployedApp}
    {req : JrtcAppLoadRequest} (h : appRequest host cfg a = .ok req) :
    req.appName = a.app.name := by
  obtain ⟨loader, -, hreq⟩ := Loops.bind_eq_ok_iff.mp h
  cases hreq
  rw [loadRequest, usePythonLoader]
  split
  · rfl
  · rfl

theorem Deployment.Sends.mem_names {host : DeployHost} {d : Deployment host} {p : Payload}
    (h : d.Sends p) : p.appName ∈ d.names := by
  obtain ⟨a, ha, req, hreq, hdec⟩ := h.request
  exact ⟨a, ha, by rw [hdec.appName, appRequest_appName hreq]⟩

theorem apart_of_disjoint {host : DeployHost} {ι : Type*} {ident : Deployment host → ι}
    {ds : Set (Deployment host)}
    (h : ∀ d ∈ ds, ∀ d' ∈ ds, ident d ≠ ident d' → ∀ name ∈ d.names, name ∉ d'.names) :
    Apart ident ds := by
  intro d hd d' hd' p hsends hname
  by_contra hne
  exact h d hd d' hd' hne p.appName hsends.mem_names hname

/-- What the unload command finds is in the store under the name. -/
theorem findApp_eq_some {appStates : List JrtcAppState} {appName : String} {id : Int}
    (h : findApp appStates appName = some id) :
    ∃ x ∈ appStates, x.request.appName = appName ∧ x.id = id := by
  rw [findApp] at h
  split at h
  case _ x hfind =>
    have hname := List.find?_some hfind
    refine ⟨x, List.mem_of_find?_eq_some hfind, of_decide_eq_true hname, ?_⟩
    split at h
    · exact Option.some.inj h
    · cases h
  case _ => cases h

/-- A POST whose app is loaded was neither refused nor empty. -/
theorem convertible_of_pushing {s : Rest} {p : Payload} {out : LoadOutcome}
    (h : (s.post p out).pushing ≠ s.pushing) : p.Convertible ∧ p.app.size ≠ 0 := by
  rcases p.prepare_cases with ⟨-, details, hp⟩ | ⟨-, -, hp⟩ | ⟨-, hconv, hp⟩
  · rw [Rest.post, hp] at h
    exact absurd rfl h
  · rw [Rest.post, hp] at h
    exact absurd rfl h
  · refine ⟨hconv, fun hsize => h ?_⟩
    have hload : loadApp s.ctl p.cRequest out = (-1, s.ctl) := by
      show (if p.app.size = 0 then _ else _) = _
      rw [if_pos hsize]
    rw [Rest.post, hp]
    dsimp only
    rw [hload]
    rfl

/-- An app leaves the table at the end of the unload that waited for it. -/
theorem unloading_of_left {s s' : Rest} {l : RestCall} (hw : s.ctl.Wf) (h : RestStep s l s')
    {i : Slot} {e : EnvId} (hi : s.ctl.appEnvs i = some e) (hi' : s'.ctl.appEnvs i ≠ some e) :
    s.ctl.unloading = some (i, e) := by
  have heff := h.effect hw
  cases heff with
  | quiet htab => exact absurd (htab ▸ hi) hi'
  | loaded _ hfree htab =>
      rw [htab] at hi'
      exact absurd (update_of_free hfree hi) hi'
  | pushed htab => exact absurd (htab ▸ hi) hi'
  | @unloaded j e' hj htab _ _ hre =>
      by_cases hij : i = j
      · subst hij
        obtain rfl := Option.some.inj (hi.symm.trans hj)
        cases h with
        | @joined i' e' dlclosed ctl hwait hs =>
            have hsame : s.removing ++ [((i'.val : Int), some e')]
                = s.removing ++ [((i.val : Int), some e)] := hre
            obtain ⟨hid, he⟩ := Prod.mk.inj (List.singleton_inj.mp
              (List.append_cancel_left hsame))
            rw [hwait, Fin.ext (Int.ofNat.inj hid), Option.some.inj he]
      · rw [htab, Function.update_of_ne hij] at hi'
        exact absurd hi hi'
  | removed htab => exact absurd (htab ▸ hi) hi'
  | notFound htab => exact absurd (htab ▸ hi) hi'

/-! ## What every step keeps -/

section

variable {host : DeployHost} {ι : Type*}

/-- The app in an env came from a load of a deployment that counts as `d`. -/
def Mine (ident : Deployment host → ι) (owner : EnvId → Option (Deployment host))
    (d : Deployment host) (e : EnvId) : Prop :=
  ∃ d', owner e = some d' ∧ ident d' = ident d

/-- The run in progress unloads a deployment, and an app is one of that deployment. -/
def UnloadsFor (ident : Deployment host → ι) (s : Site host) (e : EnvId) : Prop :=
  ∃ d todo found, s.activity = .unloading d todo found ∧ Mine ident s.owner d e

/-- The apps that a step begins to unload or takes out of the table are those of the
    deployment that is being unloaded. -/
structure OwnOnly (ident : Deployment host → ι) (s : Site host) (_ : SiteCall host)
    (s' : Site host) : Prop where
  unloads : ∀ i e, s'.rest.ctl.unloading = some (i, e) → UnloadsFor ident s' e
  removes : ∀ i e, s.rest.ctl.appEnvs i = some e → s'.rest.ctl.appEnvs i ≠ some e →
    UnloadsFor ident s e

/-- The runs of the tool are of certain deployments, they end when the server has finished
    their requests, and no DELETE is dropped. -/
def Orderly (ds : Set (Deployment host)) (s : Site host) : SiteCall host → Prop
  | .load d => d ∈ ds
  | .unload d => d ∈ ds
  | .finish => s.rest.Quiet
  | .dropDelete _ => False
  | _ => True

/-- In all runs of the tool for certain deployments, every step touches only apps of the
    deployment that is being unloaded. -/
def UnloadsOwn (ident : Deployment host → ι) (ds : Set (Deployment host)) : Prop :=
  ∀ (router : JrtcRouter.RouterCtx) (ctl : Controller) (tr₀ : List (Controller × CtlCall))
    (tr : List (Site host × SiteCall host)) (s : Site host),
    Run CtlStep (Controller.init router) tr₀ ctl → ctl.Idle →
    Run SiteStep (Site.init host ctl) tr s → Meets (Orderly ds) tr →
    Obeys (OwnOnly ident) (Site.init host ctl) tr s

/-- What an entry of the store is of: an app in its slot that its deployment loaded, or one
    that is gone and whose DELETE waits for the lock. -/
def Stands (ds : Set (Deployment host)) (rest : Rest)
    (owner : EnvId → Option (Deployment host)) (x : JrtcAppState) : Prop :=
  ∃ i : Slot, x.id = i.val
    ∧ ((∃ e d, rest.ctl.appEnvs i = some e ∧ owner e = some d ∧ d ∈ ds ∧ d.Sends x.request)
      ∨ rest.ctl.appEnvs i = none ∧ ∃ e, (x.id, e) ∈ rest.removing)

/-- What is in progress at the server during a run of the tool. -/
def Expects (ident : Deployment host → ι) (ds : Set (Deployment host)) (rest : Rest)
    (owner : EnvId → Option (Deployment host)) : Activity host → Prop
  | .idle => rest.ctl.unloading = none ∧ rest.pushing = [] ∧ rest.removing = []
  | .loading d todo => d ∈ ds ∧ (∀ a ∈ todo, a ∈ d.config.apps)
      ∧ rest.ctl.unloading = none ∧ rest.removing = []
  | .unloading d todo found => d ∈ ds ∧ (∀ a ∈ todo, a ∈ d.config.apps)
      ∧ rest.pushing = []
      ∧ (∀ id ∈ found, ∀ i e, slotAt id = some i → rest.ctl.appEnvs i = some e →
          Mine ident owner d e)
      ∧ ∀ i e, rest.ctl.unloading = some (i, e) → Mine ident owner d e

/-- **TIDY.**  Every entry stands for something, no two have one id, and only the run in
    progress has requests at the server. -/
structure Tidy (ident : Deployment host → ι) (ds : Set (Deployment host)) (s : Site host) :
    Prop where
  wf      : s.rest.ctl.Wf
  entries : ∀ x ∈ s.rest.store ++ s.rest.pushing, Stands ds s.rest s.owner x
  nodup   : ((s.rest.store ++ s.rest.pushing).map JrtcAppState.id).Nodup
  expects : Expects ident ds s.rest s.owner s.activity

theorem mem_eraseIdx_of_ne {α : Type*} {l : List α} {n : Nat} {a b : α} (hb : l[n]? = some b)
    (ha : a ∈ l) (hne : a ≠ b) : a ∈ l.eraseIdx n := by
  obtain ⟨hn, rfl⟩ := List.getElem?_eq_some_iff.mp hb
  have hmem := (List.getElem_cons_eraseIdx_perm hn).mem_iff.mpr ha
  exact (List.mem_cons.mp hmem).resolve_left hne

namespace Tidy

variable {ident : Deployment host → ι} {ds : Set (Deployment host)} {s : Site host}

/-- No POST and DELETE wait for the lock at once. -/
theorem pushing_eq_nil (h : Tidy ident ds s) {x : Int × Option EnvId}
    (hx : x ∈ s.rest.removing) : s.rest.pushing = [] := by
  have hexp := h.expects
  cases hact : s.activity with
  | idle =>
      rw [hact] at hexp
      exact hexp.2.1
  | loading d todo =>
      rw [hact] at hexp
      rw [hexp.2.2.2] at hx
      cases hx
  | unloading d todo found =>
      rw [hact] at hexp
      exact hexp.2.2.1

/-! ### The server -/

section Server

variable {l : RestCall} {rest : Rest}

/-- A request that is done leaves the entries of other ids as they were. -/
theorem stands_eraseIdx {owner : EnvId → Option (Deployment host)} {x : JrtcAppState}
    (hx : Stands ds s.rest owner x) {n : Nat} {id : Int} {e : Option EnvId}
    (hreq : s.rest.removing[n]? = some (id, e)) (hne : x.id ≠ id)
    (htab : rest.ctl.appEnvs = s.rest.ctl.appEnvs)
    (hre : rest.removing = s.rest.removing.eraseIdx n) : Stands ds rest owner x := by
  obtain ⟨j, hid, hstands⟩ := hx
  refine ⟨j, hid, ?_⟩
  rw [htab, hre]
  refine hstands.imp_right ?_
  rintro ⟨hfree, e', hmem⟩
  exact ⟨hfree, e', mem_eraseIdx_of_ne hreq hmem fun heq => hne (Prod.mk.inj heq).1⟩

theorem entries_server (h : Tidy ident ds s) (hl : Inner l) (hs : RestStep s.rest l rest)
    {x : JrtcAppState} (hx : x ∈ rest.store ++ rest.pushing) : Stands ds rest s.owner x := by
  cases hs.effect h.wf with
  | quiet htab hst hpu hre =>
      rw [hst, hpu] at hx
      rw [Stands, htab, hre]
      exact h.entries x hx
  | loaded => exact hl.elim
  | @pushed n app htab happ hst hpu hre =>
      have hold : x ∈ s.rest.store ++ s.rest.pushing := by
        rw [hst, hpu, List.append_assoc, List.singleton_append] at hx
        rcases List.mem_append.mp hx with hx | hx
        · exact List.mem_append_left _ hx
        · refine List.mem_append_right _ ?_
          rcases List.mem_cons.mp hx with rfl | hx
          · exact List.mem_of_getElem? happ
          · exact List.mem_of_mem_eraseIdx hx
      rw [Stands, htab, hre]
      exact h.entries x hold
  | @unloaded i e hi htab hst hpu hre =>
      rw [hst, hpu] at hx
      obtain ⟨j, hid, hstands⟩ := h.entries x hx
      refine ⟨j, hid, ?_⟩
      rw [htab, hre]
      by_cases hj : j = i
      · subst hj
        refine Or.inr ⟨Function.update_self .., some e, ?_⟩
        rw [hid]
        exact List.mem_append_right _ (List.mem_singleton_self _)
      · rw [Function.update_of_ne hj]
        exact hstands.imp_right fun ⟨hfree, e', hmem⟩ =>
          ⟨hfree, e', List.mem_append_left _ hmem⟩
  | @removed n id e index app htab hreq happ hid hst hpu hre =>
      have hpushing := h.pushing_eq_nil (List.mem_of_getElem? hreq)
      rw [hst, hpu, hpushing, List.append_nil] at hx
      have hold := h.entries x (List.mem_append_left _ (List.mem_of_mem_eraseIdx hx))
      -- the entry that goes is the only one with its id
      have hne : x.id ≠ id := by
        intro heq
        obtain ⟨hlt, rfl⟩ := List.getElem?_eq_some_iff.mp happ
        have hnodup := h.nodup
        rw [hpushing, List.append_nil,
          ← ((List.getElem_cons_eraseIdx_perm hlt).map JrtcAppState.id).nodup_iff,
          List.map_cons, List.nodup_cons] at hnodup
        exact hnodup.1 (List.mem_map.mpr ⟨x, hx, heq.trans hid.symm⟩)
      exact stands_eraseIdx hold hreq hne htab hre
  | @notFound n id e htab hreq hno hst hpu hre =>
      have hpushing := h.pushing_eq_nil (List.mem_of_getElem? hreq)
      rw [hst, hpu] at hx
      have hold := h.entries x hx
      rw [hpushing, List.append_nil] at hx
      exact stands_eraseIdx hold hreq (hno x hx) htab hre

theorem nodup_server (h : Tidy ident ds s) (hl : Inner l) (hs : RestStep s.rest l rest) :
    ((rest.store ++ rest.pushing).map JrtcAppState.id).Nodup := by
  cases hs.effect h.wf with
  | quiet _ hst hpu => exact hst ▸ hpu ▸ h.nodup
  | loaded => exact hl.elim
  | @pushed n app _ happ hst hpu =>
      obtain ⟨hn, rfl⟩ := List.getElem?_eq_some_iff.mp happ
      have hperm : (rest.store ++ rest.pushing).Perm (s.rest.store ++ s.rest.pushing) := by
        rw [hst, hpu, List.append_assoc, List.singleton_append]
        exact (List.getElem_cons_eraseIdx_perm hn).append_left _
      exact (hperm.map _).nodup_iff.mpr h.nodup
  | unloaded _ _ hst hpu => exact hst ▸ hpu ▸ h.nodup
  | removed _ _ _ _ hst hpu =>
      rw [hst, hpu]
      exact h.nodup.sublist
        (((List.eraseIdx_sublist ..).append (List.Sublist.refl _)).map _)
  | notFound _ _ _ hst hpu => exact hst ▸ hpu ▸ h.nodup

theorem unloading_server (h : Tidy ident ds s) (hl : Inner l) (hs : RestStep s.rest l rest)
    {i : Slot} {e : EnvId} (hwait : rest.ctl.unloading = some (i, e)) :
    s.rest.ctl.unloading = some (i, e) := by
  rcases unloading_cases h.wf hs hwait with hold | ⟨id, rfl, -⟩
  · exact hold
  · exact hl.elim

theorem pushing_server (h : Tidy ident ds s) (hl : Inner l) (hs : RestStep s.rest l rest)
    (hnil : s.rest.pushing = []) : rest.pushing = [] := by
  cases hs.effect h.wf with
  | quiet _ _ hpu => exact hpu.trans hnil
  | loaded => exact hl.elim
  | pushed _ happ => rw [hnil] at happ; cases happ
  | unloaded _ _ _ hpu => exact hpu.trans hnil
  | removed _ _ _ _ _ hpu => exact hpu.trans hnil
  | notFound _ _ _ _ hpu => exact hpu.trans hnil

theorem removing_server (hs : RestStep s.rest l rest) (hnil : s.rest.removing = [])
    (hnone : s.rest.ctl.unloading = none) : rest.removing = [] := by
  refine List.eq_nil_iff_forall_not_mem.mpr fun x hx => ?_
  rcases removing_cases hs hx with hold | ⟨i, e, hwait, -⟩
  · rw [hnil] at hold
    cases hold
  · cases hnone.symm.trans hwait

theorem expects_server (h : Tidy ident ds s) (hl : Inner l) (hs : RestStep s.rest l rest) :
    Expects ident ds rest s.owner s.activity := by
  have hexp := h.expects
  have hnone : s.rest.ctl.unloading = none → rest.ctl.unloading = none := by
    intro hnone
    refine Option.eq_none_iff_forall_ne_some.mpr fun x hwait => ?_
    cases hnone.symm.trans (h.unloading_server hl hs (i := x.1) (e := x.2) hwait)
  cases hact : s.activity with
  | idle =>
      rw [hact] at hexp
      obtain ⟨hwait, hpush, hrem⟩ := hexp
      exact ⟨hnone hwait, h.pushing_server hl hs hpush, removing_server hs hrem hwait⟩
  | loading d todo =>
      rw [hact] at hexp
      obtain ⟨hd, htodo, hwait, hrem⟩ := hexp
      exact ⟨hd, htodo, hnone hwait, removing_server hs hrem hwait⟩
  | unloading d todo found =>
      rw [hact] at hexp
      obtain ⟨hd, htodo, hpush, hfound, hwait⟩ := hexp
      refine ⟨hd, htodo, h.pushing_server hl hs hpush, fun id hid i e hi he => ?_,
        fun i e he => hwait i e (h.unloading_server hl hs he)⟩
      rcases hs.slot_cases h.wf he with hold | ⟨p, out, handle, rfl, -⟩
      · exact hfound id hid i e hi hold
      · exact hl.elim

/-- The server goes on with its requests. -/
theorem server (h : Tidy ident ds s) (hl : Inner l) (hs : RestStep s.rest l rest) :
    Tidy ident ds { s with rest := rest } where
  wf := (hs.keeps h.wf).1
  entries := fun _ hx => h.entries_server hl hs hx
  nodup := h.nodup_server hl hs
  expects := h.expects_server hl hs

end Server

/-! ### The tool -/

section Tool

variable {d : Deployment host} {todo : List DeployedApp} {found : List Int} {n : Nat}

/-- An env in a slot was allocated before: a new owner is not its owner. -/
theorem owner_update (h : Tidy ident ds s) {i : Slot} {e : EnvId}
    (hi : s.rest.ctl.appEnvs i = some e) :
    Function.update s.owner s.rest.ctl.nextEnv (some d) e = s.owner e := by
  refine Function.update_of_ne ?_ _ _
  rintro rfl
  exact h.wf.env_fresh hi

/-- A run of the tool begins. -/
theorem load (h : Tidy ident ds s) (hact : s.activity = .idle) (hd : d ∈ ds) :
    Tidy ident ds { s with activity := .loading d d.config.apps } := by
  have hexp := h.expects
  rw [hact] at hexp
  exact ⟨h.wf, h.entries, h.nodup, hd, fun _ ha => ha, hexp.1, hexp.2.2⟩

theorem unload (h : Tidy ident ds s) (hact : s.activity = .idle) (hd : d ∈ ds) :
    Tidy ident ds { s with activity := .unloading d d.config.apps [] } := by
  have hexp := h.expects
  rw [hact] at hexp
  obtain ⟨hnone, hpush, -⟩ := hexp
  exact ⟨h.wf, h.entries, h.nodup, hd, fun _ ha => ha, hpush,
    fun _ hid => absurd hid List.not_mem_nil,
    fun _ _ hwait => absurd (hnone.symm.trans hwait) (Option.some_ne_none _).symm⟩

/-- A run of the tool ends. -/
theorem finish (h : Tidy ident ds s) (hquiet : s.rest.Quiet) :
    Tidy ident ds { s with activity := .idle } :=
  ⟨h.wf, h.entries, h.nodup, hquiet.1.2, hquiet.2.1, hquiet.2.2⟩

/-- While no DELETE waits for the lock, the entries are of apps in their slots. -/
theorem entry_loaded (h : Tidy ident ds s) (hrem : s.rest.removing = []) {x : JrtcAppState}
    (hx : x ∈ s.rest.store ++ s.rest.pushing) : ∃ (i : Slot) (e : EnvId) (d : Deployment host),
      x.id = i.val ∧ s.rest.ctl.appEnvs i = some e ∧ s.owner e = some d ∧ d ∈ ds
        ∧ d.Sends x.request := by
  obtain ⟨i, hid, ⟨e, d, hi, howner, hd, hsends⟩ | ⟨-, e, hmem⟩⟩ := h.entries x hx
  · exact ⟨i, e, d, hid, hi, howner, hd, hsends⟩
  · rw [hrem] at hmem
    cases hmem

/-- The id of a free slot is new. -/
theorem fresh_id (h : Tidy ident ds s) (hrem : s.rest.removing = []) {i : Slot}
    (hi : s.rest.ctl.appEnvs i = none) {x : JrtcAppState}
    (hx : x ∈ s.rest.store ++ s.rest.pushing) : x.id ≠ i.val := by
  intro heq
  obtain ⟨j, e, d, hid, hj, -⟩ := h.entry_loaded hrem hx
  obtain rfl : j = i := Fin.ext (Int.ofNat.inj (hid.symm.trans heq))
  cases hi.symm.trans hj

section Post

variable {p : Payload} {out : LoadOutcome} {rest : Rest}

theorem entries_post (h : Tidy ident ds s) (hrem : s.rest.removing = []) (hd : d ∈ ds)
    (hsends : p.Convertible → p.app.size ≠ 0 → d.Sends p)
    (hs : RestStep s.rest (.post p out) rest) {x : JrtcAppState}
    (hx : x ∈ rest.store ++ rest.pushing) :
    Stands ds rest (Function.update s.owner s.rest.ctl.nextEnv (some d)) x := by
  -- an entry that was there stands for what it did if its app is still in its slot
  have hold : ∀ x ∈ s.rest.store ++ s.rest.pushing,
      (∀ i e, s.rest.ctl.appEnvs i = some e → rest.ctl.appEnvs i = some e) →
      Stands ds rest (Function.update s.owner s.rest.ctl.nextEnv (some d)) x := by
    intro x hx hkept
    obtain ⟨i, e, d', hid, hi, howner, hd', hsends'⟩ := h.entry_loaded hrem hx
    exact ⟨i, hid, Or.inl ⟨e, d', hkept i e hi, (h.owner_update hi).trans howner, hd', hsends'⟩⟩
  cases hs.effect h.wf with
  | quiet htab hst hpu =>
      rw [hst, hpu] at hx
      exact hold x hx fun i e hi => htab ▸ hi
  | @loaded _ _ i handle _ hi htab _ _ hst hpu =>
      rw [hst, hpu, ← List.append_assoc, List.mem_append, List.mem_singleton] at hx
      rcases hx with hx | rfl
      · refine hold x hx fun j e hj => ?_
        rw [htab]
        exact update_of_free hi hj
      · refine ⟨i, rfl, Or.inl ⟨s.rest.ctl.nextEnv, d, ?_, Function.update_self .., hd, ?_⟩⟩
        · rw [htab, Function.update_self]
        · have hpushing : rest.pushing ≠ s.rest.pushing := by
            rw [hpu]
            exact fun heq => List.cons_ne_nil _ _ (List.append_right_eq_self.mp heq)
          cases hs
          obtain ⟨hconv, hsize⟩ := convertible_of_pushing hpushing
          exact hsends hconv hsize

theorem nodup_post (h : Tidy ident ds s) (hrem : s.rest.removing = [])
    (hs : RestStep s.rest (.post p out) rest) :
    ((rest.store ++ rest.pushing).map JrtcAppState.id).Nodup := by
  cases hs.effect h.wf with
  | quiet _ hst hpu => exact hst ▸ hpu ▸ h.nodup
  | loaded _ hi _ _ _ hst hpu =>
      rw [hst, hpu, ← List.append_assoc, List.map_append, List.nodup_append]
      refine ⟨h.nodup, List.nodup_singleton _, fun id hid id' hid' heq => ?_⟩
      obtain ⟨x, hx, rfl⟩ := List.mem_map.mp hid
      obtain rfl := List.mem_singleton.mp hid'
      exact h.fresh_id hrem hi hx heq

theorem post (h : Tidy ident ds s) (hact : s.activity = .loading d todo) {a : DeployedApp}
    {req : JrtcAppLoadRequest} (ha : todo[n]? = some a)
    (hreq : appRequest host d.config a = .ok req) (hdec : Decodes req p)
    (hs : RestStep s.rest (.post p out) rest) :
    Tidy ident ds
      { rest := rest
        activity := .loading d (todo.eraseIdx n)
        owner := Function.update s.owner s.rest.ctl.nextEnv (some d) } := by
  have hexp := h.expects
  rw [hact] at hexp
  obtain ⟨hd, htodo, hnone, hrem⟩ := hexp
  have hnone' : rest.ctl.unloading = none := by
    refine Option.eq_none_iff_forall_ne_some.mpr fun x hwait => ?_
    rcases unloading_cases h.wf hs (i := x.1) (e := x.2) hwait with hold | ⟨id, hl, -⟩
    · cases hnone.symm.trans hold
    · cases hl
  have hsends : p.Convertible → p.app.size ≠ 0 → d.Sends p :=
    fun hconv hsize => ⟨⟨a, htodo a (List.mem_of_getElem? ha), req, hreq, hdec⟩, hconv, hsize⟩
  exact ⟨(hs.keeps h.wf).1, fun _ hx => h.entries_post hrem hd hsends hs hx,
    h.nodup_post hrem hs, hd, fun x hx => htodo x (List.mem_of_mem_eraseIdx hx), hnone',
    removing_server hs hrem hnone⟩

end Post

/-- The id that a goroutine finds is that of an app of its deployment. -/
theorem get (h : Tidy ident ds s) (hapart : Apart ident ds)
    (hact : s.activity = .unloading d todo found) {a : DeployedApp} (ha : todo[n]? = some a) :
    Tidy ident ds { s with
      activity := .unloading d (todo.eraseIdx n)
        (found ++ (findApp s.rest.store a.app.name).toList) } := by
  have hexp := h.expects
  rw [hact] at hexp
  obtain ⟨hd, htodo, hpush, hfound, hwait⟩ := hexp
  refine ⟨h.wf, h.entries, h.nodup, hd, fun x hx => htodo x (List.mem_of_mem_eraseIdx hx),
    hpush, fun id hid i e hi he => ?_, hwait⟩
  rcases List.mem_append.mp hid with hid | hid
  · exact hfound id hid i e hi he
  · obtain ⟨x, hx, hname, rfl⟩ := findApp_eq_some (Option.mem_toList.mp hid)
    obtain ⟨j, hidx, hstands⟩ := h.entries x (List.mem_append_left _ hx)
    obtain rfl : j = i := by
      rw [hidx, slotAt_val] at hi
      exact Option.some.inj hi
    rcases hstands with ⟨e', d', he', howner, hd', hsends⟩ | ⟨hfree, -⟩
    · obtain rfl := Option.some.inj (he.symm.trans he')
      exact ⟨d', howner, hapart d' hd' d hd x.request hsends
        ⟨a, htodo a (List.mem_of_getElem? ha), hname.symm⟩⟩
    · cases hfree.symm.trans he

theorem delete (h : Tidy ident ds s) (hact : s.activity = .unloading d todo found) {id : Int}
    {rest : Rest} (hid : found[n]? = some id) (hs : RestStep s.rest (.delete id) rest) :
    Tidy ident ds { s with
      rest := rest, activity := .unloading d todo (found.eraseIdx n) } := by
  have hexp := h.expects
  rw [hact] at hexp
  obtain ⟨hd, htodo, hpush, hfound, hwait⟩ := hexp
  have hwf := (hs.keeps h.wf).1
  have hwait' : ∀ i e, rest.ctl.unloading = some (i, e) → Mine ident s.owner d e := by
    intro i e he
    rcases unloading_cases h.wf hs he with hold | ⟨id', hl, hi, he'⟩
    · exact hwait i e hold
    · cases hl
      exact hfound id (List.mem_of_getElem? hid) i e hi he'
  cases hs.effect h.wf with
  | quiet htab hst hpu hre =>
      refine ⟨hwf, fun x hx => ?_, hst ▸ hpu ▸ h.nodup, hd, htodo, hpu.trans hpush,
        fun id' hid' i e hi he => ?_, hwait'⟩
      · dsimp only at hx ⊢
        rw [hst, hpu] at hx
        rw [Stands, htab, hre]
        exact h.entries x hx
      · exact hfound id' (List.mem_of_mem_eraseIdx hid') i e hi (htab ▸ he)

/-- A POST that is dropped leaves an app that is not stored. -/
theorem dropPost (h : Tidy ident ds s) :
    Tidy ident ds { s with
      rest := { s.rest with pushing := s.rest.pushing.eraseIdx n } } := by
  have hsub : (s.rest.store ++ s.rest.pushing.eraseIdx n).Sublist
      (s.rest.store ++ s.rest.pushing) :=
    (List.Sublist.refl _).append (List.eraseIdx_sublist ..)
  refine ⟨h.wf, fun x hx => h.entries x (hsub.subset hx), h.nodup.sublist (hsub.map _), ?_⟩
  have hexp := h.expects
  have hnil : s.rest.pushing = [] → s.rest.pushing.eraseIdx n = [] := by
    intro hnil
    rw [hnil, List.eraseIdx_nil]
  show Expects ident ds _ s.owner s.activity
  cases hact : s.activity with
  | idle =>
      rw [hact] at hexp
      exact ⟨hexp.1, hnil hexp.2.1, hexp.2.2⟩
  | loading d todo =>
      rw [hact] at hexp
      exact hexp
  | unloading d todo found =>
      rw [hact] at hexp
      obtain ⟨hd, htodo, hpush, hrest⟩ := hexp
      exact ⟨hd, htodo, hnil hpush, hrest⟩

end Tool

/-! ### Steps and runs -/

theorem step (h : Tidy ident ds s) (hapart : Apart ident ds) {l : SiteCall host}
    {s' : Site host} (hC : Orderly ds s l) (hs : SiteStep s l s') : Tidy ident ds s' := by
  have hexp := h.expects
  cases hs with
  | load hact => exact h.load hact hC
  | unload hact => exact h.unload hact hC
  | post hact ha hreq hdec hrest => exact h.post hact ha hreq hdec hrest
  | get hact ha => exact h.get hapart hact ha
  | delete hact hid hrest => exact h.delete hact hid hrest
  | giveUpLoad hact =>
      rw [hact] at hexp
      obtain ⟨hd, htodo, hrest⟩ := hexp
      exact ⟨h.wf, h.entries, h.nodup, hd,
        fun x hx => htodo x (List.mem_of_mem_eraseIdx hx), hrest⟩
  | giveUpUnload hact =>
      rw [hact] at hexp
      obtain ⟨hd, htodo, hrest⟩ := hexp
      exact ⟨h.wf, h.entries, h.nodup, hd,
        fun x hx => htodo x (List.mem_of_mem_eraseIdx hx), hrest⟩
  | giveUpDelete hact =>
      rw [hact] at hexp
      obtain ⟨hd, htodo, hpush, hfound, hwait⟩ := hexp
      exact ⟨h.wf, h.entries, h.nodup, hd, htodo, hpush,
        fun id hid => hfound id (List.mem_of_mem_eraseIdx hid), hwait⟩
  | finishLoad => exact h.finish hC
  | finishUnload => exact h.finish hC
  | server hl hrest => exact h.server hl hrest
  | dropPost => exact h.dropPost
  | dropDelete => exact hC.elim

/-- What is being unloaded is the run's own. -/
theorem unloadsFor (h : Tidy ident ds s) {i : Slot} {e : EnvId}
    (hwait : s.rest.ctl.unloading = some (i, e)) : UnloadsFor ident s e := by
  have hexp := h.expects
  cases hact : s.activity with
  | idle =>
      rw [hact] at hexp
      cases hexp.1.symm.trans hwait
  | loading d todo =>
      rw [hact] at hexp
      cases hexp.2.2.1.symm.trans hwait
  | unloading d todo found =>
      rw [hact] at hexp
      exact ⟨d, todo, found, hact, hexp.2.2.2.2 i e hwait⟩

theorem ownOnly (h : Tidy ident ds s) {l : SiteCall host} {s' : Site host}
    (hs : SiteStep s l s') (h' : Tidy ident ds s') : OwnOnly ident s l s' := by
  refine ⟨fun i e hwait => h'.unloadsFor hwait, fun i e hi hi' => ?_⟩
  have hleft : ∀ {l' : RestCall} {rest : Rest}, RestStep s.rest l' rest →
      rest.ctl.appEnvs i ≠ some e → UnloadsFor ident s e :=
    fun hrest hne => h.unloadsFor (unloading_of_left h.wf hrest hi hne)
  cases hs with
  | post _ _ _ _ hrest => exact hleft hrest hi'
  | delete _ _ hrest => exact hleft hrest hi'
  | server _ hrest => exact hleft hrest hi'
  | load => exact absurd hi hi'
  | unload => exact absurd hi hi'
  | get => exact absurd hi hi'
  | giveUpLoad => exact absurd hi hi'
  | giveUpUnload => exact absurd hi hi'
  | giveUpDelete => exact absurd hi hi'
  | finishLoad => exact absurd hi hi'
  | finishUnload => exact absurd hi hi'
  | dropPost => exact absurd hi hi'
  | dropDelete => exact absurd hi hi'

theorem init {ctl : Controller} (hw : ctl.Wf) (hidle : ctl.Idle) :
    Tidy ident ds (Site.init host ctl) where
  wf := hw
  entries := fun _ hx => absurd hx List.not_mem_nil
  nodup := List.nodup_nil
  expects := ⟨hidle.2, rfl, rfl⟩

end Tidy

/-! ## A name in two deployments -/

/-- The goroutines that are left give up. -/
theorem run_giveUp {ds : Set (Deployment host)} {s₀ s : Site host}
    {tr : List (Site host × SiteCall host)} {d : Deployment host} {todo : List DeployedApp}
    (hact : s.activity = .loading d todo) (h : Run SiteStep s₀ tr s)
    (hC : Meets (Orderly ds) tr) : ∃ tr',
      Run SiteStep s₀ tr' { s with activity := .loading d [] } ∧ Meets (Orderly ds) tr' := by
  induction todo generalizing tr s with
  | nil =>
      rw [← hact]
      exact ⟨tr, h, hC⟩
  | cons a todo ih =>
      have hnext := h.next (.giveUpLoad (n := 0) hact)
      obtain ⟨tr', hrun, hC'⟩ := ih (s := { s with activity := .loading d todo }) rfl hnext
        (meets_snoc.mpr ⟨hC, trivial⟩)
      exact ⟨tr', hrun, hC'⟩

/-- A first load puts an app of the deployment into the table and the store. -/
theorem run_load {ds : Set (Deployment host)} {d : Deployment host} (hd : d ∈ ds) {p : Payload}
    (hsends : d.Sends p) (router : JrtcRouter.RouterCtx) :
    ∃ tr s, Run SiteStep (Site.init host (Controller.init router)) tr s
      ∧ Meets (Orderly ds) tr ∧ s.activity = .idle ∧ s.rest.ctl.Idle
      ∧ ∃ i : Slot, s.rest.store = [⟨i.val, p⟩] ∧ s.rest.ctl.appEnvs i = some 0
        ∧ s.owner 0 = some d := by
  obtain ⟨⟨a, ha, req, hreq, hdec⟩, hconv, hsize⟩ := hsends
  obtain ⟨n, hn⟩ := List.getElem?_of_mem ha
  have hadm : Admitted (Controller.init router) p.cRequest p.app :=
    ⟨rfl, hsize, isAppLoaded_of_empty (fun _ => rfl) _⟩
  obtain ⟨i, hi⟩ := hadm.loaded (i := 0) rfl
  have hidle : (loadApp (Controller.init router) p.cRequest ⟨true, true, true⟩).2.Idle
      ∧ (loadApp (Controller.init router) p.cRequest ⟨true, true, true⟩).2.appEnvs i
        = some 0 := by
    have heff := loadApp_cases (Controller.init router) p.cRequest ⟨true, true, true⟩
    generalize (loadApp (Controller.init router) p.cRequest ⟨true, true, true⟩).1 = r,
      (loadApp (Controller.init router) p.cRequest ⟨true, true, true⟩).2 = ctl at heff hi
    have hneg : (-1 : Int) ≠ i.val := by omega
    cases heff with
    | refused => exact absurd hi hneg
    | noSlot => exact absurd hi hneg
    | noLibrary => exact absurd hi hneg
    | noThread => exact absurd hi hneg
    | @loaded _ j =>
        obtain rfl : j = i := Fin.ext (Int.ofNat.inj hi)
        exact ⟨⟨rfl, rfl⟩, Function.update_self ..⟩
  have hload := (@Run.start _ _ SiteStep (Site.init host (Controller.init router))).next
    (@SiteStep.load host _ d rfl)
  have hrest : RestStep (Rest.init (Controller.init router)) (.post p ⟨true, true, true⟩) _ :=
    .post ⟨rfl, rfl⟩
  rw [@Rest.post_loaded (Rest.init (Controller.init router)) p _ i hconv hi] at hrest
  have hpost := hload.next (.post rfl hn hreq hdec hrest)
  have hinner : Inner (.push 0) := trivial
  have hpush := hpost.next (.server hinner (@RestStep.push _ 0 _ hidle.1 rfl))
  obtain ⟨tr, hrun, hC⟩ := @run_giveUp host ds _ _ _ _ _ rfl hpush (by
    simp only [meets_snoc, Orderly, hd, and_true]
    exact meets_nil)
  have hfinish := hrun.next (.finishLoad rfl)
  have howner : Function.update (fun _ : EnvId => none) 0 (some d) 0 = some d :=
    Function.update_self ..
  exact ⟨_, _, hfinish, meets_snoc.mpr ⟨hC, hidle.1, rfl, rfl⟩, rfl, hidle.1, i, rfl, hidle.2,
    howner⟩

/-- An unload of another deployment with that name then unloads the app. -/
theorem run_unload {ds : Set (Deployment host)} {d d' : Deployment host} (hd : d ∈ ds)
    (hd' : d' ∈ ds) {p : Payload} (hsends : d.Sends p) (hname : p.appName ∈ d'.names)
    (router : JrtcRouter.RouterCtx) :
    ∃ tr s l s', Run SiteStep (Site.init host (Controller.init router)) (tr ++ [(s, l)]) s'
      ∧ Meets (Orderly ds) (tr ++ [(s, l)])
      ∧ (∃ todo found, s'.activity = .unloading d' todo found)
      ∧ ∃ i, s'.rest.ctl.unloading = some (i, 0) ∧ s'.owner 0 = some d := by
  obtain ⟨tr, s, hrun, hC, hact, hidle, i, hstore, hslot, howner⟩ := run_load hd hsends router
  obtain ⟨a, ha, hname⟩ := hname
  obtain ⟨n, hn⟩ := List.getElem?_of_mem ha
  have hfind : findApp s.rest.store a.app.name = some (i.val : Int) := by
    have hneg : (i.val : Int) ≠ -1 := by omega
    rw [hstore, findApp, hname]
    simp only [List.find?_cons, decide_true, if_pos hneg]
  have hunload := hrun.next (@SiteStep.unload host _ d' hact)
  have hget := hunload.next (.get rfl hn hidle)
  dsimp only at hget
  rw [hfind] at hget
  have hdelete := hget.next (.delete (n := 0) rfl rfl (@RestStep.delete _ _ hidle))
  refine ⟨_, _, _, _, hdelete, ?_, ⟨_, _, rfl⟩, i, ?_, howner⟩
  · simp only [meets_snoc, hC, Orderly, hd', and_true]
  · show (Rest.delete s.rest i.val).ctl.unloading = some (i, 0)
    rw [Rest.delete, unloadApp, slotAt_val]
    dsimp only
    rw [hslot]

theorem apart_of_unloadsOwn {ident : Deployment host → ι} {ds : Set (Deployment host)}
    (h : UnloadsOwn ident ds) : Apart ident ds := by
  intro d hd d' hd' p hsends hname
  obtain ⟨tr, s, l, s', hrun, hC, ⟨todo, found, hact⟩, i, hwait, howner⟩ :=
    run_unload hd hd' hsends hname JrtcRouter.World.init.router
  have hobeys := h _ _ _ _ _ Run.start ⟨rfl, rfl⟩ hrun hC
  obtain ⟨d₁, todo₁, found₁, hact₁, d₂, howner₂, hident⟩ :=
    (obeys_snoc.mp hobeys).2.unloads i 0 hwait
  obtain rfl := Option.some.inj (howner.symm.trans howner₂)
  rw [hact] at hact₁
  cases hact₁
  exact hident

/-- **UNLOADING IS LOCAL**: whatever the order of loads and unloads of some deployments, an
    unload touches only apps of its own deployment, iff no name of an app that one of them
    can load is in another. -/
theorem unloadsOwn_iff_apart (ident : Deployment host → ι) (ds : Set (Deployment host)) :
    UnloadsOwn ident ds ↔ Apart ident ds := by
  refine ⟨apart_of_unloadsOwn, fun hapart router ctl tr₀ tr s h₀ hidle hrun hC => ?_⟩
  refine (hrun.obeys_of_meets (Q := Tidy ident ds)
    (Tidy.init (Controller.wf_run h₀) hidle) (fun hq hc hs => ?_) hC).2
  have hnext := hq.step hapart hc hs
  exact ⟨hnext, hq.ownOnly hs hnext⟩

end

/-! ## Two deployments with an app of one name -/

/-- A deployment with one app. -/
def oneApp (name path : String) : RawConfig where
  apps := [
    { name := "app"
      optionalDeadline := none
      optionalIOQSize := none
      optionalIP := none
      optionalPeriod := none
      optionalRuntime := none
      port := 3001
      sharedLibraryPath := path
      appType := "c"
      appParams := IterMap.empty
      appModules := [] }]
  decoders := []
  jbpf := some ⟨[], []⟩
  name := name

/-- A machine with two files of deployments; the other files are libraries. -/
def twoFiles : DeployHost where
  expandEnv := id
  stat := fun _ => .ok false
  readFile := fun file => .ok (if file = "first.yaml" then [1] else [2])
  unmarshalYaml := fun _ => .ok sampleCodelets
  murmurHash64A := fun _ _ => 0
  abs := .ok
  checkYaml := fun _ => .ok ()
  marshalJson := .ok
  unmarshalConfig := fun data =>
    .ok (if data = [1] then oneApp "first" "first.so" else oneApp "second" "second.so")
  parseDuration := fun _ => .ok 0
  startApp := fun _ => true

/-- The app that is read from `oneApp`. -/
def readApp (path : String) : DeployedApp where
  ip := "127.0.0.1"
  port := 3001
  app :=
    { name := "app"
      sharedLibraryPath := path
      sharedLibraryCode := ⟨1, true⟩
      ioqSize := 1000
      deadline := 0
      period := 0
      runtime := 0
      appType := "c"
      appParams := IterMap.empty
      appModules := [] }

def firstDeployment : Deployment twoFiles :=
  ⟨["first.yaml"], ⟨[readApp "first.so"], [], ⟨[], []⟩, "first"⟩, rfl⟩

def secondDeployment : Deployment twoFiles :=
  ⟨["second.yaml"], ⟨[readApp "second.so"], [], ⟨[], []⟩, "second"⟩, rfl⟩

/-- What the server makes of the request for the first one's app. -/
def firstPayload : Payload :=
  ⟨⟨1, true⟩, "app", 0, 0, 0, 1000, "first.so", "c", .empty, .empty, []⟩

theorem firstDeployment_sends : firstDeployment.Sends firstPayload where
  request := by
    refine ⟨readApp "first.so", List.mem_singleton_self _, _, rfl, ?_⟩
    exact ⟨rfl, rfl, by decide, by decide, by decide, by decide, rfl, rfl, List.Perm.refl _,
      List.Perm.refl _, rfl⟩
  convertible := by constructor <;> simp [firstPayload, hasNul, IterMap.empty]
  size := Nat.one_ne_zero

/-- The app of the first deployment is unloaded with the second one, which was never
    loaded. -/
theorem other_deployment_unloaded :
    ¬ UnloadsOwn (fun d => d.config.name) {firstDeployment, secondDeployment} := by
  intro h
  have hname : firstPayload.appName ∈ secondDeployment.names :=
    ⟨_, List.mem_singleton_self _, rfl⟩
  have hident := apart_of_unloadsOwn h firstDeployment (Or.inl rfl) secondDeployment
    (Or.inr rfl) firstPayload firstDeployment_sends hname
  exact absurd hident (by decide)

end JrtcDeploymentRun
