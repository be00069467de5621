import JrtController.ShellExpandProofs
import JrtController.SplitConfigProofs

/-! # Environment variables in a deployment

    Paths, modules, parameters and the files of codelet sets may refer to environment
    variables.  `expandEnvVars` replaces them where they stand in the configuration, with a
    loop over the modules that is there twice and a type switch over the parameters, and
    `JBPFOptions.Parse` replaces them once more in the file it opens.

    * `expandValue` — the type switch, on the types that decoding JSON gives;
    * `fromYamls_used` — the strings of a configuration that `FromYamls` returns;
    * `exactlyOnce_iff_unmoved` — every string is expanded exactly once iff expanding modules
      and files again, and strings in lists at all, would change nothing;
    * `exactlyOnce_iff` — and it is so in every environment iff modules and files refer to no
      variable, and strings in lists have nothing to replace. -/

namespace JrtcConfigExpansion

open Loops IterMaps ShellExpand JrtcLoadRequest JrtcDeployment JrtcSplitConfig

/-! ## The environment -/

/-- A name that a variable of the environment can have. -/
def Settable (name : List Char) : Prop := name ≠ [] ∧ '=' ∉ name ∧ Char.ofNat 0 ∉ name

/-- The environment of a process. -/
structure Environment where
  getenv   : List Char → Option (List Char)
  settable : ∀ name value, getenv name = some value → Settable name
  noNul    : ∀ name value, getenv name = some value → Char.ofNat 0 ∉ value

instance : DecidablePred Settable := fun _ => inferInstanceAs (Decidable (_ ∧ _ ∧ _))

section Table

variable (table : List Char → Option (List Char))

/-- The entries of a table that an environment can have. -/
def settableIn (name : List Char) : Option (List Char) :=
  if Settable name then (table name).filter fun value => Char.ofNat 0 ∉ value else none

theorem settableIn_eq_some {name value : List Char} (h : settableIn table name = some value) :
    Settable name ∧ Char.ofNat 0 ∉ value := by
  rw [settableIn] at h
  by_cases hname : Settable name
  · rw [if_pos hname, Option.filter_eq_some_iff] at h
    exact ⟨hname, of_decide_eq_true h.2⟩
  · rw [if_neg hname] at h
    cases h

theorem settable_of_settableIn (name value : List Char)
    (h : settableIn table name = some value) : Settable name :=
  (settableIn_eq_some table h).1

theorem noNul_of_settableIn (name value : List Char)
    (h : settableIn table name = some value) : Char.ofNat 0 ∉ value :=
  (settableIn_eq_some table h).2

/-- The environment with these entries. -/
def Environment.of : Environment where
  getenv := settableIn table
  settable := settable_of_settableIn table
  noNul := noNul_of_settableIn table

end Table

/-- `os.Getenv`: a variable that is not set counts as empty. -/
def Environment.mapping (env : Environment) : List Char → List Char := fun name =>
  (env.getenv name).getD []

/-- `os.ExpandEnv`. -/
def expandEnv (env : Environment) (s : String) : String :=
  String.ofList (expand env.mapping s.toList)

/-- A machine in an environment. -/
def onEnvironment (host : DeployHost) (env : Environment) : DeployHost :=
  { host with expandEnv := expandEnv env }

/-! ## Parameters -/

/-- A parameter in a file; a number, a boolean, null or an object is `other`. -/
inductive Json where
  | text (s : String)
  | list (items : List Json)
  | other

/-- A value of type `interface{}`. -/
inductive GoValue where
  | string (s : String)
  | strings (v : List String)
  | slice (items : List GoValue)
  | other

mutual

/-- Decoding JSON into an `interface{}`: a list becomes an `[]interface{}`. -/
def unmarshal : Json → GoValue
  | .text s => .string s
  | .list items => .slice (unmarshalAll items)
  | .other => .other

def unmarshalAll : List Json → List GoValue
  | [] => []
  | j :: js => unmarshal j :: unmarshalAll js

end

/-- The type switch of `expandEnvVars`. -/
def expandValue (expandEnv : String → String) : GoValue → GoValue
  | .string v => .string (expandEnv v)
  | .strings v => .strings (v.map expandEnv)
  | .slice items => .slice items
  | .other => .other

/-- What the models of the request know of a value. -/
def GoValue.forget : GoValue → ParamValue
  | .string s => .text s
  | .strings _ => .other
  | .slice _ => .other
  | .other => .other

/-! ## The strings of a configuration -/

/-- An app of a file, with its parameters. -/
structure FileApp where
  app     : AppConfig
  params  : IterMap String Json
  forgets : app.appParams = params.mapValues fun j => (unmarshal j).forget

/-- The apps and codelet sets of the files of a deployment. -/
structure FileConfig where
  apps     : List FileApp
  codelets : List JBPFCodelet

/-- The strings of an app that may refer to variables. -/
structure AppStrings where
  path    : String
  modules : List String
  params  : IterMap String GoValue

/-- The strings with which an app is loaded. -/
def FileApp.used (host : DeployHost) (a : FileApp) : AppStrings where
  path := (a.app.expandEnvVars host).sharedLibraryPath
  modules := (a.app.expandEnvVars host).appModules
  params := a.params.mapValues fun j => expandValue host.expandEnv (unmarshal j)

/-- The file that `JBPFOptions.Parse` opens, before it is made absolute. -/
def openedFile (host : DeployHost) (config : String) : String := host.expandEnv config

/-- The strings with which a deployment is loaded: those of its apps, and the files that are
    opened for its codelet sets. -/
def FileConfig.used (host : DeployHost) (c : FileConfig) : List AppStrings × List String :=
  (c.apps.map (FileApp.used host),
    c.codelets.map fun j => openedFile host (host.expandEnv j.configFile))

mutual

/-- A value with all strings in it expanded. -/
def GoValue.expandedOnce (expandEnv : String → String) : GoValue → GoValue
  | .string s => .string (expandEnv s)
  | .strings v => .strings (v.map expandEnv)
  | .slice items => .slice (expandedOnceAll expandEnv items)
  | .other => .other

def expandedOnceAll (expandEnv : String → String) : List GoValue → List GoValue
  | [] => []
  | v :: vs => v.expandedOnce expandEnv :: expandedOnceAll expandEnv vs

end

/-- The strings of an app, each expanded once. -/
def FileApp.expandedOnce (expandEnv : String → String) (a : FileApp) : AppStrings where
  path := expandEnv a.app.sharedLibraryPath
  modules := a.app.appModules.map expandEnv
  params := a.params.mapValues fun j => (unmarshal j).expandedOnce expandEnv

def FileConfig.expandedOnce (expandEnv : String → String) (c : FileConfig) :
    List AppStrings × List String :=
  (c.apps.map (FileApp.expandedOnce expandEnv), c.codelets.map fun j => expandEnv j.configFile)

/-- Every string is used as it is in the file, expanded once. -/
def ExactlyOnce (host : DeployHost) (c : FileConfig) : Prop :=
  c.used host = c.expandedOnce host.expandEnv

/-! ## The models of the tool -/

/-- What the models of an app have of its strings. -/
def configStrings (a : AppConfig) : String × List String × IterMap String ParamValue :=
  (a.sharedLibraryPath, a.appModules, a.appParams)

def deployedStrings (a : DeployedApp) : String × List String × IterMap String ParamValue :=
  (a.app.sharedLibraryPath, a.app.appModules, a.app.appParams)

def AppStrings.forget (s : AppStrings) : String × List String × IterMap String ParamValue :=
  (s.path, s.modules, s.params.mapValues GoValue.forget)

/-- `expandEnvVars` of `DeploymentProofs` is the type switch, where lists are forgotten. -/
theorem configStrings_expandEnvVars (host : DeployHost) (a : FileApp) :
    configStrings (a.app.expandEnvVars host) = (a.used host).forget := by
  have hparams : (a.app.expandEnvVars host).appParams
      = (a.used host).params.mapValues GoValue.forget := by
    rw [AppConfig.expandEnvVars, a.forgets, FileApp.used]
    dsimp only
    rw [IterMap.mapValues_mapValues, IterMap.mapValues_mapValues]
    refine IterMap.mapValues_inj.mpr fun x _ => ?_
    cases x.2 with
    | text s => rfl
    | list items => rfl
    | other => rfl
  rw [configStrings, AppStrings.forget, hparams]
  rfl

theorem deployedStrings_of_setDefaults {host : DeployHost} {a : AppConfig} {d : DeployedApp}
    (h : a.setDefaults host = .ok d) : deployedStrings d = configStrings a := by
  obtain ⟨deadline, -, h⟩ := bind_eq_ok_iff.mp h
  obtain ⟨period, -, h⟩ := bind_eq_ok_iff.mp h
  obtain ⟨runtime, -, h⟩ := bind_eq_ok_iff.mp h
  cases h
  rfl

/-- The entries of files, without the values in lists. -/
structure FileConfig.Holds (c : FileConfig) (e : Entries) : Prop where
  apps     : e.apps = c.apps.map FileApp.app
  codelets : e.codelets = c.codelets

/-- **THE STRINGS OF A DEPLOYMENT** that `FromYamls` accepts, and the files that
    `NewJBPFCLIConfig` opens for it. -/
theorem fromYamls_used {host : DeployHost} {name names : String} {fs : Files name}
    {c : FileConfig} {out : CLIConfig} (hc : c.Holds fs.entries)
    (h : fs.outcome host names = .config out) :
    out.apps.map deployedStrings = (c.used host).1.map AppStrings.forget
      ∧ out.jbpf.jbpfCodelets.map (fun j => openedFile host j.configFile) = (c.used host).2 := by
  have hsection : fs.HasSection := by
    by_contra hno
    cases (outcome_eq_panic hno host names).symm.trans h
  obtain ⟨expanded, hexpand, hdefaults⟩ := finish_eq_config (outcome_eq hsection host names ▸ h)
  cases hexpand
  obtain ⟨apps, happs, hout⟩ := bind_eq_ok_iff.mp hdefaults
  cases hout
  constructor
  · show apps.map deployedStrings = (c.apps.map (FileApp.used host)).map AppStrings.forget
    rw [map_eq_of_mapM happs fun a _ d hd => deployedStrings_of_setDefaults hd]
    show (fs.entries.apps.map _).map configStrings = _
    rw [hc.apps, List.map_map, List.map_map, List.map_map]
    exact List.map_congr_left fun a _ => configStrings_expandEnvVars host a
  · show ((fs.entries.codelets.map _).map _) = c.codelets.map _
    rw [hc.codelets, List.map_map]
    rfl

theorem newJBPFCLIConfig_eq (host : DeployHost) (config : String) :
    newJBPFCLIConfig host config
      = host.abs (openedFile host config) >>= JrtcCodeletSet.jbpfConfigFromYaml host.toHost :=
  rfl

/-! ## One environment -/

mutual

/-- The strings in a parameter. -/
def Json.strings : Json → List String
  | .text s => [s]
  | .list items => stringsAll items
  | .other => []

def stringsAll : List Json → List String
  | [] => []
  | j :: js => j.strings ++ stringsAll js

end

/-- The strings in the lists of a parameter. -/
def Json.listStrings : Json → List String
  | .text _ => []
  | .list items => stringsAll items
  | .other => []

mutual

theorem expandedOnce_unmarshal_iff (e : String → String) (j : Json) :
    (unmarshal j).expandedOnce e = unmarshal j ↔ ∀ s ∈ j.strings, e s = s := by
  cases j with
  | text s => simp [unmarshal, GoValue.expandedOnce, Json.strings]
  | list items =>
      rw [unmarshal, GoValue.expandedOnce, GoValue.slice.injEq, Json.strings]
      exact expandedOnceAll_unmarshalAll_iff e items
  | other => simp [unmarshal, GoValue.expandedOnce, Json.strings]

theorem expandedOnceAll_unmarshalAll_iff (e : String → String) (js : List Json) :
    expandedOnceAll e (unmarshalAll js) = unmarshalAll js ↔ ∀ s ∈ stringsAll js, e s = s := by
  cases js with
  | nil => simp [unmarshalAll, expandedOnceAll, stringsAll]
  | cons j js =>
      rw [unmarshalAll, expandedOnceAll, List.cons.injEq, stringsAll, List.forall_mem_append]
      exact and_congr (expandedOnce_unmarshal_iff e j) (expandedOnceAll_unmarshalAll_iff e js)

end

/-- **THE TYPE SWITCH** expands each string once iff those in lists stay. -/
theorem expandValue_unmarshal_iff (e : String → String) (j : Json) :
    expandValue e (unmarshal j) = (unmarshal j).expandedOnce e
      ↔ ∀ s ∈ j.listStrings, e s = s := by
  cases j with
  | text s => simp [unmarshal, expandValue, GoValue.expandedOnce, Json.listStrings]
  | list items =>
      rw [eq_comm]
      exact expandedOnce_unmarshal_iff e (.list items)
  | other => simp [unmarshal, expandValue, GoValue.expandedOnce, Json.listStrings]

/-- Expanding modules and files again would change nothing, and expanding strings in lists
    neither. -/
structure Unmoved (e : String → String) (c : FileConfig) : Prop where
  modules  : ∀ a ∈ c.apps, ∀ m ∈ a.app.appModules, e (e m) = e m
  lists    : ∀ a ∈ c.apps, ∀ x ∈ a.params.entries, ∀ s ∈ x.2.listStrings, e s = s
  codelets : ∀ j ∈ c.codelets, e (e j.configFile) = e j.configFile

theorem used_eq_expandedOnce_iff (host : DeployHost) (a : FileApp) :
    a.used host = a.expandedOnce host.expandEnv
      ↔ (∀ m ∈ a.app.appModules, host.expandEnv (host.expandEnv m) = host.expandEnv m)
        ∧ ∀ x ∈ a.params.entries, ∀ s ∈ x.2.listStrings, host.expandEnv s = s := by
  rw [FileApp.used, FileApp.expandedOnce, AppStrings.mk.injEq, IterMap.mapValues_inj]
  have hmodules : (a.app.expandEnvVars host).appModules = a.app.appModules.map host.expandEnv
      ↔ ∀ m ∈ a.app.appModules, host.expandEnv (host.expandEnv m) = host.expandEnv m := by
    rw [AppConfig.expandEnvVars, List.map_map, List.map_inj_left]
    rfl
  rw [hmodules]
  refine (and_iff_right rfl).trans (and_congr_right fun _ => ?_)
  exact forall₂_congr fun x _ => expandValue_unmarshal_iff host.expandEnv x.2

/-- **ONE ENVIRONMENT.** -/
theorem exactlyOnce_iff_unmoved (host : DeployHost) (c : FileConfig) :
    ExactlyOnce host c ↔ Unmoved host.expandEnv c := by
  rw [ExactlyOnce, FileConfig.used, FileConfig.expandedOnce, Prod.mk.injEq,
    List.map_inj_left, List.map_inj_left]
  simp only [used_eq_expandedOnce_iff]
  constructor
  · rintro ⟨happs, hcodelets⟩
    exact ⟨fun a ha => (happs a ha).1, fun a ha => (happs a ha).2, hcodelets⟩
  · rintro ⟨hmodules, hlists, hcodelets⟩
    exact ⟨fun a ha => ⟨hmodules a ha, hlists a ha⟩, hcodelets⟩

/-! ## All environments -/

/-- A string that refers to no variable that can be set. -/
def NoVariable (s : String) : Prop := ∀ name, .var name ∈ scan 0 s.toList → ¬ Settable name

/-- A string in which nothing is replaced. -/
def Literal (s : String) : Prop := ∀ p ∈ scan 0 s.toList, ∃ c, p = .lit c

/-- The values that an environment can give to variables. -/
def IsMapping (mapping : List Char → List Char) : Prop := ∃ env : Environment, env.mapping = mapping

theorem isMapping_none : IsMapping fun _ => [] := by
  refine ⟨.of fun _ => none, funext fun name => ?_⟩
  show (settableIn (fun _ => none) name).getD [] = []
  rw [settableIn]
  split
  · rfl
  · rfl

theorem isMapping_oneBad {name : List Char} (h : Settable name) : IsMapping (oneBad name) := by
  refine ⟨.of fun n => if n = name then some badText else none, funext fun n => ?_⟩
  show (settableIn (fun n => if n = name then some badText else none) n).getD [] = oneBad name n
  rw [oneBad, settableIn]
  by_cases hn : n = name
  · rw [if_pos (hn ▸ h), if_pos hn, if_pos hn]
    rfl
  · rw [if_neg hn, if_neg hn]
    split
    · rfl
    · rfl

/-- A name that cannot be set has no value. -/
theorem IsMapping.eq_nil {mapping : List Char → List Char} (h : IsMapping mapping)
    {name : List Char} (hname : ¬ Settable name) : mapping name = [] := by
  obtain ⟨env, rfl⟩ := h
  rw [Environment.mapping]
  cases hget : env.getenv name with
  | none => rfl
  | some value => exact absurd (env.settable name value hget) hname

theorem toList_expandEnv (env : Environment) (s : String) :
    (expandEnv env s).toList = expand env.mapping s.toList := String.toList_ofList

theorem forall_environment_iff {P : (List Char → List Char) → Prop} :
    (∀ env : Environment, P env.mapping) ↔ ∀ mapping, IsMapping mapping → P mapping := by
  constructor
  · rintro h mapping ⟨env, rfl⟩
    exact h env
  · intro h env
    exact h _ ⟨env, rfl⟩

theorem forall_expandEnv_twice_iff (s : String) :
    (∀ env, expandEnv env (expandEnv env s) = expandEnv env s) ↔ NoVariable s := by
  simp only [← String.toList_inj, toList_expandEnv]
  rw [forall_environment_iff (P := fun m => expand m (expand m s.toList) = expand m s.toList)]
  exact expand_expand_iff (fun _ h _ => h.eq_nil) (fun _ => isMapping_oneBad) s.toList

theorem forall_expandEnv_eq_iff (s : String) :
    (∀ env, expandEnv env s = s) ↔ Literal s := by
  simp only [← String.toList_inj, toList_expandEnv]
  rw [forall_environment_iff (P := fun m => expand m s.toList = s.toList)]
  exact expand_eq_self_iff isMapping_none s.toList

/-- Modules and files refer to no variable, and there is nothing to replace in lists. -/
structure Constant (c : FileConfig) : Prop where
  modules  : ∀ a ∈ c.apps, ∀ m ∈ a.app.appModules, NoVariable m
  lists    : ∀ a ∈ c.apps, ∀ x ∈ a.params.entries, ∀ s ∈ x.2.listStrings, Literal s
  codelets : ∀ j ∈ c.codelets, NoVariable j.configFile

theorem forall_unmoved_iff (c : FileConfig) :
    (∀ env, Unmoved (expandEnv env) c) ↔ Constant c := by
  constructor
  · intro h
    exact ⟨fun a ha m hm => (forall_expandEnv_twice_iff m).mp fun env => (h env).modules a ha m hm,
      fun a ha x hx s hs => (forall_expandEnv_eq_iff s).mp fun env => (h env).lists a ha x hx s hs,
      fun j hj => (forall_expandEnv_twice_iff _).mp fun env => (h env).codelets j hj⟩
  · intro h env
    exact ⟨fun a ha m hm => (forall_expandEnv_twice_iff m).mpr (h.modules a ha m hm) env,
      fun a ha x hx s hs => (forall_expandEnv_eq_iff s).mpr (h.lists a ha x hx s hs) env,
      fun j hj => (forall_expandEnv_twice_iff _).mpr (h.codelets j hj) env⟩

/-- **EXACTLY ONCE**: in one environment iff it happens that modules and files are the same
    expanded twice, and lists expanded; in all of them iff these do not depend on it. -/
theorem exactlyOnce_iff (host : DeployHost) (c : FileConfig) :
    (∀ env, ExactlyOnce (onEnvironment host env) c ↔ Unmoved (expandEnv env) c)
      ∧ ((∀ env, ExactlyOnce (onEnvironment host env) c) ↔ Constant c) := by
  have hone : ∀ env, ExactlyOnce (onEnvironment host env) c ↔ Unmoved (expandEnv env) c :=
    fun env => exactlyOnce_iff_unmoved (onEnvironment host env) c
  refine ⟨hone, ?_⟩
  rw [← forall_unmoved_iff]
  exact forall_congr' hone

/-- `A=$B` and `B=x`. -/
def nestedEnvironment : Environment := .of fun name =>
  if name = ['A'] then some ['$', 'B'] else if name = ['B'] then some ['x'] else none

/-- An app with a module and a list of a string, and a codelet set, that refer to `A`. -/
def nestedApp : FileApp where
  app :=
    { name := "app"
      optionalDeadline := none
      optionalIOQSize := none
      optionalIP := none
      optionalPeriod := none
      optionalRuntime := none
      port := 0
      sharedLibraryPath := "$A"
      appType := "c"
      appParams := (IterMap.empty.set "list" (.list [.text "$A"])).mapValues
        fun j => (unmarshal j).forget
      appModules := ["$A"] }
  params := IterMap.empty.set "list" (.list [.text "$A"])
  forgets := rfl

def nestedConfig : FileConfig := ⟨[nestedApp], [⟨"$A", 1⟩]⟩

/-- The path is expanded once, the module and the file twice, and the list not at all. -/
theorem nested_not_once :
    (nestedApp.used (onEnvironment sampleMachine nestedEnvironment)).path = "$B"
      ∧ (nestedApp.used (onEnvironment sampleMachine nestedEnvironment)).modules = ["x"]
      ∧ (nestedApp.used (onEnvironment sampleMachine nestedEnvironment)).params.get "list"
        = some (.slice [.string "$A"])
      ∧ (nestedConfig.used (onEnvironment sampleMachine nestedEnvironment)).2 = ["x"]
      ∧ ¬ ExactlyOnce (onEnvironment sampleMachine nestedEnvironment) nestedConfig := by
  refine ⟨?_, ?_, rfl, ?_, ?_⟩
  · decide
  · decide
  · decide
  · intro h
    have hfile : (["x"] : List String) = ["$B"] := congrArg Prod.snd h
    exact absurd hfile (by decide)

end JrtcConfigExpansion
