import JrtController.DeploymentProofs

/-! # A deployment in several files

    `FromYamls` takes its configuration from any number of files.  `mergeConfigs` puts their
    apps, decoders, devices and codelet sets one after the other, and what follows is done to
    the result.  Only the merge of two files makes a section `jbpf`: the only file of a
    deployment keeps the one it has, if it has one, and `expandEnvVars` does not ask.

    * `fromYamls_eq_result` — the outcome for parsed files is that of `FromYamls`;
    * `foldlM_mergeConfigs` — what the merge of two files or more holds;
    * `outcome_eq` — the outcome, from the entries of the files alone;
    * `split_settled_iff` — two ways to split the same entries end alike and without a nil
      pointer iff each has two files or a section. -/

namespace JrtcSplitConfig

open Loops JrtcDeployment

/-! ## The outcome for parsed files -/

/-- How `FromYamls` ends. -/
inductive Outcome where
  | config (out : CLIConfig)
  | error (message : String)
  | panic

/-- What `FromYamls` does with the merged files.  A pointer to no section is dereferenced in
    `expandEnvVars`, which has no other way to fail; `setDefaults` gets a section. -/
def finish (host : DeployHost) (names : String) (merged : RawConfig) : Outcome :=
  match merged.expandEnvVars host with
  | .error _ => .panic
  | .ok expanded =>
    match joinError (expanded.setDefaults host) ("failed to set defaults for " ++ names) with
    | .error e => .error e
    | .ok out =>
      match joinError out.jbpf.validate ("failed to validate " ++ names) with
      | .error e => .error e
      | .ok () => .config out

/-- `FromYamls` from its first merge on. -/
def outcome (host : DeployHost) (names : String) (first : RawConfig) (rest : List RawConfig) :
    Outcome :=
  match rest.foldlM mergeConfigs first with
  | .error e => .error e
  | .ok merged => finish host names merged

/-- The outcome where a panic is an error as well. -/
def Outcome.result : Outcome → Except String CLIConfig
  | .config out => .ok out
  | .error e => .error e
  | .panic => .error nilDereference

/-- Reading the files first does not change what the loop merges. -/
theorem foldlM_readConfig {host : DeployHost} {files : List String} {rest : List RawConfig}
    (h : files.mapM (readConfig host) = .ok rest) (out : RawConfig) :
    files.foldlM (fun out file => do mergeConfigs out (← readConfig host file)) out
      = rest.foldlM mergeConfigs out := by
  induction files generalizing rest out with
  | nil =>
      cases h
      rfl
  | cons file files ih =>
      rw [List.mapM_cons] at h
      obtain ⟨c, hc, h⟩ := bind_eq_ok_iff.mp h
      obtain ⟨cs, hcs, h⟩ := bind_eq_ok_iff.mp h
      cases h
      rw [List.foldlM_cons, List.foldlM_cons, hc]
      show (mergeConfigs out c >>= _) = _
      cases mergeConfigs out c with
      | error e => rfl
      | ok merged => exact ih hcs merged

theorem expandEnvVars_of_none {host : DeployHost} {c : RawConfig} (h : c.jbpf = none) :
    c.expandEnvVars host = .error nilDereference := by
  rw [RawConfig.expandEnvVars, h]

/-- A nil pointer is the only error of `expandEnvVars`. -/
theorem eq_nilDereference {host : DeployHost} {c : RawConfig} {e : String}
    (h : c.expandEnvVars host = .error e) : e = nilDereference := by
  rw [RawConfig.expandEnvVars] at h
  cases hjbpf : c.jbpf with
  | none =>
      rw [hjbpf] at h
      cases h
      rfl
  | some j =>
      rw [hjbpf] at h
      cases h

/-- **THE MODEL OF `FromYamls`** has the outcome of its files, once they are read. -/
theorem fromYamls_eq_result {host : DeployHost} {file : String} {files : List String}
    {first : RawConfig} {rest : List RawConfig} (hfirst : readConfig host file = .ok first)
    (hrest : files.mapM (readConfig host) = .ok rest) : fromYamls host (file :: files)
      = (outcome host (", ".intercalate (file :: files)) first rest).result := by
  have hmerge := foldlM_readConfig hrest first
  rw [fromYamls, hfirst, outcome, ← hmerge]
  show (files.foldlM (fun out file => readConfig host file >>= mergeConfigs out) first >>= _) = _
  rw [hmerge]
  cases rest.foldlM mergeConfigs first with
  | error e => rfl
  | ok merged =>
      show (merged.expandEnvVars host >>= _) = (finish host _ merged).result
      rw [finish]
      cases hexpand : merged.expandEnvVars host with
      | error e =>
          rw [eq_nilDereference hexpand]
          rfl
      | ok expanded =>
          show (joinError (expanded.setDefaults host) _ >>= _) = Outcome.result (match
            joinError (expanded.setDefaults host) _ with | .error e => _ | .ok out => _)
          cases joinError (expanded.setDefaults host) _ with
          | error e => rfl
          | ok out =>
              show (joinError out.jbpf.validate _ >>= _) = Outcome.result (match
                joinError out.jbpf.validate _ with | .error e => _ | .ok () => _)
              cases joinError out.jbpf.validate _ with
              | error e => rfl
              | ok u => rfl

/-! ## The entries of files -/

/-- The apps, decoders, devices and codelet sets of a deployment. -/
structure Entries where
  apps     : List AppConfig
  decoders : List DecoderConfig
  devices  : List JBPFDevice
  codelets : List JBPFCodelet

def devicesOf (c : RawConfig) : List JBPFDevice := (c.jbpf.map JBPFConfig.devices).getD []

def codeletsOf (c : RawConfig) : List JBPFCodelet := (c.jbpf.map JBPFConfig.jbpfCodelets).getD []

/-- The entries of some files, in order. -/
def entries (files : List RawConfig) : Entries where
  apps := files.flatMap RawConfig.apps
  decoders := files.flatMap RawConfig.decoders
  devices := files.flatMap devicesOf
  codelets := files.flatMap codeletsOf

/-- One file with a section for some entries. -/
def Entries.file (e : Entries) (name : String) : RawConfig where
  apps := e.apps
  decoders := e.decoders
  jbpf := some ⟨e.devices, e.codelets⟩
  name := name

/-- The parsed files of a deployment: there is one, and they have the same name. -/
structure Files (name : String) where
  first : RawConfig
  rest  : List RawConfig
  named : ∀ c ∈ first :: rest, c.name = name

def Files.entries {name : String} (fs : Files name) : Entries :=
  JrtcSplitConfig.entries (fs.first :: fs.rest)

def Files.outcome {name : String} (fs : Files name) (host : DeployHost) (names : String) :
    Outcome :=
  JrtcSplitConfig.outcome host names fs.first fs.rest

/-- There are two files, or the one file has a section `jbpf`. -/
def Files.HasSection {name : String} (fs : Files name) : Prop :=
  fs.rest ≠ [] ∨ fs.first.jbpf ≠ none

/-! ## The merge -/

/-- A merge holds the entries of both files and has a section. -/
theorem mergeConfigs_eq {c1 c2 : RawConfig} {name : String} (hname1 : c1.name = name)
    (hname2 : c2.name = name) :
    mergeConfigs c1 c2 = .ok ((entries [c1, c2]).file name) := by
  rw [mergeConfigs, if_neg (not_not.mpr (hname1.trans hname2.symm)), hname1]
  cases h1 : c1.jbpf with
  | none =>
      cases h2 : c2.jbpf with
      | none => simp [Entries.file, entries, devicesOf, codeletsOf, h1, h2]
      | some j2 => simp [Entries.file, entries, devicesOf, codeletsOf, h1, h2]
  | some j1 =>
      cases h2 : c2.jbpf with
      | none => simp [Entries.file, entries, devicesOf, codeletsOf, h1, h2]
      | some j2 => simp [Entries.file, entries, devicesOf, codeletsOf, h1, h2]

/-- A merged file in front of others has the entries of its parts. -/
theorem entries_file_cons (files rest : List RawConfig) (name : String) :
    entries ((entries files).file name :: rest) = entries (files ++ rest) := by
  simp [entries, Entries.file, devicesOf, codeletsOf, List.flatMap_append]

/-- **THE MERGE** of two files or more is one file with a section and all entries. -/
theorem foldlM_mergeConfigs {first : RawConfig} {rest : List RawConfig} {name : String}
    (h : ∀ c ∈ first :: rest, c.name = name) (hrest : rest ≠ []) :
    rest.foldlM mergeConfigs first = .ok ((entries (first :: rest)).file name) := by
  induction rest generalizing first with
  | nil => exact absurd rfl hrest
  | cons c rest ih =>
      rw [List.foldlM_cons, mergeConfigs_eq (h first List.mem_cons_self)
        (h c (List.mem_cons_of_mem _ List.mem_cons_self))]
      show rest.foldlM mergeConfigs ((entries [first, c]).file name) = _
      cases rest with
      | nil => rfl
      | cons c' rest =>
          have hnamed : ∀ d ∈ (entries [first, c]).file name :: c' :: rest, d.name = name := by
            intro d hd
            rcases List.mem_cons.mp hd with rfl | hd
            · rfl
            · exact h d (List.mem_cons_of_mem _ (List.mem_cons_of_mem _ hd))
          rw [ih hnamed (List.cons_ne_nil _ _), entries_file_cons]
          rfl

/-- A file with a section is made of its entries. -/
theorem file_entries_singleton {c : RawConfig} (h : c.jbpf ≠ none) :
    (entries [c]).file c.name = c := by
  obtain ⟨apps, decoders, jbpf, name⟩ := c
  cases jbpf with
  | none => exact absurd rfl h
  | some j => simp [entries, Entries.file, devicesOf, codeletsOf]

/-- **THE OUTCOME** comes from the entries, where there is a section. -/
theorem outcome_eq {name : String} {fs : Files name} (h : fs.HasSection) (host : DeployHost)
    (names : String) : fs.outcome host names = finish host names (fs.entries.file name) := by
  have hmerge : fs.rest.foldlM mergeConfigs fs.first = .ok (fs.entries.file name) := by
    rw [Files.entries]
    by_cases hrest : fs.rest = []
    · have hone := file_entries_singleton (h.resolve_left (not_not.mpr hrest))
      rw [fs.named fs.first List.mem_cons_self] at hone
      rw [hrest, hone]
      rfl
    · exact foldlM_mergeConfigs fs.named hrest
  rw [Files.outcome, outcome, hmerge]

theorem outcome_eq_panic {name : String} {fs : Files name} (h : ¬ fs.HasSection)
    (host : DeployHost) (names : String) : fs.outcome host names = .panic := by
  rw [Files.HasSection, not_or, not_not, not_not] at h
  rw [Files.outcome, outcome, h.1]
  show finish host names fs.first = .panic
  rw [finish, expandEnvVars_of_none h.2]

/-! ## Two ways to split -/

/-- The same configuration, or an error both times. -/
def Outcome.Same : Outcome → Outcome → Prop
  | .config out, .config out' => out = out'
  | .error _, .error _ => True
  | _, _ => False

/-- Neither ends with a panic, and they end alike. -/
structure Settled (o o' : Outcome) : Prop where
  noPanic  : o ≠ .panic
  noPanic' : o' ≠ .panic
  same     : o.Same o'

/-- The names of the files only show in errors. -/
theorem finish_settled (host : DeployHost) (names names' : String) (e : Entries)
    (name : String) :
    Settled (finish host names (e.file name)) (finish host names' (e.file name)) := by
  have hjoin : ∀ {α : Type} {r : Except String α} {m m' : String},
      (∃ a, joinError r m = .ok a ∧ joinError r m' = .ok a)
        ∨ ∃ t t', joinError r m = .error t ∧ joinError r m' = .error t' := by
    intro α r m m'
    cases r with
    | ok a => exact Or.inl ⟨a, rfl, rfl⟩
    | error t => exact Or.inr ⟨_, _, rfl, rfl⟩
  have herror : ∀ t t', Settled (.error t) (.error t') := fun t t' =>
    ⟨Outcome.noConfusion, Outcome.noConfusion, trivial⟩
  simp only [finish, RawConfig.expandEnvVars, Entries.file]
  generalize RawConfig.setDefaults host _ = defaults
  rcases @hjoin _ defaults ("failed to set defaults for " ++ names)
    ("failed to set defaults for " ++ names') with ⟨out, h, h'⟩ | ⟨t, t', h, h'⟩
  · simp only [h, h']
    rcases @hjoin _ out.jbpf.validate ("failed to validate " ++ names)
      ("failed to validate " ++ names') with ⟨u, h, h'⟩ | ⟨t, t', h, h'⟩
    · simp only [h, h']
      exact ⟨Outcome.noConfusion, Outcome.noConfusion, rfl⟩
    · simp only [h, h']
      exact herror t t'
  · simp only [h, h']
    exact herror t t'

/-- What a configuration was made from. -/
theorem finish_eq_config {host : DeployHost} {names : String} {merged : RawConfig}
    {out : CLIConfig} (h : finish host names merged = .config out) :
    ∃ expanded, merged.expandEnvVars host = .ok expanded
      ∧ expanded.setDefaults host = .ok out := by
  rw [finish] at h
  cases hexpand : merged.expandEnvVars host with
  | error e =>
      rw [hexpand] at h
      cases h
  | ok expanded =>
      rw [hexpand] at h
      refine ⟨expanded, rfl, ?_⟩
      cases hdefaults : expanded.setDefaults host with
      | error e =>
          simp only [hdefaults, joinError] at h
          cases h
      | ok out' =>
          simp only [hdefaults, joinError] at h
          cases hvalidate : out'.jbpf.validate with
          | error e =>
              simp only [hvalidate] at h
              cases h
          | ok u =>
              simp only [hvalidate] at h
              cases h
              rfl

/-- **THE SPLIT DOES NOT MATTER**, and no nil pointer is met, iff no deployment is a single
    file without a section. -/
theorem split_settled_iff (host : DeployHost) {name : String} (fs fs' : Files name)
    (h : fs.entries = fs'.entries) (names names' : String) :
    Settled (fs.outcome host names) (fs'.outcome host names')
      ↔ fs.HasSection ∧ fs'.HasSection := by
  constructor
  · intro hsettled
    constructor
    · by_contra hno
      exact hsettled.noPanic (outcome_eq_panic hno host names)
    · by_contra hno
      exact hsettled.noPanic' (outcome_eq_panic hno host names')
  · rintro ⟨hsection, hsection'⟩
    rw [outcome_eq hsection, outcome_eq hsection', h]
    exact finish_settled host names names' fs'.entries name

/-- A file that has nothing but its section. -/
def sectionFile (jbpf : Option JBPFConfig) : RawConfig := ⟨[], [], jbpf, "app"⟩

theorem sectionFile_named (j : Option JBPFConfig) (js : List (Option JBPFConfig)) :
    ∀ c ∈ sectionFile j :: js.map sectionFile, c.name = "app" := by
  intro c hc
  obtain ⟨j', -, rfl⟩ := List.mem_map.mp (List.map_cons ▸ hc)
  rfl

def sectionFiles (j : Option JBPFConfig) (js : List (Option JBPFConfig)) : Files "app" where
  first := sectionFile j
  rest := js.map sectionFile
  named := sectionFile_named j js

def sampleDevice : JBPFDevice := ⟨1, "", none, 8080⟩

/-- A device in one file, and the codelet set for it in another. -/
def twoFiles : Files "app" :=
  sectionFiles (some ⟨[sampleDevice], []⟩) [some ⟨[], [⟨"codelets.yaml", 1⟩]⟩]

/-- The same in one file. -/
def oneFile : Files "app" :=
  sectionFiles (some ⟨[sampleDevice], [⟨"codelets.yaml", 1⟩]⟩) []

theorem twoFiles_settled : twoFiles.entries = oneFile.entries
    ∧ Settled (twoFiles.outcome sampleMachine "devices.yaml, codelets.yaml")
      (oneFile.outcome sampleMachine "deployment.yaml") :=
  ⟨rfl, (split_settled_iff sampleMachine twoFiles oneFile rfl _ _).mpr
    ⟨Or.inl (List.cons_ne_nil _ _), Or.inr (Option.some_ne_none _)⟩⟩

/-- A single file without a section ends with a panic, two of them with a configuration. -/
theorem noSection_panics :
    (sectionFiles none []).entries = (sectionFiles none [none]).entries
    ∧ (sectionFiles none []).outcome sampleMachine "app.yaml" = .panic
    ∧ (sectionFiles none [none]).outcome sampleMachine "app.yaml, empty.yaml"
      = .config ⟨[], [], ⟨[], []⟩, "app"⟩ :=
  ⟨rfl, rfl, rfl⟩

end JrtcSplitConfig
