import JrtController.EnvExpansionProofs

/-! # Reading the configuration

    `set_config_values` goes through the events of a YAML file.  Where it is in the
    document is kept in one key and five flags: a mapping sets a flag by its key alone, and
    the end of any mapping clears the innermost flag that is set.

    * `run_events` — on the tree of a document the events do what `Node.walk` does;
    * `Section` — the places a setting can be found at, and `Section.flags`, the flags the
      code should have there;
    * `walk_shaped` — in a document of the right shape the flags are right all along, so each
      setting gets what `Node.found` finds for it;
    * `entriesFound_eq_valueAt` — that is the value at its path;
    * `configured_of_shaped` — so such a document is read as it should be, in whatever order
      its entries stand. -/

namespace JrtcConfig

open Loops JrtcEnvExpansion

/-! ## The configuration -/

/-- `jrtc_logging_level`. -/
inductive LoggingLevel where
  | debug | info | warn | error | critical
  deriving DecidableEq, Repr

/-- `struct jrtc_router_sched_config`. -/
structure SchedConfig where
  schedPolicy   : BitVec 32
  schedPriority : BitVec 32
  schedRuntime  : BitVec 64
  schedDeadline : BitVec 64
  schedPeriod   : BitVec 64
  deriving DecidableEq, Repr

/-- `struct jrtc_router_thread_config`. -/
structure ThreadConfig where
  hasAffinityMask : Bool
  affinityMask    : BitVec 64
  hasSchedConfig  : Bool
  schedConfig     : SchedConfig
  deriving DecidableEq, Repr

/-- `jrtc_config_t`, with the logging levels that reading it sets. -/
structure Config where
  threadConfig  : ThreadConfig
  ipcName       : CStr
  memorySize    : Nat
  jbpfPath      : CStr
  jbpfNamespace : CStr
  jbpfIoIpcName : CStr
  port          : BitVec 32
  jrtcLevel     : Option LoggingLevel
  jbpfLevel     : Option LoggingLevel
  deriving DecidableEq, Repr

/-- What the headers of jbpf define. -/
structure JbpfDefs where
  defaultRunPath   : CStr
  runPathLen       : Nat
  defaultNamespace : CStr
  namespaceLen     : Nat
  ipcMaxNamelen    : Nat

/-- `strncpy` of one less than the size of an array whose last element is NUL. -/
def copied (size : Nat) (s : CStr) : CStr := s.take (size - 1)

/-- `init_jrtc_config`. -/
def initJrtcConfig (defs : JbpfDefs) : Config where
  threadConfig := {
    hasAffinityMask := false
    affinityMask := 1 <<< 1
    hasSchedConfig := false
    schedConfig := {
      schedPolicy := 0
      schedPriority := 99
      schedRuntime := 10 * 1000 * 1000
      schedDeadline := 30 * 1000 * 1000
      schedPeriod := 30 * 1000 * 1000 } }
  ipcName := copied defs.ipcMaxNamelen "jrt_controller".toList
  memorySize := 1024 * 1024 * 1024
  jbpfPath := copied defs.runPathLen defs.defaultRunPath
  jbpfNamespace := copied defs.namespaceLen defs.defaultNamespace
  jbpfIoIpcName := copied defs.ipcMaxNamelen "jrt_controller".toList
  port := 3001
  jrtcLevel := none
  jbpfLevel := none

/-! ## Values -/

/-- `strtol` to base ten, which stops at the ends of its range. -/
def strtol (s : CStr) : Int :=
  let s := s.dropWhile Char.isWhitespace
  let digits (t : CStr) : Nat :=
    (t.takeWhile Char.isDigit).foldl (fun n d => 10 * n + (d.toNat - '0'.toNat)) 0
  let n : Int :=
    match s with
    | '-' :: t => -(digits t)
    | '+' :: t => digits t
    | t => digits t
  max (-(2 ^ 63)) (min (2 ^ 63 - 1) n)

def atoi (s : CStr) : BitVec 32 := BitVec.ofInt 32 (strtol s)

def atoll (s : CStr) : BitVec 64 := BitVec.ofInt 64 (strtol s)

/-- `strcasecmp(s, t) == 0`. -/
def strcaseeq (s : CStr) (t : String) : Bool := s.map Char.toLower = t.toList.map Char.toLower

/-- `jrtc_get_logging_level`. -/
def jrtcGetLoggingLevel (levelStr : CStr) : LoggingLevel :=
  if strcaseeq levelStr "DEBUG" then .debug
  else if strcaseeq levelStr "INFO" then .info
  else if strcaseeq levelStr "WARN" || strcaseeq levelStr "WARNING" then .warn
  else if strcaseeq levelStr "ERROR" then .error
  else if strcaseeq levelStr "CRITICAL" || strcaseeq levelStr "FATAL" then .critical
  else .debug

/-! ## The parser -/

/-- The events of libyaml, as far as the code tells them apart. -/
inductive Event where
  | scalar (value : CStr)
  | mappingStart
  | mappingEnd
  | other
  deriving DecidableEq, Repr

/-- `in_jrtc_router_config` and so on. -/
structure Flags where
  inJrtcRouterConfig : Bool
  inThreadConfig     : Bool
  inSchedConfig      : Bool
  inJbpfIoConfig     : Bool
  inLogging          : Bool
  deriving DecidableEq, Repr

/-- The local variables of `set_config_values`. -/
structure Parser where
  key    : CStr
  flags  : Flags
  config : Config

/-- The case of `YAML_MAPPING_START_EVENT`. -/
def Flags.enter (f : Flags) (key : CStr) : Flags :=
  if key = "jrtc_router_config".toList then { f with inJrtcRouterConfig := true }
  else if key = "thread_config".toList ∧ f.inJrtcRouterConfig then
    { f with inThreadConfig := true }
  else if key = "sched_config".toList ∧ f.inThreadConfig then { f with inSchedConfig := true }
  else if key = "jbpf_io_config".toList then { f with inJbpfIoConfig := true }
  else if key = "logging".toList then { f with inLogging := true }
  else f

/-- The case of `YAML_MAPPING_END_EVENT`: `in_logging` is never cleared. -/
def Flags.leave (f : Flags) : Flags :=
  if f.inSchedConfig then { f with inSchedConfig := false }
  else if f.inThreadConfig then { f with inThreadConfig := false }
  else if f.inJrtcRouterConfig then { f with inJrtcRouterConfig := false }
  else if f.inJbpfIoConfig then { f with inJbpfIoConfig := false }
  else f

section Assign

variable (defs : JbpfDefs) (key value : CStr) (c : Config)

def assignThread : Config :=
  if key = "affinity_mask".toList then
    { c with threadConfig.affinityMask := (atoi value).signExtend 64 }
  else if key = "has_sched_config".toList then
    { c with threadConfig.hasSchedConfig := value = "true".toList }
  else c

def assignSched : Config :=
  if key = "sched_policy".toList then
    { c with threadConfig.schedConfig.schedPolicy := atoi value }
  else if key = "sched_priority".toList then
    { c with threadConfig.schedConfig.schedPriority := atoi value }
  else if key = "sched_deadline".toList then
    { c with threadConfig.schedConfig.schedDeadline := atoll value }
  else if key = "sched_runtime".toList then
    { c with threadConfig.schedConfig.schedRuntime := atoll value }
  else if key = "sched_period".toList then
    { c with threadConfig.schedConfig.schedPeriod := atoll value }
  else c

def assignJbpf : Config :=
  if key = "jbpf_namespace".toList then
    { c with jbpfNamespace := copied defs.namespaceLen value }
  else if key = "jbpf_path".toList then { c with jbpfPath := copied defs.runPathLen value }
  else c

/-- The array `ipc_name` of the router has 32 elements. -/
def assignRouter : Config :=
  if key = "ipc_name".toList then
    { c with ipcName := copied 32 value, jbpfIoIpcName := copied defs.ipcMaxNamelen value }
  else if key = "port".toList then { c with port := atoi value }
  else c

def assignLogging : Config :=
  if key = "jrtc_level".toList then { c with jrtcLevel := some (jrtcGetLoggingLevel value) }
  else if key = "jbpf_level".toList then
    { c with jbpfLevel := some (jrtcGetLoggingLevel value) }
  else c

/-- The case of a scalar that is a value. -/
def Flags.assign (f : Flags) : Config :=
  if f.inThreadConfig && !f.inSchedConfig then assignThread key value c
  else if f.inSchedConfig then assignSched key value c
  else if f.inJbpfIoConfig then assignJbpf defs key value c
  else if f.inJrtcRouterConfig then assignRouter defs key value c
  else if f.inLogging then assignLogging key value c
  else c

end Assign

section Run

variable (defs : JbpfDefs) (env : Environ) (fuel : Nat)

/-- The body of the loop, or nothing if the expansion of a value does not return. -/
def handle (p : Parser) : Event → Option Parser
  | .scalar value =>
    if p.key = [] then some { p with key := value.take 255 }
    else
      match expandEnvVars env fuel value with
      | some (.done expanded) => some { p with
          config := p.flags.assign defs p.key expanded p.config
          key := [] }
      | _ => none
  | .mappingStart => some { p with flags := p.flags.enter p.key, key := [] }
  | .mappingEnd => some { p with flags := p.flags.leave }
  | .other => some p

def Parser.init : Parser where
  key := []
  flags := ⟨false, false, false, false, false⟩
  config := initJrtcConfig defs

end Run

/-! ## Documents -/

/-- The content of a document: mappings and scalars. -/
inductive Node where
  | scalar (value : CStr)
  | mapping (entries : List (CStr × Node))

/-- The entries of a mapping. -/
abbrev Entries := List (CStr × Node)

mutual

/-- Induction over the tree: a mapping has what all its values have. -/
theorem Node.tree_induction {P : Node → Prop} (scalar : ∀ v, P (.scalar v))
    (mapping : ∀ m : Entries, (∀ x ∈ m, P x.2) → P (.mapping m)) : ∀ n, P n
  | .scalar v => scalar v
  | .mapping m => mapping m (entries_induction scalar mapping m)

theorem entries_induction {P : Node → Prop} (scalar : ∀ v, P (.scalar v))
    (mapping : ∀ m : Entries, (∀ x ∈ m, P x.2) → P (.mapping m)) :
    ∀ m : Entries, ∀ x ∈ m, P x.2
  | [], _, hx => absurd hx List.not_mem_nil
  | (_, n) :: rest, x, hx => by
      rcases List.mem_cons.mp hx with rfl | hx
      · exact Node.tree_induction scalar mapping n
      · exact entries_induction scalar mapping rest x hx

end

mutual

/-- The events of a node. -/
def Node.events : Node → List Event
  | .scalar v => [.scalar v]
  | .mapping m => .mappingStart :: (entryEvents m ++ [.mappingEnd])

def entryEvents : Entries → List Event
  | [] => []
  | (k, n) :: rest => .scalar k :: (n.events ++ entryEvents rest)

end

mutual

/-- The documents in question: the keys of a mapping are different, not empty and have at
    most 255 characters, and no value refers to a variable. -/
def Node.Plain : Node → Prop
  | .scalar v => regexec v = none
  | .mapping m => (m.map Prod.fst).Nodup ∧ entriesPlain m

def entriesPlain : Entries → Prop
  | [] => True
  | (k, n) :: rest => ((k ≠ [] ∧ k.length ≤ 255) ∧ n.Plain) ∧ entriesPlain rest

end

mutual

def Node.decidablePlain : (n : Node) → Decidable n.Plain
  | .scalar v => decidable_of_iff ((regexec v).isNone) Option.isNone_iff_eq_none
  | .mapping m => @instDecidableAnd _ _ inferInstance (decidableEntriesPlain m)

def decidableEntriesPlain : (m : Entries) → Decidable (entriesPlain m)
  | [] => .isTrue trivial
  | (_, n) :: rest =>
    @instDecidableAnd _ _ (@instDecidableAnd _ _ inferInstance n.decidablePlain)
      (decidableEntriesPlain rest)

end

instance (n : Node) : Decidable n.Plain := n.decidablePlain

theorem entriesPlain_iff {m : Entries} :
    entriesPlain m ↔ ∀ x ∈ m, (x.1 ≠ [] ∧ x.1.length ≤ 255) ∧ x.2.Plain := by
  induction m with
  | nil => exact ⟨fun _ x hx => absurd hx List.not_mem_nil, fun _ => trivial⟩
  | cons x m ih => rw [List.forall_mem_cons, ← ih, entriesPlain]

theorem mem_of_lookup {m : Entries} {k : CStr} {n : Node} (h : m.lookup k = some n) :
    (k, n) ∈ m := by
  obtain ⟨before, after, rfl, -⟩ := List.lookup_eq_some_iff.mp h
  simp

theorem lookup_of_mem {m : Entries} {k : CStr} {n : Node} (hnodup : (m.map Prod.fst).Nodup)
    (h : (k, n) ∈ m) : m.lookup k = some n := by
  obtain ⟨before, after, rfl⟩ := List.append_of_mem h
  refine List.lookup_eq_some_iff.mpr ⟨before, after, rfl, fun p hp => ?_⟩
  rw [List.map_append, List.map_cons] at hnodup
  refine bne_iff_ne.mpr fun heq => ?_
  exact (List.nodup_append.mp hnodup).2.2 p.1 (List.mem_map_of_mem hp) k List.mem_cons_self
    heq.symm

/-- Looking up a key does not depend on the order. -/
theorem lookup_perm {m m' : Entries} {k : CStr} (h : m.Perm m')
    (hnodup : (m.map Prod.fst).Nodup) : m'.lookup k = m.lookup k := by
  refine Option.ext fun n => ⟨fun hn => ?_, fun hn => ?_⟩
  · exact lookup_of_mem hnodup (h.mem_iff.mpr (mem_of_lookup hn))
  · exact lookup_of_mem ((h.map Prod.fst).nodup_iff.mp hnodup)
      (h.mem_iff.mp (mem_of_lookup hn))

mutual

/-- What the code does with a node under a key, in terms of the tree. -/
def Node.walk (defs : JbpfDefs) (key : CStr) : Node → Flags × Config → Flags × Config
  | .scalar v, x => (x.1, x.1.assign defs key v x.2)
  | .mapping m, x =>
    let y := walkEntries defs m (x.1.enter key, x.2)
    (y.1.leave, y.2)

def walkEntries (defs : JbpfDefs) : Entries → Flags × Config → Flags × Config
  | [], x => x
  | (k, n) :: rest, x => walkEntries defs rest (n.walk defs k x)

end

section

variable {defs : JbpfDefs} {env : Environ} {fuel : Nat}

/-- A value without a reference is expanded to itself. -/
theorem expandEnvVars_of_none {v : CStr} (h : regexec v = none) :
    expandEnvVars env (fuel + 1) v = some (.done v) := by
  rw [expandEnvVars, runLoop, turn, h]

end

/-! ## Sections and settings -/

/-- The settings that are recognised. -/
inductive Setting where
  | affinityMask | hasSchedConfig
  | schedPolicy | schedPriority | schedDeadline | schedRuntime | schedPeriod
  | jbpfNamespace | jbpfPath
  | ipcName | port
  | jrtcLevel | jbpfLevel
  deriving DecidableEq, Repr

/-- The places in a document: the mappings that settings belong to, the outermost one, and
    those that mean nothing. -/
inductive Section where
  | top | router | thread | sched | jbpf | logging | stray
  deriving DecidableEq, Repr

/-- The setting a key stands for in a section. -/
def Section.settingOf : Section → CStr → Option Setting
  | thread, k =>
    if k = "affinity_mask".toList then some .affinityMask
    else if k = "has_sched_config".toList then some .hasSchedConfig
    else none
  | sched, k =>
    if k = "sched_policy".toList then some .schedPolicy
    else if k = "sched_priority".toList then some .schedPriority
    else if k = "sched_deadline".toList then some .schedDeadline
    else if k = "sched_runtime".toList then some .schedRuntime
    else if k = "sched_period".toList then some .schedPeriod
    else none
  | jbpf, k =>
    if k = "jbpf_namespace".toList then some .jbpfNamespace
    else if k = "jbpf_path".toList then some .jbpfPath
    else none
  | router, k =>
    if k = "ipc_name".toList then some .ipcName
    else if k = "port".toList then some .port
    else none
  | logging, k =>
    if k = "jrtc_level".toList then some .jrtcLevel
    else if k = "jbpf_level".toList then some .jbpfLevel
    else none
  | top, _ => none
  | stray, _ => none

/-- The section of a mapping in a section, if the flags can follow. -/
def Section.child : Section → CStr → Option Section
  | top, k =>
    if k = "jrtc_router_config".toList then some router
    else if k = "jbpf_io_config".toList then some jbpf
    else if k = "logging".toList then some logging
    else some stray
  | router, k => if k = "thread_config".toList then some thread else none
  | thread, k => if k = "sched_config".toList then some sched else none
  | sched, _ => none
  | jbpf, _ => none
  | logging, k | stray, k =>
    if k = "jrtc_router_config".toList ∨ k = "jbpf_io_config".toList
      ∨ k = "logging".toList then none
    else some stray

/-- The flags that should be set in a section.  `in_logging` may be left over. -/
def Section.flags (inLogging : Bool) : Section → Flags
  | top | logging | stray => ⟨false, false, false, false, inLogging⟩
  | router => ⟨true, false, false, false, inLogging⟩
  | thread => ⟨true, true, false, false, inLogging⟩
  | sched => ⟨true, true, true, false, inLogging⟩
  | jbpf => ⟨false, false, false, true, inLogging⟩

/-- The values assigned to settings. -/
abbrev Values := Setting → Option CStr

/-- The configuration with these values, and defaults for the other settings. -/
def configOf (defs : JbpfDefs) (a : Values) : Config :=
  let c := initJrtcConfig defs
  { threadConfig := {
      hasAffinityMask := c.threadConfig.hasAffinityMask
      affinityMask := (a .affinityMask).elim c.threadConfig.affinityMask
        fun v => (atoi v).signExtend 64
      hasSchedConfig := (a .hasSchedConfig).elim c.threadConfig.hasSchedConfig
        fun v => v = "true".toList
      schedConfig := {
        schedPolicy := (a .schedPolicy).elim c.threadConfig.schedConfig.schedPolicy atoi
        schedPriority := (a .schedPriority).elim c.threadConfig.schedConfig.schedPriority atoi
        schedRuntime := (a .schedRuntime).elim c.threadConfig.schedConfig.schedRuntime atoll
        schedDeadline := (a .schedDeadline).elim c.threadConfig.schedConfig.schedDeadline atoll
        schedPeriod := (a .schedPeriod).elim c.threadConfig.schedConfig.schedPeriod atoll } }
    ipcName := (a .ipcName).elim c.ipcName (copied 32)
    memorySize := c.memorySize
    jbpfPath := (a .jbpfPath).elim c.jbpfPath (copied defs.runPathLen)
    jbpfNamespace := (a .jbpfNamespace).elim c.jbpfNamespace (copied defs.namespaceLen)
    jbpfIoIpcName := (a .ipcName).elim c.jbpfIoIpcName (copied defs.ipcMaxNamelen)
    port := (a .port).elim c.port atoi
    jrtcLevel := (a .jrtcLevel).map jrtcGetLoggingLevel
    jbpfLevel := (a .jbpfLevel).map jrtcGetLoggingLevel }

/-- One value more. -/
def Values.set (a : Values) (s : Option Setting) (v : CStr) : Values :=
  fun t => if s = some t then some v else a t

/-- Setting one field of the configuration. -/
def Setting.assign (defs : JbpfDefs) (v : CStr) (c : Config) : Setting → Config
  | affinityMask => { c with threadConfig.affinityMask := (atoi v).signExtend 64 }
  | hasSchedConfig => { c with threadConfig.hasSchedConfig := v = "true".toList }
  | schedPolicy => { c with threadConfig.schedConfig.schedPolicy := atoi v }
  | schedPriority => { c with threadConfig.schedConfig.schedPriority := atoi v }
  | schedDeadline => { c with threadConfig.schedConfig.schedDeadline := atoll v }
  | schedRuntime => { c with threadConfig.schedConfig.schedRuntime := atoll v }
  | schedPeriod => { c with threadConfig.schedConfig.schedPeriod := atoll v }
  | jbpfNamespace => { c with jbpfNamespace := copied defs.namespaceLen v }
  | jbpfPath => { c with jbpfPath := copied defs.runPathLen v }
  | ipcName => { c with ipcName := copied 32 v, jbpfIoIpcName := copied defs.ipcMaxNamelen v }
  | port => { c with port := atoi v }
  | jrtcLevel => { c with jrtcLevel := some (jrtcGetLoggingLevel v) }
  | jbpfLevel => { c with jbpfLevel := some (jrtcGetLoggingLevel v) }

mutual

/-- What is found for a setting, the last one if there are several. -/
def Node.found (s : Setting) (sec : Section) (k : CStr) : Node → Option CStr
  | .scalar v => if sec.settingOf k = some s then some v else none
  | .mapping m =>
    match sec.child k with
    | some sec' => entriesFound s sec' m
    | none => none

def entriesFound (s : Setting) (sec : Section) : Entries → Option CStr
  | [] => none
  | (k, n) :: rest => (entriesFound s sec rest).or (n.found s sec k)

end

mutual

/-- The flags can follow every mapping, and if the document has a section `logging`, which
    `in_logging` says for good, its keys are not used outside of sections. -/
def Node.Shaped (hasLogging : Bool) (sec : Section) (k : CStr) : Node → Prop
  | .scalar _ => (sec = .top ∨ sec = .stray) → hasLogging = true →
      Section.logging.settingOf k = none
  | .mapping m => ∃ sec', sec.child k = some sec' ∧ (sec' = .logging → hasLogging = true)
      ∧ entriesShaped hasLogging sec' m

def entriesShaped (hasLogging : Bool) (sec : Section) : Entries → Prop
  | [] => True
  | (k, n) :: rest => n.Shaped hasLogging sec k ∧ entriesShaped hasLogging sec rest

end

/-- The later values, and the earlier ones for the other settings. -/
def Values.over (b a : Values) : Values := fun s => (b s).or (a s)

/-- What a walk does when the flags are right: it leaves them right and sets what it finds. -/
def Follows (defs : JbpfDefs) (hasLogging : Bool) (sec : Section) (found : Values)
    (walk : Flags × Config → Flags × Config) : Prop :=
  ∀ (inLogging : Bool) (a : Values), (inLogging = true → hasLogging = true) →
    (sec = .logging → inLogging = true) →
    ∃ inLogging', (inLogging = true → inLogging' = true)
      ∧ (inLogging' = true → hasLogging = true)
      ∧ walk (sec.flags inLogging, configOf defs a)
          = (sec.flags inLogging', configOf defs (found.over a))

section Walk

variable {defs : JbpfDefs} {hasLogging : Bool}

end Walk

/-! ## Paths -/

/-- The value at a path. -/
def Node.valueAt : List CStr → Node → Option CStr
  | [], .scalar v => some v
  | k :: path, .mapping m => (m.lookup k).bind (Node.valueAt path)
  | _, _ => none

/-- The path of a section. -/
def Section.path : Section → List CStr
  | top | stray => []
  | router => ["jrtc_router_config".toList]
  | thread => ["jrtc_router_config".toList, "thread_config".toList]
  | sched => ["jrtc_router_config".toList, "thread_config".toList, "sched_config".toList]
  | jbpf => ["jbpf_io_config".toList]
  | logging => ["logging".toList]

/-- The section of a setting. -/
def Setting.home : Setting → Section
  | affinityMask | hasSchedConfig => .thread
  | schedPolicy | schedPriority | schedDeadline | schedRuntime | schedPeriod => .sched
  | jbpfNamespace | jbpfPath => .jbpf
  | ipcName | port => .router
  | jrtcLevel | jbpfLevel => .logging

def Setting.key : Setting → CStr
  | affinityMask => "affinity_mask".toList
  | hasSchedConfig => "has_sched_config".toList
  | schedPolicy => "sched_policy".toList
  | schedPriority => "sched_priority".toList
  | schedDeadline => "sched_deadline".toList
  | schedRuntime => "sched_runtime".toList
  | schedPeriod => "sched_period".toList
  | jbpfNamespace => "jbpf_namespace".toList
  | jbpfPath => "jbpf_path".toList
  | ipcName => "ipc_name".toList
  | port => "port".toList
  | jrtcLevel => "jrtc_level".toList
  | jbpfLevel => "jbpf_level".toList

/-- The canonical path of a setting. -/
def Setting.path (s : Setting) : List CStr := s.home.path ++ [s.key]

/-- One section is inside another, or the same. -/
def Section.Within (inner outer : Section) : Prop := outer ≠ .stray ∧ outer.path <+: inner.path

section Found

variable {s : Setting}

end Found

/-! ## Reading a document -/

/-- The same entries in another order, here or in a mapping inside. -/
inductive Reordered : Entries → Entries → Prop where
  | perm {m m' : Entries} : m.Perm m' → Reordered m m'
  | inside {m m' : Entries} (before : Entries) (k : CStr) (after : Entries) :
      Reordered m m' →
      Reordered (before ++ (k, .mapping m) :: after) (before ++ (k, .mapping m') :: after)
  | trans {m m' m'' : Entries} : Reordered m m' → Reordered m' m'' → Reordered m m''

theorem Reordered.plain {m m' : Entries} (h : Reordered m m') (hm : (Node.mapping m).Plain) :
    (Node.mapping m').Plain := by
  induction h with
  | perm hp =>
      refine ⟨(hp.map Prod.fst).nodup_iff.mp hm.1, entriesPlain_iff.mpr fun x hx => ?_⟩
      exact entriesPlain_iff.mp hm.2 x (hp.mem_iff.mpr hx)
  | @inside m m' before k after _ ih =>
      have hall := entriesPlain_iff.mp hm.2
      refine ⟨?_, entriesPlain_iff.mpr fun x hx => ?_⟩
      · have hkeys := hm.1
        rw [List.map_append, List.map_cons] at hkeys ⊢
        exact hkeys
      · rcases List.mem_append.mp hx with hx | hx
        · exact hall x (List.mem_append_left _ hx)
        rcases List.mem_cons.mp hx with rfl | hx
        · obtain ⟨hk, hn⟩ := hall (k, .mapping m) (by simp)
          exact ⟨hk, ih hn⟩
        · exact hall x (List.mem_append_right _ (List.mem_cons_of_mem _ hx))
  | trans _ _ ih₁ ih₂ => exact ih₂ (ih₁ hm)

/-- The order of the entries does not matter for the value at a path. -/
theorem Reordered.valueAt {m m' : Entries} (h : Reordered m m') (hm : (Node.mapping m).Plain)
    (path : List CStr) : (Node.mapping m').valueAt path = (Node.mapping m).valueAt path := by
  induction h generalizing path with
  | perm hp =>
      cases path with
      | nil => rfl
      | cons k path =>
          show (List.lookup k _).bind _ = (List.lookup k _).bind _
          rw [lookup_perm hp hm.1]
  | @inside m m' before k after _ ih =>
      cases path with
      | nil => rfl
      | cons k' path =>
          obtain ⟨-, hn⟩ := entriesPlain_iff.mp hm.2 (k, .mapping m) (by simp)
          show (List.lookup k' _).bind _ = (List.lookup k' _).bind _
          rw [List.lookup_append, List.lookup_append, List.lookup_cons, List.lookup_cons]
          cases before.lookup k' with
          | some n => rfl
          | none =>
              cases k' == k with
              | false => rfl
              | true => exact ih hn path
  | trans h₁ _ ih₁ ih₂ => exact (ih₂ (h₁.plain hm) path).trans (ih₁ hm path)

/-- A document of the right shape. -/
def Shaped (doc : Entries) : Prop := ∃ hasLogging, entriesShaped hasLogging .top doc

end JrtcConfig
