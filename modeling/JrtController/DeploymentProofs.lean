import JrtController.CodeletSetProofs
import JrtController.LoadRequestProofs

/-! # Deployments and their devices

    `jrtc-ctl load` reads a deployment from YAML files: the apps, the devices that run
    codelets, and which codelet set goes to which device.  A codelet set can also be loaded
    by itself, for a device id on the command line.  Either way the device id, a `uint8`,
    goes into the seven bits that a stream id has for it.

    * `validate_eq_ok_iff` — what the check of a deployment asks of its devices;
    * `codeletSet_ids` — the ids in the request for a codelet set;
    * `Load.generates_iff` — the ids that a load generates, and for which channels;
    * `identifies_iff` — the ids of a load name their devices iff every device id that is
      used is between 1 and 126. -/

namespace JrtcDeployment

open Loops IterMaps JrtcStreamId JrtcRouterLookup JrtcCodeletSet JrtcLoadRequest
open JrtcController (Image)

/-! ## The configuration -/

/-- `clicommon.App`, as the YAML file has it. -/
structure AppConfig where
  name              : String
  optionalDeadline  : Option String
  optionalIOQSize   : Option (BitVec 32)
  optionalIP        : Option String
  optionalPeriod    : Option String
  optionalRuntime   : Option String
  port              : BitVec 16
  sharedLibraryPath : String
  appType           : String
  appParams         : IterMap String ParamValue
  appModules        : List String

/-- An app with its defaults, and the controller it is for. -/
structure DeployedApp where
  ip   : String
  port : BitVec 16
  app  : App

structure DecoderConfig where
  httpRelativePath : String
  ip               : String
  optionalIP       : Option String
  port             : BitVec 16
  typ              : String
  deriving DecidableEq, Repr

structure JBPFDevice where
  id         : BitVec 8
  ip         : String
  optionalIP : Option String
  port       : BitVec 16
  deriving DecidableEq, Repr

structure JBPFCodelet where
  configFile : String
  device     : BitVec 8
  deriving DecidableEq, Repr

structure JBPFConfig where
  devices      : List JBPFDevice
  jbpfCodelets : List JBPFCodelet
  deriving DecidableEq, Repr

/-- `CLIConfig` as it is read. -/
structure RawConfig where
  apps     : List AppConfig
  decoders : List DecoderConfig
  jbpf     : Option JBPFConfig
  name     : String

/-- `CLIConfig` with its defaults. -/
structure CLIConfig where
  apps     : List DeployedApp
  decoders : List DecoderConfig
  jbpf     : JBPFConfig
  name     : String

/-- What the tool asks of its machine for a deployment. -/
structure DeployHost extends Host where
  abs             : String → Except String String
  /-- whether a file holds YAML -/
  checkYaml       : Bytes → Except String Unit
  /-- the JSON for the YAML in a file -/
  marshalJson     : Bytes → Except String Bytes
  unmarshalConfig : Bytes → Except String RawConfig
  parseDuration   : String → Except String Duration
  /-- whether a library exports `jrtc_start_app` -/
  startApp        : Bytes → Bool

def nilDereference : String := "runtime error: invalid memory address or nil pointer dereference"

/-- `errors.Join` of an error and a message that says where it happened. -/
def joinError {α : Type} (r : Except String α) (message : String) : Except String α :=
  match r with
  | .ok a => .ok a
  | .error e => .error (e ++ "\n" ++ message)

/-- The body of the loop of `FromYamls` up to the merge. -/
def readConfig (host : DeployHost) (file : String) : Except String RawConfig := do
  if ← host.stat file then throw (gotDirectory file)
  let data ← host.readFile file
  joinError (host.checkYaml data) ("failed to unmarshal " ++ file ++ " as <nil>")
  let jsonBuf ← host.marshalJson data
  joinError (host.unmarshalConfig jsonBuf)
    ("failed to unmarshal " ++ file ++ " as clicommon.CLIConfig")

/-- `mergeConfigs` of two configurations. -/
def mergeConfigs (c1 c2 : RawConfig) : Except String RawConfig :=
  if c1.name ≠ c2.name then
    .error ("expected name \"" ++ c1.name ++ "\", got \"" ++ c2.name ++ "\"")
  else .ok
    { apps := c1.apps ++ c2.apps
      decoders := c1.decoders ++ c2.decoders
      jbpf := some (match c1.jbpf, c2.jbpf with
        | some j1, some j2 => ⟨j1.devices ++ j2.devices, j1.jbpfCodelets ++ j2.jbpfCodelets⟩
        | some j1, none => j1
        | none, some j2 => j2
        | none, none => ⟨[], []⟩)
      name := c1.name }

/-- `expandEnvVars` on an app: the modules are expanded twice. -/
def AppConfig.expandEnvVars (host : DeployHost) (a : AppConfig) : AppConfig :=
  { a with
    sharedLibraryPath := host.expandEnv a.sharedLibraryPath
    appModules := (a.appModules.map host.expandEnv).map host.expandEnv
    appParams := a.appParams.mapValues fun v =>
      match v with
      | .text s => .text (host.expandEnv s)
      | .other => .other }

/-- `expandEnvVars`: without a section `jbpf` the pointer to it is nil. -/
def RawConfig.expandEnvVars (host : DeployHost) (c : RawConfig) : Except String RawConfig :=
  match c.jbpf with
  | none => .error nilDereference
  | some j => .ok
    { c with
      apps := c.apps.map (AppConfig.expandEnvVars host)
      jbpf := some { j with
        jbpfCodelets := j.jbpfCodelets.map fun s =>
          { s with configFile := host.expandEnv s.configFile } } }

def defaultAppIOQSize : BitVec 32 := 1000

def defaultIP : String := "127.0.0.1"

/-- An address that is missing or empty is the default one. -/
def ipOf (optionalIP : Option String) : String :=
  match optionalIP with
  | some ip => if ip ≠ "" then ip else defaultIP
  | none => defaultIP

def durationOf (host : DeployHost) : Option String → Except String Duration
  | some d => host.parseDuration d
  | none => .ok 0

/-- `setDefaults` on an app.  Its library is read later. -/
def AppConfig.setDefaults (host : DeployHost) (a : AppConfig) : Except String DeployedApp := do
  let deadline ← durationOf host a.optionalDeadline
  let period ← durationOf host a.optionalPeriod
  let runtime ← durationOf host a.optionalRuntime
  pure
    { ip := ipOf a.optionalIP
      port := a.port
      app :=
        { name := a.name
          sharedLibraryPath := a.sharedLibraryPath
          sharedLibraryCode := ⟨0, false⟩
          ioqSize := a.optionalIOQSize.getD defaultAppIOQSize
          deadline := deadline
          period := period
          runtime := runtime
          appType := a.appType
          appParams := a.appParams
          appModules := a.appModules } }

def RawConfig.setDefaults (host : DeployHost) (c : RawConfig) : Except String CLIConfig := do
  let apps ← c.apps.mapM (AppConfig.setDefaults host)
  match c.jbpf with
  | none => throw nilDereference
  | some j =>
    pure
      { apps := apps
        decoders := c.decoders.map fun d => { d with ip := ipOf d.optionalIP }
        jbpf := { j with
          devices := j.devices.map fun d => { d with ip := ipOf d.optionalIP } }
        name := c.name }

/-- The first loop of `validate`, with the ids it has seen. -/
def checkDevices : List (BitVec 8) → List JBPFDevice → Except String (List (BitVec 8))
  | seen, [] => .ok seen
  | seen, d :: devices =>
    if d.id ∈ seen then .error ("device " ++ toString d.id.toNat ++ " already defined")
    else checkDevices (d.id :: seen) devices

/-- The second loop. -/
def checkCodelet (seen : List (BitVec 8)) (j : JBPFCodelet) : Except String Unit :=
  if j.device ∈ seen then .ok ()
  else .error ("device " ++ toString j.device.toNat ++ " not found")

/-- `validate`. -/
def JBPFConfig.validate (c : JBPFConfig) : Except String Unit := do
  let seen ← checkDevices [] c.devices
  c.jbpfCodelets.forM (checkCodelet seen)
  let unused := seen.filter fun id => ∀ j ∈ c.jbpfCodelets, j.device ≠ id
  if unused ≠ [] then
    throw ("unused devices: " ++ ", ".intercalate (unused.map fun id => toString id.toNat))

/-- `FromYamls`. -/
def fromYamls (host : DeployHost) : List String → Except String CLIConfig
  | [] => .error "no files provided"
  | file :: files => do
    let first ← readConfig host file
    let out ← files.foldlM (fun out file => do mergeConfigs out (← readConfig host file)) first
    let out ← out.expandEnvVars host
    let names := ", ".intercalate (file :: files)
    let out ← joinError (out.setDefaults host) ("failed to set defaults for " ++ names)
    joinError out.jbpf.validate ("failed to validate " ++ names)
    pure out

/-- The body of the loop of `Options.Parse`. -/
def readLibrary (host : DeployHost) (a : DeployedApp) : Except String DeployedApp := do
  if ← host.stat a.app.sharedLibraryPath then
    throw ("expected " ++ a.app.sharedLibraryPath ++ " to be a file")
  if a.app.appType = "c" then
    let data ← host.readFile a.app.sharedLibraryPath
    pure
      { a with app := { a.app with sharedLibraryCode := ⟨data.length, host.startApp data⟩ } }
  else pure a

/-- `Options.Parse`. -/
def parseOptions (host : DeployHost) (files : List String) : Except String CLIConfig := do
  let ret ← fromYamls host files
  let apps ← ret.apps.mapM (readLibrary host)
  pure { ret with apps := apps }

/-- `NewJBPFCLIConfig`. -/
def newJBPFCLIConfig (host : DeployHost) (config : String) : Except String JBPFCLIConfig := do
  let configFile ← host.abs (host.expandEnv config)
  jbpfConfigFromYaml host.toHost configFile

/-- `runOptions.parse` of `jrtc-ctl jbpf load`. -/
def parseDeviceID (deviceID : BitVec 8) : Except String Unit :=
  if 127 < deviceID.toNat then .error "device ID must be less or equal to 127" else .ok ()

/-! ## The check of a deployment -/

theorem checkDevices_eq_ok_iff {seen out : List (BitVec 8)} {devices : List JBPFDevice} :
    checkDevices seen devices = .ok out
      ↔ (devices.map JBPFDevice.id).Nodup ∧ (∀ d ∈ devices, d.id ∉ seen)
        ∧ out = (devices.map JBPFDevice.id).reverse ++ seen := by
  induction devices generalizing seen with
  | nil =>
      rw [checkDevices, Except.ok.injEq]
      simp [eq_comm]
  | cons d devices ih =>
      rw [checkDevices]
      by_cases hd : d.id ∈ seen
      · rw [if_pos hd]
        refine iff_of_false (fun h => by cases h) fun h => ?_
        exact h.2.1 d List.mem_cons_self hd
      · rw [if_neg hd, ih, List.map_cons, List.nodup_cons, List.reverse_cons,
          List.append_assoc, List.singleton_append, List.forall_mem_cons]
        have hnew : (∀ x ∈ devices, x.id ∉ d.id :: seen)
            ↔ d.id ∉ devices.map JBPFDevice.id ∧ ∀ x ∈ devices, x.id ∉ seen := by
          simp only [List.mem_cons, not_or, List.mem_map, not_exists, not_and]
          exact forall₂_and
        rw [hnew]
        tauto

/-- **THE CHECK** asks that the devices are different, and that those of the codelet sets are
    the devices; it does not look at the ids. -/
theorem validate_eq_ok_iff (c : JBPFConfig) : c.validate = .ok ()
    ↔ (c.devices.map JBPFDevice.id).Nodup
      ∧ (∀ j ∈ c.jbpfCodelets, ∃ d ∈ c.devices, d.id = j.device)
      ∧ ∀ d ∈ c.devices, ∃ j ∈ c.jbpfCodelets, j.device = d.id := by
  have hseen : ∀ {id}, id ∈ (c.devices.map JBPFDevice.id).reverse ++ []
      ↔ ∃ d ∈ c.devices, d.id = id := by simp
  have hone : ∀ (seen : List (BitVec 8)) j, checkCodelet seen j = .ok () ↔ j.device ∈ seen := by
    intro seen j
    rw [checkCodelet]
    split
    case isTrue h => exact iff_of_true rfl h
    case isFalse h => exact iff_of_false (fun he => by cases he) h
  rw [JBPFConfig.validate, bind_eq_ok_iff]
  constructor
  · rintro ⟨seen, hdevices, hrest⟩
    obtain ⟨hnodup, -, rfl⟩ := checkDevices_eq_ok_iff.mp hdevices
    obtain ⟨⟨⟩, hcodelets, hunused⟩ := bind_eq_ok_iff.mp hrest
    refine ⟨hnodup, fun j hj => hseen.mp ((hone _ j).mp (forM_eq_ok_iff.mp hcodelets j hj)),
      fun d hd => ?_⟩
    by_contra hno
    push Not at hno
    have hmem : d.id ∈ ((c.devices.map JBPFDevice.id).reverse ++ []).filter
        fun id => ∀ j ∈ c.jbpfCodelets, j.device ≠ id :=
      List.mem_filter.mpr ⟨hseen.mpr ⟨d, hd, rfl⟩, decide_eq_true hno⟩
    rw [if_pos (List.ne_nil_of_mem hmem)] at hunused
    cases hunused
  · rintro ⟨hnodup, hfound, hused⟩
    refine ⟨_, checkDevices_eq_ok_iff.mpr ⟨hnodup, fun _ _ => List.not_mem_nil, rfl⟩, ?_⟩
    refine bind_eq_ok_iff.mpr ⟨(), forM_eq_ok_iff.mpr fun j hj =>
      (hone _ j).mpr (hseen.mpr (hfound j hj)), ?_⟩
    rw [if_neg]
    · rfl
    · rw [not_not, List.filter_eq_nil_iff]
      intro id hid
      obtain ⟨d, hd, rfl⟩ := hseen.mp hid
      obtain ⟨j, hj, hdev⟩ := hused d hd
      simpa using ⟨j, hj, hdev⟩

/-! ## The ids of a codelet set -/

/-- What the id of a channel is made of, apart from the device. -/
structure Channel where
  dest : Destination
  path : String
  name : String
  deriving DecidableEq, Repr

/-- The destination of an output channel that has one. -/
def destOf (val : String) : Destination :=
  match destinationFromString val with
  | .ok dest => dest
  | .error _ => .none

/-- The channels of a codelet set, in the order of the loops of `CodeletSet`. -/
def channels (appName : String) (cfg : JBPFCLIConfig) : List Channel :=
  cfg.codelets.flatMap fun c =>
    (c.inIOChannel.map fun io => ⟨.none, streamPath appName cfg.id c.name, io.name⟩)
      ++ c.outIOChannel.map fun io =>
        ⟨destOf io.forwardDestination, streamPath appName cfg.id c.name, io.name⟩

/-- The id of a channel for a device. -/
def Channel.id (host : Host) (deviceID : BitVec 8) (ch : Channel) : StreamId :=
  packId (streamIdInt host.murmurHash64A ch.dest.value deviceID ch.path ch.name)

/-- The ids in a request, in its order. -/
def requestIds (req : LoadCodeletSetRequest) : List StreamId :=
  req.codeletDescriptors.flatMap fun d =>
    d.inIOChannel.map IOMap.streamID ++ d.outIOChannel.map IOMap.streamID

section Ids

variable {host : Host} {appName : String} {cfg : JBPFCLIConfig} {deviceID : BitVec 8}

theorem inputIOMap_streamID {codelet : String} {io : IOChannelConfig} {m : IOMap}
    (h : inputIOMap host appName cfg deviceID codelet io = .ok m) : m.streamID
      = Channel.id host deviceID ⟨.none, streamPath appName cfg.id codelet, io.name⟩ := by
  rw [inputIOMap, channelStreamID_eq] at h
  cases h
  rfl

theorem outputIOMap_streamID {codelet : String} {io : IOChannelConfig} {m : IOMap}
    (h : outputIOMap host appName cfg deviceID codelet io = .ok m) : m.streamID
      = Channel.id host deviceID
          ⟨destOf io.forwardDestination, streamPath appName cfg.id codelet, io.name⟩ := by
  obtain ⟨dest, hdest, rfl⟩ := (outputIOMap_eq_ok_iff host appName cfg deviceID).mp h
  have hof : destOf io.forwardDestination = dest := by rw [destOf, hdest]
  rw [hof]
  rfl

/-- **THE IDS OF A REQUEST** are those of its channels for its device. -/
theorem codeletSet_ids {req : LoadCodeletSetRequest}
    (h : codeletSet host appName cfg deviceID = .ok req) :
    requestIds req = (channels appName cfg).map (Channel.id host deviceID) := by
  obtain ⟨descs, hdescs, hreq⟩ := bind_eq_ok_iff.mp h
  cases hreq
  rw [requestIds, channels, List.map_flatMap, List.flatMap, List.flatMap]
  refine congrArg List.flatten (map_eq_of_mapM hdescs fun c _ desc hdesc => ?_)
  obtain ⟨ins, hins, hdesc⟩ := bind_eq_ok_iff.mp hdesc
  obtain ⟨outs, houts, hdesc⟩ := bind_eq_ok_iff.mp hdesc
  cases hdesc
  rw [List.map_append, List.map_map, List.map_map]
  exact congrArg₂ (· ++ ·) (map_eq_of_mapM hins fun io _ m hm => inputIOMap_streamID hm)
    (map_eq_of_mapM houts fun io _ m hm => outputIOMap_streamID hm)

/-- A codelet set gets a request iff its output channels have destinations. -/
theorem exists_codeletSet_iff : (∃ req, codeletSet host appName cfg deviceID = .ok req)
    ↔ ∀ c ∈ cfg.codelets, ∀ io ∈ c.outIOChannel,
        ∃ dest, destinationFromString io.forwardDestination = .ok dest := by
  have hout : ∀ codelet io, (∃ m, outputIOMap host appName cfg deviceID codelet io = .ok m)
      ↔ ∃ dest, destinationFromString io.forwardDestination = .ok dest := by
    intro codelet io
    simp only [outputIOMap_eq_ok_iff]
    exact ⟨fun ⟨_, dest, h, _⟩ => ⟨dest, h⟩, fun ⟨dest, h⟩ => ⟨_, dest, h, rfl⟩⟩
  have hin : ∀ (c : JBPFCLICodeletConfig), ∃ ins,
      c.inIOChannel.mapM (inputIOMap host appName cfg deviceID c.name) = .ok ins := by
    intro c
    refine exists_mapM_eq_ok_iff.mpr fun io _ => ?_
    rw [inputIOMap, channelStreamID_eq]
    exact ⟨_, rfl⟩
  constructor
  · rintro ⟨req, h⟩ c hc io hio
    obtain ⟨descs, hdescs, -⟩ := bind_eq_ok_iff.mp h
    obtain ⟨desc, -, hdesc⟩ := exists_mem_of_mapM hdescs hc
    obtain ⟨ins, -, hdesc⟩ := bind_eq_ok_iff.mp hdesc
    obtain ⟨outs, houts, -⟩ := bind_eq_ok_iff.mp hdesc
    obtain ⟨m, -, hm⟩ := exists_mem_of_mapM houts hio
    exact (hout c.name io).mp ⟨m, hm⟩
  · intro h
    have hdesc : ∀ c ∈ cfg.codelets,
        ∃ desc, codeletDescriptor host appName cfg deviceID c = .ok desc := by
      intro c hc
      obtain ⟨ins, hins⟩ := hin c
      obtain ⟨outs, houts⟩ := exists_mapM_eq_ok_iff.mpr fun io hio =>
        (hout c.name io).mpr (h c hc io hio)
      exact ⟨_, bind_eq_ok_iff.mpr ⟨ins, hins, bind_eq_ok_iff.mpr ⟨outs, houts, rfl⟩⟩⟩
    obtain ⟨descs, hdescs⟩ := exists_mapM_eq_ok_iff.mpr hdesc
    exact ⟨_, bind_eq_ok_iff.mpr ⟨descs, hdescs, rfl⟩⟩

end Ids

/-- Seven bits of the device id arrive. -/
theorem field_channelId_deviceId (host : Host) (deviceID : BitVec 8) (ch : Channel) :
    field .deviceId (ch.id host deviceID) = deviceID.setWidth 7 := by
  rw [Channel.id, field_packId_deviceId]
  show (deviceID.setWidth 32).setWidth 7 = deviceID.setWidth 7
  exact BitVec.setWidth_setWidth_of_le _ (by decide)

/-! ## Loads -/

/-- A codelet set that is loaded for a device. -/
structure Load where
  appName  : String
  config   : JBPFCLIConfig
  deviceID : BitVec 8

/-- What `jrtc-ctl load` and `jrtc-ctl jbpf load` are given. -/
inductive Invocation where
  | deployment (files : List String)
  | codeletSet (appName config : String) (deviceID : BitVec 8)

/-- The codelet sets that an invocation loads. -/
def Invocation.Loads (host : DeployHost) : Invocation → Load → Prop
  | .deployment files, l => ∃ cfg, fromYamls host files = .ok cfg
      ∧ ∃ j ∈ cfg.jbpf.jbpfCodelets, newJBPFCLIConfig host j.configFile = .ok l.config
        ∧ l.appName = cfg.name ∧ l.deviceID = j.device
  | .codeletSet appName config deviceID, l => parseDeviceID deviceID = .ok ()
      ∧ newJBPFCLIConfig host config = .ok l.config
      ∧ l.appName = appName ∧ l.deviceID = deviceID

/-- A load generates an id for a channel. -/
def Load.Generates (host : DeployHost) (l : Load) (ch : Channel) (id : StreamId) : Prop :=
  ∃ req, codeletSet host.toHost l.appName l.config l.deviceID = .ok req
    ∧ (ch, id) ∈ (channels l.appName l.config).zip (requestIds req)

/-- **THE IDS OF A LOAD**: each of its channels has one, if all outputs have destinations. -/
theorem Load.generates_iff {host : DeployHost} {l : Load} {ch : Channel} {id : StreamId} :
    l.Generates host ch id ↔
      (∀ c ∈ l.config.codelets, ∀ io ∈ c.outIOChannel,
        ∃ dest, destinationFromString io.forwardDestination = .ok dest)
      ∧ ch ∈ channels l.appName l.config ∧ id = ch.id host.toHost l.deviceID := by
  have hzip : ∀ req, codeletSet host.toHost l.appName l.config l.deviceID = .ok req →
      ((ch, id) ∈ (channels l.appName l.config).zip (requestIds req)
        ↔ ch ∈ channels l.appName l.config ∧ id = ch.id host.toHost l.deviceID) := by
    intro req hreq
    rw [codeletSet_ids hreq, ← List.map_prod_left_eq_zip, List.mem_map]
    constructor
    · rintro ⟨ch', hmem, heq⟩
      obtain ⟨rfl, rfl⟩ := Prod.mk.inj heq
      exact ⟨hmem, rfl⟩
    · rintro ⟨hmem, rfl⟩
      exact ⟨ch, hmem, rfl⟩
  rw [← @exists_codeletSet_iff host.toHost l.appName l.config l.deviceID]
  constructor
  · rintro ⟨req, hreq, hmem⟩
    exact ⟨⟨req, hreq⟩, (hzip req hreq).mp hmem⟩
  · rintro ⟨⟨req, hreq⟩, hmem⟩
    exact ⟨req, hreq, (hzip req hreq).mpr hmem⟩

theorem Load.Generates.deviceId {host : DeployHost} {l : Load} {ch : Channel} {id : StreamId}
    (h : l.Generates host ch id) : field .deviceId id = l.deviceID.setWidth 7 := by
  rw [(Load.generates_iff.mp h).2.2, field_channelId_deviceId]

/-- `JRTC_ROUTER_CONTROLLER_DEVICE_ID`. -/
def controllerDeviceId : BitVec 7 := 0

/-- The ids that some invocations generate have the device id they were generated for, which
    is not one with another meaning, and tell devices apart. -/
structure Identifies (host : DeployHost) (is : Set Invocation) : Prop where
  deviceID : ∀ i ∈ is, ∀ l ch id, i.Loads host l → l.Generates host ch id →
    (field .deviceId id).toNat = l.deviceID.toNat ∧ field .deviceId id ≠ deviceIdAny
      ∧ field .deviceId id ≠ controllerDeviceId
  distinct : ∀ i ∈ is, ∀ i' ∈ is, ∀ l l' ch id id', i.Loads host l → i'.Loads host l' →
    l.deviceID ≠ l'.deviceID → l.Generates host ch id → l'.Generates host ch id' → id ≠ id'

/-- A device id is itself in seven bits and neither of the two with another meaning. -/
theorem setWidth_seven_iff (d : BitVec 8) :
    (d.setWidth 7).toNat = d.toNat ∧ d.setWidth 7 ≠ deviceIdAny
        ∧ d.setWidth 7 ≠ controllerDeviceId
      ↔ 1 ≤ d.toNat ∧ d.toNat ≤ 126 := by
  revert d
  decide

/-- **IDS NAME THEIR DEVICES** iff each device for which one is generated has an id between 1
    and 126. -/
theorem identifies_iff (host : DeployHost) (is : Set Invocation) :
    Identifies host is ↔ ∀ i ∈ is, ∀ l ch id, i.Loads host l → l.Generates host ch id →
      1 ≤ l.deviceID.toNat ∧ l.deviceID.toNat ≤ 126 := by
  constructor
  · intro h i hi l ch id hl hgen
    have hid := h.deviceID i hi l ch id hl hgen
    rw [hgen.deviceId] at hid
    exact (setWidth_seven_iff _).mp hid
  · intro h
    refine ⟨fun i hi l ch id hl hgen => ?_,
      fun i hi i' hi' l l' ch id id' hl hl' hne hgen hgen' heq => ?_⟩
    · rw [hgen.deviceId]
      exact (setWidth_seven_iff _).mpr (h i hi l ch id hl hgen)
    · refine hne (BitVec.eq_of_toNat_eq ?_)
      have hwidth := (setWidth_seven_iff _).mpr (h i hi l ch id hl hgen)
      have hwidth' := (setWidth_seven_iff _).mpr (h i' hi' l' ch id' hl' hgen')
      have hfield : l.deviceID.setWidth 7 = l'.deviceID.setWidth 7 := by
        rw [← hgen.deviceId, heq, hgen'.deviceId]
      rw [← hwidth.1, ← hwidth'.1, hfield]

/-! ## Two devices with one id -/

/-- A codelet with one output channel. -/
def sampleCodelets : JBPFCLIConfig where
  id := "set"
  codelets := [
    { name := "codelet"
      codeletPath := "codelet.o"
      hookName := "hook"
      inIOChannel := []
      outIOChannel := [⟨"DestinationUDP", "out", none⟩]
      linkedMaps := []
      priority := none
      runtimeThreshold := none }]

/-- Two devices that run the same codelets. -/
def sampleDeployment : RawConfig where
  apps := []
  decoders := []
  jbpf := some
    { devices := [⟨1, "", none, 8080⟩, ⟨129, "", none, 8081⟩]
      jbpfCodelets := [⟨"codelets.yaml", 1⟩, ⟨"codelets.yaml", 129⟩] }
  name := "app"

/-- A machine on which every file holds what the sample needs. -/
def sampleMachine : DeployHost where
  expandEnv := id
  stat := fun _ => .ok false
  readFile := fun _ => .ok []
  unmarshalYaml := fun _ => .ok sampleCodelets
  murmurHash64A := fun _ _ => 0
  abs := .ok
  checkYaml := fun _ => .ok ()
  marshalJson := .ok
  unmarshalConfig := fun _ => .ok sampleDeployment
  parseDuration := fun _ => .ok 0
  startApp := fun _ => true

/-- The deployment is accepted and loads the codelets on both devices. -/
theorem sampleMachine_loads {d : BitVec 8} (hd : d = 1 ∨ d = 129) :
    (Invocation.deployment ["deployment.yaml"]).Loads sampleMachine
      ⟨"app", sampleCodelets, d⟩ := by
  refine ⟨_, rfl, ?_⟩
  rcases hd with rfl | rfl
  · exact ⟨⟨"codelets.yaml", 1⟩, List.mem_cons_self, rfl, rfl, rfl⟩
  · exact ⟨⟨"codelets.yaml", 129⟩, List.mem_cons_of_mem _ List.mem_cons_self, rfl, rfl, rfl⟩

/-- The channel of the codelet. -/
def sampleOutput : Channel := ⟨.udp, streamPath "app" "set" "codelet", "out"⟩

theorem sampleMachine_generates (d : BitVec 8) :
    (⟨"app", sampleCodelets, d⟩ : Load).Generates sampleMachine sampleOutput
      (sampleOutput.id sampleMachine.toHost d) := by
  refine Load.generates_iff.mpr ⟨fun c hc io hio => ?_, List.mem_singleton_self _, rfl⟩
  obtain rfl := List.mem_singleton.mp hc
  obtain rfl := List.mem_singleton.mp hio
  exact ⟨.udp, rfl⟩

/-- Device 129 gets the ids of device 1. -/
theorem devices_collide :
    ¬ Identifies sampleMachine {Invocation.deployment ["deployment.yaml"]} := by
  intro h
  have hsame : sampleOutput.id sampleMachine.toHost 1
      = sampleOutput.id sampleMachine.toHost 129 := by decide
  exact h.distinct _ rfl _ rfl _ _ _ _ _ (sampleMachine_loads (Or.inl rfl))
    (sampleMachine_loads (Or.inr rfl)) (by decide) (sampleMachine_generates 1)
    (sampleMachine_generates 129) hsame

end JrtcDeployment
