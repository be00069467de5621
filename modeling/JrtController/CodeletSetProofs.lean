import JrtController.LoopProofs
import JrtController.RouterLookupProofs

/-! # Codelet sets: the configuration and the ids of its streams

    `jrtc-ctl` reads a codelet set from a YAML file and gives each output channel of a
    codelet a stream id, packed from a forward destination, a device id and the
    hashes of a path and a name.  The decoder's store is keyed by such an id with
    version, destination and device cleared.

    * `getHash_ne_zero`, `generateStreamID_eq` — an id is always generated;
    * `streamKey_eq_iff` — two ids have one key iff they agree in path and name;
    * `recognised_iff` — the destinations `DestinationFromString` knows;
    * `checkSerdes_eq_ok_iff` — the check of the serdes reads input channels only;
    * `codeletSet_assigns` — the ids in the request of `CodeletSet`. -/

namespace JrtcCodeletSet

open PackedBits Loops JrtcStreamId JrtcRouterLookup

abbrev Bytes := List (BitVec 8)

/-! ## Generated ids -/

/-- `JRTC_ROUTER_HASH_NUMBER_BITS`. -/
def hashNumberBits : Nat := 54

/-- `JRTC_ROUTER_NUM_HASH_FUNCTIONS`. -/
def numHashFunctions : Nat := 38

/-- What a C function sees of a string passed by `C.CString`. -/
def cString (s : String) : String := String.ofList (s.toList.takeWhile (· ≠ '\x00'))

/-- `jrtc_router_get_hash`: the bitmap of a Bloom filter that holds the name.  The
    hash function is `MurmurHash64A`, with the element and the seed as arguments. -/
def getHash (murmur : String → Nat → BitVec 64) (name : String) : BitVec 64 :=
  (List.range numHashFunctions).foldl
    (fun result seed => result ||| 1#64 <<< ((murmur name seed).toNat % hashNumberBits)) 0

/-- The bytes `jrtc_router_generate_stream_id` writes. -/
def packId (sid : StreamIdInt) : StreamId :=
  let id : StreamId := Vector.replicate 16 0
  let id := idSetVer id (sid.ver.setWidth 32)
  let id := idSetFwdDst id (sid.fwdDst.setWidth 32)
  let id := idSetDeviceId id (sid.deviceId.setWidth 32)
  let id := idSetStreamPath id (sid.streamPath.setWidth 64)
  idSetStreamName id (sid.streamName.setWidth 64)

/-- `jrtc_router_generate_stream_id`; `none` is the return value -1. -/
def routerGenerateStreamId (murmur : String → Nat → BitVec 64)
    (fwdDst deviceId : BitVec 32) (streamPath streamName : Option String) :
    Option StreamId :=
  let pathHash := streamPath.elim (streamPathAny.setWidth 64) (getHash murmur)
  let nameHash := streamName.elim (streamNameAny.setWidth 64) (getHash murmur)
  if pathHash = 0 ∨ nameHash = 0 then none
  else some (packId
    { ver := 0
      fwdDst := fwdDst.setWidth 7
      deviceId := deviceId.setWidth 7
      streamPath := pathHash.setWidth 54
      streamName := nameHash.setWidth 54 })

/-- The Go binding, whose callers here all pass a path and a name. -/
def generateStreamID (murmur : String → Nat → BitVec 64)
    (forwardDestination deviceID : BitVec 8) (streamPath streamName : String) :
    Except String StreamId :=
  match routerGenerateStreamId murmur (forwardDestination.setWidth 32)
      (deviceID.setWidth 32) (some (cString streamPath)) (some (cString streamName)) with
  | none => .error "Failed to generate stream ID"
  | some id => .ok id

/-- Every element sets a bit, so its hash is not zero. -/
theorem getHash_ne_zero (murmur : String → Nat → BitVec 64) (name : String) :
    getHash murmur name ≠ 0 := by
  have hlast : getHash murmur name = (List.range 37).foldl
      (fun result seed => result ||| 1#64 <<< ((murmur name seed).toNat % hashNumberBits)) 0
      ||| 1#64 <<< ((murmur name 37).toNat % hashNumberBits) := by
    rw [getHash, numHashFunctions, List.range_succ, List.foldl_append]
    rfl
  have hlt : (murmur name 37).toNat % hashNumberBits < 64 :=
    Nat.lt_trans (Nat.mod_lt _ (by decide)) (by decide)
  intro hzero
  have hbit := congrArg (fun v => v.getLsbD ((murmur name 37).toNat % hashNumberBits))
    (hlast.symm.trans hzero)
  simp [hlt] at hbit

/-- The unpacked id of a path and a name. -/
def streamIdInt (murmur : String → Nat → BitVec 64)
    (forwardDestination deviceID : BitVec 8) (streamPath streamName : String) :
    StreamIdInt where
  ver := 0
  fwdDst := (forwardDestination.setWidth 32).setWidth 7
  deviceId := (deviceID.setWidth 32).setWidth 7
  streamPath := (getHash murmur (cString streamPath)).setWidth 54
  streamName := (getHash murmur (cString streamName)).setWidth 54

/-- **AN ID IS ALWAYS GENERATED.** -/
theorem generateStreamID_eq (murmur : String → Nat → BitVec 64)
    (forwardDestination deviceID : BitVec 8) (streamPath streamName : String) :
    generateStreamID murmur forwardDestination deviceID streamPath streamName
      = .ok (packId
          (streamIdInt murmur forwardDestination deviceID streamPath streamName)) := by
  have hnone : ¬ (getHash murmur (cString streamPath) = 0
      ∨ getHash murmur (cString streamName) = 0) :=
    not_or.mpr ⟨getHash_ne_zero _ _, getHash_ne_zero _ _⟩
  rw [generateStreamID, routerGenerateStreamId, Option.elim_some, Option.elim_some,
    if_neg hnone]
  rfl

/-- The value a packed id holds in each field. -/
theorem field_packId_streamName (sid : StreamIdInt) :
    field .streamName (packId sid) = sid.streamName := by
  refine (slice_overwrite (idSetStreamName_updates _ _) (by decide)).trans ?_
  exact BitVec.setWidth_setWidth_of_le _ (by decide)

theorem field_packId_streamPath (sid : StreamIdInt) :
    field .streamPath (packId sid) = sid.streamPath := by
  refine ((idSetStreamName_updates _ _).slice_disjoint (by decide) (by decide)).trans ?_
  refine (slice_overwrite (idSetStreamPath_updates _ _) (by decide)).trans ?_
  exact BitVec.setWidth_setWidth_of_le _ (by decide)

theorem field_packId_deviceId (sid : StreamIdInt) :
    field .deviceId (packId sid) = sid.deviceId := by
  refine ((idSetStreamName_updates _ _).slice_disjoint (by decide) (by decide)).trans ?_
  refine ((idSetStreamPath_updates _ _).slice_disjoint (by decide) (by decide)).trans ?_
  refine (slice_overwrite (idSetDeviceId_updates _ _) (by decide)).trans ?_
  exact BitVec.setWidth_setWidth_of_le _ (by decide)

/-! ## The key of the decoder's store -/

/-- The key under which the decoder stores an association; the store spells it as
    text. -/
def streamKey (s : StreamId) : StreamId :=
  format
    { clearVersion := true
      clearForwardingDestination := true
      clearDeviceID := true
      clearStreamPath := false
      clearStreamName := false } s

theorem field_streamKey_of_kept (s : StreamId) {f : Field}
    (hf : f = .streamPath ∨ f = .streamName) : field f (streamKey s) = field f s := by
  rcases hf with rfl | rfl
  · exact (field_format _ s .streamPath).trans (if_neg Bool.false_ne_true)
  · exact (field_format _ s .streamName).trans (if_neg Bool.false_ne_true)

theorem field_streamKey_of_cleared (s : StreamId) {f : Field}
    (hf : ¬ (f = .streamPath ∨ f = .streamName)) : field f (streamKey s) = 0 := by
  cases f with
  | ver => exact (field_format _ s .ver).trans (if_pos rfl)
  | fwdDst => exact (field_format _ s .fwdDst).trans (if_pos rfl)
  | deviceId => exact (field_format _ s .deviceId).trans (if_pos rfl)
  | streamPath => exact absurd (Or.inl rfl) hf
  | streamName => exact absurd (Or.inr rfl) hf

/-- **TWO IDS HAVE ONE KEY** exactly if they agree in path and name. -/
theorem streamKey_eq_iff (s s' : StreamId) : streamKey s = streamKey s'
    ↔ field .streamPath s = field .streamPath s'
      ∧ field .streamName s = field .streamName s' := by
  constructor
  · intro h
    have hkept : ∀ f : Field, f = .streamPath ∨ f = .streamName →
        field f s = field f s' := fun f hf => by
      rw [← field_streamKey_of_kept s hf, h, field_streamKey_of_kept s' hf]
    exact ⟨hkept .streamPath (Or.inl rfl), hkept .streamName (Or.inr rfl)⟩
  · rintro ⟨hpath, hname⟩
    refine ext_field fun f => ?_
    by_cases hf : f = .streamPath ∨ f = .streamName
    · rw [field_streamKey_of_kept s hf, field_streamKey_of_kept s' hf]
      rcases hf with rfl | rfl
      · exact hpath
      · exact hname
    · rw [field_streamKey_of_cleared s hf, field_streamKey_of_cleared s' hf]

/-! ## Forward destinations -/

/-- `jrtcbindings.Destination`. -/
inductive Destination where
  | any | none | udp
  deriving DecidableEq, Repr

/-- `JRTC_ROUTER_DEST_ANY`, `_NONE` and `_UDP`. -/
def Destination.value : Destination → BitVec 8
  | any => 0x7F
  | none => 0x1
  | udp => 0x2

/-- `jrtcbindings.DeviceIDAny`. -/
def deviceIDAny : BitVec 8 := 0x7F

/-- The map `destinationFromString`. -/
def destinationNames : List (String × Destination) :=
  [("DestinationAny", .any), ("DestinationNone", .none), ("DestinationUDP", .udp)]

/-- The map `destinationFromStringAlt`. -/
def destinationNamesAlt : List (String × Destination) :=
  [("JRTC_ROUTER_DEST_ANY", .any), ("JRTC_ROUTER_DEST_NONE", .none),
   ("JRTC_ROUTER_DEST_UDP", .udp)]

/-- `DestinationFromString`. -/
def destinationFromString (val : String) : Except String Destination :=
  match destinationNames.lookup val with
  | some dest => .ok dest
  | .none =>
    match destinationNamesAlt.lookup val with
    | some dest => .ok dest
    | .none => .error ("unrecognized jrt-controller router destination: \"" ++ val ++ "\"")

/-- One of the six spellings of a destination. -/
def Recognised (val : String) : Prop :=
  val ∈ (destinationNames ++ destinationNamesAlt).map Prod.fst

instance (val : String) : Decidable (Recognised val) :=
  inferInstanceAs (Decidable (val ∈ _))

theorem lookup_isSome_iff (names : List (String × Destination)) (val : String) :
    val ∈ names.map Prod.fst ↔ ∃ dest, names.lookup val = some dest := by
  rw [← Option.isSome_iff_exists, ← not_iff_not, Option.not_isSome_iff_eq_none,
    List.lookup_eq_none_iff, List.mem_map]
  constructor
  · intro hno x hx
    exact bne_iff_ne.mpr fun heq => hno ⟨x, hx, heq.symm⟩
  · rintro hno ⟨x, hx, heq⟩
    exact bne_iff_ne.mp (hno x hx) heq.symm

/-- `DestinationFromString` returns without an error exactly on the six names. -/
theorem recognised_iff (val : String) :
    Recognised val ↔ ∃ dest, destinationFromString val = .ok dest := by
  unfold destinationFromString Recognised
  rw [List.map_append, List.mem_append, lookup_isSome_iff, lookup_isSome_iff]
  cases destinationNames.lookup val with
  | some dest => exact iff_of_true (Or.inl ⟨dest, rfl⟩) ⟨dest, rfl⟩
  | none =>
      cases destinationNamesAlt.lookup val with
      | some dest => exact iff_of_true (Or.inr ⟨dest, rfl⟩) ⟨dest, rfl⟩
      | none => simp

/-! ## The configuration -/

structure SerdeProtobufConfig where
  messageName : String
  packagePath : String
  deriving DecidableEq, Repr

structure SerdeConfig where
  filePath : String
  protobuf : Option SerdeProtobufConfig
  deriving DecidableEq, Repr

structure IOChannelConfig where
  forwardDestination : String
  name               : String
  serde              : Option SerdeConfig
  deriving DecidableEq, Repr

structure LinkedMapConfig where
  linkedCodeletName : String
  linkedMapName     : String
  mapName           : String
  deriving DecidableEq, Repr

structure JBPFCLICodeletConfig where
  hookName         : String
  inIOChannel      : List IOChannelConfig
  linkedMaps       : List LinkedMapConfig
  name             : String
  codeletPath      : String
  outIOChannel     : List IOChannelConfig
  priority         : Option (BitVec 32)
  runtimeThreshold : Option (BitVec 32)
  deriving DecidableEq, Repr

structure JBPFCLIConfig where
  codelets : List JBPFCLICodeletConfig
  id       : String
  deriving DecidableEq, Repr

/-- What the tool asks of the machine it runs on. -/
structure Host where
  expandEnv     : String → String
  /-- `os.Stat`: whether the file is a directory. -/
  stat          : String → Except String Bool
  readFile      : String → Except String Bytes
  unmarshalYaml : Bytes → Except String JBPFCLIConfig
  murmurHash64A : String → Nat → BitVec 64

def defaultForwardingDestination : String := "DestinationNone"

def gotDirectory (file : String) : String :=
  "expected \"" ++ file ++ "\" to be a file, got directory"

def fileExists (host : Host) (file : String) : Except String Unit :=
  match host.stat file with
  | .error e => .error ("error stating file \"" ++ file ++ "\"\n" ++ e)
  | .ok true => .error (gotDirectory file)
  | .ok false => .ok ()

/-- `expandEnvVars` on one channel: only the package path is replaced. -/
def expandChannel (host : Host) (m : IOChannelConfig) : Except String IOChannelConfig :=
  match m.serde with
  | none => pure m
  | some serde => do
    fileExists host (host.expandEnv serde.filePath)
    match serde.protobuf with
    | none => pure m
    | some p => do
      let p := { p with packagePath := host.expandEnv p.packagePath }
      fileExists host p.packagePath
      pure { m with serde := some { serde with protobuf := some p } }

def expandEnvVars (host : Host) (cfg : JBPFCLIConfig) : Except String JBPFCLIConfig := do
  let codelets ← cfg.codelets.mapM fun c => do
    fileExists host (host.expandEnv c.codeletPath)
    let ins ← c.inIOChannel.mapM (expandChannel host)
    let outs ← c.outIOChannel.mapM (expandChannel host)
    pure { c with inIOChannel := ins, outIOChannel := outs }
  pure { cfg with codelets := codelets }

/-- `setDefaults` on one channel. -/
def setDefault (m : IOChannelConfig) : IOChannelConfig :=
  if m.forwardDestination = "" then
    { m with forwardDestination := defaultForwardingDestination }
  else m

def setDefaults (cfg : JBPFCLIConfig) : JBPFCLIConfig :=
  { cfg with
    codelets := cfg.codelets.map fun c =>
      { c with
        inIOChannel := c.inIOChannel.map setDefault
        outIOChannel := c.outIOChannel.map setDefault } }

/-- The check of one channel of a codelet. -/
def checkSerde (codelet : JBPFCLICodeletConfig) (m : IOChannelConfig) :
    Except String Unit :=
  if m.forwardDestination ≠ defaultForwardingDestination ∧ m.serde = none then
    .error ("codelet " ++ codelet.name
      ++ " has a non-none destination but no serde configuration")
  else .ok ()

/-- Both loops of the source go over `InIOChannel`. -/
def checkSerdes (codelet : JBPFCLICodeletConfig) : Except String Unit := do
  codelet.inIOChannel.forM (checkSerde codelet)
  codelet.inIOChannel.forM (checkSerde codelet)

/-- **THE SERDE CHECK**, made twice, constrains the input channels; an output channel
    with a destination and no serde passes. -/
theorem checkSerdes_eq_ok_iff (codelet : JBPFCLICodeletConfig) :
    checkSerdes codelet = .ok ()
      ↔ ∀ m ∈ codelet.inIOChannel,
          m.forwardDestination = defaultForwardingDestination ∨ m.serde ≠ none := by
  have hone : ∀ m, checkSerde codelet m = .ok ()
      ↔ m.forwardDestination = defaultForwardingDestination ∨ m.serde ≠ none := by
    intro m
    rw [checkSerde]
    split
    case isTrue h => exact iff_of_false (fun he => by cases he) (by tauto)
    case isFalse h => exact iff_of_true rfl (by tauto)
  have hloop : codelet.inIOChannel.forM (checkSerde codelet) = .ok ()
      ↔ ∀ m ∈ codelet.inIOChannel,
          m.forwardDestination = defaultForwardingDestination ∨ m.serde ≠ none :=
    forM_eq_ok_iff.trans (forall₂_congr fun m _ => hone m)
  rw [checkSerdes, bind_eq_ok_iff, ← hloop]
  exact ⟨fun ⟨_, h, _⟩ => h, fun h => ⟨(), h, h⟩⟩

/-- The check of one linked map of a codelet. -/
def checkLink (isQueued : List String) (codelet : JBPFCLICodeletConfig)
    (l : LinkedMapConfig) : Except String Unit :=
  if l.linkedCodeletName = codelet.name then
    .error ("codelet " ++ codelet.name ++ " has a linked map to itself")
  else if l.linkedCodeletName ∈ isQueued then .ok ()
  else
    .error ("linked map " ++ l.linkedCodeletName ++ " for codelet " ++ codelet.name
      ++ " referenced before its loaded")

def checkLinks : List String → List JBPFCLICodeletConfig → Except String Unit
  | _, [] => .ok ()
  | isQueued, codelet :: codelets => do
    codelet.linkedMaps.forM (checkLink isQueued codelet)
    checkLinks (codelet.name :: isQueued) codelets

def jbpfConfigFromYaml (host : Host) (file : String) : Except String JBPFCLIConfig := do
  if ← host.stat file then throw (gotDirectory file)
  let data ← host.readFile file
  let cfg ← host.unmarshalYaml data
  let cfg ← expandEnvVars host cfg
  let cfg := setDefaults cfg
  cfg.codelets.forM checkSerdes
  checkLinks [] cfg.codelets
  pure cfg

/-- A configuration `JBPFConfigFromYaml` returns. -/
structure AcceptedConfig (host : Host) where
  config   : JBPFCLIConfig
  file     : String
  accepted : jbpfConfigFromYaml host file = .ok config

/-! ## The request of a codelet set -/

/-- `streamPathFormat`. -/
def streamPath (appName codeletSetId codelet : String) : String :=
  appName ++ "://jbpf_agent/" ++ codeletSetId ++ "/" ++ codelet

structure IOMap where
  name     : String
  streamID : StreamId
  serde    : Option String
  deriving DecidableEq, Repr

structure CodeletDescriptor where
  codeletName      : String
  codeletPath      : String
  hookName         : String
  inIOChannel      : List IOMap
  linkedMaps       : List LinkedMapConfig
  outIOChannel     : List IOMap
  priority         : Option (BitVec 32)
  runtimeThreshold : Option (BitVec 32)
  deriving DecidableEq, Repr

structure LoadCodeletSetRequest where
  codeletDescriptors : List CodeletDescriptor
  codeletSetID       : String
  deriving DecidableEq, Repr

section Request

variable (host : Host) (appName : String) (cfg : JBPFCLIConfig) (deviceID : BitVec 8)

/-- The id of a channel of a codelet, for a destination and a device. -/
def channelStreamID (dest : Destination) (device : BitVec 8) (codelet name : String) :
    Except String StreamId :=
  generateStreamID host.murmurHash64A dest.value device
    (streamPath appName cfg.id codelet) name

/-- The id as bytes. -/
def channelId (dest : Destination) (device : BitVec 8) (codelet name : String) : StreamId :=
  packId (streamIdInt host.murmurHash64A dest.value device
    (streamPath appName cfg.id codelet) name)

theorem channelStreamID_eq (dest : Destination) (device : BitVec 8) (codelet name : String) :
    channelStreamID host appName cfg dest device codelet name
      = .ok (channelId host appName cfg dest device codelet name) :=
  generateStreamID_eq ..

/-- The two hashes that an id carries of a channel. -/
def channelHashes (codelet name : String) : BitVec 54 × BitVec 54 :=
  ((getHash host.murmurHash64A (cString (streamPath appName cfg.id codelet))).setWidth 54,
   (getHash host.murmurHash64A (cString name)).setWidth 54)

/-- **THE KEY OF A CHANNEL** depends neither on the destination nor on the device. -/
theorem streamKey_channelId_eq_iff (dest dest' : Destination) (device device' : BitVec 8)
    (codelet codelet' name name' : String) :
    streamKey (channelId host appName cfg dest device codelet name)
        = streamKey (channelId host appName cfg dest' device' codelet' name')
      ↔ channelHashes host appName cfg codelet name
        = channelHashes host appName cfg codelet' name' := by
  rw [streamKey_eq_iff, channelId, channelId, field_packId_streamPath,
    field_packId_streamPath, field_packId_streamName, field_packId_streamName,
    channelHashes, channelHashes, Prod.mk.injEq]
  rfl

/-- A serde with an empty file path is not sent. -/
def serdeOf (io : IOChannelConfig) : Option String :=
  (io.serde.map SerdeConfig.filePath).filter (· ≠ "")

def inputIOMap (codelet : String) (io : IOChannelConfig) : Except String IOMap := do
  let streamUUID ← channelStreamID host appName cfg .none deviceID codelet io.name
  pure ⟨io.name, streamUUID, serdeOf io⟩

def outputIOMap (codelet : String) (io : IOChannelConfig) : Except String IOMap := do
  let forwardDestination ← destinationFromString io.forwardDestination
  let streamUUID ← channelStreamID host appName cfg forwardDestination deviceID codelet
    io.name
  pure ⟨io.name, streamUUID, serdeOf io⟩

/-- An output channel gets an id if its destination is recognised. -/
theorem outputIOMap_eq_ok_iff {codelet : String} {io : IOChannelConfig} {m : IOMap} :
    outputIOMap host appName cfg deviceID codelet io = .ok m
      ↔ ∃ dest, destinationFromString io.forwardDestination = .ok dest
        ∧ m = ⟨io.name, channelId host appName cfg dest deviceID codelet io.name,
            serdeOf io⟩ := by
  rw [outputIOMap, bind_eq_ok_iff]
  refine exists_congr fun dest => and_congr_right fun _ => ?_
  rw [channelStreamID_eq]
  exact ⟨fun h => by cases h; rfl, fun h => by rw [h]; rfl⟩

/-- The body of the loop of `CodeletSet`. -/
def codeletDescriptor (c : JBPFCLICodeletConfig) : Except String CodeletDescriptor := do
  let inputMaps ← c.inIOChannel.mapM (inputIOMap host appName cfg deviceID c.name)
  let outputMaps ← c.outIOChannel.mapM (outputIOMap host appName cfg deviceID c.name)
  pure
    { codeletName := c.name
      codeletPath := c.codeletPath
      hookName := c.hookName
      inIOChannel := inputMaps
      linkedMaps := c.linkedMaps
      outIOChannel := outputMaps
      priority := c.priority
      runtimeThreshold := c.runtimeThreshold }

/-- `CodeletSet`, up to the request it sends. -/
def codeletSet : Except String LoadCodeletSetRequest := do
  let req ← cfg.codelets.mapM (codeletDescriptor host appName cfg deviceID)
  pure ⟨req, cfg.id⟩

/-- **THE REQUEST** assigns each output channel of the set its id. -/
theorem codeletSet_assigns {req : LoadCodeletSetRequest}
    (h : codeletSet host appName cfg deviceID = .ok req) {c : JBPFCLICodeletConfig}
    (hc : c ∈ cfg.codelets) {io : IOChannelConfig} (hio : io ∈ c.outIOChannel) :
    ∃ desc ∈ req.codeletDescriptors, desc.codeletName = c.name
      ∧ ∃ m ∈ desc.outIOChannel, outputIOMap host appName cfg deviceID c.name io = .ok m := by
  obtain ⟨descs, hdescs, hreq⟩ := bind_eq_ok_iff.mp h
  obtain ⟨desc, hdesc, hbody⟩ := exists_mem_of_mapM hdescs hc
  obtain ⟨inputMaps, -, hbody⟩ := bind_eq_ok_iff.mp hbody
  obtain ⟨outputMaps, houts, hbody⟩ := bind_eq_ok_iff.mp hbody
  obtain ⟨m, hm, hid⟩ := exists_mem_of_mapM houts hio
  cases hreq
  cases hbody
  exact ⟨_, hdesc, rfl, m, hm, hid⟩

end Request

end JrtcCodeletSet
