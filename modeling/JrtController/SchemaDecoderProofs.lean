import JrtController.CodeletSetProofs
import JrtController.IterMapProofs

/-! # The schemas of a codelet set in the decoder

    `jrtc-ctl jbpf load` uploads the protobuf packages of a codelet set to a decoder
    and associates the stream of each output channel with its message; `unload`
    removes the associations.  The load groups the channels in two Go maps, by the
    base name of the package and by message, and builds its ids for any destination
    and any device; the unload builds them from each channel's own destination, and
    the decoder looks a message up by the id it carries.

    * `schemas_get`, `schemas_proto` — the maps keep the last channel of a message and
      the file of the first channel of a package;
    * `Added` — what a load that succeeds does to the associations of a decoder, in
      whatever order the maps are iterated;
    * `looks_up_iff_last` — a channel is found under its message and package iff the
      last channel of that message is the same stream;
    * `removed_iff_recognised` — an unload undoes the load iff every destination is one
      `DestinationFromString` knows. -/

namespace JrtcSchemaDecoder

open Loops IterMaps JrtcStreamId JrtcCodeletSet

/-! ## File names -/

/-- `filepath.Base`. -/
def base (path : String) : String :=
  if path = "" then "."
  else
    match path.toList.reverse.dropWhile (· = '/') with
    | [] => "/"
    | cs => String.ofList (cs.takeWhile (· ≠ '/')).reverse

/-- `filepath.Ext`: from the last dot of the last element on. -/
def ext (path : String) : String :=
  match (path.toList.reverse.takeWhile (· ≠ '/')).span (· ≠ '.') with
  | (_, []) => ""
  | (after, dot :: _) => String.ofList (dot :: after.reverse)

/-- `strings.TrimSuffix`. -/
def trimSuffix (s suffix : String) : String :=
  if suffix.toList <:+ s.toList then
    String.ofList (s.toList.take (s.toList.length - suffix.toList.length))
  else s

/-! ## The decoder -/

structure RecordedProtoDescriptor where
  checksum        : BitVec 160
  protoDescriptor : Bytes
  deriving DecidableEq, Repr

structure RecordedStreamToSchema where
  protoMsg     : String
  protoPackage : String
  deriving DecidableEq, Repr

/-- The two stores of the server; the second is keyed by `streamKey`. -/
structure Decoder where
  schemas        : String → Option RecordedProtoDescriptor
  streamToSchema : StreamId → Option RecordedStreamToSchema

namespace Decoder

def empty : Decoder := ⟨fun _ => none, fun _ => none⟩

/-- `StreamToSchema.Get`. -/
def lookup (d : Decoder) (streamID : StreamId) : Option RecordedStreamToSchema :=
  d.streamToSchema (streamKey streamID)

def setSchema (d : Decoder) (name : String) (r : RecordedProtoDescriptor) : Decoder :=
  { d with schemas := Function.update d.schemas name (some r) }

/-- `StreamToSchema.Set`, and with `none` `StreamToSchema.Delete`. -/
def setStream (d : Decoder) (streamID : StreamId) (r : Option RecordedStreamToSchema) :
    Decoder :=
  { d with streamToSchema := Function.update d.streamToSchema (streamKey streamID) r }

theorem streamToSchema_setSchema (d : Decoder) (name : String)
    (r : RecordedProtoDescriptor) : (d.setSchema name r).streamToSchema = d.streamToSchema :=
  rfl

theorem lookup_setStream (d : Decoder) (i j : StreamId)
    (r : Option RecordedStreamToSchema) : (d.setStream i r).lookup j
      = if streamKey j = streamKey i then r else d.lookup j := by
  simp only [lookup, setStream, Function.update_apply]

/-- A look-up only depends on the key. -/
theorem lookup_congr (d : Decoder) {i j : StreamId} (h : streamKey i = streamKey j) :
    d.lookup i = d.lookup j := by
  rw [lookup, h, lookup]

end Decoder

/-- What the server uses of `proto` and `sha1`: the names of the files of a descriptor
    set, and the checksum of its bytes. -/
structure ProtoLib where
  unmarshal : Bytes → Except String (List String)
  sha1      : Bytes → BitVec 160

def ProtoLib.record (lib : ProtoLib) (descriptor : Bytes) : RecordedProtoDescriptor :=
  ⟨lib.sha1 descriptor, descriptor⟩

/-- The name under which a package is stored. -/
def packageName (file : String) : String := trimSuffix file (ext file)

/-- `UpsertProtoPackage`.  `fds.File[0]` is read before the files are counted, so a
    set without files ends the call with a run-time panic. -/
def upsertProtoPackage (lib : ProtoLib) (descriptor : Bytes) :
    EStateM String Decoder Unit := fun d =>
  match lib.unmarshal descriptor with
  | .error e => .error e d
  | .ok [] => .error "runtime error: index out of range [0] with length 0" d
  | .ok [file] =>
    match d.schemas (packageName file) with
    | none => .ok () (d.setSchema (packageName file) (lib.record descriptor))
    | some current =>
      if current.checksum = lib.sha1 descriptor then .ok () d
      else .ok () (d.setSchema (packageName file) (lib.record descriptor))
  | .ok files =>
    .error ("expected exactly one file descriptor in the set, got "
      ++ toString files.length) d

/-- `AddStreamToSchemaAssociation`. -/
def addStreamToSchemaAssociation (streamID : StreamId) (r : RecordedStreamToSchema) :
    EStateM String Decoder Unit := fun d =>
  match d.lookup streamID with
  | some current =>
    if current = r then .ok () d
    else .error "stream already has a schema association" d
  | none =>
    match d.schemas r.protoPackage with
    | none => .error ("proto package " ++ r.protoPackage ++ " not found") d
    | some _ => .ok () (d.setStream streamID (some r))

/-- `DeleteStreamToSchemaAssociation`. -/
def deleteStreamToSchemaAssociation (streamID : StreamId) : EStateM String Decoder Unit :=
  fun d =>
    match d.lookup streamID with
    | none => .ok () d
    | some _ => .ok () (d.setStream streamID none)

/-! ## Loading -/

/-- `decoder.LoadRequest`. -/
structure LoadRequest where
  compiledProto : Bytes
  streams       : IterMap String StreamId

/-- `map[string]*decoder.LoadRequest`. -/
abbrev Schemas := IterMap String LoadRequest

/-- The orders in which the loops of `Client.Load` go over its maps: Go leaves them
    open. -/
structure MapOrder where
  packages     : Schemas → Schemas
  streams      : String → IterMap String StreamId → IterMap String StreamId
  samePackages : ∀ m, SameMap m (packages m)
  sameStreams  : ∀ pkg m, SameMap m (streams pkg m)

/-- The body of the outer loop of `Client.Load`. -/
def loadPackage (lib : ProtoLib) (o : MapOrder) (x : String × LoadRequest) :
    EStateM String Decoder Unit := do
  upsertProtoPackage lib x.2.compiledProto
  (o.streams x.1 x.2.streams).entries.forM fun y =>
    addStreamToSchemaAssociation y.2 ⟨y.1, x.1⟩

/-- `Client.Load`. -/
def load (lib : ProtoLib) (o : MapOrder) (schemas : Schemas) :
    EStateM String Decoder Unit :=
  (o.packages schemas).entries.forM (loadPackage lib o)

/-- An output channel with a protobuf serde, and the codelet it belongs to. -/
structure ProtoChannel where
  codelet  : String
  io       : IOChannelConfig
  protobuf : SerdeProtobufConfig
  deriving DecidableEq, Repr

/-- The output channels with their codelets, in the order of the loops. -/
def outChannels (cfg : JBPFCLIConfig) : List (String × IOChannelConfig) :=
  cfg.codelets.flatMap fun c => c.outIOChannel.map fun io => (c.name, io)

/-- The channels that the load does not skip. -/
def protoChannels (cfg : JBPFCLIConfig) : List ProtoChannel :=
  (outChannels cfg).filterMap fun x =>
    (x.2.serde.bind SerdeConfig.protobuf).map fun p => ⟨x.1, x.2, p⟩

def ProtoChannel.protoName (x : ProtoChannel) : String :=
  trimSuffix (base x.protobuf.packagePath) ".pb"

/-- The record the decoder should hold for a channel. -/
def ProtoChannel.schema (x : ProtoChannel) : RecordedStreamToSchema :=
  ⟨x.protobuf.messageName, x.protoName⟩

section Load

variable (host : Host) (lib : ProtoLib) (appName : String) (cfg : JBPFCLIConfig)

/-- The request of a package, read from its file the first time. -/
def requestFor (schemas : Schemas) (x : ProtoChannel) : Except String LoadRequest :=
  match schemas.get x.protoName with
  | some req => .ok req
  | none => do
    let proto ← host.readFile x.protobuf.packagePath
    pure ⟨proto, .empty⟩

/-- The body of the loops of `SchemasDecoder` in `load.go`. -/
def addChannel (schemas : Schemas) (x : ProtoChannel) : Except String Schemas := do
  let req ← requestFor host schemas x
  let streamUUID ← channelStreamID host appName cfg .any deviceIDAny x.codelet x.io.name
  pure (schemas.set x.protoName
    { req with streams := req.streams.set x.protobuf.messageName streamUUID })

def schemasOf : Except String Schemas :=
  (protoChannels cfg).foldlM (addChannel host appName cfg) .empty

/-- `SchemasDecoder` of `load.go`. -/
def loadSchemasDecoder (o : MapOrder) : EStateM String Decoder Unit := fun d =>
  match schemasOf host appName cfg with
  | .error e => .error e d
  | .ok schemas => (load lib o schemas).run d

/-- The body of the loops of `SchemasDecoder` in `unload.go`. -/
def unloadId (x : String × IOChannelConfig) : Except String StreamId := do
  let forwardDestination ← destinationFromString x.2.forwardDestination
  channelStreamID host appName cfg forwardDestination deviceIDAny x.1 x.2.name

/-- The ids to disassociate, of every output channel. -/
def unloadIds : Except String (List StreamId) :=
  (outChannels cfg).mapM (unloadId host appName cfg)

/-- `SchemasDecoder` of `unload.go`, with `Client.Unload`. -/
def unloadSchemasDecoder : EStateM String Decoder Unit := fun d =>
  match unloadIds host appName cfg with
  | .error e => .error e d
  | .ok streamIDBs => (streamIDBs.forM deleteStreamToSchemaAssociation).run d

/-- The id under which the load associates a channel. -/
def ProtoChannel.loadId (x : ProtoChannel) : StreamId :=
  channelId host appName cfg .any deviceIDAny x.codelet x.io.name

end Load

/-! ## The maps that the load builds -/

/-- The last channel of a message of a package. -/
def lastOf (chans : List ProtoChannel) (pkg msg : String) : Option ProtoChannel :=
  (chans.filter fun x => x.schema = ⟨msg, pkg⟩).getLast?

/-- The first channel of a package. -/
def firstOf (chans : List ProtoChannel) (pkg : String) : Option ProtoChannel :=
  chans.find? fun x => x.protoName = pkg

theorem lastOf_snoc_self (chans : List ProtoChannel) (x : ProtoChannel) :
    lastOf (chans ++ [x]) x.protoName x.protobuf.messageName = some x := by
  have hx : [x].filter (fun y => y.schema = ⟨x.protobuf.messageName, x.protoName⟩) = [x] :=
    List.filter_eq_self.mpr fun y hy => by
      rw [List.mem_singleton.mp hy]
      exact decide_eq_true rfl
  rw [lastOf, List.filter_append, hx, List.getLast?_concat]

theorem lastOf_snoc_ne (chans : List ProtoChannel) (x : ProtoChannel) {pkg msg : String}
    (h : x.schema ≠ ⟨msg, pkg⟩) : lastOf (chans ++ [x]) pkg msg = lastOf chans pkg msg := by
  have hx : [x].filter (fun y => y.schema = ⟨msg, pkg⟩) = [] :=
    List.filter_eq_nil_iff.mpr fun y hy => by
      rw [List.mem_singleton.mp hy]
      simpa using h
  rw [lastOf, List.filter_append, hx, List.append_nil, lastOf]

/-- A channel's message has a last channel. -/
theorem lastOf_schema {chans : List ProtoChannel} {x : ProtoChannel} (hx : x ∈ chans) :
    ∃ y, lastOf chans x.protoName x.protobuf.messageName = some y := by
  refine Option.ne_none_iff_exists'.mp fun hnone => ?_
  have hmem : x ∈ chans.filter
      (fun y => y.schema = ⟨x.protobuf.messageName, x.protoName⟩) :=
    List.mem_filter.mpr ⟨hx, decide_eq_true rfl⟩
  rw [List.getLast?_eq_none_iff.mp hnone] at hmem
  exact List.not_mem_nil hmem

theorem mem_of_lastOf {chans : List ProtoChannel} {y : ProtoChannel} {pkg msg : String}
    (h : lastOf chans pkg msg = some y) : y ∈ chans :=
  (List.mem_filter.mp (List.mem_of_getLast? h)).1

theorem firstOf_snoc (chans : List ProtoChannel) (x : ProtoChannel) (pkg : String) :
    firstOf (chans ++ [x]) pkg
      = (firstOf chans pkg).or (if x.protoName = pkg then some x else none) := by
  rw [firstOf, List.find?_append, List.find?_singleton, firstOf]
  simp only [decide_eq_true_eq]

/-- What the maps hold once the loop has seen some channels. -/
structure Built (host : Host) (appName : String) (cfg : JBPFCLIConfig)
    (chans : List ProtoChannel) (schemas : Schemas) : Prop where
  streams : ∀ pkg msg, (schemas.get pkg).bind (fun req => req.streams.get msg)
    = (lastOf chans pkg msg).map (ProtoChannel.loadId host appName cfg)
  proto   : ∀ pkg x, firstOf chans pkg = some x → ∃ req, schemas.get pkg = some req
    ∧ host.readFile x.protobuf.packagePath = .ok req.compiledProto
  fresh   : ∀ pkg, firstOf chans pkg = none → schemas.get pkg = none

section Built

variable {host : Host} {appName : String} {cfg : JBPFCLIConfig}

theorem requestFor_cases {schemas : Schemas} {x : ProtoChannel} {req : LoadRequest}
    (h : requestFor host schemas x = .ok req) : schemas.get x.protoName = some req
      ∨ schemas.get x.protoName = none
        ∧ host.readFile x.protobuf.packagePath = .ok req.compiledProto
        ∧ req.streams = .empty := by
  rw [requestFor] at h
  cases hget : schemas.get x.protoName with
  | some req' =>
      rw [hget] at h
      cases h
      exact Or.inl rfl
  | none =>
      rw [hget] at h
      obtain ⟨proto, hread, hreq⟩ := bind_eq_ok_iff.mp h
      cases hreq
      exact Or.inr ⟨rfl, hread, rfl⟩

/-- The streams of a request are those the map held for its package. -/
theorem requestFor_streams {schemas : Schemas} {x : ProtoChannel} {req : LoadRequest}
    (h : requestFor host schemas x = .ok req) (msg : String) : req.streams.get msg
      = (schemas.get x.protoName).bind fun req => req.streams.get msg := by
  obtain hget | ⟨hget, -, hempty⟩ := requestFor_cases h
  · rw [hget, Option.bind_some]
  · rw [hget, hempty, Option.bind_none]
    rfl

theorem addChannel_eq_ok {schemas schemas' : Schemas} {x : ProtoChannel}
    (h : addChannel host appName cfg schemas x = .ok schemas') :
    ∃ req, requestFor host schemas x = .ok req ∧ schemas' = schemas.set x.protoName
      { req with streams :=
          req.streams.set x.protobuf.messageName (x.loadId host appName cfg) } := by
  obtain ⟨req, hreq, h⟩ := bind_eq_ok_iff.mp h
  rw [channelStreamID_eq] at h
  obtain ⟨id, hid, h⟩ := bind_eq_ok_iff.mp h
  refine ⟨req, hreq, ?_⟩
  rw [ProtoChannel.loadId, Except.ok.inj hid]
  exact (Except.ok.inj h).symm

/-- The file of a request is that of the first channel of its package, the one that is
    added included. -/
theorem Built.requestFor_proto {chans : List ProtoChannel} {schemas : Schemas}
    {x y : ProtoChannel} {req : LoadRequest} (hb : Built host appName cfg chans schemas)
    (h : requestFor host schemas x = .ok req)
    (hy : firstOf (chans ++ [x]) x.protoName = some y) :
    host.readFile y.protobuf.packagePath = .ok req.compiledProto := by
  rw [firstOf_snoc, if_pos rfl] at hy
  cases hfirst : firstOf chans x.protoName with
  | some z =>
      rw [hfirst, Option.some_or] at hy
      cases hy
      obtain ⟨req', hget, hread⟩ := hb.proto _ _ hfirst
      obtain hget' | ⟨hget', -⟩ := requestFor_cases h
      · cases hget.symm.trans hget'
        exact hread
      · cases hget.symm.trans hget'
  | none =>
      rw [hfirst, Option.none_or] at hy
      cases hy
      obtain hget' | ⟨-, hread, -⟩ := requestFor_cases h
      · cases (hb.fresh _ hfirst).symm.trans hget'
      · exact hread

/-- One channel more. -/
theorem Built.addChannel {chans : List ProtoChannel} {schemas schemas' : Schemas}
    {x : ProtoChannel} (hb : Built host appName cfg chans schemas)
    (h : addChannel host appName cfg schemas x = .ok schemas') :
    Built host appName cfg (chans ++ [x]) schemas' := by
  obtain ⟨req, hreq, rfl⟩ := addChannel_eq_ok h
  constructor
  case streams =>
    intro pkg msg
    by_cases hpkg : pkg = x.protoName
    · subst hpkg
      rw [IterMap.get_set_self, Option.bind_some]
      by_cases hmsg : msg = x.protobuf.messageName
      · subst hmsg
        rw [IterMap.get_set_self, lastOf_snoc_self, Option.map_some]
      · rw [IterMap.get_set_ne _ _ hmsg, requestFor_streams hreq, hb.streams,
          lastOf_snoc_ne]
        exact fun heq => hmsg (congrArg RecordedStreamToSchema.protoMsg heq).symm
    · rw [IterMap.get_set_ne _ _ hpkg, hb.streams, lastOf_snoc_ne]
      exact fun heq => hpkg (congrArg RecordedStreamToSchema.protoPackage heq).symm
  case proto =>
    intro pkg y hy
    by_cases hpkg : pkg = x.protoName
    · subst hpkg
      have hread := hb.requestFor_proto hreq hy
      exact ⟨_, IterMap.get_set_self .., hread⟩
    · rw [firstOf_snoc, if_neg (Ne.symm hpkg), Option.or_none] at hy
      rw [IterMap.get_set_ne _ _ hpkg]
      exact hb.proto pkg y hy
  case fresh =>
    intro pkg hnone
    rw [firstOf_snoc, Option.or_eq_none_iff] at hnone
    have hpkg : pkg ≠ x.protoName := by
      intro heq
      rw [if_pos heq.symm] at hnone
      cases hnone.2
    rw [IterMap.get_set_ne _ _ hpkg]
    exact hb.fresh pkg hnone.1

/-- **THE MAPS** hold, for each message, the id of its last channel, and for each
    package the file of its first channel. -/
theorem built_of_schemasOf {schemas : Schemas} (h : schemasOf host appName cfg = .ok schemas) :
    Built host appName cfg (protoChannels cfg) schemas := by
  refine foldlM_invariant (P := Built host appName cfg) h ⟨?_, ?_, ?_⟩
    fun chans x schemas schemas' hb hstep => hb.addChannel hstep
  · exact fun pkg msg => rfl
  · exact fun pkg x hx => by cases hx
  · exact fun pkg _ => rfl

end Built

/-! ## What a load does to the decoder -/

/-- A decoder that has been given some associations, and no others. -/
structure Added (l : List (StreamId × RecordedStreamToSchema)) (d d' : Decoder) : Prop where
  kept : ∀ i r, d.lookup i = some r → d'.lookup i = some r
  held : ∀ e ∈ l, d'.lookup e.1 = some e.2
  only : ∀ i, d'.lookup i = d.lookup i ∨ ∃ e ∈ l, streamKey e.1 = streamKey i

theorem Added.of_streamToSchema_eq {d d' : Decoder}
    (h : d'.streamToSchema = d.streamToSchema) : Added [] d d' := by
  have hlookup : ∀ i, d'.lookup i = d.lookup i := fun i => congrFun h (streamKey i)
  exact ⟨fun i r hi => (hlookup i).trans hi, fun e he => (List.not_mem_nil he).elim,
    fun i => Or.inl (hlookup i)⟩

theorem Added.append {l₁ l₂ : List (StreamId × RecordedStreamToSchema)} {d d₁ d₂ : Decoder}
    (h₁ : Added l₁ d d₁) (h₂ : Added l₂ d₁ d₂) : Added (l₁ ++ l₂) d d₂ := by
  constructor
  case kept => exact fun i r hi => h₂.kept i r (h₁.kept i r hi)
  case held =>
    intro e he
    rcases List.mem_append.mp he with he | he
    · exact h₂.kept e.1 e.2 (h₁.held e he)
    · exact h₂.held e he
  case only =>
    intro i
    rcases h₂.only i with heq | ⟨e, he, hkey⟩
    · rcases h₁.only i with heq₁ | ⟨e, he, hkey⟩
      · exact Or.inl (heq.trans heq₁)
      · exact Or.inr ⟨e, List.mem_append_left l₂ he, hkey⟩
    · exact Or.inr ⟨e, List.mem_append_right l₁ he, hkey⟩

theorem addStream_cases {i : StreamId} {r : RecordedStreamToSchema} {d d' : Decoder}
    (h : (addStreamToSchemaAssociation i r).run d = .ok () d') :
    d.lookup i = some r ∧ d' = d ∨ d.lookup i = none ∧ d' = d.setStream i (some r) := by
  rw [EStateM.run, addStreamToSchemaAssociation] at h
  split at h
  case h_1 current hcurrent =>
    split at h
    case isTrue heq =>
      cases h
      exact Or.inl ⟨heq ▸ hcurrent, rfl⟩
    case isFalse => cases h
  case h_2 hnone =>
    split at h
    case h_1 => cases h
    case h_2 =>
      cases h
      exact Or.inr ⟨hnone, rfl⟩

/-- An association that the server accepts is new or was there. -/
theorem added_of_addStream {i : StreamId} {r : RecordedStreamToSchema} {d d' : Decoder}
    (h : (addStreamToSchemaAssociation i r).run d = .ok () d') :
    Added [(i, r)] d d' ∧ d'.schemas = d.schemas := by
  obtain ⟨hr, rfl⟩ | ⟨hnone, rfl⟩ := addStream_cases h
  · refine ⟨⟨fun _ _ => id, fun e he => ?_, fun _ => Or.inl rfl⟩, rfl⟩
    rw [List.mem_singleton.mp he]
    exact hr
  · refine ⟨⟨fun j r' hj => ?_, fun e he => ?_, fun j => ?_⟩, rfl⟩
    · rw [Decoder.lookup_setStream, if_neg]
      · exact hj
      · intro hkey
        rw [d.lookup_congr hkey, hnone] at hj
        cases hj
    · rw [List.mem_singleton.mp he, Decoder.lookup_setStream, if_pos rfl]
    · rw [Decoder.lookup_setStream]
      by_cases hkey : streamKey j = streamKey i
      · exact Or.inr ⟨(i, r), List.mem_singleton_self _, hkey.symm⟩
      · exact Or.inl (if_neg hkey)

/-- A set of one file is stored unless one with its checksum is. -/
theorem run_upsert_single {lib : ProtoLib} {descriptor : Bytes} {file : String}
    (hfile : lib.unmarshal descriptor = .ok [file]) (d : Decoder) :
    (upsertProtoPackage lib descriptor).run d
      = .ok () (if (d.schemas (packageName file)).map RecordedProtoDescriptor.checksum
            = some (lib.sha1 descriptor) then d
          else d.setSchema (packageName file) (lib.record descriptor)) := by
  rw [EStateM.run, upsertProtoPackage, hfile]
  cases hcurrent : d.schemas (packageName file) with
  | none => simp [hcurrent]
  | some current =>
      by_cases hsum : current.checksum = lib.sha1 descriptor
      · simp [hcurrent, hsum]
      · simp [hcurrent, hsum]

/-- A package that the server accepts is stored, unless one with its checksum is. -/
theorem upsert_cases {lib : ProtoLib} {descriptor : Bytes} {d d' : Decoder}
    (h : (upsertProtoPackage lib descriptor).run d = .ok () d') :
    ∃ file, lib.unmarshal descriptor = .ok [file]
      ∧ (d' = d.setSchema (packageName file) (lib.record descriptor)
        ∨ d' = d ∧ d.schemas (packageName file) ≠ none) := by
  rw [EStateM.run, upsertProtoPackage] at h
  split at h
  case h_1 => cases h
  case h_2 => cases h
  case h_3 file hfile =>
    refine ⟨file, hfile, ?_⟩
    split at h
    case h_1 => exact Or.inl (EStateM.Result.ok.inj h).2.symm
    case h_2 current hcurrent =>
      split at h
      case isTrue =>
        exact Or.inr ⟨(EStateM.Result.ok.inj h).2.symm, by rw [hcurrent]; exact Option.some_ne_none _⟩
      case isFalse => exact Or.inl (EStateM.Result.ok.inj h).2.symm
  case h_4 => cases h

theorem upsert_streamToSchema {lib : ProtoLib} {descriptor : Bytes} {d d' : Decoder}
    (h : (upsertProtoPackage lib descriptor).run d = .ok () d') :
    d'.streamToSchema = d.streamToSchema := by
  obtain ⟨file, -, rfl | ⟨rfl, -⟩⟩ := upsert_cases h
  · exact d.streamToSchema_setSchema _ _
  · rfl

/-- The associations of one package. -/
def packageAssociations (o : MapOrder) (x : String × LoadRequest) :
    List (StreamId × RecordedStreamToSchema) :=
  (o.streams x.1 x.2.streams).entries.map fun y => (y.2, ⟨y.1, x.1⟩)

/-- The associations of a load. -/
def associations (o : MapOrder) (schemas : Schemas) :
    List (StreamId × RecordedStreamToSchema) :=
  (o.packages schemas).entries.flatMap (packageAssociations o)

section Load

variable {host : Host} {lib : ProtoLib} {o : MapOrder} {appName : String}
  {cfg : JBPFCLIConfig} {schemas : Schemas} {d d' : Decoder}

/-- The streams of a package, one after the other. -/
theorem added_of_streams {pkg : String} {l : List (String × StreamId)}
    (h : (l.forM fun y => addStreamToSchemaAssociation y.2 ⟨y.1, pkg⟩).run d = .ok () d') :
    Added (l.map fun y => (y.2, ⟨y.1, pkg⟩)) d d' ∧ d'.schemas = d.schemas := by
  refine forM_invariant (P := fun done d' =>
    Added (done.map fun y => (y.2, ⟨y.1, pkg⟩)) d d' ∧ d'.schemas = d.schemas) h
    ⟨Added.of_streamToSchema_eq rfl, rfl⟩ ?_
  rintro done y d₁ d₂ - ⟨hadded, hschemas⟩ hstep
  obtain ⟨hone, hkept⟩ := added_of_addStream hstep
  rw [List.map_append]
  exact ⟨hadded.append hone, hkept.trans hschemas⟩

theorem added_of_loadPackage {x : String × LoadRequest}
    (h : (loadPackage lib o x).run d = .ok () d') :
    Added (packageAssociations o x) d d' := by
  obtain ⟨⟨⟩, d₁, hupsert, hstreams⟩ := run_bind_eq_ok_iff.mp h
  exact (Added.of_streamToSchema_eq (upsert_streamToSchema hupsert)).append
    (added_of_streams hstreams).1

/-- **A LOAD** that succeeds has added its associations, whatever the order. -/
theorem added_of_load (h : (load lib o schemas).run d = .ok () d') :
    Added (associations o schemas) d d' := by
  refine forM_invariant (P := fun done d' =>
    Added (done.flatMap (packageAssociations o)) d d') h
    (Added.of_streamToSchema_eq rfl) ?_
  intro done x d₁ d₂ _ hadded hstep
  rw [List.flatMap_append, List.flatMap_singleton]
  exact hadded.append (added_of_loadPackage hstep)

theorem mem_associations_iff {e : StreamId × RecordedStreamToSchema} :
    e ∈ associations o schemas ↔
      (schemas.get e.2.protoPackage).bind (fun req => req.streams.get e.2.protoMsg)
        = some e.1 := by
  rw [associations, List.mem_flatMap, Option.bind_eq_some_iff]
  constructor
  · rintro ⟨⟨pkg, req⟩, hx, he⟩
    obtain ⟨⟨msg, i⟩, hy, rfl⟩ := List.mem_map.mp he
    have hpkg : (pkg, req) ∈ schemas.entries := (o.samePackages schemas).mem_iff.mpr hx
    have hmsg : (msg, i) ∈ req.streams.entries := (o.sameStreams pkg _).mem_iff.mpr hy
    exact ⟨req, IterMap.get_eq_some_iff.mpr hpkg, IterMap.get_eq_some_iff.mpr hmsg⟩
  · rintro ⟨req, hpkg, hmsg⟩
    refine ⟨(e.2.protoPackage, req),
      (o.samePackages schemas).mem_iff.mp (IterMap.get_eq_some_iff.mp hpkg), ?_⟩
    exact List.mem_map.mpr ⟨(e.2.protoMsg, e.1),
      (o.sameStreams _ _).mem_iff.mp (IterMap.get_eq_some_iff.mp hmsg), rfl⟩

theorem loadSchemasDecoder_eq_ok
    (h : (loadSchemasDecoder host lib appName cfg o).run d = .ok () d') :
    ∃ schemas, schemasOf host appName cfg = .ok schemas
      ∧ (load lib o schemas).run d = .ok () d' := by
  rw [EStateM.run, loadSchemasDecoder] at h
  cases hs : schemasOf host appName cfg with
  | error e =>
      rw [hs] at h
      cases h
  | ok schemas =>
      rw [hs] at h
      exact ⟨schemas, rfl, h⟩

/-- What `SchemasDecoder` has added: for each message, its last channel. -/
theorem added_channels (h : (loadSchemasDecoder host lib appName cfg o).run d = .ok () d') :
    ∃ l, Added l d d' ∧ ∀ e, e ∈ l ↔
      ∃ y, lastOf (protoChannels cfg) e.2.protoPackage e.2.protoMsg = some y
        ∧ e.1 = y.loadId host appName cfg := by
  obtain ⟨schemas, hs, hload⟩ := loadSchemasDecoder_eq_ok h
  refine ⟨associations o schemas, added_of_load hload, fun e => ?_⟩
  rw [mem_associations_iff, (built_of_schemasOf hs).streams, Option.map_eq_some_iff]
  exact exists_congr fun y => and_congr_right fun _ => eq_comm

/-- The descriptor in a package file names the package. -/
def Named (lib : ProtoLib) (pkg : String) (proto : Bytes) : Prop :=
  ∃ file, lib.unmarshal proto = .ok [file] ∧ packageName file = pkg

/-- A package that is not stored yet. -/
theorem loadPackage_schemas {x : String × LoadRequest} (hnamed : Named lib x.1 x.2.compiledProto)
    (hfresh : d.schemas x.1 = none) (h : (loadPackage lib o x).run d = .ok () d') :
    d'.schemas = Function.update d.schemas x.1 (some (lib.record x.2.compiledProto)) := by
  obtain ⟨⟨⟩, d₁, hupsert, hstreams⟩ := run_bind_eq_ok_iff.mp h
  obtain ⟨file, hfile, hname⟩ := hnamed
  obtain ⟨file', hfile', hcase⟩ := upsert_cases hupsert
  cases hfile.symm.trans hfile'
  rw [hname] at hcase
  rw [(added_of_streams hstreams).2]
  obtain rfl | ⟨-, hstored⟩ := hcase
  · rfl
  · exact absurd hfresh hstored

/-- **THE PACKAGES** that a load into an empty decoder leaves there. -/
theorem schemas_of_load (hnamed : ∀ x ∈ schemas.entries, Named lib x.1 x.2.compiledProto)
    (h : (load lib o schemas).run Decoder.empty = .ok () d) (pkg : String) :
    (d.schemas pkg).map RecordedProtoDescriptor.protoDescriptor
      = (schemas.get pkg).map LoadRequest.compiledProto := by
  rw [(o.samePackages schemas).get_eq pkg, IterMap.get, Option.map_map]
  refine forM_invariant (P := fun done d => ∀ pkg,
    (d.schemas pkg).map RecordedProtoDescriptor.protoDescriptor
      = (done.find? fun x => x.1 = pkg).map (LoadRequest.compiledProto ∘ Prod.snd)) h
    (fun _ => rfl) ?_ pkg
  intro done x d₁ d₂ hdone hinv hstep pkg
  -- the keys of the map differ, so the package has not been seen
  have hnodup : ((done ++ [x]).map Prod.fst).Nodup :=
    (o.packages schemas).nodup.sublist (hdone.sublist.map Prod.fst)
  have hnew : (done.find? fun y => y.1 = x.1) = none := by
    refine List.find?_eq_none.mpr fun y hy heq => ?_
    rw [List.map_append, List.nodup_append] at hnodup
    exact hnodup.2.2 y.1 (List.mem_map_of_mem hy) x.1 (List.mem_singleton_self _)
      (of_decide_eq_true heq)
  have hfresh : d₁.schemas x.1 = none := by
    have hx := hinv x.1
    rw [hnew, Option.map_none] at hx
    exact Option.map_eq_none_iff.mp hx
  have hmem : x ∈ schemas.entries := (o.samePackages schemas).mem_iff.mpr
    (hdone.subset (List.mem_append_right done (List.mem_singleton_self x)))
  rw [loadPackage_schemas (hnamed x hmem) hfresh hstep, Function.update_apply,
    List.find?_append, List.find?_singleton]
  by_cases hpkg : pkg = x.1
  · subst hpkg
    rw [if_pos rfl, hnew, Option.none_or, if_pos (decide_eq_true rfl)]
    rfl
  · rw [if_neg hpkg, hinv pkg, if_neg (by simpa using Ne.symm hpkg), Option.or_none]

end Load

/-! ## Looking a channel up -/

section Lookup

variable (host : Host) (lib : ProtoLib) (appName : String) (cfg : JBPFCLIConfig)

/-- Different streams of the output channels have different hashes. -/
def HashesApart : Prop :=
  ∀ x ∈ outChannels cfg, ∀ y ∈ outChannels cfg,
    channelHashes host appName cfg x.1 x.2.name = channelHashes host appName cfg y.1 y.2.name →
      streamPath appName cfg.id x.1 = streamPath appName cfg.id y.1 ∧ x.2.name = y.2.name

/-- The descriptor in a package file names the package after the file. -/
def NamedAfterFile : Prop :=
  ∀ x ∈ protoChannels cfg, ∀ proto, host.readFile x.protobuf.packagePath = .ok proto →
    Named lib x.protoName proto

/-- The channels to which `CodeletSet` assigns an id. -/
def assignedChannels : List ProtoChannel :=
  (protoChannels cfg).filter fun x => Recognised x.io.forwardDestination

/-- The last channel that shares the package base name and the message of `x` is of the
    same codelet and name. -/
def LastIsSame (x : ProtoChannel) : Prop :=
  ∀ y, lastOf (protoChannels cfg) x.protoName x.protobuf.messageName = some y →
    y.codelet = x.codelet ∧ y.io.name = x.io.name

/-- The first channel that shares the package base name of `x` has a package file of the
    same contents. -/
def FirstIsSame (x : ProtoChannel) : Prop :=
  ∀ y, firstOf (protoChannels cfg) x.protoName = some y →
    host.readFile y.protobuf.packagePath = host.readFile x.protobuf.packagePath

end Lookup

section Lookup

variable {host : Host} {lib : ProtoLib} {o : MapOrder} {appName : String}
  {cfg : JBPFCLIConfig} {d : Decoder}

theorem mem_outChannels {x : ProtoChannel} (hx : x ∈ protoChannels cfg) :
    (x.codelet, x.io) ∈ outChannels cfg := by
  obtain ⟨y, hy, hmap⟩ := List.mem_filterMap.mp hx
  obtain ⟨p, -, rfl⟩ := Option.map_eq_some_iff.mp hmap
  exact hy

theorem codelet_of_streamPath {codelet codelet' : String}
    (h : streamPath appName cfg.id codelet = streamPath appName cfg.id codelet') :
    codelet = codelet' := by
  have hlist := congrArg String.toList h
  simp only [streamPath, String.toList_append] at hlist
  exact String.toList_inj.mp (List.append_cancel_left hlist)

/-- Channels with one key are of one codelet and name. -/
theorem same_channel (hhash : HashesApart host appName cfg) {x y : ProtoChannel}
    (hx : x ∈ protoChannels cfg) (hy : y ∈ protoChannels cfg)
    (hkey : streamKey (y.loadId host appName cfg) = streamKey (x.loadId host appName cfg)) :
    y.codelet = x.codelet ∧ y.io.name = x.io.name := by
  have hsame := hhash _ (mem_outChannels hy) _ (mem_outChannels hx)
    ((streamKey_channelId_eq_iff ..).mp hkey)
  exact ⟨codelet_of_streamPath hsame.1, hsame.2⟩

/-- `CodeletSet` gives an id to the channels with a recognised destination, and its key
    is the one the load used. -/
theorem mem_assignedChannels_iff (host : Host) (appName : String) (deviceID : BitVec 8)
    {x : ProtoChannel} :
    x ∈ assignedChannels cfg ↔ x ∈ protoChannels cfg
      ∧ ∃ m, outputIOMap host appName cfg deviceID x.codelet x.io = .ok m := by
  rw [assignedChannels, List.mem_filter, decide_eq_true_eq, recognised_iff]
  refine and_congr_right fun _ => ?_
  simp only [outputIOMap_eq_ok_iff]
  exact ⟨fun ⟨dest, h⟩ => ⟨_, dest, h, rfl⟩, fun ⟨_, dest, h, _⟩ => ⟨dest, h⟩⟩

/-- What is said of each id is said of each channel that has one. -/
theorem forall_assigned_iff (deviceID : BitVec 8) {R : ProtoChannel → IOMap → Prop}
    {Q : ProtoChannel → Prop}
    (hRQ : ∀ x ∈ protoChannels cfg, ∀ m,
      outputIOMap host appName cfg deviceID x.codelet x.io = .ok m → (R x m ↔ Q x)) :
    (∀ x ∈ protoChannels cfg, ∀ m,
      outputIOMap host appName cfg deviceID x.codelet x.io = .ok m → R x m)
      ↔ ∀ x ∈ assignedChannels cfg, Q x := by
  constructor
  · intro h x hx
    obtain ⟨hx, m, hm⟩ := (mem_assignedChannels_iff host appName deviceID).mp hx
    exact (hRQ x hx m hm).mp (h x hx m hm)
  · intro h x hx m hm
    have hx' := (mem_assignedChannels_iff host appName deviceID).mpr ⟨hx, m, hm⟩
    exact (hRQ x hx m hm).mpr (h x hx')

theorem lookup_assigned (d : Decoder) {deviceID : BitVec 8} {x : ProtoChannel} {m : IOMap}
    (hm : outputIOMap host appName cfg deviceID x.codelet x.io = .ok m) :
    d.lookup m.streamID = d.lookup (x.loadId host appName cfg) := by
  obtain ⟨dest, -, rfl⟩ := (outputIOMap_eq_ok_iff ..).mp hm
  exact d.lookup_congr ((streamKey_channelId_eq_iff ..).mpr rfl)

/-- **ONE CHANNEL**: it is found under its own message and package iff the last channel of
    that message is the same stream. -/
theorem lookup_loadId_iff (hhash : HashesApart host appName cfg)
    (hload : (loadSchemasDecoder host lib appName cfg o).run Decoder.empty = .ok () d)
    {x : ProtoChannel} (hx : x ∈ protoChannels cfg) :
    d.lookup (x.loadId host appName cfg) = some x.schema
      ↔ LastIsSame cfg x := by
  obtain ⟨l, hadded, hl⟩ := added_channels hload
  constructor
  · intro hfound y hy
    -- the association under the key of `x` is one the load added
    obtain hnone | ⟨e, he, hkey⟩ := hadded.only (x.loadId host appName cfg)
    · cases hfound.symm.trans hnone
    · obtain ⟨z, hz, hid⟩ := (hl e).mp he
      have hschema : e.2 = x.schema := Option.some.inj <| by
        rw [← hadded.held e he, d.lookup_congr hkey, hfound]
      rw [hschema] at hz
      cases hy.symm.trans hz
      rw [hid] at hkey
      exact same_channel hhash hx (mem_of_lastOf hy) hkey
  · intro hlast
    obtain ⟨y, hy⟩ := lastOf_schema hx
    obtain ⟨hcodelet, hname⟩ := hlast y hy
    have hid : y.loadId host appName cfg = x.loadId host appName cfg := by
      rw [ProtoChannel.loadId, ProtoChannel.loadId, hcodelet, hname]
    rw [← hid]
    exact hadded.held (y.loadId host appName cfg, x.schema) ((hl _).mpr ⟨y, hy, rfl⟩)

theorem firstOf_protoName {chans : List ProtoChannel} {x : ProtoChannel} (hx : x ∈ chans) :
    ∃ y, firstOf chans x.protoName = some y :=
  Option.ne_none_iff_exists'.mp fun hnone =>
    List.find?_eq_none.mp hnone x hx (decide_eq_true rfl)

/-- Each request carries the file of the first channel of its package. -/
theorem Built.named {schemas : Schemas} (hb : Built host appName cfg (protoChannels cfg) schemas)
    (hnamed : NamedAfterFile host lib cfg) :
    ∀ x ∈ schemas.entries, Named lib x.1 x.2.compiledProto := by
  rintro ⟨pkg, req⟩ hx
  have hget : schemas.get pkg = some req := IterMap.get_eq_some_iff.mpr hx
  cases hfirst : firstOf (protoChannels cfg) pkg with
  | none => cases hget.symm.trans (hb.fresh pkg hfirst)
  | some y =>
      obtain ⟨req', hget', hread⟩ := hb.proto pkg y hfirst
      cases hget.symm.trans hget'
      have hpkg : y.protoName = pkg := by
        simpa using List.find?_some hfirst
      rw [← hpkg]
      exact hnamed y (List.mem_of_find?_eq_some hfirst) _ hread

/-- **ONE PACKAGE**: the descriptor kept under its name is the file of its first
    channel. -/
theorem schemas_firstOf (hnamed : NamedAfterFile host lib cfg)
    (hload : (loadSchemasDecoder host lib appName cfg o).run Decoder.empty = .ok () d)
    {pkg : String} {y : ProtoChannel} (hy : firstOf (protoChannels cfg) pkg = some y) :
    ∃ r, d.schemas pkg = some r
      ∧ host.readFile y.protobuf.packagePath = .ok r.protoDescriptor := by
  obtain ⟨schemas, hs, hload⟩ := loadSchemasDecoder_eq_ok hload
  have hb := built_of_schemasOf hs
  obtain ⟨req, hget, hread⟩ := hb.proto pkg y hy
  have hstored := schemas_of_load (hb.named hnamed) hload pkg
  rw [hget, Option.map_some, Option.map_eq_some_iff] at hstored
  obtain ⟨r, hr, hproto⟩ := hstored
  exact ⟨r, hr, by rw [hproto, hread]⟩

/-- A channel's package is stored with the contents of its own file iff the first
    channel's file has the same. -/
theorem schemas_protoName_iff (hnamed : NamedAfterFile host lib cfg)
    (hload : (loadSchemasDecoder host lib appName cfg o).run Decoder.empty = .ok () d)
    {x : ProtoChannel} (hx : x ∈ protoChannels cfg) :
    (∃ r, d.schemas x.protoName = some r
        ∧ host.readFile x.protobuf.packagePath = .ok r.protoDescriptor)
      ↔ FirstIsSame host cfg x := by
  obtain ⟨y, hy⟩ := firstOf_protoName hx
  obtain ⟨r, hr, hread⟩ := schemas_firstOf hnamed hload hy
  constructor
  · rintro ⟨r', hr', hread'⟩ z hz
    cases hy.symm.trans hz
    cases hr.symm.trans hr'
    rw [hread, hread']
  · intro hfirst
    exact ⟨r, hr, by rw [← hfirst y hy, hread]⟩

end Lookup

/-- A codelet with the given output channels. -/
def sampleConfig (outs : List IOChannelConfig) : JBPFCLIConfig where
  codelets := [
    { hookName := "hook"
      inIOChannel := []
      linkedMaps := []
      name := "codelet"
      codeletPath := "codelet.o"
      outIOChannel := outs
      priority := none
      runtimeThreshold := none }]
  id := "set"

/-- A channel of the message `M` of `foo.pb`. -/
def sampleChannel (name forwardDestination : String) : IOChannelConfig :=
  ⟨forwardDestination, name, some ⟨"serde.so", some ⟨"M", "foo.pb"⟩⟩⟩

/-- One channel with a destination. -/
def oneChannel (forwardDestination : String) : JBPFCLIConfig :=
  sampleConfig [sampleChannel "a" forwardDestination]

/-- Two channels of one message. -/
def twoChannels : JBPFCLIConfig :=
  sampleConfig [sampleChannel "a" "DestinationUDP", sampleChannel "b" "DestinationUDP"]

/-- Every file is there; the hash tells the name `b` from the others. -/
def sampleHost (cfg : JBPFCLIConfig) : Host where
  expandEnv := id
  stat := fun _ => .ok false
  readFile := fun _ => .ok []
  unmarshalYaml := fun _ => .ok cfg
  murmurHash64A := fun name _ => if name = "b" then 1 else 0

def sampleLib : ProtoLib := ⟨fun _ => .ok ["foo.proto"], fun _ => 0⟩

/-- The order in which the maps were filled. -/
def sampleOrder : MapOrder where
  packages := id
  streams := fun _ => id
  samePackages := fun _ => List.Perm.refl _
  sameStreams := fun _ _ => List.Perm.refl _

/-- **WHAT THE DECODER FINDS** after a load into an empty decoder.  Each channel with an
    id is found under its message and the name of its package iff the last channel of
    each message is the same stream; and that name stands for the channel's own package
    file iff, also, the first channel of each package has a file of the same contents. -/
theorem looks_up_iff_last (host : Host) (lib : ProtoLib) (o : MapOrder)
    (cfg : AcceptedConfig host) (appName : String) (deviceID : BitVec 8) {d : Decoder}
    (hhash : HashesApart host appName cfg.config)
    (hnamed : NamedAfterFile host lib cfg.config)
    (hload : (loadSchemasDecoder host lib appName cfg.config o).run Decoder.empty
      = .ok () d) :
    ((∀ x ∈ protoChannels cfg.config, ∀ m,
        outputIOMap host appName cfg.config deviceID x.codelet x.io = .ok m →
          d.lookup m.streamID = some x.schema)
      ↔ ∀ x ∈ assignedChannels cfg.config, LastIsSame cfg.config x)
    ∧ ((∀ x ∈ protoChannels cfg.config, ∀ m,
        outputIOMap host appName cfg.config deviceID x.codelet x.io = .ok m →
          d.lookup m.streamID = some x.schema
          ∧ ∃ r, d.schemas x.protoName = some r
            ∧ host.readFile x.protobuf.packagePath = .ok r.protoDescriptor)
      ↔ ∀ x ∈ assignedChannels cfg.config,
          LastIsSame cfg.config x ∧ FirstIsSame host cfg.config x) := by
  have hfound : ∀ x ∈ protoChannels cfg.config, ∀ m,
      outputIOMap host appName cfg.config deviceID x.codelet x.io = .ok m →
        (d.lookup m.streamID = some x.schema ↔ LastIsSame cfg.config x) := by
    intro x hx m hm
    rw [lookup_assigned d hm]
    exact lookup_loadId_iff hhash hload hx
  constructor
  · exact forall_assigned_iff deviceID hfound
  · exact forall_assigned_iff deviceID fun x hx m hm =>
      and_congr (hfound x hx m hm) (schemas_protoName_iff hnamed hload hx)

/-- Loading a sample configuration into an empty decoder. -/
def sampleLoad (cfg : JBPFCLIConfig) : EStateM.Result String Decoder Unit :=
  (loadSchemasDecoder (sampleHost cfg) sampleLib "app" cfg sampleOrder).run Decoder.empty

theorem sampleLoad_oneChannel : ∃ d, sampleLoad (oneChannel "DestinationUDP") = .ok () d :=
  ⟨_, rfl⟩

theorem sample_named {cfg : JBPFCLIConfig}
    (hfoo : ∀ x ∈ protoChannels cfg, x.protoName = "foo") :
    NamedAfterFile (sampleHost cfg) sampleLib cfg := by
  intro x hx _ _
  have hname : packageName "foo.proto" = "foo" := by decide
  exact ⟨"foo.proto", rfl, hname.trans (hfoo x hx).symm⟩

/-- One channel, loaded and found. -/
theorem looks_up_one_channel : ∃ d, sampleLoad (oneChannel "DestinationUDP") = .ok () d
    ∧ ∀ x ∈ protoChannels (oneChannel "DestinationUDP"), ∀ m,
        outputIOMap (sampleHost (oneChannel "DestinationUDP")) "app"
          (oneChannel "DestinationUDP") 1 x.codelet x.io = .ok m →
          d.lookup m.streamID = some x.schema := by
  obtain ⟨d, hd⟩ := sampleLoad_oneChannel
  have hone : ∀ x ∈ protoChannels (oneChannel "DestinationUDP"), x = ⟨"codelet",
      sampleChannel "a" "DestinationUDP", ⟨"M", "foo.pb"⟩⟩ :=
    fun x hx => List.mem_singleton.mp hx
  have hhash : HashesApart (sampleHost (oneChannel "DestinationUDP")) "app"
      (oneChannel "DestinationUDP") := by
    intro x hx y hy _
    rw [List.mem_singleton.mp hx, List.mem_singleton.mp hy]
    exact ⟨rfl, rfl⟩
  refine ⟨d, hd, (looks_up_iff_last _ sampleLib sampleOrder ⟨_, "set.yaml", rfl⟩ "app" 1
    hhash (sample_named (by decide)) hd).1.mpr ?_⟩
  intro x hx y hy
  rw [hone x (List.mem_filter.mp hx).1, hone y (mem_of_lastOf hy)]
  exact ⟨rfl, rfl⟩

/-- Two channels of one message: the second replaces the first in the map, and the decoder
    knows nothing of the first. -/
theorem first_channel_not_found :
    ¬ ∀ (host : Host) (lib : ProtoLib) (o : MapOrder) (cfg : AcceptedConfig host)
      (appName : String) (deviceID : BitVec 8) (d : Decoder),
      HashesApart host appName cfg.config → NamedAfterFile host lib cfg.config →
      (loadSchemasDecoder host lib appName cfg.config o).run Decoder.empty = .ok () d →
      ∀ x ∈ protoChannels cfg.config, ∀ m,
        outputIOMap host appName cfg.config deviceID x.codelet x.io = .ok m →
          d.lookup m.streamID = some x.schema := by
  intro h
  have hhash : HashesApart (sampleHost twoChannels) "app" twoChannels := by
    unfold HashesApart
    decide +kernel
  obtain ⟨d, hd⟩ : ∃ d, sampleLoad twoChannels = .ok () d := ⟨_, rfl⟩
  let x : ProtoChannel := ⟨"codelet", sampleChannel "a" "DestinationUDP", ⟨"M", "foo.pb"⟩⟩
  let y : ProtoChannel := ⟨"codelet", sampleChannel "b" "DestinationUDP", ⟨"M", "foo.pb"⟩⟩
  have hx : x ∈ protoChannels twoChannels := List.mem_cons_self
  have hm : outputIOMap (sampleHost twoChannels) "app" twoChannels 1 x.codelet x.io = .ok _ :=
    (outputIOMap_eq_ok_iff ..).mpr ⟨.udp, rfl, rfl⟩
  have hfound := h _ sampleLib sampleOrder ⟨_, "set.yaml", rfl⟩ "app" 1 d hhash
    (sample_named (by decide)) hd x hx _ hm
  rw [lookup_assigned d hm, lookup_loadId_iff hhash hd hx] at hfound
  have hlast : lastOf (protoChannels twoChannels) x.protoName x.protobuf.messageName
      = some y := by decide
  exact absurd (hfound y hlast).2 (by decide)

/-! ## Unloading -/

section Unload

variable {host : Host} {lib : ProtoLib} {o : MapOrder} {appName : String}
  {cfg : JBPFCLIConfig}

theorem unloadId_eq_ok_iff {x : String × IOChannelConfig} {i : StreamId} :
    unloadId host appName cfg x = .ok i
      ↔ ∃ dest, destinationFromString x.2.forwardDestination = .ok dest
        ∧ i = channelId host appName cfg dest deviceIDAny x.1 x.2.name := by
  rw [unloadId, bind_eq_ok_iff]
  refine exists_congr fun dest => and_congr_right fun _ => ?_
  rw [channelStreamID_eq, Except.ok.injEq, eq_comm]

theorem unloadIds_ok_iff (host : Host) (appName : String) (cfg : JBPFCLIConfig) :
    (∃ ids, unloadIds host appName cfg = .ok ids)
      ↔ ∀ x ∈ outChannels cfg, Recognised x.2.forwardDestination := by
  rw [unloadIds, exists_mapM_eq_ok_iff]
  refine forall₂_congr fun x _ => ?_
  simp only [unloadId_eq_ok_iff, recognised_iff]
  exact ⟨fun ⟨_, dest, h, _⟩ => ⟨dest, h⟩, fun ⟨dest, h⟩ => ⟨_, dest, h, rfl⟩⟩

/-- One removal. -/
theorem delete_run (d : Decoder) (i : StreamId) :
    ∃ d', (deleteStreamToSchemaAssociation i).run d = .ok () d'
      ∧ ∀ j, d'.lookup j = if streamKey j = streamKey i then none else d.lookup j := by
  rw [EStateM.run, deleteStreamToSchemaAssociation]
  cases hi : d.lookup i with
  | none =>
      refine ⟨d, rfl, fun j => ?_⟩
      by_cases hkey : streamKey j = streamKey i
      · rw [if_pos hkey, d.lookup_congr hkey, hi]
      · rw [if_neg hkey]
  | some r => exact ⟨d.setStream i none, rfl, fun j => d.lookup_setStream i j none⟩

/-- **ALL REMOVALS** succeed and leave nothing under the keys of their ids. -/
theorem unload_run (ids : List StreamId) (d : Decoder) :
    ∃ d', (ids.forM deleteStreamToSchemaAssociation).run d = .ok () d'
      ∧ ∀ j, (d.lookup j = none ∨ ∃ i ∈ ids, streamKey i = streamKey j) →
          d'.lookup j = none := by
  induction ids generalizing d with
  | nil =>
      refine ⟨d, rfl, fun j hj => ?_⟩
      rcases hj with hj | ⟨i, hi, -⟩
      · exact hj
      · exact (List.not_mem_nil hi).elim
  | cons i ids ih =>
      obtain ⟨d₁, hone, hlookup⟩ := delete_run d i
      obtain ⟨d₂, hrest, hgone⟩ := ih d₁
      refine ⟨d₂, ?_, fun j hj => hgone j ?_⟩
      · rw [forM_cons]
        exact run_bind_eq_ok_iff.mpr ⟨(), d₁, hone, hrest⟩
      · rcases hj with hj | ⟨i', hi', hkey⟩
        · left
          rw [hlookup j, hj, ite_self]
        · rcases List.mem_cons.mp hi' with rfl | hi'
          · left
            rw [hlookup j, if_pos hkey.symm]
          · exact Or.inr ⟨i', hi', hkey⟩

/-- The ids of the unload cover every association the load has created. -/
theorem covered_of_created {d₀ d₁ : Decoder} {ids : List StreamId}
    (hload : (loadSchemasDecoder host lib appName cfg o).run d₀ = .ok () d₁)
    (hids : unloadIds host appName cfg = .ok ids) {j : StreamId}
    (hnone : d₀.lookup j = none) (hsome : d₁.lookup j ≠ none) :
    ∃ i ∈ ids, streamKey i = streamKey j := by
  obtain ⟨l, hadded, hl⟩ := added_channels hload
  obtain hsame | ⟨e, he, hkey⟩ := hadded.only j
  · exact absurd (hsame.trans hnone) hsome
  · obtain ⟨y, hy, hid⟩ := (hl e).mp he
    have hmem := mem_outChannels (mem_of_lastOf hy)
    obtain ⟨i, hi, heq⟩ := exists_mem_of_mapM hids hmem
    obtain ⟨dest, -, rfl⟩ := unloadId_eq_ok_iff.mp heq
    refine ⟨_, hi, ?_⟩
    rw [← hkey, hid]
    exact (streamKey_channelId_eq_iff ..).mpr rfl

end Unload

/-- **AN UNLOAD** of what has been loaded, from any decoder, returns without an error and
    leaves none of the associations that the load created, iff every output channel has
    one of the six destinations. -/
theorem removed_iff_recognised (host : Host) (lib : ProtoLib) (o : MapOrder)
    (cfg : AcceptedConfig host) (appName : String) {d₀ d₁ : Decoder}
    (hload : (loadSchemasDecoder host lib appName cfg.config o).run d₀ = .ok () d₁)
    (d : Decoder) :
    (∃ d', (unloadSchemasDecoder host appName cfg.config).run d = .ok () d'
        ∧ ∀ i, d₀.lookup i = none → d₁.lookup i ≠ none → d'.lookup i = none)
      ↔ ∀ x ∈ outChannels cfg.config, Recognised x.2.forwardDestination := by
  rw [← unloadIds_ok_iff host appName, EStateM.run, unloadSchemasDecoder]
  cases hids : unloadIds host appName cfg.config with
  | error e => exact iff_of_false (fun ⟨_, h, _⟩ => by cases h) (fun ⟨_, h⟩ => by cases h)
  | ok ids =>
      refine iff_of_true ?_ ⟨ids, rfl⟩
      obtain ⟨d', hrun, hgone⟩ := unload_run ids d
      exact ⟨d', hrun, fun i hnone hsome =>
        hgone i (Or.inr (covered_of_created hload hids hnone hsome))⟩

/-- One channel, loaded and unloaded. -/
theorem removed_one_channel : ∃ d d', sampleLoad (oneChannel "DestinationUDP") = .ok () d
    ∧ (unloadSchemasDecoder (sampleHost (oneChannel "DestinationUDP")) "app"
        (oneChannel "DestinationUDP")).run d = .ok () d'
    ∧ ∀ i, Decoder.empty.lookup i = none → d.lookup i ≠ none → d'.lookup i = none := by
  obtain ⟨d, hd⟩ := sampleLoad_oneChannel
  obtain ⟨d', hrun, hgone⟩ := (removed_iff_recognised _ sampleLib sampleOrder
    ⟨_, "set.yaml", rfl⟩ "app" hd d).mpr (by decide)
  exact ⟨d, d', hd, hrun, hgone⟩

/-- A destination that nobody has checked: the load goes through and the unload stops
    before it has removed anything. -/
theorem unknown_destination_stays :
    ¬ ∀ (host : Host) (lib : ProtoLib) (o : MapOrder) (cfg : AcceptedConfig host)
      (appName : String) (d₀ d₁ : Decoder),
      (loadSchemasDecoder host lib appName cfg.config o).run d₀ = .ok () d₁ →
      ∀ d, ∃ d', (unloadSchemasDecoder host appName cfg.config).run d = .ok () d'
        ∧ ∀ i, d₀.lookup i = none → d₁.lookup i ≠ none → d'.lookup i = none := by
  intro h
  obtain ⟨d, hd⟩ : ∃ d, sampleLoad (oneChannel "udp") = .ok () d := ⟨_, rfl⟩
  obtain ⟨d', hrun, -⟩ := h _ sampleLib sampleOrder ⟨_, "set.yaml", rfl⟩ "app"
    Decoder.empty d hd d
  cases hrun

end JrtcSchemaDecoder
