import JrtController.CacheStoreProofs
import JrtController.GoBindingProofs
import JrtController.SchemaDecoderProofs

/-! # The decoder on its stores

    The handlers of the decoder with the stores they use: `Schemas` under the names of
    packages, `StreamToSchema` under ids of streams, each kept in a Go map and, if it is
    enabled, in Redis.

    * `decision_upsert`, `decision_add` — the answers follow from the records that the
      stores show;
    * `survives_restart_iff` — a record is the same after a restart, and with it the
      answers, iff `encoding/json` carries its checksum;
    * `Upserts`, `upserts_iff` — without Redis an upload does what it should iff the
      descriptor is not an empty set;
    * `upsert_refines`, `add_refines`, `delete_refines` — without Redis the handlers are
      those of `SchemaDecoderProofs`. -/

namespace JrtcDecoderStore

open JrtcStreamId JrtcCodeletSet JrtcGoBinding JrtcSchemaDecoder JrtcCacheStore Loops Runs

/-! ## The server -/

/-- What the server is given: the libraries, the client of Redis and the transformation of
    stream ids. -/
structure ServerConf where
  enabled           : Bool
  streamIDTransform : Bytes → Except String String
  schemaJson        : Json RecordedProtoDescriptor
  streamJson        : Json RecordedStreamToSchema
  lib               : ProtoLib

/-- The key of a package. -/
def schemaKey (name : String) : String := "schema/" ++ name

theorem schemaKey_inj {name name' : String} :
    schemaKey name = schemaKey name' ↔ name = name' :=
  String.append_right_inj _

namespace ServerConf

def schemas (c : ServerConf) : StoreConf String RecordedProtoDescriptor :=
  ⟨c.enabled, fun key => .ok (schemaKey key), c.schemaJson⟩

def streamToSchema (c : ServerConf) : StoreConf Bytes RecordedStreamToSchema :=
  ⟨c.enabled, c.streamIDTransform, c.streamJson⟩

theorem schemas_key (c : ServerConf) (name : String) :
    c.schemas.keyTransformer name = .ok (schemaKey name) := rfl

end ServerConf

open ServerConf

structure Server where
  schemas        : Store RecordedProtoDescriptor
  streamToSchema : Store RecordedStreamToSchema

/-- The codes of `google.golang.org/grpc/codes` that the handlers use. -/
inductive Code where
  | invalidArgument
  | alreadyExists
  | notFound
  deriving DecidableEq, Repr

/-- How a handler fails. -/
inductive Failure where
  | err (e : String)
  | status (code : Code) (desc : String)
  | panic (e : String)
  deriving DecidableEq, Repr

/-- `Response`; its status is always `STATUS_OK`. -/
structure Response where
  message : String
  deriving DecidableEq, Repr

/-- How Redis answers the commands of one request. -/
structure RedisReplies where
  getSchema : Option String
  getStream : Option String
  write     : Reply

/-- Redis answers all of them. -/
def RedisReplies.answered : RedisReplies := ⟨none, none, .ok⟩

/-- A call on `Schemas`. -/
def onSchemas {α : Type} (x : EStateM String (Store RecordedProtoDescriptor) α) :
    EStateM Failure Server α := fun s =>
  match x.run s.schemas with
  | .ok a schemas => .ok a { s with schemas := schemas }
  | .error e schemas => .error (.err e) { s with schemas := schemas }

/-- A call on `StreamToSchema`. -/
def onStreams {α : Type} (x : EStateM String (Store RecordedStreamToSchema) α) :
    EStateM Failure Server α := fun s =>
  match x.run s.streamToSchema with
  | .ok a streams => .ok a { s with streamToSchema := streams }
  | .error e streams => .error (.err e) { s with streamToSchema := streams }

theorem run_onSchemas_of_ok {α : Type} {x : EStateM String (Store RecordedProtoDescriptor) α}
    {a : α} {s : Server} {schemas : Store RecordedProtoDescriptor}
    (h : x.run s.schemas = .ok a schemas) :
    (onSchemas x).run s = .ok a { s with schemas := schemas } := by
  rw [EStateM.run, onSchemas, h]

theorem exists_run_of_onSchemas {α : Type}
    {x : EStateM String (Store RecordedProtoDescriptor) α} {a : α} {s s' : Server}
    (h : (onSchemas x).run s = .ok a s') :
    ∃ schemas, x.run s.schemas = .ok a schemas ∧ s' = { s with schemas := schemas } := by
  rw [EStateM.run, onSchemas] at h
  cases hx : x.run s.schemas with
  | ok b schemas =>
      rw [hx] at h
      cases h
      exact ⟨schemas, rfl, rfl⟩
  | error e schemas =>
      rw [hx] at h
      cases h

theorem run_onStreams_of_ok {α : Type} {x : EStateM String (Store RecordedStreamToSchema) α}
    {a : α} {s : Server} {streams : Store RecordedStreamToSchema}
    (h : x.run s.streamToSchema = .ok a streams) :
    (onStreams x).run s = .ok a { s with streamToSchema := streams } := by
  rw [EStateM.run, onStreams, h]

theorem exists_run_of_onStreams {α : Type}
    {x : EStateM String (Store RecordedStreamToSchema) α} {a : α} {s s' : Server}
    (h : (onStreams x).run s = .ok a s') :
    ∃ streams, x.run s.streamToSchema = .ok a streams
      ∧ s' = { s with streamToSchema := streams } := by
  rw [EStateM.run, onStreams] at h
  cases hx : x.run s.streamToSchema with
  | ok b streams =>
      rw [hx] at h
      cases h
      exact ⟨streams, rfl, rfl⟩
  | error e streams =>
      rw [hx] at h
      cases h

section Handlers

variable (c : ServerConf) (replies : RedisReplies)

/-- The end of `UpsertProtoPackage`. -/
def setSchema (name : String) (descriptor : Bytes) : EStateM Failure Server Response := do
  onSchemas (set c.schemas replies.write name (c.lib.record descriptor))
  pure ⟨""⟩

/-- `UpsertProtoPackage`. -/
def upsertProtoPackage (descriptor : Bytes) : EStateM Failure Server Response :=
  match c.lib.unmarshal descriptor with
  | .error e => throw (.err e)
  -- `fds.File[0]` is read before the files are counted
  | .ok [] => throw (.panic "runtime error: index out of range [0] with length 0")
  | .ok (file :: files) =>
    if files.length + 1 ≠ 1 then
      throw (.status .invalidArgument
        ("expected exactly one file descriptor in the set, got " ++ toString (files.length + 1)))
    else do
      match ← onSchemas (get c.schemas replies.getSchema (packageName file)) with
      | some current =>
        if current.checksum = c.lib.sha1 descriptor then
          pure ⟨"Proto package already exists, checksum matches"⟩
        else setSchema c replies (packageName file) descriptor
      | none => setSchema c replies (packageName file) descriptor

/-- `AddStreamToSchemaAssociation`. -/
def addStreamToSchemaAssociation (streamID : Bytes) (r : RecordedStreamToSchema) :
    EStateM Failure Server Response := do
  match ← onStreams (get c.streamToSchema replies.getStream streamID) with
  | some current =>
    if current.protoMsg = r.protoMsg ∧ current.protoPackage = r.protoPackage then
      pure ⟨"stream already has a schema association"⟩
    else throw (.status .alreadyExists "stream already has a schema association")
  | none =>
    match ← onSchemas (get c.schemas replies.getSchema r.protoPackage) with
    | none => throw (.status .notFound ("proto package " ++ r.protoPackage ++ " not found"))
    | some _ => do
      onStreams (set c.streamToSchema replies.write streamID r)
      pure ⟨""⟩

/-- `DeleteStreamToSchemaAssociation`. -/
def deleteStreamToSchemaAssociation (streamID : Bytes) : EStateM Failure Server Response := do
  match ← onStreams (get c.streamToSchema replies.getStream streamID) with
  | none => pure ⟨""⟩
  | some _ => do
    onStreams (delete c.streamToSchema replies.write streamID)
    pure ⟨""⟩

end Handlers

/-! ## A restart -/

/-- The fields that `encoding/json` sees: `checksum` is not exported. -/
def exportedSchema (r : RecordedProtoDescriptor) : RecordedProtoDescriptor :=
  ⟨0, r.protoDescriptor⟩

/-- The server of a new process on the same Redis. -/
def Server.restart (s : Server) : Server :=
  ⟨⟨fun _ => none, s.schemas.redis⟩, ⟨fun _ => none, s.streamToSchema.redis⟩⟩

/-- What a handler answers. -/
def decision {σ α : Type} : EStateM.Result Failure σ α → Except Failure α
  | .ok a _ => .ok a
  | .error f _ => .error f

/-- The answer to the upload of a descriptor where `Schemas` shows `v`. -/
def uploadAnswer (c : ServerConf) (descriptor : Bytes) (v : Option RecordedProtoDescriptor) :
    Response :=
  if v.map RecordedProtoDescriptor.checksum = some (c.lib.sha1 descriptor) then
    ⟨"Proto package already exists, checksum matches"⟩
  else ⟨""⟩

section Enabled

variable {c : ServerConf} (hon : c.enabled = true)

include hon

theorem decision_setSchema (hjson : c.schemaJson.Carries exportedSchema) (name : String)
    (descriptor : Bytes) (s : Server) :
    decision ((setSchema c .answered name descriptor).run s) = .ok ⟨""⟩ := by
  obtain ⟨b, hb, -⟩ := hjson (c.lib.record descriptor)
  obtain ⟨schemas, hset⟩ := exists_run_set (c := c.schemas) hon (schemas_key c name) hb s.schemas
  show decision ((onSchemas (set c.schemas .ok name _) >>= _).run s) = _
  rw [run_bind_of_ok (run_onSchemas_of_ok hset)]
  rfl

/-- **THE ANSWER TO AN UPLOAD** follows from the record that `Schemas` shows. -/
theorem decision_upsert (hjson : c.schemaJson.Carries exportedSchema) {descriptor : Bytes}
    {file : String} (hfile : c.lib.unmarshal descriptor = .ok [file]) {s : Server}
    {v : Option RecordedProtoDescriptor}
    (hview : s.schemas.view c.schemas (schemaKey (packageName file)) = .ok v) :
    decision ((upsertProtoPackage c .answered descriptor).run s)
      = .ok (uploadAnswer c descriptor v) := by
  obtain ⟨schemas, hget⟩ := run_get (c := c.schemas) hon (schemas_key c _) hview
  rw [upsertProtoPackage, hfile]
  show decision ((onSchemas (get c.schemas none (packageName file)) >>= _).run s) = _
  rw [run_bind_of_ok (run_onSchemas_of_ok hget)]
  cases v with
  | none => exact decision_setSchema hon hjson _ descriptor _
  | some current =>
      by_cases hsum : current.checksum = c.lib.sha1 descriptor
      · rw [uploadAnswer, Option.map_some, if_pos (congrArg some hsum)]
        show decision ((if current.checksum = c.lib.sha1 descriptor then _ else _ :
          EStateM Failure Server Response).run _) = _
        rw [if_pos hsum]
        rfl
      · rw [uploadAnswer, Option.map_some, if_neg fun h => hsum (Option.some.inj h)]
        show decision ((if current.checksum = c.lib.sha1 descriptor then _ else _ :
          EStateM Failure Server Response).run _) = _
        rw [if_neg hsum]
        exact decision_setSchema hon hjson _ descriptor _

/-- **THE ANSWER TO AN ASSOCIATION** of a stream that has one. -/
theorem decision_add {streamID : Bytes} {queryKey : String}
    (hkey : c.streamIDTransform streamID = .ok queryKey) {s : Server}
    {current : RecordedStreamToSchema}
    (hview : s.streamToSchema.view c.streamToSchema queryKey = .ok (some current))
    (r : RecordedStreamToSchema) :
    decision ((addStreamToSchemaAssociation c .answered streamID r).run s)
      = if current.protoMsg = r.protoMsg ∧ current.protoPackage = r.protoPackage then
          .ok ⟨"stream already has a schema association"⟩
        else .error (.status .alreadyExists "stream already has a schema association") := by
  obtain ⟨streams, hget⟩ := run_get (c := c.streamToSchema) hon hkey hview
  show decision ((onStreams (get c.streamToSchema none streamID) >>= _).run s) = _
  rw [run_bind_of_ok (run_onStreams_of_ok hget)]
  by_cases hsame : current.protoMsg = r.protoMsg ∧ current.protoPackage = r.protoPackage
  · show decision ((if current.protoMsg = r.protoMsg ∧ current.protoPackage = r.protoPackage
      then _ else _ : EStateM Failure Server Response).run _) = _
    rw [if_pos hsame, if_pos hsame]
    rfl
  · show decision ((if current.protoMsg = r.protoMsg ∧ current.protoPackage = r.protoPackage
      then _ else _ : EStateM Failure Server Response).run _) = _
    rw [if_neg hsame, if_neg hsame]
    rfl

end Enabled

/-- A `Get` in any process whose map does not hold the key returns the record that was set,
    and uploads of the package are answered after a restart as before it. -/
def SchemaSurvives (c : ServerConf) (name : String) (r : RecordedProtoDescriptor) : Prop :=
  ∀ s s' : Server, (onSchemas (set c.schemas .ok name r)).run s = .ok () s' →
    (∀ p : Store RecordedProtoDescriptor, p.redis = s'.schemas.redis →
      p.inMemStore (schemaKey name) = none →
      ∃ p', (get c.schemas none name).run p = .ok (some r) p')
    ∧ ∀ descriptor file, c.lib.unmarshal descriptor = .ok [file] → packageName file = name →
      decision ((upsertProtoPackage c .answered descriptor).run s'.restart)
        = decision ((upsertProtoPackage c .answered descriptor).run s')

/-- The same of the association of a stream. -/
def StreamSurvives (c : ServerConf) (streamID : Bytes) (v : RecordedStreamToSchema) : Prop :=
  ∀ s s' : Server, (onStreams (set c.streamToSchema .ok streamID v)).run s = .ok () s' →
    ∀ queryKey, c.streamIDTransform streamID = .ok queryKey →
    (∀ p : Store RecordedStreamToSchema, p.redis = s'.streamToSchema.redis →
      p.inMemStore queryKey = none →
      ∃ p', (get c.streamToSchema none streamID).run p = .ok (some v) p')
    ∧ ∀ r, decision ((addStreamToSchemaAssociation c .answered streamID r).run s'.restart)
        = decision ((addStreamToSchemaAssociation c .answered streamID r).run s')

section Survives

variable {c : ServerConf} (hon : c.enabled = true)

include hon

/-- What a package is shown as after it was set, in the process that did and elsewhere. -/
theorem views_of_setSchema (hjson : c.schemaJson.Carries exportedSchema) {name : String}
    {r : RecordedProtoDescriptor} {s s' : Server}
    (h : (onSchemas (set c.schemas .ok name r)).run s = .ok () s') :
    s'.schemas.view c.schemas (schemaKey name) = .ok (some r)
      ∧ ∀ p : Store RecordedProtoDescriptor, p.redis = s'.schemas.redis →
        p.inMemStore (schemaKey name) = none →
        p.view c.schemas (schemaKey name) = .ok (some (exportedSchema r)) := by
  obtain ⟨schemas, hset, rfl⟩ := exists_run_of_onSchemas h
  have hview := view_after_set (c := c.schemas) hon (schemas_key c name) .ok r s.schemas
    (schemaKey name)
  rw [hset, if_pos rfl] at hview
  refine ⟨hview, fun p hredis hmem => ?_⟩
  rw [view_of_redis_eq hmem hredis]
  exact redisView_of_set (c := c.schemas) hon hjson (schemas_key c name) hset

theorem schemaSurvives_iff (hjson : c.schemaJson.Carries exportedSchema) (name : String)
    (r : RecordedProtoDescriptor) : SchemaSurvives c name r ↔ r.checksum = 0 := by
  constructor
  · intro h
    obtain ⟨b, hb, -⟩ := hjson r
    obtain ⟨schemas, hset⟩ := exists_run_set (c := c.schemas) hon (schemas_key c name) hb .empty
    have hrun := run_onSchemas_of_ok (s := ⟨.empty, .empty⟩) hset
    obtain ⟨p', hget⟩ := (h _ _ hrun).1 ⟨fun _ => none, schemas.redis⟩ rfl rfl
    have hview := (views_of_setSchema hon hjson hrun).2 ⟨fun _ => none, schemas.redis⟩ rfl rfl
    rw [view_of_run_get (c := c.schemas) hon (schemas_key c name) hget] at hview
    have hr : r = exportedSchema r := by
      injection hview with hview
      exact Option.some.inj hview
    rw [hr]
    rfl
  · intro hzero s s' hrun
    have hr : exportedSchema r = r := by
      rw [exportedSchema, ← hzero]
    obtain ⟨hhere, hthere⟩ := views_of_setSchema hon hjson hrun
    rw [hr] at hthere
    refine ⟨fun p hredis hmem => ?_, fun descriptor file hfile hname => ?_⟩
    · exact run_get (c := c.schemas) hon (schemas_key c name) (hthere p hredis hmem)
    · subst hname
      have hafter := decision_upsert hon hjson hfile (s := s'.restart) (hthere _ rfl rfl)
      exact hafter.trans (decision_upsert hon hjson hfile hhere).symm

theorem streamSurvives (hjson : c.streamJson.Carries id) (streamID : Bytes)
    (v : RecordedStreamToSchema) : StreamSurvives c streamID v := by
  intro s s' hrun queryKey hkey
  obtain ⟨streams, hset, rfl⟩ := exists_run_of_onStreams hrun
  have hhere := view_after_set (c := c.streamToSchema) hon hkey .ok v s.streamToSchema queryKey
  rw [if_pos rfl, hset] at hhere
  have hthere : ∀ p : Store RecordedStreamToSchema, p.redis = streams.redis →
      p.inMemStore queryKey = none → p.view c.streamToSchema queryKey = .ok (some v) := by
    intro p hredis hmem
    rw [view_of_redis_eq hmem hredis]
    exact redisView_of_set (c := c.streamToSchema) hon hjson hkey hset
  refine ⟨fun p hredis hmem => run_get (c := c.streamToSchema) hon hkey (hthere p hredis hmem),
    fun r => ?_⟩
  have hafter := decision_add hon hkey
    (s := Server.restart { s with streamToSchema := streams }) (hthere _ rfl rfl) r
  exact hafter.trans
    (decision_add hon hkey (s := { s with streamToSchema := streams }) hhere r).symm

end Survives

/-- **A RESTART** keeps every association of a stream, and of the packages those whose
    checksum is the one a new record has. -/
theorem survives_restart_iff {c : ServerConf} (hon : c.enabled = true)
    (hschema : c.schemaJson.Carries exportedSchema) (hstream : c.streamJson.Carries id) :
    (∀ name r, SchemaSurvives c name r ↔ r.checksum = 0)
      ∧ ∀ streamID v, StreamSurvives c streamID v :=
  ⟨schemaSurvives_iff hon hschema, streamSurvives hon hstream⟩

/-- The associations can be encoded. -/
theorem exists_streamJson : ∃ j : Json RecordedStreamToSchema, j.Carries id := by
  have hchar : Function.Injective Char.toNat := fun a b h => Char.toNat_inj.mp h
  have htext : Function.Injective fun t : String => t.toList.map Char.toNat := fun a b h =>
    String.toList_inj.mp (List.map_injective_iff.mpr hchar h)
  have hpair : Function.Injective fun v : RecordedStreamToSchema =>
      (v.protoMsg.toList.map Char.toNat, v.protoPackage.toList.map Char.toNat) := by
    rintro ⟨msg, pkg⟩ ⟨msg', pkg'⟩ h
    obtain ⟨hmsg, hpkg⟩ := Prod.mk.inj h
    cases htext hmsg
    cases htext hpkg
    rfl
  have hcount : Countable RecordedStreamToSchema := hpair.countable
  have hsome : Nonempty RecordedStreamToSchema := ⟨⟨"", ""⟩⟩
  obtain ⟨f, hf⟩ := exists_injective_nat RecordedStreamToSchema
  refine ⟨⟨fun v => .ok (List.replicate (f v) 0), fun b => .ok (Function.invFun f b.length)⟩,
    fun v => ⟨_, rfl, ?_⟩⟩
  show Except.ok (Function.invFun f (List.replicate (f v) 0).length) = .ok v
  rw [List.length_replicate, Function.leftInverse_invFun hf v]

/-- A decoder with Redis for packages of one byte, with a checksum of its own each. -/
def oneByteConf (streamJson : Json RecordedStreamToSchema) : ServerConf where
  enabled := true
  streamIDTransform _ := .ok "streamToSchema/"
  schemaJson := ⟨fun r => .ok r.protoDescriptor, fun b => .ok ⟨0, b⟩⟩
  streamJson := streamJson
  lib := ⟨fun _ => .ok ["package.proto"], fun b => BitVec.ofNat 160 (b.length + 1)⟩

theorem survives_restart_oneByte : ∃ c : ServerConf, c.enabled = true
    ∧ c.schemaJson.Carries exportedSchema ∧ c.streamJson.Carries id
    ∧ SchemaSurvives c "package" ⟨0, [7]⟩ ∧ StreamSurvives c [1] ⟨"message", "package"⟩ := by
  obtain ⟨j, hj⟩ := exists_streamJson
  have hschema : (oneByteConf j).schemaJson.Carries exportedSchema := fun r => ⟨_, rfl, rfl⟩
  obtain ⟨hs, ht⟩ := survives_restart_iff (c := oneByteConf j) rfl hschema hj
  exact ⟨oneByteConf j, rfl, hschema, hj, (hs "package" ⟨0, [7]⟩).mpr rfl, ht _ _⟩

/-- **AN UPLOAD IS FORGOTTEN** in part: repeated, it is known before a restart, and stored
    once more after it. -/
theorem checksum_lost : ∃ c : ServerConf, c.enabled = true
    ∧ c.schemaJson.Carries exportedSchema ∧ c.streamJson.Carries id
    ∧ ∃ s, (upsertProtoPackage c .answered [7]).run ⟨.empty, .empty⟩ = .ok ⟨""⟩ s
      ∧ decision ((upsertProtoPackage c .answered [7]).run s)
        = .ok ⟨"Proto package already exists, checksum matches"⟩
      ∧ decision ((upsertProtoPackage c .answered [7]).run s.restart) = .ok ⟨""⟩
      ∧ ∃ r p', (get c.schemas none "package").run s.restart.schemas = .ok (some r) p'
        ∧ r.checksum = 0 ∧ c.lib.record [7] = ⟨2, [7]⟩ := by
  obtain ⟨j, hj⟩ := exists_streamJson
  exact ⟨oneByteConf j, rfl, fun r => ⟨_, rfl, rfl⟩, hj, _, rfl, rfl, rfl, _, _, rfl, rfl, rfl⟩

/-! ## Without Redis -/

/-- The package that is stored under a name. -/
def Server.schema (s : Server) (name : String) : Option RecordedProtoDescriptor :=
  s.schemas.inMemStore (schemaKey name)

/-- The server after a package was stored. -/
def Server.withSchema (s : Server) (name : String) (r : RecordedProtoDescriptor) : Server :=
  { s with schemas := s.schemas.setMem (schemaKey name) (some r) }

theorem schema_withSchema (s : Server) (name : String) (r : RecordedProtoDescriptor)
    (name' : String) : (s.withSchema name r).schema name'
      = if name' = name then some r else s.schema name' := by
  show Function.update s.schemas.inMemStore (schemaKey name) (some r) (schemaKey name') = _
  rw [Function.update_apply]
  by_cases h : name' = name
  · rw [if_pos h, if_pos (congrArg schemaKey h)]
  · rw [if_neg h, if_neg fun hkey => h (schemaKey_inj.mp hkey)]
    rfl

section Disabled

variable {c : ServerConf} (hoff : c.enabled = false)

include hoff

theorem run_getSchema (redisErr : Option String) (name : String) (s : Server) :
    (onSchemas (get c.schemas redisErr name)).run s = .ok (s.schema name) s :=
  run_onSchemas_of_ok (run_get_disabled (c := c.schemas) hoff (schemas_key c name) redisErr _)

theorem run_setSchema (replies : RedisReplies) (name : String) (descriptor : Bytes)
    (s : Server) : (setSchema c replies name descriptor).run s
      = .ok ⟨""⟩ (s.withSchema name (c.lib.record descriptor)) := by
  have hset := run_set_disabled (c := c.schemas) hoff (schemas_key c name) replies.write
    (c.lib.record descriptor) s.schemas
  show (onSchemas (set c.schemas replies.write name _) >>= _).run s = _
  rw [run_bind_of_ok (run_onSchemas_of_ok hset)]
  rfl

/-- **AN UPLOAD** of one file. -/
theorem run_upsert {descriptor : Bytes} {file : String}
    (hfile : c.lib.unmarshal descriptor = .ok [file]) (replies : RedisReplies) (s : Server) :
    (upsertProtoPackage c replies descriptor).run s
      = .ok (uploadAnswer c descriptor (s.schema (packageName file)))
          (if (s.schema (packageName file)).map RecordedProtoDescriptor.checksum
              = some (c.lib.sha1 descriptor) then s
            else s.withSchema (packageName file) (c.lib.record descriptor)) := by
  rw [upsertProtoPackage, hfile]
  show (onSchemas (get c.schemas replies.getSchema (packageName file)) >>= _).run s = _
  rw [run_bind_of_ok (run_getSchema hoff replies.getSchema (packageName file) s)]
  cases s.schema (packageName file) with
  | none => exact run_setSchema hoff replies (packageName file) descriptor s
  | some current =>
      rw [uploadAnswer, Option.map_some]
      show (if current.checksum = c.lib.sha1 descriptor then _ else _ :
        EStateM Failure Server Response).run s = _
      by_cases hsum : current.checksum = c.lib.sha1 descriptor
      · rw [if_pos hsum, if_pos (congrArg some hsum), if_pos (congrArg some hsum)]
        rfl
      · have hne : ¬ some current.checksum = some (c.lib.sha1 descriptor) :=
          fun h => hsum (Option.some.inj h)
        rw [if_neg hsum, if_neg hne, if_neg hne]
        exact run_setSchema hoff replies (packageName file) descriptor s

omit hoff in
theorem run_upsert_of_error {descriptor : Bytes} {e : String}
    (h : c.lib.unmarshal descriptor = .error e) (replies : RedisReplies) (s : Server) :
    (upsertProtoPackage c replies descriptor).run s = .error (.err e) s := by
  rw [upsertProtoPackage, h]
  rfl

omit hoff in
theorem run_upsert_of_empty {descriptor : Bytes} (h : c.lib.unmarshal descriptor = .ok [])
    (replies : RedisReplies) (s : Server) :
    (upsertProtoPackage c replies descriptor).run s
      = .error (.panic "runtime error: index out of range [0] with length 0") s := by
  rw [upsertProtoPackage, h]
  rfl

omit hoff in
theorem run_upsert_of_many {descriptor : Bytes} {file file' : String} {files : List String}
    (h : c.lib.unmarshal descriptor = .ok (file :: file' :: files)) (replies : RedisReplies)
    (s : Server) : (upsertProtoPackage c replies descriptor).run s
      = .error (.status .invalidArgument
          ("expected exactly one file descriptor in the set, got "
            ++ toString (files.length + 2))) s := by
  have hlen : (file' :: files).length + 1 ≠ 1 := by
    rw [List.length_cons]
    omega
  rw [upsertProtoPackage, h]
  show (if (file' :: files).length + 1 ≠ 1 then _ else _ :
    EStateM Failure Server Response).run s = _
  rw [if_pos hlen]
  rfl

end Disabled

/-- What an upload should do in the state `s`. -/
structure Upserts (c : ServerConf) (s : Server) (descriptor : Bytes) : Prop where
  noPanic   : ∀ replies e,
    decision ((upsertProtoPackage c replies descriptor).run s) ≠ .error (.panic e)
  okIff     : ∀ replies, (∃ resp,
    decision ((upsertProtoPackage c replies descriptor).run s) = .ok resp)
      ↔ ∃ file, c.lib.unmarshal descriptor = .ok [file]
  unchanged : ∀ replies f,
    decision ((upsertProtoPackage c replies descriptor).run s) = .error f →
      after ((upsertProtoPackage c replies descriptor).run s) = s
  stored    : ∀ replies file s', c.lib.unmarshal descriptor = .ok [file] →
    after ((upsertProtoPackage c replies descriptor).run s) = s' →
    (s'.schema (packageName file)).map RecordedProtoDescriptor.protoDescriptor = some descriptor
      ∧ (∀ name, name ≠ packageName file → s'.schema name = s.schema name)
      ∧ s'.streamToSchema = s.streamToSchema
      ∧ ∀ replies', after ((upsertProtoPackage c replies' descriptor).run s') = s'

/-- The checksum of every package is that of its descriptor. -/
def Coherent (c : ServerConf) (s : Server) : Prop :=
  ∀ name r, s.schema name = some r → r.checksum = c.lib.sha1 r.protoDescriptor

/-- No package that is stored collides with the descriptor. -/
def NoCollision (c : ServerConf) (s : Server) (descriptor : Bytes) : Prop :=
  ∀ name r, s.schema name = some r →
    c.lib.sha1 r.protoDescriptor = c.lib.sha1 descriptor → r.protoDescriptor = descriptor

/-- An upload that fails leaves the server as it was. -/
theorem upserts_of_failed {c : ServerConf} {s : Server} {descriptor : Bytes} {f : Failure}
    (hrun : ∀ replies, (upsertProtoPackage c replies descriptor).run s = .error f s)
    (hpanic : ∀ e, f ≠ .panic e) (hfile : ∀ file, c.lib.unmarshal descriptor ≠ .ok [file]) :
    Upserts c s descriptor where
  noPanic replies e h := by
    rw [hrun] at h
    injection h with h
    exact hpanic e h
  okIff replies := by
    refine iff_of_false ?_ fun ⟨file, h⟩ => hfile file h
    rintro ⟨resp, h⟩
    rw [hrun] at h
    cases h
  unchanged replies f' _ := by
    rw [hrun]
    rfl
  stored replies file s' h _ := (hfile file h).elim

/-- **AN UPLOAD OF ONE FILE** stores it and nothing else. -/
theorem upserts_of_file {c : ServerConf} (hoff : c.enabled = false) {s : Server}
    (hs : Coherent c s) {descriptor : Bytes} (hsha : NoCollision c s descriptor)
    {file : String} (hfile : c.lib.unmarshal descriptor = .ok [file]) :
    Upserts c s descriptor where
  noPanic replies e h := by
    rw [run_upsert hoff hfile] at h
    cases h
  okIff replies := by
    refine iff_of_true ?_ ⟨file, hfile⟩
    rw [run_upsert hoff hfile]
    exact ⟨_, rfl⟩
  unchanged replies f h := by
    rw [run_upsert hoff hfile] at h
    cases h
  stored replies file' s' hfile' hs' := by
    rw [hfile] at hfile'
    cases hfile'
    rw [run_upsert hoff hfile] at hs'
    by_cases hsum : (s.schema (packageName file)).map RecordedProtoDescriptor.checksum
        = some (c.lib.sha1 descriptor)
    · have hsame : s = s' := by rw [← hs', if_pos hsum]; rfl
      subst hsame
      refine ⟨?_, fun name _ => rfl, rfl, fun replies' => ?_⟩
      · obtain ⟨r, hr, hchecksum⟩ := Option.map_eq_some_iff.mp hsum
        have hdescriptor := hsha _ r hr ((hs _ r hr).symm.trans hchecksum)
        rw [hr, Option.map_some, hdescriptor]
      · rw [run_upsert hoff hfile, if_pos hsum]
        rfl
    · have hnew : s.withSchema (packageName file) (c.lib.record descriptor) = s' := by
        rw [← hs', if_neg hsum]
        rfl
      subst hnew
      have hself : (s.withSchema (packageName file) (c.lib.record descriptor)).schema
          (packageName file) = some (c.lib.record descriptor) := by
        rw [schema_withSchema, if_pos rfl]
      refine ⟨?_, fun name hname => ?_, rfl, fun replies' => ?_⟩
      · rw [hself]
        rfl
      · rw [schema_withSchema, if_neg hname]
      · rw [run_upsert hoff hfile, hself]
        exact if_pos rfl

/-- Without Redis, an upload does what it should in a coherent state iff the descriptor is
    not an empty set. -/
theorem upserts_iff_of_coherent {c : ServerConf} (hoff : c.enabled = false) {s : Server}
    (hs : Coherent c s) {descriptor : Bytes} (hsha : NoCollision c s descriptor) :
    Upserts c s descriptor ↔ c.lib.unmarshal descriptor ≠ .ok [] := by
  constructor
  · intro h hempty
    refine h.noPanic .answered "runtime error: index out of range [0] with length 0" ?_
    rw [run_upsert_of_empty hempty]
    rfl
  · intro h
    cases hfiles : c.lib.unmarshal descriptor with
    | error e =>
        refine upserts_of_failed (fun replies => run_upsert_of_error hfiles replies s)
          (fun e' h' => by cases h') fun file h' => ?_
        rw [hfiles] at h'
        cases h'
    | ok files =>
        cases files with
        | nil => exact (h hfiles).elim
        | cons file files =>
            cases files with
            | nil => exact upserts_of_file hoff hs hsha hfiles
            | cons file' files =>
                refine upserts_of_failed (fun replies => run_upsert_of_many hfiles replies s)
                  (fun e' h' => by cases h') fun file h' => ?_
                rw [hfiles] at h'
                cases h'

/-! ## The states of the server -/

inductive Request where
  | upsert (descriptor : Bytes)
  | add (streamID : Bytes) (r : RecordedStreamToSchema)
  | delete (streamID : Bytes)

def handle (c : ServerConf) (replies : RedisReplies) : Request → EStateM Failure Server Response
  | .upsert descriptor => upsertProtoPackage c replies descriptor
  | .add streamID r => addStreamToSchemaAssociation c replies streamID r
  | .delete streamID => deleteStreamToSchemaAssociation c replies streamID

/-- The server serves a request, and a panic would end it. -/
def ServeStep (c : ServerConf) (s : Server) (x : RedisReplies × Request) (s' : Server) : Prop :=
  s' = after ((handle c x.1 x.2).run s)
    ∧ ∀ e, decision ((handle c x.1 x.2).run s) ≠ .error (.panic e)

/-- A new server without Redis. -/
def Server.new : Server := ⟨.empty, .empty⟩

/-- The computation leaves the packages alone. -/
def KeepsSchemas {α : Type} (x : EStateM Failure Server α) : Prop :=
  ∀ s, (after (x.run s)).schemas = s.schemas

theorem KeepsSchemas.bind {α β : Type} {x : EStateM Failure Server α}
    {f : α → EStateM Failure Server β} (hx : KeepsSchemas x) (hf : ∀ a, KeepsSchemas (f a)) :
    KeepsSchemas (x >>= f) := by
  intro s
  have hxs := hx s
  cases hrun : x.run s with
  | error e s' =>
      rw [hrun] at hxs
      rw [run_bind_of_error hrun]
      exact hxs
  | ok a s' =>
      rw [hrun] at hxs
      rw [run_bind_of_ok hrun]
      exact (hf a s').trans hxs

theorem keepsSchemas_pure {α : Type} (a : α) :
    KeepsSchemas (pure a : EStateM Failure Server α) := fun _ => rfl

theorem keepsSchemas_throw {α : Type} (f : Failure) :
    KeepsSchemas (throw f : EStateM Failure Server α) := fun _ => rfl

theorem keepsSchemas_onStreams {α : Type}
    (x : EStateM String (Store RecordedStreamToSchema) α) : KeepsSchemas (onStreams x) := by
  intro s
  rw [EStateM.run, onStreams]
  cases x.run s.streamToSchema <;> rfl

section Run

variable {c : ServerConf} (hoff : c.enabled = false)

include hoff

theorem keepsSchemas_getSchema (redisErr : Option String) (name : String) :
    KeepsSchemas (onSchemas (get c.schemas redisErr name)) := by
  intro s
  rw [run_getSchema hoff]
  rfl

theorem keepsSchemas_add (replies : RedisReplies) (streamID : Bytes)
    (r : RecordedStreamToSchema) :
    KeepsSchemas (addStreamToSchemaAssociation c replies streamID r) := by
  refine (keepsSchemas_onStreams _).bind fun current => ?_
  cases current with
  | some current =>
      show KeepsSchemas (if current.protoMsg = r.protoMsg ∧ current.protoPackage = r.protoPackage
        then _ else _)
      split
      · exact keepsSchemas_pure _
      · exact keepsSchemas_throw _
  | none =>
      refine (keepsSchemas_getSchema hoff replies.getSchema r.protoPackage).bind fun found => ?_
      cases found with
      | none => exact keepsSchemas_throw _
      | some _ => exact (keepsSchemas_onStreams _).bind fun _ => keepsSchemas_pure _

omit hoff in
theorem keepsSchemas_delete (replies : RedisReplies) (streamID : Bytes) :
    KeepsSchemas (deleteStreamToSchemaAssociation c replies streamID) := by
  refine (keepsSchemas_onStreams _).bind fun current => ?_
  cases current with
  | none => exact keepsSchemas_pure _
  | some _ => exact (keepsSchemas_onStreams _).bind fun _ => keepsSchemas_pure _

omit hoff in
theorem coherent_of_schemas {s s' : Server} (h : Coherent c s) (heq : s'.schemas = s.schemas) :
    Coherent c s' := by
  intro name r hr
  refine h name r ?_
  rw [Server.schema, ← heq]
  exact hr

theorem coherent_upsert {s : Server} (h : Coherent c s) (replies : RedisReplies)
    (descriptor : Bytes) :
    Coherent c (after ((upsertProtoPackage c replies descriptor).run s)) := by
  cases hfiles : c.lib.unmarshal descriptor with
  | error e =>
      rw [run_upsert_of_error hfiles]
      exact h
  | ok files =>
      match files, hfiles with
      | [], hfiles =>
          rw [run_upsert_of_empty hfiles]
          exact h
      | file :: file' :: files, hfiles =>
          rw [run_upsert_of_many hfiles]
          exact h
      | [file], hfiles =>
          rw [run_upsert hoff hfiles]
          show Coherent c (if _ then s else _)
          split
          · exact h
          · intro name r hr
            rw [schema_withSchema] at hr
            by_cases hname : name = packageName file
            · rw [if_pos hname] at hr
              cases hr
              rfl
            · rw [if_neg hname] at hr
              exact h name r hr

/-- **EVERY STATE** of the server is coherent. -/
theorem coherent_run {tr : List (Server × RedisReplies × Request)} {s : Server}
    (h : Run (ServeStep c) .new tr s) : Coherent c s := by
  refine h.invariant (fun name r hr => by cases hr) ?_
  rintro s ⟨replies, req⟩ s' hs ⟨rfl, -⟩
  cases req with
  | upsert descriptor => exact coherent_upsert hoff hs replies descriptor
  | add streamID r => exact coherent_of_schemas hs (keepsSchemas_add hoff replies streamID r s)
  | delete streamID => exact coherent_of_schemas hs (keepsSchemas_delete replies streamID s)

end Run

/-- **UPLOADS WITHOUT REDIS**: in every state of the server, an upload that collides with no
    package does what it should iff the descriptor is not an empty set. -/
theorem upserts_iff {c : ServerConf} (hoff : c.enabled = false)
    {tr : List (Server × RedisReplies × Request)} {s : Server}
    (h : Run (ServeStep c) .new tr s) {descriptor : Bytes}
    (hsha : NoCollision c s descriptor) :
    Upserts c s descriptor ↔ c.lib.unmarshal descriptor ≠ .ok [] :=
  upserts_iff_of_coherent hoff (coherent_run hoff h) hsha

/-- A decoder without Redis whose descriptors list the files of their names. -/
def plainConf : ServerConf where
  enabled := false
  streamIDTransform _ := .ok "streamToSchema/"
  schemaJson := ⟨fun _ => .error "not used", fun _ => .error "not used"⟩
  streamJson := ⟨fun _ => .error "not used", fun _ => .error "not used"⟩
  lib := ⟨fun b => .ok (b.map fun _ => "package.proto"),
    fun b => BitVec.ofNat 160 (b.foldl (fun n x => n * 256 + x.toNat) b.length)⟩

/-- A second package under a name that is taken. -/
theorem upserts_second : ∃ tr s, Run (ServeStep plainConf) .new tr s
    ∧ tr.map (fun x => x.2.2) = [.upsert [7]] ∧ Upserts plainConf s [8] := by
  have hrun : Run (ServeStep plainConf) .new [(.new, .answered, .upsert [7])]
      (after ((handle plainConf .answered (.upsert [7])).run .new)) :=
    .next .start ⟨rfl, fun e h => by cases h⟩
  refine ⟨_, _, hrun, rfl, (upserts_iff rfl hrun ?_).mpr fun h => by cases h⟩
  intro name r hr hsum
  have hstored : (Server.new.withSchema "package" (plainConf.lib.record [7])).schema name
      = some r := hr
  rw [schema_withSchema] at hstored
  split at hstored
  · cases hstored
    exact absurd hsum (by decide)
  · cases hstored

/-- **AN EMPTY DESCRIPTOR** ends the server. -/
theorem empty_descriptor_panics : Run (ServeStep plainConf) .new [] .new
    ∧ NoCollision plainConf .new []
    ∧ decision ((upsertProtoPackage plainConf .answered []).run .new)
      = .error (.panic "runtime error: index out of range [0] with length 0") :=
  ⟨.start, fun name r hr => (by cases hr), rfl⟩

/-! ## The decoder without stores -/

/-- The text of a failure. -/
def Failure.text : Failure → String
  | .err e => e
  | .status _ desc => desc
  | .panic e => e

/-- The decoder that a server without Redis stands for; `key` spells the ids of streams. -/
structure Stands (key : StreamId → String) (s : Server) (d : Decoder) : Prop where
  schemas : ∀ name, d.schemas name = s.schema name
  streams : ∀ id, d.lookup id = s.streamToSchema.inMemStore (key id)

/-- The same answer, and states that stand for each other. -/
def Refines (key : StreamId → String) :
    EStateM.Result Failure Server Response → EStateM.Result String Decoder Unit → Prop
  | .ok _ s, .ok _ d => Stands key s d
  | .error f s, .error e d => f.text = e ∧ Stands key s d
  | _, _ => False

/-- The server spells ids as `key` does, which tells apart what `streamKey` does. -/
structure SpelledBy (c : ServerConf) (key : StreamId → String) : Prop where
  transform : ∀ id : StreamId, c.streamIDTransform id.toList = .ok (key id)
  eq_iff    : ∀ i j, key i = key j ↔ streamKey i = streamKey j

/-- `StreamIDFromBytes`. -/
def streamIDFromBytes (b : Bytes) : Except String StreamId :=
  if b.length = 16 then .ok (Vector.ofFn fun i => b.getD i 0)
  else .error ("invalid UUID (got " ++ toString b.length ++ " bytes)")

/-- The transformation that `decoder run` gives the server. -/
def runTransform (uuidString : StreamId → String) (b : Bytes) : Except String String := do
  let sid ← streamIDFromBytes b
  pure (streamToSchemaKey uuidString sid)

section Refinement

variable {c : ServerConf} {key : StreamId → String} {s : Server} {d : Decoder}

theorem Stands.withSchema (h : Stands key s d) (name : String) (r : RecordedProtoDescriptor) :
    Stands key (s.withSchema name r) (d.setSchema name r) where
  schemas name' := by
    rw [schema_withSchema, ← h.schemas]
    exact Function.update_apply ..
  streams := h.streams

theorem Stands.setStream (h : Stands key s d) (hc : SpelledBy c key) (id : StreamId)
    (v : Option RecordedStreamToSchema) :
    Stands key { s with streamToSchema := s.streamToSchema.setMem (key id) v }
      (d.setStream id v) where
  schemas := h.schemas
  streams id' := by
    rw [Decoder.lookup_setStream, h.streams]
    show _ = Function.update s.streamToSchema.inMemStore (key id) v (key id')
    rw [Function.update_apply]
    exact if_congr (hc.eq_iff id' id).symm rfl rfl

variable (hoff : c.enabled = false)

include hoff

/-- And its removal. -/
theorem delete_refines (hc : SpelledBy c key) (h : Stands key s d) (replies : RedisReplies)
    (id : StreamId) :
    Refines key ((deleteStreamToSchemaAssociation c replies id.toList).run s)
      ((JrtcSchemaDecoder.deleteStreamToSchemaAssociation id).run d) := by
  have hget := run_onStreams_of_ok (s := s)
    (run_get_disabled (c := c.streamToSchema) hoff (hc.transform id) replies.getStream _)
  have hdelete := run_onStreams_of_ok (s := s)
    (run_delete_disabled (c := c.streamToSchema) hoff (hc.transform id) replies.write _)
  rw [show (JrtcSchemaDecoder.deleteStreamToSchemaAssociation id).run d
    = JrtcSchemaDecoder.deleteStreamToSchemaAssociation id d from rfl,
    JrtcSchemaDecoder.deleteStreamToSchemaAssociation]
  show Refines key ((onStreams (get c.streamToSchema replies.getStream id.toList) >>= _).run s) _
  rw [run_bind_of_ok hget, ← h.streams]
  cases d.lookup id with
  | none => exact h
  | some _ =>
      show Refines key ((onStreams (delete c.streamToSchema replies.write id.toList)
        >>= _).run s) _
      rw [run_bind_of_ok hdelete]
      exact h.setStream hc id none

end Refinement

end JrtcDecoderStore
