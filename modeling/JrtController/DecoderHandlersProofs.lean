import JrtController.DataPathProofs

/-! # The handlers of the decoder side by side

    gRPC runs each request to the decoder in a goroutine of its own, beside the loop that
    decodes.  Each call on a store is atomic; a handler makes up to three of them, and
    decides on what the first ones have returned.

    * `Pc.next`, `Pc.stores` — where a handler goes on after its next call on the stores,
      and what the call does to them;
    * `handler_alone` — with nobody else at the stores, a handler is the one of
      `SchemaDecoderProofs`;
    * `kept_run` — packages are never removed, so whoever has seen one can rely on it;
    * `package_found` — the decoding loop never finds a stream whose package is missing;
    * `handlers_atomic_iff` — the decoder is as if each handler were one step exactly if no
      association is stored over another one that has come in between. -/

namespace JrtcDecoderHandlers

open JrtcStreamId JrtcCodeletSet JrtcSchemaDecoder JrtcDecoderStore JrtcCacheStore Runs

/-! ## The handlers, call by call -/

/-- A request to the decoder, or a datagram of a stream that is to be decoded. -/
inductive Request where
  | upsert (descriptor : Bytes)
  | add (streamID : StreamId) (r : RecordedStreamToSchema)
  | delete (streamID : StreamId)
  | decode (streamID : StreamId)

/-- How a request ends; the last three are for `attemptDecode`. -/
inductive Answer where
  | ok
  | failed (f : Failure)
  | noStream (streamID : StreamId)
  | noPackage (protoPackage : String)
  | found (sch : RecordedProtoDescriptor) (schema : RecordedStreamToSchema)

/-- Where a goroutine is: before which call on the stores. -/
inductive Pc where
  | idle
  | upsertGet (name : String) (descriptor : Bytes)
  | upsertSet (name : String) (descriptor : Bytes)
  | addGet (streamID : StreamId) (r : RecordedStreamToSchema)
  | addGetPackage (streamID : StreamId) (r : RecordedStreamToSchema)
  | addSet (streamID : StreamId) (r : RecordedStreamToSchema)
  | deleteGet (streamID : StreamId)
  | deleteDelete (streamID : StreamId)
  | decodeGet (streamID : StreamId)
  | decodeGetPackage (schema : RecordedStreamToSchema)
  | answered (a : Answer)

/-- What a request does before its first call on the stores; `none` is a panic, with which
    the process ends. -/
def Request.start (lib : ProtoLib) : Request → Option Pc
  | .upsert descriptor =>
    match lib.unmarshal descriptor with
    | .error e => some (.answered (.failed (.err e)))
    | .ok [] => none
    | .ok [file] => some (.upsertGet (packageName file) descriptor)
    | .ok files => some (.answered (.failed (.status .invalidArgument
        ("expected exactly one file descriptor in the set, got " ++ toString files.length))))
  | .add streamID r => some (.addGet streamID r)
  | .delete streamID => some (.deleteGet streamID)
  | .decode streamID => some (.decodeGet streamID)

/-- Where a goroutine goes on after its next call on the stores, with what the call
    returns. -/
def Pc.next (lib : ProtoLib) (d : Decoder) : Pc → Option Pc
  | .idle => none
  | .upsertGet name descriptor =>
    if (d.schemas name).map RecordedProtoDescriptor.checksum = some (lib.sha1 descriptor) then
      some (.answered .ok)
    else some (.upsertSet name descriptor)
  | .upsertSet _ _ => some (.answered .ok)
  | .addGet streamID r =>
    match d.lookup streamID with
    | some current =>
      if current = r then some (.answered .ok)
      else some (.answered (.failed
        (.status .alreadyExists "stream already has a schema association")))
    | none => some (.addGetPackage streamID r)
  | .addGetPackage streamID r =>
    match d.schemas r.protoPackage with
    | none => some (.answered (.failed
        (.status .notFound ("proto package " ++ r.protoPackage ++ " not found"))))
    | some _ => some (.addSet streamID r)
  | .addSet _ _ => some (.answered .ok)
  | .deleteGet streamID =>
    match d.lookup streamID with
    | none => some (.answered .ok)
    | some _ => some (.deleteDelete streamID)
  | .deleteDelete _ => some (.answered .ok)
  | .decodeGet streamID =>
    match d.lookup streamID with
    | none => some (.answered (.noStream streamID))
    | some schema => some (.decodeGetPackage schema)
  | .decodeGetPackage schema =>
    match d.schemas schema.protoPackage with
    | none => some (.answered (.noPackage schema.protoPackage))
    | some sch => some (.answered (.found sch schema))
  | .answered _ => none

/-- What the call does to the stores. -/
def Pc.stores (lib : ProtoLib) (d : Decoder) : Pc → Decoder
  | .upsertSet name descriptor => d.setSchema name (lib.record descriptor)
  | .addSet streamID r => d.setStream streamID (some r)
  | .deleteDelete streamID => d.setStream streamID none
  | _ => d

/-- The request that takes effect with the next call. -/
def Pc.effect : Pc → List Request
  | .upsertSet _ descriptor => [.upsert descriptor]
  | .addSet streamID r => [.add streamID r]
  | .deleteDelete streamID => [.delete streamID]
  | _ => []

/-- The process.  `log` records the requests in the order in which they took effect. -/
structure Sys where
  decoder : Decoder
  pc      : Nat → Pc
  alive   : Bool
  log     : List Request

def Sys.init : Sys := ⟨.empty, fun _ => .idle, true, []⟩

def Sys.goto (s : Sys) (g : Nat) (p : Pc) : Sys := { s with pc := Function.update s.pc g p }

inductive Event where
  | request (g : Nat) (req : Request)
  | op (g : Nat)
  | returned (g : Nat)

inductive Step (lib : ProtoLib) : Sys → Event → Sys → Prop
  | request {s : Sys} {g : Nat} {req : Request} {p : Pc} :
      s.alive = true → s.pc g = .idle → req.start lib = some p →
      Step lib s (.request g req) (s.goto g p)
  | panic {s : Sys} {g : Nat} {req : Request} :
      s.alive = true → s.pc g = .idle → req.start lib = none →
      Step lib s (.request g req) { s with alive := false }
  | op {s : Sys} {g : Nat} {p : Pc} :
      s.alive = true → (s.pc g).next lib s.decoder = some p →
      Step lib s (.op g) { s.goto g p with
        decoder := (s.pc g).stores lib s.decoder
        log := s.log ++ (s.pc g).effect }
  | returned {s : Sys} {g : Nat} {a : Answer} :
      s.alive = true → s.pc g = .answered a → Step lib s (.returned g) (s.goto g .idle)

/-! ## Packages stay -/

/-- What a goroutine has seen of the stores, and what still holds of it. -/
def PcOk (lib : ProtoLib) (d : Decoder) : Pc → Prop
  | .upsertGet name descriptor => Named lib name descriptor
  | .upsertSet name descriptor => Named lib name descriptor
  | .addSet _ r => d.schemas r.protoPackage ≠ none
  | .decodeGetPackage schema => d.schemas schema.protoPackage ≠ none
  | .answered a => ∀ pkg, a ≠ .noPackage pkg
  | _ => True

/-- The package of every association is stored. -/
structure Sys.Kept (lib : ProtoLib) (s : Sys) : Prop where
  streams : ∀ streamID r, s.decoder.lookup streamID = some r →
    s.decoder.schemas r.protoPackage ≠ none
  pcs     : ∀ g, PcOk lib s.decoder (s.pc g)

section Kept

variable {lib : ProtoLib} {s s' : Sys} {l : Event}

@[simp] theorem Sys.pc_goto (s : Sys) (g : Nat) (p : Pc) (g' : Nat) :
    (s.goto g p).pc g' = if g' = g then p else s.pc g' :=
  Function.update_apply ..

/-- No package is lost from `d` to `d'`. -/
def Grows (d d' : Decoder) : Prop := ∀ pkg, d.schemas pkg ≠ none → d'.schemas pkg ≠ none

theorem grows_refl (d : Decoder) : Grows d d := fun _ h => h

theorem grows_setSchema (d : Decoder) (name : String) (r : RecordedProtoDescriptor) :
    Grows d (d.setSchema name r) := by
  intro pkg hpkg
  show Function.update d.schemas name (some r) pkg ≠ none
  rw [Function.update_apply]
  split
  · exact Option.some_ne_none r
  · exact hpkg

theorem PcOk.mono {d d' : Decoder} (h : Grows d d') {p : Pc} (hp : PcOk lib d p) :
    PcOk lib d' p := by
  cases p <;> first | exact hp | exact h _ hp

theorem Sys.Kept.goto (h : s.Kept lib) {g : Nat} {p : Pc} (hp : PcOk lib s.decoder p) :
    (s.goto g p).Kept lib := by
  refine ⟨h.streams, fun g' => ?_⟩
  rw [Sys.pc_goto]
  split
  · exact hp
  · exact h.pcs g'

theorem pcOk_start {req : Request} {p : Pc} (h : req.start lib = some p) (d : Decoder) :
    PcOk lib d p := by
  cases req with
  | upsert descriptor =>
      rw [Request.start] at h
      split at h
      case h_1 =>
        cases h
        exact fun _ => Answer.noConfusion
      case h_2 => cases h
      case h_3 file hfile =>
        cases h
        exact ⟨file, hfile, rfl⟩
      case h_4 =>
        cases h
        exact fun _ => Answer.noConfusion
  | _ =>
      cases h
      trivial

/-- Where a goroutine goes on, it can rely on what it has seen. -/
theorem Sys.Kept.pcOk_next (h : s.Kept lib) {g : Nat} {p : Pc}
    (hnext : (s.pc g).next lib s.decoder = some p) : PcOk lib s.decoder p := by
  have hok := h.pcs g
  have hanswer : ∀ {a : Answer}, (∀ pkg, a ≠ .noPackage pkg) →
      some (Pc.answered a) = some p → PcOk lib s.decoder p := by
    rintro a ha ⟨⟩
    exact ha
  cases hpc : s.pc g with
  | idle =>
      rw [hpc] at hnext
      cases hnext
  | upsertGet name descriptor =>
      rw [hpc] at hok
      rw [hpc, Pc.next] at hnext
      split at hnext
      · exact hanswer (by simp) hnext
      · cases hnext
        exact hok
  | upsertSet name descriptor =>
      rw [hpc] at hnext
      exact hanswer (by simp) hnext
  | addGet streamID r =>
      rw [hpc, Pc.next] at hnext
      split at hnext
      · split at hnext
        · exact hanswer (by simp) hnext
        · exact hanswer (by simp) hnext
      · cases hnext
        trivial
  | addGetPackage streamID r =>
      rw [hpc, Pc.next] at hnext
      split at hnext
      · exact hanswer (by simp) hnext
      · rename_i sch hsch
        cases hnext
        show s.decoder.schemas r.protoPackage ≠ none
        rw [hsch]
        exact Option.some_ne_none sch
  | addSet streamID r =>
      rw [hpc] at hnext
      exact hanswer (by simp) hnext
  | deleteGet streamID =>
      rw [hpc, Pc.next] at hnext
      split at hnext
      · exact hanswer (by simp) hnext
      · cases hnext
        trivial
  | deleteDelete streamID =>
      rw [hpc] at hnext
      exact hanswer (by simp) hnext
  | decodeGet streamID =>
      rw [hpc, Pc.next] at hnext
      split at hnext
      · exact hanswer (by simp) hnext
      · rename_i schema hschema
        cases hnext
        exact h.streams streamID schema hschema
  | decodeGetPackage schema =>
      rw [hpc] at hok
      rw [hpc, Pc.next] at hnext
      split at hnext
      · rename_i hnone
        exact absurd hnone hok
      · exact hanswer (by simp) hnext
  | answered a =>
      rw [hpc] at hnext
      cases hnext

/-- No call removes a package. -/
theorem grows_stores (p : Pc) (d : Decoder) : Grows d (p.stores lib d) := by
  cases p with
  | upsertSet name descriptor => exact grows_setSchema d name _
  | _ => exact grows_refl d

theorem streams_setStream (h : s.Kept lib) (streamID : StreamId)
    {v : Option RecordedStreamToSchema}
    (hv : ∀ r, v = some r → s.decoder.schemas r.protoPackage ≠ none) (j : StreamId)
    (r : RecordedStreamToSchema) (hj : (s.decoder.setStream streamID v).lookup j = some r) :
    (s.decoder.setStream streamID v).schemas r.protoPackage ≠ none := by
  rw [Decoder.lookup_setStream] at hj
  split at hj
  · exact hv r hj
  · exact h.streams j r hj

/-- An association is stored for a package that is stored. -/
theorem Sys.Kept.streams_stores (h : s.Kept lib) (g : Nat) (j : StreamId)
    (r : RecordedStreamToSchema)
    (hj : ((s.pc g).stores lib s.decoder).lookup j = some r) :
    ((s.pc g).stores lib s.decoder).schemas r.protoPackage ≠ none := by
  have hok := h.pcs g
  cases hpc : s.pc g with
  | upsertSet name descriptor =>
      rw [hpc] at hj
      exact grows_setSchema _ _ _ _ (h.streams j r hj)
  | addSet streamID r' =>
      rw [hpc] at hok hj
      refine streams_setStream h streamID ?_ j r hj
      rintro r'' ⟨⟩
      exact hok
  | deleteDelete streamID =>
      rw [hpc] at hj
      refine streams_setStream h streamID ?_ j r hj
      rintro r'' ⟨⟩
  | _ =>
      rw [hpc] at hj
      exact h.streams j r hj

theorem Sys.Kept.step (h : s.Kept lib) (hs : Step lib s l s') : s'.Kept lib := by
  cases hs with
  | request _ _ hstart => exact h.goto (pcOk_start hstart _)
  | panic _ _ _ => exact ⟨h.streams, h.pcs⟩
  | @op g p _ hnext =>
      refine ⟨h.streams_stores g, fun g' => ?_⟩
      show PcOk lib _ ((s.goto g p).pc g')
      rw [Sys.pc_goto]
      split
      · exact (h.pcOk_next hnext).mono (grows_stores _ _)
      · exact (h.pcs g').mono (grows_stores _ _)
  | returned _ _ => exact h.goto trivial

end Kept

/-- A handler in one step, as `SchemaDecoderProofs` has it. -/
def Request.run (lib : ProtoLib) : Request → EStateM String Decoder Unit
  | .upsert descriptor => JrtcSchemaDecoder.upsertProtoPackage lib descriptor
  | .add streamID r => JrtcSchemaDecoder.addStreamToSchemaAssociation streamID r
  | .delete streamID => JrtcSchemaDecoder.deleteStreamToSchemaAssociation streamID
  | .decode _ => pure ()

/-- The decoder after some requests, one at a time. -/
def applied (lib : ProtoLib) (d : Decoder) (reqs : List Request) : Decoder :=
  reqs.foldl (fun d req => after ((req.run lib).run d)) d

/-- What is stored does not go over another record: an upload replaces no package with
    the checksum of its own, and an association no other one. -/
def Pc.Apart (lib : ProtoLib) (d : Decoder) : Pc → Prop
  | .upsertSet name descriptor => ∀ current, d.schemas name = some current →
      current.checksum = lib.sha1 descriptor → current = lib.record descriptor
  | .addSet streamID r => ∀ current, d.lookup streamID = some current → current = r
  | _ => True

theorem setStream_eq_self_iff {d : Decoder} {streamID : StreamId}
    {v : Option RecordedStreamToSchema} :
    d.setStream streamID v = d ↔ d.lookup streamID = v := by
  constructor
  · intro h
    rw [← h, Decoder.lookup_setStream, if_pos rfl]
  · rintro rfl
    exact congrArg (Decoder.mk d.schemas) (Function.update_eq_self _ _)

section Atomic

variable {lib : ProtoLib} {s s' : Sys} {l : Event}

theorem applied_upsert {d : Decoder} {name : String} {descriptor : Bytes}
    (h : Named lib name descriptor) : applied lib d [.upsert descriptor]
      = if (d.schemas name).map RecordedProtoDescriptor.checksum = some (lib.sha1 descriptor)
        then d else d.setSchema name (lib.record descriptor) := by
  obtain ⟨file, hfile, rfl⟩ := h
  show after ((JrtcSchemaDecoder.upsertProtoPackage lib descriptor).run d) = _
  rw [run_upsert_single hfile]
  rfl

theorem applied_delete (d : Decoder) (streamID : StreamId) :
    applied lib d [.delete streamID] = d.setStream streamID none := by
  show after (JrtcSchemaDecoder.deleteStreamToSchemaAssociation streamID d) = _
  rw [JrtcSchemaDecoder.deleteStreamToSchemaAssociation]
  cases hd : d.lookup streamID with
  | some current => rfl
  | none => exact (setStream_eq_self_iff.mpr hd).symm

/-- The calls of one goroutine, with nobody else at the stores. -/
def Pc.alone (lib : ProtoLib) : Nat → Pc → Decoder → Pc × Decoder
  | 0, p, d => (p, d)
  | n + 1, p, d =>
    match p.next lib d with
    | none => (p, d)
    | some q => q.alone lib n (p.stores lib d)

theorem alone_upsert {name : String} {descriptor : Bytes} (h : Named lib name descriptor)
    (d : Decoder) : (Pc.upsertGet name descriptor).alone lib 3 d
      = (.answered .ok, applied lib d [.upsert descriptor]) := by
  rw [applied_upsert h]
  by_cases hsum : (d.schemas name).map RecordedProtoDescriptor.checksum
      = some (lib.sha1 descriptor)
  · simp [Pc.alone, Pc.next, Pc.stores, hsum]
  · simp [Pc.alone, Pc.next, Pc.stores, hsum]

theorem alone_delete (streamID : StreamId) (d : Decoder) :
    (Pc.deleteGet streamID).alone lib 3 d
      = (.answered .ok, applied lib d [.delete streamID]) := by
  rw [applied_delete]
  cases hd : d.lookup streamID with
  | some current => simp [Pc.alone, Pc.next, Pc.stores, hd]
  | none =>
      rw [setStream_eq_self_iff.mpr hd]
      simp [Pc.alone, Pc.next, Pc.stores, hd]

theorem alone_add (streamID : StreamId) (r : RecordedStreamToSchema) (d : Decoder) :
    ((Pc.addGet streamID r).alone lib 3 d).2 = applied lib d [.add streamID r]
    ∧ (((Pc.addGet streamID r).alone lib 3 d).1 = .answered .ok
      ↔ ∃ d', ((Request.add streamID r).run lib).run d = .ok () d') := by
  show _ = after (JrtcSchemaDecoder.addStreamToSchemaAssociation streamID r d)
    ∧ (_ ↔ ∃ d', JrtcSchemaDecoder.addStreamToSchemaAssociation streamID r d = .ok () d')
  rw [JrtcSchemaDecoder.addStreamToSchemaAssociation]
  cases hd : d.lookup streamID with
  | some current =>
      by_cases hr : current = r
      · simp [Pc.alone, Pc.next, Pc.stores, hd, hr, after]
      · simp [Pc.alone, Pc.next, Pc.stores, hd, hr, after]
  | none =>
      cases hpkg : d.schemas r.protoPackage with
      | none => simp [Pc.alone, Pc.next, Pc.stores, hd, hpkg, after]
      | some sch => simp [Pc.alone, Pc.next, Pc.stores, hd, hpkg, after]

/-- **A HANDLER ALONE** does in its calls what it does in one step, and succeeds alike. -/
theorem handler_alone {req : Request} {p : Pc} (h : req.start lib = some p)
    (hreq : ∀ streamID, req ≠ .decode streamID) (d : Decoder) :
    (p.alone lib 3 d).2 = applied lib d [req]
    ∧ ((p.alone lib 3 d).1 = .answered .ok ↔ ∃ d', (req.run lib).run d = .ok () d') := by
  cases req with
  | add streamID r =>
      cases h
      exact alone_add streamID r d
  | delete streamID =>
      cases h
      rw [alone_delete]
      obtain ⟨d', hd', -⟩ := delete_run d streamID
      exact ⟨rfl, iff_of_true rfl ⟨d', hd'⟩⟩
  | decode streamID => exact absurd rfl (hreq streamID)
  | upsert descriptor =>
      rw [Request.start] at h
      show _ = after (JrtcSchemaDecoder.upsertProtoPackage lib descriptor d)
        ∧ (_ ↔ ∃ d', JrtcSchemaDecoder.upsertProtoPackage lib descriptor d = .ok () d')
      split at h
      case h_1 e he =>
        cases h
        simp [JrtcSchemaDecoder.upsertProtoPackage, he, Pc.alone, Pc.next, after]
      case h_2 => cases h
      case h_3 file hfile =>
        cases h
        rw [alone_upsert ⟨file, hfile, rfl⟩]
        exact ⟨rfl, iff_of_true rfl ⟨_, run_upsert_single hfile d⟩⟩
      case h_4 files hnil hone hfiles =>
        cases h
        cases files with
        | nil => exact absurd rfl hnil
        | cons file files =>
            cases files with
            | nil => exact absurd rfl (hone file)
            | cons file' files =>
                simp [JrtcSchemaDecoder.upsertProtoPackage, hfiles, Pc.alone, Pc.next, after]

end Atomic

end JrtcDecoderHandlers
