import JrtController.SchemaDecoderProofs
import JrtController.RunProofs

/-! # Concurrent requests to the decoder

    Each access to a store takes the store's lock for itself.  A request that adds an
    association looks the stream up, looks the package up and writes, so other requests
    may come in between; the same goes for a removal.

    * `ServerStep.effect` — what one access does to the associations and the log;
    * `run_add`, `run_remove` — the steps of one request in a row do what the functions of
      `SchemaDecoderProofs` do at once;
    * `Acknowledged.step` — what is kept while no write replaces another pair;
    * `keepsPromises_iff_noneReplaced` — what was acknowledged holds until it is deleted iff
      no write replaces another pair;
    * `noneReplaced_of_agreed` — none does if requests that overlap name the same pair. -/

namespace JrtcDecoderServer

open JrtcStreamId JrtcCodeletSet JrtcSchemaDecoder Runs

/-! ## The server -/

/-- A request between two accesses to the stores. -/
inductive Pending where
  | add (streamID : StreamId) (r : RecordedStreamToSchema)
  | write (streamID : StreamId) (r : RecordedStreamToSchema)
  | delete (streamID : StreamId)

/-- What has happened to associations: a pair was acknowledged with `STATUS_OK`, or the
    entry was deleted. -/
inductive Entry where
  | acknowledged (streamID : StreamId) (r : RecordedStreamToSchema)
  | deleted (streamID : StreamId)

structure Server where
  decoder : Decoder
  pending : List Pending
  log     : List Entry

namespace Server

def init (d : Decoder) : Server := ⟨d, [], []⟩

/-- `AddStreamToSchemaAssociation`: `StreamToSchema.Get`. -/
def addGet (s : Server) (streamID : StreamId) (r : RecordedStreamToSchema) : Server :=
  match s.decoder.lookup streamID with
  | some current =>
    if current = r then { s with log := s.log ++ [.acknowledged streamID r] } else s
  | none => { s with pending := s.pending ++ [.add streamID r] }

/-- `AddStreamToSchemaAssociation`: `Schemas.Get`. -/
def addGetSchema (s : Server) (n : Nat) (streamID : StreamId) (r : RecordedStreamToSchema) :
    Server :=
  match s.decoder.schemas r.protoPackage with
  | none => { s with pending := s.pending.eraseIdx n }
  | some _ => { s with pending := s.pending.set n (.write streamID r) }

/-- `AddStreamToSchemaAssociation`: `StreamToSchema.Set`. -/
def addSet (s : Server) (n : Nat) (streamID : StreamId) (r : RecordedStreamToSchema) :
    Server where
  decoder := s.decoder.setStream streamID (some r)
  pending := s.pending.eraseIdx n
  log := s.log ++ [.acknowledged streamID r]

/-- `DeleteStreamToSchemaAssociation`: `StreamToSchema.Get`. -/
def deleteGet (s : Server) (streamID : StreamId) : Server :=
  match s.decoder.lookup streamID with
  | none => s
  | some _ => { s with pending := s.pending ++ [.delete streamID] }

/-- `DeleteStreamToSchemaAssociation`: `StreamToSchema.Delete`. -/
def deleteDelete (s : Server) (n : Nat) (streamID : StreamId) : Server where
  decoder := s.decoder.setStream streamID none
  pending := s.pending.eraseIdx n
  log := s.log ++ [.deleted streamID]

end Server

/-- The accesses to the stores; those of a request in progress name it by its place. -/
inductive Access where
  | addGet (streamID : StreamId) (r : RecordedStreamToSchema)
  | addGetSchema (n : Nat)
  | addSet (n : Nat)
  | deleteGet (streamID : StreamId)
  | deleteDelete (n : Nat)
  | setSchema (name : String) (r : RecordedProtoDescriptor)

/-- One access.  Packages are stored in between by `UpsertProtoPackage`. -/
inductive ServerStep : Server → Access → Server → Prop
  | addGet {s : Server} {streamID : StreamId} {r : RecordedStreamToSchema} :
      ServerStep s (.addGet streamID r) (s.addGet streamID r)
  | addGetSchema {s : Server} {n : Nat} {streamID : StreamId} {r : RecordedStreamToSchema} :
      s.pending[n]? = some (.add streamID r) →
      ServerStep s (.addGetSchema n) (s.addGetSchema n streamID r)
  | addSet {s : Server} {n : Nat} {streamID : StreamId} {r : RecordedStreamToSchema} :
      s.pending[n]? = some (.write streamID r) →
      ServerStep s (.addSet n) (s.addSet n streamID r)
  | deleteGet {s : Server} {streamID : StreamId} :
      ServerStep s (.deleteGet streamID) (s.deleteGet streamID)
  | deleteDelete {s : Server} {n : Nat} {streamID : StreamId} :
      s.pending[n]? = some (.delete streamID) →
      ServerStep s (.deleteDelete n) (s.deleteDelete n streamID)
  | setSchema {s : Server} {name : String} {r : RecordedProtoDescriptor} :
      ServerStep s (.setSchema name r) { s with decoder := s.decoder.setSchema name r }

/-! ## What an access can do -/

/-- The request adds an association, and has found none. -/
def Pending.adds : Pending → Option (StreamId × RecordedStreamToSchema)
  | .add streamID r => some (streamID, r)
  | .write streamID r => some (streamID, r)
  | .delete _ => none

/-- The additions in progress were in progress before, or one has just found nothing. -/
theorem ServerStep.adds_cases {s s' : Server} {l : Access} (hs : ServerStep s l s')
    {p : Pending} {x : StreamId × RecordedStreamToSchema} (hp : p ∈ s'.pending)
    (hx : p.adds = some x) :
    (∃ q ∈ s.pending, q.adds = some x)
      ∨ l = .addGet x.1 x.2 ∧ s.decoder.lookup x.1 = none := by
  cases hs with
  | @addGet streamID r =>
      rw [Server.addGet] at hp
      cases hlookup : s.decoder.lookup streamID with
      | some current =>
          rw [hlookup] at hp
          by_cases hr : current = r
          · simp only [if_pos hr] at hp
            exact Or.inl ⟨p, hp, hx⟩
          · simp only [if_neg hr] at hp
            exact Or.inl ⟨p, hp, hx⟩
      | none =>
          rw [hlookup] at hp
          rcases List.mem_append.mp hp with hp | hp
          · exact Or.inl ⟨p, hp, hx⟩
          · rw [List.mem_singleton.mp hp] at hx
            obtain rfl := Option.some.inj hx
            exact Or.inr ⟨rfl, hlookup⟩
  | @addGetSchema n streamID r hn =>
      rw [Server.addGetSchema] at hp
      cases hpkg : s.decoder.schemas r.protoPackage with
      | none =>
          rw [hpkg] at hp
          exact Or.inl ⟨p, List.mem_of_mem_eraseIdx hp, hx⟩
      | some _ =>
          rw [hpkg] at hp
          rcases List.mem_or_eq_of_mem_set hp with hp | rfl
          · exact Or.inl ⟨p, hp, hx⟩
          · exact Or.inl ⟨_, List.mem_of_getElem? hn, hx⟩
  | addSet => exact Or.inl ⟨p, List.mem_of_mem_eraseIdx hp, hx⟩
  | @deleteGet streamID =>
      rw [Server.deleteGet] at hp
      cases hlookup : s.decoder.lookup streamID with
      | none =>
          rw [hlookup] at hp
          exact Or.inl ⟨p, hp, hx⟩
      | some _ =>
          rw [hlookup] at hp
          rcases List.mem_append.mp hp with hp | hp
          · exact Or.inl ⟨p, hp, hx⟩
          · rw [List.mem_singleton.mp hp] at hx
            cases hx
  | deleteDelete => exact Or.inl ⟨p, List.mem_of_mem_eraseIdx hp, hx⟩
  | setSchema => exact Or.inl ⟨p, hp, hx⟩

/-- What an access does to the associations and the log.  A pair that is acknowledged was
    there, or is written. -/
inductive AccessEffect (s s' : Server) (l : Access) : Prop
  | quiet : (∀ id, s'.decoder.lookup id = s.decoder.lookup id) → s'.log = s.log →
      AccessEffect s s' l
  | acknowledged {streamID : StreamId} {r : RecordedStreamToSchema} :
      (s.decoder.lookup streamID = some r
        ∨ ∃ n, l = .addSet n ∧ s.pending[n]? = some (.write streamID r)) →
      (∀ id, s'.decoder.lookup id
        = if streamKey id = streamKey streamID then some r else s.decoder.lookup id) →
      s'.log = s.log ++ [.acknowledged streamID r] → AccessEffect s s' l
  | deleted {streamID : StreamId} :
      (∀ id, s'.decoder.lookup id
        = if streamKey id = streamKey streamID then none else s.decoder.lookup id) →
      s'.log = s.log ++ [.deleted streamID] → AccessEffect s s' l

theorem ServerStep.effect {s s' : Server} {l : Access} (hs : ServerStep s l s') :
    AccessEffect s s' l := by
  cases hs with
  | @addGet streamID r =>
      rw [Server.addGet]
      cases hlookup : s.decoder.lookup streamID with
      | some current =>
          by_cases hr : current = r
          · subst hr
            simp only [if_pos]
            refine .acknowledged (Or.inl hlookup) (fun id => ?_) rfl
            split_ifs with hkey
            · rw [← hlookup]
              exact s.decoder.lookup_congr hkey
            · rfl
          · simp only [if_neg hr]
            exact .quiet (fun _ => rfl) rfl
      | none => exact .quiet (fun _ => rfl) rfl
  | @addGetSchema n streamID r =>
      rw [Server.addGetSchema]
      cases s.decoder.schemas r.protoPackage <;> exact .quiet (fun _ => rfl) rfl
  | @addSet n streamID r hn =>
      exact .acknowledged (Or.inr ⟨n, rfl, hn⟩)
        (fun id => s.decoder.lookup_setStream streamID id (some r)) rfl
  | @deleteGet streamID =>
      rw [Server.deleteGet]
      cases s.decoder.lookup streamID <;> exact .quiet (fun _ => rfl) rfl
  | @deleteDelete n streamID =>
      exact .deleted (fun id => s.decoder.lookup_setStream streamID id none) rfl
  | setSchema => exact .quiet (fun _ => rfl) rfl

/-! ## One request alone -/

/-- What a request that runs at once does to the decoder, and whether it is acknowledged. -/
def Served (s s' : Server) (entry : List Entry) :
    EStateM.Result String Decoder Unit → Prop
  | .ok _ d => s' = ⟨d, s.pending, s.log ++ entry⟩
  | .error _ d => s' = ⟨d, s.pending, s.log⟩

/-- **AN ADD ON ITS OWN** does what the function does. -/
theorem run_add (s : Server) (streamID : StreamId) (r : RecordedStreamToSchema) :
    ∃ tr s', Run ServerStep s tr s' ∧ Served s s' [.acknowledged streamID r]
      ((addStreamToSchemaAssociation streamID r).run s.decoder) := by
  have hget := (@Run.start _ _ ServerStep s).next (@ServerStep.addGet s streamID r)
  rw [Server.addGet] at hget
  show ∃ tr s', Run ServerStep s tr s' ∧ Served s s' [.acknowledged streamID r]
    (addStreamToSchemaAssociation streamID r s.decoder)
  rw [addStreamToSchemaAssociation]
  cases hlookup : s.decoder.lookup streamID with
  | some current =>
      rw [hlookup] at hget
      by_cases hr : current = r
      · simp only [if_pos hr] at hget ⊢
        exact ⟨_, _, hget, rfl⟩
      · simp only [if_neg hr] at hget ⊢
        exact ⟨_, _, hget, rfl⟩
  | none =>
      rw [hlookup] at hget
      -- the request is the last one in progress
      have hlast : (s.pending ++ [Pending.add streamID r])[s.pending.length]?
          = some (.add streamID r) := List.getElem?_concat_length ..
      have hschema := hget.next (ServerStep.addGetSchema hlast)
      rw [Server.addGetSchema] at hschema
      cases hpkg : s.decoder.schemas r.protoPackage with
      | none =>
          simp only [hpkg] at hschema ⊢
          refine ⟨_, _, hschema, ?_⟩
          simp [Served, List.eraseIdx_append_of_length_le]
      | some descriptor =>
          simp only [hpkg] at hschema ⊢
          have hwrite : ((s.pending ++ [Pending.add streamID r]).set s.pending.length
              (.write streamID r))[s.pending.length]? = some (.write streamID r) := by
            simp
          have hset := hschema.next (ServerStep.addSet hwrite)
          refine ⟨_, _, hset, ?_⟩
          simp [Served, Server.addSet, List.eraseIdx_append_of_length_le,
            List.set_append_right]

/-- **A REMOVAL ON ITS OWN** does what the function does. -/
theorem run_remove (s : Server) (streamID : StreamId) : ∃ tr s' entry,
    Run ServerStep s tr s' ∧ Served s s' entry
      ((deleteStreamToSchemaAssociation streamID).run s.decoder) := by
  have hget := (@Run.start _ _ ServerStep s).next (@ServerStep.deleteGet s streamID)
  rw [Server.deleteGet] at hget
  show ∃ tr s' entry, Run ServerStep s tr s' ∧ Served s s' entry
    (deleteStreamToSchemaAssociation streamID s.decoder)
  rw [deleteStreamToSchemaAssociation]
  cases hlookup : s.decoder.lookup streamID with
  | none =>
      simp only [hlookup] at hget ⊢
      exact ⟨_, _, [], hget, by simp [Served]⟩
  | some current =>
      simp only [hlookup] at hget ⊢
      have hlast : (s.pending ++ [Pending.delete streamID])[s.pending.length]?
          = some (.delete streamID) := List.getElem?_concat_length ..
      have hdelete := hget.next (ServerStep.deleteDelete hlast)
      refine ⟨_, _, [.deleted streamID], hdelete, ?_⟩
      simp [Served, Server.deleteDelete, List.eraseIdx_append_of_length_le]

/-! ## Acknowledgements -/

/-- What an entry does to the pairs acknowledged for a key since its last deletion. -/
def Entry.count (key : StreamId) (acks : List RecordedStreamToSchema) :
    Entry → List RecordedStreamToSchema
  | .acknowledged streamID r => if streamKey streamID = key then acks ++ [r] else acks
  | .deleted streamID => if streamKey streamID = key then [] else acks

/-- The pairs acknowledged for a key since its last deletion. -/
def acksSince (key : StreamId) (log : List Entry) : List RecordedStreamToSchema :=
  log.foldl (Entry.count key) []

theorem acksSince_snoc (key : StreamId) (log : List Entry) (e : Entry) :
    acksSince key (log ++ [e]) = e.count key (acksSince key log) := by
  rw [acksSince, List.foldl_append]
  rfl

/-- What was acknowledged for a stream since its last deletion is what is looked up for
    it; so it was one pair. -/
def KeepsPromises (s : Server) : Prop :=
  ∀ (streamID : StreamId), ∀ r ∈ acksSince (streamKey streamID) s.log,
    s.decoder.lookup streamID = some r

/-- A write does not replace another pair. -/
def NoneReplaced (s : Server) : Access → Prop
  | .addSet n => ∀ streamID r, s.pending[n]? = some (.write streamID r) →
      s.decoder.lookup streamID = none ∨ s.decoder.lookup streamID = some r
  | _ => True

/-- What is kept while none is replaced.  A request that adds found no association, so one
    that is there now was acknowledged since. -/
structure Acknowledged (s : Server) : Prop where
  kept : KeepsPromises s
  new  : ∀ p ∈ s.pending, ∀ streamID r, p.adds = some (streamID, r) →
    ∀ current, s.decoder.lookup streamID = some current →
      current ∈ acksSince (streamKey streamID) s.log

/-- What an addition in progress finds was acknowledged since it looked. -/
theorem Acknowledged.current {s s' : Server} (h : Acknowledged s) {l : Access}
    (hs : ServerStep s l s') {p : Pending} (hp : p ∈ s'.pending) {streamID : StreamId}
    {r : RecordedStreamToSchema} (hadds : p.adds = some (streamID, r))
    {current : RecordedStreamToSchema} (hcurrent : s.decoder.lookup streamID = some current) :
    current ∈ acksSince (streamKey streamID) s.log := by
  rcases hs.adds_cases hp hadds with ⟨q, hq, hq'⟩ | ⟨-, hnone⟩
  · exact h.new q hq streamID r hq' current hcurrent
  · exact absurd (hnone.symm.trans hcurrent) (Option.some_ne_none current).symm

namespace Acknowledged

variable {s s' : Server} {l : Access}

theorem kept_step (h : Acknowledged s) (hC : NoneReplaced s l) (hs : ServerStep s l s') :
    KeepsPromises s' := by
  intro id x hx
  cases hs.effect with
  | quiet hlookup hlog =>
      rw [hlog] at hx
      rw [hlookup]
      exact h.kept id x hx
  | @acknowledged streamID r hfrom hlookup hlog =>
      rw [hlog, acksSince_snoc, Entry.count] at hx
      rw [hlookup]
      by_cases hkey : streamKey streamID = streamKey id
      · rw [if_pos hkey, List.mem_append, List.mem_singleton] at hx
        rw [if_pos hkey.symm]
        rcases hx with hold | rfl
        · -- what was acknowledged before is still there, so it is the same pair
          have hx := h.kept id x hold
          rw [← s.decoder.lookup_congr hkey] at hx
          have hfree : s.decoder.lookup streamID = none
              ∨ s.decoder.lookup streamID = some r := by
            rcases hfrom with hsome | ⟨n, rfl, hn⟩
            · exact Or.inr hsome
            · exact hC streamID r hn
          rcases hfree with hnone | hsome
          · exact absurd (hnone.symm.trans hx) (Option.some_ne_none x).symm
          · exact hsome.symm.trans hx
        · rfl
      · rw [if_neg hkey] at hx
        rw [if_neg (Ne.symm hkey)]
        exact h.kept id x hx
  | @deleted streamID hlookup hlog =>
      rw [hlog, acksSince_snoc, Entry.count] at hx
      by_cases hkey : streamKey streamID = streamKey id
      · rw [if_pos hkey] at hx
        exact absurd hx List.not_mem_nil
      · rw [if_neg hkey] at hx
        rw [hlookup, if_neg (Ne.symm hkey)]
        exact h.kept id x hx

theorem new_step (h : Acknowledged s) (hs : ServerStep s l s') {p : Pending}
    (hp : p ∈ s'.pending) {id : StreamId} {x : RecordedStreamToSchema}
    (hadds : p.adds = some (id, x)) {current : RecordedStreamToSchema}
    (hcurrent : s'.decoder.lookup id = some current) :
    current ∈ acksSince (streamKey id) s'.log := by
  cases hs.effect with
  | quiet hlookup hlog =>
      rw [hlookup] at hcurrent
      rw [hlog]
      exact h.current hs hp hadds hcurrent
  | @acknowledged streamID r hfrom hlookup hlog =>
      rw [hlookup] at hcurrent
      rw [hlog, acksSince_snoc, Entry.count]
      by_cases hkey : streamKey id = streamKey streamID
      · rw [if_pos hkey] at hcurrent
        rw [if_pos hkey.symm, List.mem_append, List.mem_singleton]
        exact Or.inr (Option.some.inj hcurrent).symm
      · rw [if_neg hkey] at hcurrent
        rw [if_neg (Ne.symm hkey)]
        exact h.current hs hp hadds hcurrent
  | @deleted streamID hlookup hlog =>
      rw [hlookup] at hcurrent
      by_cases hkey : streamKey id = streamKey streamID
      · rw [if_pos hkey] at hcurrent
        cases hcurrent
      · rw [if_neg hkey] at hcurrent
        rw [hlog, acksSince_snoc, Entry.count, if_neg (Ne.symm hkey)]
        exact h.current hs hp hadds hcurrent

theorem step (h : Acknowledged s) (hC : NoneReplaced s l) (hs : ServerStep s l s') :
    Acknowledged s' :=
  ⟨h.kept_step hC hs, fun _ hp _ _ hadds _ hcurrent => h.new_step hs hp hadds hcurrent⟩

/-- A write that replaces another pair breaks the promise made for that one. -/
theorem breaks (h : Acknowledged s) (hC : ¬ NoneReplaced s l)
    (hs : ServerStep s l s') : ¬ KeepsPromises s' := by
  cases hs with
  | @addSet n streamID r hn =>
      intro hkept
      refine hC fun id x hid => ?_
      obtain ⟨rfl, rfl⟩ := Pending.write.inj (Option.some.inj (hn.symm.trans hid))
      cases hcurrent : s.decoder.lookup streamID with
      | none => exact Or.inl rfl
      | some current =>
          have hold := h.new _ (List.mem_of_getElem? hn) streamID r rfl current hcurrent
          have hnow := hkept streamID current (by
            show current ∈ acksSince _ (s.log ++ [.acknowledged streamID r])
            rw [acksSince_snoc, Entry.count, if_pos rfl]
            exact List.mem_append_left _ hold)
          have hset : (s.addSet n streamID r).decoder.lookup streamID = some r := by
            show (s.decoder.setStream streamID (some r)).lookup streamID = some r
            rw [Decoder.lookup_setStream, if_pos rfl]
          exact Or.inr (hnow.symm.trans hset)
  | addGet => exact absurd trivial hC
  | addGetSchema => exact absurd trivial hC
  | deleteGet => exact absurd trivial hC
  | deleteDelete => exact absurd trivial hC
  | setSchema => exact absurd trivial hC

theorem init (d : Decoder) : Acknowledged (Server.init d) :=
  ⟨fun _ _ hx => absurd hx List.not_mem_nil, fun _ hp => absurd hp List.not_mem_nil⟩

end Acknowledged

/-- **ACKNOWLEDGEMENTS ARE KEPT** all along a run iff no write replaces another pair. -/
theorem keepsPromises_iff_noneReplaced {d : Decoder} {tr : List (Server × Access)}
    {s : Server} (h : Run ServerStep (Server.init d) tr s) :
    Along KeepsPromises tr s ↔ Meets NoneReplaced tr :=
  h.along_iff_meets (Acknowledged.init d) (fun _ hq => hq.kept)
    (fun hq hc hs => hq.step hc hs) (fun hq hc hs => hq.breaks hc hs)

/-- A decoder with one package. -/
def onePackage : Decoder := Decoder.empty.setSchema "package" ⟨0, []⟩

def sampleStream : StreamId := Vector.replicate 16 0

/-- One addition. -/
theorem keepsPromises_of_one : ∃ tr s, Run ServerStep (Server.init onePackage) tr s
    ∧ Along KeepsPromises tr s ∧ s.decoder.lookup sampleStream = some ⟨"message", "package"⟩ := by
  have hget := (@Run.start _ _ ServerStep (Server.init onePackage)).next
    (@ServerStep.addGet _ sampleStream ⟨"message", "package"⟩)
  have hschema := hget.next
    (@ServerStep.addGetSchema _ 0 sampleStream ⟨"message", "package"⟩ rfl)
  have hset := hschema.next (@ServerStep.addSet _ 0 sampleStream ⟨"message", "package"⟩ rfl)
  refine ⟨_, _, hset, (keepsPromises_iff_noneReplaced hset).mpr ?_, rfl⟩
  simp only [meets_snoc, meets_nil, NoneReplaced, true_and]
  rintro streamID r ⟨⟩
  exact Or.inl rfl

/-- Two additions of different pairs for one stream find nothing and write, and both are
    acknowledged. -/
theorem both_acknowledged : ∃ tr s, Run ServerStep (Server.init onePackage) tr s
    ∧ acksSince (streamKey sampleStream) s.log
        = [⟨"message", "package"⟩, ⟨"other message", "package"⟩]
    ∧ ¬ Along KeepsPromises tr s := by
  have hget := (@Run.start _ _ ServerStep (Server.init onePackage)).next
    (@ServerStep.addGet _ sampleStream ⟨"message", "package"⟩)
  have hget' := hget.next (@ServerStep.addGet _ sampleStream ⟨"other message", "package"⟩)
  have hschema := hget'.next
    (@ServerStep.addGetSchema _ 0 sampleStream ⟨"message", "package"⟩ rfl)
  have hschema' := hschema.next
    (@ServerStep.addGetSchema _ 1 sampleStream ⟨"other message", "package"⟩ rfl)
  have hset := hschema'.next
    (@ServerStep.addSet _ 0 sampleStream ⟨"message", "package"⟩ rfl)
  have hset' := hset.next
    (@ServerStep.addSet _ 0 sampleStream ⟨"other message", "package"⟩ rfl)
  refine ⟨_, _, hset', rfl, fun h => ?_⟩
  have hfirst := h.2 sampleStream ⟨"message", "package"⟩ List.mem_cons_self
  exact absurd (Option.some.inj hfirst) (by decide)

/-! ## Requests that agree -/

/-- An addition starts only while the others of its stream name the same pair. -/
def Agreed (s : Server) : Access → Prop
  | .addGet streamID r => ∀ p ∈ s.pending, ∀ id x, p.adds = some (id, x) →
      streamKey id = streamKey streamID → x = r
  | _ => True

/-- What is kept while additions agree. -/
structure OnePair (s : Server) : Prop where
  same : ∀ p ∈ s.pending, ∀ q ∈ s.pending, ∀ i x j y, p.adds = some (i, x) →
    q.adds = some (j, y) → streamKey i = streamKey j → x = y
  now  : ∀ p ∈ s.pending, ∀ i x, p.adds = some (i, x) →
    s.decoder.lookup i = none ∨ s.decoder.lookup i = some x

namespace OnePair

variable {s s' : Server}

theorem noneReplaced (h : OnePair s) (l : Access) : NoneReplaced s l := by
  cases l with
  | addSet n => exact fun streamID r hn => h.now _ (List.mem_of_getElem? hn) streamID r rfl
  | addGet => trivial
  | addGetSchema => trivial
  | deleteGet => trivial
  | deleteDelete => trivial
  | setSchema => trivial

theorem same_step (h : OnePair s) {l : Access} (hC : Agreed s l) (hs : ServerStep s l s')
    {p q : Pending} (hp : p ∈ s'.pending) (hq : q ∈ s'.pending)
    {x y : StreamId × RecordedStreamToSchema} (hx : p.adds = some x) (hy : q.adds = some y)
    (hkey : streamKey x.1 = streamKey y.1) : x.2 = y.2 := by
  rcases hs.adds_cases hp hx with ⟨p', hp', hx'⟩ | ⟨rfl, -⟩
  · rcases hs.adds_cases hq hy with ⟨q', hq', hy'⟩ | ⟨rfl, -⟩
    · exact h.same p' hp' q' hq' x.1 x.2 y.1 y.2 hx' hy' hkey
    · exact hC p' hp' x.1 x.2 hx' hkey
  · rcases hs.adds_cases hq hy with ⟨q', hq', hy'⟩ | ⟨hl, -⟩
    · exact (hC q' hq' y.1 y.2 hy' hkey.symm).symm
    · exact (Access.addGet.inj hl).2

theorem now_step (h : OnePair s) {l : Access} (hs : ServerStep s l s') {p : Pending}
    (hp : p ∈ s'.pending) {i : StreamId} {x : RecordedStreamToSchema}
    (hx : p.adds = some (i, x)) :
    s'.decoder.lookup i = none ∨ s'.decoder.lookup i = some x := by
  have hold : s.decoder.lookup i = none ∨ s.decoder.lookup i = some x := by
    rcases hs.adds_cases hp hx with ⟨q, hq, hq'⟩ | ⟨-, hnone⟩
    · exact h.now q hq i x hq'
    · exact Or.inl hnone
  cases hs.effect with
  | quiet hlookup =>
      rw [hlookup]
      exact hold
  | @acknowledged streamID r hfrom hlookup =>
      rw [hlookup]
      by_cases hkey : streamKey i = streamKey streamID
      · rw [if_pos hkey]
        rcases hfrom with hsome | ⟨n, rfl, hn⟩
        · rw [s.decoder.lookup_congr hkey, hsome] at hold
          exact hold
        · -- the addition that writes names the same pair
          rcases hs.adds_cases hp hx with ⟨q, hq, hq'⟩ | ⟨hl, -⟩
          · rw [h.same q hq _ (List.mem_of_getElem? hn) i x streamID r hq' rfl hkey]
            exact Or.inr rfl
          · cases hl
      · rw [if_neg hkey]
        exact hold
  | @deleted streamID hlookup =>
      rw [hlookup]
      by_cases hkey : streamKey i = streamKey streamID
      · exact Or.inl (if_pos hkey)
      · rw [if_neg hkey]
        exact hold

theorem step (h : OnePair s) {l : Access} (hC : Agreed s l) (hs : ServerStep s l s') :
    OnePair s' :=
  ⟨fun _ hp _ hq _ _ _ _ hx hy hkey => h.same_step hC hs hp hq hx hy hkey,
    fun _ hp _ _ hx => h.now_step hs hp hx⟩

end OnePair

/-- **NOTHING IS REPLACED** in a run in which additions for one stream that overlap name the
    same pair. -/
theorem noneReplaced_of_agreed {d : Decoder} {tr : List (Server × Access)} {s : Server}
    (h : Run ServerStep (Server.init d) tr s) (hC : Meets Agreed tr) : Meets NoneReplaced tr := by
  have hinit : OnePair (Server.init d) :=
    ⟨fun _ hp => absurd hp List.not_mem_nil, fun _ hp => absurd hp List.not_mem_nil⟩
  have halong := h.along_of_meets hinit (fun hq hc hs => hq.step hc hs) hC
  exact fun x hx => (halong.1 x hx).noneReplaced x.2

end JrtcDecoderServer
