import JrtController.CodeletSetProofs
import JrtController.RunProofs

/-! # The store of the decoder

    `cache.Store` keeps each value twice, in a Go map and in Redis.  `Set` and `Delete`
    change the map first and do not take the change back if Redis answers with an error;
    `Get` fills the map from Redis.

    * `Store.view` — what a `Get` that Redis answers returns, `get_view`;
    * `view_set_error`, `view_delete_error` — what a failed call leaves behind;
    * `shows_iff_harmless` — `Get` returns the value of the last call that succeeded, all
      along a run, iff no failed call meets a state in which it is seen;
    * `redisView_of_set` — what another process finds is the copy that `encoding/json`
      carries. -/

namespace JrtcCacheStore

open JrtcCodeletSet Runs

/-! ## The store -/

/-- `encoding/json` at the type of a store. -/
structure Json (T : Type) where
  marshal   : T → Except String Bytes
  unmarshal : Bytes → Except String T

/-- `encoding/json` carries of each value what `exported` keeps. -/
def Json.Carries {T : Type} (j : Json T) (exported : T → T) : Prop :=
  ∀ v, ∃ b, j.marshal v = .ok b ∧ j.unmarshal b = .ok (exported v)

/-- What a `Store` is made of, its data apart. -/
structure StoreConf (TKey T : Type) where
  /-- `client.opts.enabled` -/
  enabled        : Bool
  keyTransformer : TKey → Except String String
  json           : Json T

/-- How Redis answers a command that writes.  A command that ends in an error may have
    been carried out. -/
inductive Reply where
  | ok
  | failed (err : String) (carriedOut : Bool)
  deriving DecidableEq

def Reply.carriedOut : Reply → Bool
  | .ok => true
  | .failed _ carriedOut => carriedOut

/-- `Store`, with the entries of Redis under its keys. -/
structure Store (T : Type) where
  inMemStore : String → Option T
  redis      : String → Option Bytes

variable {TKey T : Type}

namespace Store

def empty : Store T := ⟨fun _ => none, fun _ => none⟩

def setMem (s : Store T) (queryKey : String) (value : Option T) : Store T :=
  { s with inMemStore := Function.update s.inMemStore queryKey value }

/-- Redis is sent `SET` or, with `none`, `DEL`. -/
def write (s : Store T) (reply : Reply) (queryKey : String) (b : Option Bytes) : Store T :=
  if reply.carriedOut then { s with redis := Function.update s.redis queryKey b } else s

end Store

/-- `.Err()` of a reply. -/
def Reply.result (reply : Reply) (s : Store T) : EStateM.Result String (Store T) Unit :=
  match reply with
  | .ok => .ok () s
  | .failed err _ => .error err s

variable (c : StoreConf TKey T)

/-- `Store.Get`; `redisErr` is the error with which Redis answers, if any. -/
def get (redisErr : Option String) (key : TKey) : EStateM String (Store T) (Option T) :=
  fun s =>
    match c.keyTransformer key with
    | .error err => .error err s
    | .ok queryKey =>
      match s.inMemStore queryKey with
      | some current => .ok (some current) s
      | none =>
        if c.enabled = false then .ok none s
        else
          match redisErr with
          | some err => .error err s
          | none =>
            match s.redis queryKey with
            | none => .ok none s
            | some out =>
              match c.json.unmarshal out with
              | .error err => .error err s
              | .ok ret => .ok (some ret) (s.setMem queryKey (some ret))

/-- `Store.Set`. -/
def set (reply : Reply) (key : TKey) (value : T) : EStateM String (Store T) Unit :=
  fun s =>
    match c.keyTransformer key with
    | .error err => .error err s
    | .ok queryKey =>
      let s := s.setMem queryKey (some value)
      if c.enabled = false then .ok () s
      else
        match c.json.marshal value with
        | .error err => .error err s
        | .ok b => reply.result (s.write reply queryKey (some b))

/-- `Store.Delete`. -/
def delete (reply : Reply) (key : TKey) : EStateM String (Store T) Unit :=
  fun s =>
    match c.keyTransformer key with
    | .error err => .error err s
    | .ok queryKey =>
      let s := s.setMem queryKey none
      if c.enabled = false then .ok () s
      else reply.result (s.write reply queryKey none)

/-! ## What `Get` returns -/

namespace Store

/-- What Redis holds under a key. -/
def redisView (s : Store T) (queryKey : String) : Except String (Option T) :=
  match s.redis queryKey with
  | none => .ok none
  | some out => (c.json.unmarshal out).map some

/-- What a `Get` that Redis answers returns. -/
def view (s : Store T) (queryKey : String) : Except String (Option T) :=
  match s.inMemStore queryKey with
  | some current => .ok (some current)
  | none => s.redisView c queryKey

end Store

/-- The state a call leaves, whether it fails or not. -/
def after {ε σ α : Type} : EStateM.Result ε σ α → σ
  | .ok _ s => s
  | .error _ s => s

variable {c} {s s' : Store T} {key : TKey} {queryKey k : String}

theorem view_of_mem {v : T} (h : s.inMemStore k = some v) : s.view c k = .ok (some v) := by
  rw [Store.view, h]

theorem view_of_not_mem (h : s.inMemStore k = none) : s.view c k = s.redisView c k := by
  rw [Store.view, h]

theorem redisView_of_none (h : s.redis k = none) : s.redisView c k = .ok none := by
  rw [Store.redisView, h]

theorem redisView_of_some {out : Bytes} (h : s.redis k = some out) :
    s.redisView c k = (c.json.unmarshal out).map some := by
  rw [Store.redisView, h]

/-- A view depends only on what the store holds under the key. -/
theorem view_congr (hmem : s.inMemStore k = s'.inMemStore k) (hredis : s.redis k = s'.redis k) :
    s.view c k = s'.view c k := by
  rw [Store.view, Store.view, Store.redisView, Store.redisView, hmem, hredis]

/-- A process whose map does not hold the key sees what Redis holds. -/
theorem view_of_redis_eq (hmem : s.inMemStore k = none) (hredis : s.redis = s'.redis) :
    s.view c k = s'.redisView c k := by
  rw [view_of_not_mem hmem, Store.redisView, Store.redisView, hredis]

theorem inMemStore_setMem_self (s : Store T) (k : String) (v : Option T) :
    (s.setMem k v).inMemStore k = v :=
  Function.update_self ..

theorem inMemStore_write (s : Store T) (reply : Reply) (k : String) (b : Option Bytes) :
    (s.write reply k b).inMemStore = s.inMemStore := by
  rw [Store.write]
  split <;> rfl

theorem redis_write (s : Store T) (reply : Reply) (queryKey : String) (b : Option Bytes)
    (k : String) : (s.write reply queryKey b).redis k
      = if k = queryKey ∧ reply.carriedOut then b else s.redis k := by
  rw [Store.write]
  cases reply.carriedOut with
  | false => simp
  | true => simp [Function.update_apply]

/-- The entries under other keys are not touched. -/
theorem view_setMem_of_ne (s : Store T) (v : Option T) (h : k ≠ queryKey) :
    (s.setMem queryKey v).view c k = s.view c k :=
  view_congr (Function.update_of_ne h ..) rfl

theorem view_write_of_ne (s : Store T) (v : Option T) (reply : Reply) (b : Option Bytes)
    (h : k ≠ queryKey) :
    ((s.setMem queryKey v).write reply queryKey b).view c k = s.view c k := by
  rw [← view_setMem_of_ne (c := c) s v h]
  refine view_congr (by rw [inMemStore_write]) ?_
  rw [redis_write, if_neg fun hk => h hk.1]

theorem after_result (reply : Reply) (s : Store T) : after (reply.result s) = s := by
  cases reply <;> rfl

/-! ## Without Redis -/

section Disabled

variable (hoff : c.enabled = false)

include hoff

theorem run_get_disabled (hkey : c.keyTransformer key = .ok queryKey) (redisErr : Option String)
    (s : Store T) : (get c redisErr key).run s = .ok (s.inMemStore queryKey) s := by
  rw [EStateM.run, get, hkey]
  show (match s.inMemStore queryKey with
    | some current => _
    | none => if c.enabled = false then _ else _) = _
  cases s.inMemStore queryKey with
  | some current => rfl
  | none => exact if_pos hoff

theorem run_set_disabled (hkey : c.keyTransformer key = .ok queryKey) (reply : Reply) (v : T)
    (s : Store T) : (set c reply key v).run s = .ok () (s.setMem queryKey (some v)) := by
  rw [EStateM.run, set, hkey]
  exact if_pos hoff

theorem run_delete_disabled (hkey : c.keyTransformer key = .ok queryKey) (reply : Reply)
    (s : Store T) : (delete c reply key).run s = .ok () (s.setMem queryKey none) := by
  rw [EStateM.run, delete, hkey]
  exact if_pos hoff

end Disabled

/-! ## What the calls leave

    With Redis enabled. -/

section Enabled

variable (hon : c.enabled = true)

include hon

theorem not_disabled : ¬ c.enabled = false := by
  rw [hon]
  exact Bool.noConfusion

/-- `Set` past the map. -/
theorem run_set (hkey : c.keyTransformer key = .ok queryKey) (reply : Reply) (v : T)
    (s : Store T) : (set c reply key v).run s
      = match c.json.marshal v with
        | .error err => .error err (s.setMem queryKey (some v))
        | .ok b =>
          reply.result ((s.setMem queryKey (some v)).write reply queryKey (some b)) := by
  rw [EStateM.run, set, hkey]
  exact if_neg (not_disabled hon)

/-- A `Set` that Redis answers returns. -/
theorem exists_run_set (hkey : c.keyTransformer key = .ok queryKey) {v : T} {b : Bytes}
    (hb : c.json.marshal v = .ok b) (s : Store T) : ∃ s', (set c .ok key v).run s = .ok () s' := by
  rw [run_set hon hkey, hb]
  exact ⟨_, rfl⟩

theorem run_delete (hkey : c.keyTransformer key = .ok queryKey) (reply : Reply)
    (s : Store T) : (delete c reply key).run s
      = reply.result ((s.setMem queryKey none).write reply queryKey none) := by
  rw [EStateM.run, delete, hkey]
  exact if_neg (not_disabled hon)

/-- **A `Set`** is seen, whether it fails or not. -/
theorem view_after_set (hkey : c.keyTransformer key = .ok queryKey) (reply : Reply) (v : T)
    (s : Store T) (k : String) : (after ((set c reply key v).run s)).view c k
      = if k = queryKey then .ok (some v) else s.view c k := by
  rw [run_set hon hkey]
  cases c.json.marshal v with
  | error err =>
      by_cases hk : k = queryKey
      · rw [if_pos hk, hk]
        exact view_of_mem (inMemStore_setMem_self s queryKey _)
      · rw [if_neg hk]
        exact view_setMem_of_ne s _ hk
  | ok b =>
      show (after (reply.result _)).view c k = _
      rw [after_result]
      by_cases hk : k = queryKey
      · rw [if_pos hk, hk]
        refine view_of_mem ?_
        rw [inMemStore_write, inMemStore_setMem_self]
      · rw [if_neg hk]
        exact view_write_of_ne s _ reply _ hk

/-- **A `Delete`** shows what Redis still holds. -/
theorem view_after_delete (hkey : c.keyTransformer key = .ok queryKey) (reply : Reply)
    (s : Store T) (k : String) : (after ((delete c reply key).run s)).view c k
      = if k = queryKey then
          if reply.carriedOut then .ok none else s.redisView c queryKey
        else s.view c k := by
  rw [run_delete hon hkey, after_result]
  by_cases hk : k = queryKey
  · have hmem : ((s.setMem queryKey none).write reply queryKey none).inMemStore queryKey
        = none := by rw [inMemStore_write, inMemStore_setMem_self]
    rw [if_pos hk, hk, view_of_not_mem hmem, Store.redisView, redis_write]
    cases reply.carriedOut with
    | true =>
        rw [if_pos ⟨rfl, rfl⟩]
        rfl
    | false =>
        rw [if_neg fun h => Bool.noConfusion h.2]
        rfl
  · rw [if_neg hk]
    exact view_write_of_ne s _ reply _ hk

/-- **WHAT A `Get` CAN DO**: it returns the view, which it may have loaded to the map, or
    fails and leaves the store as it is; if Redis answers, it fails only where the view
    does. -/
inductive Got (c : StoreConf TKey T) (queryKey : String) (redisErr : Option String)
    (s : Store T) : EStateM.Result String (Store T) (Option T) → Prop
  | found {v : Option T} : s.view c queryKey = .ok v → Got c queryKey redisErr s (.ok v s)
  | loaded {ret : T} : s.view c queryKey = .ok (some ret) →
      Got c queryKey redisErr s (.ok (some ret) (s.setMem queryKey (some ret)))
  | failed {err : String} : (redisErr = none → s.view c queryKey = .error err) →
      Got c queryKey redisErr s (.error err s)

omit hon in
theorem run_get_of_mem (hkey : c.keyTransformer key = .ok queryKey) {s : Store T} {v : T}
    (hmem : s.inMemStore queryKey = some v) (redisErr : Option String) :
    (get c redisErr key).run s = .ok (some v) s := by
  rw [EStateM.run, get, hkey]
  show (match s.inMemStore queryKey with | some current => _ | none => _) = _
  rw [hmem]

/-- `Get` past the map. -/
theorem run_get_of_not_mem (hkey : c.keyTransformer key = .ok queryKey) {s : Store T}
    (hmem : s.inMemStore queryKey = none) (redisErr : Option String) :
    (get c redisErr key).run s
      = match redisErr with
        | some err => .error err s
        | none =>
          match s.redis queryKey with
          | none => .ok none s
          | some out =>
            match c.json.unmarshal out with
            | .error err => .error err s
            | .ok ret => .ok (some ret) (s.setMem queryKey (some ret)) := by
  rw [EStateM.run, get, hkey]
  show (match s.inMemStore queryKey with | some current => _ | none => _) = _
  rw [hmem]
  exact if_neg (not_disabled hon)

theorem got (hkey : c.keyTransformer key = .ok queryKey) (redisErr : Option String)
    (s : Store T) : Got c queryKey redisErr s ((get c redisErr key).run s) := by
  cases hmem : s.inMemStore queryKey with
  | some v =>
      rw [run_get_of_mem hkey hmem]
      exact .found (view_of_mem hmem)
  | none =>
      have hview := view_of_not_mem (c := c) hmem
      rw [run_get_of_not_mem hon hkey hmem]
      cases redisErr with
      | some err => exact .failed fun h => by cases h
      | none =>
          cases hredis : s.redis queryKey with
          | none => exact .found (hview.trans (redisView_of_none hredis))
          | some out =>
              rw [redisView_of_some hredis] at hview
              cases hout : c.json.unmarshal out with
              | error err =>
                  simp only [hout]
                  rw [hout] at hview
                  exact .failed fun _ => hview
              | ok ret =>
                  simp only [hout]
                  rw [hout] at hview
                  exact .loaded hview

/-- A `Get` that Redis answers returns the view. -/
theorem run_get (hkey : c.keyTransformer key = .ok queryKey) {s : Store T} {v : Option T}
    (hview : s.view c queryKey = .ok v) : ∃ s', (get c none key).run s = .ok v s' := by
  have hgot := got hon hkey none s
  cases hr : (get c none key).run s with
  | error err s' =>
      rw [hr] at hgot
      cases hgot with
      | failed h => rw [h rfl] at hview; cases hview
  | ok v' s' =>
      rw [hr] at hgot
      cases hgot with
      | found h => rw [h] at hview; cases hview; exact ⟨_, rfl⟩
      | loaded h => rw [h] at hview; cases hview; exact ⟨_, rfl⟩

/-- A `Get` that does not fail returns the view. -/
theorem view_of_run_get (hkey : c.keyTransformer key = .ok queryKey) {redisErr : Option String}
    {s s' : Store T} {v : Option T} (h : (get c redisErr key).run s = .ok v s') :
    s.view c queryKey = .ok v := by
  have hgot := got hon hkey redisErr s
  rw [h] at hgot
  cases hgot with
  | found hview => exact hview
  | loaded hview => exact hview

/-- **A `Get`** changes no view. -/
theorem view_after_get (hkey : c.keyTransformer key = .ok queryKey) (redisErr : Option String)
    (s : Store T) (k : String) :
    (after ((get c redisErr key).run s)).view c k = s.view c k := by
  have hgot := got hon hkey redisErr s
  generalize (get c redisErr key).run s = r at hgot ⊢
  cases hgot with
  | found _ => rfl
  | failed _ => rfl
  | @loaded ret hview =>
      show (s.setMem queryKey (some ret)).view c k = _
      by_cases hk : k = queryKey
      · rw [hk, hview]
        exact view_of_mem (inMemStore_setMem_self s queryKey _)
      · exact view_setMem_of_ne s _ hk

/-- **WHAT REDIS HOLDS** after a `Set`, for whoever reads it. -/
theorem redisView_of_set {exported : T → T} (hjson : c.json.Carries exported)
    (hkey : c.keyTransformer key = .ok queryKey) {reply : Reply} {v : T} {s s' : Store T}
    (h : (set c reply key v).run s = .ok () s') :
    s'.redisView c queryKey = .ok (some (exported v)) := by
  obtain ⟨b, hmarshal, hunmarshal⟩ := hjson v
  rw [run_set hon hkey, hmarshal] at h
  cases reply with
  | failed err carriedOut => cases h
  | ok =>
      cases h
      have hredis : ((s.setMem queryKey (some v)).write .ok queryKey (some b)).redis queryKey
          = some b := by
        rw [redis_write, if_pos ⟨rfl, rfl⟩]
      rw [redisView_of_some hredis, hunmarshal]
      rfl

end Enabled

/-! ## Sequences of calls -/

/-- A store, and under each key the value of the last call that returned no error. -/
structure Session (T : Type) where
  store : Store T
  last  : String → Option T

inductive StoreCall (TKey T : Type) where
  | get (key : TKey) (redisErr : Option String)
  | set (key : TKey) (value : T) (reply : Reply)
  | delete (key : TKey) (reply : Reply)

def StoreCall.keyOf : StoreCall TKey T → TKey
  | .get key _ => key
  | .set key _ _ => key
  | .delete key _ => key

/-- The value under the key becomes `v` if the call returned no error. -/
def record (c : StoreConf TKey T) (last : String → Option T) (key : TKey) (v : Option T) :
    EStateM.Result String (Store T) Unit → String → Option T
  | .ok _ _ =>
    match c.keyTransformer key with
    | .ok queryKey => Function.update last queryKey v
    | .error _ => last
  | .error _ _ => last

def Session.call (c : StoreConf TKey T) (s : Session T) : StoreCall TKey T → Session T
  | .get key redisErr => { s with store := after ((JrtcCacheStore.get c redisErr key).run s.store) }
  | .set key value reply =>
      let r := (JrtcCacheStore.set c reply key value).run s.store
      ⟨after r, record c s.last key (some value) r⟩
  | .delete key reply =>
      let r := (JrtcCacheStore.delete c reply key).run s.store
      ⟨after r, record c s.last key none r⟩

def StoreStep (c : StoreConf TKey T) (s : Session T) (call : StoreCall TKey T)
    (s' : Session T) : Prop :=
  s' = s.call c call

/-- `Get` returns the value of the last call that returned no error: it does so if Redis
    answers, and returns nothing else if it does not. -/
def Shows (c : StoreConf TKey T) (s : Session T) : Prop :=
  ∀ key queryKey, c.keyTransformer key = .ok queryKey →
    (∃ store', (get c none key).run s.store = .ok (s.last queryKey) store')
      ∧ ∀ redisErr v store', (get c redisErr key).run s.store = .ok v store' →
        v = s.last queryKey

/-- A `Set` that fails is not seen if `Get` returns its value already. -/
def SetHarmless (c : StoreConf TKey T) (s : Store T) (queryKey : String) (value : T)
    (reply : Reply) : Prop :=
  (reply = .ok ∧ ∃ b, c.json.marshal value = .ok b) ∨ s.view c queryKey = .ok (some value)

/-- A `Delete` that fails is not seen if Redis holds what `Get` returns or, where Redis has
    carried it out, if there was nothing to return. -/
def DeleteHarmless (c : StoreConf TKey T) (s : Store T) (queryKey : String) : Reply → Prop
  | .ok => True
  | .failed _ true => s.view c queryKey = .ok none
  | .failed _ false => s.redisView c queryKey = s.view c queryKey

def Harmless (c : StoreConf TKey T) (s : Session T) : StoreCall TKey T → Prop
  | .get _ _ => True
  | .set key value reply => ∀ queryKey, c.keyTransformer key = .ok queryKey →
      SetHarmless c s.store queryKey value reply
  | .delete key reply => ∀ queryKey, c.keyTransformer key = .ok queryKey →
      DeleteHarmless c s.store queryKey reply

theorem shows_iff (hon : c.enabled = true) {s : Session T} :
    Shows c s ↔ ∀ key queryKey, c.keyTransformer key = .ok queryKey →
      s.store.view c queryKey = .ok (s.last queryKey) := by
  constructor
  · intro h key queryKey hkey
    obtain ⟨store', hget⟩ := (h key queryKey hkey).1
    exact view_of_run_get hon hkey hget
  · intro h key queryKey hkey
    refine ⟨run_get hon hkey (h key queryKey hkey), fun redisErr v store' hget => ?_⟩
    have hview := view_of_run_get hon hkey hget
    rw [h key queryKey hkey] at hview
    exact (Option.some.inj (congrArg (fun x => x.toOption) hview)).symm

/-- A call on one key decides about that key alone. -/
theorem shows_update (hon : c.enabled = true) {s : Session T} (s' : Session T)
    {x : Except String (Option T)} {y : Option T} (h : Shows c s) (hkey : c.keyTransformer key = .ok queryKey)
    (hview : ∀ k, s'.store.view c k = if k = queryKey then x else s.store.view c k)
    (hlast : ∀ k, s'.last k = if k = queryKey then y else s.last k) :
    Shows c s' ↔ x = .ok y := by
  rw [shows_iff hon] at h ⊢
  constructor
  · intro h'
    have hk := h' key queryKey hkey
    rw [hview, hlast, if_pos rfl, if_pos rfl] at hk
    exact hk
  · intro hxy key' k hk'
    rw [hview, hlast]
    by_cases hk : k = queryKey
    · rw [if_pos hk, if_pos hk, hxy]
    · rw [if_neg hk, if_neg hk]
      exact h key' k hk'

/-- What a call that returned no error records. -/
theorem record_apply (hkey : c.keyTransformer key = .ok queryKey) (last : String → Option T)
    (v : Option T) (r : EStateM.Result String (Store T) Unit) (k : String) :
    record c last key v r k
      = if k = queryKey then (match r with | .ok _ _ => v | .error _ _ => last queryKey)
        else last k := by
  cases r with
  | ok u s =>
      rw [record, hkey]
      exact Function.update_apply ..
  | error err s =>
      show last k = if k = queryKey then last queryKey else last k
      by_cases hk : k = queryKey
      · rw [if_pos hk, hk]
      · rw [if_neg hk]

/-- A failed call is not seen iff the view it leaves is the one before. -/
theorem ok_eq_last_iff (hon : c.enabled = true) {s : Session T} (h : Shows c s)
    (hkey : c.keyTransformer key = .ok queryKey) (x : Except String (Option T)) :
    x = .ok (s.last queryKey) ↔ s.store.view c queryKey = x := by
  rw [(shows_iff hon).mp h key queryKey hkey]
  exact eq_comm

theorem shows_get (hon : c.enabled = true) {s : Session T} (h : Shows c s)
    (hkey : c.keyTransformer key = .ok queryKey) (redisErr : Option String) :
    Shows c (s.call c (.get key redisErr)) := by
  rw [shows_iff hon] at h ⊢
  intro key' k hk
  exact (view_after_get hon hkey redisErr s.store k).trans (h key' k hk)

theorem shows_set (hon : c.enabled = true) {s : Session T} (h : Shows c s)
    (hkey : c.keyTransformer key = .ok queryKey) (value : T) (reply : Reply) :
    Shows c (s.call c (.set key value reply))
      ↔ SetHarmless c s.store queryKey value reply := by
  have hfailed := ok_eq_last_iff hon h hkey (.ok (some value))
  refine (shows_update hon (s.call c (.set key value reply)) h hkey
    (view_after_set hon hkey reply value s.store)
    (record_apply hkey s.last (some value) _)).trans ?_
  rw [run_set hon hkey]
  cases hmarshal : c.json.marshal value with
  | error err =>
      refine hfailed.trans ⟨Or.inr, fun hor => hor.resolve_left ?_⟩
      rintro ⟨-, b, hb⟩
      cases hmarshal.symm.trans hb
  | ok b =>
      cases reply with
      | ok => exact iff_of_true rfl (Or.inl ⟨rfl, b, hmarshal⟩)
      | failed err carriedOut =>
          refine hfailed.trans ⟨Or.inr, fun hor => hor.resolve_left ?_⟩
          rintro ⟨hreply, -⟩
          cases hreply

theorem shows_delete (hon : c.enabled = true) {s : Session T} (h : Shows c s)
    (hkey : c.keyTransformer key = .ok queryKey) (reply : Reply) :
    Shows c (s.call c (.delete key reply)) ↔ DeleteHarmless c s.store queryKey reply := by
  refine (shows_update hon (s.call c (.delete key reply)) h hkey
    (view_after_delete hon hkey reply s.store) (record_apply hkey s.last none _)).trans ?_
  rw [run_delete hon hkey]
  cases reply with
  | ok => exact iff_of_true rfl trivial
  | failed err carriedOut =>
      cases carriedOut with
      | true => exact ok_eq_last_iff hon h hkey (.ok none)
      | false => exact (ok_eq_last_iff hon h hkey (s.store.redisView c queryKey)).trans eq_comm

/-- A key that cannot be transformed ends every call at once. -/
theorem call_of_error {call : StoreCall TKey T} {err : String}
    (hkey : c.keyTransformer call.keyOf = .error err) (s : Session T) : s.call c call = s := by
  cases call with
  | get key redisErr =>
      have hrun : (get c redisErr key).run s.store = .error err s.store := by
        rw [EStateM.run, get, show c.keyTransformer key = .error err from hkey]
      rw [Session.call, hrun]
      rfl
  | set key value reply =>
      have hrun : (set c reply key value).run s.store = .error err s.store := by
        rw [EStateM.run, set, show c.keyTransformer key = .error err from hkey]
      rw [Session.call, hrun]
      rfl
  | delete key reply =>
      have hrun : (delete c reply key).run s.store = .error err s.store := by
        rw [EStateM.run, delete, show c.keyTransformer key = .error err from hkey]
      rw [Session.call, hrun]
      rfl

theorem harmless_of_error {call : StoreCall TKey T} {err : String}
    (hkey : c.keyTransformer call.keyOf = .error err) (s : Session T) : Harmless c s call := by
  cases call with
  | get key redisErr => trivial
  | set key value reply =>
      intro queryKey hok
      cases hkey.symm.trans hok
  | delete key reply =>
      intro queryKey hok
      cases hkey.symm.trans hok

/-- With a key that can be transformed, a condition is about what it is transformed to. -/
theorem forall_transformed_iff (hkey : c.keyTransformer key = .ok queryKey)
    (P : String → Prop) : (∀ k, c.keyTransformer key = .ok k → P k) ↔ P queryKey := by
  constructor
  · exact fun h => h queryKey hkey
  · intro h k hk
    rw [hkey] at hk
    cases hk
    exact h

/-- **A CALL** keeps what `Get` shows iff it is harmless. -/
theorem shows_step (hon : c.enabled = true) {s s' : Session T} {call : StoreCall TKey T}
    (h : Shows c s) (hstep : StoreStep c s call s') : Shows c s' ↔ Harmless c s call := by
  cases hstep
  cases hkey : c.keyTransformer call.keyOf with
  | error err =>
      rw [call_of_error hkey]
      exact iff_of_true h (harmless_of_error hkey s)
  | ok queryKey =>
      cases call with
      | get key redisErr => exact iff_of_true (shows_get hon h hkey redisErr) trivial
      | set key value reply =>
          exact (shows_set hon h hkey value reply).trans
            (forall_transformed_iff hkey fun k => SetHarmless c s.store k value reply).symm
      | delete key reply =>
          exact (shows_delete hon h hkey reply).trans
            (forall_transformed_iff hkey fun k => DeleteHarmless c s.store k reply).symm

/-- **`Get` RETURNS THE LAST VALUE** that was stored without an error, all along a sequence
    of calls, iff every call that fails is harmless. -/
theorem shows_iff_harmless (hon : c.enabled = true) {s₀ s : Session T}
    {tr : List (Session T × StoreCall TKey T)} (h₀ : Shows c s₀)
    (h : Run (StoreStep c) s₀ tr s) : Along (Shows c) tr s ↔ Meets (Harmless c) tr :=
  h.along_iff_meets h₀ (fun _ hs => hs) (fun hs hC hstep => (shows_step hon hs hstep).mpr hC)
    fun hs hC hstep hs' => hC ((shows_step hon hs hstep).mp hs')

/-- A store of texts on an empty Redis. -/
def textConf : StoreConf String Bytes where
  enabled := true
  keyTransformer key := .ok ("TestStruct/" ++ key)
  json := ⟨.ok, .ok⟩

def textStart : Session Bytes := ⟨.empty, fun _ => none⟩

theorem shows_textStart : Shows textConf textStart :=
  (shows_iff rfl).mpr fun _ _ _ => rfl

/-- A value is stored, and a `Delete` fails that Redis did not carry out. -/
theorem shows_failedDelete : ∃ tr s, Run (StoreStep textConf) textStart tr s
    ∧ tr.map Prod.snd = [.set "1" [1] .ok, .delete "1" (.failed "i/o timeout" false)]
    ∧ Along (Shows textConf) tr s :=
  ⟨_, _, .next (.next .start rfl) rfl, rfl,
    (shows_iff_harmless rfl shows_textStart (.next (.next .start rfl) rfl)).mpr
      (meets_snoc.mpr ⟨meets_snoc.mpr ⟨meets_nil, fun _ _ => Or.inl ⟨rfl, _, rfl⟩⟩,
        fun k hk => by cases hk; rfl⟩)⟩

/-- **A FAILED `Set` IS SEEN.** -/
theorem failedSet_seen : ∃ tr s, Run (StoreStep textConf) textStart tr s
    ∧ tr.map Prod.snd = [.set "1" [1] .ok, .set "1" [2] (.failed "i/o timeout" false)]
    ∧ s.last "TestStruct/1" = some [1]
    ∧ ∃ store', (get textConf none "1").run s.store = .ok (some [2]) store' :=
  ⟨_, _, .next (.next .start rfl) rfl, rfl, rfl, _, rfl⟩

end JrtcCacheStore
