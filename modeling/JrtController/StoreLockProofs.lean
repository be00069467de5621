import JrtController.CacheStoreProofs
import JrtController.RwLockProofs

/-! # The store under concurrent calls

    The handlers of the decoder and the loop that decodes call `cache.Store` from
    goroutines of their own.  `Set` and `Delete` hold the lock of the store alone; `Get`
    shares it with other calls of `Get`, although it writes to the map when it has found a
    value in Redis.

    * `Step` — the calls access by access: the lock, the map, Redis;
    * `agrees_run` — on every run the lock is held as the places of the goroutines say;
    * `race_free_iff` — no access to the map meets a write to it exactly if no `Get` fills
      the map while another one is at it;
    * `calls_atomic` — the calls return what `get`, `set` and `delete` of
      `CacheStoreProofs` return one at a time, in the order of the effects. -/

namespace JrtcStoreLock

open JrtcCodeletSet JrtcCacheStore RwLocks Runs

variable {TKey T : Type}

/-! ## The calls, access by access -/

/-- A call on the store. -/
inductive Call (TKey T : Type) where
  | get (key : TKey)
  | set (key : TKey) (value : T)
  | delete (key : TKey)

/-- The calls that take the lock alone. -/
def Call.writes : Call TKey T → Bool
  | .get _ => false
  | .set .. => true
  | .delete _ => true

def Call.key : Call TKey T → TKey
  | .get key => key
  | .set key _ => key
  | .delete key => key

/-- What a call that writes puts in the map. -/
def Call.value : Call TKey T → Option T
  | .set _ value => some value
  | _ => none

/-- Where a goroutine is. -/
inductive Pc (TKey T : Type) where
  | idle
  /-- At `RLock` or `Lock`. -/
  | lock (call : Call TKey T)
  /-- In `current, ok := s.inMemStore[queryKey]`. -/
  | read (key : TKey) (queryKey : String)
  /-- Redis was asked. -/
  | ask (key : TKey) (queryKey : String)
  /-- In `s.inMemStore[queryKey] = &ret`. -/
  | fill (key : TKey) (queryKey : String) (ret : T)
  | runlock (key : TKey) (res : Except String (Option T))
  /-- In `s.inMemStore[queryKey] = value` or `delete(s.inMemStore, queryKey)`. -/
  | write (call : Call TKey T) (queryKey : String)
  /-- At `json.Marshal` and the command to Redis. -/
  | send (call : Call TKey T) (queryKey : String)
  | unlock (call : Call TKey T) (res : Except String Unit)

namespace Pc

def mode : Pc TKey T → Mode
  | .idle => .out
  | .lock _ => .out
  | .read .. => .shared
  | .ask .. => .shared
  | .fill .. => .shared
  | .runlock .. => .shared
  | .write .. => .exclusive
  | .send .. => .exclusive
  | .unlock .. => .exclusive

/-- The goroutine is at the map. -/
def usesMap : Pc TKey T → Bool
  | .read .. => true
  | .fill .. => true
  | .write .. => true
  | _ => false

/-- The goroutine is writing to the map. -/
def writesMap : Pc TKey T → Bool
  | .fill .. => true
  | .write .. => true
  | _ => false

end Pc

/-- The store and the goroutines that call it. -/
structure Sys (TKey T : Type) where
  mu    : RwLock Nat
  pc    : Nat → Pc TKey T
  store : Store T

/-- Nobody has called yet. -/
def Sys.init (store : Store T) : Sys TKey T := ⟨.free, fun _ => .idle, store⟩

def Sys.goto (s : Sys TKey T) (g : Nat) (p : Pc TKey T) : Sys TKey T :=
  { s with pc := Function.update s.pc g p }

section Model

variable (c : StoreConf TKey T)

/-- `Get` once it has the lock. -/
def afterRLock (key : TKey) : Pc TKey T :=
  match c.keyTransformer key with
  | .error err => .runlock key (.error err)
  | .ok queryKey => .read key queryKey

/-- `Get` with what it has read from the map. -/
def afterRead (key : TKey) (queryKey : String) : Option T → Pc TKey T
  | some current => .runlock key (.ok (some current))
  | none => if c.enabled = false then .runlock key (.ok none) else .ask key queryKey

/-- `Get` with the answer of Redis. -/
def afterAsk (key : TKey) (queryKey : String) (redisErr : Option String)
    (out : Option Bytes) : Pc TKey T :=
  match redisErr with
  | some err => .runlock key (.error err)
  | none =>
    match out with
    | none => .runlock key (.ok none)
    | some out =>
      match c.json.unmarshal out with
      | .error err => .runlock key (.error err)
      | .ok ret => .fill key queryKey ret

/-- `Set` or `Delete` once it has the lock. -/
def afterLock (call : Call TKey T) : Pc TKey T :=
  match c.keyTransformer call.key with
  | .error err => .unlock call (.error err)
  | .ok queryKey => .write call queryKey

def afterWrite (call : Call TKey T) (queryKey : String) : Pc TKey T :=
  if c.enabled = false then .unlock call (.ok ()) else .send call queryKey

/-- What a reply of Redis makes of a call. -/
def Reply.outcome : Reply → Except String Unit
  | .ok => .ok ()
  | .failed err _ => .error err

/-- The value as `Set` sends it; `Delete` sends none. -/
def encoded : Option T → Except String (Option Bytes)
  | none => .ok none
  | some value => (c.json.marshal value).map some

inductive Event (TKey T : Type) where
  | call (g : Nat) (call : Call TKey T)
  | rlocked (g : Nat) (key : TKey)
  | read (g : Nat)
  | answered (g : Nat) (redisErr : Option String)
  | filled (g : Nat)
  | runlocked (g : Nat)
  | locked (g : Nat) (call : Call TKey T)
  | written (g : Nat) (call : Call TKey T)
  | sent (g : Nat) (call : Call TKey T) (reply : Reply)
  | unlocked (g : Nat)

/-- One access of one goroutine.  An access to the map takes effect at its end. -/
inductive Step : Sys TKey T → Event TKey T → Sys TKey T → Prop
  | call {s : Sys TKey T} {g : Nat} {call : Call TKey T} :
      s.pc g = .idle → Step s (.call g call) (s.goto g (.lock call))
  | rlocked {s : Sys TKey T} {g : Nat} {key : TKey} :
      s.pc g = .lock (.get key) → s.mu.writer = none →
      Step s (.rlocked g key) { s.goto g (afterRLock c key) with mu := s.mu.rlock g }
  | read {s : Sys TKey T} {g : Nat} {key : TKey} {queryKey : String} :
      s.pc g = .read key queryKey →
      Step s (.read g) (s.goto g (afterRead c key queryKey (s.store.inMemStore queryKey)))
  | answered {s : Sys TKey T} {g : Nat} {key : TKey} {queryKey : String}
      {redisErr : Option String} :
      s.pc g = .ask key queryKey →
      Step s (.answered g redisErr)
        (s.goto g (afterAsk c key queryKey redisErr (s.store.redis queryKey)))
  | filled {s : Sys TKey T} {g : Nat} {key : TKey} {queryKey : String} {ret : T} :
      s.pc g = .fill key queryKey ret →
      Step s (.filled g) { s.goto g (.runlock key (.ok (some ret))) with
        store := s.store.setMem queryKey (some ret) }
  | runlocked {s : Sys TKey T} {g : Nat} {key : TKey} {res : Except String (Option T)} :
      s.pc g = .runlock key res →
      Step s (.runlocked g) { s.goto g .idle with mu := s.mu.runlock g }
  | locked {s : Sys TKey T} {g : Nat} {call : Call TKey T} :
      s.pc g = .lock call → call.writes = true → s.mu.writer = none → s.mu.readers = ∅ →
      Step s (.locked g call) { s.goto g (afterLock c call) with mu := s.mu.lock g }
  | written {s : Sys TKey T} {g : Nat} {call : Call TKey T} {queryKey : String} :
      s.pc g = .write call queryKey →
      Step s (.written g call) { s.goto g (afterWrite c call queryKey) with
        store := s.store.setMem queryKey call.value }
  | sentError {s : Sys TKey T} {g : Nat} {call : Call TKey T} {queryKey : String}
      {reply : Reply} {err : String} :
      s.pc g = .send call queryKey → encoded c call.value = .error err →
      Step s (.sent g call reply) (s.goto g (.unlock call (.error err)))
  | sent {s : Sys TKey T} {g : Nat} {call : Call TKey T} {queryKey : String}
      {reply : Reply} {b : Option Bytes} :
      s.pc g = .send call queryKey → encoded c call.value = .ok b →
      Step s (.sent g call reply) { s.goto g (.unlock call (Reply.outcome reply)) with
        store := s.store.write reply queryKey b }
  | unlocked {s : Sys TKey T} {g : Nat} {call : Call TKey T} {res : Except String Unit} :
      s.pc g = .unlock call res →
      Step s (.unlocked g) { s.goto g .idle with mu := s.mu.unlock }

end Model

/-! ## The lock -/

@[simp] theorem Sys.pc_goto (s : Sys TKey T) (g : Nat) (p : Pc TKey T) (h : Nat) :
    (s.goto g p).pc h = if h = g then p else s.pc h :=
  Function.update_apply ..

@[simp] theorem Sys.mu_goto (s : Sys TKey T) (g : Nat) (p : Pc TKey T) :
    (s.goto g p).mu = s.mu := rfl

@[simp] theorem Sys.store_goto (s : Sys TKey T) (g : Nat) (p : Pc TKey T) :
    (s.goto g p).store = s.store := rfl

def Sys.mode (s : Sys TKey T) (g : Nat) : Mode := (s.pc g).mode

section Lock

variable {c : StoreConf TKey T}

theorem mode_afterRLock (key : TKey) : (afterRLock c key).mode = .shared := by
  rw [afterRLock]
  cases c.keyTransformer key <;> rfl

theorem mode_afterRead (key : TKey) (queryKey : String) (v : Option T) :
    (afterRead c key queryKey v).mode = .shared := by
  cases v with
  | some v => rfl
  | none =>
      rw [afterRead]
      split <;> rfl

/-- What Redis makes of a `Get`. -/
theorem afterAsk_cases (c : StoreConf TKey T) (key : TKey) (queryKey : String)
    (redisErr : Option String) (out : Option Bytes) :
    (∃ res, afterAsk c key queryKey redisErr out = .runlock key res)
      ∨ ∃ b ret, redisErr = none ∧ out = some b ∧ c.json.unmarshal b = .ok ret
        ∧ afterAsk c key queryKey redisErr out = .fill key queryKey ret := by
  cases redisErr with
  | some err => exact Or.inl ⟨.error err, rfl⟩
  | none =>
      cases out with
      | none => exact Or.inl ⟨.ok none, rfl⟩
      | some b =>
          cases hb : c.json.unmarshal b with
          | error err => exact Or.inl ⟨.error err, by simp [afterAsk, hb]⟩
          | ok ret => exact Or.inr ⟨b, ret, rfl, rfl, hb, by simp [afterAsk, hb]⟩

theorem mode_afterAsk (key : TKey) (queryKey : String) (redisErr : Option String)
    (out : Option Bytes) : (afterAsk c key queryKey redisErr out).mode = .shared := by
  rcases afterAsk_cases c key queryKey redisErr out with ⟨res, h⟩ | ⟨b, ret, -, -, -, h⟩
  · rw [h]
    rfl
  · rw [h]
    rfl

theorem mode_afterLock (call : Call TKey T) : (afterLock c call).mode = .exclusive := by
  rw [afterLock]
  cases c.keyTransformer call.key <;> rfl

theorem mode_afterWrite (call : Call TKey T) (queryKey : String) :
    (afterWrite c call queryKey).mode = .exclusive := by
  rw [afterWrite]
  split <;> rfl

variable {s s' : Sys TKey T} {l : Event TKey T}

/-- A move that keeps the lock as it is keeps the agreement. -/
theorem agrees_goto (h : s.mu.Agrees s.mode) {g : Nat} {p : Pc TKey T}
    (hp : p.mode = s.mode g) : (s.goto g p).mu.Agrees (s.goto g p).mode := by
  refine h.congr fun g' => ?_
  rw [Sys.mode, Sys.pc_goto]
  split
  case isTrue heq => rw [hp, heq]
  case isFalse => rfl

/-- Everyone else is where they were. -/
theorem mode_goto_ne {g g' : Nat} {p : Pc TKey T} (hne : g' ≠ g) :
    (s.goto g p).mode g' = s.mode g' := by
  rw [Sys.mode, Sys.pc_goto, if_neg hne, Sys.mode]

theorem mode_goto_self {g : Nat} {p : Pc TKey T} : (s.goto g p).mode g = p.mode := by
  rw [Sys.mode, Sys.pc_goto, if_pos rfl]

theorem agrees_step (h : s.mu.Agrees s.mode) (hs : Step c s l s') : s'.mu.Agrees s'.mode := by
  have hmode : ∀ {g : Nat} {p : Pc TKey T}, s.pc g = p → s.mode g = p.mode :=
    fun hp => congrArg Pc.mode hp
  cases hs with
  | call hpc => exact agrees_goto h (hmode hpc).symm
  | rlocked hpc hfree =>
      refine h.rlock hfree ?_ fun _ hne => mode_goto_ne (s := s) hne
      exact (mode_goto_self (s := s)).trans (mode_afterRLock _)
  | read hpc => exact agrees_goto h ((mode_afterRead ..).trans (hmode hpc).symm)
  | answered hpc => exact agrees_goto h ((mode_afterAsk ..).trans (hmode hpc).symm)
  | filled hpc => exact agrees_goto h (hmode hpc).symm
  | runlocked hpc =>
      exact h.runlock (hmode hpc) (mode_goto_self (s := s)) fun _ hne =>
        mode_goto_ne (s := s) hne
  | locked hpc hw hfree hempty =>
      refine h.lock hfree hempty ?_ fun _ hne => mode_goto_ne (s := s) hne
      exact (mode_goto_self (s := s)).trans (mode_afterLock _)
  | written hpc => exact agrees_goto h ((mode_afterWrite ..).trans (hmode hpc).symm)
  | sentError hpc _ => exact agrees_goto h (hmode hpc).symm
  | sent hpc _ => exact agrees_goto h (hmode hpc).symm
  | unlocked hpc =>
      exact h.unlock (hmode hpc) (mode_goto_self (s := s)) fun _ hne =>
        mode_goto_ne (s := s) hne

/-- **THE LOCK** is held as the places of the goroutines say. -/
theorem agrees_run {store : Store T} {tr : List (Sys TKey T × Event TKey T)}
    (h : Run (Step c) (Sys.init store) tr s) : s.mu.Agrees s.mode :=
  h.invariant (P := fun s => s.mu.Agrees s.mode) (RwLock.Agrees.free.congr fun _ => rfl)
    fun hagree hs => agrees_step hagree hs

end Lock

/-! ## Races -/

/-- Two goroutines are at the map, and one of them is writing. -/
def Sys.Race (s : Sys TKey T) : Prop :=
  ∃ g h, g ≠ h ∧ (s.pc g).writesMap = true ∧ (s.pc h).usesMap = true

/-- No `Get` begins to read the map while another one is filling it, and none begins to
    fill it while another one is at it. -/
def FillsApart (c : StoreConf TKey T) (s : Sys TKey T) : Event TKey T → Prop
  | .rlocked _ key => (∃ queryKey, c.keyTransformer key = .ok queryKey) →
      ∀ h key' queryKey ret, s.pc h ≠ .fill key' queryKey ret
  | .answered g redisErr => (∃ key queryKey ret, s.pc g = .ask key queryKey
        ∧ afterAsk c key queryKey redisErr (s.store.redis queryKey) = .fill key queryKey ret) →
      ∀ h, (s.pc h).usesMap = false
  | _ => True

section Race

variable {c : StoreConf TKey T} {s s' : Sys TKey T} {l : Event TKey T}

theorem usesMap_of_writesMap {p : Pc TKey T} (h : p.writesMap = true) : p.usesMap = true := by
  cases p <;> first | exact h | rfl

theorem mode_of_usesMap {p : Pc TKey T} (h : p.usesMap = true) : p.mode ≠ .out := by
  cases p <;> first | exact Bool.noConfusion h | exact Mode.noConfusion

/-- Who writes to the map fills it or holds the lock alone. -/
theorem fill_or_exclusive {p : Pc TKey T} (h : p.writesMap = true) :
    (∃ key queryKey ret, p = .fill key queryKey ret) ∨ p.mode = .exclusive := by
  cases p with
  | fill key queryKey ret => exact Or.inl ⟨key, queryKey, ret, rfl⟩
  | write call queryKey => exact Or.inr rfl
  | _ => exact Bool.noConfusion h

/-- A move to a place away from the map, or alone there. -/
theorem not_race_goto (h : ¬ s.Race) {g : Nat} {p : Pc TKey T}
    (hw : p.writesMap = true → ∀ g', g' ≠ g → (s.pc g').usesMap = false)
    (hu : p.usesMap = true → ∀ g', g' ≠ g → (s.pc g').writesMap = false) :
    ¬ (s.goto g p).Race := by
  rintro ⟨g₁, g₂, hne, h₁, h₂⟩
  rw [Sys.pc_goto] at h₁ h₂
  by_cases hg₁ : g₁ = g
  · rw [if_pos hg₁] at h₁
    have hg₂ : g₂ ≠ g := fun heq => hne (hg₁.trans heq.symm)
    rw [if_neg hg₂, hw h₁ g₂ hg₂] at h₂
    exact Bool.noConfusion h₂
  · rw [if_neg hg₁] at h₁
    by_cases hg₂ : g₂ = g
    · rw [if_pos hg₂] at h₂
      rw [hu h₂ g₁ hg₁] at h₁
      exact Bool.noConfusion h₁
    · rw [if_neg hg₂] at h₂
      exact h ⟨g₁, g₂, hne, h₁, h₂⟩

theorem not_race_goto_away (h : ¬ s.Race) (g : Nat) {p : Pc TKey T} (hp : p.usesMap = false) :
    ¬ (s.goto g p).Race := by
  refine not_race_goto h (fun hw => ?_) fun hu => ?_
  · rw [usesMap_of_writesMap hw] at hp
    exact Bool.noConfusion hp
  · rw [hu] at hp
    exact Bool.noConfusion hp

/-- A move to the map where nobody is. -/
theorem not_race_goto_alone (h : ¬ s.Race) (g : Nat) (p : Pc TKey T)
    (hnone : ∀ g', (s.pc g').usesMap = false) : ¬ (s.goto g p).Race := by
  refine not_race_goto h (fun _ g' _ => hnone g') fun _ g' _ => ?_
  by_contra hw
  rw [Bool.not_eq_false] at hw
  have huses := usesMap_of_writesMap hw
  rw [hnone g'] at huses
  exact Bool.noConfusion huses

theorem usesMap_afterRead (key : TKey) (queryKey : String) (v : Option T) :
    (afterRead c key queryKey v).usesMap = false := by
  cases v with
  | some v => rfl
  | none =>
      rw [afterRead]
      split <;> rfl

theorem usesMap_afterWrite (call : Call TKey T) (queryKey : String) :
    (afterWrite c call queryKey).usesMap = false := by
  rw [afterWrite]
  split <;> rfl

/-- What `race_free_iff` carries along a run. -/
structure Sys.Quiet (s : Sys TKey T) : Prop where
  agrees : s.mu.Agrees s.mode
  apart  : ¬ s.Race

theorem Sys.Quiet.rlocked (h : s.Quiet) {g : Nat} {key : TKey} (hfree : s.mu.writer = none)
    (hC : FillsApart c s (.rlocked g key)) : ¬ (s.goto g (afterRLock c key)).Race := by
  cases hkey : c.keyTransformer key with
  | error err =>
      refine not_race_goto_away h.apart g ?_
      rw [afterRLock, hkey]
      rfl
  | ok queryKey =>
      have hread : afterRLock c key = .read key queryKey := by rw [afterRLock, hkey]
      rw [hread]
      refine not_race_goto h.apart (fun hw => Bool.noConfusion hw) fun _ g' _ => ?_
      by_contra hw
      rw [Bool.not_eq_false] at hw
      rcases fill_or_exclusive hw with ⟨key', queryKey', ret, hpc⟩ | hmode
      · exact hC ⟨queryKey, hkey⟩ g' key' queryKey' ret hpc
      · have hwriter := (h.agrees.exclusive g').mp hmode
        exact Option.some_ne_none g' (hwriter.symm.trans hfree)

theorem Sys.Quiet.locked (h : s.Quiet) {g : Nat} (call : Call TKey T)
    (hfree : s.mu.writer = none) (hempty : s.mu.readers = ∅) :
    ¬ (s.goto g (afterLock c call)).Race := by
  -- the lock was free, so nobody is at the map
  have hnone : ∀ g', (s.pc g').usesMap = false := by
    intro g'
    by_contra huses
    rw [Bool.not_eq_false] at huses
    have hout := mode_of_usesMap huses
    cases hm : (s.pc g').mode with
    | out => exact hout hm
    | shared =>
        have hmem := (h.agrees.shared g').mp hm
        rw [hempty] at hmem
        exact Finset.notMem_empty g' hmem
    | exclusive =>
        have hwriter := (h.agrees.exclusive g').mp hm
        exact Option.some_ne_none g' (hwriter.symm.trans hfree)
  exact not_race_goto_alone h.apart g _ hnone

theorem Sys.Quiet.answered (h : s.Quiet) {g : Nat} {key : TKey} {queryKey : String}
    {redisErr : Option String} (hpc : s.pc g = .ask key queryKey)
    (hC : FillsApart c s (.answered g redisErr)) :
    ¬ (s.goto g (afterAsk c key queryKey redisErr (s.store.redis queryKey))).Race := by
  rcases afterAsk_cases c key queryKey redisErr (s.store.redis queryKey) with
    ⟨res, hp⟩ | ⟨b, ret, -, -, -, hp⟩
  · rw [hp]
    exact not_race_goto_away h.apart g rfl
  · have hnone := hC ⟨key, queryKey, ret, hpc, hp⟩
    exact not_race_goto_alone h.apart g _ hnone

theorem Sys.Quiet.step (h : s.Quiet) (hC : FillsApart c s l) (hs : Step c s l s') :
    s'.Quiet := by
  refine ⟨agrees_step h.agrees hs, ?_⟩
  cases hs with
  | call hpc => exact not_race_goto_away h.apart _ rfl
  | rlocked hpc hfree => exact h.rlocked hfree hC
  | read hpc => exact not_race_goto_away h.apart _ (usesMap_afterRead ..)
  | answered hpc => exact h.answered hpc hC
  | filled hpc => exact not_race_goto_away h.apart _ rfl
  | runlocked hpc => exact not_race_goto_away h.apart _ rfl
  | locked hpc hw hfree hempty => exact h.locked _ hfree hempty
  | written hpc => exact not_race_goto_away h.apart _ (usesMap_afterWrite ..)
  | sentError hpc _ => exact not_race_goto_away h.apart _ rfl
  | sent hpc _ => exact not_race_goto_away h.apart _ rfl
  | unlocked hpc => exact not_race_goto_away h.apart _ rfl

/-- Where one comes to the map while another is there and either writes. -/
theorem race_goto {g g' : Nat} (hne : g' ≠ g) {p : Pc TKey T}
    (h : p.writesMap = true ∧ (s.pc g').usesMap = true
      ∨ p.usesMap = true ∧ (s.pc g').writesMap = true) : (s.goto g p).Race := by
  have hself : (s.goto g p).pc g = p := by rw [Sys.pc_goto, if_pos rfl]
  have hother : (s.goto g p).pc g' = s.pc g' := by rw [Sys.pc_goto, if_neg hne]
  rcases h with ⟨hw, hu⟩ | ⟨hu, hw⟩
  · exact ⟨g, g', hne.symm, by rwa [hself], by rwa [hother]⟩
  · exact ⟨g', g, hne, by rwa [hother], by rwa [hself]⟩

/-- A step outside the condition is a race. -/
theorem race_of_not_apart (hC : ¬ FillsApart c s l) (hs : Step c s l s') : s'.Race := by
  cases hs with
  | @rlocked g key hpc hfree =>
      obtain ⟨⟨queryKey, hkey⟩, hfill⟩ := Classical.not_imp.mp hC
      simp only [not_forall, not_not] at hfill
      obtain ⟨g', key', queryKey', ret, hpc'⟩ := hfill
      have hne : g' ≠ g := by
        rintro rfl
        rw [hpc] at hpc'
        cases hpc'
      have hread : afterRLock c key = .read key queryKey := by rw [afterRLock, hkey]
      have hrace : (s.goto g (afterRLock c key)).Race :=
        race_goto hne (Or.inr ⟨by rw [hread]; rfl, by rw [hpc']; rfl⟩)
      exact hrace
  | @answered g key queryKey redisErr hpc =>
      obtain ⟨⟨key', queryKey', ret, hask, hp⟩, huses⟩ := Classical.not_imp.mp hC
      simp only [not_forall, Bool.not_eq_false] at huses
      obtain ⟨g', hg'⟩ := huses
      rw [hpc] at hask
      cases hask
      have hne : g' ≠ g := by
        rintro rfl
        rw [hpc] at hg'
        exact Bool.noConfusion hg'
      exact race_goto hne (Or.inl ⟨by rw [hp]; rfl, hg'⟩)
  | _ => exact absurd trivial hC

/-- A `Get` that did not find its key in the map. -/
def Pc.asks : Pc TKey T → Bool
  | .ask .. => true
  | .fill .. => true
  | _ => false

/-- Nobody asks Redis. -/
def Sys.NoneAsks (s : Sys TKey T) : Prop := ∀ g, (s.pc g).asks = false

theorem noneAsks_goto (h : s.NoneAsks) {g : Nat} {p : Pc TKey T} (hp : p.asks = false) :
    (s.goto g p).NoneAsks := by
  intro g'
  rw [Sys.pc_goto]
  split
  · exact hp
  · exact h g'

theorem noneAsks_step (hoff : c.enabled = false) (h : s.NoneAsks) (hs : Step c s l s') :
    s'.NoneAsks := by
  have hno : ∀ {g : Nat} {p : Pc TKey T}, s.pc g = p → p.asks = false := by
    rintro g p rfl
    exact h g
  cases hs with
  | @rlocked g key hpc hfree =>
      refine noneAsks_goto h ?_
      rw [afterRLock]
      cases c.keyTransformer key <;> rfl
  | @read g key queryKey hpc =>
      refine noneAsks_goto h ?_
      cases s.store.inMemStore queryKey with
      | some v => rfl
      | none =>
          rw [afterRead, if_pos hoff]
          rfl
  | answered hpc => exact Bool.noConfusion (hno hpc)
  | filled hpc => exact Bool.noConfusion (hno hpc)
  | @locked g call hpc hw hfree hempty =>
      refine noneAsks_goto h ?_
      rw [afterLock]
      cases c.keyTransformer call.key <;> rfl
  | written hpc =>
      refine noneAsks_goto h ?_
      rw [afterWrite, if_pos hoff]
      rfl
  | _ => exact noneAsks_goto h rfl

theorem Sys.NoneAsks.fillsApart (h : s.NoneAsks) (l : Event TKey T) : FillsApart c s l := by
  cases l with
  | rlocked g key =>
      intro _ g' key' queryKey ret hpc
      have hno := h g'
      rw [hpc] at hno
      exact Bool.noConfusion hno
  | answered g redisErr =>
      rintro ⟨key, queryKey, ret, hpc, -⟩
      have hno := h g
      rw [hpc] at hno
      exact Bool.noConfusion hno
  | _ => trivial

theorem Sys.quiet_init (store : Store T) : (Sys.init store : Sys TKey T).Quiet := by
  refine ⟨RwLock.Agrees.free.congr fun _ => rfl, ?_⟩
  rintro ⟨g, g', -, hw, -⟩
  exact Bool.noConfusion hw

/-- **WHEN THE MAP IS SAFE.**  On every run of any calls, whatever Redis answers, no
    goroutine is at the map while another one writes to it exactly if no `Get` fills the
    map while another one reads or fills it: the lock sees to all the rest, and not to
    this.  Without Redis nothing is filled, and the map is always safe. -/
theorem race_free_iff {store : Store T} {tr : List (Sys TKey T × Event TKey T)}
    (h : Run (Step c) (Sys.init store) tr s) :
    (Along (fun s => ¬ s.Race) tr s ↔ Meets (FillsApart c) tr)
    ∧ (c.enabled = false → Along (fun s => ¬ s.Race) tr s) := by
  have hiff : Along (fun s => ¬ s.Race) tr s ↔ Meets (FillsApart c) tr :=
    h.along_iff_meets (Sys.quiet_init store) (fun _ hq => hq.apart)
      (fun hq hC hs => hq.step hC hs) fun _ hC hs => not_not.mpr (race_of_not_apart hC hs)
  refine ⟨hiff, fun hoff => hiff.mpr ?_⟩
  have hnone : Along Sys.NoneAsks tr s :=
    h.along_of_meets (C := fun _ _ => True) (fun _ => rfl)
      (fun hn _ hs => noneAsks_step hoff hn hs) fun _ _ => trivial
  exact fun x hx => (hnone.1 x hx).fillsApart x.2

/-- Redis holds a value that the map does not. -/
def sampleConf : StoreConf String Nat where
  enabled := true
  keyTransformer key := .ok key
  json := ⟨fun _ => .ok [], fun _ => .ok 7⟩

/-- Two goroutines get a value that only Redis holds, and both write it to the map. -/
theorem race_free_two_gets : ∃ tr s,
    Run (Step sampleConf) (Sys.init ⟨fun _ => none, fun _ => some []⟩) tr s
    ∧ s.Race ∧ ¬ Meets (FillsApart sampleConf) tr := by
  have h₁ := (Run.start : Run (Step sampleConf)
    (Sys.init ⟨fun _ => none, fun _ => some []⟩) [] _).next
      (l := .call 0 (.get "key")) (Step.call rfl)
  have h₂ := h₁.next (l := .call 1 (.get "key")) (Step.call rfl)
  have h₃ := h₂.next (l := .rlocked 0 "key") (Step.rlocked rfl rfl)
  have h₄ := h₃.next (l := .rlocked 1 "key") (Step.rlocked rfl rfl)
  have h₅ := h₄.next (l := .read 0) (Step.read rfl)
  have h₆ := h₅.next (l := .read 1) (Step.read rfl)
  have h₇ := h₆.next (l := .answered 0 none) (Step.answered rfl)
  have h₈ := h₇.next (l := .answered 1 none) (Step.answered rfl)
  refine ⟨_, _, h₈, ⟨0, 1, by simp, rfl, rfl⟩, fun hmeets => ?_⟩
  exact ((race_free_iff h₈).1.mpr hmeets).2 ⟨0, 1, by simp, rfl, rfl⟩

end Race

/-! ## One call at a time -/

/-- What a call returns. -/
def answer {α : Type} : EStateM.Result String (Store T) α → Except String α
  | .ok a _ => .ok a
  | .error err _ => .error err

section Atomic

variable (c : StoreConf TKey T)

/-- A call that writes, as `CacheStoreProofs` has it. -/
def Call.run (reply : Reply) : Call TKey T → EStateM String (Store T) Unit
  | .get _ => pure ()
  | .set key value => JrtcCacheStore.set c reply key value
  | .delete key => JrtcCacheStore.delete c reply key

/-- The call that takes effect in a step: where it fails, or with its last access. -/
def effect : Event TKey T → List (Call TKey T × Reply)
  | .locked _ call =>
    match c.keyTransformer call.key with
    | .error _ => [(call, .ok)]
    | .ok _ => []
  | .written _ call => if c.enabled = false then [(call, .ok)] else []
  | .sent _ call reply => [(call, reply)]
  | _ => []

def effects (tr : List (Sys TKey T × Event TKey T)) : List (Call TKey T × Reply) :=
  tr.flatMap fun x => effect c x.2

/-- The store after the calls, one at a time. -/
def atomic (store : Store T) (calls : List (Call TKey T × Reply)) : Store T :=
  calls.foldl (fun s x => after ((x.1.run c x.2).run s)) store

/-- The store `s` is `a` with some values of Redis in the map. -/
structure Filled (a s : Store T) : Prop where
  redis : s.redis = a.redis
  mem   : ∀ k, s.inMemStore k = a.inMemStore k ∨ c.enabled = true ∧ a.inMemStore k = none
    ∧ ∃ b ret, a.redis k = some b ∧ c.json.unmarshal b = .ok ret ∧ s.inMemStore k = some ret

/-- What the calls that have taken effect and the store say about a goroutine. -/
def PcOk (store : Store T) (calls : List (Call TKey T × Reply)) (now : Store T) :
    Pc TKey T → Prop
  | .idle => True
  | .lock _ => True
  | .read key queryKey => c.keyTransformer key = .ok queryKey
  | .ask key queryKey => c.keyTransformer key = .ok queryKey ∧ c.enabled = true
      ∧ (atomic c store calls).inMemStore queryKey = none
  | .fill key queryKey ret => c.keyTransformer key = .ok queryKey ∧ c.enabled = true
      ∧ (atomic c store calls).inMemStore queryKey = none
      ∧ ∃ b, (atomic c store calls).redis queryKey = some b ∧ c.json.unmarshal b = .ok ret
  | .runlock key res => ∃ redisErr,
      res = answer ((get c redisErr key).run (atomic c store calls))
  | .write call queryKey => call.writes = true ∧ c.keyTransformer call.key = .ok queryKey
  | .send call queryKey => call.writes = true ∧ c.keyTransformer call.key = .ok queryKey
      ∧ c.enabled = true ∧ now.inMemStore queryKey = call.value
  | .unlock call res => ∃ pre reply, calls = pre ++ [(call, reply)]
      ∧ res = answer ((call.run c reply).run (atomic c store pre))

end Atomic

/-- What a call has done to the map before its last access. -/
def Pc.pending : Pc TKey T → Store T → Store T
  | .send call queryKey, a => a.setMem queryKey call.value
  | _, a => a

/-- The store without the values that were filled in. -/
def Sys.base (s : Sys TKey T) (a : Store T) : Store T :=
  match s.mu.writer with
  | none => a
  | some g => (s.pc g).pending a

section Atomic

variable {c : StoreConf TKey T}

namespace Filled

variable {a s : Store T}

theorem refl : Filled c a a := ⟨rfl, fun _ => Or.inl rfl⟩

theorem setMem (h : Filled c a s) (queryKey : String) (v : Option T) :
    Filled c (a.setMem queryKey v) (s.setMem queryKey v) where
  redis := h.redis
  mem k := by
    by_cases hk : k = queryKey
    · subst hk
      exact Or.inl ((inMemStore_setMem_self ..).trans (inMemStore_setMem_self ..).symm)
    · have hset : ∀ t : Store T, (t.setMem queryKey v).inMemStore k = t.inMemStore k :=
        fun t => Function.update_of_ne hk ..
      rw [hset, hset]
      exact h.mem k

/-- A value of Redis for a key that the map does not hold. -/
theorem fill (h : Filled c a s) {queryKey : String} {b : Bytes} {ret : T}
    (hon : c.enabled = true) (hnone : a.inMemStore queryKey = none)
    (hb : a.redis queryKey = some b) (hret : c.json.unmarshal b = .ok ret) :
    Filled c a (s.setMem queryKey (some ret)) where
  redis := h.redis
  mem k := by
    by_cases hk : k = queryKey
    · subst hk
      exact Or.inr ⟨hon, hnone, b, ret, hb, hret, inMemStore_setMem_self ..⟩
    · rw [show (s.setMem queryKey (some ret)).inMemStore k = s.inMemStore k from
        Function.update_of_ne hk ..]
      exact h.mem k

/-- A command to Redis for a key under which the maps agree. -/
theorem write (h : Filled c a s) {queryKey : String}
    (hmem : s.inMemStore queryKey = a.inMemStore queryKey) (reply : Reply) (b : Option Bytes) :
    Filled c (a.write reply queryKey b) (s.write reply queryKey b) where
  redis := by
    funext k
    rw [redis_write, redis_write, h.redis]
  mem k := by
    rw [inMemStore_write, inMemStore_write]
    by_cases hk : k = queryKey
    · rw [hk]
      exact Or.inl hmem
    · rw [redis_write, if_neg fun h => hk h.1]
      exact h.mem k

end Filled

section Get

variable {a now : Store T} {key : TKey} {queryKey : String}

theorem answer_get_of_key_error {err : String} (hkey : c.keyTransformer key = .error err)
    (redisErr : Option String) : answer ((get c redisErr key).run a) = .error err := by
  rw [EStateM.run, JrtcCacheStore.get, hkey]
  rfl

theorem answer_get_of_mem (hkey : c.keyTransformer key = .ok queryKey) {v : T}
    (hmem : a.inMemStore queryKey = some v) (redisErr : Option String) :
    answer ((get c redisErr key).run a) = .ok (some v) := by
  rw [run_get_of_mem hkey hmem]
  rfl

/-- `Get` for a key that is not in the map. -/
theorem answer_get_of_redis (hkey : c.keyTransformer key = .ok queryKey)
    (hon : c.enabled = true) (hnone : a.inMemStore queryKey = none)
    (redisErr : Option String) : answer ((get c redisErr key).run a)
      = match redisErr with
        | some err => .error err
        | none => a.redisView c queryKey := by
  rw [EStateM.run, JrtcCacheStore.get, hkey]
  simp only [hnone, hon, Bool.true_eq_false, if_false]
  cases redisErr with
  | some err => rfl
  | none =>
      rw [Store.redisView]
      cases a.redis queryKey with
      | none => rfl
      | some b =>
          simp only
          cases c.json.unmarshal b <;> rfl

variable {store : Store T} {calls : List (Call TKey T × Reply)}

theorem pcOk_afterRLock (key : TKey) : PcOk c store calls now (afterRLock c key) := by
  cases hkey : c.keyTransformer key with
  | error err =>
      rw [afterRLock, hkey]
      exact ⟨none, (answer_get_of_key_error hkey none).symm⟩
  | ok queryKey =>
      rw [afterRLock, hkey]
      exact hkey

/-- What a `Get` reads from the map is what it finds there one call at a time, or what it
    gets from Redis. -/
theorem pcOk_afterRead (h : Filled c (atomic c store calls) now)
    (hkey : c.keyTransformer key = .ok queryKey) :
    PcOk c store calls now (afterRead c key queryKey (now.inMemStore queryKey)) := by
  cases hmem : now.inMemStore queryKey with
  | some v =>
      rcases h.mem queryKey with heq | ⟨hon, hnone, b, ret, hb, hret, hsome⟩
      · exact ⟨none, (answer_get_of_mem hkey (heq.symm.trans hmem) none).symm⟩
      · refine ⟨none, ?_⟩
        cases hmem.symm.trans hsome
        rw [answer_get_of_redis hkey hon hnone]
        show _ = (atomic c store calls).redisView c queryKey
        rw [redisView_of_some hb, hret]
        rfl
  | none =>
      have hnone : (atomic c store calls).inMemStore queryKey = none := by
        rcases h.mem queryKey with heq | ⟨-, hnone, -⟩
        · exact heq.symm.trans hmem
        · exact hnone
      rw [afterRead]
      by_cases hoff : c.enabled = false
      · rw [if_pos hoff]
        refine ⟨none, ?_⟩
        rw [run_get_disabled hoff hkey, hnone]
        rfl
      · rw [if_neg hoff]
        exact ⟨hkey, by simpa using hoff, hnone⟩

theorem pcOk_afterAsk (hredis : now.redis = (atomic c store calls).redis)
    (h : PcOk c store calls now (.ask key queryKey)) (redisErr : Option String) :
    PcOk c store calls now (afterAsk c key queryKey redisErr (now.redis queryKey)) := by
  obtain ⟨hkey, hon, hnone⟩ := h
  have hget := answer_get_of_redis hkey hon hnone
  rw [hredis]
  cases redisErr with
  | some err => exact ⟨some err, (hget (some err)).symm⟩
  | none =>
      have hget := hget none
      cases hb : (atomic c store calls).redis queryKey with
      | none =>
          refine ⟨none, ?_⟩
          rw [hget]
          exact (redisView_of_none hb).symm
      | some b =>
          cases hret : c.json.unmarshal b with
          | error err =>
              rw [show afterAsk c key queryKey none (some b) = .runlock key (.error err) by
                simp [afterAsk, hret]]
              refine ⟨none, ?_⟩
              rw [hget]
              show _ = (atomic c store calls).redisView c queryKey
              rw [redisView_of_some hb, hret]
              rfl
          | ok ret =>
              rw [show afterAsk c key queryKey none (some b) = .fill key queryKey ret by
                simp [afterAsk, hret]]
              exact ⟨hkey, hon, hnone, b, hb, hret⟩

theorem pcOk_filled {ret : T} (h : PcOk c store calls now (.fill key queryKey ret))
    (now' : Store T) : PcOk c store calls now' (.runlock key (.ok (some ret))) := by
  obtain ⟨hkey, hon, hnone, b, hb, hret⟩ := h
  refine ⟨none, ?_⟩
  rw [answer_get_of_redis hkey hon hnone]
  show _ = (atomic c store calls).redisView c queryKey
  rw [redisView_of_some hb, hret]
  rfl

/-- Stores that differ in what was filled in answer alike. -/
theorem Filled.answer_get (h : Filled c a now) (key : TKey) :
    answer ((get c none key).run now) = answer ((get c none key).run a) := by
  cases hkey : c.keyTransformer key with
  | error err => rw [answer_get_of_key_error hkey, answer_get_of_key_error hkey]
  | ok queryKey =>
      rcases h.mem queryKey with heq | ⟨hon, hnone, b, ret, hb, hret, hsome⟩
      · cases hmem : a.inMemStore queryKey with
        | some v =>
            rw [answer_get_of_mem hkey hmem, answer_get_of_mem hkey (heq.trans hmem)]
        | none =>
            by_cases hoff : c.enabled = false
            · rw [run_get_disabled hoff hkey, run_get_disabled hoff hkey, heq]
              rfl
            · have hon : c.enabled = true := by simpa using hoff
              rw [answer_get_of_redis hkey hon hmem,
                answer_get_of_redis hkey hon (heq.trans hmem)]
              show now.redisView c queryKey = a.redisView c queryKey
              rw [Store.redisView, Store.redisView, h.redis]
      · rw [answer_get_of_mem hkey hsome, answer_get_of_redis hkey hon hnone]
        show _ = a.redisView c queryKey
        rw [redisView_of_some hb, hret]
        rfl

end Get

section Write

variable {a : Store T} {call : Call TKey T} {queryKey : String}

theorem run_of_key_error {err : String} (hw : call.writes = true)
    (hkey : c.keyTransformer call.key = .error err) (reply : Reply) :
    (call.run c reply).run a = .error err a := by
  cases call with
  | get key => exact Bool.noConfusion hw
  | set key value =>
      show JrtcCacheStore.set c reply key value a = _
      rw [JrtcCacheStore.set, show c.keyTransformer key = .error err from hkey]
  | delete key =>
      show JrtcCacheStore.delete c reply key a = _
      rw [JrtcCacheStore.delete, show c.keyTransformer key = .error err from hkey]

theorem run_of_disabled (hoff : c.enabled = false) (hw : call.writes = true)
    (hkey : c.keyTransformer call.key = .ok queryKey) (reply : Reply) :
    (call.run c reply).run a = .ok () (a.setMem queryKey call.value) := by
  cases call with
  | get key => exact Bool.noConfusion hw
  | set key value => exact run_set_disabled hoff hkey reply value a
  | delete key => exact run_delete_disabled hoff hkey reply a

theorem run_of_encode_error (hon : c.enabled = true) (hw : call.writes = true)
    (hkey : c.keyTransformer call.key = .ok queryKey) {err : String}
    (henc : encoded c call.value = .error err) (reply : Reply) :
    (call.run c reply).run a = .error err (a.setMem queryKey call.value) := by
  cases call with
  | get key => exact Bool.noConfusion hw
  | set key value =>
      refine (run_set hon hkey reply value a).trans ?_
      cases hm : c.json.marshal value with
      | error err' =>
          rw [Call.value, encoded, hm] at henc
          cases henc
          rfl
      | ok b =>
          rw [Call.value, encoded, hm] at henc
          cases henc
  | delete key => cases henc

theorem run_of_encoded (hon : c.enabled = true) (hw : call.writes = true)
    (hkey : c.keyTransformer call.key = .ok queryKey) {b : Option Bytes}
    (henc : encoded c call.value = .ok b) (reply : Reply) :
    (call.run c reply).run a
      = reply.result ((a.setMem queryKey call.value).write reply queryKey b) := by
  cases call with
  | get key => exact Bool.noConfusion hw
  | set key value =>
      refine (run_set hon hkey reply value a).trans ?_
      cases hm : c.json.marshal value with
      | error err' =>
          rw [Call.value, encoded, hm] at henc
          cases henc
      | ok b' =>
          rw [Call.value, encoded, hm] at henc
          cases henc
          rfl
  | delete key =>
      cases henc
      exact run_delete hon hkey reply a

theorem answer_result (reply : Reply) (s : Store T) :
    answer (reply.result s) = Reply.outcome reply := by
  cases reply <;> rfl

end Write

/-! ### What every run keeps -/

section Step

variable {store now : Store T} {calls calls' : List (Call TKey T × Reply)}
  {s s' : Sys TKey T} {l : Event TKey T}

theorem atomic_snoc (x : Call TKey T × Reply) :
    atomic c store (calls ++ [x]) = after ((x.1.run c x.2).run (atomic c store calls)) := by
  rw [atomic, List.foldl_append]
  rfl

theorem effects_snoc (tr : List (Sys TKey T × Event TKey T)) (x : Sys TKey T × Event TKey T) :
    effects c (tr ++ [x]) = effects c tr ++ effect c x.2 := by
  rw [effects, List.flatMap_append, List.flatMap_singleton]
  rfl

/-- The calls that have taken effect, the store they leave one at a time, and where the
    goroutines are. -/
structure Sim (c : StoreConf TKey T) (store : Store T) (calls : List (Call TKey T × Reply))
    (s : Sys TKey T) : Prop where
  agrees : s.mu.Agrees s.mode
  filled : Filled c (s.base (atomic c store calls)) s.store
  pcs    : ∀ g, PcOk c store calls s.store (s.pc g)

/-- Who is outside has nothing to keep. -/
theorem pcOk_of_out {p : Pc TKey T} (h : p.mode = .out) : PcOk c store calls now p := by
  cases p <;> trivial

/-- Who only reads does not depend on what is filled in. -/
theorem pcOk_of_shared {p : Pc TKey T} (hp : p.mode = .shared) (h : PcOk c store calls now p)
    (now' : Store T) : PcOk c store calls now' p := by
  cases p <;> first | exact h | exact Mode.noConfusion hp

theorem base_of_none (h : s.mu.writer = none) (a : Store T) : s.base a = a := by
  rw [Sys.base, h]

theorem base_of_writer {g : Nat} (h : s.mu.writer = some g) (a : Store T) :
    s.base a = (s.pc g).pending a := by
  rw [Sys.base, h]

namespace Sim

/-- The store where one shares the lock. -/
theorem filled_of_shared (h : Sim c store calls s) {g : Nat} (hg : s.mode g = .shared) :
    Filled c (atomic c store calls) s.store := by
  have hfilled := h.filled
  rwa [base_of_none (h.agrees.writer_none hg)] at hfilled

theorem filled_of_exclusive (h : Sim c store calls s) {g : Nat}
    (hg : s.mode g = .exclusive) :
    Filled c ((s.pc g).pending (atomic c store calls)) s.store := by
  have hfilled := h.filled
  rwa [base_of_writer ((h.agrees.exclusive g).mp hg)] at hfilled

/-- A move of one who shares the lock, or takes it to share it. -/
theorem shared_step (h : Sim c store calls s) {g : Nat} {s' : Sys TKey T} {p : Pc TKey T}
    (hagrees : s'.mu.Agrees s'.mode) (hwriter : s.mu.writer = none)
    (hmu : s'.mu.writer = none) (hpc : ∀ g', s'.pc g' = if g' = g then p else s.pc g')
    (hfilled : Filled c (atomic c store calls) s'.store)
    (hp : PcOk c store calls s'.store p) : Sim c store calls s' := by
  refine ⟨hagrees, by rwa [base_of_none hmu], fun g' => ?_⟩
  rw [hpc]
  split
  case isTrue => exact hp
  case isFalse =>
    have hok := h.pcs g'
    cases hm : s.mode g' with
    | out => exact pcOk_of_out hm
    | shared => exact pcOk_of_shared hm hok _
    | exclusive =>
        have hw := (h.agrees.exclusive g').mp hm
        exact absurd (hw.symm.trans hwriter) (Option.some_ne_none g')

/-- A move of one who has the lock alone, and keeps it or takes it. -/
theorem of_exclusive {g : Nat} {s' : Sys TKey T} {p : Pc TKey T} (hagrees : s'.mu.Agrees s'.mode) (hp : p.mode = .exclusive)
    (hpc : ∀ g', s'.pc g' = if g' = g then p else s.pc g')
    (hfilled : Filled c (p.pending (atomic c store calls')) s'.store)
    (hok : PcOk c store calls' s'.store p) : Sim c store calls' s' := by
  have hself : s'.pc g = p := by rw [hpc, if_pos rfl]
  have hmode : s'.mode g = .exclusive := by rw [Sys.mode, hself, hp]
  have hwriter := (hagrees.exclusive g).mp hmode
  refine ⟨hagrees, by rwa [base_of_writer hwriter, hself], fun g' => ?_⟩
  by_cases hg' : g' = g
  · rw [hg', hself]
    exact hok
  · have hout : s'.mode g' = .out := by
      by_contra hne
      exact hg' (hagrees.alone hmode hne)
    exact pcOk_of_out hout

/-- Nobody but the one who comes or goes is concerned. -/
theorem out_step (h : Sim c store calls s) {g : Nat} {s' : Sys TKey T} {p : Pc TKey T}
    (hagrees : s'.mu.Agrees s'.mode) (hp : p.mode = .out)
    (hpc : ∀ g', s'.pc g' = if g' = g then p else s.pc g') (hstore : s'.store = s.store)
    (hbase : s'.base (atomic c store calls) = s.base (atomic c store calls)) :
    Sim c store calls s' := by
  refine ⟨hagrees, by rw [hbase, hstore]; exact h.filled, fun g' => ?_⟩
  rw [hpc, hstore]
  split
  case isTrue => exact pcOk_of_out hp
  case isFalse => exact h.pcs g'

theorem locked (h : Sim c store calls s) {g : Nat} {call : Call TKey T}
    (hw : call.writes = true) (hfree : s.mu.writer = none) {s' : Sys TKey T}
    (hagrees : s'.mu.Agrees s'.mode)
    (hpc : ∀ g', s'.pc g' = if g' = g then afterLock c call else s.pc g')
    (hstore : s'.store = s.store) :
    Sim c store (calls ++ effect c (.locked g call)) s' := by
  have hfilled : Filled c (atomic c store calls) s'.store := by
    rw [hstore]
    have := h.filled
    rwa [base_of_none hfree] at this
  cases hkey : c.keyTransformer call.key with
  | error err =>
      have hrun := run_of_key_error (a := atomic c store calls) hw hkey .ok
      have hp : afterLock c call = .unlock call (.error err) := by rw [afterLock, hkey]
      have heffect : effect c (.locked g call) = [(call, .ok)] := by simp only [effect, hkey]
      rw [hp] at hpc
      rw [heffect]
      refine of_exclusive hagrees rfl hpc ?_ ⟨calls, .ok, rfl, by rw [hrun]; rfl⟩
      show Filled c (atomic c store (calls ++ [(call, .ok)])) s'.store
      rw [atomic_snoc, hrun]
      exact hfilled
  | ok queryKey =>
      have hp : afterLock c call = .write call queryKey := by rw [afterLock, hkey]
      have heffect : effect c (.locked g call) = [] := by simp only [effect, hkey]
      rw [hp] at hpc
      rw [heffect, List.append_nil]
      exact of_exclusive hagrees rfl hpc hfilled ⟨hw, hkey⟩

theorem written (h : Sim c store calls s) {g : Nat} {call : Call TKey T} {queryKey : String}
    (hwrite : s.pc g = .write call queryKey) {s' : Sys TKey T}
    (hagrees : s'.mu.Agrees s'.mode)
    (hpc : ∀ g', s'.pc g' = if g' = g then afterWrite c call queryKey else s.pc g')
    (hstore : s'.store = s.store.setMem queryKey call.value) :
    Sim c store (calls ++ effect c (.written g call)) s' := by
  have hok := h.pcs g
  have hfilled := h.filled_of_exclusive (congrArg Pc.mode hwrite)
  rw [hwrite] at hok hfilled
  obtain ⟨hw, hkey⟩ := hok
  have hset : Filled c ((atomic c store calls).setMem queryKey call.value) s'.store := by
    rw [hstore]
    exact hfilled.setMem queryKey call.value
  by_cases hoff : c.enabled = false
  · have hrun := run_of_disabled (a := atomic c store calls) hoff hw hkey .ok
    have hp : afterWrite c call queryKey = .unlock call (.ok ()) := if_pos hoff
    have heffect : effect c (.written g call) = [(call, .ok)] := if_pos hoff
    rw [hp] at hpc
    rw [heffect]
    refine of_exclusive hagrees rfl hpc ?_ ⟨calls, .ok, rfl, by rw [hrun]; rfl⟩
    show Filled c (atomic c store (calls ++ [(call, .ok)])) s'.store
    rw [atomic_snoc, hrun]
    exact hset
  · have hp : afterWrite c call queryKey = .send call queryKey := if_neg hoff
    have heffect : effect c (.written g call) = [] := if_neg hoff
    rw [hp] at hpc
    rw [heffect, List.append_nil]
    refine of_exclusive hagrees rfl hpc hset ⟨hw, hkey, by simpa using hoff, ?_⟩
    rw [hstore, inMemStore_setMem_self]

theorem sentError (h : Sim c store calls s) {g : Nat} {call : Call TKey T}
    {queryKey err : String} {reply : Reply} (hsend : s.pc g = .send call queryKey)
    (henc : encoded c call.value = .error err) {s' : Sys TKey T}
    (hagrees : s'.mu.Agrees s'.mode)
    (hpc : ∀ g', s'.pc g' = if g' = g then .unlock call (.error err) else s.pc g')
    (hstore : s'.store = s.store) : Sim c store (calls ++ [(call, reply)]) s' := by
  have hok := h.pcs g
  have hfilled := h.filled_of_exclusive (congrArg Pc.mode hsend)
  rw [hsend] at hok hfilled
  obtain ⟨hw, hkey, hon, -⟩ := hok
  have hrun := run_of_encode_error (a := atomic c store calls) hon hw hkey henc reply
  refine of_exclusive hagrees rfl hpc ?_ ⟨calls, reply, rfl, by rw [hrun]; rfl⟩
  show Filled c (atomic c store (calls ++ [(call, reply)])) s'.store
  rw [atomic_snoc, hrun, hstore]
  exact hfilled

theorem sent (h : Sim c store calls s) {g : Nat} {call : Call TKey T} {queryKey : String}
    {reply : Reply} {b : Option Bytes} (hsend : s.pc g = .send call queryKey)
    (henc : encoded c call.value = .ok b) {s' : Sys TKey T} (hagrees : s'.mu.Agrees s'.mode)
    (hpc : ∀ g', s'.pc g' = if g' = g then .unlock call (Reply.outcome reply) else s.pc g')
    (hstore : s'.store = s.store.write reply queryKey b) :
    Sim c store (calls ++ [(call, reply)]) s' := by
  have hok := h.pcs g
  have hfilled := h.filled_of_exclusive (congrArg Pc.mode hsend)
  rw [hsend] at hok hfilled
  obtain ⟨hw, hkey, hon, hmem⟩ := hok
  have hrun := run_of_encoded (a := atomic c store calls) hon hw hkey henc reply
  refine of_exclusive hagrees rfl hpc ?_
    ⟨calls, reply, rfl, by rw [hrun]; exact (answer_result ..).symm⟩
  show Filled c (atomic c store (calls ++ [(call, reply)])) s'.store
  rw [atomic_snoc, hrun, after_result, hstore]
  exact hfilled.write (hmem.trans (inMemStore_setMem_self ..).symm) reply b

/-- **ONE ACCESS** keeps it, with the call that takes effect in it. -/
theorem step (h : Sim c store calls s) (hs : Step c s l s') :
    Sim c store (calls ++ effect c l) s' := by
  have hagrees := agrees_step h.agrees hs
  have hmode : ∀ {g : Nat} {p : Pc TKey T}, s.pc g = p → s.mode g = p.mode :=
    fun hp => congrArg Pc.mode hp
  have hok : ∀ {g : Nat} {p : Pc TKey T}, s.pc g = p → PcOk c store calls s.store p := by
    rintro g p rfl
    exact h.pcs g
  cases hs with
  | @call g call hpc =>
      show Sim c store (calls ++ []) _
      rw [List.append_nil]
      refine h.out_step hagrees rfl (s.pc_goto g _) rfl ?_
      -- the one who writes is not the one who calls
      cases hw : s.mu.writer with
      | none => rw [base_of_none hw, base_of_none (s := s.goto g _) hw]
      | some g' =>
          have hne : g' ≠ g := by
            rintro rfl
            have hexcl := (h.agrees.exclusive g').mpr hw
            rw [hmode hpc] at hexcl
            exact Mode.noConfusion hexcl
          rw [base_of_writer hw, base_of_writer (s := s.goto g _) hw, Sys.pc_goto, if_neg hne]
  | @rlocked g key hpc hfree =>
      show Sim c store (calls ++ []) _
      rw [List.append_nil]
      have hfilled := h.filled
      rw [base_of_none hfree] at hfilled
      exact h.shared_step hagrees hfree hfree (s.pc_goto g _) hfilled (pcOk_afterRLock key)
  | @read g key queryKey hpc =>
      show Sim c store (calls ++ []) _
      rw [List.append_nil]
      have hfree := h.agrees.writer_none (hmode hpc)
      have hfilled := h.filled_of_shared (hmode hpc)
      exact h.shared_step hagrees hfree hfree (s.pc_goto g _) hfilled
        (pcOk_afterRead hfilled (hok hpc))
  | @answered g key queryKey redisErr hpc =>
      show Sim c store (calls ++ []) _
      rw [List.append_nil]
      have hfree := h.agrees.writer_none (hmode hpc)
      have hfilled := h.filled_of_shared (hmode hpc)
      exact h.shared_step hagrees hfree hfree (s.pc_goto g _) hfilled
        (pcOk_afterAsk hfilled.redis (hok hpc) redisErr)
  | @filled g key queryKey ret hpc =>
      show Sim c store (calls ++ []) _
      rw [List.append_nil]
      have hfree := h.agrees.writer_none (hmode hpc)
      have hfilled := h.filled_of_shared (hmode hpc)
      obtain ⟨-, hon, hnone, b, hb, hret⟩ := hok hpc
      exact h.shared_step hagrees hfree hfree (s.pc_goto g _)
        (hfilled.fill hon hnone hb hret) (pcOk_filled (hok hpc) _)
  | @runlocked g key res hpc =>
      show Sim c store (calls ++ []) _
      rw [List.append_nil]
      have hfree := h.agrees.writer_none (hmode hpc)
      exact h.shared_step hagrees hfree hfree (s.pc_goto g _)
        (h.filled_of_shared (hmode hpc)) trivial
  | @locked g call hpc hw hfree hempty =>
      exact h.locked hw hfree hagrees (s.pc_goto g _) rfl
  | @written g call queryKey hpc => exact h.written hpc hagrees (s.pc_goto g _) rfl
  | @sentError g call queryKey reply err hpc henc =>
      exact h.sentError hpc henc hagrees (s.pc_goto g _) rfl
  | @sent g call queryKey reply b hpc henc =>
      exact h.sent hpc henc hagrees (s.pc_goto g _) rfl
  | @unlocked g call res hpc =>
      show Sim c store (calls ++ []) _
      rw [List.append_nil]
      have hwriter := (h.agrees.exclusive g).mp (hmode hpc)
      refine h.out_step hagrees rfl (s.pc_goto g _) rfl ?_
      rw [base_of_writer hwriter, hpc, base_of_none rfl]
      rfl

end Sim

theorem sim_run {tr : List (Sys TKey T × Event TKey T)}
    (h : Run (Step c) (Sys.init store) tr s) : Sim c store (effects c tr) s := by
  induction h with
  | start => exact ⟨RwLock.Agrees.free.congr fun _ => rfl, Filled.refl, fun _ => trivial⟩
  | next _ hs ih =>
      rw [effects_snoc]
      exact ih.step hs

end Step

/-- **THE CALLS ARE ATOMIC.**  On every run, the calls of `Set` and `Delete` take effect one
    at a time, and each returns what it returns in that order; a `Get` returns what it
    returns between two of them, whatever other calls of `Get` fill in meanwhile; and where
    nobody holds the lock alone, the store answers as the calls one at a time have left
    it. -/
theorem calls_atomic {store : Store T} {tr : List (Sys TKey T × Event TKey T)}
    {s : Sys TKey T} (h : Run (Step c) (Sys.init store) tr s) :
    (s.mu.writer = none → ∀ key, answer ((get c none key).run s.store)
      = answer ((get c none key).run (atomic c store (effects c tr))))
    ∧ (∀ g key res, s.pc g = .runlock key res → ∃ redisErr,
        res = answer ((get c redisErr key).run (atomic c store (effects c tr))))
    ∧ ∀ g call res, s.pc g = .unlock call res → ∃ pre reply,
        effects c tr = pre ++ [(call, reply)]
        ∧ res = answer ((call.run c reply).run (atomic c store pre)) := by
  have hsim := sim_run h
  refine ⟨fun hfree key => ?_, fun g key res hpc => ?_, fun g call res hpc => ?_⟩
  · have hfilled := hsim.filled
    rw [base_of_none hfree] at hfilled
    exact hfilled.answer_get key
  · have hok := hsim.pcs g
    rwa [hpc] at hok
  · have hok := hsim.pcs g
    rwa [hpc] at hok

/-- A value is set by one goroutine and got by another. -/
theorem calls_atomic_set_get : ∃ tr s,
    Run (Step sampleConf) (Sys.init ⟨fun _ => none, fun _ => none⟩) tr s
    ∧ s.pc 1 = .runlock "key" (.ok (some 3)) ∧ ∃ redisErr,
      .ok (some 3) = answer ((get sampleConf redisErr "key").run
        (atomic sampleConf ⟨fun _ => none, fun _ => none⟩ (effects sampleConf tr))) := by
  have h₁ := (Run.start : Run (Step sampleConf)
    (Sys.init ⟨fun _ => none, fun _ => none⟩) [] _).next
      (l := .call 0 (.set "key" 3)) (Step.call rfl)
  have h₂ := h₁.next (l := .locked 0 (.set "key" 3)) (Step.locked rfl rfl rfl rfl)
  have h₃ := h₂.next (l := .written 0 (.set "key" 3)) (Step.written rfl)
  have h₄ := h₃.next (l := .sent 0 (.set "key" 3) .ok) (Step.sent rfl rfl)
  have h₅ := h₄.next (l := .unlocked 0) (Step.unlocked rfl)
  have h₆ := h₅.next (l := .call 1 (.get "key")) (Step.call rfl)
  have h₇ := h₆.next (l := .rlocked 1 "key") (Step.rlocked rfl rfl)
  have h₈ := h₇.next (l := .read 1) (Step.read rfl)
  exact ⟨_, _, h₈, rfl, (calls_atomic h₈).2.1 1 "key" _ rfl⟩


end Atomic

end JrtcStoreLock
