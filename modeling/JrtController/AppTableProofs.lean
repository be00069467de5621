import JrtController.DeleteProofs

/-! # The table of apps without a lock

    `load_app` and `unload_app` share `app_envs` and `next_available_app_env`.  The REST
    thread calls both, and so does the main thread: `start_jrtc` loads the north io app
    after it has started the server, and unloads every app after it has told the server to
    stop, which is not waited for.  No lock orders the two.  Here every access to the table
    and to an env is a step of its own, and any number of threads interleave; an env is
    named by its allocation, so a pointer to one that was freed is never good again.

    * `Role` — what a thread has to do with which env where it is;
    * `Safe` — nobody uses an env that was freed, nobody takes one that another thread is
      loading or unloading, and none is lost;
    * `Apart` — the five accesses that must not fall where they may;
    * `table_safe_iff` — on every run the two are the same;
    * `safe_of_alone` — they hold if the calls do not overlap, the table is never found full
      and no load fails once it has a slot. -/

namespace JrtcAppTable

open JrtcController Runs
open JrtcDelete (northIoReq)

/-! ## The model -/

/-- Where a thread is in `load_app` or `unload_app`. -/
inductive Pc where
  | idle
  /-- `_is_app_loaded`, before it reads `app_envs[i]` -/
  | check (req : LoadReq) (i : Nat)
  /-- it has read the pointer and compares what it points to -/
  | compare (req : LoadReq) (i : Nat) (e : EnvId)
  | alloc (req : LoadReq)
  /-- `_jrtc_reserve_app_id`, before it reads the slot `n` past the next one -/
  | scan (req : LoadReq) (e : EnvId) (n : Nat)
  /-- it has found `NULL` there -/
  | store (req : LoadReq) (e : EnvId) (i : Slot)
  /-- `_jrtc_load_app_from_memory` -/
  | opening (req : LoadReq) (e : EnvId) (i : Slot)
  /-- the env is filled, before `pthread_create` -/
  | starting (e : EnvId) (i : Slot)
  /-- the error exit: `_jrtc_release_app_id`, then `free` -/
  | undo (e : EnvId) (i : Slot)
  | undoClear (e : EnvId) (i : Slot)
  | freeAgain (e : EnvId)
  /-- `unload_app`, before it reads `app_envs[app_id]` -/
  | read (i : Slot)
  | exiting (e : EnvId) (i : Slot)
  | joining (e : EnvId) (i : Slot)
  /-- `dlclose`, `jrtc_router_deregister_app` and `free` of the names -/
  | closing (e : EnvId) (i : Slot)
  /-- `_jrtc_release_app_id` -/
  | release (e : EnvId) (i : Slot)
  | clear (e : EnvId) (i : Slot)

/-- Where a call of `load_app` begins. -/
def begins (req : LoadReq) : Pc :=
  match req.app with
  | none => .idle
  | some image =>
      if image.size = 0 then .idle
      else if looksUp req then .check req 0
      else .alloc req

/-- The table, the envs that are allocated with what `load_app` has put into them, the apps
    whose threads run, and where each caller is. -/
structure Sys where
  appEnvs             : Slot → Option EnvId
  nextAvailableAppEnv : Slot
  mem                 : EnvId → Option (Option AppEnv)
  nextEnv             : EnvId
  running             : EnvId → Bool
  pc                  : Nat → Pc

def Sys.init : Sys where
  appEnvs := fun _ => none
  nextAvailableAppEnv := ⟨0, Nat.zero_lt_succ _⟩
  mem := fun _ => none
  nextEnv := 0
  running := fun _ => false
  pc := fun _ => .idle

def Sys.goto (s : Sys) (k : Nat) (pc : Pc) : Sys :=
  { s with pc := Function.update s.pc k pc }

/-- Which access, by which thread; `ends` is the end of an app's own thread. -/
inductive Event where
  | load (k : Nat) (req : LoadReq)
  | unload (k : Nat) (i : Slot)
  | look (k : Nat)
  | compare (k : Nat)
  | calloc (k : Nat) (ok : Bool)
  | test (k : Nat)
  | full (k : Nat)
  | store (k : Nat)
  | dlopen (k : Nat) (ok : Bool)
  | create (k : Nat) (ok : Bool)
  | free (k : Nat)
  | clear (k : Nat)
  | freeAgain (k : Nat)
  | read (k : Nat)
  | exit (k : Nat)
  | join (k : Nat)
  | close (k : Nat)
  | ends (e : EnvId)

/-- The slot `_jrtc_reserve_app_id` reads in round `n`. -/
def Sys.index (s : Sys) (n : Nat) : Slot := slotAfter s.nextAvailableAppEnv n

/-- One access. -/
inductive Step : Sys → Event → Sys → Prop
  | load {s : Sys} {k : Nat} {req : LoadReq} :
      s.pc k = .idle → Step s (.load k req) (s.goto k (begins req))
  | unload {s : Sys} {k : Nat} {i : Slot} :
      s.pc k = .idle → Step s (.unload k i) (s.goto k (.read i))
  | lookNone {s : Sys} {k : Nat} {req : LoadReq} {i : Slot} :
      s.pc k = .check req i.val → s.appEnvs i = none →
      Step s (.look k) (s.goto k (.check req (i.val + 1)))
  | look {s : Sys} {k : Nat} {req : LoadReq} {i : Slot} {e : EnvId} :
      s.pc k = .check req i.val → s.appEnvs i = some e →
      Step s (.look k) (s.goto k (.compare req i.val e))
  | lookEnd {s : Sys} {k : Nat} {req : LoadReq} {i : Nat} :
      s.pc k = .check req i → 64 ≤ i → Step s (.look k) (s.goto k (.alloc req))
  | compare {s : Sys} {k : Nat} {req : LoadReq} {i : Nat} {e : EnvId} {c : Option AppEnv} :
      s.pc k = .compare req i e → s.mem e = some c →
      Step s (.compare k) (s.goto k (if sameApp req c then .idle else .check req (i + 1)))
  | callocFails {s : Sys} {k : Nat} {req : LoadReq} :
      s.pc k = .alloc req → Step s (.calloc k false) (s.goto k .idle)
  | calloc {s : Sys} {k : Nat} {req : LoadReq} :
      s.pc k = .alloc req →
      Step s (.calloc k true) { s.goto k (.scan req s.nextEnv 0) with
        mem := Function.update s.mem s.nextEnv (some none)
        nextEnv := s.nextEnv + 1 }
  | test {s : Sys} {k : Nat} {req : LoadReq} {e : EnvId} {n : Nat} :
      s.pc k = .scan req e n → n < 64 →
      Step s (.test k) (s.goto k (if s.appEnvs (s.index n) = none
        then .store req e (s.index n) else .scan req e (n + 1)))
  -- the env stays allocated
  | full {s : Sys} {k : Nat} {req : LoadReq} {e : EnvId} {n : Nat} :
      s.pc k = .scan req e n → 64 ≤ n → Step s (.full k) (s.goto k .idle)
  | store {s : Sys} {k : Nat} {req : LoadReq} {e : EnvId} {i : Slot} :
      s.pc k = .store req e i →
      Step s (.store k) { s.goto k (.opening req e i) with
        appEnvs := Function.update s.appEnvs i (some e)
        nextAvailableAppEnv := i + 1 }
  | dlopenFails {s : Sys} {k : Nat} {req : LoadReq} {e : EnvId} {i : Slot} :
      s.pc k = .opening req e i → Step s (.dlopen k false) (s.goto k (.undo e i))
  | dlopen {s : Sys} {k : Nat} {req : LoadReq} {e : EnvId} {i : Slot} {image : Image} :
      s.pc k = .opening req e i → req.app = some image →
      Step s (.dlopen k true) { s.goto k (.starting e i) with
        mem := Function.update s.mem e (some (some (fillEnv req ⟨e, image⟩))) }
  | createFails {s : Sys} {k : Nat} {e : EnvId} {i : Slot} :
      s.pc k = .starting e i → Step s (.create k false) (s.goto k (.undo e i))
  | create {s : Sys} {k : Nat} {e : EnvId} {i : Slot} :
      s.pc k = .starting e i →
      Step s (.create k true) { s.goto k .idle with
        running := Function.update s.running e true }
  -- `free(app_envs[app_id])`, whatever is there now
  | undoFree {s : Sys} {k : Nat} {e e' : EnvId} {i : Slot} :
      s.pc k = .undo e i → s.appEnvs i = some e' →
      Step s (.free k) { s.goto k (.undoClear e i) with
        mem := Function.update s.mem e' none }
  | undoNone {s : Sys} {k : Nat} {e : EnvId} {i : Slot} :
      s.pc k = .undo e i → s.appEnvs i = none → Step s (.free k) (s.goto k (.freeAgain e))
  | undoClear {s : Sys} {k : Nat} {e : EnvId} {i : Slot} :
      s.pc k = .undoClear e i →
      Step s (.clear k) { s.goto k (.freeAgain e) with
        appEnvs := Function.update s.appEnvs i none }
  | freeAgain {s : Sys} {k : Nat} {e : EnvId} :
      s.pc k = .freeAgain e →
      Step s (.freeAgain k) { s.goto k .idle with mem := Function.update s.mem e none }
  | readNone {s : Sys} {k : Nat} {i : Slot} :
      s.pc k = .read i → s.appEnvs i = none → Step s (.read k) (s.goto k .idle)
  | read {s : Sys} {k : Nat} {i : Slot} {e : EnvId} :
      s.pc k = .read i → s.appEnvs i = some e → Step s (.read k) (s.goto k (.exiting e i))
  | exit {s : Sys} {k : Nat} {e : EnvId} {i : Slot} :
      s.pc k = .exiting e i → Step s (.exit k) (s.goto k (.joining e i))
  | join {s : Sys} {k : Nat} {e : EnvId} {i : Slot} :
      s.pc k = .joining e i → s.running e = false → Step s (.join k) (s.goto k (.closing e i))
  | close {s : Sys} {k : Nat} {e : EnvId} {i : Slot} :
      s.pc k = .closing e i → Step s (.close k) (s.goto k (.release e i))
  | free {s : Sys} {k : Nat} {e e' : EnvId} {i : Slot} :
      s.pc k = .release e i → s.appEnvs i = some e' →
      Step s (.free k) { s.goto k (.clear e' i) with mem := Function.update s.mem e' none }
  | freeNone {s : Sys} {k : Nat} {e : EnvId} {i : Slot} :
      s.pc k = .release e i → s.appEnvs i = none → Step s (.free k) (s.goto k .idle)
  | clear {s : Sys} {k : Nat} {e : EnvId} {i : Slot} :
      s.pc k = .clear e i →
      Step s (.clear k) { s.goto k .idle with
        appEnvs := Function.update s.appEnvs i none }
  | ends {s : Sys} {e : EnvId} :
      s.running e = true →
      Step s (.ends e) { s with running := Function.update s.running e false }

/-! ## What a thread has to do with an env -/

inductive Role where
  | none
  /-- compares with it -/
  | borrows (e : EnvId)
  /-- has allocated it and seeks a slot -/
  | makes (e : EnvId)
  /-- has given it a slot and loads it -/
  | places (e : EnvId) (i : Slot)
  /-- has given its slot back and frees it once more -/
  | dooms (e : EnvId)
  /-- waits for its thread -/
  | takes (e : EnvId) (i : Slot)
  /-- has joined its thread -/
  | drops (e : EnvId) (i : Slot)
  /-- has freed it and not yet cleared its slot -/
  | freed (e : EnvId) (i : Slot)

def Pc.role : Pc → Role
  | .idle | .check _ _ | .alloc _ | .read _ => .none
  | .compare _ _ e => .borrows e
  | .scan _ e _ | .store _ e _ => .makes e
  | .opening _ e i | .starting e i | .undo e i => .places e i
  | .undoClear e _ | .freeAgain e => .dooms e
  | .exiting e i | .joining e i => .takes e i
  | .closing e i | .release e i => .drops e i
  | .clear e i => .freed e i

/-- The env a thread is loading or unloading. -/
def Role.own : Role → Option EnvId
  | .makes e | .places e _ | .dooms e | .takes e _ | .drops e _ | .freed e _ => some e
  | .none | .borrows _ => Option.none

/-- The env a thread will still follow its pointer to. -/
def Role.hand : Role → Option EnvId
  | .borrows e | .makes e | .places e _ | .dooms e | .takes e _ | .drops e _ => some e
  | .none | .freed _ _ => Option.none

/-- The slot a thread takes its env to be in. -/
def Role.slot : Role → Option (Slot × EnvId)
  | .places e i | .takes e i | .drops e i | .freed e i => some (i, e)
  | _ => Option.none

def Sys.role (s : Sys) (k : Nat) : Role := (s.pc k).role

/-- What must never break. -/
structure Safe (s : Sys) : Prop where
  /-- no thread follows a pointer to an env that was freed -/
  hand   : ∀ k e, (s.role k).hand = some e → s.mem e ≠ none
  /-- no two threads load or unload one env -/
  once   : ∀ j k e, (s.role j).own = some e → (s.role k).own = some e → j = k
  /-- an env that is loaded or unloaded is where its thread takes it to be -/
  placed : ∀ k i e, (s.role k).slot = some (i, e) → s.appEnvs i = some e
  /-- no env is lost -/
  kept   : ∀ e, s.mem e ≠ none → (∃ i, s.appEnvs i = some e) ∨ ∃ k, (s.role k).own = some e
  /-- no app runs whose env was freed -/
  apps   : ∀ e, s.running e = true → s.mem e ≠ none

/-- The accesses that must not fall where they may: a look at a slot whose env was freed,
    an unload of an env that another thread loads or unloads, a store to a slot that is no
    longer empty, the return of a load that found the table full, and a free of what
    another thread has in hand, or by the error exit of a load, which frees twice. -/
def Apart (s : Sys) : Event → Prop
  | .look k => ∀ req (i : Slot) e, s.pc k = .check req i.val → s.appEnvs i = some e →
      s.mem e ≠ none
  | .read k => ∀ i e, s.pc k = .read i → s.appEnvs i = some e →
      ∀ j, (s.role j).own ≠ some e
  | .store k => ∀ req e i, s.pc k = .store req e i → s.appEnvs i = none
  | .full _ => False
  | .free k => (∀ e i, s.pc k ≠ .undo e i)
      ∧ ∀ e i, s.pc k = .release e i → ∀ j, j ≠ k → (s.role j).hand ≠ some e
  | _ => True

/-! ## What the accesses that fall apart keep -/

/-- What a thread knows of its env. -/
def RoleOk (s : Sys) : Role → Prop
  | .none => True
  | .borrows e => s.mem e ≠ none
  | .makes e => s.mem e ≠ none ∧ s.running e = false ∧ ∀ i, s.appEnvs i ≠ some e
  | .places e i | .drops e i => s.mem e ≠ none ∧ s.running e = false ∧ s.appEnvs i = some e
  | .dooms _ => False
  | .takes e i => s.mem e ≠ none ∧ s.appEnvs i = some e
  | .freed e i => s.mem e = none ∧ s.appEnvs i = some e

structure Ok (s : Sys) : Prop where
  role  : ∀ k, RoleOk s (s.role k)
  once  : ∀ j k e, (s.role j).own = some e → (s.role k).own = some e → j = k
  kept  : ∀ e, s.mem e ≠ none → (∃ i, s.appEnvs i = some e) ∨ ∃ k, s.role k = .makes e
  apps  : ∀ e, s.running e = true → s.mem e ≠ none
  table : ∀ i e, s.appEnvs i = some e → s.mem e ≠ none ∨ ∃ k, s.role k = .freed e i
  inj   : ∀ i j e, s.appEnvs i = some e → s.appEnvs j = some e → i = j
  fresh : ∀ e, s.nextEnv ≤ e → s.mem e = none ∧ ∀ i, s.appEnvs i ≠ some e

theorem ok_init : Ok Sys.init where
  role := fun _ => trivial
  once := fun _ _ _ h => by cases h
  kept := fun _ h => absurd rfl h
  apps := fun _ h => by cases h
  table := fun _ _ h => by cases h
  inj := fun _ _ _ h => by cases h
  fresh := fun _ _ => ⟨rfl, fun _ h => by cases h⟩

theorem RoleOk.hand {s : Sys} {r : Role} {e : EnvId} (h : RoleOk s r) (hr : r.hand = some e) :
    s.mem e ≠ none := by
  cases r with
  | none | freed => cases hr
  | borrows => cases hr; exact h
  | dooms => exact h.elim
  | _ => cases hr; exact h.1

theorem RoleOk.slot {s : Sys} {r : Role} {i : Slot} {e : EnvId} (h : RoleOk s r)
    (hr : r.slot = some (i, e)) : s.appEnvs i = some e := by
  cases r with
  | places | drops => cases hr; exact h.2.2
  | takes | freed => cases hr; exact h.2
  | _ => cases hr

theorem Ok.safe {s : Sys} (h : Ok s) : Safe s where
  hand := fun k _ hk => (h.role k).hand hk
  once := h.once
  placed := fun k _ _ hk => (h.role k).slot hk
  kept := by
    intro e he
    rcases h.kept e he with hi | ⟨k, hk⟩
    · exact Or.inl hi
    · exact Or.inr ⟨k, by rw [hk]; rfl⟩
  apps := h.apps

/-- A step leaves an env alone: whether it is allocated, whether its app runs and which
    slots point to it. -/
structure Same (s s' : Sys) (e : EnvId) : Prop where
  mem     : s'.mem e = none ↔ s.mem e = none
  running : s'.running e = s.running e
  slots   : ∀ i, s'.appEnvs i = some e ↔ s.appEnvs i = some e

theorem RoleOk.frame {s s' : Sys} {r : Role} (h : RoleOk s r)
    (hown : ∀ e, r.own = some e → Same s s' e)
    (hborrow : ∀ e, r = .borrows e → s'.mem e ≠ none) : RoleOk s' r := by
  cases r with
  | none => trivial
  | borrows e => exact hborrow e rfl
  | dooms e => exact h
  | makes e =>
      obtain ⟨hmem, hrun, hslots⟩ := hown e rfl
      exact ⟨fun hn => h.1 (hmem.mp hn), hrun.trans h.2.1, fun i hi => h.2.2 i ((hslots i).mp hi)⟩
  | places e i | drops e i =>
      obtain ⟨hmem, hrun, hslots⟩ := hown e rfl
      exact ⟨fun hn => h.1 (hmem.mp hn), hrun.trans h.2.1, (hslots i).mpr h.2.2⟩
  | takes e i =>
      obtain ⟨hmem, -, hslots⟩ := hown e rfl
      exact ⟨fun hn => h.1 (hmem.mp hn), (hslots i).mpr h.2⟩
  | freed e i =>
      obtain ⟨hmem, -, hslots⟩ := hown e rfl
      exact ⟨hmem.mpr h.1, (hslots i).mpr h.2⟩

/-- **ONE THREAD, ONE ENV.**  A step of thread `k` that touches no env but `e`, which no
    other thread loads or unloads, keeps the invariant if it keeps it for `e`. -/
theorem Ok.change {s s' : Sys} (h : Ok s) {k : Nat} {e : EnvId}
    (hother : ∀ j, j ≠ k → s'.role j = s.role j) (hsame : ∀ e', e' ≠ e → Same s s' e')
    (hmine : ∀ j, j ≠ k → (s.role j).own ≠ some e)
    (hborrow : ∀ j, j ≠ k → s.role j = .borrows e → s'.mem e ≠ none)
    (hold : ∀ e', (s.role k).own = some e' → e' = e) (hnew : RoleOk s' (s'.role k))
    (hown : ∀ e', (s'.role k).own = some e' → e' = e)
    (hkept : s'.mem e ≠ none → (∃ i, s'.appEnvs i = some e) ∨ s'.role k = .makes e)
    (happs : s'.running e = true → s'.mem e ≠ none)
    (htable : ∀ i, s'.appEnvs i = some e → s'.mem e ≠ none ∨ s'.role k = .freed e i)
    (hinj : ∀ i j, s'.appEnvs i = some e → s'.appEnvs j = some e → i = j)
    (hnext : s.nextEnv ≤ s'.nextEnv) (hlt : e < s'.nextEnv) : Ok s' where
  role := by
    intro j
    by_cases hj : j = k
    · rw [hj]
      exact hnew
    · rw [hother j hj]
      refine (h.role j).frame (fun e' he' => hsame e' ?_) fun e' he' => ?_
      · rintro rfl
        exact hmine j hj he'
      · by_cases he : e' = e
        · exact he ▸ hborrow j hj (he ▸ he')
        · have hmem : s.mem e' ≠ none := (h.role j).hand (by rw [he']; rfl)
          exact fun hn => hmem ((hsame e' he).mem.mp hn)
  once := by
    -- whoever owns something else than `e` owned it before
    have hback : ∀ j e', e' ≠ e → (s'.role j).own = some e' → (s.role j).own = some e' := by
      intro j e' he hj
      by_cases hjk : j = k
      · exact absurd (hown e' (hjk ▸ hj)) he
      · rwa [hother j hjk] at hj
    have honly : ∀ j, (s'.role j).own = some e → j = k := by
      intro j hj
      by_contra hjk
      rw [hother j hjk] at hj
      exact hmine j hjk hj
    intro i j e' hi hj
    by_cases he : e' = e
    · rw [honly i (he ▸ hi), honly j (he ▸ hj)]
    · exact h.once i j e' (hback i e' he hi) (hback j e' he hj)
  kept := by
    intro e' he'
    by_cases he : e' = e
    · rw [he] at he' ⊢
      exact (hkept he').imp_right fun hk => ⟨k, hk⟩
    · have hmem : s.mem e' ≠ none := fun hn => he' ((hsame e' he).mem.mpr hn)
      rcases h.kept e' hmem with ⟨i, hi⟩ | ⟨j, hj⟩
      · exact Or.inl ⟨i, ((hsame e' he).slots i).mpr hi⟩
      · have hjk : j ≠ k := by
          rintro rfl
          exact he (hold e' (by rw [hj]; rfl))
        exact Or.inr ⟨j, (hother j hjk).trans hj⟩
  apps := by
    intro e' hrun
    by_cases he : e' = e
    · exact he ▸ happs (he ▸ hrun)
    · have hsame' := hsame e' he
      exact fun hn => h.apps e' (hsame'.running ▸ hrun) (hsame'.mem.mp hn)
  table := by
    intro i e' hi
    by_cases he : e' = e
    · rw [he] at hi ⊢
      exact (htable i hi).imp_right fun hk => ⟨k, hk⟩
    · rcases h.table i e' (((hsame e' he).slots i).mp hi) with hmem | ⟨j, hj⟩
      · exact Or.inl fun hn => hmem ((hsame e' he).mem.mp hn)
      · have hjk : j ≠ k := by
          rintro rfl
          exact he (hold e' (by rw [hj]; rfl))
        exact Or.inr ⟨j, (hother j hjk).trans hj⟩
  inj := by
    intro i j e' hi hj
    by_cases he : e' = e
    · exact hinj i j (he ▸ hi) (he ▸ hj)
    · exact h.inj i j e' (((hsame e' he).slots i).mp hi) (((hsame e' he).slots j).mp hj)
  fresh := by
    intro e' hle
    have he : e' ≠ e := fun heq => absurd hlt (Nat.not_lt.mpr (heq ▸ hle))
    obtain ⟨hmem, hslots⟩ := h.fresh e' (hnext.trans hle)
    exact ⟨(hsame e' he).mem.mpr hmem, fun i hi => hslots i (((hsame e' he).slots i).mp hi)⟩

theorem role_goto_self (s : Sys) (k : Nat) (pc : Pc) : (s.goto k pc).role k = pc.role := by
  show (Function.update s.pc k pc k).role = pc.role
  rw [Function.update_self]

theorem role_goto_of_ne {s : Sys} {j k : Nat} {pc : Pc} (h : j ≠ k) :
    (s.goto k pc).role j = s.role j := by
  show (Function.update s.pc k pc j).role = (s.pc j).role
  rw [Function.update_of_ne h]

/-- A thread moves and nothing else changes. -/
theorem Ok.goto {s : Sys} (h : Ok s) {k : Nat} {pc : Pc} (hr : RoleOk s pc.role)
    (hown : ∀ e, pc.role.own = some e → ∀ j, j ≠ k → (s.role j).own ≠ some e)
    (hmakes : ∀ e, s.role k = .makes e → pc.role = .makes e)
    (hfreed : ∀ e i, s.role k = .freed e i → pc.role = .freed e i) : Ok (s.goto k pc) := by
  have hself := role_goto_self s k pc
  have hother : ∀ j, j ≠ k → (s.goto k pc).role j = s.role j := fun j => role_goto_of_ne
  -- a role that others rely on is still somebody's
  have hstays : ∀ r : Role, (s.role k = r → pc.role = r) →
      (∃ j, s.role j = r) → ∃ j, (s.goto k pc).role j = r := by
    rintro r hk ⟨j, hj⟩
    by_cases hjk : j = k
    · exact ⟨k, hself.trans (hk (hjk ▸ hj))⟩
    · exact ⟨j, (hother j hjk).trans hj⟩
  refine ⟨fun j => ?_, fun i j e hi hj => ?_, fun e he => ?_, h.apps, fun i e hi => ?_, h.inj,
    h.fresh⟩
  · by_cases hjk : j = k
    · rw [hjk, hself]
      exact hr
    · rw [hother j hjk]
      exact h.role j
  · by_cases hik : i = k
    · by_cases hjk : j = k
      · rw [hik, hjk]
      · rw [hik, hself] at hi
        rw [hother j hjk] at hj
        exact absurd hj (hown e hi j hjk)
    · rw [hother i hik] at hi
      by_cases hjk : j = k
      · rw [hjk, hself] at hj
        exact absurd hi (hown e hj i hik)
      · rw [hother j hjk] at hj
        exact h.once i j e hi hj
  · exact (h.kept e he).imp_right (hstays _ (hmakes e))
  · exact (h.table i e hi).imp_right (hstays _ (hfreed e i))

/-- A thread moves on with what it has. -/
theorem Ok.goto_same {s : Sys} (h : Ok s) {k : Nat} {pc : Pc} (hrole : pc.role = s.role k) :
    Ok (s.goto k pc) := by
  refine h.goto (hrole ▸ h.role k) (fun e he j hj hown => ?_) (fun e he => hrole.trans he)
    fun e i he => hrole.trans he
  rw [hrole] at he
  exact hj (h.once j k e hown he)

/-- A thread that has nothing to give back lets go of what it has. -/
theorem Ok.goto_none {s : Sys} (h : Ok s) {k : Nat} {pc : Pc} (hrole : pc.role = .none)
    (hk : (s.role k).own = none) : Ok (s.goto k pc) := by
  refine h.goto (by rw [hrole]; trivial) (fun e he => ?_) (fun e he => ?_) fun e i he => ?_
  · rw [hrole] at he
    cases he
  · rw [he] at hk
    cases hk
  · rw [he] at hk
    cases hk

theorem role_begins (req : LoadReq) : (begins req).role = .none := by
  unfold begins
  cases req.app with
  | none => rfl
  | some image =>
      dsimp only
      split
      · rfl
      · split <;> rfl

/-- An env somebody has was allocated before. -/
theorem Ok.own_lt {s : Sys} (h : Ok s) {k : Nat} {e : EnvId} (hk : (s.role k).own = some e) :
    e < s.nextEnv := by
  by_contra hle
  obtain ⟨hmem, hslots⟩ := h.fresh e (Nat.not_lt.mp hle)
  have hrole := h.role k
  cases hr : s.role k with
  | none | borrows => rw [hr] at hk; cases hk
  | freed e' i =>
      rw [hr] at hk hrole
      cases hk
      exact hslots i hrole.2
  | dooms =>
      rw [hr] at hrole
      exact hrole
  | _ =>
      rw [hr] at hk hrole
      cases hk
      exact hrole.1 hmem

/-- What one thread has, no other has. -/
theorem Ok.mine {s : Sys} (h : Ok s) {k : Nat} {e : EnvId} (hk : (s.role k).own = some e) :
    ∀ j, j ≠ k → (s.role j).own ≠ some e :=
  fun j hj hown => hj (h.once j k e hown hk)

theorem Ok.only {s : Sys} {k : Nat} {e : EnvId} (hk : (s.role k).own = some e) :
    ∀ e', (s.role k).own = some e' → e' = e :=
  fun _ h => Option.some.inj (h.symm.trans hk)

theorem Ok.calloc {s : Sys} (h : Ok s) {k : Nat} {req : LoadReq}
    (hk : s.pc k = .alloc req) : Ok { s.goto k (.scan req s.nextEnv 0) with
      mem := Function.update s.mem s.nextEnv (some none), nextEnv := s.nextEnv + 1 } := by
  obtain ⟨hmem, hslots⟩ := h.fresh s.nextEnv le_rfl
  have hrole : s.role k = .none := congrArg Pc.role hk
  have hself := role_goto_self s k (.scan req s.nextEnv 0)
  have hrun : s.running s.nextEnv = false := by
    by_contra hrun
    exact h.apps _ (Bool.eq_true_of_not_eq_false hrun) hmem
  have hnew : Function.update s.mem s.nextEnv (some none) s.nextEnv ≠ none := by simp
  refine h.change (k := k) (e := s.nextEnv) (fun j => role_goto_of_ne) (fun e' he' => ?_)
    (fun j _ hj => absurd (h.own_lt hj) (Nat.lt_irrefl _)) (fun _ _ _ => hnew) ?_ ?_ ?_
    (fun _ => Or.inr hself) (fun _ => hnew) (fun i hi => absurd hi (hslots i))
    (fun i _ hi => absurd hi (hslots i)) (Nat.le_succ _) (Nat.lt_succ_self _)
  · exact ⟨by simp [Function.update_of_ne he'], rfl, fun i => Iff.rfl⟩
  · intro e' he'
    rw [hrole] at he'
    cases he'
  · exact (congrArg (RoleOk _) hself).mpr ⟨hnew, hrun, hslots⟩
  · intro e' he'
    exact (Option.some.inj ((congrArg Role.own hself).symm.trans he')).symm

theorem Ok.store {s : Sys} (h : Ok s) {k : Nat} {req : LoadReq} {e : EnvId} {i : Slot}
    (hk : s.pc k = .store req e i) (hi : s.appEnvs i = none) :
    Ok { s.goto k (.opening req e i) with
      appEnvs := Function.update s.appEnvs i (some e), nextAvailableAppEnv := i + 1 } := by
  have hrole : s.role k = .makes e := congrArg Pc.role hk
  have hown : (s.role k).own = some e := by rw [hrole]; rfl
  obtain ⟨hmem, hrun, hslots⟩ : RoleOk s (.makes e) := hrole ▸ h.role k
  have hself := role_goto_self s k (.opening req e i)
  have hnew : Function.update s.appEnvs i (some e) i = some e := Function.update_self ..
  -- the slot was empty, so no other env leaves it
  have honly : ∀ j, Function.update s.appEnvs i (some e) j = some e → j = i := by
    intro j hj
    by_contra hne
    rw [Function.update_of_ne hne] at hj
    exact hslots j hj
  refine h.change (k := k) (e := e) (fun j => role_goto_of_ne) (fun e' he' => ?_)
    (h.mine hown) (fun _ _ _ => hmem) (Ok.only hown) ?_ ?_ (fun _ => Or.inl ⟨i, hnew⟩)
    (fun _ => hmem) (fun _ _ => Or.inl hmem) (fun j j' hj hj' => ?_) le_rfl (h.own_lt hown)
  · refine ⟨Iff.rfl, rfl, fun j => ?_⟩
    by_cases hj : j = i
    · subst hj
      simp only [hnew, hi]
      simp [Ne.symm he']
    · exact iff_of_eq (congrArg (· = some e') (Function.update_of_ne hj ..))
  · exact (congrArg (RoleOk _) hself).mpr ⟨hmem, hrun, hnew⟩
  · intro e' he'
    exact (Option.some.inj ((congrArg Role.own hself).symm.trans he')).symm
  · rw [honly j hj, honly j' hj']

theorem Ok.dlopen {s : Sys} (h : Ok s) {k : Nat} {req : LoadReq} {e : EnvId} {i : Slot}
    (hk : s.pc k = .opening req e i) (env : AppEnv) :
    Ok { s.goto k (.starting e i) with
      mem := Function.update s.mem e (some (some env)) } := by
  have hrole : s.role k = .places e i := congrArg Pc.role hk
  have hown : (s.role k).own = some e := by rw [hrole]; rfl
  obtain ⟨-, hrun, hslot⟩ : RoleOk s (.places e i) := hrole ▸ h.role k
  have hself := role_goto_self s k (.starting e i)
  have hnew : Function.update s.mem e (some (some env)) e ≠ none := by simp
  refine h.change (k := k) (e := e) (fun j => role_goto_of_ne) (fun e' he' => ?_)
    (h.mine hown) (fun _ _ _ => hnew) (Ok.only hown) ?_ ?_ (fun _ => Or.inl ⟨i, hslot⟩)
    (fun _ => hnew) (fun _ _ => Or.inl hnew) (fun j j' => h.inj j j' e) le_rfl (h.own_lt hown)
  · exact ⟨by simp [Function.update_of_ne he'], rfl, fun i => Iff.rfl⟩
  · exact (congrArg (RoleOk _) hself).mpr ⟨hnew, hrun, hslot⟩
  · intro e' he'
    exact (Option.some.inj ((congrArg Role.own hself).symm.trans he')).symm

theorem Ok.create {s : Sys} (h : Ok s) {k : Nat} {e : EnvId} {i : Slot}
    (hk : s.pc k = .starting e i) :
    Ok { s.goto k .idle with running := Function.update s.running e true } := by
  have hrole : s.role k = .places e i := congrArg Pc.role hk
  have hown : (s.role k).own = some e := by rw [hrole]; rfl
  obtain ⟨hmem, -, hslot⟩ : RoleOk s (.places e i) := hrole ▸ h.role k
  have hself := role_goto_self s k .idle
  refine h.change (k := k) (e := e) (fun j => role_goto_of_ne) (fun e' he' => ?_)
    (h.mine hown) (fun _ _ _ => hmem) (Ok.only hown) ?_ ?_ (fun _ => Or.inl ⟨i, hslot⟩)
    (fun _ => hmem) (fun _ _ => Or.inl hmem) (fun j j' => h.inj j j' e) le_rfl (h.own_lt hown)
  · exact ⟨Iff.rfl, Function.update_of_ne he' .., fun i => Iff.rfl⟩
  · exact (congrArg (RoleOk _) hself).mpr trivial
  · intro e' he'
    cases (congrArg Role.own hself).symm.trans he'

theorem Ok.free {s : Sys} (h : Ok s) {k : Nat} {e e' : EnvId} {i : Slot}
    (hk : s.pc k = .release e i) (hi : s.appEnvs i = some e')
    (hhand : ∀ j, j ≠ k → (s.role j).hand ≠ some e) :
    Ok { s.goto k (.clear e' i) with mem := Function.update s.mem e' none } := by
  have hrole : s.role k = .drops e i := congrArg Pc.role hk
  have hown : (s.role k).own = some e := by rw [hrole]; rfl
  obtain ⟨-, hrun, hslot⟩ : RoleOk s (.drops e i) := hrole ▸ h.role k
  obtain rfl : e = e' := Option.some.inj (hslot.symm.trans hi)
  have hself := role_goto_self s k (.clear e i)
  have hnew : Function.update s.mem e none e = none := Function.update_self ..
  refine h.change (k := k) (e := e) (fun j => role_goto_of_ne) (fun e' he' => ?_)
    (h.mine hown) (fun j hj hb => ?_) (Ok.only hown) ?_ ?_ (fun hne => absurd hnew hne)
    (fun hr => ?_) (fun j hj => Or.inr ?_) (fun j j' => h.inj j j' e) le_rfl (h.own_lt hown)
  · exact ⟨by simp [Function.update_of_ne he'], rfl, fun i => Iff.rfl⟩
  · exact absurd (by rw [hb]; rfl) (hhand j hj)
  · exact (congrArg (RoleOk _) hself).mpr ⟨hnew, hslot⟩
  · intro e' he'
    exact (Option.some.inj ((congrArg Role.own hself).symm.trans he')).symm
  · exact absurd (hrun.symm.trans hr) Bool.false_ne_true
  · rw [h.inj j i e hj hslot]
    exact hself

theorem Ok.clear {s : Sys} (h : Ok s) {k : Nat} {e : EnvId} {i : Slot}
    (hk : s.pc k = .clear e i) :
    Ok { s.goto k .idle with appEnvs := Function.update s.appEnvs i none } := by
  have hrole : s.role k = .freed e i := congrArg Pc.role hk
  have hown : (s.role k).own = some e := by rw [hrole]; rfl
  obtain ⟨hmem, hslot⟩ : RoleOk s (.freed e i) := hrole ▸ h.role k
  have hself := role_goto_self s k .idle
  have hgone : ∀ j, Function.update s.appEnvs i none j ≠ some e := by
    intro j hj
    by_cases hji : j = i
    · rw [hji, Function.update_self] at hj
      cases hj
    · rw [Function.update_of_ne hji] at hj
      exact hji (h.inj j i e hj hslot)
  have hidle : ∀ j, j ≠ k → (s.role j).own ≠ some e := h.mine hown
  refine h.change (k := k) (e := e) (fun j => role_goto_of_ne) (fun e' he' => ?_)
    hidle (fun j hj hb => ?_) (Ok.only hown) ?_ ?_ (fun hne => absurd hmem hne)
    (fun hr => h.apps e hr) (fun j hj => absurd hj (hgone j))
    (fun j _ hj => absurd hj (hgone j)) le_rfl (h.own_lt hown)
  · refine ⟨Iff.rfl, rfl, fun j => ?_⟩
    by_cases hj : j = i
    · subst hj
      simp [hslot, Ne.symm he']
    · exact iff_of_eq (congrArg (· = some e') (Function.update_of_ne hj ..))
  · exact (h.role j).hand (by rw [hb]; rfl)
  · exact (congrArg (RoleOk _) hself).mpr trivial
  · intro e' he'
    cases (congrArg Role.own hself).symm.trans he'

/-- The end of an app's thread. -/
theorem Ok.ends {s : Sys} (h : Ok s) (e : EnvId) :
    Ok { s with running := Function.update s.running e false } := by
  have hstill : ∀ e', s.running e' = false → Function.update s.running e false e' = false := by
    intro e' he'
    by_cases hee : e' = e
    · rw [hee, Function.update_self]
    · rwa [Function.update_of_ne hee]
  refine ⟨fun k => ?_, h.once, h.kept, fun e' hr => ?_, h.table, h.inj, h.fresh⟩
  · have hrole := h.role k
    show RoleOk _ (s.role k)
    cases hr : s.role k with
    | none => trivial
    | makes | places | drops =>
        rw [hr] at hrole
        exact ⟨hrole.1, hstill _ hrole.2.1, hrole.2.2⟩
    | borrows | dooms | takes | freed =>
        rw [hr] at hrole
        exact hrole
  · refine h.apps e' ?_
    by_contra hne
    have hoff := hstill e' (Bool.eq_false_of_not_eq_true hne)
    exact Bool.false_ne_true (hoff.symm.trans hr)

theorem Ok.step {s s' : Sys} {l : Event} (h : Ok s) (hC : Apart s l) (hs : Step s l s') :
    Ok s' := by
  cases hs with
  | load hk => exact h.goto_same (by rw [role_begins, Sys.role, hk]; rfl)
  | unload hk | lookNone hk _ | lookEnd hk _ | callocFails hk | readNone hk _ | exit hk
  | close hk | dlopenFails hk | createFails hk =>
      exact h.goto_same (by rw [Sys.role, hk]; rfl)
  | @look k req i e hk hi =>
      have hmem : s.mem e ≠ none := hC req i e hk hi
      have hrole : s.role k = .none := congrArg Pc.role hk
      refine h.goto hmem (fun e' he' => by cases he') (fun e' he' => ?_) fun e' i' he' => ?_
      · rw [hrole] at he'
        cases he'
      · rw [hrole] at he'
        cases he'
  | @compare k req i e c hk hmem =>
      refine h.goto_none ?_ (by rw [Sys.role, hk]; rfl)
      split <;> rfl
  | calloc hk => exact h.calloc hk
  | @test k req e n hk hn =>
      refine h.goto_same ?_
      rw [Sys.role, hk]
      split <;> rfl
  | full => exact hC.elim
  | store hk => exact h.store hk (hC _ _ _ hk)
  | dlopen hk _ => exact h.dlopen hk _
  | create hk => exact h.create hk
  | undoFree hk _ | undoNone hk _ => exact absurd hk (hC.1 _ _)
  | @undoClear k e i hk =>
      have hrole : s.role k = .dooms e := congrArg Pc.role hk
      have hno : RoleOk s (.dooms e) := hrole ▸ h.role k
      exact hno.elim
  | @freeAgain k e hk =>
      have hrole : s.role k = .dooms e := congrArg Pc.role hk
      have hno : RoleOk s (.dooms e) := hrole ▸ h.role k
      exact hno.elim
  | @read k i e hk hi =>
      have hrole : s.role k = .none := congrArg Pc.role hk
      have hfree := hC i e hk hi
      refine h.goto (show RoleOk s (Pc.exiting e i).role from ⟨?_, hi⟩)
        (fun e' he' j _ => ?_) (fun e' he' => ?_)
        fun e' i' he' => ?_
      · refine (h.table i e hi).resolve_right ?_
        rintro ⟨j, hj⟩
        exact hfree j (by rw [hj]; rfl)
      · exact Option.some.inj he' ▸ hfree j
      · rw [hrole] at he'
        cases he'
      · rw [hrole] at he'
        cases he'
  | @join k e i hk hrun =>
      have hrole : s.role k = .takes e i := congrArg Pc.role hk
      have hown : (s.role k).own = some e := by rw [hrole]; rfl
      obtain ⟨hmem, hslot⟩ : RoleOk s (.takes e i) := hrole ▸ h.role k
      refine h.goto (show RoleOk s (Pc.closing e i).role from ⟨hmem, hrun, hslot⟩)
        (fun e' he' => ?_)
        (fun e' he' => ?_) fun e' i' he' => ?_
      · exact Option.some.inj he' ▸ h.mine hown
      · rw [hrole] at he'
        cases he'
      · rw [hrole] at he'
        cases he'
  | free hk hi => exact h.free hk hi (hC.2 _ _ hk)
  | @freeNone k e i hk hi =>
      have hrole : s.role k = .drops e i := congrArg Pc.role hk
      obtain ⟨-, -, hslot⟩ : RoleOk s (.drops e i) := hrole ▸ h.role k
      exact absurd (hslot.symm.trans hi) (Option.some_ne_none e)
  | clear hk => exact h.clear hk
  | ends => exact h.ends _

/-! ## What the others break -/

/-- A store over another env loses it. -/
theorem Ok.store_not_safe {s : Sys} (h : Ok s) {k : Nat} {req : LoadReq} {e e₀ : EnvId}
    {i : Slot} (hk : s.pc k = .store req e i) (hi : s.appEnvs i = some e₀) :
    ¬ Safe { s.goto k (.opening req e i) with
      appEnvs := Function.update s.appEnvs i (some e), nextAvailableAppEnv := i + 1 } := by
  intro hsafe
  have hrole : s.role k = .makes e := congrArg Pc.role hk
  obtain ⟨-, -, hslots⟩ : RoleOk s (.makes e) := hrole ▸ h.role k
  have hne : e ≠ e₀ := fun heq => hslots i (heq ▸ hi)
  have hgone : ∀ j, Function.update s.appEnvs i (some e) j ≠ some e₀ := by
    intro j hj
    by_cases hji : j = i
    · rw [hji, Function.update_self] at hj
      exact hne (Option.some.inj hj)
    · rw [Function.update_of_ne hji] at hj
      exact hji (h.inj j i e₀ hj hi)
  -- a thread that loads or unloads the old env has it in a slot
  have hnobody : ∀ j, (s.role j).own ≠ some e₀ := by
    intro j hj
    have hjk : j ≠ k := by
      rintro rfl
      rw [hrole] at hj
      exact hne (Option.some.inj hj)
    have hrj := h.role j
    have hlost : ∀ i', (s.role j).slot ≠ some (i', e₀) := by
      intro i' hslot
      refine hgone i' (hsafe.placed j i' e₀ ?_)
      exact (congrArg Role.slot (role_goto_of_ne hjk)).trans hslot
    cases hr : s.role j with
    | none | borrows => rw [hr] at hj; cases hj
    | makes e' =>
        rw [hr] at hj hrj
        cases hj
        exact hrj.2.2 i hi
    | dooms =>
        rw [hr] at hrj
        exact hrj
    | places e' i' | takes e' i' | drops e' i' | freed e' i' =>
        rw [hr] at hj
        cases hj
        exact hlost i' (by rw [hr]; rfl)
  rcases h.table i e₀ hi with hmem | ⟨j, hj⟩
  · rcases hsafe.kept e₀ hmem with ⟨j, hj⟩ | ⟨j, hj⟩
    · exact hgone j hj
    · by_cases hjk : j = k
      · have hself := role_goto_self s k (.opening req e i)
        rw [hjk] at hj
        exact hne (Option.some.inj ((congrArg Role.own hself).symm.trans hj))
      · exact hnobody j ((congrArg Role.own (role_goto_of_ne hjk)).symm.trans hj)
  · exact hnobody j (by rw [hj]; rfl)

/-- A load that returns without a slot loses its env. -/
theorem Ok.full_not_safe {s : Sys} (h : Ok s) {k : Nat} {req : LoadReq} {e : EnvId} {n : Nat}
    (hk : s.pc k = .scan req e n) : ¬ Safe (s.goto k .idle) := by
  intro hsafe
  have hrole : s.role k = .makes e := congrArg Pc.role hk
  have hown : (s.role k).own = some e := by rw [hrole]; rfl
  obtain ⟨hmem, -, hslots⟩ : RoleOk s (.makes e) := hrole ▸ h.role k
  rcases hsafe.kept e hmem with ⟨i, hi⟩ | ⟨j, hj⟩
  · exact hslots i hi
  · by_cases hjk : j = k
    · rw [hjk, role_goto_self] at hj
      cases hj
    · rw [role_goto_of_ne hjk] at hj
      exact h.mine hown j hjk hj

theorem Ok.not_safe {s s' : Sys} {l : Event} (h : Ok s) (hC : ¬ Apart s l) (hs : Step s l s') :
    ¬ Safe s' := by
  cases hs with
  | @look k req i e hk hi =>
      simp only [Apart, not_forall, not_not] at hC
      obtain ⟨req', i', e', hk', hi', hmem⟩ := hC
      obtain ⟨rfl, hval⟩ := Pc.check.inj (hk.symm.trans hk')
      obtain rfl := Fin.ext hval
      obtain rfl : e = e' := Option.some.inj (hi.symm.trans hi')
      intro hsafe
      exact hsafe.hand k e (by rw [role_goto_self]; rfl) hmem
  | @lookNone k req i hk hi =>
      refine absurd ?_ hC
      intro req' i' e' hk' hi'
      obtain ⟨-, hval⟩ := Pc.check.inj (hk.symm.trans hk')
      obtain rfl := Fin.ext hval
      exact absurd (hi.symm.trans hi').symm (Option.some_ne_none e')
  | @lookEnd k req i hk hle =>
      refine absurd ?_ hC
      intro req' i' e' hk' hi'
      obtain ⟨-, hval⟩ := Pc.check.inj (hk.symm.trans hk')
      exact absurd i'.isLt (Nat.not_lt.mpr (hval ▸ hle))
  | @read k i e hk hi =>
      simp only [Apart, not_forall, not_not] at hC
      obtain ⟨i', e', hk', hi', j, hj⟩ := hC
      obtain rfl := Pc.read.inj (hk.symm.trans hk')
      obtain rfl : e = e' := Option.some.inj (hi.symm.trans hi')
      have hjk : j ≠ k := by
        rintro rfl
        rw [Sys.role, hk] at hj
        cases hj
      intro hsafe
      refine hjk (hsafe.once j k e ?_ (by rw [role_goto_self]; rfl))
      rw [role_goto_of_ne hjk]
      exact hj
  | @readNone k i hk hi =>
      refine absurd ?_ hC
      intro i' e' hk' hi'
      obtain rfl := Pc.read.inj (hk.symm.trans hk')
      exact absurd (hi.symm.trans hi').symm (Option.some_ne_none e')
  | @store k req e i hk =>
      simp only [Apart, not_forall] at hC
      obtain ⟨req', e', i', hk', hi⟩ := hC
      obtain ⟨rfl, rfl, rfl⟩ := Pc.store.inj (hk.symm.trans hk')
      obtain ⟨e₀, he₀⟩ := Option.ne_none_iff_exists'.mp hi
      exact h.store_not_safe hk he₀
  | full hk => exact h.full_not_safe hk
  | @undoFree k e e' i hk hi =>
      have hrole : s.role k = .places e i := congrArg Pc.role hk
      obtain ⟨-, -, hslot⟩ : RoleOk s (.places e i) := hrole ▸ h.role k
      obtain rfl : e = e' := Option.some.inj (hslot.symm.trans hi)
      have hself := role_goto_self s k (.undoClear e i)
      intro hsafe
      exact hsafe.hand k e (congrArg Role.hand hself) (Function.update_self e none s.mem)
  | @undoNone k e i hk hi =>
      have hrole : s.role k = .places e i := congrArg Pc.role hk
      obtain ⟨-, -, hslot⟩ : RoleOk s (.places e i) := hrole ▸ h.role k
      exact absurd (hslot.symm.trans hi) (Option.some_ne_none e)
  | @free k e e' i hk hi =>
      have hrole : s.role k = .drops e i := congrArg Pc.role hk
      obtain ⟨-, -, hslot⟩ : RoleOk s (.drops e i) := hrole ▸ h.role k
      obtain rfl : e = e' := Option.some.inj (hslot.symm.trans hi)
      have hnot : ¬ ∀ j, j ≠ k → (s.role j).hand ≠ some e := by
        intro hall
        refine hC ⟨fun e' i' hk' => ?_, fun e' i' hk' => ?_⟩
        · cases hk.symm.trans hk'
        · obtain ⟨rfl, rfl⟩ := Pc.release.inj (hk.symm.trans hk')
          exact hall
      simp only [not_forall, not_not] at hnot
      obtain ⟨j, hjk, hj⟩ := hnot
      have hother : ((s.goto k (.clear e i)).role j).hand = (s.role j).hand :=
        congrArg Role.hand (role_goto_of_ne hjk)
      intro hsafe
      exact hsafe.hand j e (hother.trans hj) (Function.update_self e none s.mem)
  | @freeNone k e i hk hi =>
      have hrole : s.role k = .drops e i := congrArg Pc.role hk
      obtain ⟨-, -, hslot⟩ : RoleOk s (.drops e i) := hrole ▸ h.role k
      exact absurd (hslot.symm.trans hi) (Option.some_ne_none e)
  | _ => exact absurd trivial hC

/-! ## Calls that do not overlap -/

/-- The thread that makes an access. -/
def Event.thread : Event → Option Nat
  | .load k _ | .unload k _ | .look k | .compare k | .calloc k _ | .test k | .full k | .store k
  | .dlopen k _ | .create k _ | .free k | .clear k | .freeAgain k | .read k | .exit k | .join k
  | .close k => some k
  | .ends _ => none

/-- Nobody else is in a call, the table is not found full, and no load gives its slot
    back. -/
structure Alone (s : Sys) (l : Event) : Prop where
  others : ∀ k, l.thread = some k → ∀ j, j ≠ k → s.pc j = .idle
  room   : ∀ k, l ≠ .full k
  loads  : ∀ k e i, l = .free k → s.pc k ≠ .undo e i

/-- The slot a load has found empty is empty. -/
def Found (s : Sys) : Prop := ∀ k req e i, s.pc k = .store req e i → s.appEnvs i = none

/-- If nobody else is in a call, only the thread itself has an env. -/
theorem own_of_others {s : Sys} {k j : Nat} {e : EnvId} (h : ∀ j, j ≠ k → s.pc j = .idle)
    (hj : (s.role j).own = some e ∨ (s.role j).hand = some e) : j = k := by
  by_contra hjk
  rw [Sys.role, h j hjk] at hj
  rcases hj with hj | hj <;> cases hj

theorem Ok.apart {s : Sys} {l : Event} (h : Ok s) (hfound : Found s) (hA : Alone s l) :
    Apart s l := by
  cases l with
  | look k =>
      intro req i e hk hi
      refine (h.table i e hi).resolve_right ?_
      rintro ⟨j, hj⟩
      have hjk := own_of_others (hA.others k rfl) (e := e) (Or.inl (by rw [hj]; rfl))
      rw [hjk, Sys.role, hk] at hj
      cases hj
  | read k =>
      intro i e hk hi j hj
      have hjk := own_of_others (hA.others k rfl) (Or.inl hj)
      rw [hjk, Sys.role, hk] at hj
      cases hj
  | store k => exact hfound k
  | full k => exact hA.room k rfl
  | free k =>
      refine ⟨fun e i => hA.loads k e i rfl, fun e i hk j hjk hj => ?_⟩
      exact hjk (own_of_others (hA.others k rfl) (Or.inr hj))
  | _ => trivial

/-- An access moves no other thread. -/
theorem Step.others {s s' : Sys} {l : Event} {k : Nat} (hs : Step s l s')
    (hl : l.thread = some k) : ∀ j, j ≠ k → s'.pc j = s.pc j := by
  intro j hj
  cases hs with
  | ends => cases hl
  | _ =>
      cases hl
      exact Function.update_of_ne hj ..

/-- Only a test brings a thread to a store, and it has found the slot empty. -/
theorem Step.found {s s' : Sys} {l : Event} {k : Nat} {req : LoadReq} {e : EnvId} {i : Slot}
    (hs : Step s l s') (hl : l.thread = some k) (hk : s'.pc k = .store req e i) :
    s'.appEnvs i = none := by
  cases hs with
  | ends => cases hl
  | @load k req' _ =>
      cases hl
      have hnew : begins req' = .store req e i := (Function.update_self k _ s.pc).symm.trans hk
      have hrole := congrArg Pc.role hnew
      rw [role_begins] at hrole
      cases hrole
  | compare =>
      cases hl
      have hnew := (Function.update_self k _ s.pc).symm.trans hk
      split at hnew <;> cases hnew
  | test =>
      cases hl
      have hnew := (Function.update_self k _ s.pc).symm.trans hk
      split at hnew
      · next hnone =>
          cases hnew
          exact hnone
      · cases hnew
  | _ =>
      cases hl
      cases (Function.update_self k _ s.pc).symm.trans hk

theorem Found.step {s s' : Sys} {l : Event} (h : Found s) (hA : Alone s l) (hs : Step s l s') :
    Found s' := by
  cases hl : l.thread with
  | none =>
      cases hs with
      | ends => exact h
      | _ => cases hl
  | some k =>
      intro j req e i hj
      by_cases hjk : j = k
      · exact hs.found hl (hjk ▸ hj)
      · rw [hs.others hl j hjk, hA.others k hl j hjk] at hj
        cases hj

/-- On a run of calls that do not overlap, the invariant holds all along. -/
theorem ok_of_alone {tr : List (Sys × Event)} {s : Sys} (h : Run Step Sys.init tr s)
    (hA : Meets Alone tr) : Along (fun s => Ok s ∧ Found s) tr s :=
  h.along_of_meets (C := Alone) ⟨ok_init, fun _ _ _ _ hk => by cases hk⟩
    (fun hQ hC hs => ⟨hQ.1.step (hQ.1.apart hQ.2 hC) hs, hQ.2.step hC hs⟩) hA

/-- The main thread loads the north io app into an empty table. -/
theorem exists_loaded : ∃ tr s, Run Step Sys.init tr s ∧ Meets Alone tr
    ∧ s.appEnvs 0 = some 0 ∧ (∀ k, s.pc k = .idle)
    ∧ Meets (fun _ l => ∀ i, l ≠ .unload 0 i) tr := by
  let northIo := northIoReq "libjrtc_north_io.so" ⟨1, true⟩
  have h₁ := (Run.start : Run Step Sys.init [] _).next (l := .load 0 northIo) (Step.load rfl)
  have h₂ := h₁.next (l := .calloc 0 true) (Step.calloc rfl)
  have h₃ := h₂.next (l := .test 0) (Step.test (n := 0) rfl (by simp))
  have h₄ := h₃.next (l := .store 0) (Step.store (e := 0) (i := 0) rfl)
  have h₅ := h₄.next (l := .dlopen 0 true) (Step.dlopen (e := 0) (i := 0) rfl rfl)
  have h₆ := h₅.next (l := .create 0 true) (Step.create (e := 0) (i := 0) rfl)
  -- only thread 0 moves, and it neither finds the table full nor gives a slot back
  have halone : ∀ {s : Sys} {l : Event}, l.thread = some 0 → (∀ j, j ≠ 0 → s.pc j = .idle) →
      l ≠ .full 0 → l ≠ .free 0 → Alone s l := by
    intro s l hl hothers hfull hfree
    refine ⟨fun k hk => ?_, ?_, ?_⟩
    · obtain rfl := Option.some.inj (hl.symm.trans hk)
      exact hothers
    · rintro k rfl
      obtain rfl := Option.some.inj hl
      exact hfull rfl
    · rintro k e i rfl
      obtain rfl := Option.some.inj hl
      exact absurd rfl hfree
  refine ⟨_, _, h₆, ?_, rfl, fun k => ?_, ?_⟩
  · simp only [meets_snoc, meets_nil, true_and]
    refine ⟨⟨⟨⟨⟨?_, ?_⟩, ?_⟩, ?_⟩, ?_⟩, ?_⟩ <;>
      exact halone rfl (fun j hj => by simp [Sys.goto, Sys.init, hj]) (by simp) (by simp)
  · simp [Sys.goto, Sys.init]
  · simp only [meets_snoc, meets_nil, true_and]
    simp

/-- **THE TABLE IS SAFE IFF FIVE ACCESSES FALL APART.**  On every interleaving of `load_app`
    and `unload_app` calls, no thread uses a freed env, no two load or unload one env, no
    env is lost and no app runs without its env, iff no look hits a slot whose env was just
    freed, no unload an env that another call has, no store a slot taken meanwhile, no free
    an env that another call has in hand, no load finds the table full, and none fails once
    it has a slot. -/
theorem table_safe_iff {tr : List (Sys × Event)} {s : Sys} (h : Run Step Sys.init tr s) :
    Along Safe tr s ↔ Meets Apart tr :=
  h.along_iff_meets ok_init (fun _ hQ => hQ.safe) (fun hQ hC hs => hQ.step hC hs)
    (fun hQ hC hs => hQ.not_safe hC hs)

/-- Ctrl-C while `DELETE /app/0` waits for the app: the main thread takes the env the REST
    thread waits with, and both join the one thread. -/
theorem unloaded_twice : ∃ tr s, Run Step Sys.init tr s ∧ s.pc 1 = .joining 0 0
    ∧ s.pc 0 = .exiting 0 0 ∧ ¬ Along Safe tr s := by
  obtain ⟨tr, s, hload, -, hslot, hidle, -⟩ := exists_loaded
  let s₁ := s.goto 1 (.read 0)
  let s₂ := s₁.goto 1 (.exiting 0 0)
  let s₃ := s₂.goto 1 (.joining 0 0)
  let s₄ := s₃.goto 0 (.read 0)
  let s₅ := s₄.goto 0 (.exiting 0 0)
  have h₁ : Step s (.unload 1 0) s₁ := Step.unload (hidle 1)
  have h₂ : Step s₁ (.read 1) s₂ := Step.read (Function.update_self 1 _ s.pc) hslot
  have h₃ : Step s₂ (.exit 1) s₃ := Step.exit (Function.update_self 1 _ s₁.pc)
  have hmain : s₃.pc 0 = .idle := by simp [s₃, s₂, s₁, Sys.goto, hidle]
  have h₄ : Step s₃ (.unload 0 0) s₄ := Step.unload hmain
  have hread : s₄.pc 0 = .read 0 := Function.update_self 0 _ s₃.pc
  have h₅ : Step s₄ (.read 0) s₅ := Step.read hread hslot
  have hrun := ((((hload.next h₁).next h₂).next h₃).next h₄).next h₅
  have hjoin : s₄.pc 1 = .joining 0 0 := by simp [s₄, s₃, Sys.goto]
  refine ⟨_, s₅, hrun, ?_, Function.update_self 0 _ s₄.pc, fun hsafe => ?_⟩
  · simp [s₅, s₄, s₃, Sys.goto]
  · have hlast := (meets_snoc.mp ((table_safe_iff hrun).mp hsafe)).2
    refine hlast 0 0 hread hslot 1 ?_
    rw [Sys.role, hjoin]
    rfl

/-- **ONE CALL AT A TIME IS ENOUGH.**  If no two calls overlap, no load finds the table full
    and none fails once it has a slot, the table is safe. -/
theorem safe_of_alone {tr : List (Sys × Event)} {s : Sys} (h : Run Step Sys.init tr s)
    (hA : Meets Alone tr) : Along Safe tr s :=
  (ok_of_alone h hA).imp fun _ hs => hs.1.safe

/-- The north io app is loaded alone. -/
theorem safe_of_alone_north_io : ∃ tr s, Run Step Sys.init tr s ∧ s.appEnvs 0 = some 0
    ∧ Along Safe tr s := by
  obtain ⟨tr, s, hload, halone, hslot, -⟩ := exists_loaded
  exact ⟨tr, s, hload, hslot, safe_of_alone hload halone⟩

end JrtcAppTable
