import JrtController.LoadRequestProofs

/-! # The REST server and its store

    A handler calls back into the controller and then, at an `await`, takes the
    lock on the store and updates it.  Other handlers run in between, so the store
    and the table `app_envs` are brought into agreement by steps of several
    requests in any order.

    * `RestStep` — the two steps of each handler, and those of the apps' threads;
    * `RestStep.effect` — what each does to table, store and requests;
    * `Rest.Balanced` — ids that are stored or about to be are those of apps that
      are loaded or about to be removed;
    * `agrees_of_inOrder` — the store agrees with the table if each removal finds
      what its request unloaded. -/

namespace JrtcRestServer

open JrtcController JrtcLoadRequest Runs

/-! ## The handlers -/

/-- `JrtcAppState`; the time the app was started at is nowhere read. -/
structure JrtcAppState where
  id      : Int
  request : Payload

/-- What the handlers answer. -/
inductive Answer where
  | ok (app : JrtcAppState)
  | badRequest (details : String)
  | internalError (details : String)
  | noContent
  | notFound (details : String)

/-- The server: the controller behind the callbacks, the store, the POSTs and the
    DELETEs that wait for its lock, and the answers.  `payloadOf` is the payload an
    env was loaded from, and a DELETE is listed with the env it unloaded. -/
structure Rest where
  ctl       : Controller
  store     : List JrtcAppState
  pushing   : List JrtcAppState
  removing  : List (Int × Option EnvId)
  payloadOf : EnvId → Option Payload
  answers   : List Answer

/-- The server at its start, with the apps that the controller loaded itself. -/
def Rest.init (ctl : Controller) : Rest where
  ctl := ctl
  store := []
  pushing := []
  removing := []
  payloadOf := fun _ => none
  answers := []

def Rest.answer (s : Rest) (a : Answer) : Rest := { s with answers := s.answers ++ [a] }

/-- `load_app` from the return of the callback to the lock. -/
def Rest.postReturned (s : Rest) (p : Payload) (response : Int) : Rest :=
  if response = -1 then s.answer (.badRequest "Bad request")
  else if response ≤ -2 then s.answer (.internalError "Internal server error")
  else { s with pushing := s.pushing ++ [⟨response, p⟩] }

/-- `load_app` up to the lock. -/
def Rest.post (s : Rest) (p : Payload) (out : LoadOutcome) : Rest :=
  match p.prepare with
  | .badRequest details => s.answer (.badRequest details)
  | .panicked => s
  | .ready req =>
      Rest.postReturned { s with
        ctl := (loadApp s.ctl req out).2
        payloadOf := Function.update s.payloadOf s.ctl.nextEnv (some p) }
        p (loadApp s.ctl req out).1

/-- `load_app` from the lock on. -/
def Rest.push (s : Rest) (n : Nat) (app : JrtcAppState) : Rest :=
  Rest.answer { s with
    store := s.store ++ [app], pushing := s.pushing.eraseIdx n } (.ok app)

/-- `unload_app` from the return of the callback to the lock. -/
def Rest.deleteReturned (s : Rest) (id : Int) (e : Option EnvId) (response : Int) : Rest :=
  if response = -1 then s.answer .noContent
  else if response ≤ -2 then s.answer (.internalError "Internal server error")
  else { s with removing := s.removing ++ [(id, e)] }

/-- `unload_app` until its callback returns or waits for the app's thread. -/
def Rest.delete (s : Rest) (id : Int) : Rest :=
  match unloadApp s.ctl id with
  | (none, ctl) => { s with ctl := ctl }
  | (some response, ctl) => Rest.deleteReturned { s with ctl := ctl } id none response

/-- The wait is over: `unload_app` of the controller returns 0, or the process is
    aborted. -/
def Rest.joined (s : Rest) (i : Slot) (e : EnvId) (ctl : Controller) (dlclosed : Bool) :
    Rest :=
  if dlclosed then Rest.deleteReturned { s with ctl := ctl } i.val (some e) 0
  else { s with ctl := ctl }

/-- `unload_app` from the lock on. -/
def Rest.remove (s : Rest) (n : Nat) (id : Int) : Rest :=
  match s.store.findIdx? fun x => x.id = id with
  | some index => Rest.answer { s with
      store := s.store.eraseIdx index, removing := s.removing.eraseIdx n } .noContent
  | none => Rest.answer { s with
      removing := s.removing.eraseIdx n } (.notFound "App not found")

/-! ## The system -/

/-- The steps of the handlers up to the lock and from the lock on, and the steps of
    the threads of apps. -/
inductive RestCall where
  | post (p : Payload) (out : LoadOutcome)
  | push (n : Nat)
  | delete (id : Int)
  | joined (dlclosed : Bool)
  | remove (n : Nat)
  | run (l : CtlCall)

/-- One step.  The handlers share one thread: while one waits for an app's thread,
    no other runs. -/
inductive RestStep : Rest → RestCall → Rest → Prop
  | post {s : Rest} {p : Payload} {out : LoadOutcome} : s.ctl.Idle →
      RestStep s (.post p out) (s.post p out)
  | push {s : Rest} {n : Nat} {app : JrtcAppState} : s.ctl.Idle →
      s.pushing[n]? = some app → RestStep s (.push n) (s.push n app)
  | delete {s : Rest} {id : Int} : s.ctl.Idle → RestStep s (.delete id) (s.delete id)
  | joined {s : Rest} {i : Slot} {e : EnvId} {dlclosed : Bool} {ctl : Controller} :
      s.ctl.unloading = some (i, e) → CtlStep s.ctl (.joined dlclosed) ctl →
      RestStep s (.joined dlclosed) (s.joined i e ctl dlclosed)
  | remove {s : Rest} {n : Nat} {id : Int} {e : Option EnvId} : s.ctl.Idle →
      s.removing[n]? = some (id, e) → RestStep s (.remove n) (s.remove n id)
  | run {s : Rest} {l : CtlCall} {e : EnvId} {ctl : Controller} : l.runs = some e →
      CtlStep s.ctl l ctl → RestStep s (.run l) { s with ctl := ctl }

/-- Whether an env was loaded through REST. -/
def Rest.fromRest (s : Rest) (e : Option EnvId) : Bool := (e.bind s.payloadOf).isSome

/-! ## What a step can do -/

theorem Rest.postReturned_ctl (s : Rest) (p : Payload) (response : Int) :
    (s.postReturned p response).ctl = s.ctl
      ∧ (s.postReturned p response).payloadOf = s.payloadOf := by
  unfold Rest.postReturned
  repeat' split
  all_goals exact ⟨rfl, rfl⟩

theorem Rest.deleteReturned_ctl (s : Rest) (id : Int) (e : Option EnvId) (response : Int) :
    (s.deleteReturned id e response).ctl = s.ctl
      ∧ (s.deleteReturned id e response).payloadOf = s.payloadOf := by
  unfold Rest.deleteReturned
  repeat' split
  all_goals exact ⟨rfl, rfl⟩

/-- The controller takes a step of its own or none, only a DELETE unloads, and the
    payload of an env that was allocated before stays. -/
theorem RestStep.ctl {s s' : Rest} {l : RestCall} (h : RestStep s l s') :
    (s'.ctl = s.ctl ∨ ∃ l', CtlStep s.ctl l' s'.ctl
        ∧ ∀ id, l' = .unload id → l = .delete id)
      ∧ ∀ e, e < s.ctl.nextEnv → s'.payloadOf e = s.payloadOf e := by
  cases h with
  | @post p out hidle =>
      unfold Rest.post
      split
      · exact ⟨Or.inl rfl, fun _ _ => rfl⟩
      · exact ⟨Or.inl rfl, fun _ _ => rfl⟩
      · case _ req _ =>
        rw [(Rest.postReturned_ctl _ _ _).1, (Rest.postReturned_ctl _ _ _).2]
        exact ⟨Or.inr ⟨.load req out, CtlStep.load hidle, fun _ h => by cases h⟩,
          fun e he => Function.update_of_ne (Nat.ne_of_lt he) _ _⟩
  | push => exact ⟨Or.inl rfl, fun _ _ => rfl⟩
  | @delete id hidle =>
      have hid : ∀ id', CtlCall.unload id = .unload id' →
          RestCall.delete id = .delete id' := by
        rintro _ ⟨⟩
        rfl
      have hs : CtlStep s.ctl (.unload id) (unloadApp s.ctl id).2 := CtlStep.unload hidle
      unfold Rest.delete
      split
      case _ ctl heq =>
        rw [heq] at hs
        exact ⟨Or.inr ⟨_, hs, hid⟩, fun _ _ => rfl⟩
      case _ response ctl heq =>
        rw [heq] at hs
        rw [(Rest.deleteReturned_ctl _ _ _ _).1, (Rest.deleteReturned_ctl _ _ _ _).2]
        exact ⟨Or.inr ⟨_, hs, hid⟩, fun _ _ => rfl⟩
  | joined _ hs =>
      unfold Rest.joined
      split
      · rw [(Rest.deleteReturned_ctl _ _ _ _).1, (Rest.deleteReturned_ctl _ _ _ _).2]
        exact ⟨Or.inr ⟨_, hs, fun _ h => by cases h⟩, fun _ _ => rfl⟩
      · exact ⟨Or.inr ⟨_, hs, fun _ h => by cases h⟩, fun _ _ => rfl⟩
  | remove =>
      unfold Rest.remove
      split
      · exact ⟨Or.inl rfl, fun _ _ => rfl⟩
      · exact ⟨Or.inl rfl, fun _ _ => rfl⟩
  | run hl hs =>
      refine ⟨Or.inr ⟨_, hs, ?_⟩, fun _ _ => rfl⟩
      rintro id rfl
      cases hl

/-- A POST whose app is loaded. -/
theorem Rest.post_loaded {s : Rest} {p : Payload} {out : LoadOutcome} {i : Slot}
    (hconv : p.Convertible) (hid : (loadApp s.ctl p.cRequest out).1 = i.val) :
    s.post p out = { s with
      ctl := (loadApp s.ctl p.cRequest out).2
      pushing := s.pushing ++ [⟨i.val, p⟩]
      payloadOf := Function.update s.payloadOf s.ctl.nextEnv (some p) } := by
  rw [Rest.post, Payload.prepare_eq_ready_iff.mpr ⟨hconv, rfl⟩]
  dsimp only
  rw [hid, Rest.postReturned, if_neg (by omega), if_neg (by omega)]

/-- **WHAT A STEP DOES** to the table, the store and the requests.  A load or unload
    that returns -1 leaves them alone. -/
inductive RestEffect (s s' : Rest) : RestCall → Prop
  | quiet {l : RestCall} : s'.ctl.appEnvs = s.ctl.appEnvs →
      s'.store = s.store → s'.pushing = s.pushing → s'.removing = s.removing →
      RestEffect s s' l
  | loaded {p : Payload} {out : LoadOutcome} {i : Slot} {handle : Handle} :
      isAppLoaded s.ctl p.cRequest = false → s.ctl.appEnvs i = none →
      s'.ctl.appEnvs = Function.update s.ctl.appEnvs i (some s.ctl.nextEnv) →
      s'.ctl.env s.ctl.nextEnv = some (fillEnv p.cRequest handle) →
      s'.payloadOf s.ctl.nextEnv = some p →
      s'.store = s.store → s'.pushing = s.pushing ++ [⟨i.val, p⟩] →
      s'.removing = s.removing → RestEffect s s' (.post p out)
  | pushed {n : Nat} {app : JrtcAppState} : s'.ctl.appEnvs = s.ctl.appEnvs →
      s.pushing[n]? = some app →
      s'.store = s.store ++ [app] → s'.pushing = s.pushing.eraseIdx n →
      s'.removing = s.removing → RestEffect s s' (.push n)
  | unloaded {i : Slot} {e : EnvId} : s.ctl.appEnvs i = some e →
      s'.ctl.appEnvs = Function.update s.ctl.appEnvs i none →
      s'.store = s.store → s'.pushing = s.pushing →
      s'.removing = s.removing ++ [((i.val : Int), some e)] →
      RestEffect s s' (.joined true)
  | removed {n : Nat} {id : Int} {e : Option EnvId} {index : Nat} {app : JrtcAppState} :
      s'.ctl.appEnvs = s.ctl.appEnvs → s.removing[n]? = some (id, e) →
      s.store[index]? = some app → app.id = id →
      s'.store = s.store.eraseIdx index → s'.pushing = s.pushing →
      s'.removing = s.removing.eraseIdx n → RestEffect s s' (.remove n)
  | notFound {n : Nat} {id : Int} {e : Option EnvId} :
      s'.ctl.appEnvs = s.ctl.appEnvs → s.removing[n]? = some (id, e) →
      (∀ x ∈ s.store, x.id ≠ id) →
      s'.store = s.store → s'.pushing = s.pushing →
      s'.removing = s.removing.eraseIdx n → RestEffect s s' (.remove n)

theorem Rest.post_effect (s : Rest) (p : Payload) (out : LoadOutcome) :
    RestEffect s (s.post p out) (.post p out) := by
  by_cases hconv : p.Convertible
  · have heff := loadApp_cases s.ctl p.cRequest out
    generalize hr : loadApp s.ctl p.cRequest out = r at heff
    obtain ⟨id, ctl⟩ := r
    have hfailed : id = -1 → ctl.appEnvs = s.ctl.appEnvs →
        RestEffect s (s.post p out) (.post p out) := by
      rintro rfl htab
      rw [Rest.post, Payload.prepare_eq_ready_iff.mpr ⟨hconv, rfl⟩]
      dsimp only
      rw [hr]
      exact .quiet htab rfl rfl rfl
    cases heff with
    | refused => exact hfailed rfl rfl
    | noSlot => exact hfailed rfl rfl
    | noLibrary => exact hfailed rfl rfl
    | noThread => exact hfailed rfl rfl
    | @loaded image i hadm _ hi =>
        rw [Rest.post_loaded hconv (congrArg Prod.fst hr), hr]
        exact .loaded hadm.notYet hi rfl (Function.update_self ..) (Function.update_self ..)
          rfl rfl rfl
  · unfold Rest.post
    split
    · exact .quiet rfl rfl rfl rfl
    · exact .quiet rfl rfl rfl rfl
    case _ hready => exact absurd (Payload.prepare_eq_ready_iff.mp hready).1 hconv

theorem Rest.delete_effect (s : Rest) (id : Int) :
    RestEffect s (s.delete id) (.delete id) := by
  unfold Rest.delete
  rcases unloadApp_cases s.ctl id with ⟨-, heq⟩ | ⟨i, -, -, heq⟩ | ⟨i, e, -, -, heq⟩
  · rw [heq]
    exact .quiet rfl rfl rfl rfl
  · rw [heq]
    exact .quiet rfl rfl rfl rfl
  · rw [heq]
    exact .quiet rfl rfl rfl rfl

theorem Rest.remove_effect {s : Rest} {n : Nat} {id : Int} {e : Option EnvId}
    (hreq : s.removing[n]? = some (id, e)) :
    RestEffect s (s.remove n id) (.remove n) := by
  unfold Rest.remove
  split
  case _ index hfind =>
    obtain ⟨hlt, hid, -⟩ := List.findIdx?_eq_some_iff_getElem.mp hfind
    exact .removed rfl hreq (List.getElem?_eq_getElem hlt) (of_decide_eq_true hid)
      rfl rfl rfl
  case _ hfind =>
    refine .notFound rfl hreq (fun x hx hid => ?_) rfl rfl rfl
    have hno := List.findIdx?_eq_none_iff.mp hfind x hx
    exact of_decide_eq_false hno hid

theorem RestStep.effect {s s' : Rest} {l : RestCall} (hw : s.ctl.Wf)
    (h : RestStep s l s') : RestEffect s s' l := by
  cases h with
  | post => exact s.post_effect _ _
  | push _ happ => exact .pushed rfl happ rfl rfl rfl
  | delete => exact s.delete_effect _
  | @joined i e dlclosed ctl hwait hs =>
      have hi := hw.waiting hwait
      cases hs with
      | @joined j e' env _ _ hwait' =>
          obtain ⟨rfl, rfl⟩ := Prod.mk.inj (Option.some.inj (hwait.symm.trans hwait'))
          rcases unloadJoined_cases hi env dlclosed with ⟨rfl, heq⟩ | ⟨rfl, heq⟩
          · rw [heq]
            exact .quiet rfl rfl rfl rfl
          · rw [heq]
            exact .unloaded hi rfl rfl rfl rfl
  | remove _ hreq => exact Rest.remove_effect hreq
  | @run l e ctl hl hs =>
      cases hs.kind hw with
      | load => cases hl
      | unload => cases hl
      | joined => cases hl
      | run _ _ hr => exact .quiet hr.appEnvs rfl rfl rfl

/-- The controller stays well formed and keeps what was allocated. -/
theorem RestStep.keeps {s s' : Rest} {l : RestCall} (hw : s.ctl.Wf)
    (h : RestStep s l s') : s'.ctl.Wf ∧ Keeps s.ctl s'.ctl := by
  rcases h.ctl.1 with heq | ⟨l', hs, -⟩
  · rw [heq]
    exact ⟨hw, .of_env le_rfl fun _ _ => rfl⟩
  · exact ⟨hw.step hs, hs.keeps hw⟩

/-- Only a DELETE of an id that names no slot is undefined. -/
theorem RestStep.defined {s s' : Rest} {l : RestCall} (hw : s.ctl.Wf)
    (h : RestStep s l s') (hd : s.ctl.status ≠ .undefined)
    (hC : ∀ id, l = .delete id → 0 ≤ id ∧ id < 64) : s'.ctl.status ≠ .undefined := by
  rcases h.ctl.1 with heq | ⟨l', hs, hid⟩
  · rw [heq]
    exact hd
  · exact hs.defined hw fun id hl => hC id (hid id hl)

/-- What is in a slot was there before, or a POST has just put it there. -/
theorem RestStep.slot_cases {s s' : Rest} {l : RestCall} (hw : s.ctl.Wf)
    (h : RestStep s l s') {j : Slot} {e : EnvId} (hj : s'.ctl.appEnvs j = some e) :
    s.ctl.appEnvs j = some e
      ∨ ∃ p out handle, l = .post p out ∧ isAppLoaded s.ctl p.cRequest = false
        ∧ e = s.ctl.nextEnv ∧ s'.payloadOf e = some p
        ∧ s'.ctl.env e = some (fillEnv p.cRequest handle) := by
  cases h.effect hw with
  | quiet htab => exact Or.inl (htab ▸ hj)
  | @loaded p out i handle hload hi htab henv hnew =>
      rw [htab] at hj
      rcases update_some hj with ⟨-, ⟨⟩⟩ | ⟨-, hj⟩
      · exact Or.inr ⟨p, out, handle, rfl, hload, rfl, hnew, henv⟩
      · exact Or.inl hj
  | pushed htab => exact Or.inl (htab ▸ hj)
  | unloaded _ htab =>
      rw [htab] at hj
      exact Or.inl (update_none_some hj).2
  | removed htab => exact Or.inl (htab ▸ hj)
  | notFound htab => exact Or.inl (htab ▸ hj)

/-! ## Ids that are stored or about to be -/

/-- How many entries of the store have an id, and how many POSTs add one. -/
def Rest.stored (s : Rest) (id : Int) : Nat := s.store.countP fun x => x.id = id

def Rest.toPush (s : Rest) (id : Int) : Nat := s.pushing.countP fun x => x.id = id

/-- How many DELETEs that unloaded an app of a POST remove an id. -/
def Rest.toRemove (s : Rest) (id : Int) : Nat :=
  s.removing.countP fun x => x.1 = id ∧ s.fromRest x.2 = true

/-- Whether the slot of an id holds an app of a POST. -/
def Rest.occupied (s : Rest) (id : Int) : Bool :=
  s.fromRest ((slotAt id).bind s.ctl.appEnvs)

/-- What is kept while each removal finds what its request unloaded. -/
structure Rest.Balanced (s : Rest) : Prop where
  wf       : s.ctl.Wf
  defined  : s.ctl.status ≠ .undefined
  known    : ∀ id e, (id, some e) ∈ s.removing → e < s.ctl.nextEnv
  balanced : ∀ id, s.stored id + s.toPush id = (s.occupied id).toNat + s.toRemove id

/-- A DELETE removes an entry exactly if the app it unloaded was loaded by a POST,
    and its id names a slot. -/
def InOrder (s : Rest) : RestCall → Prop
  | .delete id => 0 ≤ id ∧ id < 64
  | .remove n => ∀ id e, s.removing[n]? = some (id, e) →
      (s.fromRest e = true ↔ ∃ x ∈ s.store, x.id = id)
  | _ => True

theorem countP_eraseIdx {α : Type*} {l : List α} {n : Nat} {a : α} (h : l[n]? = some a)
    (p : α → Bool) : l.countP p = (l.eraseIdx n).countP p + if p a then 1 else 0 := by
  obtain ⟨hn, rfl⟩ := List.getElem?_eq_some_iff.mp h
  rw [← (List.getElem_cons_eraseIdx_perm hn).countP_eq, List.countP_cons]

theorem Rest.occupied_slot (s : Rest) (i : Slot) :
    s.occupied i.val = s.fromRest (s.ctl.appEnvs i) := by
  rw [Rest.occupied, slotAt_val, Option.bind_some]

/-- An id whose slot stays as it was, in a step that keeps the known payloads. -/
theorem Rest.occupied_congr {s s' : Rest} (id : Int)
    (hslot : ∀ i : Slot, id = i.val → s'.ctl.appEnvs i = s.ctl.appEnvs i)
    (hpay : ∀ i, s'.fromRest (s.ctl.appEnvs i) = s.fromRest (s.ctl.appEnvs i)) :
    s'.occupied id = s.occupied id := by
  unfold Rest.occupied
  cases hid : slotAt id with
  | none => rfl
  | some i =>
      rw [Option.bind_some, Option.bind_some, hslot i (eq_val_of_slotAt hid), hpay i]

namespace Rest.Balanced

variable {s s' : Rest}

theorem slot_lt (h : s.Balanced) {i : Slot} {e : EnvId} (hi : s.ctl.appEnvs i = some e) :
    e < s.ctl.nextEnv := by
  obtain ⟨t, ht⟩ := h.wf.slot hi
  exact (h.wf.thread ht).1

/-- Of a known env it stays known whether it was loaded through REST. -/
theorem fromRest_eq {e : Option EnvId}
    (hpay : ∀ e, e < s.ctl.nextEnv → s'.payloadOf e = s.payloadOf e)
    (he : ∀ x, e = some x → x < s.ctl.nextEnv) : s'.fromRest e = s.fromRest e := by
  cases e with
  | none => rfl
  | some x =>
      unfold Rest.fromRest
      rw [Option.bind_some, Option.bind_some, hpay x (he x rfl)]

theorem fromRest_of_removing (h : s.Balanced)
    (hpay : ∀ e, e < s.ctl.nextEnv → s'.payloadOf e = s.payloadOf e) {id : Int}
    {e : Option EnvId} (hmem : (id, e) ∈ s.removing) : s'.fromRest e = s.fromRest e :=
  fromRest_eq hpay fun x hx => h.known id x (hx ▸ hmem)

/-- The slots outside one keep what is in them. -/
theorem occupied_of_ne (h : s.Balanced) {i : Slot} {v : Option EnvId}
    (hpay : ∀ e, e < s.ctl.nextEnv → s'.payloadOf e = s.payloadOf e)
    (htab : s'.ctl.appEnvs = Function.update s.ctl.appEnvs i v) {id : Int}
    (hid : (i.val : Int) ≠ id) : s'.occupied id = s.occupied id := by
  refine Rest.occupied_congr id (fun j hj => ?_) fun _ =>
    fromRest_eq hpay fun _ hx => h.slot_lt hx
  rw [htab, Function.update_of_ne]
  rintro rfl
  exact hid hj.symm

theorem occupied_of_table (h : s.Balanced)
    (hpay : ∀ e, e < s.ctl.nextEnv → s'.payloadOf e = s.payloadOf e)
    (htab : s'.ctl.appEnvs = s.ctl.appEnvs) (id : Int) : s'.occupied id = s.occupied id :=
  Rest.occupied_congr id (fun j _ => congrFun htab j) fun _ =>
    fromRest_eq hpay fun _ hx => h.slot_lt hx

/-- A request that ends takes its own count with it and leaves that of the others. -/
theorem toRemove_eraseIdx (h : s.Balanced)
    (hpay : ∀ e, e < s.ctl.nextEnv → s'.payloadOf e = s.payloadOf e) {n : Nat} {id' : Int}
    {e : Option EnvId} (hreq : s.removing[n]? = some (id', e))
    (hre : s'.removing = s.removing.eraseIdx n) (id : Int) :
    s.toRemove id
      = s'.toRemove id + if decide (id' = id ∧ s.fromRest e = true) then 1 else 0 := by
  have hrem : s'.toRemove id
      = (s.removing.eraseIdx n).countP fun x => decide (x.1 = id ∧ s.fromRest x.2 = true) := by
    rw [Rest.toRemove, hre]
    refine List.countP_congr fun x hx => ?_
    rw [h.fromRest_of_removing hpay (List.mem_of_mem_eraseIdx hx)]
  rw [hrem, Rest.toRemove, countP_eraseIdx hreq]

theorem balanced_step (h : s.Balanced) {l : RestCall} (hC : InOrder s l)
    (hs : RestStep s l s') (id : Int) :
    s'.stored id + s'.toPush id = (s'.occupied id).toNat + s'.toRemove id := by
  have hbal := h.balanced id
  have hpay := hs.ctl.2
  -- the requests that were there still unloaded what they did
  have hrem : s.removing.countP (fun x => decide (x.1 = id ∧ s'.fromRest x.2 = true))
      = s.toRemove id :=
    List.countP_congr fun x hx => by rw [h.fromRest_of_removing hpay hx]
  unfold Rest.stored Rest.toPush at hbal ⊢
  rw [Rest.toRemove]
  cases hs.effect h.wf with
  | quiet htab hst hpu hre =>
      rw [hst, hpu, hre, hrem, h.occupied_of_table hpay htab, hbal]
  | @loaded p out i handle hload hi htab henv hnew hst hpu hre =>
      rw [hst, hpu, hre, hrem, List.countP_append, List.countP_singleton]
      by_cases hid : (i.val : Int) = id
      · subst hid
        have hold : s.fromRest none = false := rfl
        have hrest : s'.fromRest (some s.ctl.nextEnv) = true := by
          rw [Rest.fromRest, Option.bind_some, hnew, Option.isSome_some]
        rw [Rest.occupied_slot, hi, hold] at hbal
        rw [Rest.occupied_slot, htab, Function.update_self, hrest, decide_eq_true rfl,
          if_pos rfl]
        simp only [Bool.toNat_false, Bool.toNat_true] at hbal ⊢
        omega
      · rw [h.occupied_of_ne hpay htab hid, decide_eq_false hid]
        simpa using hbal
  | @pushed n app htab happ hst hpu hre =>
      rw [hst, hpu, hre, hrem, h.occupied_of_table hpay htab, List.countP_append,
        List.countP_singleton]
      have hpush := countP_eraseIdx happ fun x => decide (x.id = id)
      omega
  | @unloaded i e hi htab hst hpu hre =>
      have hrest : s'.fromRest (some e) = s.fromRest (some e) :=
        fromRest_eq hpay fun x hx => Option.some.inj hx ▸ h.slot_lt hi
      rw [hst, hpu, hre, List.countP_append, hrem, List.countP_singleton, hrest]
      by_cases hid : (i.val : Int) = id
      · subst hid
        have hnew : s'.fromRest none = false := rfl
        rw [Rest.occupied_slot, hi] at hbal
        rw [Rest.occupied_slot, htab, Function.update_self, hnew, hbal]
        cases s.fromRest (some e) <;> simp [Nat.add_comm]
      · rw [h.occupied_of_ne hpay htab hid]
        simpa [hid] using hbal
  | @removed n id' e index app htab hreq happ hid hst hpu hre =>
      have hrest : s.fromRest e = true :=
        (hC id' e hreq).mpr ⟨app, List.mem_of_getElem? happ, hid⟩
      have hstore := countP_eraseIdx happ fun x => decide (x.id = id)
      have hrequest := h.toRemove_eraseIdx hpay hreq hre id
      rw [← Rest.toRemove, hst, hpu, h.occupied_of_table hpay htab]
      simp only [hid, hrest, and_true] at hstore hrequest
      omega
  | @notFound n id' e htab hreq hno hst hpu hre =>
      have hrest : s.fromRest e = false := by
        rw [← Bool.not_eq_true, hC id' e hreq]
        exact fun ⟨x, hx, hid⟩ => hno x hx hid
      have hrequest := h.toRemove_eraseIdx hpay hreq hre id
      rw [← Rest.toRemove, hst, hpu, h.occupied_of_table hpay htab]
      simp only [hrest, Bool.false_eq_true, and_false, decide_false, if_false] at hrequest
      omega

theorem known_step (h : s.Balanced) {l : RestCall} (hs : RestStep s l s') {id : Int}
    {e : EnvId} (hmem : (id, some e) ∈ s'.removing) : e < s'.ctl.nextEnv := by
  refine lt_of_lt_of_le ?_ (hs.keeps h.wf).2.nextEnv
  cases hs.effect h.wf with
  | quiet _ _ _ hre => exact h.known id e (hre ▸ hmem)
  | loaded _ _ _ _ _ _ _ hre => exact h.known id e (hre ▸ hmem)
  | pushed _ _ _ _ hre => exact h.known id e (hre ▸ hmem)
  | @unloaded i e' hi _ _ _ hre =>
      rw [hre, List.mem_append, List.mem_singleton] at hmem
      rcases hmem with hmem | heq
      · exact h.known id e hmem
      · obtain rfl := Option.some.inj (Prod.mk.inj heq).2
        exact h.slot_lt hi
  | removed _ _ _ _ _ _ hre => exact h.known id e (List.mem_of_mem_eraseIdx (hre ▸ hmem))
  | notFound _ _ _ _ _ hre => exact h.known id e (List.mem_of_mem_eraseIdx (hre ▸ hmem))

theorem step (h : s.Balanced) {l : RestCall} (hC : InOrder s l) (hs : RestStep s l s') :
    s'.Balanced where
  wf := (hs.keeps h.wf).1
  defined := hs.defined h.wf h.defined fun id hl => by
    subst hl
    exact hC
  known := fun id e hmem => h.known_step hs hmem
  balanced := h.balanced_step hC hs

end Rest.Balanced

/-! ## The store and the table -/

/-- No request is in progress. -/
def Rest.Quiet (s : Rest) : Prop := s.ctl.Idle ∧ s.pushing = [] ∧ s.removing = []

/-- Once no request is in progress, the store has the id of each app that was loaded
    through REST and is in the table, once, and no other. -/
structure Agrees (s : Rest) : Prop where
  defined : s.ctl.status ≠ .undefined
  nodup   : s.Quiet → (s.store.map JrtcAppState.id).Nodup
  mem     : s.Quiet → ∀ id, id ∈ s.store.map JrtcAppState.id
    ↔ ∃ (i : Slot) (e : EnvId) (p : Payload),
        id = i.val ∧ s.ctl.appEnvs i = some e ∧ s.payloadOf e = some p

theorem Rest.occupied_iff {s : Rest} {id : Int} :
    s.occupied id = true ↔ ∃ (i : Slot) (e : EnvId) (p : Payload),
      id = i.val ∧ s.ctl.appEnvs i = some e ∧ s.payloadOf e = some p := by
  constructor
  · intro h
    obtain ⟨p, hp⟩ := Option.isSome_iff_exists.mp h
    obtain ⟨e, he, hp⟩ := Option.bind_eq_some_iff.mp hp
    obtain ⟨i, hi, he⟩ := Option.bind_eq_some_iff.mp he
    exact ⟨i, e, p, eq_val_of_slotAt hi, he, hp⟩
  · rintro ⟨i, e, p, rfl, he, hp⟩
    rw [Rest.occupied_slot, he, Rest.fromRest, Option.bind_some, hp, Option.isSome_some]

theorem Rest.Balanced.agrees {s : Rest} (h : s.Balanced) : Agrees s := by
  have hstored : s.Quiet → ∀ id, s.stored id = (s.occupied id).toNat := by
    rintro ⟨-, hpush, hrem⟩ id
    have hbal := h.balanced id
    rw [Rest.toPush, Rest.toRemove, hpush, hrem, List.countP_nil, List.countP_nil] at hbal
    exact hbal
  refine ⟨h.defined, fun hq => ?_, fun hq id => ?_⟩
  · rw [List.nodup_iff_count_le_one]
    intro id
    have hcount : (s.store.map JrtcAppState.id).count id = s.stored id := by
      rw [List.count, List.countP_map]
      rfl
    rw [hcount, hstored hq id]
    exact Bool.toNat_le _
  · rw [← Rest.occupied_iff, List.mem_map]
    have hpos : (∃ x ∈ s.store, x.id = id) ↔ 0 < s.stored id := by
      rw [Rest.stored, List.countP_pos_iff]
      simp only [decide_eq_true_eq]
    rw [hpos, hstored hq id]
    cases s.occupied id <;> simp

theorem Rest.balanced_init {ctl : Controller} (hw : ctl.Wf) (hidle : ctl.Idle) :
    (Rest.init ctl).Balanced where
  wf := hw
  defined := Controller.defined_of_running hidle.1
  known := fun _ _ hmem => absurd hmem List.not_mem_nil
  balanced := by
    intro id
    have hocc : (Rest.init ctl).occupied id = false := by
      rw [← Bool.not_eq_true, Rest.occupied_iff]
      rintro ⟨i, e, p, -, -, hp⟩
      cases hp
    rw [hocc]
    rfl

/-- **STORE AND TABLE AGREE** in every run in which each DELETE, when it has the
    lock, finds an entry exactly if it unloaded an app of a POST. -/
theorem agrees_of_inOrder {router : JrtcRouter.RouterCtx} {ctl : Controller}
    {tr₀ : List (Controller × CtlCall)} {tr : List (Rest × RestCall)} {s : Rest}
    (h₀ : Run CtlStep (Controller.init router) tr₀ ctl) (hidle : ctl.Idle)
    (h : Run RestStep (Rest.init ctl) tr s) (hC : Meets InOrder tr) : Along Agrees tr s :=
  (h.along_of_meets (Rest.balanced_init (Controller.wf_run h₀) hidle)
    (fun hb hc hs => hb.step hc hs) hC).imp fun _ hb => hb.agrees

/-- A payload for one app. -/
def plainPayload : Payload :=
  ⟨⟨1, true⟩, "app", 0, 0, 0, 0, "app.so", "c", .empty, .empty, []⟩

theorem convertible_plainPayload : plainPayload.Convertible := by
  constructor <;> simp [plainPayload, hasNul, IterMaps.IterMap.empty]

/-- Nothing is removed and only the first slot is deleted. -/
def OnlyFirst (_ : Rest) : RestCall → Prop
  | .delete id => id = 0
  | .remove _ => False
  | _ => True

theorem OnlyFirst.inOrder {s : Rest} {l : RestCall} (h : OnlyFirst s l) : InOrder s l := by
  cases l with
  | delete id =>
      obtain rfl : id = 0 := h
      exact ⟨le_rfl, by decide⟩
  | remove n => exact h.elim
  | post => trivial
  | push => trivial
  | joined => trivial
  | run => trivial

/-- The threads of the apps run while no request is served. -/
theorem run_threads {s : Rest} {tr : List (Controller × CtlCall)} {ctl : Controller}
    (h : Run CtlStep s.ctl tr ctl) (hruns : ∀ x ∈ tr, ∃ e, x.2.runs = some e) :
    ∃ tr', Run RestStep s tr' { s with ctl := ctl } ∧ ∀ x ∈ tr', ∃ l, x.2 = .run l := by
  induction h with
  | start => exact ⟨[], Run.start, fun _ hx => absurd hx List.not_mem_nil⟩
  | @next tr ctl l ctl' _ hs ih =>
      obtain ⟨tr', hrun, hthreads⟩ := ih fun x hx => hruns x (List.mem_append_left _ hx)
      obtain ⟨e, hl⟩ := hruns (ctl, l) (List.mem_append_right _ (List.mem_singleton_self _))
      have hstep : RestStep { s with ctl := ctl } (.run l) { s with ctl := ctl' } := .run hl hs
      refine ⟨_, hrun.next hstep, fun x hx => ?_⟩
      rcases List.mem_append.mp hx with hx | hx
      · exact hthreads x hx
      · exact ⟨l, by rw [List.mem_singleton.mp hx]⟩

/-- A DELETE of an app whose thread has ended comes to wait for the lock. -/
theorem delete_ended {s : Rest} {i : Slot} {e : EnvId} {env : AppEnv} (hidle : s.ctl.Idle)
    (hi : s.ctl.appEnvs i = some e) (ht : s.ctl.thread e = some .ended)
    (henv : s.ctl.env e = some env) : ∃ ctl₁ ctl,
      RestStep s (.delete i.val) { s with ctl := ctl₁ }
      ∧ RestStep { s with ctl := ctl₁ } (.joined true) { s with
          ctl := ctl, removing := s.removing ++ [((i.val : Int), some e)] }
      ∧ ctl.Idle ∧ ctl.appEnvs = Function.update s.ctl.appEnvs i none := by
  obtain ⟨ctl₁, env₁, heq, htab, hst, hwait, -, -, -, hjoined⟩ :=
    unload_ended hidle hi ht henv
  have hdelete : RestStep s (.delete i.val) _ := .delete hidle
  rw [Rest.delete, heq] at hdelete
  have hstep : RestStep { s with ctl := ctl₁ } (.joined true) _ := .joined hwait hjoined
  refine ⟨ctl₁, unloadJoined ctl₁ i e env₁ true, hdelete, hstep, ?_⟩
  rcases unloadJoined_cases (htab ▸ hi) env₁ true with ⟨hno, -⟩ | ⟨-, heq'⟩
  · cases hno
  · rw [heq', htab]
    exact ⟨⟨hst, rfl⟩, rfl⟩

/-- A server whose first POST waits for the lock: the app was loaded, ran to its end
    and was unloaded by a DELETE that waits for the lock too. -/
theorem run_post_delete (router : JrtcRouter.RouterCtx) : ∃ tr ctl,
    Run RestStep (Rest.init (Controller.init router)) tr { Rest.init ctl with
      pushing := [⟨0, plainPayload⟩]
      removing := [(0, some 0)]
      payloadOf := Function.update (fun _ => none) 0 (some plainPayload) }
    ∧ Meets OnlyFirst tr ∧ ctl.Idle ∧ ∀ i, ctl.appEnvs i = none := by
  have hstart : Run RestStep (Rest.init (Controller.init router)) [] _ := Run.start
  have hpost := hstart.next (@RestStep.post _ plainPayload ⟨true, true, true⟩ ⟨rfl, rfl⟩)
  rw [@Rest.post_loaded _ _ _ 0 convertible_plainPayload rfl] at hpost
  obtain ⟨tr₁, ctl₁, env, hctl, hruns, hst, htab, hwait, ht, henv, -⟩ :=
    exists_run_ended (e := 0) rfl rfl rfl ⟨true, true, true, true, true⟩
      (s := (loadApp (Controller.init router) plainPayload.cRequest ⟨true, true, true⟩).2)
  obtain ⟨tr₂, hthreads, honly⟩ := run_threads (s := { Rest.init
      (loadApp (Controller.init router) plainPayload.cRequest ⟨true, true, true⟩).2 with
        pushing := [⟨0, plainPayload⟩]
        payloadOf := Function.update (fun _ => none) 0 (some plainPayload) }) hctl
    fun x hx => ⟨0, hruns x hx⟩
  obtain ⟨ctl₂, ctl, hdelete, hjoined, hidle, hempty⟩ := delete_ended (i := 0) (e := 0)
    ⟨hst, hwait⟩ (congrFun htab 0) ht henv (s := { Rest.init ctl₁ with
      pushing := [⟨0, plainPayload⟩]
      payloadOf := Function.update (fun _ => none) 0 (some plainPayload) })
  refine ⟨_, ctl, ((hpost.trans hthreads).next hdelete).next hjoined, ?_, hidle, fun i => ?_⟩
  · refine meets_snoc.mpr ⟨meets_snoc.mpr ⟨meets_append.mpr ⟨?_, fun x hx => ?_⟩, rfl⟩, trivial⟩
    · exact meets_snoc.mpr ⟨meets_nil, trivial⟩
    · obtain ⟨l, hl⟩ := honly x hx
      rw [hl]
      trivial
  · have htable : ctl₁.appEnvs = Function.update (fun _ : Slot => none) 0 (some 0) := htab
    rw [hempty]
    show Function.update ctl₁.appEnvs 0 none i = none
    rw [htable, Function.update_idem, Function.update_apply, ite_self]

/-- The POST gets the lock first. -/
theorem agrees_post_delete : ∃ tr s,
    Run RestStep (Rest.init (Controller.init JrtcRouter.World.init.router)) tr s
      ∧ Along Agrees tr s ∧ s.Quiet := by
  obtain ⟨tr, ctl, hrun, hC, hidle, -⟩ := run_post_delete JrtcRouter.World.init.router
  have hpush := hrun.next (@RestStep.push _ 0 _ hidle rfl)
  have hremove := hpush.next (@RestStep.remove _ 0 0 (some 0) hidle rfl)
  refine ⟨_, _, hremove, agrees_of_inOrder Run.start ⟨rfl, rfl⟩ hremove ?_, hidle, rfl, rfl⟩
  refine meets_snoc.mpr ⟨meets_snoc.mpr ⟨fun x hx => (hC x hx).inOrder, trivial⟩, ?_⟩
  rintro id e ⟨⟩
  exact iff_of_true rfl ⟨_, List.mem_singleton_self _, rfl⟩

/-- The DELETE gets the lock first and finds nothing: the id of an app that is no
    more stays in the store. -/
theorem stale_id_stays : ¬ ∀ (router : JrtcRouter.RouterCtx) (ctl : Controller)
    (tr₀ : List (Controller × CtlCall)) (tr : List (Rest × RestCall)) (s : Rest),
    Run CtlStep (Controller.init router) tr₀ ctl → ctl.Idle →
    Run RestStep (Rest.init ctl) tr s → Along Agrees tr s := by
  intro h
  obtain ⟨tr, ctl, hrun, -, hidle, hempty⟩ := run_post_delete JrtcRouter.World.init.router
  have hremove := hrun.next (@RestStep.remove _ 0 0 (some 0) hidle rfl)
  have hpush := hremove.next (@RestStep.push _ 0 ⟨0, plainPayload⟩ hidle rfl)
  have hagrees := (h _ _ _ _ _ Run.start ⟨rfl, rfl⟩ hpush).2
  have hmem := (hagrees.mem ⟨hidle, rfl, rfl⟩ 0).mp (List.mem_singleton_self _)
  obtain ⟨i, e, p, -, hi, -⟩ := hmem
  cases (hempty i).symm.trans hi

end JrtcRestServer
