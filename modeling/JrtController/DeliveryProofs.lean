import JrtController.AppRegistryProofs
import JrtController.RequestRefinementProofs

/-! # Delivery to apps that come and go

    `_jrtc_router_forward_msgs` ends its epoch section before it delivers: the app ids it
    has collected are followed to the contexts of the apps, and those to their pools and
    rings, under no protection at all, while `jrtc_router_register_app` and
    `jrtc_router_deregister_app` run in the threads of the apps.  Here the request table
    (`JrtcReclaim`), the registry (`JrtcAppRegistry`) and the delivery loop run side by
    side, access by access.

    * `Sys.Live` — the context the router thread has in hand is one that was not freed;
    * `FreesApart` — no context is freed while the router thread has it, and none is loaded
      between its free and the store of `NULL`;
    * `context_live_iff` — on every run the two are the same.  Deregistering the request
      first does not help: `context_freed_after_barrier` has an app do so, wait the barrier
      out and leave, and the router thread is left with the freed context;
    * `asks` — the apps whose pools a message was put to, in order;
    * `handed_regular` — whatever the apps do meanwhile, each is asked at most once per
      message, only if it had a matching request and a context, and certainly if it had
      both all the while. -/

namespace JrtcDelivery

open JrtcStreamId JrtcRouter JrtcAppRegistry JrtcReclaim Runs
open JrtcReqTable (AppId lookupResult)
open JrtcRouterLookup (Matches lookupIds)

/-- Where the router thread is in the loop over `lookup_result` for the first buffer; the
    iterator has nothing left for the others. -/
inductive Rtr where
  | away
  | next (todo : List AppId)
  | loaded (a : AppId) (p : DappPtr) (todo : List AppId)
  | filled (a : AppId) (p : DappPtr) (todo : List AppId)

/-- The app and the context the router thread has in hand. -/
def Rtr.hand : Rtr → Option (AppId × DappPtr)
  | .loaded a p _ | .filled a p _ => some (a, p)
  | .away | .next _ => none

/-- The apps that are still to be asked. -/
def Rtr.todo : Rtr → List AppId
  | .away => []
  | .next todo | .filled _ _ todo => todo
  | .loaded a _ todo => a :: todo

structure Sys where
  table : Table
  reg   : Registry
  rtr   : Rtr

/-- The router as `jrtc_router_init` leaves it. -/
def Sys.init : Sys := ⟨Table.init, Registry.init, .away⟩

inductive Event where
  | table (l : JrtcReclaim.Access)
  | reg (l : JrtcAppRegistry.Access)
  | begin
  | load
  | alloc (ok : Bool)
  | enqueue
  | done

/-- One access: of a request call or a look-up, of a registration or deregistration of an
    app, or of the delivery loop. -/
inductive Step : Sys → Event → Sys → Prop
  | table {s : Sys} {l : JrtcReclaim.Access} {t : Table} :
      JrtcReclaim.Step s.table l t → l ≠ .delivered → Step s (.table l) { s with table := t }
  | reg {s : Sys} {l : JrtcAppRegistry.Access} {r : Registry} :
      RegistryStep s.reg l r → Step s (.reg l) { s with reg := r }
  -- `ck_bitmap_iterator_init`
  | begin {s : Sys} {sid : StreamId} {res : Finset AppId} :
      s.rtr = .away → s.table.fwd = .deliver sid res →
      Step s .begin { s with rtr := .next (res.sort (· ≤ ·)) }
  -- `dapp = ctx[app_id]`, and on to the next app if there is none
  | load {s : Sys} {a : AppId} {todo : List AppId} :
      s.rtr = .next (a :: todo) →
      Step s .load { s with rtr := (s.reg.ctx a).elim (.next todo) (.loaded a · todo) }
  -- `jbpf_mbuf_alloc(dapp->data_entry_pool)`
  | alloc {s : Sys} {a : AppId} {p : DappPtr} {todo : List AppId} {ok : Bool} :
      s.rtr = .loaded a p todo →
      Step s (.alloc ok) { s with rtr := if ok then .filled a p todo else .next todo }
  -- `ck_ring_enqueue_spsc(&dapp->ring, …)`
  | enqueue {s : Sys} {a : AppId} {p : DappPtr} {todo : List AppId} :
      s.rtr = .filled a p todo → Step s .enqueue { s with rtr := .next todo }
  | done {s : Sys} {t : Table} :
      s.rtr = .next [] → JrtcReclaim.Step s.table .delivered t →
      Step s .done { s with table := t, rtr := .away }

/-! ## The contexts -/

/-- The context a call has in the array and has not freed. -/
def whole : Phase → Option (AppId × DappPtr)
  | .stored id p | .live id p | .leaving id p => some (id, p)
  | _ => none

/-- The context in the router thread's hand belongs to the app and was not freed. -/
def Sys.Live (s : Sys) : Prop :=
  ∀ a p, s.rtr.hand = some (a, p) → ∃ k, whole (s.reg.phase k) = some (a, p)

/-- No context is freed while the router thread has it, and none is loaded that was freed
    and not yet taken out of the array. -/
def FreesApart (s : Sys) : Event → Prop
  | .reg (.free k) => ∀ a p, s.reg.phase k = .leaving a p → s.rtr.hand ≠ some (a, p)
  | .load => ∀ a todo, s.rtr = .next (a :: todo) → ∀ k p, s.reg.phase k ≠ .freed a p
  | _ => True

theorem slot_of_whole {φ : Phase} {a : AppId} {p : DappPtr} (h : whole φ = some (a, p)) :
    φ.slot = some (a, p) := by
  cases φ with
  | stored | live | leaving => exact h
  | _ => cases h

/-- A context in the array was not freed, or its owner is between the free and the store
    of `NULL`. -/
theorem whole_of_slot {φ : Phase} {a : AppId} {p : DappPtr} (h : φ.slot = some (a, p)) :
    whole φ = some (a, p) ∨ φ = .freed a p := by
  cases φ with
  | stored | live | leaving => exact Or.inl h
  | freed id q =>
      obtain ⟨rfl, rfl⟩ := Prod.mk.inj (Option.some.inj h)
      exact Or.inr rfl
  | _ => cases h

/-- A call that has freed its context leaves nobody with it. -/
theorem not_whole_of_freed {r : Registry} (h : r.Inv) {k : Nat} {a : AppId} {p q : DappPtr}
    (hk : r.phase k = .freed a p) : ¬ ∃ j, whole (r.phase j) = some (a, q) := by
  rintro ⟨j, hj⟩
  have howns : r.owns k = some a := congrArg Phase.owns hk
  have hjk : j = k := h.unique j k a (Phase.owns_of_slot (slot_of_whole hj)) howns
  rw [hjk, hk] at hj
  cases hj

theorem whole_goto {r : Registry} {j : Nat} {φ : Phase} {x : AppId × DappPtr} {k : Nat}
    (h : whole (r.phase k) = some x) (hkeep : whole (r.phase j) = some x → whole φ = some x) :
    whole ((r.goto j φ).phase k) = some x := by
  show whole (Function.update r.phase j φ k) = some x
  by_cases hkj : k = j
  · subst hkj
    rw [Function.update_self]
    exact hkeep h
  · rwa [Function.update_of_ne hkj]

/-- Only its own free takes a context away. -/
theorem whole_step {r r' : Registry} {l : JrtcAppRegistry.Access} (hs : RegistryStep r l r')
    {k : Nat} {a : AppId} {p : DappPtr} (h : whole (r.phase k) = some (a, p)) :
    whole (r'.phase k) = some (a, p) ∨ l = .free k ∧ r.phase k = .leaving a p := by
  cases hs with
  | @free j id q hj =>
      by_cases hkj : k = j
      · subst hkj
        rw [hj] at h
        obtain ⟨rfl, rfl⟩ := Prod.mk.inj (Option.some.inj h)
        exact Or.inr ⟨rfl, hj⟩
      · refine Or.inl ?_
        show whole (Function.update r.phase j _ k) = some (a, p)
        rwa [Function.update_of_ne hkj]
  | ret hj | deregister hj => exact Or.inl (whole_goto h fun hw => by rwa [hj] at hw)
  | reject hj _ | register hj _ | testSet hj _ | testClear hj _ | alloc hj _
  | allocFails hj _ =>
      exact Or.inl (whole_goto h fun hw => by rw [hj] at hw; cases hw)
  | endOfScan hj | allocDapp hj | allocDappFails hj | store hj | release hj | clear hj
  | reset hj =>
      exact Or.inl (whole_goto h fun hw => by rw [hj] at hw; cases hw)

/-- The registry keeps its invariant, and what the router thread has was not freed. -/
structure Sys.Apart (s : Sys) : Prop where
  reg  : s.reg.Inv
  live : s.Live

theorem Sys.apart_init : Sys.init.Apart :=
  ⟨Registry.inv_init, fun _ _ h => by cases h⟩

theorem Sys.Apart.load {s : Sys} (h : s.Apart) {a : AppId} {todo : List AppId}
    (hf : ∀ k p, s.reg.phase k ≠ .freed a p) :
    Sys.Apart { s with rtr := (s.reg.ctx a).elim (.next todo) (.loaded a · todo) } := by
  refine ⟨h.reg, fun b q hq => ?_⟩
  cases hctx : s.reg.ctx a with
  | none =>
      simp only [hctx] at hq
      cases hq
  | some p =>
      simp only [hctx] at hq
      obtain ⟨rfl, rfl⟩ := Prod.mk.inj (Option.some.inj hq)
      obtain ⟨k, hk⟩ := (h.reg.stored a p).mp hctx
      exact ⟨k, (whole_of_slot hk).resolve_right (hf k p)⟩

theorem Sys.Apart.step {s s' : Sys} {l : Event} (h : s.Apart) (hC : FreesApart s l)
    (hs : Step s l s') : s'.Apart := by
  cases hs with
  | table ht hl => exact ⟨h.reg, h.live⟩
  | @reg l r hr =>
      refine ⟨Registry.inv_step h.reg hr, fun a p hp => ?_⟩
      obtain ⟨k, hk⟩ := h.live a p hp
      rcases whole_step hr hk with hk' | ⟨rfl, hleave⟩
      · exact ⟨k, hk'⟩
      · exact absurd hp (hC a p hleave)
  | begin hr hf => exact ⟨h.reg, fun a p hp => by cases hp⟩
  | load hr => exact h.load (hC _ _ hr)
  | @alloc a p todo ok hr =>
      refine ⟨h.reg, fun b q hq => h.live b q ?_⟩
      rw [hr]
      cases ok with
      | true => exact hq
      | false => cases hq
  | enqueue hr => exact ⟨h.reg, fun a p hp => by cases hp⟩
  | done hr ht => exact ⟨h.reg, fun a p hp => by cases hp⟩

theorem Sys.Apart.not_live {s s' : Sys} {l : Event} (h : s.Apart) (hC : ¬ FreesApart s l)
    (hs : Step s l s') : ¬ s'.Live := by
  cases hs with
  | @reg l r hr =>
      cases hr with
      | @free k id p hk =>
          simp only [FreesApart, not_forall, not_not] at hC
          obtain ⟨a, q, hq, hhand⟩ := hC
          intro hlive
          have hfreed : (s.reg.goto k (.freed id p)).phase k = .freed id p :=
            Function.update_self _ _ _
          obtain ⟨rfl, rfl⟩ := Phase.leaving.inj (hk.symm.trans hq)
          exact not_whole_of_freed (Registry.inv_step h.reg (.free hk)) hfreed (hlive id p hhand)
      | _ => exact absurd trivial hC
  | @load a todo hr =>
      simp only [FreesApart, not_forall, not_not] at hC
      obtain ⟨b, todo', hb, k, p, hk⟩ := hC
      obtain ⟨rfl, rfl⟩ := List.cons.inj (Rtr.next.inj (hr.symm.trans hb))
      have hctx : s.reg.ctx a = some p := (h.reg.stored a p).mpr ⟨k, congrArg Phase.slot hk⟩
      intro hlive
      refine not_whole_of_freed h.reg hk (hlive a p ?_)
      simp only [hctx]
      rfl
  | _ => exact absurd trivial hC

/-- **THE ROUTER THREAD'S CONTEXT IS LIVE IFF NOBODY FREES UNDER IT.**  On every
    interleaving of request calls, look-ups, registrations, deregistrations and deliveries,
    the context the router thread follows is never one that was freed iff every free of
    `jrtc_router_deregister_app` falls where the router thread does not have the context,
    and no load of it between that free and the store of `NULL`. -/
theorem context_live_iff {tr : List (Sys × Event)} {s : Sys} (h : Run Step Sys.init tr s) :
    Along Sys.Live tr s ↔ Meets FreesApart tr :=
  h.along_iff_meets Sys.apart_init (fun _ hQ => hQ.live) (fun hQ hC hs => hQ.step hC hs)
    (fun hQ hC hs => hQ.not_live hC hs)

/-! ### An app that does everything right -/

/-- A run of the request table beside an idle registry and delivery loop. -/
theorem run_table {t t' : Table} {tr : List (Table × JrtcReclaim.Access)}
    (h : Run JrtcReclaim.Step t tr t') (hdel : ∀ x ∈ tr, x.2 ≠ .delivered) (r : Registry)
    (rtr : Rtr) : Run Step ⟨t, r, rtr⟩
      (tr.map fun x => (⟨x.1, r, rtr⟩, .table x.2)) ⟨t', r, rtr⟩ :=
  h.lift (f := fun t => (⟨t, r, rtr⟩ : Sys)) (C := fun _ (l : JrtcReclaim.Access) => l ≠ .delivered)
    (fun hl hs => Step.table hs hl) hdel

/-- An app registers while nobody else does. -/
theorem exists_app (t : Table) : ∃ tr r, Run Step ⟨t, Registry.init, .away⟩ tr ⟨t, r, .away⟩
    ∧ r.phase 0 = .live 0 7 ∧ r.ctx 0 = some 7 := by
  have hscan := (Run.start.next (RegistryStep.register (s := Registry.init) (k := 0) rfl
    (Nat.zero_le _))).next (RegistryStep.testClear (k := 0) (i := 0) rfl
    (Finset.notMem_empty 0))
  have hbuilt := ((((hscan.next (RegistryStep.allocDapp (k := 0) (p := 7) rfl)).next
    (RegistryStep.alloc (k := 0) rfl (by simp))).next
    (RegistryStep.alloc (k := 0) rfl (by simp [Stage.next]))).next
    (RegistryStep.alloc (k := 0) rfl (by simp [Stage.next]))).next
    (RegistryStep.alloc (k := 0) rfl (by simp [Stage.next]))
  have hrun := (hbuilt.next (RegistryStep.store (k := 0) rfl)).next
    (RegistryStep.ret (k := 0) rfl)
  refine ⟨_, _, hrun.lift (f := fun r => (⟨t, r, .away⟩ : Sys)) (C := fun _ _ => True)
    (fun _ hs => Step.reg hs) fun _ _ => trivial, rfl, rfl⟩

/-- The request of the only app of an entry is deregistered while nobody else does
    anything: the entry is freed after the barrier. -/
theorem exists_deregistered {s : Table} {k : Nat} {a : AppId} {sid : StreamId} {p : EntryPtr}
    (hlock : s.lock = none) (hk : s.pc k = .idle) (hp : s.reqs sid = some p)
    (he : s.mem p = some ⟨sid, {a}⟩) (hact : s.dom.active = ∅) :
    ∃ tr s', Run JrtcReclaim.Step s tr s' ∧ (∀ x ∈ tr, x.2 ≠ .delivered) ∧ s'.fwd = s.fwd
      ∧ s'.reqs sid = none ∧ s'.mem p = none := by
  let req : Request := .deregister a sid
  let s₁ : Table := s.goto k (.spin req)
  let s₂ : Table := { s₁.goto k (.locked req) with lock := some k }
  let s₃ : Table := s₂.goto k (.resetBit a sid p)
  let s₄ : Table := (s₃.setBitmap p (·.erase a)).goto k (.testEmpty a sid p)
  let s₅ : Table := s₄.goto k (.enter a sid p)
  let s₆ : Table := { s₅.goto k (.remove a sid p) with dom := s₅.dom.enter (some a) }
  let s₇ : Table := { s₆.goto k (.leave a p) with
    reqs := Function.update s₆.reqs sid none, dom := s₆.dom.unlink p }
  let s₈ : Table := { s₇.goto k (.barrier p) with dom := s₇.dom.leave (some a) }
  let s₉ : Table := { s₈.goto k (.waiting p) with dom := s₈.dom.wait p }
  let s₁₀ : Table := { s₉.goto k (.unlock none) with
    mem := Function.update s₉.mem p none, dom := s₉.dom.free p }
  let s₁₁ : Table := { s₁₀.goto k .idle with lock := none }
  have h₁ : JrtcReclaim.Step s (.call k req) s₁ := .call hk
  have h₂ : JrtcReclaim.Step s₁ (.lock k) s₂ := .lock (Function.update_self _ _ _) hlock
  have h₃ : JrtcReclaim.Step s₂ (.get k) s₃ := by
    have hfound : found s₂ req = .resetBit a sid p := by
      simp [found, req, s₂, s₁, Table.goto, hp]
    rw [show s₃ = s₂.goto k (found s₂ req) by rw [hfound]]
    exact .get (Function.update_self _ _ _)
  have h₄ : JrtcReclaim.Step s₃ (.resetBit k) s₄ := .resetBit (Function.update_self _ _ _)
  have h₅ : JrtcReclaim.Step s₄ (.testEmpty k) s₅ := by
    have hmem : s₄.mem p = some ⟨sid, ∅⟩ := by
      simp [s₄, s₃, s₂, s₁, Table.goto, Table.setBitmap, he]
    exact .testEmpty (e := ⟨sid, ∅⟩) (Function.update_self _ _ _) hmem
  have h₆ : JrtcReclaim.Step s₅ (.enter k) s₆ := .enter (Function.update_self _ _ _)
  have h₇ : JrtcReclaim.Step s₆ (.remove k) s₇ := .remove (Function.update_self _ _ _)
  have h₈ : JrtcReclaim.Step s₇ (.leave k) s₈ := .leave (Function.update_self _ _ _)
  have h₉ : JrtcReclaim.Step s₈ (.barrier k) s₉ := .barrier (Function.update_self _ _ _)
  have h₁₀ : JrtcReclaim.Step s₉ (.free k) s₁₀ := by
    have hnone : s₈.dom.active = ∅ := by
      simp [s₈, s₇, s₆, s₅, s₄, s₃, s₂, s₁, Table.goto, Table.setBitmap, hact]
    refine .free (Function.update_self _ _ _) ?_
    simp [s₉, hnone]
  have h₁₁ : JrtcReclaim.Step s₁₀ (.unlock k) s₁₁ := .unlock (Function.update_self _ _ _)
  have hrun := ((((((((((Run.start.next h₁).next h₂).next h₃).next h₄).next h₅).next
    h₆).next h₇).next h₈).next h₉).next h₁₀).next h₁₁
  exact ⟨_, s₁₁, hrun, by simp, rfl, Function.update_self _ _ _, Function.update_self _ _ _⟩

/-- An app registers a request, and a message for it is looked up. -/
theorem exists_found (a : AppId) (sid : StreamId) : ∃ tr₀ s₀ tr s res,
    Run JrtcReclaim.Step Table.init tr₀ s₀ ∧ (∀ x ∈ tr₀, x.2 ≠ .delivered)
    ∧ s₀.fwd = .pass sid 0 ∅ .look ∧ Run JrtcReclaim.Step s₀ tr s
    ∧ (∀ x ∈ tr, x.2 ≠ .delivered) ∧ s.fwd = .deliver sid res ∧ a ∈ res
    ∧ Along (fun x => view x sid = some {a}) tr s ∧ ∀ k, s.pc k = .idle := by
  obtain ⟨tr₀, s₀, h₀, hgrow, hbegin, hview, hdel₀, hidle⟩ := exists_begun a sid
  obtain ⟨s, res, ⟨tr, hrun, hal, hdel⟩, -, hend⟩ := exists_lookups (Nat.add_zero _)
    (h₀.along_of_meets Table.oneMap_init (fun h hC hs => h.step hC hs) hgrow).2 hbegin
  have hviews : Along (fun x => view x sid = some {a}) tr s := hal.imp fun x hx => by
    rw [view_congr hx.1 fun _ p _ => by rw [hx.2.1]]
    exact hview
  have hcol := (collected_of_run h₀ hbegin hrun hdel hend).2
  refine ⟨tr₀, s₀, tr, s, res, h₀, hdel₀, hbegin, hrun, hdel, hend, ?_, hviews, fun k => ?_⟩
  · exact hcol.mem_of_along ⟨rfl, fun _ _ => Or.inl rfl⟩
      (hviews.imp fun x hx => subscribed_of_view hx)
  · rw [hal.2.2.2]
    exact hidle k

/-- **THE BARRIER DOES NOT PROTECT THE APPS.**  An app deregisters its request, which waits
    for the epoch section of the look-ups to end and returns, and only then deregisters
    itself.  The router thread still has the app among those it found, loads its context,
    and the app frees it. -/
theorem context_freed_after_barrier : ∃ tr s tr' s', Run Step Sys.init tr s
    ∧ view s.table (Vector.replicate 16 0) = none ∧ s.reg.phase 0 = .live 0 7
    ∧ Run Step s tr' s' ∧ s'.rtr.hand = some (0, 7) ∧ s'.reg.phase 0 = .freed 0 7
    ∧ ¬ Along Sys.Live (tr ++ tr') s' := by
  let sid : StreamId := Vector.replicate 16 0
  obtain ⟨tr₀, t₀, tr₁, t₁, res, h₀, hdel₀, -, h₁, hdel₁, hend, hres, hviews, hidle⟩ :=
    exists_found 0 sid
  have hinv : t₁.Inv := Table.inv_run (h₀.trans h₁)
  have hsec : t₁.Sections := Table.sections_run (h₀.trans h₁)
  have hlock : t₁.lock = none := by
    cases hl : t₁.lock with
    | none => rfl
    | some k =>
        have hcrit := (hinv.excl k).mpr hl
        rw [hidle k] at hcrit
        cases hcrit
  have hact : t₁.dom.active = ∅ := by
    refine Finset.eq_empty_of_forall_notMem fun x hx => ?_
    cases x with
    | none =>
        obtain ⟨_, _, _, _, hf⟩ := hsec.router hx
        rw [hend] at hf
        cases hf
    | some a =>
        obtain ⟨k, hk⟩ := hsec.app hx
        rw [hidle k] at hk
        cases hk
  obtain ⟨p, hp, he⟩ : ∃ p, t₁.reqs sid = some p ∧ t₁.mem p = some ⟨sid, {0}⟩ := by
    have hview : view t₁ sid = some {0} := hviews.2
    cases hr : t₁.reqs sid with
    | none =>
        rw [view_of_none hr] at hview
        cases hview
    | some p =>
        obtain ⟨-, e, he, hkey⟩ := hinv.heap.keyed hr
        rw [view_of_keyed hr he] at hview
        refine ⟨p, rfl, ?_⟩
        rw [he, ← hkey, ← Option.some.inj hview]
  obtain ⟨tr₂, t₂, h₂, hdel₂, hfwd, hreqs, -⟩ :=
    exists_deregistered hlock (hidle 1) hp he hact
  obtain ⟨tr₃, r, happ, hphase, hctx⟩ := exists_app Table.init
  have hs := ((happ.trans (run_table h₀ hdel₀ r .away)).trans (run_table h₁ hdel₁ r .away)).trans
    (run_table h₂ hdel₂ r .away)
  -- the router thread goes on with what it found
  have hsort : res.sort (· ≤ ·) = 0 :: (res.erase 0).sort (· ≤ ·) := by
    rw [← Finset.sort_insert (· ≤ ·) (fun b _ => Fin.zero_le b) (Finset.notMem_erase 0 res),
      Finset.insert_erase hres]
  let todo := (res.erase 0).sort (· ≤ ·)
  let s₁ : Sys := ⟨t₂, r, .next (0 :: todo)⟩
  let s₂ : Sys := ⟨t₂, r, .loaded 0 7 todo⟩
  let s₃ : Sys := ⟨t₂, r.goto 0 (.leaving 0 7), .loaded 0 7 todo⟩
  let s₄ : Sys := ⟨t₂, (r.goto 0 (.leaving 0 7)).goto 0 (.freed 0 7), .loaded 0 7 todo⟩
  have hbegin : Step ⟨t₂, r, .away⟩ .begin s₁ := by
    have hs₁ : s₁ = ⟨t₂, r, .next (res.sort (· ≤ ·))⟩ := by rw [hsort]
    rw [hs₁]
    exact Step.begin rfl (hfwd.trans hend)
  have hload : Step s₁ .load s₂ := by
    have hs₂ : s₂ = ⟨t₂, r, (r.ctx 0).elim (.next todo) (.loaded 0 · todo)⟩ := by rw [hctx]; rfl
    rw [hs₂]
    exact Step.load rfl
  have hleaving : s₃.reg.phase 0 = .leaving 0 7 := Function.update_self 0 _ r.phase
  have hfreed : s₄.reg.phase 0 = .freed 0 7 := Function.update_self 0 _ s₃.reg.phase
  have hleave : Step s₂ (.reg (.deregister 0)) s₃ := Step.reg (.deregister hphase)
  have hfree : Step s₃ (.reg (.free 0)) s₄ := Step.reg (.free hleaving)
  have hs' := (((Run.start.next hbegin).next hload).next hleave).next hfree
  refine ⟨_, _, _, s₄, hs, view_of_none hreqs, hphase, hs', rfl, hfreed, fun hlive => ?_⟩
  have hmeets := (context_live_iff (hs.trans hs')).mp hlive
  have hlast := hmeets (s₃, .reg (.free 0)) (by simp)
  exact hlast 0 7 hleaving rfl

/-! ## Who gets a message -/

/-- The apps whose pools were asked for an entry, in order. -/
def asks (tr : List (Sys × Event)) : List AppId :=
  tr.filterMap fun x => match x.2 with
    | .alloc _ => x.1.rtr.hand.map Prod.fst
    | _ => none

/-- The app has a context in the array. -/
def Registered (a : AppId) (s : Sys) : Prop := s.reg.ctx a ≠ none

/-- A delivery under way: what was asked and what is to be asked is part of what was
    found, in its order, and nobody was passed over who had a context all the while. -/
structure Progress (tr : List (Sys × Event)) (s : Sys) (sid : StreamId) (res : Finset AppId) :
    Prop where
  fwd   : s.table.fwd = .deliver sid res
  order : (asks tr ++ s.rtr.todo).Sublist (res.sort (· ≤ ·))
  all   : ∀ a ∈ res, Along (Registered a) tr s → a ∈ asks tr ++ s.rtr.todo

/-- What the delivery loop has done since the pass began. -/
structure Delivering (tr : List (Sys × Event)) (s : Sys) : Prop where
  away  : s.rtr = .away → asks tr = []
  under : s.rtr ≠ .away → ∃ sid res, Progress tr s sid res
  asked : ∀ a ∈ asks tr, Once (Registered a) tr s
  hand  : ∀ a p, s.rtr.hand = some (a, p) → Once (Registered a) tr s

theorem asks_snoc (tr : List (Sys × Event)) (s : Sys) (l : Event) (h : ∀ ok, l ≠ .alloc ok) :
    asks (tr ++ [(s, l)]) = asks tr := by
  rw [asks, List.filterMap_append, List.filterMap_cons_none, List.filterMap_nil,
    List.append_nil]
  · rfl
  · cases l with
    | alloc ok => exact absurd rfl (h ok)
    | _ => rfl

theorem asks_alloc {tr : List (Sys × Event)} {s : Sys} {a : AppId} {p : DappPtr}
    (h : s.rtr.hand = some (a, p)) (ok : Bool) :
    asks (tr ++ [(s, .alloc ok)]) = asks tr ++ [a] := by
  rw [asks, List.filterMap_append, List.filterMap_cons_some (b := a), List.filterMap_nil]
  · rfl
  · show s.rtr.hand.map Prod.fst = some a
    rw [h]
    rfl

/-- The router thread is the only one that leaves the delivery. -/
theorem fwd_of_deliver {t t' : Table} {l : JrtcReclaim.Access} (hs : JrtcReclaim.Step t l t')
    (hl : l ≠ .delivered) {sid : StreamId} {res : Finset AppId}
    (hf : t.fwd = .deliver sid res) : t'.fwd = .deliver sid res := by
  cases hs with
  | delivered => exact absurd rfl hl
  | begin h | load h _ | probe h _ _ | compare h _ _ | miss h _ _ _ | union h _ _ | next h _
  | finish h _ =>
      rw [hf] at h
      cases h
  | _ => exact hf

/-- A step that leaves the delivery loop where it is. -/
theorem Delivering.frame {tr : List (Sys × Event)} {s s' : Sys} {l : Event}
    (h : Delivering tr s) (hl : ∀ ok, l ≠ .alloc ok) (hrtr : s'.rtr = s.rtr)
    (hfwd : ∀ sid res, s.table.fwd = .deliver sid res → s'.table.fwd = .deliver sid res) :
    Delivering (tr ++ [(s, l)]) s' := by
  have hasks := asks_snoc tr s l hl
  refine ⟨?_, ?_, ?_, ?_⟩
  · rw [hrtr, hasks]
    exact h.away
  · rw [hrtr]
    intro haway
    obtain ⟨sid, res, hp⟩ := h.under haway
    refine ⟨sid, res, hfwd sid res hp.fwd, ?_, fun a ha hreg => ?_⟩
    · rw [hasks, hrtr]
      exact hp.order
    · rw [hasks, hrtr]
      exact hp.all a ha hreg.prev
  · rw [hasks]
    exact fun a ha => (h.asked a ha).next
  · rw [hrtr]
    exact fun a p hp => (h.hand a p hp).next

/-- A step of the delivery loop that neither begins nor ends it: what it asks moves from
    what is to be asked to what was, and it passes over nobody who has a context. -/
theorem Delivering.move {tr : List (Sys × Event)} {s : Sys} {l : Event} {rtr : Rtr}
    {asked : List AppId} (h : Delivering tr s) (hold : s.rtr ≠ .away) (hnew : rtr ≠ .away)
    (hasks : asks (tr ++ [(s, l)]) = asks tr ++ asked)
    (horder : (asked ++ rtr.todo).Sublist s.rtr.todo)
    (hall : ∀ a ∈ s.rtr.todo, Registered a s → a ∈ asked ++ rtr.todo)
    (hasked : ∀ a ∈ asked, Once (Registered a) tr s)
    (hhand : ∀ a p, rtr.hand = some (a, p) → Once (Registered a) tr s) :
    Delivering (tr ++ [(s, l)]) { s with rtr := rtr } := by
  obtain ⟨sid, res, hp⟩ := h.under hold
  refine ⟨fun haway => absurd haway hnew, fun _ => ⟨sid, res, hp.fwd, ?_, ?_⟩, ?_, ?_⟩
  · rw [hasks, List.append_assoc]
    exact (List.Sublist.append_left horder _).trans hp.order
  · intro a ha hreg
    rw [hasks, List.append_assoc]
    rcases List.mem_append.mp (hp.all a ha hreg.prev) with hdone | htodo
    · exact List.mem_append_left _ hdone
    · exact List.mem_append_right _ (hall a htodo hreg.prev.2)
  · intro a ha
    rw [hasks] at ha
    rcases List.mem_append.mp ha with hdone | hnow
    · exact (h.asked a hdone).next
    · exact (hasked a hnow).next
  · exact fun a p hp => (hhand a p hp).next

theorem Delivering.step {tr : List (Sys × Event)} {s s' : Sys} {l : Event}
    (h : Delivering tr s) (hl : l ≠ .done) (hs : Step s l s') :
    Delivering (tr ++ [(s, l)]) s' := by
  cases hs with
  | table ht hdel => exact h.frame (by simp) rfl fun _ _ => fwd_of_deliver ht hdel
  | reg hr => exact h.frame (by simp) rfl fun _ _ hf => hf
  | @begin sid res haway hf =>
      have hnil : asks (tr ++ [(s, .begin)]) = [] :=
        (asks_snoc tr s .begin (by simp)).trans (h.away haway)
      refine ⟨fun hr => (by cases hr), fun _ => ⟨sid, res, hf, ?_, fun a ha _ => ?_⟩, ?_, ?_⟩
      · rw [hnil]
        exact List.Sublist.refl _
      · rw [hnil]
        exact (Finset.mem_sort _).mpr ha
      · rw [hnil]
        exact fun a ha => absurd ha List.not_mem_nil
      · exact fun a p hp => by cases hp
  | @load a todo hr =>
      have hasks : asks (tr ++ [(s, .load)]) = asks tr ++ [] :=
        (asks_snoc tr s .load (by simp)).trans (List.append_nil _).symm
      cases hctx : s.reg.ctx a with
      | none =>
          refine h.move (by simp [hr]) (by simp) hasks ?_ (fun b hb hreg => ?_) (by simp)
            (fun b p hp => by cases hp)
          · rw [hr]
            exact List.sublist_cons_self a todo
          · rw [hr] at hb
            rcases List.mem_cons.mp hb with rfl | hb
            · exact absurd hctx hreg
            · exact hb
      | some p =>
          refine h.move (by simp [hr]) (by simp) hasks ?_ (fun b hb _ => ?_) (by simp)
            (fun b q hq => ?_)
          · rw [hr]
            exact List.Sublist.refl _
          · rw [hr] at hb
            exact hb
          · obtain ⟨rfl, rfl⟩ := Prod.mk.inj (Option.some.inj hq)
            exact Or.inr (by simp [Registered, hctx])
  | @alloc a p todo ok hr =>
      have hhand : s.rtr.hand = some (a, p) := by rw [hr]; rfl
      have htodo : (if ok then Rtr.filled a p todo else Rtr.next todo).todo = todo := by
        cases ok <;> rfl
      refine h.move (by simp [hr]) (by cases ok <;> simp) (asks_alloc hhand ok) ?_ ?_ ?_ ?_
      · rw [htodo, hr]
        exact List.Sublist.refl _
      · intro b hb _
        rw [hr] at hb
        rw [htodo]
        exact hb
      · intro b hb
        rw [List.mem_singleton.mp hb]
        exact h.hand a p hhand
      · intro b q hq
        cases ok with
        | true => exact h.hand b q (hhand.trans hq)
        | false => cases hq
  | @enqueue a p todo hr =>
      have hasks : asks (tr ++ [(s, .enqueue)]) = asks tr ++ [] :=
        (asks_snoc tr s .enqueue (by simp)).trans (List.append_nil _).symm
      refine h.move (by simp [hr]) (by simp) hasks ?_ (fun b hb _ => ?_) (by simp)
        (fun b q hq => by cases hq)
      · rw [hr]
        exact List.Sublist.refl _
      · rw [hr] at hb
        exact hb
  | done => exact absurd rfl hl

/-- The delivery loop runs only where the look-ups are over. -/
theorem deliver_of_run {tr : List (Sys × Event)} {s : Sys} (h : Run Step Sys.init tr s) :
    s.rtr ≠ .away → ∃ sid res, s.table.fwd = .deliver sid res := by
  refine h.invariant (P := fun s => s.rtr ≠ .away → ∃ sid res, s.table.fwd = .deliver sid res)
    (fun haway => absurd rfl haway) fun {s l s'} hP hs => ?_
  cases hs with
  | table ht hl =>
      intro haway
      obtain ⟨sid, res, hf⟩ := hP haway
      exact ⟨sid, res, fwd_of_deliver ht hl hf⟩
  | reg hr => exact hP
  | @begin sid res _ hf => exact fun _ => ⟨sid, res, hf⟩
  | load hr | alloc hr | enqueue hr => exact fun _ => hP (by simp [hr])
  | done => exact fun haway => absurd rfl haway

/-- The accesses of the request calls and the look-ups. -/
def Event.access : Event → Option JrtcReclaim.Access
  | .table l => some l
  | .done => some .delivered
  | _ => none

/-- A run seen by the request table. -/
theorem table_run {tr : List (Sys × Event)} {s₀ s : Sys} (h : Run Step s₀ tr s) :
    Run JrtcReclaim.Step s₀.table (part Sys.table Event.access tr) s.table := by
  refine h.part fun hs => ?_
  cases hs with
  | @table l t ht _ => exact Or.inl ⟨l, rfl, ht⟩
  | done _ ht => exact Or.inl ⟨.delivered, rfl, ht⟩
  | _ => exact Or.inr ⟨rfl, rfl⟩

/-- Within one message the request table sees no delivery end. -/
theorem table_delivers {tr : List (Sys × Event)} {s₀ s : Sys} (h : Run Step s₀ tr s)
    (hone : ∀ x ∈ tr, x.2 ≠ .done) :
    ∀ y ∈ part Sys.table Event.access tr, y.2 ≠ .delivered := by
  have htable : Meets (fun _ l => l ≠ .table .delivered) tr := by
    clear hone
    induction h with
    | start => exact meets_nil
    | next _ hs ih =>
        refine meets_snoc.mpr ⟨ih, ?_⟩
        cases hs with
        | table _ hl => exact fun heq => hl (Event.table.inj heq)
        | _ => simp
  intro y hy heq
  obtain ⟨x, hx, -, hacc⟩ := mem_part hy
  rw [heq] at hacc
  cases hl : x.2 with
  | table l =>
      rw [hl] at hacc
      exact htable x hx (hl.trans (congrArg Event.table (Option.some.inj hacc)))
  | done => exact hone x hx hl
  | _ =>
      rw [hl] at hacc
      cases hacc

/-- **DELIVERY IS REGULAR.**  Let a message be looked up and delivered while apps register,
    deregister, and call for their requests as they like.  When the loop is over, the apps
    that were asked for an entry were asked in the order of their ids, each once; each of
    them had a matching request at some moment and a context at some moment; and every app
    that had a matching request and a context all the while was asked. -/
theorem handed_regular {tr₀ tr : List (Sys × Event)} {s₀ s : Sys} {sid : StreamId}
    (h₀ : Run Step Sys.init tr₀ s₀) (hbegin : s₀.table.fwd = .pass sid 0 ∅ .look)
    (h : Run Step s₀ tr s) (hone : ∀ x ∈ tr, x.2 ≠ .done) (hend : s.rtr = .next []) :
    (asks tr).Pairwise (· < ·)
    ∧ ∀ a, (a ∈ asks tr → Once (fun s => a ∈ lookupResult (view s.table) sid) tr s
          ∧ Once (Registered a) tr s)
      ∧ ∀ r, Matches r sid → Along (fun s => Subscribed a r s.table) tr s →
          Along (Registered a) tr s → a ∈ asks tr := by
  have haway : s₀.rtr = .away := by
    by_contra hne
    obtain ⟨sid', res, hf⟩ := deliver_of_run h₀ hne
    rw [hbegin] at hf
    cases hf
  have hdel : Delivering tr s := by
    clear hend
    induction h with
    | start =>
        refine ⟨fun _ => rfl, fun hne => absurd haway hne, fun a ha => ?_, fun a p hp => ?_⟩
        · exact absurd ha List.not_mem_nil
        · rw [haway] at hp
          cases hp
    | @next tr s l s' hrun hs ih =>
        have hprev := ih fun x hx => hone x (List.mem_append_left _ hx)
        exact hprev.step (hone (s, l) (List.mem_append_right _ (List.mem_singleton_self _))) hs
  obtain ⟨sid', res, hp⟩ := hdel.under (by simp [hend])
  have hsub := hp.order
  have hall := hp.all
  rw [hend] at hsub hall
  simp only [Rtr.todo, List.append_nil] at hsub hall
  obtain ⟨-, hcol⟩ := collected_of_run (table_run h₀) hbegin (table_run h)
    (table_delivers h hone) hp.fwd
  refine ⟨(Finset.sortedLT_sort res).pairwise.sublist hsub, fun a => ⟨fun ha => ⟨?_, ?_⟩, ?_⟩⟩
  · have hres : a ∈ res := (Finset.mem_sort _).mp (hsub.subset ha)
    exact (hcol.only a hres).of_part
  · exact hdel.asked a ha
  · intro r hr hreq hreg
    exact hall a (hcol.mem_of_along hr (Along.part hreq Event.access)) hreg

/-- The loop comes to its end if nobody disturbs it. -/
theorem exists_loop (t : Table) (r : Registry) (todo : List AppId) :
    ∃ tr, Run Step ⟨t, r, .next todo⟩ tr ⟨t, r, .next []⟩ ∧ (∀ x ∈ tr, x.2 ≠ .done)
      ∧ ∀ x ∈ tr, x.1.table = t ∧ x.1.reg = r := by
  induction todo with
  | nil => exact ⟨[], Run.start, by simp, by simp⟩
  | cons a todo ih =>
      obtain ⟨tr, hrun, hdone, hsame⟩ := ih
      have hload : Step ⟨t, r, .next (a :: todo)⟩ .load _ := Step.load rfl
      cases hctx : r.ctx a with
      | none =>
          simp only [hctx] at hload
          refine ⟨[(_, _)] ++ tr, (Run.start.next hload).trans hrun, ?_, ?_⟩
          · exact List.forall_mem_append.mpr ⟨by simp, hdone⟩
          · exact List.forall_mem_append.mpr ⟨by simp, hsame⟩
      | some p =>
          simp only [hctx] at hload
          have hfails : Step ⟨t, r, .loaded a p todo⟩ (.alloc false) ⟨t, r, .next todo⟩ :=
            Step.alloc rfl
          refine ⟨[(_, _), (_, _)] ++ tr, ((Run.start.next hload).next hfails).trans hrun,
            ?_, ?_⟩
          · exact List.forall_mem_append.mpr ⟨by simp, hdone⟩
          · exact List.forall_mem_append.mpr ⟨by simp, hsame⟩

/-- An app with a request and a context is asked. -/
theorem handed_regular_registered : ∃ s₀ tr s, Run Step s₀ tr s
    ∧ s₀.table.fwd = .pass (Vector.replicate 16 0) 0 ∅ .look ∧ s.rtr = .next []
    ∧ 0 ∈ asks tr := by
  let sid : StreamId := Vector.replicate 16 0
  obtain ⟨tr₀, t₀, tr₁, t₁, res, h₀, hdel₀, hbegin, h₁, hdel₁, hend, -, hviews, -⟩ :=
    exists_found 0 sid
  obtain ⟨tr, r, happ, -, hctx⟩ := exists_app Table.init
  obtain ⟨tr₂, hloop, hdone, hsame⟩ := exists_loop t₁ r (res.sort (· ≤ ·))
  have hstart := happ.trans (run_table h₀ hdel₀ r .away)
  have hdeliver : Step ⟨t₁, r, .away⟩ .begin ⟨t₁, r, .next (res.sort (· ≤ ·))⟩ :=
    Step.begin rfl hend
  have hrun := ((run_table h₁ hdel₁ r .away).next hdeliver).trans hloop
  refine ⟨_, _, _, hrun, hbegin, rfl, ?_⟩
  refine ((handed_regular hstart hbegin hrun ?_ rfl).2 0).2 sid ⟨rfl, fun _ _ => Or.inl rfl⟩
    ?_ ?_
  · simp only [List.forall_mem_append, List.forall_mem_map]
    exact ⟨⟨fun x _ => by simp, by simp⟩, hdone⟩
  · refine ⟨?_, subscribed_of_view hviews.2⟩
    simp only [List.forall_mem_append, List.forall_mem_map]
    refine ⟨⟨fun x hx => subscribed_of_view (hviews.1 x hx), ?_⟩, fun x hx => ?_⟩
    · simpa using subscribed_of_view hviews.2
    · show Subscribed 0 sid x.1.table
      rw [(hsame x hx).1]
      exact subscribed_of_view hviews.2
  · have hreg : ∀ x : Sys, x.reg = r → Registered 0 x := fun x hx => by
      rw [Registered, hx, hctx]
      exact Option.some_ne_none 7
    refine ⟨?_, hreg _ rfl⟩
    simp only [List.forall_mem_append, List.forall_mem_map]
    refine ⟨⟨fun x _ => hreg _ rfl, ?_⟩, fun x hx => hreg _ (hsame x hx).2⟩
    simpa using hreg _ rfl

end JrtcDelivery
