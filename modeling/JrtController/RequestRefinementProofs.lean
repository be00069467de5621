import JrtController.RequestReclaimProofs

/-! # What concurrent calls and look-ups come to

    The request table of `JrtcReclaim`, access by access, against the one of
    `JrtcReqTable`, call by call.

    * `calls_refine` — the calls are atomic, in the order in which they get the lock, and
      a call returns what it returns in that order;
    * `lookup_regular` — a pass finds every app that keeps a matching request all the
      while, and only apps that had one at some moment of it;
    * `pass_alone` — undisturbed, it is the plain look-up loop. -/

namespace JrtcReclaim

open JrtcStreamId JrtcRouterLookup JrtcReqTable Reclaims Runs

/-! ## The calls one after the other -/

/-- The table as `JrtcReqTable` has it: each request with the apps of its entry. -/
def view (s : Table) : ReqTable := fun r => do
  let p ← s.reqs r
  let e ← s.mem p
  return e.bitmap

/-- The call of a request, with what its allocations return. -/
def Request.call (al : ReqAlloc) : Request → ReqCall
  | .register a sid => .register (some (a.val : Int)) sid al
  | .deregister a sid => .deregister (some (a.val : Int)) sid

/-- What the call returns; a deregistration returns nothing. -/
def Request.answer (reqs : ReqTable) (al : ReqAlloc) : Request → Option Int
  | .register a sid => some (channelRegisterStreamIdReq reqs (some (a.val : Int)) sid al).1
  | .deregister _ _ => none

/-- The request a call with the lock has not carried out yet. -/
def Pc.pending : Pc → Option Request
  | .locked req => some req
  | .setBit a sid _ | .alloc a sid | .insert a sid _ => some (.register a sid)
  | .resetBit a sid _ => some (.deregister a sid)
  | _ => none

/-- What a call that was carried out will return. -/
def Pc.answer? : Pc → Option (Option Int)
  | .testEmpty _ _ _ | .enter _ _ _ | .remove _ _ _ | .leave _ _ | .barrier _
  | .waiting _ => some none
  | .unlock res => some res
  | _ => none

/-- The request whose entry the owner of the lock is about to remove, if it is empty. -/
def Pc.removing : Pc → Option StreamId
  | .testEmpty _ sid _ | .enter _ sid _ | .remove _ sid _ => some sid
  | _ => none

/-- The access with which a call takes effect, with what its allocations returned. -/
def effect (s : Table) : Access → Option (Request × ReqAlloc)
  | .get k => match s.pc k with
      | .locked (.deregister a sid) =>
          if s.reqs sid = none then some (.deregister a sid, ⟨true, true, true⟩) else none
      | _ => none
  | .setBit k | .resetBit k => (s.pc k).pending.map (·, ⟨true, true, true⟩)
  | .alloc k none => (s.pc k).pending.map (·, ⟨false, false, false⟩)
  | .insert k .fails => (s.pc k).pending.map (·, ⟨true, true, false⟩)
  | .insert k _ => (s.pc k).pending.map (·, ⟨true, true, true⟩)
  | _ => none

/-- The calls that took effect, in the order in which they did. -/
def effects (tr : List (Table × Access)) : List (Request × ReqAlloc) :=
  tr.flatMap fun x => (effect x.1 x.2).toList

/-- The request of a call that gets the lock. -/
def lockedBy (s : Table) : Access → Option Request
  | .lock k => match s.pc k with
      | .spin req => some req
      | _ => none
  | _ => none

/-- The requests in the order in which their calls got the lock. -/
def locks (tr : List (Table × Access)) : List Request :=
  tr.flatMap fun x => (lockedBy x.1 x.2).toList

/-- The request of the owner of the lock, if it is still to be carried out. -/
def Table.pending (s : Table) : List Request :=
  (s.lock.bind fun k => (s.pc k).pending).toList

/-- The table after the calls, each in one step. -/
def atomic (calls : List (Request × ReqAlloc)) : ReqWorld :=
  (calls.map fun c => c.1.call c.2).foldl ReqWorld.call ReqWorld.init

theorem effects_snoc (tr : List (Table × Access)) (s : Table) (l : Access) :
    effects (tr ++ [(s, l)]) = effects tr ++ (effect s l).toList := by
  simp [effects]

theorem locks_snoc (tr : List (Table × Access)) (s : Table) (l : Access) :
    locks (tr ++ [(s, l)]) = locks tr ++ (lockedBy s l).toList := by
  simp [locks]

theorem atomic_snoc (calls : List (Request × ReqAlloc)) (req : Request) (al : ReqAlloc) :
    atomic (calls ++ [(req, al)]) = (atomic calls).call (req.call al) := by
  simp [atomic]

theorem noEmptyEntry_atomic (calls : List (Request × ReqAlloc)) :
    NoEmptyEntry (atomic calls).reqs :=
  (ReqWorld.inv_run _).noEmpty

theorem view_of_keyed {s : Table} {r : StreamId} {p : EntryPtr} {e : Entry}
    (hr : s.reqs r = some p) (he : s.mem p = some e) : view s r = some e.bitmap := by
  simp [view, hr, he]

theorem view_of_none {s : Table} {r : StreamId} (hr : s.reqs r = none) : view s r = none := by
  simp [view, hr]

/-- Memory that no request leads to is not seen. -/
theorem view_congr {s s' : Table} (hreqs : s'.reqs = s.reqs)
    (hmem : ∀ r p, s.reqs r = some p → s'.mem p = s.mem p) : view s' = view s := by
  funext r
  cases hr : s.reqs r with
  | none => rw [view_of_none hr, view_of_none (hreqs ▸ hr)]
  | some p => simp [view, hreqs, hr, hmem r p hr]

/-- The calls of a run, as they took effect, lead to the table, apart from an empty entry
    that is not removed yet. -/
structure Sim (tr : List (Table × Access)) (s : Table) : Prop where
  table : ∀ r, view s r = (atomic (effects tr)).reqs r
    ∨ (view s r = some ∅ ∧ (atomic (effects tr)).reqs r = none
        ∧ ∃ k, (s.pc k).removing = some r)
  order : (effects tr).map Prod.fst ++ s.pending = locks tr
  answer : ∀ k res, (s.pc k).answer? = some res → ∃ calls req al,
    effects tr = calls ++ [(req, al)] ∧ res = req.answer (atomic calls).reqs al

theorem Pc.outside_none {pc : Pc} (h : pc.critical ≠ true) :
    pc.removing = none ∧ pc.pending = none ∧ pc.answer? = none := by
  cases pc with
  | idle => exact ⟨rfl, rfl, rfl⟩
  | spin req => exact ⟨rfl, rfl, rfl⟩
  | _ => exact absurd rfl h

/-- Only the owner of the lock removes an entry. -/
theorem Sim.table_owner {tr : List (Table × Access)} {s : Table} (h : Sim tr s) (hinv : s.Inv)
    {k : Nat} {old : Pc} (hk : s.pc k = old) (hcrit : old.critical = true) (r : StreamId) :
    view s r = (atomic (effects tr)).reqs r
      ∨ (view s r = some ∅ ∧ (atomic (effects tr)).reqs r = none ∧ old.removing = some r) := by
  refine (h.table r).imp_right ?_
  rintro ⟨hview, hnone, j, hj⟩
  refine ⟨hview, hnone, ?_⟩
  by_cases hjk : j = k
  · rw [← hk, ← hjk, hj]
  · rw [(Pc.outside_none (hinv.not_critical (hk ▸ hcrit) hjk)).1] at hj
    cases hj

/-- An owner that removes nothing sees the table of the calls. -/
theorem Sim.table_eq {tr : List (Table × Access)} {s : Table} (h : Sim tr s) (hinv : s.Inv)
    {k : Nat} {old : Pc} (hk : s.pc k = old) (hcrit : old.critical = true)
    (hrem : old.removing = none) (r : StreamId) :
    view s r = (atomic (effects tr)).reqs r := by
  rcases h.table_owner hinv hk hcrit r with heq | ⟨-, -, hr⟩
  · exact heq
  · rw [hrem] at hr
    cases hr

/-- A step of the owner of the lock: what is to be shown about it alone. -/
theorem Sim.owner {tr : List (Table × Access)} {s s' : Table} {l : Access} (h : Sim tr s)
    (hinv : s.Inv) {k : Nat} {old pc : Pc} (hk : s.pc k = old) (hcrit : old.critical = true)
    (heq : s'.pc = Function.update s.pc k pc) (hlock : s'.lock = s.lock)
    (hl : lockedBy s l = none)
    (htable : ∀ r, view s' r = (atomic (effects tr ++ (effect s l).toList)).reqs r
      ∨ (view s' r = some ∅ ∧ (atomic (effects tr ++ (effect s l).toList)).reqs r = none
          ∧ pc.removing = some r))
    (horder : (effect s l).toList.map Prod.fst ++ pc.pending.toList = old.pending.toList)
    (hanswer : ∀ res, pc.answer? = some res → (effect s l = none ∧ old.answer? = some res)
      ∨ ∃ req al, effect s l = some (req, al)
          ∧ res = req.answer (atomic (effects tr)).reqs al) :
    Sim (tr ++ [(s, l)]) s' := by
  have howner : s.lock = some k := (hinv.excl k).mp (hk ▸ hcrit)
  refine ⟨?_, ?_, ?_⟩
  · intro r
    rw [effects_snoc]
    refine (htable r).imp_right ?_
    rintro ⟨hview, hnone, hr⟩
    exact ⟨hview, hnone, k, by rw [heq, Function.update_self, hr]⟩
  · have hpend : s'.pending = pc.pending.toList := by
      simp [Table.pending, hlock, howner, heq]
    have hpend₀ : s.pending = old.pending.toList := by
      simp [Table.pending, howner, hk]
    rw [effects_snoc, locks_snoc, hl, hpend, List.map_append, List.append_assoc, horder,
      ← hpend₀, h.order]
    simp
  · intro j res hj
    rw [heq] at hj
    rw [effects_snoc]
    by_cases hjk : j = k
    · rw [hjk, Function.update_self] at hj
      rcases hanswer res hj with ⟨hnone, hold⟩ | ⟨req, al, hsome, hres⟩
      · obtain ⟨calls, req, al, heff, hres⟩ := h.answer k res (hk ▸ hold)
        exact ⟨calls, req, al, by rw [hnone, heff]; simp, hres⟩
      · exact ⟨effects tr, req, al, by rw [hsome]; rfl, hres⟩
    · rw [Function.update_of_ne hjk,
        (Pc.outside_none (hinv.not_critical (hk ▸ hcrit) hjk)).2.2] at hj
      cases hj

/-- The owner moves on and carries nothing out. -/
theorem Sim.owner_silent {tr : List (Table × Access)} {s s' : Table} {l : Access}
    (h : Sim tr s) (hinv : s.Inv) {k : Nat} {old pc : Pc} (hk : s.pc k = old)
    (hcrit : old.critical = true) (heq : s'.pc = Function.update s.pc k pc)
    (hlock : s'.lock = s.lock) (hl : lockedBy s l = none) (heff : effect s l = none)
    (hview : view s' = view s)
    (hrem : ∀ r, old.removing = some r → view s r = some ∅ → pc.removing = some r)
    (hpend : pc.pending = old.pending)
    (hans : ∀ res, pc.answer? = some res → old.answer? = some res) :
    Sim (tr ++ [(s, l)]) s' := by
  refine h.owner hinv hk hcrit heq hlock hl (fun r => ?_) (by simp [heff, hpend])
    (fun res hres => Or.inl ⟨heff, hans res hres⟩)
  rw [heff, hview, Option.toList_none, List.append_nil]
  refine (h.table_owner hinv hk hcrit r).imp_right ?_
  rintro ⟨hempty, hnone, hr⟩
  exact ⟨hempty, hnone, hrem r hr hempty⟩

/-- The owner carries its call out. -/
theorem Sim.owner_effect {tr : List (Table × Access)} {s s' : Table} {l : Access}
    (h : Sim tr s) (hinv : s.Inv) {k : Nat} {old pc : Pc} {req : Request} {al : ReqAlloc}
    (hk : s.pc k = old) (hcrit : old.critical = true) (hpend : old.pending = some req)
    (hrem : old.removing = none) (heq : s'.pc = Function.update s.pc k pc)
    (hlock : s'.lock = s.lock) (hl : lockedBy s l = none)
    (heff : effect s l = some (req, al)) (hnone : pc.pending = none)
    (hans : ∀ res, pc.answer? = some res → res = req.answer (view s) al)
    (hview : ∀ w : ReqWorld, w.reqs = view s → ∀ r, view s' r = (w.call (req.call al)).reqs r
      ∨ (view s' r = some ∅ ∧ (w.call (req.call al)).reqs r = none
          ∧ pc.removing = some r)) :
    Sim (tr ++ [(s, l)]) s' := by
  have htable : (atomic (effects tr)).reqs = view s :=
    funext fun r => (h.table_eq hinv hk hcrit hrem r).symm
  refine h.owner hinv hk hcrit heq hlock hl (fun r => ?_) (by simp [heff, hpend, hnone])
    (fun res hres => Or.inr ⟨req, al, heff, ?_⟩)
  · rw [heff, Option.toList_some, atomic_snoc]
    exact hview _ htable r
  · rw [htable]
    exact hans res hres

/-- A step that the table and the owner of the lock do not notice. -/
theorem Sim.silent {tr : List (Table × Access)} {s s' : Table} {l : Access} (h : Sim tr s)
    (hview : view s' = view s) (hl : lockedBy s l = none) (heff : effect s l = none)
    (hrem : ∀ k, (s'.pc k).removing = (s.pc k).removing)
    (hpend : s'.pending = s.pending)
    (hans : ∀ k res, (s'.pc k).answer? = some res → (s.pc k).answer? = some res) :
    Sim (tr ++ [(s, l)]) s' := by
  have heffs : effects (tr ++ [(s, l)]) = effects tr := by simp [effects_snoc, heff]
  refine ⟨fun r => ?_, ?_, fun k res hk => ?_⟩
  · rw [heffs, hview]
    simp only [hrem]
    exact h.table r
  · rw [heffs, hpend, locks_snoc, hl, h.order]
    simp
  · rw [heffs]
    exact h.answer k res (hans k res hk)

theorem sim_init : Sim [] Table.init where
  table := fun _ => Or.inl rfl
  order := rfl
  answer := fun _ res hk => absurd hk.symm (Option.some_ne_none res)

section

variable (w : ReqWorld) (a : AppId) {sid : StreamId} {bitmap : Finset AppId}

theorem reqs_register_some (al : ReqAlloc) (h : w.reqs sid = some bitmap) :
    (w.call ((Request.register a sid).call al)).reqs
      = Function.update w.reqs sid (some (insert a bitmap)) := by
  simp [ReqWorld.call, Request.call, channelRegisterStreamIdReq, h]

theorem reqs_register_none (h : w.reqs sid = none) :
    (w.call ((Request.register a sid).call ⟨true, true, true⟩)).reqs
      = Function.update w.reqs sid (some {a}) := by
  simp [ReqWorld.call, Request.call, channelRegisterStreamIdReq, h]

/-- A registration that an allocation fails changes nothing. -/
theorem reqs_register_fails {al : ReqAlloc} (h : w.reqs sid = none)
    (hal : (al.entry && al.bitmap && al.htSet) = false) :
    (w.call ((Request.register a sid).call al)).reqs = w.reqs := by
  obtain ⟨entry, bitmap, htSet⟩ := al
  cases entry <;> cases bitmap <;> cases htSet <;>
    simp_all [ReqWorld.call, Request.call, channelRegisterStreamIdReq]

theorem reqs_deregister_none (al : ReqAlloc) (h : w.reqs sid = none) :
    (w.call ((Request.deregister a sid).call al)).reqs = w.reqs := by
  simp [ReqWorld.call, Request.call, channelDeregisterStreamIdReq, h]

theorem reqs_deregister_some (al : ReqAlloc) (h : w.reqs sid = some bitmap) :
    (w.call ((Request.deregister a sid).call al)).reqs
      = Function.update w.reqs sid
          (if bitmap.erase a = ∅ then none else some (bitmap.erase a)) := by
  simp only [ReqWorld.call, Request.call, channelDeregisterStreamIdReq, checkedAppId_val, h]
  by_cases hempty : bitmap.erase a = ∅
  · rw [if_pos hempty, if_pos hempty]
  · rw [if_neg hempty, if_neg hempty]

end

theorem view_setBitmap {s : Table} (h : HeapOk s.reqs s.mem s.dom) {sid : StreamId}
    {p : EntryPtr} {e : Entry} (hp : s.reqs sid = some p) (he : s.mem p = some e)
    (f : Finset AppId → Finset AppId) :
    view (s.setBitmap p f) = Function.update (view s) sid (some (f e.bitmap)) := by
  funext r
  by_cases hr : r = sid
  · subst hr
    rw [Function.update_self]
    exact view_of_keyed (e := { e with bitmap := f e.bitmap }) hp
      (by simp [Table.setBitmap, he])
  · rw [Function.update_of_ne hr]
    cases hq : s.reqs r with
    | none =>
        rw [view_of_none hq]
        exact view_of_none hq
    | some q =>
        have hqp : q ≠ p := by
          rintro rfl
          exact hr (h.eq_of_keyed hq hp)
        simp [view, Table.setBitmap, hq, Function.update_of_ne hqp]

/-- A request is given another entry, or none. -/
theorem view_update {s s' : Table} {sid : StreamId} {q : Option EntryPtr}
    (hreqs : s'.reqs = Function.update s.reqs sid q) (hmem : s'.mem = s.mem) (r : StreamId) :
    view s' r
      = Function.update (view s) sid (q.bind fun p => (s.mem p).map (·.bitmap)) r := by
  by_cases hr : r = sid
  · subst hr
    rw [Function.update_self]
    cases q with
    | none => exact view_of_none (by rw [hreqs, Function.update_self])
    | some p =>
        cases he : s.mem p <;> simp [view, hreqs, hmem, he]
  · rw [Function.update_of_ne hr]
    simp [view, hreqs, hmem, Function.update_of_ne hr]

theorem Sim.step {tr : List (Table × Access)} {s s' : Table} {l : Access} (h : Sim tr s)
    (hinv : s.Inv) (hs : Step s l s') : Sim (tr ++ [(s, l)]) s' := by
  have hok := hinv.ok
  cases hs with
  | @call k req hk =>
      have hrem : ∀ j, (Function.update s.pc k (.spin req) j).removing = (s.pc j).removing
          ∧ (Function.update s.pc k (.spin req) j).pending = (s.pc j).pending
          ∧ (Function.update s.pc k (.spin req) j).answer? = (s.pc j).answer? := by
        intro j
        by_cases hj : j = k
        · rw [hj, Function.update_self, hk]
          exact ⟨rfl, rfl, rfl⟩
        · rw [Function.update_of_ne hj]
          exact ⟨rfl, rfl, rfl⟩
      refine h.silent rfl rfl rfl (fun j => (hrem j).1) ?_ (fun j res hj => ?_)
      · show (s.lock.bind fun j => (Function.update s.pc k (.spin req) j).pending).toList = _
        simp only [fun j => (hrem j).2.1]
        rfl
      · exact (hrem j).2.2 ▸ hj
  | @lock k req hk hlock =>
      have hout : ∀ j, (s.pc j).critical ≠ true := by
        intro j hj
        rw [hinv.excl j, hlock] at hj
        cases hj
      refine ⟨fun r => ?_, ?_, fun j res hj => ?_⟩
      · rw [effects_snoc]
        rcases h.table r with heq | ⟨-, -, j, hj⟩
        · left
          rw [show effect s (.lock k) = none from rfl, Option.toList_none, List.append_nil]
          exact heq
        · rw [(Pc.outside_none (hout j)).1] at hj
          cases hj
      · have horder := h.order
        simp only [Table.pending, hlock, Option.bind_none, Option.toList_none,
          List.append_nil] at horder
        simp [effects_snoc, locks_snoc, effect, lockedBy, hk, horder, Table.pending, Table.goto,
          Pc.pending]
      · have hnone : (Function.update s.pc k (.locked req) j).answer? = none := by
          by_cases hjk : j = k
          · rw [hjk, Function.update_self]
            rfl
          · rw [Function.update_of_ne hjk, (Pc.outside_none (hout j)).2.2]
        exact absurd (hnone.symm.trans hj).symm (Option.some_ne_none res)
  | @get k req hk =>
      cases req with
      | register a sid =>
          have heff : effect s (.get k) = none := by simp [effect, hk]
          cases hr : s.reqs sid with
          | some p =>
              have hpc : found s (.register a sid) = .setBit a sid p := by simp [found, hr]
              rw [hpc]
              exact h.owner_silent hinv hk rfl rfl rfl rfl heff rfl (by simp [Pc.removing]) rfl
                (by simp [Pc.answer?])
          | none =>
              have hpc : found s (.register a sid) = .alloc a sid := by simp [found, hr]
              rw [hpc]
              exact h.owner_silent hinv hk rfl rfl rfl rfl heff rfl (by simp [Pc.removing]) rfl
                (by simp [Pc.answer?])
      | deregister a sid =>
          cases hr : s.reqs sid with
          | some p =>
              have hpc : found s (.deregister a sid) = .resetBit a sid p := by simp [found, hr]
              rw [hpc]
              exact h.owner_silent hinv hk rfl rfl rfl rfl (by simp [effect, hk, hr]) rfl
                (by simp [Pc.removing]) rfl (by simp [Pc.answer?])
          | none =>
              have hpc : found s (.deregister a sid) = .unlock none := by simp [found, hr]
              have heff : effect s (.get k) = some (.deregister a sid, ⟨true, true, true⟩) := by
                simp [effect, hk, hr]
              rw [hpc]
              refine h.owner_effect hinv hk rfl rfl rfl rfl rfl rfl heff rfl
                (by simp [Pc.answer?, Request.answer]) fun w hw r => Or.inl ?_
              rw [reqs_deregister_none w a _ (by rw [hw, view_of_none hr]), hw]
              rfl
  | @setBit k a sid p hk =>
      have hp : PcOk s (.setBit a sid p) := hk ▸ hok k
      have heff : effect s (.setBit k) = some (.register a sid, ⟨true, true, true⟩) := by
        simp [effect, hk, Pc.pending]
      obtain ⟨-, e, he, -⟩ := hinv.heap.keyed hp
      have hview := view_of_keyed hp he
      refine h.owner_effect hinv hk rfl rfl rfl rfl rfl rfl heff rfl ?_ fun w hw r => Or.inl ?_
      · simp [Pc.answer?, Request.answer, channelRegisterStreamIdReq, hview]
      · rw [reqs_register_some w a _ (by rw [hw, hview]), hw]
        exact congrFun (view_setBitmap hinv.heap hp he _) r
  | @allocFails k a sid hk =>
      have hr : PcOk s (.alloc a sid) := hk ▸ hok k
      have heff : effect s (.alloc k none) = some (.register a sid, ⟨false, false, false⟩) := by
        simp [effect, hk, Pc.pending]
      refine h.owner_effect hinv hk rfl rfl rfl rfl rfl rfl heff rfl ?_ fun w hw r => Or.inl ?_
      · simp [Pc.answer?, Request.answer, channelRegisterStreamIdReq, view_of_none hr]
      · rw [reqs_register_fails w a (by rw [hw, view_of_none hr]) rfl, hw]
        rfl
  | @alloc k a sid p hk hp =>
      refine h.owner_silent hinv hk rfl rfl rfl rfl rfl (view_congr rfl fun r q hq => ?_)
        (by simp [Pc.removing]) rfl (by simp [Pc.answer?])
      refine Function.update_of_ne ?_ _ _
      rintro rfl
      obtain ⟨-, e, he, -⟩ := hinv.heap.keyed hq
      exact Option.some_ne_none e (he.symm.trans hp)
  | @insertFails k a sid p hk =>
      have hpc : PcOk s (.insert a sid p) := hk ▸ hok k
      have heff : effect s (.insert k .fails) = some (.register a sid, ⟨true, true, false⟩) := by
        simp [effect, hk, Pc.pending]
      refine h.owner_effect hinv hk rfl rfl rfl rfl rfl rfl heff rfl ?_ fun w hw r => Or.inl ?_
      · simp [Pc.answer?, Request.answer, channelRegisterStreamIdReq, view_of_none hpc.1]
      · rw [reqs_register_fails w a (by rw [hw, view_of_none hpc.1]) rfl, hw]
        rfl
  | @insert k a sid p ins hk hnew hne =>
      have hpc : PcOk s (.insert a sid p) := hk ▸ hok k
      obtain ⟨hsid, hst, he⟩ := hpc
      have heff : effect s (.insert k ins) = some (.register a sid, ⟨true, true, true⟩) := by
        cases ins with
        | fails => exact absurd rfl hne
        | places => simp [effect, hk, Pc.pending]
        | grows m => simp [effect, hk, Pc.pending]
      refine h.owner_effect hinv hk rfl rfl rfl rfl rfl rfl heff rfl ?_ fun w hw r => Or.inl ?_
      · simp [Pc.answer?, Request.answer, channelRegisterStreamIdReq, view_of_none hsid]
      · rw [reqs_register_none w a (by rw [hw, view_of_none hsid]), hw]
        refine Eq.trans (view_update (s := s) (by rfl) (by rfl) r) ?_
        simp [he]
  | @resetBit k a sid p hk =>
      have hp : PcOk s (.resetBit a sid p) := hk ▸ hok k
      have heff : effect s (.resetBit k) = some (.deregister a sid, ⟨true, true, true⟩) := by
        simp [effect, hk, Pc.pending]
      obtain ⟨-, e, he, -⟩ := hinv.heap.keyed hp
      refine h.owner_effect hinv hk rfl rfl rfl rfl rfl rfl heff rfl
        (by simp [Pc.answer?, Request.answer]) fun w hw r => ?_
      rw [reqs_deregister_some w a _ (by rw [hw, view_of_keyed hp he]), hw]
      show view (s.setBitmap p (·.erase a)) r = _ ∨ view (s.setBitmap p (·.erase a)) r = _ ∧ _
      rw [view_setBitmap hinv.heap hp he (·.erase a)]
      by_cases hr : r = sid
      · subst hr
        by_cases hempty : e.bitmap.erase a = ∅
        · -- the entry stays in the table for a moment, without an app
          simp [hempty, Pc.removing]
        · simp [hempty]
      · simp [Function.update_of_ne hr]
  | @testEmpty k a sid p e hk he =>
      have hp : PcOk s (.testEmpty a sid p) := hk ▸ hok k
      by_cases hempty : e.bitmap = ∅
      · rw [if_pos hempty]
        exact h.owner_silent hinv hk rfl rfl rfl rfl rfl rfl (fun r hr _ => hr) rfl
          (fun res hres => hres)
      · rw [if_neg hempty]
        refine h.owner_silent hinv hk rfl rfl rfl rfl rfl rfl (fun r hr hview => ?_) rfl
          (fun res hres => hres)
        obtain rfl := Option.some.inj hr
        rw [view_of_keyed hp he] at hview
        exact absurd (Option.some.inj hview) hempty
  | @enter k a sid p hk =>
      exact h.owner_silent hinv hk rfl rfl rfl rfl rfl rfl (fun r hr _ => hr) rfl
        (fun res hres => hres)
  | @remove k a sid p hk =>
      have hpc : PcOk s (.remove a sid p) := hk ▸ hok k
      obtain ⟨hp, hempty⟩ := hpc
      obtain ⟨-, e, he, -⟩ := hinv.heap.keyed hp
      refine h.owner hinv hk rfl rfl rfl rfl (fun r => Or.inl ?_) rfl
        (fun res hres => Or.inl ⟨rfl, hres⟩)
      rw [show effect s (.remove k) = none from rfl, Option.toList_none, List.append_nil]
      refine Eq.trans (view_update (s := s) (by rfl) (by rfl) r) ?_
      by_cases hr : r = sid
      · subst hr
        rw [Function.update_self]
        -- an empty entry is none to the calls
        rcases h.table_owner hinv hk rfl r with heq | ⟨-, hnone, -⟩
        · rw [view_of_keyed hp he, hempty e he] at heq
          exact absurd heq.symm (noEmptyEntry_atomic _ r)
        · exact hnone.symm
      · rw [Function.update_of_ne hr]
        rcases h.table_owner hinv hk rfl r with heq | ⟨-, -, hrem⟩
        · exact heq
        · exact absurd (Option.some.inj hrem).symm hr
  | @leave k a p hk =>
      exact h.owner_silent hinv hk rfl rfl rfl rfl rfl rfl (fun r hr _ => hr) rfl
        (fun res hres => hres)
  | @barrier k p hk =>
      exact h.owner_silent hinv hk rfl rfl rfl rfl rfl rfl (fun r hr _ => hr) rfl
        (fun res hres => hres)
  | @free k p hk hst =>
      refine h.owner_silent hinv hk rfl rfl rfl rfl rfl (view_congr rfl fun r q hq => ?_)
        (fun r hr _ => hr) rfl (fun res hres => hres)
      refine Function.update_of_ne ?_ _ _
      rintro rfl
      exact hinv.heap.not_keyed hst (by simp) r hq
  | @unlock k res hk =>
      have hcrit : (s.pc k).critical = true := by
        rw [hk]
        rfl
      have hout : ∀ j, (Function.update s.pc k .idle j).critical ≠ true := by
        intro j
        by_cases hj : j = k
        · rw [hj, Function.update_self]
          exact Bool.noConfusion
        · rw [Function.update_of_ne hj]
          exact hinv.not_critical hcrit hj
      have hpend : s.pending = [] := by
        simp [Table.pending, (hinv.excl k).mp hcrit, hk, Pc.pending]
      refine ⟨fun r => Or.inl ?_, ?_, fun j res' hj => ?_⟩
      · rw [effects_snoc, show effect s (.unlock k) = none from rfl, Option.toList_none,
          List.append_nil]
        exact h.table_eq hinv hk rfl rfl r
      · have horder := h.order
        rw [hpend] at horder
        rw [effects_snoc, locks_snoc, ← horder]
        simp [effect, lockedBy, Table.pending]
      · have hnone := (Pc.outside_none (hout j)).2.2
        exact absurd (hnone.symm.trans hj).symm (Option.some_ne_none res')
  | _ => exact h.silent rfl rfl rfl (fun _ => rfl) rfl (fun _ _ hk => hk)

theorem sim_run {tr : List (Table × Access)} {s : Table} (h : Run Step Table.init tr s) :
    Sim tr s := by
  induction h with
  | start => exact sim_init
  | next hrun hs ih => exact ih.step (Table.inv_run hrun) hs

/-- **THE CALLS ARE ATOMIC.**  Whatever the interleaving, the calls take effect one at a
    time, in the order in which they get the lock, and each once; the apps of every request
    are those that the same calls leave when each is one step, and the table itself is that
    table whenever the lock is free; and a call returns what it returns in that order. -/
theorem calls_refine {tr : List (Table × Access)} {s : Table} (h : Run Step Table.init tr s) :
    (effects tr).map Prod.fst ++ s.pending = locks tr
    ∧ (∀ r, subscribers (view s) r = subscribers (atomic (effects tr)).reqs r)
    ∧ (s.lock = none → view s = (atomic (effects tr)).reqs)
    ∧ ∀ k res, s.pc k = .unlock res → ∃ calls req al,
        effects tr = calls ++ [(req, al)] ∧ res = req.answer (atomic calls).reqs al := by
  have hsim := sim_run h
  have hinv := Table.inv_run h
  refine ⟨hsim.order, fun r => ?_, fun hlock => ?_, fun k res hk => ?_⟩
  · rcases hsim.table r with heq | ⟨hempty, hnone, -⟩
    · rw [subscribers, subscribers, heq]
    · rw [subscribers, subscribers, hempty, hnone]
      rfl
  · funext r
    rcases hsim.table r with heq | ⟨-, -, k, hk⟩
    · exact heq
    · have hcrit : (s.pc k).critical ≠ true := by
        rw [Ne, hinv.excl k, hlock]
        exact (Option.some_ne_none k).symm
      rw [(Pc.outside_none hcrit).1] at hk
      cases hk
  · exact hsim.answer k res (by rw [hk]; rfl)

/-- An app registers a request and nothing else happens. -/
theorem exists_registered (a : AppId) (sid : StreamId) :
    ∃ tr s, Run Step Table.init tr s ∧ Meets GrowsOutside tr ∧ s.lock = none ∧ s.fwd = .idle
      ∧ view s sid = some {a} ∧ (∀ x ∈ tr, x.2 ≠ .delivered) ∧ ∀ k, s.pc k = .idle := by
  obtain ⟨tr, s, hrun, hgrow, hpc, -, hmem, -, hfwd, hdel, hothers⟩ :=
    exists_insert (s := Table.init) (k := 0) a sid 0 rfl rfl rfl rfl
  let s₁ : Table := { s.goto 0 (.unlock (some 1)) with
    reqs := Function.update s.reqs sid (some 0)
    map := Insertion.places.map s.map
    maps := Insertion.places.maps s.map s.maps
    dom := s.dom.link 0 }
  let s₂ : Table := { s₁.goto 0 .idle with lock := none }
  have h₁ : Step s (.insert 0 .places) s₁ := Step.insert hpc (by simp) (by simp)
  have hpc₁ : s₁.pc 0 = .unlock (some 1) := by simp [s₁, Table.goto]
  have h₂ : Step s₁ (.unlock 0) s₂ := Step.unlock hpc₁
  refine ⟨_, s₂, (hrun.next h₁).next h₂, ?_, rfl, hfwd, ?_, ?_, fun k => ?_⟩
  · exact meets_snoc.mpr ⟨meets_snoc.mpr ⟨hgrow, trivial⟩, trivial⟩
  · exact view_of_keyed (s := s₂) (by simp [s₂, s₁, Table.goto]) hmem
  · simp only [List.forall_mem_append, List.forall_mem_singleton]
    exact ⟨⟨hdel, by simp⟩, by simp⟩
  · by_cases hk : k = 0
    · simp [s₂, Table.goto, hk]
    · have hpc : s₂.pc k = s.pc k := by simp [s₂, s₁, Table.goto, hk]
      exact hpc.trans (hothers k hk)

/-- One registration, and the table is that of one call. -/
theorem calls_refine_registered : ∃ tr s, Run Step Table.init tr s
    ∧ view s = (atomic (effects tr)).reqs ∧ view s (Vector.replicate 16 0) = some {0} := by
  obtain ⟨tr, s, hrun, -, hlock, -, hview, -⟩ := exists_registered 0 (Vector.replicate 16 0)
  exact ⟨tr, s, hrun, (calls_refine hrun).2.2.1 hlock, hview⟩

/-! ## What a pass finds -/

/-- An app of a request, as one look-up of it sees it. -/
def Subscribed (a : AppId) (r : StreamId) (s : Table) : Prop := a ∈ subscribers (view s) r

/-- What the look-ups before `i` have collected: apps that had a matching request at some
    moment, and every app that had one all the while. -/
structure Collected (sid : StreamId) (i : Nat) (res : Finset AppId)
    (tr : List (Table × Access)) (s : Table) : Prop where
  only : ∀ a ∈ res, Once (fun s => a ∈ lookupResult (view s) sid) tr s
  all  : ∀ j < i, ∀ r, (lookupIds sid)[j]? = some r → ∀ a, Along (Subscribed a r) tr s → a ∈ res

/-- The request still has the entry that was found, or it had no app for a moment. -/
def Kept (r : StreamId) (p : EntryPtr) (tr : List (Table × Access)) (s : Table) : Prop :=
  s.reqs r = some p ∨ Once (fun s => ∀ a, ¬ Subscribed a r s) tr s

/-- What a pass over the look-ups of a message has done so far. -/
def PassOk (sid : StreamId) (tr : List (Table × Access)) (s : Table) : Fwd → Prop
  | .idle => False
  | .deliver sid' res => sid' = sid ∧ Collected sid (lookupIds sid).length res tr s
  | .pass sid' i res at_ => sid' = sid ∧ Collected sid i res tr s ∧ match at_ with
      | .look | .get _ => True
      | .probed _ p => ∃ e, s.mem p = some e ∧ Kept e.streamId p tr s
      | .found p w => ∃ r, (lookupIds sid)[i]? = some r ∧ Kept r p tr s
          ∧ ∀ a, a.val / 32 < w → Along (Subscribed a r) tr s → a ∈ res

theorem Collected.next {sid : StreamId} {i : Nat} {res : Finset AppId}
    {tr : List (Table × Access)} {s s' : Table} {l : Access} (h : Collected sid i res tr s) :
    Collected sid i res (tr ++ [(s, l)]) s' :=
  ⟨fun a ha => (h.only a ha).next, fun j hj r hr a ha => h.all j hj r hr a ha.prev⟩

/-- A request loses its entry only where it has no app. -/
theorem Kept.step {r : StreamId} {p : EntryPtr} {tr : List (Table × Access)} {s s' : Table}
    {l : Access} (h : Kept r p tr s) (hinv : s.Inv) (hs : Step s l s') :
    Kept r p (tr ++ [(s, l)]) s' := by
  rcases h with hr | honce
  · have hok := hinv.ok
    cases hs with
    | @remove k a sid q hk =>
        have hpc : PcOk s (.remove a sid q) := hk ▸ hok k
        obtain ⟨hq, hempty⟩ := hpc
        by_cases hrs : r = sid
        · subst hrs
          obtain ⟨-, e, he, -⟩ := hinv.heap.keyed hq
          refine Or.inr (once_snoc.mpr (Or.inl (Or.inr fun b => ?_)))
          rw [Subscribed, subscribers, view_of_keyed hq he, hempty e he]
          exact Finset.notMem_empty b
        · exact Or.inl ((Function.update_of_ne hrs _ _).trans hr)
    | @insert k a sid q ins hk hnew hne =>
        have hpc : PcOk s (.insert a sid q) := hk ▸ hok k
        have hrs : r ≠ sid := by
          rintro rfl
          exact Option.some_ne_none p (hr.symm.trans hpc.1)
        exact Or.inl ((Function.update_of_ne hrs _ _).trans hr)
    | _ => exact Or.inl hr
  · exact Or.inr honce.next

/-- A step that leaves the router thread where it is. -/
theorem PassOk.frame {sid : StreamId} {tr : List (Table × Access)} {s s' : Table} {l : Access}
    (h : PassOk sid tr s s.fwd) (hinv : s.Inv) (hs : Step s l s') :
    PassOk sid (tr ++ [(s, l)]) s' s.fwd := by
  have hfwd := hinv.fwd
  cases hf : s.fwd with
  | idle => rwa [hf] at h
  | deliver sid' res =>
      rw [hf] at h
      exact ⟨h.1, h.2.next⟩
  | pass sid' i res place =>
      rw [hf] at h hfwd
      obtain ⟨hsid, hcol, hat⟩ := h
      refine ⟨hsid, hcol.next, ?_⟩
      cases place with
      | look => trivial
      | get m => trivial
      | probed m p =>
          obtain ⟨e, he, hkept⟩ := hat
          obtain ⟨e', he', hkey⟩ := hinv.key_step hs p hfwd.2.1 e he
          exact ⟨e', he', by rw [hkey]; exact hkept.step hinv hs⟩
      | found p w =>
          obtain ⟨r, hr, hkept, hblocks⟩ := hat
          exact ⟨r, hr, hkept.step hinv hs, fun a ha halong => hblocks a ha halong.prev⟩

/-- The look-up at `i` is over. -/
theorem Collected.advance {sid : StreamId} {i : Nat} {res : Finset AppId}
    {tr : List (Table × Access)} {s : Table} {r : StreamId} (h : Collected sid i res tr s)
    (hr : (lookupIds sid)[i]? = some r) (hall : ∀ a, Along (Subscribed a r) tr s → a ∈ res) :
    Collected sid (i + 1) res tr s := by
  refine ⟨h.only, fun j hj r' hr' a ha => ?_⟩
  rcases Nat.lt_succ_iff_lt_or_eq.mp hj with hj | rfl
  · exact h.all j hj r' hr' a ha
  · obtain rfl := Option.some.inj (hr.symm.trans hr')
    exact hall a ha

/-- Every bit the router thread reads was set where it read it. -/
theorem Table.Inv.mem_lookupResult_found {s : Table} (h : s.Inv) {sid : StreamId} {i w : Nat}
    {res : Finset AppId} {p : EntryPtr} {e : Entry} {a : AppId}
    (hf : s.fwd = .pass sid i res (.found p w)) (he : s.mem p = some e) (ha : a ∈ e.bitmap) :
    a ∈ lookupResult (view s) sid := by
  have hfwd : FwdOk s (.pass sid i res (.found p w)) := hf ▸ h.fwd
  obtain ⟨-, hheld, e', he', hid⟩ := hfwd
  obtain rfl := Option.some.inj (he.symm.trans he')
  have hcov := (h.heap.covered none p hheld).2
  -- an entry that was taken out of the table has no app
  have hlinked : s.dom.status p = .linked := by
    have hgone : ¬ Gone (s.dom.status p) := by
      intro hg
      rw [h.heap.gone hg he] at ha
      exact Finset.notMem_empty a ha
    cases hst : s.dom.status p with
    | linked => rfl
    | free => rw [hst] at hcov; exact hcov.elim
    | owned => rw [hst] at hcov; exact hcov.elim
    | unlinked => rw [hst] at hgone; exact absurd trivial hgone
    | waiting rs => rw [hst] at hgone; exact absurd trivial hgone
  obtain ⟨r, hr⟩ := h.heap.linked hlinked
  obtain ⟨-, e'', he'', hkey⟩ := h.heap.keyed hr
  obtain rfl := Option.some.inj (he.symm.trans he'')
  refine (mem_lookupResult _ _ a).mpr ⟨r, ?_, ?_⟩
  · rw [← mem_lookupIds_iff, ← hkey]
    exact List.mem_of_getElem? hid
  · rw [subscribers, view_of_keyed hr he]
    exact ha

theorem PassOk.step {sid : StreamId} {tr : List (Table × Access)} {s s' : Table} {l : Access}
    (h : PassOk sid tr s s.fwd) (hinv : s.Inv) (hl : l ≠ .delivered) (hs : Step s l s') :
    PassOk sid (tr ++ [(s, l)]) s' s'.fwd := by
  have hnext := h.frame hinv hs
  cases hs with
  | @begin sid' hf =>
      rw [hf] at h
      exact h.elim
  | @load sid' i res hf hi =>
      rw [hf] at hnext
      exact hnext
  | @probe sid' i res m r p hf hm hp =>
      rw [hf] at hnext
      obtain ⟨-, e, he, hkey⟩ := hinv.heap.keyed hp
      exact ⟨hnext.1, hnext.2.1, e, he, Or.inl (by rw [hkey]; exact hp)⟩
  | @compare sid' i res m p e hf hm he =>
      rw [hf] at hnext
      by_cases hkey : (lookupIds sid')[i]? = some e.streamId
      · rw [if_pos hkey] at hnext ⊢
        obtain ⟨rfl, hcol, e', he', hkept⟩ := hnext
        obtain rfl := Option.some.inj (he.symm.trans he')
        exact ⟨rfl, hcol, e.streamId, hkey, hkept, fun a ha => absurd ha (Nat.not_lt_zero _)⟩
      · rw [if_neg hkey] at hnext ⊢
        exact ⟨hnext.1, hnext.2.1, trivial⟩
  | @miss sid' i res m r hf hm hr hnone =>
      rw [hf] at hnext
      obtain ⟨rfl, hcol, -⟩ := hnext
      refine ⟨rfl, hcol.advance hr fun a ha => ?_, trivial⟩
      have hsub : Subscribed a r s := ha.prev.2
      rw [Subscribed, subscribers, view_of_none hnone] at hsub
      exact absurd hsub (Finset.notMem_empty a)
  | @union sid' i res p w e hf hw he =>
      rw [hf] at hnext
      obtain ⟨rfl, hcol, r, hr, hkept, hblocks⟩ := hnext
      refine ⟨rfl, ⟨fun a ha => ?_, fun j hj r' hr' a ha => ?_⟩, r, hr, hkept, fun a ha hal => ?_⟩
      · rcases Finset.mem_union.mp ha with ha | ha
        · exact hcol.only a ha
        · have hbit := (Finset.mem_filter.mp ha).1
          exact once_snoc.mpr (Or.inl (Or.inr (hinv.mem_lookupResult_found hf he hbit)))
      · exact Finset.mem_union_left _ (hcol.all j hj r' hr' a ha)
      · rcases Nat.lt_succ_iff_lt_or_eq.mp ha with ha | ha
        · exact Finset.mem_union_left _ (hblocks a ha hal)
        · refine Finset.mem_union_right _ (Finset.mem_filter.mpr ⟨?_, ha⟩)
          have hreq : s.reqs r = some p := by
            rcases hkept with hreq | honce
            · exact hreq
            · exact absurd honce (hal.not_once fun s hs hnot => hnot a hs)
          have hsub : Subscribed a r s := hal.prev.2
          rw [Subscribed, subscribers, view_of_keyed hreq he] at hsub
          exact hsub
  | @next sid' i res p w hf hw =>
      rw [hf] at hnext
      obtain ⟨rfl, hcol, r, hr, hkept, hblocks⟩ := hnext
      refine ⟨rfl, hcol.advance hr fun a ha => hblocks a (lt_of_lt_of_le ?_ hw) ha, trivial⟩
      have hlt := a.isLt
      show a.val / 32 < 4
      omega
  | @finish sid' i res hf hi =>
      rw [hf] at hnext
      obtain ⟨rfl, hcol, -⟩ := hnext
      exact ⟨rfl, hcol.only, fun j hj => hcol.all j (lt_of_lt_of_le hj hi)⟩
  | @delivered sid' res hf => exact absurd rfl hl
  | _ => exact hnext

/-- From the beginning of a pass to its end. -/
theorem collected_of_run {tr₀ tr : List (Table × Access)} {s₀ s : Table} {sid sid' : StreamId}
    {res : Finset AppId} (h₀ : Run Step Table.init tr₀ s₀)
    (hbegin : s₀.fwd = .pass sid 0 ∅ .look) (h : Run Step s₀ tr s)
    (hone : ∀ x ∈ tr, x.2 ≠ .delivered) (hend : s.fwd = .deliver sid' res) :
    sid' = sid ∧ Collected sid (lookupIds sid).length res tr s := by
  have hpass : s.Inv ∧ PassOk sid tr s s.fwd := by
    clear hend
    induction h with
    | start =>
        refine ⟨Table.inv_run h₀, ?_⟩
        rw [hbegin]
        exact ⟨rfl, ⟨fun a ha => absurd ha (Finset.notMem_empty a),
          fun j hj => absurd hj (Nat.not_lt_zero j)⟩, trivial⟩
    | @next tr s l s' hrun hs ih =>
        obtain ⟨hinv, hok⟩ := ih fun x hx => hone x (List.mem_append_left _ hx)
        refine ⟨hinv.step hs, hok.step hinv ?_ hs⟩
        exact hone (s, l) (List.mem_append_right _ (List.mem_singleton_self _))
  rw [hend] at hpass
  exact hpass.2

theorem Collected.mem_of_along {sid r : StreamId} {res : Finset AppId} {a : AppId}
    {tr : List (Table × Access)} {s : Table}
    (h : Collected sid (lookupIds sid).length res tr s) (hr : Matches r sid)
    (ha : Along (Subscribed a r) tr s) : a ∈ res := by
  obtain ⟨j, hj, hid⟩ := List.getElem_of_mem ((mem_lookupIds_iff r sid).mpr hr)
  exact h.all j hj r (by rw [List.getElem?_eq_getElem hj, hid]) a ha

/-! ### A pass that nobody disturbs -/

/-- Steps of the router thread alone, within one pass. -/
def Alone (s : Table) (tr : List (Table × Access)) (s' : Table) : Prop :=
  Along (fun x => x.reqs = s.reqs ∧ x.mem = s.mem ∧ x.pc = s.pc) tr s'
    ∧ ∀ x ∈ tr, x.2 ≠ .delivered

theorem alone_nil (s : Table) : Alone s [] s :=
  ⟨⟨fun _ hx => absurd hx List.not_mem_nil, rfl, rfl, rfl⟩,
    fun _ hx => absurd hx List.not_mem_nil⟩

theorem Alone.append {s s₁ s' : Table} {tr tr' : List (Table × Access)} (h : Alone s tr s₁)
    (h' : Alone s₁ tr' s') : Alone s (tr ++ tr') s' := by
  obtain ⟨⟨hfst, hreqs, hmem, hpc⟩, hdel⟩ := h
  obtain ⟨hal', hdel'⟩ := h'
  rw [hreqs, hmem, hpc] at hal'
  exact ⟨⟨List.forall_mem_append.mpr ⟨hfst, hal'.1⟩, hal'.2⟩,
    List.forall_mem_append.mpr ⟨hdel, hdel'⟩⟩

/-- The router thread alone gets from `s` to `s'`. -/
def Passes (s s' : Table) : Prop := ∃ tr, Run Step s tr s' ∧ Alone s tr s'

theorem Passes.trans {s s₁ s' : Table} (h : Passes s s₁) (h' : Passes s₁ s') :
    Passes s s' := by
  obtain ⟨tr, hrun, hal⟩ := h
  obtain ⟨tr', hrun', hal'⟩ := h'
  exact ⟨tr ++ tr', hrun.trans hrun', hal.append hal'⟩

theorem Step.passes {s s' : Table} {l : Access} (h : Step s l s') (hl : l ≠ .delivered)
    (hreqs : s'.reqs = s.reqs) (hmem : s'.mem = s.mem) (hpc : s'.pc = s.pc) :
    Passes s s' := by
  refine ⟨[(s, l)], Run.start.next h, ⟨fun x hx => ?_, hreqs, hmem, hpc⟩, fun x hx => ?_⟩
  · rw [List.mem_singleton.mp hx]
    exact ⟨rfl, rfl, rfl⟩
  · rw [List.mem_singleton.mp hx]
    exact hl

/-- The rest of the blocks of an entry that was found. -/
theorem exists_union {sid : StreamId} {i : Nat} {p : EntryPtr} {n : Nat} :
    ∀ {w : Nat} {s : Table} {res : Finset AppId}, n + w = numBlocks → s.OneMap →
      s.fwd = .pass sid i res (.found p w) →
      ∃ s' res', Passes s s' ∧ s'.OneMap ∧ s'.fwd = .pass sid (i + 1) res' .look := by
  induction n with
  | zero =>
      intro w s res hw hone hf
      have hs : Step s .union _ := Step.next hf (by omega)
      exact ⟨_, res, hs.passes (by simp) rfl rfl rfl, hone.step (l := .union) trivial hs, rfl⟩
  | succ n ih =>
      intro w s res hw hone hf
      obtain ⟨e, he⟩ := hone.inv.heap.mem_of_held (hone.inv.held_of_entry (by rw [hf]; rfl))
      have hs : Step s .union _ := Step.union hf (by omega) he
      obtain ⟨s', res', hpass, hone', hend⟩ :=
        ih (by omega) (hone.step (l := .union) trivial hs) rfl
      exact ⟨s', res', (hs.passes (by simp) rfl rfl rfl).trans hpass, hone', hend⟩

/-- One look-up. -/
theorem exists_lookup {sid : StreamId} {i : Nat} {s : Table} {res : Finset AppId}
    (hone : s.OneMap) (hf : s.fwd = .pass sid i res .look) (hi : i < (lookupIds sid).length) :
    ∃ s' res', Passes s s' ∧ s'.OneMap ∧ s'.fwd = .pass sid (i + 1) res' .look := by
  have hid := List.getElem?_eq_getElem hi
  let s₁ : Table := { s with fwd := .pass sid i res (.get s.map) }
  have hload : Step s .load s₁ := Step.load hf hi
  have hone₁ := hone.step (l := .load) trivial hload
  have hpass₁ : Passes s s₁ := hload.passes (by simp) rfl rfl rfl
  have hm : s₁.map ∈ s₁.maps := hone₁.live.map s.map rfl
  cases hr : s.reqs (lookupIds sid)[i] with
  | none =>
      have hmiss : Step s₁ .miss _ := Step.miss rfl hm hid hr
      exact ⟨_, res, hpass₁.trans (hmiss.passes (by simp) rfl rfl rfl),
        hone₁.step (l := .miss) trivial hmiss, rfl⟩
  | some p =>
      obtain ⟨-, e, he, hkey⟩ := hone.inv.heap.keyed hr
      let s₂ : Table := { s₁ with
        fwd := .pass sid i res (.probed s.map p), dom := s.dom.find none p }
      have hprobe : Step s₁ (.probe p) s₂ := Step.probe rfl hm hr
      have hone₂ := hone₁.step (l := .probe p) trivial hprobe
      have hcompare : Step s₂ .compare _ := Step.compare rfl hm he
      rw [if_pos (hid.trans (congrArg some hkey.symm))] at hcompare
      obtain ⟨s', res', hpass, hone', hend⟩ := exists_union (n := 4) (by rfl)
        (hone₂.step (l := .compare) trivial hcompare) rfl
      have hpass₃ := (hpass₁.trans (hprobe.passes (by simp) rfl rfl rfl)).trans
        (hcompare.passes (by simp) rfl rfl rfl)
      exact ⟨s', res', hpass₃.trans hpass, hone', hend⟩

/-- The look-ups that are left. -/
theorem exists_lookups {sid : StreamId} {n : Nat} :
    ∀ {i : Nat} {s : Table} {res : Finset AppId}, n + i = (lookupIds sid).length → s.OneMap →
      s.fwd = .pass sid i res .look →
      ∃ s' res', Passes s s' ∧ s'.OneMap ∧ s'.fwd = .deliver sid res' := by
  induction n with
  | zero =>
      intro i s res hi hone hf
      have hs : Step s .finish _ := Step.finish hf (by omega)
      exact ⟨_, res, hs.passes (by simp) rfl rfl rfl, hone.step (l := .finish) trivial hs, rfl⟩
  | succ n ih =>
      intro i s res hi hone hf
      obtain ⟨s₁, res₁, hpass₁, hone₁, hf₁⟩ := exists_lookup hone hf (by omega)
      obtain ⟨s', res', hpass, hone', hend⟩ := ih (by omega) hone₁ hf₁
      exact ⟨s', res', hpass₁.trans hpass, hone', hend⟩

/-- A pass begins after a registration. -/
theorem exists_begun (a : AppId) (sid : StreamId) :
    ∃ tr s, Run Step Table.init tr s ∧ Meets GrowsOutside tr ∧ s.fwd = .pass sid 0 ∅ .look
      ∧ view s sid = some {a} ∧ (∀ x ∈ tr, x.2 ≠ .delivered) ∧ ∀ k, s.pc k = .idle := by
  obtain ⟨tr, s, hrun, hgrow, -, hfwd, hview, hdel, hidle⟩ := exists_registered a sid
  have hs : Step s (.begin sid) _ := Step.begin hfwd
  refine ⟨_, _, hrun.next hs, meets_snoc.mpr ⟨hgrow, trivial⟩, rfl, hview, ?_, hidle⟩
  exact List.forall_mem_append.mpr ⟨hdel, by simp⟩

theorem subscribed_of_view {a : AppId} {sid : StreamId} {s : Table}
    (h : view s sid = some {a}) : Subscribed a sid s := by
  rw [Subscribed, subscribers, h]
  exact Finset.mem_singleton_self a

/-- **A PASS IS REGULAR.**  While a message is looked up, apps register and deregister.
    When the look-ups are over, each app that was found had a matching request at some
    moment of the pass, and each app that had a matching request all the while was
    found. -/
theorem lookup_regular {tr₀ tr : List (Table × Access)} {s₀ s : Table} {sid : StreamId}
    {res : Finset AppId} (h₀ : Run Step Table.init tr₀ s₀)
    (hbegin : s₀.fwd = .pass sid 0 ∅ .look) (h : Run Step s₀ tr s)
    (hone : ∀ x ∈ tr, x.2 ≠ .delivered) (hend : s.fwd = .deliver sid res) (a : AppId) :
    (a ∈ res → Once (fun s => a ∈ lookupResult (view s) sid) tr s)
    ∧ ∀ r, Matches r sid → Along (Subscribed a r) tr s → a ∈ res :=
  have hcol := (collected_of_run h₀ hbegin h hone hend).2
  ⟨hcol.only a, fun _ hr ha => hcol.mem_of_along hr ha⟩

/-- An app registers, then a pass begins: at its end the app was found. -/
theorem lookup_regular_registered : ∃ (s : Table) (res : Finset AppId),
    s.fwd = .deliver (Vector.replicate 16 0) res ∧ 0 ∈ res := by
  let sid : StreamId := Vector.replicate 16 0
  obtain ⟨tr₀, s₀, h₀, hgrow, hbegin, hview, -⟩ := exists_begun 0 sid
  obtain ⟨s, res, ⟨tr, hrun, hal, hdel⟩, -, hend⟩ := exists_lookups (Nat.add_zero _)
    (h₀.along_of_meets Table.oneMap_init (fun h hC hs => h.step hC hs) hgrow).2 hbegin
  refine ⟨s, res, hend, (lookup_regular h₀ hbegin hrun hdel hend 0).2 sid ?_ ?_⟩
  · exact ⟨rfl, fun _ _ => Or.inl rfl⟩
  · refine hal.imp fun x hx => ?_
    refine subscribed_of_view ?_
    rw [view_congr hx.1 fun _ p _ => by rw [hx.2.1]]
    exact hview

/-- **A PASS ALONE IS THE PLAIN LOOK-UP.**  From every state that is reached without
    growth under a look-up, a pass that nobody disturbs comes to its end, and what it then
    delivers to is what the plain look-up loop collects from the table.  No other outcome
    of such a pass exists. -/
theorem pass_alone {tr₀ : List (Table × Access)} {s₀ : Table} {sid : StreamId}
    (h₀ : Run Step Table.init tr₀ s₀) (hgrow : Meets GrowsOutside tr₀)
    (hbegin : s₀.fwd = .pass sid 0 ∅ .look) :
    (∃ s, Passes s₀ s ∧ s.fwd = .deliver sid (lookupResult (view s₀) sid))
    ∧ ∀ s res, Passes s₀ s → s.fwd = .deliver sid res → res = lookupResult (view s₀) sid := by
  have hexact : ∀ s res, Passes s₀ s → s.fwd = .deliver sid res →
      res = lookupResult (view s₀) sid := by
    rintro s res ⟨tr, hrun, hal, hdel⟩ hend
    have hview : Along (fun x => view x = view s₀) tr s :=
      hal.imp fun x hx => view_congr hx.1 fun _ p _ => by rw [hx.2.1]
    ext a
    have hcol := (collected_of_run h₀ hbegin hrun hdel hend).2
    constructor
    · intro ha
      rcases hcol.only a ha with ⟨x, hx, hmem⟩ | hmem
      · rwa [hview.1 x hx] at hmem
      · rwa [hview.2] at hmem
    · intro ha
      obtain ⟨r, hr, hsub⟩ := (mem_lookupResult _ _ a).mp ha
      refine hcol.mem_of_along hr (hview.imp fun x hx => ?_)
      rw [Subscribed, hx]
      exact hsub
  obtain ⟨s, res, hpass, -, hend⟩ := exists_lookups (Nat.add_zero _)
    (h₀.along_of_meets Table.oneMap_init (fun h hC hs => h.step hC hs) hgrow).2 hbegin
  refine ⟨⟨s, hpass, ?_⟩, hexact⟩
  rw [hend, hexact s res hpass hend]

/-- An app registers, and an undisturbed pass delivers to it. -/
theorem pass_alone_registered : ∃ s₀ s, Passes s₀ s ∧ Subscribed 0 (Vector.replicate 16 0) s₀
    ∧ s.fwd = .deliver (Vector.replicate 16 0)
        (lookupResult (view s₀) (Vector.replicate 16 0)) := by
  obtain ⟨tr₀, s₀, h₀, hgrow, hbegin, hview, -⟩ := exists_begun 0 (Vector.replicate 16 0)
  obtain ⟨s, hpass, hend⟩ := (pass_alone h₀ hgrow hbegin).1
  exact ⟨s₀, s, hpass, subscribed_of_view hview, hend⟩

end JrtcReclaim
