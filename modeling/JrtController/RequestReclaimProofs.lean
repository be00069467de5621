import JrtController.ReclaimProofs
import JrtController.ReqTableProofs

/-! # The request table under concurrency

    Apps register and deregister requests while the router thread forwards messages.  The
    apps exclude each other with a spinlock, and the router thread takes no lock at all:
    it looks the table up inside an epoch section, and a deregistration that takes the
    last app of a request frees the entry after `ck_epoch_barrier`.  Here every access to
    shared memory is a step of its own; `JrtcReqTable` has the same calls as single steps.

    The hash table grows by moving to a larger map.  It asks for the old one to be freed
    later, and `ht_free` frees it at once.

    * `Table.inv_run` — what every run keeps: the lock's owner, the entries of the table,
      and what the router thread found;
    * `pointers_live_iff` — no thread is left with a pointer to freed memory, exactly if
      no registration grows the table while a look-up is in its map;
    * `never_stuck` — the barrier under the lock does not stop the system. -/

namespace JrtcReclaim

open JrtcStreamId JrtcRouterLookup JrtcReqTable Reclaims Runs

/-! ## The data -/

/-- A pointer to a `jrtc_router_req_entry_t`. -/
abbrev EntryPtr := Nat

/-- A map of the hash table. -/
abbrev MapPtr := Nat

/-- `jrtc_router_req_entry_t`, with the bitmap it points to. -/
structure Entry where
  streamId : StreamId
  bitmap   : Finset AppId

/-- An epoch record: `router_epoch_record`, or `app_epoch_record[a]`. -/
abbrev Record := Option AppId

/-- The two calls of an app, past the check of its context. -/
inductive Request where
  | register (a : AppId) (sid : StreamId)
  | deregister (a : AppId) (sid : StreamId)

/-- Where a thread of an app is. -/
inductive Pc where
  | idle
  | spin (req : Request)
  /-- it has the lock, before `ck_ht_get_spmc` -/
  | locked (req : Request)
  /-- the request exists: before `ck_bitmap_set` -/
  | setBit (a : AppId) (sid : StreamId) (p : EntryPtr)
  /-- there is no such request: before the allocations -/
  | alloc (a : AppId) (sid : StreamId)
  /-- the entry is filled in: before `ck_ht_set_spmc` -/
  | insert (a : AppId) (sid : StreamId) (p : EntryPtr)
  /-- before `ck_bitmap_reset` -/
  | resetBit (a : AppId) (sid : StreamId) (p : EntryPtr)
  /-- before `ck_bitmap_empty` -/
  | testEmpty (a : AppId) (sid : StreamId) (p : EntryPtr)
  /-- before `ck_epoch_begin` -/
  | enter (a : AppId) (sid : StreamId) (p : EntryPtr)
  /-- before `ck_ht_remove_spmc` -/
  | remove (a : AppId) (sid : StreamId) (p : EntryPtr)
  /-- before `ck_epoch_end` -/
  | leave (a : AppId) (p : EntryPtr)
  /-- before `ck_epoch_call` and `ck_epoch_barrier` -/
  | barrier (p : EntryPtr)
  /-- in `ck_epoch_barrier` -/
  | waiting (p : EntryPtr)
  /-- before `ck_spinlock_unlock`, with the result of a registration -/
  | unlock (res : Option Int)

/-- Between `ck_spinlock_lock` and `ck_spinlock_unlock`. -/
def Pc.critical : Pc → Bool
  | .idle | .spin _ => false
  | _ => true

/-- Where the router thread is in one look-up. -/
inductive Place where
  /-- before `ck_ht_get_spmc` -/
  | look
  /-- it has loaded the map -/
  | get (m : MapPtr)
  /-- it has read a slot, before it compares the key -/
  | probed (m : MapPtr) (p : EntryPtr)
  /-- in `ck_bitmap_union`, before block `w` -/
  | found (p : EntryPtr) (w : Nat)

/-- Where the router thread is in `_jrtc_router_forward_msgs`: at look-up `i` with what
    `lookup_result` holds so far, or past `ck_epoch_end`. -/
inductive Fwd where
  | idle
  | pass (sid : StreamId) (i : Nat) (res : Finset AppId) (at_ : Place)
  | deliver (sid : StreamId) (res : Finset AppId)

/-- The request table and the threads.  `dom` is what `ck_epoch` keeps, with the state of
    each entry. -/
structure Table where
  reqs : StreamId → Option EntryPtr
  mem  : EntryPtr → Option Entry
  map  : MapPtr
  maps : Finset MapPtr
  lock : Option Nat
  dom  : Domain Record EntryPtr
  pc   : Nat → Pc
  fwd  : Fwd

/-- The table as `jrtc_router_init` leaves it. -/
def Table.init : Table where
  reqs := fun _ => none
  mem := fun _ => none
  map := 0
  maps := {0}
  lock := none
  dom := Domain.empty
  pc := fun _ => .idle
  fwd := .idle

/-- A thread moves on. -/
def Table.goto (s : Table) (k : Nat) (pc : Pc) : Table :=
  { s with pc := Function.update s.pc k pc }

/-- A change of the bitmap an entry points to. -/
def Table.setBitmap (s : Table) (p : EntryPtr) (f : Finset AppId → Finset AppId) : Table :=
  let entry := (s.mem p).map fun e => { e with bitmap := f e.bitmap }
  { s with mem := Function.update s.mem p entry }

/-- The bits of a bitmap in one block of `unsigned int`. -/
def block (w : Nat) (bitmap : Finset AppId) : Finset AppId :=
  bitmap.filter fun a => a.val / 32 = w

/-- A bitmap of 128 bits has four blocks. -/
def numBlocks : Nat := 4

/-- What `ck_ht_set_spmc` does: it fails, it places the entry, or it moves to a larger
    map first. -/
inductive Insertion where
  | fails
  | places
  | grows (m : MapPtr)

inductive Access where
  | call (k : Nat) (req : Request)
  | lock (k : Nat)
  | get (k : Nat)
  | setBit (k : Nat)
  | alloc (k : Nat) (p : Option EntryPtr)
  | insert (k : Nat) (ins : Insertion)
  | resetBit (k : Nat)
  | testEmpty (k : Nat)
  | enter (k : Nat)
  | remove (k : Nat)
  | leave (k : Nat)
  | barrier (k : Nat)
  | free (k : Nat)
  | unlock (k : Nat)
  | begin (sid : StreamId)
  | load
  | probe (p : EntryPtr)
  | compare
  | miss
  | union
  | finish
  | delivered

/-- What `ck_ht_get_spmc` of the owner of the lock decides. -/
def found (s : Table) : Request → Pc
  | .register a sid => match s.reqs sid with
      | some p => .setBit a sid p
      | none => .alloc a sid
  | .deregister a sid => match s.reqs sid with
      | some p => .resetBit a sid p
      | none => .unlock none

/-- The map after an entry was placed. -/
def Insertion.map (m : MapPtr) : Insertion → MapPtr
  | .grows m' => m'
  | _ => m

/-- The maps after an entry was placed: `ht_free` has freed the old one if there is a new
    one. -/
def Insertion.maps (m : MapPtr) (ms : Finset MapPtr) : Insertion → Finset MapPtr
  | .grows m' => insert m' (ms.erase m)
  | _ => ms

/-- One access.  After one to freed memory nothing is known, and no step is given for a
    thread that would make it. -/
inductive Step : Table → Access → Table → Prop
  | call {s : Table} {k : Nat} {req : Request} :
      s.pc k = .idle → Step s (.call k req) (s.goto k (.spin req))
  | lock {s : Table} {k : Nat} {req : Request} :
      s.pc k = .spin req → s.lock = none →
      Step s (.lock k) { s.goto k (.locked req) with lock := some k }
  | get {s : Table} {k : Nat} {req : Request} :
      s.pc k = .locked req → Step s (.get k) (s.goto k (found s req))
  | setBit {s : Table} {k : Nat} {a : AppId} {sid : StreamId} {p : EntryPtr} :
      s.pc k = .setBit a sid p →
      Step s (.setBit k) ((s.setBitmap p (insert a)).goto k (.unlock (some 1)))
  | allocFails {s : Table} {k : Nat} {a : AppId} {sid : StreamId} :
      s.pc k = .alloc a sid → Step s (.alloc k none) (s.goto k (.unlock (some (-1))))
  | alloc {s : Table} {k : Nat} {a : AppId} {sid : StreamId} {p : EntryPtr} :
      s.pc k = .alloc a sid → s.mem p = none →
      Step s (.alloc k (some p)) { s.goto k (.insert a sid p) with
        mem := Function.update s.mem p (some ⟨sid, {a}⟩)
        dom := s.dom.alloc p }
  -- the entry stays allocated
  | insertFails {s : Table} {k : Nat} {a : AppId} {sid : StreamId} {p : EntryPtr} :
      s.pc k = .insert a sid p → Step s (.insert k .fails) (s.goto k (.unlock (some (-1))))
  | insert {s : Table} {k : Nat} {a : AppId} {sid : StreamId} {p : EntryPtr}
      {ins : Insertion} :
      s.pc k = .insert a sid p → (∀ m, ins = .grows m → m ∉ s.maps) → ins ≠ .fails →
      Step s (.insert k ins) { s.goto k (.unlock (some 1)) with
        reqs := Function.update s.reqs sid (some p)
        map := ins.map s.map
        maps := ins.maps s.map s.maps
        dom := s.dom.link p }
  | resetBit {s : Table} {k : Nat} {a : AppId} {sid : StreamId} {p : EntryPtr} :
      s.pc k = .resetBit a sid p →
      Step s (.resetBit k) ((s.setBitmap p (·.erase a)).goto k (.testEmpty a sid p))
  | testEmpty {s : Table} {k : Nat} {a : AppId} {sid : StreamId} {p : EntryPtr} {e : Entry} :
      s.pc k = .testEmpty a sid p → s.mem p = some e →
      Step s (.testEmpty k)
        (s.goto k (if e.bitmap = ∅ then .enter a sid p else .unlock none))
  | enter {s : Table} {k : Nat} {a : AppId} {sid : StreamId} {p : EntryPtr} :
      s.pc k = .enter a sid p →
      Step s (.enter k) { s.goto k (.remove a sid p) with dom := s.dom.enter (some a) }
  | remove {s : Table} {k : Nat} {a : AppId} {sid : StreamId} {p : EntryPtr} :
      s.pc k = .remove a sid p →
      Step s (.remove k) { s.goto k (.leave a p) with
        reqs := Function.update s.reqs sid none
        dom := s.dom.unlink p }
  | leave {s : Table} {k : Nat} {a : AppId} {p : EntryPtr} :
      s.pc k = .leave a p →
      Step s (.leave k) { s.goto k (.barrier p) with dom := s.dom.leave (some a) }
  | barrier {s : Table} {k : Nat} {p : EntryPtr} :
      s.pc k = .barrier p →
      Step s (.barrier k) { s.goto k (.waiting p) with dom := s.dom.wait p }
  -- `_stream_id_req_destructor`, once the barrier waits for no section
  | free {s : Table} {k : Nat} {p : EntryPtr} :
      s.pc k = .waiting p → s.dom.status p = .waiting ∅ →
      Step s (.free k) { s.goto k (.unlock none) with
        mem := Function.update s.mem p none
        dom := s.dom.free p }
  | unlock {s : Table} {k : Nat} {res : Option Int} :
      s.pc k = .unlock res → Step s (.unlock k) { s.goto k .idle with lock := none }
  | begin {s : Table} {sid : StreamId} :
      s.fwd = .idle →
      Step s (.begin sid) { s with fwd := .pass sid 0 ∅ .look, dom := s.dom.enter none }
  | load {s : Table} {sid : StreamId} {i : Nat} {res : Finset AppId} :
      s.fwd = .pass sid i res .look → i < (lookupIds sid).length →
      Step s .load { s with fwd := .pass sid i res (.get s.map) }
  -- any entry may stand in the slots the hash leads to
  | probe {s : Table} {sid : StreamId} {i : Nat} {res : Finset AppId} {m : MapPtr}
      {r : StreamId} {p : EntryPtr} :
      s.fwd = .pass sid i res (.get m) → m ∈ s.maps → s.reqs r = some p →
      Step s (.probe p) { s with
        fwd := .pass sid i res (.probed m p), dom := s.dom.find none p }
  | compare {s : Table} {sid : StreamId} {i : Nat} {res : Finset AppId} {m : MapPtr}
      {p : EntryPtr} {e : Entry} :
      s.fwd = .pass sid i res (.probed m p) → m ∈ s.maps → s.mem p = some e →
      Step s .compare { s with
        fwd := .pass sid i res
          (if (lookupIds sid)[i]? = some e.streamId then .found p 0 else .get m) }
  | miss {s : Table} {sid : StreamId} {i : Nat} {res : Finset AppId} {m : MapPtr}
      {r : StreamId} :
      s.fwd = .pass sid i res (.get m) → m ∈ s.maps → (lookupIds sid)[i]? = some r →
      s.reqs r = none →
      Step s .miss { s with fwd := .pass sid (i + 1) res .look }
  | union {s : Table} {sid : StreamId} {i : Nat} {res : Finset AppId} {p : EntryPtr}
      {w : Nat} {e : Entry} :
      s.fwd = .pass sid i res (.found p w) → w < numBlocks → s.mem p = some e →
      Step s .union { s with fwd := .pass sid i (res ∪ block w e.bitmap) (.found p (w + 1)) }
  | next {s : Table} {sid : StreamId} {i : Nat} {res : Finset AppId} {p : EntryPtr}
      {w : Nat} :
      s.fwd = .pass sid i res (.found p w) → numBlocks ≤ w →
      Step s .union { s with fwd := .pass sid (i + 1) res .look }
  | finish {s : Table} {sid : StreamId} {i : Nat} {res : Finset AppId} :
      s.fwd = .pass sid i res .look → (lookupIds sid).length ≤ i →
      Step s .finish { s with fwd := .deliver sid res, dom := s.dom.leave none }
  | delivered {s : Table} {sid : StreamId} {res : Finset AppId} :
      s.fwd = .deliver sid res → Step s .delivered { s with fwd := .idle }

/-! ## What every run keeps -/

/-- The entry was taken out of the table and not freed. -/
def Gone : Status Record → Prop
  | .unlinked => True
  | .waiting _ => True
  | _ => False

/-- The entries of the table are allocated under their own key, and one that was taken
    out of it has no app. -/
structure HeapOk (reqs : StreamId → Option EntryPtr) (mem : EntryPtr → Option Entry)
    (dom : Domain Record EntryPtr) : Prop where
  keyed   : ∀ {r p}, reqs r = some p →
    dom.status p = .linked ∧ ∃ e, mem p = some e ∧ e.streamId = r
  linked  : ∀ {p}, dom.status p = .linked → ∃ r, reqs r = some p
  alloc   : ∀ p, mem p = none ↔ dom.status p = .free
  gone    : ∀ {p e}, Gone (dom.status p) → mem p = some e → e.bitmap = ∅
  covered : dom.Covered

/-- What a thread of an app knows where it is. -/
def PcOk (s : Table) : Pc → Prop
  | .setBit _ sid p | .resetBit _ sid p | .testEmpty _ sid p => s.reqs sid = some p
  | .alloc _ sid => s.reqs sid = none
  | .insert a sid p => s.reqs sid = none ∧ s.dom.status p = .owned
      ∧ s.mem p = some ⟨sid, {a}⟩
  | .enter _ sid p | .remove _ sid p => s.reqs sid = some p
      ∧ ∀ e, s.mem p = some e → e.bitmap = ∅
  | .leave _ p | .barrier p => s.dom.status p = .unlinked
  | .waiting p => ∃ rs, s.dom.status p = .waiting rs
  | .idle | .spin _ | .locked _ | .unlock _ => True

/-- What the router thread knows where it is. -/
def FwdOk (s : Table) : Fwd → Prop
  | .idle | .deliver _ _ => True
  | .pass sid i _ at_ => none ∈ s.dom.active ∧ match at_ with
      | .look => True
      | .get _ => i < (lookupIds sid).length
      | .probed _ p => p ∈ s.dom.held none ∧ i < (lookupIds sid).length
      | .found p _ => p ∈ s.dom.held none
          ∧ ∃ e, s.mem p = some e ∧ (lookupIds sid)[i]? = some e.streamId

structure Table.Inv (s : Table) : Prop where
  excl : ∀ k, (s.pc k).critical = true ↔ s.lock = some k
  ok   : ∀ k, PcOk s (s.pc k)
  heap : HeapOk s.reqs s.mem s.dom
  fwd  : FwdOk s s.fwd

theorem Table.inv_init : Table.init.Inv where
  excl := fun k => ⟨fun h => Bool.noConfusion h, fun h => absurd h.symm (Option.some_ne_none k)⟩
  ok := fun _ => trivial
  heap := {
    keyed := fun h => absurd h.symm (Option.some_ne_none _)
    linked := by simp [Table.init, Domain.empty]
    alloc := fun _ => ⟨fun _ => rfl, fun _ => rfl⟩
    gone := fun h _ => h.elim
    covered := Domain.Covered.empty }
  fwd := trivial

/-! ### The entries -/

namespace HeapOk

variable {reqs : StreamId → Option EntryPtr} {mem : EntryPtr → Option Entry}
  {dom : Domain Record EntryPtr}

theorem mem_of_held (h : HeapOk reqs mem dom) {r : Record} {p : EntryPtr}
    (hp : p ∈ dom.held r) : ∃ e, mem p = some e :=
  Option.ne_none_iff_exists'.mp fun hnone => h.covered.held_ne_free hp ((h.alloc p).mp hnone)

/-- One entry changes: what is to be shown about it, and that the keys of the others
    stay. -/
theorem change (h : HeapOk reqs mem dom) {reqs' : StreamId → Option EntryPtr} {p : EntryPtr}
    {v : Option Entry} {st : Status Record}
    (hothers : ∀ {r q}, q ≠ p → (reqs' r = some q ↔ reqs r = some q))
    (hkeyed : ∀ {r}, reqs' r = some p → st = .linked ∧ ∃ e, v = some e ∧ e.streamId = r)
    (hlinked : st = .linked → ∃ r, reqs' r = some p)
    (halloc : v = none ↔ st = .free)
    (hgone : ∀ {e}, Gone st → v = some e → e.bitmap = ∅)
    (hcov : (dom.setStatus p st).Covered) :
    HeapOk reqs' (Function.update mem p v) (dom.setStatus p st) where
  keyed := by
    intro r q hq
    rw [Domain.status_setStatus]
    by_cases hqp : q = p
    · subst hqp
      rw [Function.update_self, Function.update_self]
      exact hkeyed hq
    · rw [Function.update_of_ne hqp, Function.update_of_ne hqp]
      exact h.keyed ((hothers hqp).mp hq)
  linked := by
    intro q hq
    rw [Domain.status_setStatus] at hq
    by_cases hqp : q = p
    · subst hqp
      rw [Function.update_self] at hq
      exact hlinked hq
    · rw [Function.update_of_ne hqp] at hq
      obtain ⟨r, hr⟩ := h.linked hq
      exact ⟨r, (hothers hqp).mpr hr⟩
  alloc := by
    intro q
    rw [Domain.status_setStatus]
    by_cases hqp : q = p
    · subst hqp
      rwa [Function.update_self, Function.update_self]
    · rw [Function.update_of_ne hqp, Function.update_of_ne hqp]
      exact h.alloc q
  gone := by
    intro q e hg he
    rw [Domain.status_setStatus] at hg
    by_cases hqp : q = p
    · subst hqp
      rw [Function.update_self] at hg he
      exact hgone hg he
    · rw [Function.update_of_ne hqp] at hg he
      exact h.gone hg he
  covered := hcov

theorem not_keyed (h : HeapOk reqs mem dom) {p : EntryPtr} {st : Status Record}
    (hp : dom.status p = st) (hst : st ≠ .linked) (r : StreamId) : reqs r ≠ some p :=
  fun hr => hst (hp.symm.trans (h.keyed hr).1)

/-- Two requests do not share an entry. -/
theorem eq_of_keyed (h : HeapOk reqs mem dom) {r r' : StreamId} {p : EntryPtr}
    (hr : reqs r = some p) (hr' : reqs r' = some p) : r = r' := by
  obtain ⟨-, e, he, hkey⟩ := h.keyed hr
  obtain ⟨-, e', he', hkey'⟩ := h.keyed hr'
  obtain rfl := Option.some.inj (he.symm.trans he')
  exact hkey.symm.trans hkey'

theorem setBitmap (h : HeapOk reqs mem dom) {p : EntryPtr} (hp : dom.status p = .linked)
    (f : Finset AppId → Finset AppId) :
    HeapOk reqs (Function.update mem p
      ((mem p).map fun e => { e with bitmap := f e.bitmap })) dom := by
  have hdom : dom = dom.setStatus p .linked := by
    rw [Domain.setStatus, ← hp, Function.update_eq_self]
  rw [hdom]
  obtain ⟨sid, hsid⟩ := h.linked hp
  obtain ⟨-, e, he, hkey⟩ := h.keyed hsid
  rw [he]
  refine h.change (fun _ => Iff.rfl) (fun hr => ⟨rfl, _, rfl, ?_⟩) (fun _ => ⟨sid, hsid⟩)
    (by simp)
    (fun hg => hg.elim) (h.covered.link p)
  exact hkey.trans (h.eq_of_keyed hsid hr)

/-- Sections begin and readers find entries without a change to any of them. -/
theorem of_status (h : HeapOk reqs mem dom) {dom' : Domain Record EntryPtr}
    (hst : dom'.status = dom.status) (hcov : dom'.Covered) : HeapOk reqs mem dom' where
  keyed := fun hr => by
    rw [hst]
    exact h.keyed hr
  linked := fun hp => h.linked (hst ▸ hp)
  alloc := fun p => by
    rw [hst]
    exact h.alloc p
  gone := fun hg he => h.gone (hst ▸ hg) he
  covered := hcov

theorem leave (h : HeapOk reqs mem dom) (r : Record) : HeapOk reqs mem (dom.leave r) where
  keyed := by
    intro r' p hp
    obtain ⟨hst, he⟩ := h.keyed hp
    exact ⟨by rw [Domain.status_leave, hst]; rfl, he⟩
  linked := by
    intro p hp
    rw [Domain.status_leave] at hp
    cases hst : dom.status p with
    | linked => exact h.linked hst
    | free => rw [hst] at hp; cases hp
    | owned => rw [hst] at hp; cases hp
    | unlinked => rw [hst] at hp; cases hp
    | waiting rs => rw [hst] at hp; cases hp
  alloc := by
    intro p
    rw [h.alloc p, Domain.status_leave]
    cases dom.status p <;> simp [Status.left]
  gone := by
    intro p e hg he
    refine h.gone ?_ he
    rw [Domain.status_leave] at hg
    cases hst : dom.status p with
    | unlinked => trivial
    | waiting rs => trivial
    | free => rwa [hst] at hg
    | owned => rwa [hst] at hg
    | linked => rwa [hst] at hg
  covered := h.covered.leave r

theorem allocate (h : HeapOk reqs mem dom) {p : EntryPtr} (hp : mem p = none) (e : Entry) :
    HeapOk reqs (Function.update mem p (some e)) (dom.alloc p) := by
  have hfree := (h.alloc p).mp hp
  refine h.change (fun _ => Iff.rfl) (fun hr => ?_) (by simp)
    (by simp)
    (fun hg => hg.elim) (h.covered.alloc hfree)
  exact absurd hr (h.not_keyed hfree (by simp) _)

theorem insert (h : HeapOk reqs mem dom) {sid : StreamId} {p : EntryPtr} {e : Entry}
    (hsid : reqs sid = none) (hp : dom.status p = .owned) (he : mem p = some e)
    (hkey : e.streamId = sid) :
    HeapOk (Function.update reqs sid (some p)) mem (dom.link p) := by
  rw [← Function.update_eq_self p mem, he]
  refine h.change (fun {r q} hqp => ?_) (fun {r} hr => ⟨rfl, e, rfl, ?_⟩)
    (fun _ => ⟨sid, Function.update_self sid (some p) reqs⟩)
    (by simp)
    (fun hg => hg.elim) (h.covered.link p)
  · by_cases hr : r = sid
    · rw [hr, Function.update_self, hsid]
      simp [Ne.symm hqp]
    · rw [Function.update_of_ne hr]
  · by_cases hrs : r = sid
    · exact hkey.trans hrs.symm
    · rw [Function.update_of_ne hrs] at hr
      exact absurd hr (h.not_keyed hp (by simp) r)

theorem remove (h : HeapOk reqs mem dom) {sid : StreamId} {p : EntryPtr}
    (hsid : reqs sid = some p) (hempty : ∀ e, mem p = some e → e.bitmap = ∅) :
    HeapOk (Function.update reqs sid none) mem (dom.unlink p) := by
  obtain ⟨hst, e, he, -⟩ := h.keyed hsid
  have hgone : ∀ r, Function.update reqs sid none r ≠ some p := by
    intro r hr
    by_cases hrs : r = sid
    · rw [hrs, Function.update_self] at hr
      cases hr
    · rw [Function.update_of_ne hrs] at hr
      exact hrs (h.eq_of_keyed hr hsid)
  rw [← Function.update_eq_self p mem, he]
  refine h.change (fun {r q} hqp => ?_) (fun hr => absurd hr (hgone _)) (by simp)
    (by simp)
    (fun _ he' => hempty _ (he.trans he')) (h.covered.unlink p)
  by_cases hr : r = sid
  · rw [hr, Function.update_self, hsid]
    simp [Ne.symm hqp]
  · rw [Function.update_of_ne hr]

theorem barrier (h : HeapOk reqs mem dom) {p : EntryPtr} (hp : dom.status p = .unlinked) :
    HeapOk reqs mem (dom.wait p) := by
  rw [← Function.update_eq_self p mem]
  refine h.change (fun _ => Iff.rfl) (fun hr => ?_) (by simp) ?_
    (fun _ he => h.gone (by rw [hp]; trivial) he) (h.covered.wait p)
  · exact absurd hr (h.not_keyed hp (by simp) _)
  · rw [h.alloc p, hp]
    simp

theorem release (h : HeapOk reqs mem dom) {p : EntryPtr} (hp : dom.status p = .waiting ∅) :
    HeapOk reqs (Function.update mem p none) (dom.free p) := by
  refine h.change (fun _ => Iff.rfl) (fun hr => ?_) (by simp)
    ⟨fun _ => rfl, fun _ => rfl⟩ (fun hg => hg.elim) (h.covered.free hp)
  exact absurd hr (h.not_keyed hp (by simp) _)

end HeapOk

/-! ### One step -/

theorem Table.Inv.not_critical {s : Table} (h : s.Inv) {k j : Nat}
    (hk : (s.pc k).critical = true) (hj : j ≠ k) : (s.pc j).critical ≠ true := by
  intro hcrit
  exact hj (Option.some.inj (((h.excl j).mp hcrit).symm.trans ((h.excl k).mp hk)))

/-- The owner of the lock moves on and keeps the lock: the others know nothing of what it
    changed. -/
theorem Table.Inv.owner {s s' : Table} (h : s.Inv) {k : Nat} {pc : Pc}
    (hk : (s.pc k).critical = true) (hpc : pc.critical = true)
    (heq : s'.pc = Function.update s.pc k pc) (hlock : s'.lock = s.lock) (hok : PcOk s' pc) :
    (∀ j, (s'.pc j).critical = true ↔ s'.lock = some j) ∧ ∀ j, PcOk s' (s'.pc j) := by
  have howner : s.lock = some k := (h.excl k).mp hk
  have hothers : ∀ j, j ≠ k → (s.pc j).critical ≠ true := fun j hj => h.not_critical hk hj
  rw [heq, hlock, howner]
  refine ⟨fun j => ?_, fun j => ?_⟩
  · by_cases hj : j = k
    · subst hj
      simp [hpc]
    · rw [Function.update_of_ne hj]
      exact ⟨fun hcrit => absurd hcrit (hothers j hj),
        fun heq => absurd (Option.some.inj heq).symm hj⟩
  · by_cases hj : j = k
    · subst hj
      rwa [Function.update_self]
    · rw [Function.update_of_ne hj]
      have hcrit := hothers j hj
      cases hpcj : s.pc j with
      | idle => trivial
      | spin req => trivial
      | _ => exact absurd (by rw [hpcj]; rfl) hcrit

theorem key_setBitmap (s : Table) (p : EntryPtr) (f : Finset AppId → Finset AppId)
    {q : EntryPtr} {e : Entry} (he : s.mem q = some e) :
    ∃ e', (s.setBitmap p f).mem q = some e' ∧ e'.streamId = e.streamId := by
  by_cases hqp : q = p
  · subst hqp
    exact ⟨{ e with bitmap := f e.bitmap }, by simp [Table.setBitmap, he], rfl⟩
  · exact ⟨e, by simp [Table.setBitmap, Function.update_of_ne hqp, he], rfl⟩

/-- What the router thread has found stays allocated, under its key. -/
def KeysKept (s s' : Table) : Prop :=
  ∀ q ∈ s.dom.held none, ∀ e, s.mem q = some e →
    ∃ e', s'.mem q = some e' ∧ e'.streamId = e.streamId

theorem Table.Inv.key_step {s s' : Table} {l : Access} (h : s.Inv) (hs : Step s l s') :
    KeysKept s s' := by
  intro q hq e he
  cases hs with
  | @setBit k a sid p hk => exact key_setBitmap s p (insert a) he
  | @resetBit k a sid p hk => exact key_setBitmap s p (·.erase a) he
  | @alloc k a sid p hk hp =>
      have hqp : q ≠ p := by
        rintro rfl
        exact Option.some_ne_none e (he.symm.trans hp)
      exact ⟨e, (Function.update_of_ne hqp _ _).trans he, rfl⟩
  | @free k p hk hst =>
      -- the barrier waited for the router thread, so this is not what it has found
      have hqp : q ≠ p := by
        rintro rfl
        have hcov := (h.heap.covered none q hq).2
        rw [hst] at hcov
        exact Finset.notMem_empty _ hcov
      exact ⟨e, (Function.update_of_ne hqp _ _).trans he, rfl⟩
  | _ => exact ⟨e, he, rfl⟩

theorem FwdOk.frame {s s' : Table} {f : Fwd} (h : FwdOk s f)
    (hkey : KeysKept s s')
    (hact : none ∈ s.dom.active → none ∈ s'.dom.active)
    (hheld : s'.dom.held none = s.dom.held none) : FwdOk s' f := by
  cases f with
  | idle => trivial
  | deliver sid res => trivial
  | pass sid i res place =>
      obtain ⟨hin, hat⟩ := h
      refine ⟨hact hin, ?_⟩
      cases place with
      | look => trivial
      | get m => exact hat
      | probed m p =>
          refine ⟨?_, hat.2⟩
          rw [hheld]
          exact hat.1
      | found p w =>
          obtain ⟨hp, e, he, hid⟩ := hat
          obtain ⟨e', he', hkey'⟩ := hkey p hp e he
          refine ⟨by rw [hheld]; exact hp, e', he', ?_⟩
          rw [hid, hkey']

theorem pcOk_found (s : Table) (req : Request) : PcOk s (found s req) := by
  cases req with
  | register a sid =>
      cases hr : s.reqs sid with
      | none => simp [found, hr, PcOk]
      | some p => simp [found, hr, PcOk]
  | deregister a sid =>
      cases hr : s.reqs sid with
      | none => simp [found, hr, PcOk]
      | some p => simp [found, hr, PcOk]

theorem critical_found (s : Table) (req : Request) : (found s req).critical = true := by
  cases req with
  | register a sid => cases hr : s.reqs sid <;> simp [found, hr, Pc.critical]
  | deregister a sid => cases hr : s.reqs sid <;> simp [found, hr, Pc.critical]

/-- A thread without the lock moves on, or takes or gives back the lock. -/
theorem Table.Inv.outside {s : Table} (h : s.Inv) {k : Nat} {pc : Pc} {lock : Option Nat}
    (hpc : PcOk s pc) (hk : pc.critical = true ↔ lock = some k)
    (hothers : ∀ j, j ≠ k → (s.lock = some j ↔ lock = some j)) :
    { s.goto k pc with lock := lock }.Inv where
  excl := by
    intro j
    show (Function.update s.pc k pc j).critical = true ↔ lock = some j
    by_cases hj : j = k
    · subst hj
      rwa [Function.update_self]
    · rw [Function.update_of_ne hj, h.excl j]
      exact hothers j hj
  ok := by
    intro j
    show PcOk s (Function.update s.pc k pc j)
    by_cases hj : j = k
    · subst hj
      rwa [Function.update_self]
    · rw [Function.update_of_ne hj]
      exact h.ok j
  heap := h.heap
  fwd := h.fwd

/-- A step of the owner of the lock. -/
theorem Table.Inv.inside {s s' : Table} (h : s.Inv) {k : Nat} {old pc : Pc}
    (hk : s.pc k = old) (hold : old.critical = true) (hpc : pc.critical = true)
    (heq : s'.pc = Function.update s.pc k pc) (hlock : s'.lock = s.lock) (hok : PcOk s' pc)
    (hheap : HeapOk s'.reqs s'.mem s'.dom) (hfwd : FwdOk s' s'.fwd) : s'.Inv :=
  have ho := h.owner (hk ▸ hold) hpc heq hlock hok
  ⟨ho.1, ho.2, hheap, hfwd⟩

/-- A step of the router thread. -/
theorem Table.Inv.reader {s : Table} (h : s.Inv) {fwd : Fwd} {dom : Domain Record EntryPtr}
    (hst : dom.status = s.dom.status) (hcov : dom.Covered)
    (hfwd : FwdOk { s with fwd := fwd, dom := dom } fwd) :
    { s with fwd := fwd, dom := dom }.Inv where
  excl := h.excl
  ok := by
    intro k
    have hk := h.ok k
    unfold PcOk at hk ⊢
    simp only [hst]
    exact hk
  heap := h.heap.of_status hst hcov
  fwd := hfwd

/-- The end of the section of the router thread. -/
theorem Table.Inv.finish {s : Table} (h : s.Inv) (sid : StreamId) (res : Finset AppId) :
    { s with fwd := .deliver sid res, dom := s.dom.leave none }.Inv where
  excl := h.excl
  ok := by
    intro k
    have hk := h.ok k
    show PcOk { s with fwd := .deliver sid res, dom := s.dom.leave none } (s.pc k)
    cases hpc : s.pc k with
    | insert a sid' p =>
        rw [hpc] at hk
        obtain ⟨hsid, hst, he⟩ := hk
        exact ⟨hsid, by rw [Domain.status_leave, hst]; rfl, he⟩
    | leave a p =>
        rw [hpc] at hk
        show (s.dom.status p).left none = .unlinked
        rw [show s.dom.status p = .unlinked from hk]
        rfl
    | barrier p =>
        rw [hpc] at hk
        show (s.dom.status p).left none = .unlinked
        rw [show s.dom.status p = .unlinked from hk]
        rfl
    | waiting p =>
        rw [hpc] at hk
        obtain ⟨rs, hst⟩ := hk
        exact ⟨rs.erase none, by rw [Domain.status_leave, hst]; rfl⟩
    | _ =>
        rw [hpc] at hk
        exact hk
  heap := h.heap.leave none
  fwd := trivial

theorem Table.Inv.step {s s' : Table} {l : Access} (h : s.Inv) (hs : Step s l s') :
    s'.Inv := by
  have hkey := h.key_step hs
  cases hs with
  | @call k req hk =>
      have hfree : ¬ s.lock = some k := by
        rw [← h.excl k, hk]
        exact Bool.noConfusion
      exact h.outside trivial ⟨fun hc => Bool.noConfusion hc, fun hl => absurd hl hfree⟩
        fun _ _ => Iff.rfl
  | @lock k req hk hlock =>
      refine h.outside trivial (by simp [Pc.critical]) fun j hj => ?_
      rw [hlock]
      simp [Ne.symm hj]
  | @get k req hk =>
      exact h.inside hk rfl (critical_found s req) rfl rfl (pcOk_found s req) h.heap h.fwd
  | @setBit k a sid p hk =>
      have hp : PcOk s (.setBit a sid p) := hk ▸ h.ok k
      exact h.inside hk rfl rfl rfl rfl trivial
        (h.heap.setBitmap (h.heap.keyed hp).1 _) (h.fwd.frame hkey id rfl)
  | @allocFails k a sid hk =>
      exact h.inside hk rfl rfl rfl rfl trivial h.heap h.fwd
  | @alloc k a sid p hk hp =>
      have hsid : PcOk s (.alloc a sid) := hk ▸ h.ok k
      exact h.inside hk rfl rfl rfl rfl ⟨hsid, by simp, Function.update_self _ _ _⟩
        (h.heap.allocate hp _) (h.fwd.frame hkey id rfl)
  | @insertFails k a sid p hk =>
      exact h.inside hk rfl rfl rfl rfl trivial h.heap h.fwd
  | @insert k a sid p ins hk hnew hne =>
      have hok : PcOk s (.insert a sid p) := hk ▸ h.ok k
      obtain ⟨hsid, hp, he⟩ := hok
      exact h.inside hk rfl rfl rfl rfl trivial (h.heap.insert hsid hp he rfl)
        (h.fwd.frame hkey id rfl)
  | @resetBit k a sid p hk =>
      have hp : PcOk s (.resetBit a sid p) := hk ▸ h.ok k
      exact h.inside hk rfl rfl rfl rfl hp
        (h.heap.setBitmap (h.heap.keyed hp).1 (·.erase a)) (h.fwd.frame hkey id rfl)
  | @testEmpty k a sid p e hk he =>
      have hp : PcOk s (.testEmpty a sid p) := hk ▸ h.ok k
      by_cases hempty : e.bitmap = ∅
      · rw [if_pos hempty]
        refine h.inside hk rfl rfl rfl rfl ⟨hp, fun e' he' => ?_⟩ h.heap h.fwd
        exact Option.some.inj (he.symm.trans he') ▸ hempty
      · rw [if_neg hempty]
        exact h.inside hk rfl rfl rfl rfl trivial h.heap h.fwd
  | @enter k a sid p hk =>
      have hp : PcOk s (.enter a sid p) := hk ▸ h.ok k
      exact h.inside hk rfl rfl rfl rfl hp
        (h.heap.of_status rfl (h.heap.covered.enter (some a)))
        (h.fwd.frame hkey Finset.mem_insert_of_mem rfl)
  | @remove k a sid p hk =>
      have hok : PcOk s (.remove a sid p) := hk ▸ h.ok k
      obtain ⟨hp, hempty⟩ := hok
      exact h.inside hk rfl rfl rfl rfl (Function.update_self _ _ _) (h.heap.remove hp hempty)
        (h.fwd.frame hkey id rfl)
  | @leave k a p hk =>
      have hp : PcOk s (.leave a p) := hk ▸ h.ok k
      have hst : (s.dom.leave (some a)).status p = .unlinked := by
        rw [Domain.status_leave, show s.dom.status p = .unlinked from hp]
        rfl
      refine h.inside hk rfl rfl rfl rfl hst (h.heap.leave (some a))
        (h.fwd.frame hkey (fun hin => ?_) ?_)
      · exact Finset.mem_erase.mpr ⟨(Option.some_ne_none a).symm, hin⟩
      · show Function.update s.dom.held (some a) ∅ none = s.dom.held none
        exact Function.update_of_ne (Option.some_ne_none a).symm _ _
  | @barrier k p hk =>
      have hp : PcOk s (.barrier p) := hk ▸ h.ok k
      exact h.inside hk rfl rfl rfl rfl ⟨_, Function.update_self _ _ _⟩ (h.heap.barrier hp)
        (h.fwd.frame hkey id rfl)
  | @free k p hk hst =>
      exact h.inside hk rfl rfl rfl rfl trivial (h.heap.release hst)
        (h.fwd.frame hkey id rfl)
  | @unlock k res hk =>
      have howner : s.lock = some k := by
        rw [← h.excl k, hk]
        rfl
      refine h.outside trivial (by simp [Pc.critical]) fun j hj => ?_
      rw [howner]
      simp [Ne.symm hj]
  | @begin sid hf =>
      exact h.reader rfl (h.heap.covered.enter none) ⟨Finset.mem_insert_self _ _, trivial⟩
  | @load sid i res hf hi =>
      have hok : FwdOk s (.pass sid i res .look) := hf ▸ h.fwd
      exact h.reader rfl h.heap.covered ⟨hok.1, hi⟩
  | @probe sid i res m r p hf hm hp =>
      have hok : FwdOk s (.pass sid i res (.get m)) := hf ▸ h.fwd
      refine h.reader rfl (h.heap.covered.find hok.1 (h.heap.keyed hp).1) ⟨hok.1, ?_, hok.2⟩
      show p ∈ (s.dom.find none p).held none
      rw [Domain.held_find, Function.update_self]
      exact Finset.mem_insert_self p _
  | @compare sid i res m p e hf hm he =>
      have hok : FwdOk s (.pass sid i res (.probed m p)) := hf ▸ h.fwd
      by_cases hkey : (lookupIds sid)[i]? = some e.streamId
      · rw [if_pos hkey]
        exact h.reader rfl h.heap.covered ⟨hok.1, hok.2.1, e, he, hkey⟩
      · rw [if_neg hkey]
        exact h.reader rfl h.heap.covered ⟨hok.1, hok.2.2⟩
  | @miss sid i res m r hf hm hr hnone =>
      have hok : FwdOk s (.pass sid i res (.get m)) := hf ▸ h.fwd
      exact h.reader rfl h.heap.covered ⟨hok.1, trivial⟩
  | @union sid i res p w e hf hw he =>
      have hok : FwdOk s (.pass sid i res (.found p w)) := hf ▸ h.fwd
      exact h.reader rfl h.heap.covered hok
  | @next sid i res p w hf hw =>
      have hok : FwdOk s (.pass sid i res (.found p w)) := hf ▸ h.fwd
      exact h.reader rfl h.heap.covered ⟨hok.1, trivial⟩
  | @finish sid i res hf hi => exact h.finish sid res
  | @delivered sid res hf =>
      exact h.reader rfl h.heap.covered trivial

/-- **WHAT EVERY RUN KEEPS.**  One thread at most is in the locked part, the entries of
    the table are allocated under their keys, and so is what the router thread has found. -/
theorem Table.inv_run {tr : List (Table × Access)} {s : Table} (h : Run Step Table.init tr s) : s.Inv :=
  h.invariant Table.inv_init fun hinv hstep => hinv.step hstep

/-! ## Pointers in hand -/

/-- The entry a thread of an app goes on with. -/
def Pc.inHand : Pc → Option EntryPtr
  | .setBit _ _ p | .insert _ _ p | .resetBit _ _ p | .testEmpty _ _ p | .enter _ _ p
  | .remove _ _ p | .leave _ p | .barrier p | .waiting p => some p
  | .idle | .spin _ | .locked _ | .alloc _ _ | .unlock _ => none

/-- The entry the router thread goes on with. -/
def Fwd.inHand : Fwd → Option EntryPtr
  | .pass _ _ _ (.probed _ p) | .pass _ _ _ (.found p _) => some p
  | _ => none

/-- The map the router thread goes on with. -/
def Fwd.map? : Fwd → Option MapPtr
  | .pass _ _ _ (.get m) | .pass _ _ _ (.probed m _) => some m
  | _ => none

/-- Every pointer a thread goes on with is to allocated memory. -/
structure Table.Live (s : Table) : Prop where
  map     : ∀ m, s.fwd.map? = some m → m ∈ s.maps
  forward : ∀ p, s.fwd.inHand = some p → s.mem p ≠ none
  apps    : ∀ k p, (s.pc k).inHand = some p → s.mem p ≠ none

/-- The table does not grow while a look-up is in its map. -/
def GrowsOutside (s : Table) : Access → Prop
  | .insert _ (.grows _) => s.fwd.map? = none
  | _ => True

/-- The only map is the one in use, also by the look-up. -/
structure Table.OneMap (s : Table) : Prop where
  inv  : s.Inv
  only : s.maps = {s.map}
  map  : ∀ m, s.fwd.map? = some m → m = s.map

theorem PcOk.mem_ne_none {s : Table} (hheap : HeapOk s.reqs s.mem s.dom) {pc : Pc}
    (h : PcOk s pc) {p : EntryPtr} (hp : pc.inHand = some p) : s.mem p ≠ none := by
  have hkeyed : ∀ {sid q}, s.reqs sid = some q → s.mem q ≠ none := by
    intro sid q hq
    obtain ⟨-, e, he, -⟩ := hheap.keyed hq
    exact he ▸ Option.some_ne_none e
  have hst : ∀ {q st}, s.dom.status q = st → st ≠ .free → s.mem q ≠ none := by
    intro q st hq hne hnone
    exact hne (hq.symm.trans ((hheap.alloc q).mp hnone))
  cases pc with
  | setBit a sid q => exact Option.some.inj hp ▸ hkeyed h
  | insert a sid q => exact Option.some.inj hp ▸ hst h.2.1 (by simp)
  | resetBit a sid q => exact Option.some.inj hp ▸ hkeyed h
  | testEmpty a sid q => exact Option.some.inj hp ▸ hkeyed h
  | enter a sid q => exact Option.some.inj hp ▸ hkeyed h.1
  | remove a sid q => exact Option.some.inj hp ▸ hkeyed h.1
  | leave a q => exact Option.some.inj hp ▸ hst h (by simp)
  | barrier q => exact Option.some.inj hp ▸ hst h (by simp)
  | waiting q =>
      obtain ⟨rs, hq⟩ := h
      exact Option.some.inj hp ▸ hst hq (by simp)
  | _ => cases hp

theorem Table.Inv.held_of_entry {s : Table} (h : s.Inv) {p : EntryPtr}
    (hp : s.fwd.inHand = some p) : p ∈ s.dom.held none := by
  have hfwd := h.fwd
  cases hf : s.fwd with
  | idle => rw [hf] at hp; cases hp
  | deliver sid res => rw [hf] at hp; cases hp
  | pass sid i res place =>
      rw [hf] at hp hfwd
      cases place with
      | look => cases hp
      | get m => cases hp
      | probed m q => exact Option.some.inj hp ▸ hfwd.2.1
      | found q w => exact Option.some.inj hp ▸ hfwd.2.1

theorem Table.OneMap.live {s : Table} (h : s.OneMap) : s.Live where
  map := by
    intro m hm
    rw [h.only, h.map m hm]
    exact Finset.mem_singleton_self _
  forward := by
    intro p hp
    obtain ⟨e, he⟩ := h.inv.heap.mem_of_held (h.inv.held_of_entry hp)
    exact he ▸ Option.some_ne_none e
  apps := fun k p hp => (h.inv.ok k).mem_ne_none h.inv.heap hp

theorem Table.OneMap.step {s s' : Table} {l : Access} (h : s.OneMap)
    (hgrow : GrowsOutside s l) (hs : Step s l s') : s'.OneMap := by
  refine ⟨h.inv.step hs, ?_, ?_⟩
  · have honly := h.only
    cases hs with
    | @insert k a sid p ins hk hnew hne =>
        cases ins with
        | grows m =>
            show insert m (s.maps.erase s.map) = {m}
            rw [honly, Finset.erase_singleton]
            rfl
        | fails => exact honly
        | places => exact honly
    | _ => exact honly
  · have hmap := h.map
    cases hs with
    | @insert k a sid p ins hk hnew hne =>
        cases ins with
        | grows m =>
            intro m' hm'
            exact absurd (hm'.symm.trans hgrow) (Option.some_ne_none m')
        | fails => exact hmap
        | places => exact hmap
    | @load sid i res hf hi => exact fun m hm => (Option.some.inj hm).symm
    | @probe sid i res m r p hf hm hp =>
        rw [hf] at hmap
        exact hmap
    | @compare sid i res m p e hf hm he =>
        rw [hf] at hmap
        intro m' hm'
        refine hmap m' ?_
        by_cases hkey : (lookupIds sid)[i]? = some e.streamId
        · rw [if_pos hkey] at hm'
          cases hm'
        · rwa [if_neg hkey] at hm'
    | begin | miss | union | next | finish | delivered =>
        exact fun m hm => absurd hm.symm (Option.some_ne_none m)
    | _ => exact hmap

/-- A table that grows in the middle of a look-up leaves the look-up in a freed map. -/
theorem Table.OneMap.not_live {s s' : Table} {l : Access} (h : s.OneMap)
    (hgrow : ¬ GrowsOutside s l) (hs : Step s l s') : ¬ s'.Live := by
  intro hlive
  cases hs with
  | @insert k a sid p ins hk hnew hne =>
      cases ins with
      | grows m =>
          obtain ⟨m', hm'⟩ := Option.ne_none_iff_exists'.mp hgrow
          have hin : m' ∈ insert m (s.maps.erase s.map) := hlive.map m' hm'
          rw [h.only, Finset.erase_singleton] at hin
          obtain rfl : m' = m := by simpa using hin
          apply hnew m' rfl
          rw [h.only, ← h.map m' hm']
          exact Finset.mem_singleton_self m'
      | fails => exact hgrow trivial
      | places => exact hgrow trivial
  | _ => exact hgrow trivial

theorem Table.oneMap_init : Table.init.OneMap :=
  ⟨Table.inv_init, rfl, fun m hm => absurd hm.symm (Option.some_ne_none m)⟩

/-- **NOTHING IS USED AFTER IT WAS FREED, IF THE TABLE DOES NOT GROW UNDER A LOOK-UP.**
    On every interleaving of the apps' calls with the router thread, the pointers all
    threads have in hand are to allocated memory all along exactly if no registration
    grows the table while a look-up is in its map.  The epoch protects the entries; it
    does not protect the map. -/
theorem pointers_live_iff {tr : List (Table × Access)} {s : Table}
    (h : Run Step Table.init tr s) : Along Table.Live tr s ↔ Meets GrowsOutside tr :=
  h.along_iff_meets Table.oneMap_init (fun _ hQ => hQ.live) (fun hQ hC hs => hQ.step hC hs)
    (fun hQ hC hs => hQ.not_live hC hs)

/-- A call of an app for a new request, alone up to the insertion. -/
theorem exists_insert {s : Table} {k : Nat} (a : AppId) (sid : StreamId) (p : EntryPtr)
    (hlock : s.lock = none) (hk : s.pc k = .idle) (hr : s.reqs sid = none)
    (hp : s.mem p = none) :
    ∃ tr s', Run Step s tr s' ∧ Meets GrowsOutside tr ∧ s'.pc k = .insert a sid p
      ∧ s'.reqs = s.reqs ∧ s'.mem p = some ⟨sid, {a}⟩ ∧ s'.maps = s.maps ∧ s'.fwd = s.fwd
      ∧ (∀ x ∈ tr, x.2 ≠ .delivered) ∧ ∀ j, j ≠ k → s'.pc j = s.pc j := by
  let req : Request := .register a sid
  let s₁ : Table := s.goto k (.spin req)
  let s₂ : Table := { s₁.goto k (.locked req) with lock := some k }
  let s₃ : Table := s₂.goto k (.alloc a sid)
  let s₄ : Table := { s₃.goto k (.insert a sid p) with
    mem := Function.update s.mem p (some ⟨sid, {a}⟩), dom := s.dom.alloc p }
  have h₁ : Step s (.call k req) s₁ := Step.call hk
  have h₂ : Step s₁ (.lock k) s₂ := Step.lock (Function.update_self _ _ _) hlock
  have h₃ : Step s₂ (.get k) s₃ := by
    have hfound : found s₂ req = .alloc a sid := by simp [found, req, s₂, s₁, Table.goto, hr]
    rw [show s₃ = s₂.goto k (found s₂ req) by rw [hfound]]
    exact Step.get (Function.update_self _ _ _)
  have h₄ : Step s₃ (.alloc k (some p)) s₄ := Step.alloc (Function.update_self _ _ _) hp
  refine ⟨_, s₄, (((Run.start.next h₁).next h₂).next h₃).next h₄, ?_,
    Function.update_self _ _ _, rfl, Function.update_self _ _ _, rfl, rfl, by simp, ?_⟩
  · simp [Meets, GrowsOutside]
  · intro j hj
    simp [s₄, s₃, s₂, s₁, Table.goto, hj]

/-- The first registration grows the table while the router thread is in its first
    look-up, with the map in hand that `ht_free` frees. -/
theorem lookup_left_in_freed_map :
    ∃ tr s, Run Step Table.init tr s ∧ ¬ Along Table.Live tr s := by
  let sid : StreamId := Vector.replicate 16 0
  let s₁ : Table := { Table.init with
    fwd := .pass sid 0 ∅ .look, dom := Table.init.dom.enter none }
  let s₂ : Table := { s₁ with fwd := .pass sid 0 ∅ (.get 0) }
  have hlen : 0 < (lookupIds sid).length := by simp [lookupIds, lookupMask]
  have h₁ : Step Table.init (.begin sid) s₁ := Step.begin rfl
  have h₂ : Step s₁ .load s₂ := Step.load rfl hlen
  obtain ⟨tr, s, hrun, -, hpc, -, -, hmaps, hfwd, -⟩ :=
    exists_insert (s := s₂) (k := 0) 0 sid 0 rfl rfl rfl rfl
  have hnew : ∀ m, Insertion.grows 1 = .grows m → m ∉ s.maps := by
    intro m hm
    rw [hmaps, ← Insertion.grows.inj hm]
    simp [s₂, s₁, Table.init]
  have hgrow := (((Run.start.next h₁).next h₂).trans hrun).next
    (Step.insert hpc hnew (by simp))
  refine ⟨_, _, hgrow, fun hlive => ?_⟩
  have hout := (meets_snoc.mp ((pointers_live_iff hgrow).mp hlive)).2
  rw [GrowsOutside, hfwd] at hout
  exact Option.some_ne_none 0 hout

/-! ## Nobody waits for ever -/

/-- The record whose section a thread of an app is in. -/
def Pc.section? : Pc → Option AppId
  | .remove a _ _ | .leave a _ => some a
  | _ => none

/-- A section that is open is some thread's, and a barrier waits for open sections. -/
structure Table.Sections (s : Table) : Prop where
  waits  : ∀ {p rs}, s.dom.status p = .waiting rs → rs ⊆ s.dom.active
  app    : ∀ {a}, some a ∈ s.dom.active → ∃ k, (s.pc k).section? = some a
  router : none ∈ s.dom.active → ∃ sid i res place, s.fwd = .pass sid i res place

theorem Table.sections_init : Table.init.Sections where
  waits := by simp [Table.init, Domain.empty]
  app := fun h => absurd h (Finset.notMem_empty _)
  router := fun h => absurd h (Finset.notMem_empty _)

theorem Pc.critical_of_section {pc : Pc} {a : AppId} (h : pc.section? = some a) :
    pc.critical = true := by
  cases pc with
  | remove b sid p => rfl
  | leave b p => rfl
  | _ => cases h

/-- Who is in a section has the lock. -/
theorem Table.Sections.owner {s : Table} (h : s.Sections) (hinv : s.Inv) {k : Nat} {a : AppId}
    (hk : (s.pc k).critical = true) (ha : some a ∈ s.dom.active) :
    (s.pc k).section? = some a := by
  obtain ⟨j, hj⟩ := h.app ha
  by_cases hjk : j = k
  · rwa [← hjk]
  · exact absurd (Pc.critical_of_section hj) (hinv.not_critical hk hjk)

theorem Table.Sections.waits_setStatus {s : Table} (h : s.Sections) {p : EntryPtr}
    {st : Status Record} (hst : ∀ rs, st = .waiting rs → rs ⊆ s.dom.active) {q : EntryPtr}
    {rs : Finset Record} (hq : (s.dom.setStatus p st).status q = .waiting rs) :
    rs ⊆ (s.dom.setStatus p st).active := by
  rw [Domain.status_setStatus] at hq
  by_cases hqp : q = p
  · rw [hqp, Function.update_self] at hq
    exact hst rs hq
  · rw [Function.update_of_ne hqp] at hq
    exact h.waits hq

theorem Table.Sections.waits_leave {s : Table} (h : s.Sections) (r : Record) {q : EntryPtr}
    {rs : Finset Record} (hq : (s.dom.leave r).status q = .waiting rs) :
    rs ⊆ (s.dom.leave r).active := by
  rw [Domain.status_leave] at hq
  cases hst : s.dom.status q with
  | waiting rs' =>
      rw [hst] at hq
      obtain rfl : rs'.erase r = rs := by simpa [Status.left] using hq
      exact Finset.erase_subset_erase r (h.waits hst)
  | _ =>
      rw [hst] at hq
      cases hq

/-- A thread of an app moves on, and no section begins or ends. -/
theorem Table.Sections.goto {s s' : Table} (h : s.Sections) {k : Nat} {old pc : Pc}
    (hk : s.pc k = old) (heq : s'.pc = Function.update s.pc k pc)
    (hact : s'.dom.active = s.dom.active) (hfwd : s'.fwd = s.fwd)
    (hsec : ∀ a, old.section? = some a → pc.section? = some a)
    (hwaits : ∀ {p rs}, s'.dom.status p = .waiting rs → rs ⊆ s'.dom.active) :
    s'.Sections where
  waits := hwaits
  app := by
    intro a ha
    rw [hact] at ha
    obtain ⟨j, hj⟩ := h.app ha
    refine ⟨j, ?_⟩
    rw [heq]
    by_cases hjk : j = k
    · subst hjk
      rw [Function.update_self]
      exact hsec a (hk ▸ hj)
    · rwa [Function.update_of_ne hjk]
  router := fun hin => hfwd ▸ h.router (hact ▸ hin)

theorem Table.Sections.step {s s' : Table} {l : Access} (h : s.Sections) (hinv : s.Inv)
    (hs : Step s l s') : s'.Sections := by
  cases hs with
  | @enter k a sid p hk =>
      refine ⟨fun hq => (h.waits hq).trans (Finset.subset_insert _ _), fun {b} hb => ⟨k, ?_⟩,
        fun hin => h.router ?_⟩
      · show (Function.update s.pc k (.remove a sid p) k).section? = some b
        rw [Function.update_self]
        rcases Finset.mem_insert.mp hb with hba | hb
        · exact hba.symm
        · have hsec := h.owner hinv (k := k) (by rw [hk]; rfl) hb
          rw [hk] at hsec
          cases hsec
      · exact (Finset.mem_insert.mp hin).resolve_left (Option.some_ne_none a).symm
  | @leave k a p hk =>
      refine ⟨h.waits_leave (some a), fun {b} hb => ?_, fun hin => h.router ?_⟩
      · have hb' := Finset.mem_erase.mp hb
        have hsec := h.owner hinv (k := k) (by rw [hk]; rfl) hb'.2
        rw [hk] at hsec
        exact absurd hsec.symm hb'.1
      · exact (Finset.mem_erase.mp hin).2
  | @begin sid hf =>
      refine ⟨fun hq => (h.waits hq).trans (Finset.subset_insert _ _), fun hb => h.app ?_,
        fun _ => ⟨sid, 0, ∅, .look, rfl⟩⟩
      exact (Finset.mem_insert.mp hb).resolve_left (Option.some_ne_none _)
  | @finish sid i res hf hi =>
      refine ⟨h.waits_leave none, fun hb => h.app (Finset.mem_erase.mp hb).2, fun hin => ?_⟩
      exact absurd rfl (Finset.mem_erase.mp hin).1
  | @delivered sid res hf =>
      refine ⟨h.waits, h.app, fun hin => ?_⟩
      obtain ⟨sid', i, res', place, hf'⟩ := h.router hin
      rw [hf] at hf'
      cases hf'
  | alloc hk | insert hk | free hk =>
      exact h.goto hk rfl rfl rfl (by simp [Pc.section?]) (h.waits_setStatus (by simp))
  | remove hk => exact h.goto hk rfl rfl rfl (fun _ hb => hb) (h.waits_setStatus (by simp))
  | barrier hk =>
      refine h.goto hk rfl rfl rfl (by simp [Pc.section?]) (h.waits_setStatus fun rs hrs => ?_)
      rw [Status.waiting.inj hrs]
  | call hk | lock hk | get hk | setBit hk | allocFails hk | insertFails hk | resetBit hk
  | testEmpty hk | unlock hk =>
      exact h.goto hk rfl rfl rfl (by simp [Pc.section?]) h.waits
  | load hf | probe hf | compare hf | miss hf | union hf | next hf =>
      exact ⟨h.waits, h.app, fun _ => ⟨_, _, _, _, rfl⟩⟩

/-- The step is of a call or of a pass that has begun. -/
def Access.proceeds : Access → Bool
  | .call _ _ | .begin _ => false
  | _ => true

theorem Table.sections_run {tr : List (Table × Access)} {s : Table}
    (h : Run Step Table.init tr s) : s.Sections := by
  induction h with
  | start => exact Table.sections_init
  | next hrun hs ih => exact ih.step (Table.inv_run hrun) hs

/-- The router thread can go on, if its map is there. -/
theorem Table.OneMap.forward_step {s : Table} (h : s.OneMap) (hf : s.fwd ≠ .idle) :
    ∃ l s', Step s l s' ∧ l.proceeds = true := by
  cases hfwd : s.fwd with
  | idle => exact absurd hfwd hf
  | deliver sid res => exact ⟨_, _, Step.delivered hfwd, rfl⟩
  | pass sid i res place =>
      cases place with
      | look =>
          by_cases hi : i < (lookupIds sid).length
          · exact ⟨_, _, Step.load hfwd hi, rfl⟩
          · exact ⟨_, _, Step.finish hfwd (Nat.not_lt.mp hi), rfl⟩
      | get m =>
          have hm : m ∈ s.maps := h.live.map m (by rw [hfwd]; rfl)
          have hok : FwdOk s (.pass sid i res (.get m)) := hfwd ▸ h.inv.fwd
          have hi : i < (lookupIds sid).length := hok.2
          cases hr : s.reqs (lookupIds sid)[i] with
          | none => exact ⟨_, _, Step.miss hfwd hm (List.getElem?_eq_getElem hi) hr, rfl⟩
          | some p => exact ⟨_, _, Step.probe hfwd hm hr, rfl⟩
      | probed m p =>
          have hm : m ∈ s.maps := h.live.map m (by rw [hfwd]; rfl)
          obtain ⟨e, he⟩ := h.inv.heap.mem_of_held (h.inv.held_of_entry (by rw [hfwd]; rfl))
          exact ⟨_, _, Step.compare hfwd hm he, rfl⟩
      | found p w =>
          by_cases hw : w < numBlocks
          · obtain ⟨e, he⟩ := h.inv.heap.mem_of_held (h.inv.held_of_entry (by rw [hfwd]; rfl))
            exact ⟨_, _, Step.union hfwd hw he, rfl⟩
          · exact ⟨_, _, Step.next hfwd (Nat.not_lt.mp hw), rfl⟩

/-- The owner of the lock can go on, if no look-up is under way. -/
theorem Table.Inv.owner_step {s : Table} (h : s.Inv) (hsec : s.Sections) (hf : s.fwd = .idle)
    {k : Nat} (hk : (s.pc k).critical = true) : ∃ l s', Step s l s' ∧ l.proceeds = true := by
  have hok := h.ok k
  cases hpc : s.pc k with
  | idle => rw [hpc] at hk; cases hk
  | spin req => rw [hpc] at hk; cases hk
  | locked req => exact ⟨_, _, Step.get hpc, rfl⟩
  | setBit a sid p => exact ⟨_, _, Step.setBit hpc, rfl⟩
  | alloc a sid => exact ⟨_, _, Step.allocFails hpc, rfl⟩
  | insert a sid p =>
      have hplaces : Insertion.places ≠ .fails := by simp
      exact ⟨_, _, Step.insert hpc (fun _ hins => Insertion.noConfusion hins) hplaces, rfl⟩
  | resetBit a sid p => exact ⟨_, _, Step.resetBit hpc, rfl⟩
  | testEmpty a sid p =>
      rw [hpc] at hok
      obtain ⟨-, e, he, -⟩ := h.heap.keyed hok
      exact ⟨_, _, Step.testEmpty hpc he, rfl⟩
  | enter a sid p => exact ⟨_, _, Step.enter hpc, rfl⟩
  | remove a sid p => exact ⟨_, _, Step.remove hpc, rfl⟩
  | leave a p => exact ⟨_, _, Step.leave hpc, rfl⟩
  | barrier p => exact ⟨_, _, Step.barrier hpc, rfl⟩
  | waiting p =>
      rw [hpc] at hok
      obtain ⟨rs, hrs⟩ := hok
      -- no section is open: the owner of the lock is in none, and nobody looks up
      have hempty : rs = ∅ := by
        refine Finset.eq_empty_of_forall_notMem fun r hr => ?_
        have hact := hsec.waits hrs hr
        cases r with
        | none =>
            obtain ⟨sid, i, res, place, hf'⟩ := hsec.router hact
            rw [hf] at hf'
            cases hf'
        | some a =>
            have hsome := hsec.owner h hk hact
            rw [hpc] at hsome
            cases hsome
      exact ⟨_, _, Step.free hpc (hempty ▸ hrs), rfl⟩
  | unlock res => exact ⟨_, _, Step.unlock hpc, rfl⟩

/-- **NOBODY WAITS FOR EVER.**  A deregistration waits in the barrier with the lock in its
    hand, and the other apps wait for the lock.  Still, as long as the table does not grow
    under a look-up, some step of a call or a pass that has begun is possible wherever one
    has begun. -/
theorem never_stuck {tr : List (Table × Access)} {s : Table} (h : Run Step Table.init tr s)
    (hgrow : Meets GrowsOutside tr) (hbusy : s.fwd ≠ .idle ∨ ∃ k, s.pc k ≠ .idle) :
    ∃ l s', Step s l s' ∧ l.proceeds = true := by
  have hone : s.OneMap :=
    (h.along_of_meets Table.oneMap_init (fun h hC hs => h.step hC hs) hgrow).2
  by_cases hf : s.fwd = .idle
  · obtain ⟨k, hk⟩ := hbusy.resolve_left (not_not.mpr hf)
    cases hlock : s.lock with
    | some j =>
        exact hone.inv.owner_step (Table.sections_run h) hf ((hone.inv.excl j).mpr hlock)
    | none =>
        cases hpc : s.pc k with
        | idle => exact absurd hpc hk
        | spin req => exact ⟨_, _, Step.lock hpc hlock, rfl⟩
        | _ =>
            have hcrit := (hone.inv.excl k).mp (by rw [hpc]; rfl)
            exact absurd (hlock.symm.trans hcrit).symm (Option.some_ne_none k)
  · exact hone.forward_step hf

/-- An app is about to insert its request: it or the router thread can go on. -/
theorem never_stuck_insert : ∃ s, s.pc 0 = .insert 0 (Vector.replicate 16 0) 0
    ∧ ∃ l s', Step s l s' ∧ l.proceeds = true := by
  obtain ⟨tr, s, hrun, hgrow, hpc, -⟩ :=
    exists_insert (s := Table.init) (k := 0) 0 (Vector.replicate 16 0) 0 rfl rfl rfl rfl
  exact ⟨s, hpc, never_stuck hrun hgrow (Or.inr ⟨0, by simp [hpc]⟩)⟩

end JrtcReclaim
