import JrtController.RouterLookupProofs
import JrtController.RunProofs

/-! # The request table

    `req_table.reqs` maps a request id to the bitmap of the apps subscribed to
    it.  Registering creates the entry or sets a bit, deregistering clears the
    bit and drops the entry with its last bit; `_jrtc_router_forward_msgs` takes
    the union of the bitmaps found by the sixteen look-ups.

    * `channelRegisterStreamIdReq_cases`, `mem_subscribers_deregister` — one call
      changes one bit of one request;
    * `ReqWorld.inv_run` — over any sequence of calls a bit is set iff the app's
      most recent operation on the request was a register;
    * `lookupResult_run` — hence what the look-ups collect is exactly the set of
      apps with a matching standing request. -/

namespace JrtcReqTable

open JrtcStreamId JrtcRouterLookup Runs

/-- An index into the registry of `JRTC_ROUTER_MAX_NUM_APPS` apps. -/
abbrev AppId := Fin 128

/-- `req_table.reqs`: each request id to the bitmap of its entry. -/
abbrev ReqTable := StreamId → Option (Finset AppId)

/-- The guard both calls open with: a NULL context or an id outside the bitmap
    is turned away. -/
def checkedAppId : Option Int → Option AppId
  | none => none
  | some appId =>
      if h : 0 ≤ appId ∧ appId < 128 then some ⟨appId.toNat, by omega⟩ else none

/-- What the allocations of a registration return: the entry, its bitmap, and
    the slot in the hash table. -/
structure ReqAlloc where
  entry  : Bool
  bitmap : Bool
  htSet  : Bool
  deriving DecidableEq, Repr

/-- `jrtc_router_channel_register_stream_id_req`. -/
def channelRegisterStreamIdReq (reqs : ReqTable) (app : Option Int)
    (streamId : StreamId) (al : ReqAlloc) : Int × ReqTable :=
  match checkedAppId app with
  | none => (-1, reqs)
  | some appId =>
      match reqs streamId with
      | none =>
          if !al.entry then (-1, reqs)
          else if !al.bitmap then (-1, reqs)
          else if !al.htSet then (-1, reqs)
          else (1, Function.update reqs streamId (some {appId}))
      | some bitmap =>
          (1, Function.update reqs streamId (some (insert appId bitmap)))

/-- `jrtc_router_channel_deregister_stream_id_req`. -/
def channelDeregisterStreamIdReq (reqs : ReqTable) (app : Option Int)
    (streamId : StreamId) : ReqTable :=
  match checkedAppId app with
  | none => reqs
  | some appId =>
      match reqs streamId with
      | none => reqs
      | some bitmap =>
          if bitmap.erase appId = ∅ then Function.update reqs streamId none
          else Function.update reqs streamId (some (bitmap.erase appId))

/-- The look-up loop of `_jrtc_router_forward_msgs`, from the cleared bitmap. -/
def lookupResult (reqs : ReqTable) (sid : StreamId) : Finset AppId :=
  lookupMask.foldl (fun res mask =>
    match reqs (lookupId sid mask) with
    | some bitmap => res ∪ bitmap
    | none => res) ∅

/-- The apps whose bit is set in the entry of a request, if there is one. -/
def subscribers (reqs : ReqTable) (r : StreamId) : Finset AppId :=
  (reqs r).getD ∅

/-- No entry is kept with an empty bitmap. -/
def NoEmptyEntry (reqs : ReqTable) : Prop := ∀ r, reqs r ≠ some ∅

/-- The id of a registered app passes the guard. -/
@[simp] theorem checkedAppId_val (a : AppId) : checkedAppId (some (a.val : Int)) = some a := by
  have h : (0 : Int) ≤ a.val ∧ (a.val : Int) < 128 := by omega
  rw [checkedAppId, dif_pos h]
  rfl

-- ── One call ──────────────────────────────────────────────────────────────────

theorem subscribers_update (reqs : ReqTable) (r r' : StreamId)
    (e : Option (Finset AppId)) : subscribers (Function.update reqs r e) r'
      = if r' = r then e.getD ∅ else subscribers reqs r' := by
  by_cases h : r' = r
  · rw [if_pos h, subscribers, h, Function.update_self]
  · rw [if_neg h, subscribers, Function.update_of_ne h, subscribers]

theorem noEmptyEntry_update {reqs : ReqTable} (h : NoEmptyEntry reqs)
    {r : StreamId} {e : Option (Finset AppId)} (he : e ≠ some ∅) :
    NoEmptyEntry (Function.update reqs r e) := by
  intro r'
  by_cases hr : r' = r
  · rw [hr, Function.update_self]
    exact he
  · rw [Function.update_of_ne hr]
    exact h r'

/-- A registration either fails and leaves the table, or sets the app's bit in
    the request's entry and nothing else. -/
theorem channelRegisterStreamIdReq_cases (reqs : ReqTable) (app : Option Int)
    (sid : StreamId) (al : ReqAlloc) :
    channelRegisterStreamIdReq reqs app sid al = (-1, reqs)
      ∨ ∃ a, checkedAppId app = some a
          ∧ channelRegisterStreamIdReq reqs app sid al
            = (1, Function.update reqs sid (some (insert a (subscribers reqs sid)))) := by
  unfold channelRegisterStreamIdReq subscribers
  cases hc : checkedAppId app with
  | none => exact Or.inl rfl
  | some a =>
      cases hr : reqs sid with
      | some bitmap => exact Or.inr ⟨a, rfl, rfl⟩
      | none =>
          cases he : al.entry with
          | false => exact Or.inl (by simp)
          | true =>
              cases hb : al.bitmap with
              | false => exact Or.inl (by simp)
              | true =>
                  cases hh : al.htSet with
                  | false => exact Or.inl (by simp)
                  | true => exact Or.inr ⟨a, rfl, by simp⟩

/-- A registration that does not return 1 leaves the table. -/
theorem channelRegisterStreamIdReq_failed {reqs reqs' : ReqTable} {app : Option Int}
    {sid : StreamId} {al : ReqAlloc} {res : Int}
    (h : channelRegisterStreamIdReq reqs app sid al = (res, reqs')) (hres : res ≠ 1) :
    reqs' = reqs := by
  rcases channelRegisterStreamIdReq_cases reqs app sid al with hf | ⟨a, -, hs⟩
  · exact (Prod.mk.inj (h.symm.trans hf)).2
  · exact absurd (Prod.mk.inj (h.symm.trans hs)).1 hres

/-- The bits after a registration by a valid app: its own is added iff the call
    returned 1. -/
theorem mem_subscribers_register {reqs reqs' : ReqTable} {a : AppId} {sid : StreamId}
    {al : ReqAlloc} {res : Int}
    (h : channelRegisterStreamIdReq reqs (some a.val) sid al = (res, reqs'))
    (b : AppId) (r : StreamId) :
    b ∈ subscribers reqs' r ↔ (res = 1 ∧ b = a ∧ r = sid) ∨ b ∈ subscribers reqs r := by
  rcases channelRegisterStreamIdReq_cases reqs (some a.val) sid al with hf | ⟨c, hc, hs⟩
  · obtain ⟨rfl, rfl⟩ := Prod.mk.inj (hf.symm.trans h)
    simp
  · rw [checkedAppId_val] at hc
    obtain rfl := Option.some.inj hc
    obtain ⟨rfl, rfl⟩ := Prod.mk.inj (hs.symm.trans h)
    rw [subscribers_update]
    by_cases hr : r = sid
    · simp [hr]
    · simp [hr]

/-- A deregistration clears the caller's bit of the request it names, and
    nothing else. -/
theorem mem_subscribers_deregister (reqs : ReqTable) (app : Option Int)
    (sid r : StreamId) (b : AppId) :
    b ∈ subscribers (channelDeregisterStreamIdReq reqs app sid) r
      ↔ b ∈ subscribers reqs r ∧ ¬ (checkedAppId app = some b ∧ r = sid) := by
  unfold channelDeregisterStreamIdReq
  cases ha : checkedAppId app with
  | none => simp
  | some a =>
      cases hr : reqs sid with
      | none =>
          have hsub : r = sid → b ∉ subscribers reqs r := by
            rintro rfl
            simp [subscribers, hr]
          exact ⟨fun h => ⟨h, fun hk => hsub hk.2 h⟩, fun h => h.1⟩
      | some bitmap =>
          -- both branches store what is left of the bitmap
          have hleft : subscribers (if bitmap.erase a = ∅
              then Function.update reqs sid none
              else Function.update reqs sid (some (bitmap.erase a))) r
              = if r = sid then bitmap.erase a else subscribers reqs r := by
            by_cases hempty : bitmap.erase a = ∅
            · rw [if_pos hempty, subscribers_update, hempty]
              rfl
            · rw [if_neg hempty, subscribers_update]
              rfl
          rw [hleft]
          by_cases h : r = sid
          · have hsub : subscribers reqs r = bitmap := by rw [subscribers, h, hr]; rfl
            rw [if_pos h, Finset.mem_erase, hsub, Option.some.injEq]
            exact ⟨fun hb => ⟨hb.2, fun hk => hb.1 hk.1.symm⟩,
              fun hb => ⟨fun hba => hb.2 ⟨hba.symm, h⟩, hb.1⟩⟩
          · rw [if_neg h]
            exact (and_iff_left fun hk => h hk.2).symm

theorem channelRegisterStreamIdReq_noEmptyEntry {reqs : ReqTable}
    (h : NoEmptyEntry reqs) (app : Option Int) (sid : StreamId) (al : ReqAlloc) :
    NoEmptyEntry (channelRegisterStreamIdReq reqs app sid al).2 := by
  rcases channelRegisterStreamIdReq_cases reqs app sid al with hf | ⟨a, -, hs⟩
  · rw [hf]
    exact h
  · rw [hs]
    exact noEmptyEntry_update h fun he =>
      Finset.insert_ne_empty a _ (Option.some.inj he)

theorem channelDeregisterStreamIdReq_noEmptyEntry {reqs : ReqTable}
    (h : NoEmptyEntry reqs) (app : Option Int) (sid : StreamId) :
    NoEmptyEntry (channelDeregisterStreamIdReq reqs app sid) := by
  unfold channelDeregisterStreamIdReq
  cases checkedAppId app with
  | none => exact h
  | some a =>
      cases reqs sid with
      | none => exact h
      | some bitmap =>
          by_cases hempty : bitmap.erase a = ∅
          · simp only [if_pos hempty]
            exact noEmptyEntry_update h (by simp)
          · simp only [if_neg hempty]
            exact noEmptyEntry_update h fun he => hempty (Option.some.inj he)

-- ── The look-ups ──────────────────────────────────────────────────────────────

/-- The look-up loop collects the subscribers of every look-up id. -/
theorem mem_lookupResult (reqs : ReqTable) (sid : StreamId) (a : AppId) :
    a ∈ lookupResult reqs sid ↔ ∃ r, Matches r sid ∧ a ∈ subscribers reqs r := by
  -- the accumulator holds what the rows visited so far contributed
  have hloop : ∀ (masks : List StreamIdInt) (res : Finset AppId),
      a ∈ masks.foldl (fun res mask =>
        match reqs (lookupId sid mask) with
        | some bitmap => res ∪ bitmap
        | none => res) res
      ↔ a ∈ res ∨ ∃ mask ∈ masks, a ∈ subscribers reqs (lookupId sid mask) := by
    intro masks
    induction masks with
    | nil => simp
    | cons mask rest ih =>
        intro res
        rw [List.foldl_cons, ih]
        cases hr : reqs (lookupId sid mask) with
        | none => simp [subscribers, hr]
        | some bitmap => simp [subscribers, hr, or_assoc]
  rw [lookupResult, hloop]
  simp only [Finset.notMem_empty, false_or, ← mem_lookupIds_iff, lookupIds,
    List.mem_map]
  constructor
  · rintro ⟨mask, hm, ha⟩
    exact ⟨_, ⟨mask, hm, rfl⟩, ha⟩
  · rintro ⟨_, ⟨mask, hm, rfl⟩, ha⟩
    exact ⟨mask, hm, ha⟩

-- everything below goes through `mem_lookupResult`; unfolding the look-ups of a
-- concrete id is expensive
attribute [irreducible] lookupResult

/-- A message with the very id of a request reaches its subscribers. -/
theorem mem_lookupResult_self {reqs : ReqTable} {r : StreamId} {a : AppId}
    (h : a ∈ subscribers reqs r) : a ∈ lookupResult reqs r :=
  (mem_lookupResult reqs r a).mpr ⟨r, ⟨rfl, fun _ _ => Or.inl rfl⟩, h⟩

/-! ## Sequences of calls -/

/-- The two operations on a request, as a history records them. -/
inductive ReqOp where
  | register
  | deregister
  deriving DecidableEq, Repr

/-- A call on the table, with the context's id and what its allocations
    return. -/
inductive ReqCall where
  | register   (app : Option Int) (sid : StreamId) (al : ReqAlloc)
  | deregister (app : Option Int) (sid : StreamId)

/-- The table, and the history of the operations that took effect. -/
structure ReqWorld where
  reqs : ReqTable
  log  : List ((AppId × StreamId) × ReqOp)

/-- The table as `jrtc_router_init` leaves it. -/
def ReqWorld.init : ReqWorld := ⟨fun _ => none, []⟩

/-- Append an operation to the history; a rejected context leaves no record. -/
def recordOp (log : List ((AppId × StreamId) × ReqOp)) (app : Option Int)
    (sid : StreamId) (op : ReqOp) : List ((AppId × StreamId) × ReqOp) :=
  match checkedAppId app with
  | none => log
  | some a => log ++ [((a, sid), op)]

def ReqWorld.call (w : ReqWorld) : ReqCall → ReqWorld
  | .register app sid al =>
      let (res, reqs) := channelRegisterStreamIdReq w.reqs app sid al
      ⟨reqs, if res = 1 then recordOp w.log app sid .register else w.log⟩
  | .deregister app sid =>
      ⟨channelDeregisterStreamIdReq w.reqs app sid,
        recordOp w.log app sid .deregister⟩

/-- The bits of the table are what the history says. -/
structure ReqWorld.Inv (w : ReqWorld) : Prop where
  bits : ∀ a r, a ∈ subscribers w.reqs r ↔ lastFor (a, r) w.log = some .register
  noEmpty : NoEmptyEntry w.reqs

theorem ReqWorld.inv_init : ReqWorld.init.Inv :=
  ⟨fun a r => by simp [ReqWorld.init, subscribers, lastFor],
   fun _ => by simp [ReqWorld.init]⟩

theorem ReqWorld.inv_call {w : ReqWorld} (h : w.Inv) (c : ReqCall) :
    (w.call c).Inv := by
  cases c with
  | register app sid al =>
      refine ⟨fun a r => ?_, channelRegisterStreamIdReq_noEmptyEntry h.noEmpty _ _ _⟩
      show a ∈ subscribers (channelRegisterStreamIdReq w.reqs app sid al).2 r ↔
        lastFor (a, r) (if (channelRegisterStreamIdReq w.reqs app sid al).1 = 1
          then recordOp w.log app sid .register else w.log) = some .register
      rcases channelRegisterStreamIdReq_cases w.reqs app sid al with hf | ⟨b, hb, hs⟩
      · rw [hf, if_neg (by simp)]
        exact h.bits a r
      · rw [hs, if_pos rfl, subscribers_update, recordOp, hb]
        by_cases hk : (b, sid) = (a, r)
        · obtain ⟨rfl, rfl⟩ := Prod.mk.inj hk
          simp [lastFor_append_self]
        · rw [lastFor_append_ne hk, ← h.bits]
          by_cases hr : r = sid
          · have hab : a ≠ b := fun hab => hk (by rw [hab, hr])
            simp [hr, hab]
          · simp [hr]
  | deregister app sid =>
      refine ⟨fun a r => ?_, channelDeregisterStreamIdReq_noEmptyEntry h.noEmpty _ _⟩
      show a ∈ subscribers (channelDeregisterStreamIdReq w.reqs app sid) r ↔
        lastFor (a, r) (recordOp w.log app sid .deregister) = some .register
      rw [mem_subscribers_deregister, h.bits, recordOp]
      cases hb : checkedAppId app with
      | none => simp
      | some b =>
          by_cases hk : (b, sid) = (a, r)
          · obtain ⟨rfl, rfl⟩ := Prod.mk.inj hk
            simp [lastFor_append_self]
          · rw [lastFor_append_ne hk]
            refine and_iff_left ?_
            rintro ⟨hba, rfl⟩
            exact hk (by rw [Option.some.inj hba])

/-- The invariant holds after any sequence of calls. -/
theorem ReqWorld.inv_run (calls : List ReqCall) :
    (calls.foldl ReqWorld.call ReqWorld.init).Inv :=
  List.foldlRecOn calls ReqWorld.call ReqWorld.inv_init
    fun _ h c _ => ReqWorld.inv_call h c

/-- **THE LOOK-UPS REFINE THE SUBSCRIPTIONS.**  After any sequence of calls, for
    every message: what the sixteen look-ups collect is the set of apps that
    hold a matching request, no entry is empty, and a deregistration changes no
    other app's bit and no other request. -/
theorem lookupResult_run (calls : List ReqCall) (sid : StreamId) :
    ((lookupResult (calls.foldl ReqWorld.call ReqWorld.init).reqs sid : Set AppId)
      = {a | ∃ r, lastFor (a, r) (calls.foldl ReqWorld.call ReqWorld.init).log
                = some .register ∧ Matches r sid})
    ∧ NoEmptyEntry (calls.foldl ReqWorld.call ReqWorld.init).reqs
    ∧ ∀ (app : Option Int) (r r' : StreamId) (b : AppId),
        b ∈ subscribers (channelDeregisterStreamIdReq
            (calls.foldl ReqWorld.call ReqWorld.init).reqs app r) r'
          ↔ b ∈ subscribers (calls.foldl ReqWorld.call ReqWorld.init).reqs r'
            ∧ ¬ (checkedAppId app = some b ∧ r' = r) := by
  have hinv := ReqWorld.inv_run calls
  refine ⟨?_, hinv.noEmpty, mem_subscribers_deregister _⟩
  ext a
  rw [Finset.mem_coe, mem_lookupResult, Set.mem_ofPred_eq]
  constructor
  · rintro ⟨r, hm, ha⟩
    exact ⟨r, (hinv.bits a r).mp ha, hm⟩
  · rintro ⟨r, ha, hm⟩
    exact ⟨r, hm, (hinv.bits a r).mpr ha⟩

end JrtcReqTable
