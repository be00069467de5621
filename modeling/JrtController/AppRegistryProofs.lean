import JrtController.RouterProofs

/-! # Concurrent registrations

    `jrtc_router_register_app` and `jrtc_router_deregister_app` share the bitmap
    of app ids and the array of contexts, with no lock: an id is taken by an
    atomic test-and-set and given back by an atomic reset.  Here every access to
    either is a step of its own, and any number of calls interleave.

    * `Effect`, `effect_step` — what one access does to the bitmap, the contexts
      and the call that makes it;
    * `Registry.inv_run` — a bit is set iff exactly one call owns the id, and a
      slot holds a context iff the owner stored it;
    * `found_set_run` — a call that has tested the bits below `i` found each of
      them set when it did;
    * `registrations_isolated` — the guarantees of the registry along every
      interleaving;
    * `reserveNewApp_run` — the reservation loop run alone is `reserveNewApp`. -/

namespace JrtcAppRegistry

open JrtcReqTable JrtcAppQueue JrtcRouter Runs

/-- A pointer to a `struct dapp_router_ctx`. -/
abbrev DappPtr := Nat

/-- The allocations that follow that of the context itself. -/
inductive Stage where
  | ringbuffer
  | pool
  | outTable
  | inTable
  | ready
  deriving DecidableEq, Repr

/-- The stage after an allocation that succeeds. -/
def Stage.next : Stage → Stage
  | .ringbuffer => .pool
  | .pool => .outTable
  | .outTable => .inTable
  | .inTable | .ready => .ready

/-- Where a registration is, and then the app it returned: from the scan for a
    clear bit to the reset of the bit when the app has left. -/
inductive Phase where
  | idle
  | rejected
  | scanning (i : Nat)
  | noId
  | reserved (id : AppId)
  | building (id : AppId) (p : DappPtr) (stage : Stage)
  | failing (id : AppId)
  | failed (id : AppId)
  | stored (id : AppId) (p : DappPtr)
  | live (id : AppId) (p : DappPtr)
  | leaving (id : AppId) (p : DappPtr)
  | freed (id : AppId) (p : DappPtr)
  | cleared (id : AppId)
  | gone (id : AppId)

/-- The shared bitmap and context array, the calls by number, and the history of
    the calls that wrote to the array. -/
structure Registry where
  bitmap : Finset AppId
  ctx    : AppId → Option DappPtr
  phase  : Nat → Phase
  writes : List Nat

/-- Which access, by which call. -/
inductive Access where
  | register (k : Nat) (appQueueSize : Nat)
  | test (k : Nat)
  | endOfScan (k : Nat)
  | alloc (k : Nat)
  | allocFails (k : Nat)
  | store (k : Nat)
  | ret (k : Nat)
  | release (k : Nat)
  | deregister (k : Nat)
  | free (k : Nat)
  | clear (k : Nat)
  | reset (k : Nat)

/-- Call `k` moves to another phase. -/
def Registry.goto (s : Registry) (k : Nat) (φ : Phase) : Registry :=
  { s with phase := Function.update s.phase k φ }

/-- One access.  The allocator may return any address, also one that was freed
    before. -/
inductive RegistryStep : Registry → Access → Registry → Prop
  | reject {s : Registry} {k appQueueSize : Nat} :
      s.phase k = .idle → maxAppQueueSize < appQueueSize →
      RegistryStep s (.register k appQueueSize) (s.goto k .rejected)
  | register {s : Registry} {k appQueueSize : Nat} :
      s.phase k = .idle → appQueueSize ≤ maxAppQueueSize →
      RegistryStep s (.register k appQueueSize) (s.goto k (.scanning 0))
  -- `_jrtc_router_reserve_new_app`: test and set bit `i`, return it if it was clear
  | testSet {s : Registry} {k : Nat} {i : AppId} :
      s.phase k = .scanning i.val → i ∈ s.bitmap →
      RegistryStep s (.test k) (s.goto k (.scanning (i.val + 1)))
  | testClear {s : Registry} {k : Nat} {i : AppId} :
      s.phase k = .scanning i.val → i ∉ s.bitmap →
      RegistryStep s (.test k)
        { s.goto k (.reserved i) with bitmap := insert i s.bitmap }
  | endOfScan {s : Registry} {k : Nat} :
      s.phase k = .scanning 128 → RegistryStep s (.endOfScan k) (s.goto k .noId)
  | allocDapp {s : Registry} {k : Nat} {id : AppId} {p : DappPtr} :
      s.phase k = .reserved id →
      RegistryStep s (.alloc k) (s.goto k (.building id p .ringbuffer))
  | allocDappFails {s : Registry} {k : Nat} {id : AppId} :
      s.phase k = .reserved id →
      RegistryStep s (.allocFails k) (s.goto k (.failing id))
  | alloc {s : Registry} {k : Nat} {id : AppId} {p : DappPtr} {stage : Stage} :
      s.phase k = .building id p stage → stage ≠ .ready →
      RegistryStep s (.alloc k) (s.goto k (.building id p stage.next))
  | allocFails {s : Registry} {k : Nat} {id : AppId} {p : DappPtr} {stage : Stage} :
      s.phase k = .building id p stage → stage ≠ .ready →
      RegistryStep s (.allocFails k) (s.goto k (.failing id))
  -- `ctx[app_id] = dapp`
  | store {s : Registry} {k : Nat} {id : AppId} {p : DappPtr} :
      s.phase k = .building id p .ready →
      RegistryStep s (.store k) { s.goto k (.stored id p) with
        ctx := Function.update s.ctx id (some p), writes := s.writes ++ [k] }
  | ret {s : Registry} {k : Nat} {id : AppId} {p : DappPtr} :
      s.phase k = .stored id p → RegistryStep s (.ret k) (s.goto k (.live id p))
  -- the error exit, `_jrtc_router_release_app`
  | release {s : Registry} {k : Nat} {id : AppId} :
      s.phase k = .failing id →
      RegistryStep s (.release k)
        { s.goto k (.failed id) with bitmap := s.bitmap.erase id }
  | deregister {s : Registry} {k : Nat} {id : AppId} {p : DappPtr} :
      s.phase k = .live id p → RegistryStep s (.deregister k) (s.goto k (.leaving id p))
  | free {s : Registry} {k : Nat} {id : AppId} {p : DappPtr} :
      s.phase k = .leaving id p → RegistryStep s (.free k) (s.goto k (.freed id p))
  -- `ctx[app_id] = NULL`, then `_jrtc_router_release_app`
  | clear {s : Registry} {k : Nat} {id : AppId} {p : DappPtr} :
      s.phase k = .freed id p →
      RegistryStep s (.clear k) { s.goto k (.cleared id) with
        ctx := Function.update s.ctx id none, writes := s.writes ++ [k] }
  | reset {s : Registry} {k : Nat} {id : AppId} :
      s.phase k = .cleared id →
      RegistryStep s (.reset k)
        { s.goto k (.gone id) with bitmap := s.bitmap.erase id }

/-- No app, no call. -/
def Registry.init : Registry := ⟨∅, fun _ => none, fun _ => .idle, []⟩

/-- The id a call owns: from its reservation until it is given back. -/
def Phase.owns : Phase → Option AppId
  | .idle | .rejected | .scanning _ | .noId | .failed _ | .gone _ => none
  | .reserved id | .building id _ _ | .failing id | .stored id _ | .live id _
  | .leaving id _ | .freed id _ | .cleared id => some id

/-- The context a call has in the array. -/
def Phase.slot : Phase → Option (AppId × DappPtr)
  | .stored id p | .live id p | .leaving id p | .freed id p => some (id, p)
  | _ => none

/-- The call has written to the array. -/
def Phase.Wrote : Phase → Prop
  | .stored _ _ | .live _ _ | .leaving _ _ | .freed _ _ | .cleared _ | .gone _ => True
  | _ => False

theorem Phase.owns_of_slot {φ : Phase} {id : AppId} {p : DappPtr}
    (h : φ.slot = some (id, p)) : φ.owns = some id := by
  cases φ <;> simp_all [Phase.slot, Phase.owns]

namespace Registry

/-- Who owns what, by call. -/
def owns (s : Registry) (k : Nat) : Option AppId := (s.phase k).owns

/-- Who has stored what, by call. -/
def slot (s : Registry) (k : Nat) : Option (AppId × DappPtr) := (s.phase k).slot

theorem goto_owns (s : Registry) (k : Nat) (φ : Phase) :
    (s.goto k φ).owns = Function.update s.owns k φ.owns := by
  funext j
  exact Function.apply_update (fun _ => Phase.owns) s.phase k φ j

theorem goto_slot (s : Registry) (k : Nat) (φ : Phase) :
    (s.goto k φ).slot = Function.update s.slot k φ.slot := by
  funext j
  exact Function.apply_update (fun _ => Phase.slot) s.phase k φ j

end Registry

/-- What one access does to the shared data and to what the calls own. -/
inductive Effect (s s' : Registry) : Prop
  | neutral : s'.bitmap = s.bitmap → s'.ctx = s.ctx → s'.owns = s.owns →
      s'.slot = s.slot → Effect s s'
  | reserve (k : Nat) (id : AppId) : id ∉ s.bitmap → s.owns k = none →
      s'.bitmap = insert id s.bitmap → s'.ctx = s.ctx →
      s'.owns = Function.update s.owns k (some id) → s'.slot = s.slot → Effect s s'
  | giveBack (k : Nat) (id : AppId) : s.owns k = some id → s.slot k = none →
      s'.bitmap = s.bitmap.erase id → s'.ctx = s.ctx →
      s'.owns = Function.update s.owns k none → s'.slot = s.slot → Effect s s'
  | write (k : Nat) (id : AppId) (p : Option DappPtr) : s.owns k = some id →
      s'.bitmap = s.bitmap → s'.ctx = Function.update s.ctx id p → s'.owns = s.owns →
      s'.slot = Function.update s.slot k (p.map (id, ·)) → Effect s s'

/-- A phase change that owns and stores the same is neutral. -/
theorem effect_goto {s : Registry} {k : Nat} {φ φ' : Phase} (h : s.phase k = φ)
    (howns : φ'.owns = φ.owns) (hslot : φ'.slot = φ.slot) : Effect s (s.goto k φ') := by
  refine .neutral rfl rfl ?_ ?_
  · rw [Registry.goto_owns, Function.update_eq_self_iff, howns, ← h]
    rfl
  · rw [Registry.goto_slot, Function.update_eq_self_iff, hslot, ← h]
    rfl

theorem effect_step {s s' : Registry} {l : Access} (hs : RegistryStep s l s') :
    Effect s s' := by
  cases hs with
  | reject h hsize => exact effect_goto h rfl rfl
  | register h hsize => exact effect_goto h rfl rfl
  | testSet h hset => exact effect_goto h rfl rfl
  | @testClear k i h hclear =>
      have hslot : s.slot k = none := congrArg Phase.slot h
      refine .reserve k i hclear (congrArg Phase.owns h) rfl rfl
        (Registry.goto_owns s k _) ?_
      exact (Registry.goto_slot s k _).trans (Function.update_eq_self_iff.mpr hslot.symm)
  | endOfScan h => exact effect_goto h rfl rfl
  | allocDapp h => exact effect_goto h rfl rfl
  | allocDappFails h => exact effect_goto h rfl rfl
  | alloc h hready => exact effect_goto h rfl rfl
  | allocFails h hready => exact effect_goto h rfl rfl
  | @store k id p h =>
      have howns : s.owns k = some id := congrArg Phase.owns h
      refine .write k id (some p) howns rfl rfl ?_ (Registry.goto_slot s k _)
      exact (Registry.goto_owns s k _).trans (Function.update_eq_self_iff.mpr howns.symm)
  | ret h => exact effect_goto h rfl rfl
  | @release k id h =>
      have hslot : s.slot k = none := congrArg Phase.slot h
      refine .giveBack k id (congrArg Phase.owns h) hslot rfl rfl
        (Registry.goto_owns s k _) ?_
      exact (Registry.goto_slot s k _).trans (Function.update_eq_self_iff.mpr hslot.symm)
  | deregister h => exact effect_goto h rfl rfl
  | free h => exact effect_goto h rfl rfl
  | @clear k id p h =>
      have howns : s.owns k = some id := congrArg Phase.owns h
      refine .write k id none howns rfl rfl ?_ (Registry.goto_slot s k _)
      exact (Registry.goto_owns s k _).trans (Function.update_eq_self_iff.mpr howns.symm)
  | @reset k id h =>
      have hslot : s.slot k = none := congrArg Phase.slot h
      refine .giveBack k id (congrArg Phase.owns h) hslot rfl rfl
        (Registry.goto_owns s k _) ?_
      exact (Registry.goto_slot s k _).trans (Function.update_eq_self_iff.mpr hslot.symm)

/-! ## The invariant -/

/-- A bit is set iff a call owns the id, no two calls own one id, and the array
    holds exactly what the owners stored. -/
structure Registry.Inv (s : Registry) : Prop where
  owner  : ∀ id, id ∈ s.bitmap ↔ ∃ k, s.owns k = some id
  unique : ∀ k j id, s.owns k = some id → s.owns j = some id → k = j
  stored : ∀ id p, s.ctx id = some p ↔ ∃ k, s.slot k = some (id, p)

namespace Registry

variable {s s' : Registry}

theorem inv_init : init.Inv where
  owner id := ⟨fun h => (Finset.notMem_empty id h).elim, fun ⟨_, h⟩ => (nomatch h)⟩
  unique _ _ _ h := nomatch h
  stored _ _ := ⟨fun h => (nomatch h), fun ⟨_, h⟩ => (nomatch h)⟩

theorem Inv.reserve (h : s.Inv) {k : Nat} {id : AppId} (hid : id ∉ s.bitmap)
    (hk : s.owns k = none) (hbits : s'.bitmap = insert id s.bitmap)
    (hctx : s'.ctx = s.ctx) (howns : s'.owns = Function.update s.owns k (some id))
    (hslot : s'.slot = s.slot) : s'.Inv := by
  have hself : s'.owns k = some id := by rw [howns, Function.update_self]
  have hother : ∀ j, j ≠ k → s'.owns j = s.owns j := fun j hj => by
    rw [howns, Function.update_of_ne hj]
  -- nobody else owns the id that was clear
  have hfresh : ∀ j, s.owns j ≠ some id := fun j hj => hid ((h.owner id).mpr ⟨j, hj⟩)
  have honly : ∀ j, s'.owns j = some id → j = k := by
    intro j hj
    by_contra hne
    exact hfresh j (hother j hne ▸ hj)
  refine ⟨?_, ?_, ?_⟩
  · intro id'
    rw [hbits, Finset.mem_insert, h.owner]
    constructor
    · rintro (rfl | ⟨j, hj⟩)
      · exact ⟨k, hself⟩
      · have hne : j ≠ k := by
          rintro rfl
          rw [hk] at hj
          exact nomatch hj
        exact ⟨j, (hother j hne).trans hj⟩
    · rintro ⟨j, hj⟩
      by_cases hne : j = k
      · rw [hne, hself] at hj
        exact Or.inl (Option.some.inj hj).symm
      · exact Or.inr ⟨j, hother j hne ▸ hj⟩
  · intro i j id' hi hj
    by_cases hid' : id' = id
    · subst hid'
      rw [honly i hi, honly j hj]
    · have hne : ∀ j, s'.owns j = some id' → j ≠ k := by
        rintro j hj rfl
        rw [hself] at hj
        exact hid' (Option.some.inj hj).symm
      exact h.unique i j id' (hother i (hne i hi) ▸ hi) (hother j (hne j hj) ▸ hj)
  · rw [hctx, hslot]
    exact h.stored

theorem Inv.giveBack (h : s.Inv) {k : Nat} {id : AppId} (hk : s.owns k = some id)
    (hbits : s'.bitmap = s.bitmap.erase id) (hctx : s'.ctx = s.ctx)
    (howns : s'.owns = Function.update s.owns k none) (hslot : s'.slot = s.slot) :
    s'.Inv := by
  have hself : s'.owns k = none := by rw [howns, Function.update_self]
  have hother : ∀ j, j ≠ k → s'.owns j = s.owns j := fun j hj => by
    rw [howns, Function.update_of_ne hj]
  have hold : ∀ j id', s'.owns j = some id' → j ≠ k ∧ s.owns j = some id' := by
    intro j id' hj
    have hne : j ≠ k := by
      rintro rfl
      rw [hself] at hj
      exact nomatch hj
    exact ⟨hne, hother j hne ▸ hj⟩
  refine ⟨?_, ?_, ?_⟩
  · intro id'
    rw [hbits, Finset.mem_erase, h.owner]
    constructor
    · rintro ⟨hne, j, hj⟩
      have hjk : j ≠ k := by
        rintro rfl
        exact hne (Option.some.inj (hj.symm.trans hk))
      exact ⟨j, (hother j hjk).trans hj⟩
    · rintro ⟨j, hj⟩
      obtain ⟨hne, hj⟩ := hold j id' hj
      refine ⟨?_, j, hj⟩
      rintro rfl
      exact hne (h.unique j k id' hj hk)
  · exact fun i j id' hi hj => h.unique i j id' (hold i id' hi).2 (hold j id' hj).2
  · rw [hctx, hslot]
    exact h.stored

theorem Inv.write (h : s.Inv) {k : Nat} {id : AppId} {p : Option DappPtr}
    (hk : s.owns k = some id) (hbits : s'.bitmap = s.bitmap)
    (hctx : s'.ctx = Function.update s.ctx id p) (howns : s'.owns = s.owns)
    (hslot : s'.slot = Function.update s.slot k (p.map (id, ·))) : s'.Inv := by
  refine ⟨by rw [hbits, howns]; exact h.owner, by rw [howns]; exact h.unique, ?_⟩
  -- only the owner of an id has a slot under it
  have hown : ∀ j id' q, s.slot j = some (id', q) → (id' = id ↔ j = k) := by
    intro j id' q hj
    have hj' : s.owns j = some id' := Phase.owns_of_slot hj
    constructor
    · rintro rfl
      exact h.unique j k id' hj' hk
    · rintro rfl
      exact Option.some.inj (hj'.symm.trans hk)
  intro id' q
  rw [hctx, hslot]
  by_cases hid : id' = id
  · subst hid
    rw [Function.update_self]
    constructor
    · rintro rfl
      exact ⟨k, by rw [Function.update_self]; rfl⟩
    · rintro ⟨j, hj⟩
      by_cases hjk : j = k
      · subst hjk
        rw [Function.update_self, Option.map_eq_some_iff] at hj
        obtain ⟨q', rfl, hq⟩ := hj
        exact congrArg some (Prod.mk.inj hq).2
      · rw [Function.update_of_ne hjk] at hj
        exact absurd ((hown j id' q hj).mp rfl) hjk
  · rw [Function.update_of_ne hid, h.stored]
    refine exists_congr fun j => ?_
    by_cases hjk : j = k
    · subst hjk
      rw [Function.update_self, Option.map_eq_some_iff]
      constructor
      · exact fun hj => absurd ((hown j id' q hj).mpr rfl) hid
      · rintro ⟨q', -, hq⟩
        exact absurd (Prod.mk.inj hq).1.symm hid
    · rw [Function.update_of_ne hjk]

theorem inv_step {l : Access} (h : s.Inv) (hs : RegistryStep s l s') : s'.Inv := by
  cases effect_step hs with
  | neutral hbits hctx howns hslot =>
      exact ⟨by rw [hbits, howns]; exact h.owner, by rw [howns]; exact h.unique,
        by rw [hctx, hslot]; exact h.stored⟩
  | reserve k id hid hk hbits hctx howns hslot =>
      exact h.reserve hid hk hbits hctx howns hslot
  | giveBack k id hk _ hbits hctx howns hslot =>
      exact h.giveBack hk hbits hctx howns hslot
  | write k id p hk hbits hctx howns hslot => exact h.write hk hbits hctx howns hslot

/-- The invariant holds along every interleaving. -/
theorem inv_run {tr : List (Registry × Access)} (h : Run RegistryStep init tr s) :
    s.Inv :=
  h.invariant inv_init inv_step

end Registry

/-! ## What failed registrations leave behind -/

/-- Only calls past their store have written to the array. -/
theorem wrote_step {s s' : Registry} {l : Access}
    (h : ∀ k ∈ s.writes, (s.phase k).Wrote) (hs : RegistryStep s l s') :
    ∀ k ∈ s'.writes, (s'.phase k).Wrote := by
  -- a step that writes nothing, by a call that keeps what it wrote
  have hgoto : ∀ (j : Nat) (φ : Phase), ((s.phase j).Wrote → φ.Wrote) →
      ∀ k ∈ s.writes, (Function.update s.phase j φ k).Wrote := by
    intro j φ hφ k hk
    by_cases hkj : k = j
    · rw [hkj, Function.update_self]
      exact hφ (hkj ▸ h k hk)
    · rw [Function.update_of_ne hkj]
      exact h k hk
  -- a step that writes, which ends in a phase that has
  have hwrite : ∀ (j : Nat) (φ : Phase), φ.Wrote →
      ∀ k ∈ s.writes ++ [j], (Function.update s.phase j φ k).Wrote := by
    intro j φ hφ k hk
    rcases List.mem_append.mp hk with hk | hk
    · exact hgoto j φ (fun _ => hφ) k hk
    · rw [List.mem_singleton.mp hk, Function.update_self]
      exact hφ
  cases hs with
  | reject hp hsize => exact hgoto _ _ fun hw => by rw [hp] at hw; exact hw
  | register hp hsize => exact hgoto _ _ fun hw => by rw [hp] at hw; exact hw
  | testSet hp hset => exact hgoto _ _ fun hw => by rw [hp] at hw; exact hw
  | testClear hp hclear => exact hgoto _ _ fun hw => by rw [hp] at hw; exact hw
  | endOfScan hp => exact hgoto _ _ fun hw => by rw [hp] at hw; exact hw
  | allocDapp hp => exact hgoto _ _ fun hw => by rw [hp] at hw; exact hw
  | allocDappFails hp => exact hgoto _ _ fun hw => by rw [hp] at hw; exact hw
  | alloc hp hready => exact hgoto _ _ fun hw => by rw [hp] at hw; exact hw
  | allocFails hp hready => exact hgoto _ _ fun hw => by rw [hp] at hw; exact hw
  | store hp => exact hwrite _ _ trivial
  | ret hp => exact hgoto _ _ fun _ => trivial
  | release hp => exact hgoto _ _ fun hw => by rw [hp] at hw; exact hw
  | deregister hp => exact hgoto _ _ fun _ => trivial
  | free hp => exact hgoto _ _ fun _ => trivial
  | clear hp => exact hwrite _ _ trivial
  | reset hp => exact hgoto _ _ fun _ => trivial

/-- A registration fails for good in one access, which clears its bit and does
    not touch the array. -/
theorem failed_step {s s' : Registry} {l : Access} (hs : RegistryStep s l s') {k : Nat}
    {id : AppId} (hbefore : s.phase k ≠ .failed id) (hafter : s'.phase k = .failed id) :
    id ∉ s'.bitmap ∧ s'.ctx = s.ctx := by
  -- the phase reached by the stepping call, or no change at all
  have hgoto : ∀ (j : Nat) (φ : Phase), Function.update s.phase j φ k = .failed id →
      φ = .failed id := by
    intro j φ hφ
    by_cases hkj : k = j
    · rwa [hkj, Function.update_self] at hφ
    · rw [Function.update_of_ne hkj] at hφ
      exact absurd hφ hbefore
  cases hs with
  | @release j i hp =>
      obtain rfl := Phase.failed.inj (hgoto j _ hafter)
      exact ⟨Finset.notMem_erase _ _, rfl⟩
  | reject | register | testSet | testClear | endOfScan | allocDapp | allocDappFails | alloc
  | allocFails | store | ret | deregister | free | clear | reset =>
      exact absurd (hgoto _ _ hafter) (by simp)

/-! ## What a scan has seen -/

/-- The call tested bit `j` and found it set. -/
def FoundSet (tr : List (Registry × Access)) (k j : Nat) : Prop :=
  ∃ x ∈ tr, x.2 = .test k ∧ x.1.phase k = .scanning j
    ∧ ∃ i ∈ x.1.bitmap, i.val = j

/-- How far a call has got with the scan. -/
def Phase.scanned : Phase → Nat
  | .scanning i => i
  | .noId => 128
  | _ => 0

/-- **A SCAN GOES PAST SET BITS ONLY.** -/
theorem found_set_run {tr : List (Registry × Access)} {s : Registry}
    (h : Run RegistryStep Registry.init tr s) (k : Nat) :
    ∀ j, j < (s.phase k).scanned → FoundSet tr k j := by
  induction h with
  | start => exact fun j hj => absurd hj (Nat.not_lt_zero j)
  | @next tr s l s' hrun hs ih =>
      have hkeep : ∀ j, FoundSet tr k j → FoundSet (tr ++ [(s, l)]) k j :=
        fun j ⟨x, hx, hrest⟩ => ⟨x, List.mem_append_left _ hx, hrest⟩
      -- a step that takes a call no further in the scan
      have hgoto : ∀ (n : Nat) (φ : Phase), φ.scanned ≤ (s.phase n).scanned →
          ∀ j, j < (Function.update s.phase n φ k).scanned →
            FoundSet (tr ++ [(s, l)]) k j := by
        intro n φ hφ j hj
        by_cases hkn : k = n
        · subst hkn
          rw [Function.update_self] at hj
          exact hkeep j (ih j (Nat.lt_of_lt_of_le hj hφ))
        · rw [Function.update_of_ne hkn] at hj
          exact hkeep j (ih j hj)
      cases hs with
      | @testSet n i hp hset =>
          intro j hj
          by_cases hkn : k = n
          · subst hkn
            replace hj : j < (Function.update s.phase k (.scanning (i.val + 1)) k).scanned := hj
            rw [Function.update_self] at hj
            rcases Nat.lt_succ_iff_lt_or_eq.mp hj with hlt | rfl
            · exact hkeep j (ih j (by rw [hp]; exact hlt))
            · exact ⟨_, List.mem_append_right _ (List.mem_singleton.mpr rfl), rfl, hp,
                i, hset, rfl⟩
          · replace hj : j < (Function.update s.phase n (.scanning (i.val + 1)) k).scanned := hj
            rw [Function.update_of_ne hkn] at hj
            exact hkeep j (ih j hj)
      | endOfScan hp => exact hgoto _ _ (by rw [hp]; exact Nat.le_refl _)
      | reject | register | testClear | allocDapp | allocDappFails | alloc | allocFails
      | store | ret | release | deregister | free | clear | reset =>
          exact hgoto _ _ (Nat.zero_le _)

/-! ## The guarantees of the registry -/

/-- **REGISTRATIONS ARE ISOLATED.**  Along every interleaving: no two calls own
    one id, so no two live apps do; a live app's slot holds its own context; a
    failed registration never wrote to the array, and its bit is clear or
    belongs to another call; the access it failed with cleared the bit and left
    the array; and a registration that found no id had found each bit set. -/
theorem registrations_isolated {tr : List (Registry × Access)} {s : Registry}
    (h : Run RegistryStep Registry.init tr s) :
    (∀ k j id, (s.phase k).owns = some id → (s.phase j).owns = some id → k = j)
    ∧ (∀ k id p, s.phase k = .live id p → s.ctx id = some p)
    ∧ (∀ k id, s.phase k = .failed id → k ∉ s.writes
        ∧ (id ∈ s.bitmap → ∃ j, j ≠ k ∧ (s.phase j).owns = some id))
    ∧ (∀ l s' k id, RegistryStep s l s' → s.phase k ≠ .failed id →
        s'.phase k = .failed id → id ∉ s'.bitmap ∧ s'.ctx = s.ctx)
    ∧ (∀ k, s.phase k = .noId → k ∉ s.writes ∧ ∀ i : AppId, FoundSet tr k i.val) := by
  have hinv := Registry.inv_run h
  have hwrote : ∀ k ∈ s.writes, (s.phase k).Wrote :=
    h.invariant (P := fun s => ∀ k ∈ s.writes, (s.phase k).Wrote)
      (fun _ hk => (List.not_mem_nil hk).elim) wrote_step
  refine ⟨hinv.unique, ?_, ?_, fun l s' k id hs => failed_step hs, ?_⟩
  · intro k id p hk
    exact (hinv.stored id p).mpr ⟨k, congrArg Phase.slot hk⟩
  · intro k id hk
    constructor
    · intro hw
      have hno := hwrote k hw
      rw [hk] at hno
      exact hno
    · intro hid
      obtain ⟨j, hj⟩ := (hinv.owner id).mp hid
      refine ⟨j, ?_, hj⟩
      rintro rfl
      rw [Registry.owns, hk] at hj
      exact nomatch hj
  · intro k hk
    constructor
    · intro hw
      have hno := hwrote k hw
      rw [hk] at hno
      exact hno
    · intro i
      refine found_set_run h k i.val ?_
      rw [hk]
      exact i.isLt

/-! ## One call alone -/

/-- Where the scan of call `k` ends, given the first clear bit. -/
def Registry.endScan (s : Registry) (k : Nat) : Option AppId → Registry
  | none => s.goto k .noId
  | some i => { s.goto k (.reserved i) with bitmap := insert i s.bitmap }

/-- The scan from bit `i` on, with `n` bits left and no other call in between. -/
theorem scan_run (k n : Nat) : ∀ (i : Nat), i + n = 128 → ∀ s : Registry,
    s.phase k = .scanning i → ∃ tr, Run RegistryStep s tr
      (s.endScan k (((List.finRange 128).drop i).find? (· ∉ s.bitmap))) := by
  induction n with
  | zero =>
      intro i hi s hs
      obtain rfl : i = 128 := hi
      rw [List.drop_of_length_le (Nat.le_of_eq List.length_finRange)]
      exact ⟨_, Run.start.next (.endOfScan hs)⟩
  | succ n ih =>
      intro i hi s hs
      have hlt : i < (List.finRange 128).length := by
        rw [List.length_finRange]
        omega
      rw [List.drop_eq_getElem_cons hlt, List.getElem_finRange]
      by_cases hbit : Fin.cast List.length_finRange ⟨i, hlt⟩ ∈ s.bitmap
      · rw [List.find?_cons_of_neg (by simpa using hbit)]
        have hstep : RegistryStep s (.test k) (s.goto k (.scanning (i + 1))) :=
          RegistryStep.testSet (i := Fin.cast List.length_finRange ⟨i, hlt⟩) hs hbit
        obtain ⟨tr, hrun⟩ := ih (i + 1) (by omega) (s.goto k (.scanning (i + 1)))
          (Function.update_self ..)
        have hidem : (s.goto k (.scanning (i + 1))).endScan k = s.endScan k := by
          funext o
          cases o with
          | none => simp only [Registry.endScan, Registry.goto, Function.update_idem]
          | some j => simp only [Registry.endScan, Registry.goto, Function.update_idem]
        rw [hidem] at hrun
        exact ⟨_, (Run.start.next hstep).trans hrun⟩
      · rw [List.find?_cons_of_pos (by simpa using hbit)]
        exact ⟨_, Run.start.next (.testClear hs hbit)⟩

/-- The whole scan is `reserveNewApp`. -/
theorem reserveNewApp_run {s : Registry} {k : Nat} (hs : s.phase k = .scanning 0) :
    ∃ tr, Run RegistryStep s tr
      (match reserveNewApp s.bitmap with
        | none => s.goto k .noId
        | some (i, bitmap) => { s.goto k (.reserved i) with bitmap := bitmap }) := by
  obtain ⟨tr, hrun⟩ := scan_run k 128 0 rfl s hs
  refine ⟨tr, ?_⟩
  rw [List.drop_zero] at hrun
  unfold reserveNewApp
  cases hfind : (List.finRange 128).find? (· ∉ s.bitmap) with
  | none => rwa [hfind] at hrun
  | some i => rwa [hfind] at hrun

/-- An app registers while nobody else does. -/
theorem registrations_isolated_first_app :
    ∃ tr s, Run RegistryStep Registry.init tr s ∧ s.phase 0 = .live 0 7
      ∧ s.ctx 0 = some 7 := by
  have hscan := (Run.start.next (RegistryStep.register (s := Registry.init) (k := 0) rfl
    (Nat.zero_le _))).next (RegistryStep.testClear (k := 0) (i := 0) rfl
    (Finset.notMem_empty 0))
  have hbuilt := ((((hscan.next (RegistryStep.allocDapp (k := 0) (p := 7) rfl)).next
    (RegistryStep.alloc (k := 0) rfl nofun)).next
    (RegistryStep.alloc (k := 0) rfl nofun)).next
    (RegistryStep.alloc (k := 0) rfl nofun)).next
    (RegistryStep.alloc (k := 0) rfl nofun)
  have hrun := (hbuilt.next (RegistryStep.store (k := 0) rfl)).next
    (RegistryStep.ret (k := 0) rfl)
  exact ⟨_, _, hrun, rfl, (registrations_isolated hrun).2.1 0 0 7 rfl⟩

end JrtcAppRegistry
