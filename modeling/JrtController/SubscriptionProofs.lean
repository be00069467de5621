import JrtController.ForwardMsgsProofs

/-! # Subscriptions outlive their app

    App ids are recycled: an app that leaves gives its id back, and the next
    registration takes it.  The bits of the request table are indexed by app id,
    and `jrtc_router_deregister_app` does not look at them.

    * `Standing` — an app registered under an id made a request and has not
      withdrawn it, by the history of its own registration;
    * `owned_iff_unsubscribed` — on every run the table holds standing requests
      only, and messages go only to apps that asked for them, iff every app that
      leaves has withdrawn its requests first. -/

namespace JrtcSubscription

open JrtcStreamId JrtcRouterLookup JrtcReqTable JrtcAppQueue JrtcRouter JrtcForward Runs

/-- The registration that last took the id made the request, and its most recent
    operation on it was not a deregistration. -/
def Standing (w : World) (a : AppId) (r : StreamId) : Prop :=
  lastFor (w.serial a, r) w.log = some .register

/-- A bit of the request table belongs to the app registered under its index. -/
def OwnBits (w : World) : Prop :=
  ∀ a r, a ∈ subscribers w.router.reqs r →
    (∃ dapp, w.router.ctx a = some dapp) ∧ Standing w a r

/-- A message reaches an app's ring only for a request the app itself made. -/
def OwnDeliveries (w : World) : Prop :=
  ∀ sid bufs a, ringOf (forwardMsgs true w.router sid bufs) a ≠ ringOf w.router a →
    ∃ r, Matches r sid ∧ Standing w a r

def Owned (w : World) : Prop := OwnBits w ∧ OwnDeliveries w

/-- An app that leaves has withdrawn every request it made. -/
def Unsubscribed (w : World) (l : RouterCall) : Prop :=
  ∀ a, l = .deregisterApp a → ∀ r, ¬ Standing w a r

theorem OwnBits.deliveries {w : World} (h : OwnBits w) : OwnDeliveries w := by
  intro sid bufs a hne
  have ha : a ∈ lookupResult w.router.reqs sid := by
    by_contra ha
    exact hne (ringOf_forwardMsgs w.router sid bufs ha)
  obtain ⟨r, hm, hsub⟩ := (mem_lookupResult _ _ _).mp ha
  exact ⟨r, hm, (h a r hsub).2⟩

-- ── What a request call does to the table and to the history ──────────────────

section

variable {w : World} {a b : AppId}

/-- Registered apps are told apart by their serial numbers. -/
theorem serial_key_eq (h : w.Inv) (ha : a ∈ w.router.appBitmap)
    (hb : b ∈ w.router.appBitmap) {r r' : StreamId} :
    (w.serial a, r) = (w.serial b, r') ↔ b = a ∧ r' = r := by
  rw [Prod.mk.injEq]
  constructor
  · rintro ⟨hs, hr⟩
    exact ⟨(h.serial_inj a ha b hb hs).symm, hr.symm⟩
  · rintro ⟨rfl, rfl⟩
    exact ⟨rfl, rfl⟩

/-- Appending an operation of a registered app to the history. -/
theorem lastFor_log_append (h : w.Inv) (ha : a ∈ w.router.appBitmap)
    (hb : b ∈ w.router.appBitmap) (r r' : StreamId) (op : ReqOp) :
    lastFor (w.serial b, r') (w.log ++ [((w.serial a, r), op)])
      = if b = a ∧ r' = r then some op else lastFor (w.serial b, r') w.log := by
  by_cases hk : b = a ∧ r' = r
  · rw [if_pos hk, hk.1, hk.2, lastFor_append_self]
  · rw [if_neg hk, lastFor_append_ne fun heq => hk ((serial_key_eq h ha hb).mp heq)]

end

/-! ## One step -/

/-- One half of the table's meaning, which no call breaks: a standing request of
    a registered app has its bit. -/
def KeepsStanding (w : World) : Prop :=
  ∀ a ∈ w.router.appBitmap, ∀ r, Standing w a r → a ∈ subscribers w.router.reqs r

/-- The other half, in terms of the registry: a registered id has only the bits of
    its app's standing requests, an id nobody holds has none. -/
theorem ownBits_iff {w : World} (h : w.Inv) : OwnBits w ↔
    (∀ a ∈ w.router.appBitmap, ∀ r, a ∈ subscribers w.router.reqs r → Standing w a r)
    ∧ ∀ a, a ∉ w.router.appBitmap → ∀ r, a ∉ subscribers w.router.reqs r := by
  constructor
  · intro hown
    refine ⟨fun a _ r hsub => (hown a r hsub).2, fun a ha r hsub => ?_⟩
    obtain ⟨⟨dapp, hctx⟩, -⟩ := hown a r hsub
    exact ha (h.registered hctx).1
  · rintro ⟨hlive, hfree⟩ a r hsub
    by_cases ha : a ∈ w.router.appBitmap
    · exact ⟨h.ctx_of_mem ha, hlive a ha r hsub⟩
    · exact absurd hsub (hfree a ha r)

/-- What a step can do to the taken ids, the bits and the standing requests.
    Every property below is read off these cases. -/
inductive Effect (w w' : World) : RouterCall → Prop
  | quiet {l : RouterCall} : (∀ a, l ≠ .deregisterApp a) →
      w'.router.appBitmap = w.router.appBitmap → w'.router.reqs = w.router.reqs →
      (∀ b r, Standing w' b r ↔ Standing w b r) → Effect w w' l
  | joins {l : RouterCall} (a : AppId) : (∀ b, l ≠ .deregisterApp b) →
      a ∉ w.router.appBitmap → w'.router.appBitmap = insert a w.router.appBitmap →
      w'.router.reqs = w.router.reqs → (∀ r, ¬ Standing w' a r) →
      (∀ b ∈ w.router.appBitmap, ∀ r, Standing w' b r ↔ Standing w b r) → Effect w w' l
  | leaves (a : AppId) : a ∈ w.router.appBitmap →
      w'.router.appBitmap = w.router.appBitmap.erase a → w'.router.reqs = w.router.reqs →
      (∀ b r, Standing w' b r ↔ Standing w b r) → Effect w w' (.deregisterApp a)
  | subscribes {l : RouterCall} (a : AppId) (r : StreamId) :
      (∀ b, l ≠ .deregisterApp b) →
      a ∈ w.router.appBitmap → w'.router.appBitmap = w.router.appBitmap →
      (∀ b r', b ∈ subscribers w'.router.reqs r'
        ↔ (b = a ∧ r' = r) ∨ b ∈ subscribers w.router.reqs r') →
      (∀ b ∈ w.router.appBitmap, ∀ r', Standing w' b r'
        ↔ (b = a ∧ r' = r) ∨ Standing w b r') → Effect w w' l
  | unsubscribes {l : RouterCall} (a : AppId) (r : StreamId) :
      (∀ b, l ≠ .deregisterApp b) →
      a ∈ w.router.appBitmap → w'.router.appBitmap = w.router.appBitmap →
      (∀ b r', b ∈ subscribers w'.router.reqs r'
        ↔ b ∈ subscribers w.router.reqs r' ∧ ¬ (b = a ∧ r' = r)) →
      (∀ b ∈ w.router.appBitmap, ∀ r', Standing w' b r'
        ↔ Standing w b r' ∧ ¬ (b = a ∧ r' = r)) → Effect w w' l

theorem effect_registerApp {w : World} (h : w.Inv) (appQueueSize : Nat) (al : AppAlloc) :
    Effect w (w.registered (registerApp w.router appQueueSize al))
      (.registerApp appQueueSize al) := by
  rcases registerApp_cases w.router appQueueSize al with heq | ⟨a, hsize, ha, heq⟩
  · rw [heq]
    exact .quiet (fun _ => nofun) rfl rfl fun _ _ => Iff.rfl
  · rw [heq]
    refine .joins a (fun _ => nofun) ha rfl rfl ?_ ?_
    · intro r hst
      -- nothing is recorded under the serial number of the new registration
      have hnone : lastFor (w.nextSerial, r) w.log = none :=
        lastFor_eq_none fun x hx hk =>
          Nat.ne_of_lt (h.log_lt x hx) (congrArg Prod.fst hk)
      replace hst : lastFor (Function.update w.serial a w.nextSerial a, r) w.log
        = some .register := hst
      rw [Function.update_self, hnone] at hst
      exact nomatch hst
    · intro b hb r
      have hba : b ≠ a := fun hba => ha (hba ▸ hb)
      show lastFor (Function.update w.serial a w.nextSerial b, r) w.log = _ ↔ _
      rw [Function.update_of_ne hba]
      exact Iff.rfl

theorem effect_step {w w' : World} {l : RouterCall} (h : w.Inv)
    (hs : RouterStep w l w') : Effect w w' l := by
  cases hs with
  | @registerApp appQueueSize al => exact effect_registerApp h appQueueSize al
  | @deregisterApp a dapp hctx =>
      obtain ⟨ha, rfl⟩ := h.registered hctx
      exact .leaves dapp.appId ha rfl rfl fun _ _ => Iff.rfl
  | @registerReq a dapp r al res reqs hctx hreq =>
      obtain ⟨ha, rfl⟩ := h.registered hctx
      have hbits := mem_subscribers_register hreq
      by_cases hres : res = 1
      · refine .subscribes dapp.appId r (fun _ hl => RouterCall.noConfusion hl) ha rfl ?_ ?_
        · intro b r'
          rw [hbits, and_iff_right hres]
        · intro b hb r'
          simp only [Standing, if_pos hres, lastFor_log_append h ha hb]
          by_cases hk : b = dapp.appId ∧ r' = r
          · simp [hk]
          · simp [hk]
      · refine .quiet (fun _ hl => RouterCall.noConfusion hl) rfl
          (channelRegisterStreamIdReq_failed hreq hres) ?_
        intro b r'
        simp only [Standing, if_neg hres]
  | @deregisterReq a dapp r hctx =>
      obtain ⟨ha, rfl⟩ := h.registered hctx
      refine .unsubscribes dapp.appId r (fun _ hl => RouterCall.noConfusion hl) ha rfl ?_ ?_
      · intro b r'
        rw [mem_subscribers_deregister, checkedAppId_val, Option.some.injEq,
          eq_comm (a := dapp.appId)]
      · intro b hb r'
        simp only [Standing, lastFor_log_append h ha hb]
        by_cases hk : b = dapp.appId ∧ r' = r
        · simp [hk]
        · simp [hk]
  | @forward sid bufs =>
      have hsame := sameRegistry_forwardMsgs true
        { w.router with io := bufs.foldl JbpfIo.arrive w.router.io } sid bufs
      exact .quiet (fun _ hl => RouterCall.noConfusion hl) hsame.appBitmap hsame.reqs
        fun _ _ => Iff.rfl
  | receive hctx hrecv =>
      exact .quiet (fun _ hl => RouterCall.noConfusion hl) rfl rfl fun _ _ => Iff.rfl
  | releaseBuf hheld =>
      exact .quiet (fun _ hl => RouterCall.noConfusion hl) rfl rfl fun _ _ => Iff.rfl

/-- No call clears the bit of a standing request of a registered app. -/
theorem keepsStanding_step {w w' : World} {l : RouterCall} (h : w.Inv)
    (hk : KeepsStanding w) (hs : RouterStep w l w') : KeepsStanding w' := by
  intro b hb r' hst
  cases effect_step h hs with
  | quiet _ hbits hreqs hsame =>
      rw [hreqs]
      exact hk b (hbits ▸ hb) r' ((hsame b r').mp hst)
  | joins a _ ha hbits hreqs hnew hsame =>
      rw [hbits] at hb
      rcases Finset.mem_insert.mp hb with rfl | hb
      · exact absurd hst (hnew r')
      · rw [hreqs]
        exact hk b hb r' ((hsame b hb r').mp hst)
  | leaves a _ hbits hreqs hsame =>
      rw [hreqs]
      exact hk b (Finset.mem_of_mem_erase (hbits ▸ hb)) r' ((hsame b r').mp hst)
  | subscribes a r _ _ hbits hsub hsame =>
      rw [hbits] at hb
      exact (hsub b r').mpr (((hsame b hb r').mp hst).imp_right (hk b hb r'))
  | unsubscribes a r _ _ hbits hsub hsame =>
      rw [hbits] at hb
      exact (hsub b r').mpr (((hsame b hb r').mp hst).imp_left (hk b hb r'))

/-- A call keeps the bits owned, unless an app leaves with standing requests. -/
theorem ownBits_step {w w' : World} {l : RouterCall} (h : w.Inv) (hown : OwnBits w)
    (hC : Unsubscribed w l) (hs : RouterStep w l w') : OwnBits w' := by
  obtain ⟨hlive, hfree⟩ := (ownBits_iff h).mp hown
  refine (ownBits_iff (World.inv_step h hs)).mpr ?_
  cases effect_step h hs with
  | quiet _ hbits hreqs hsame =>
      rw [hbits, hreqs]
      exact ⟨fun b hb r hsub => (hsame b r).mpr (hlive b hb r hsub), hfree⟩
  | joins a _ ha hbits hreqs hnew hsame =>
      rw [hbits, hreqs]
      constructor
      · intro b hb r hsub
        rcases Finset.mem_insert.mp hb with rfl | hb
        · exact absurd hsub (hfree b ha r)
        · exact (hsame b hb r).mpr (hlive b hb r hsub)
      · exact fun b hb => hfree b fun hmem => hb (Finset.mem_insert_of_mem hmem)
  | leaves a ha hbits hreqs hsame =>
      rw [hbits, hreqs]
      constructor
      · exact fun b hb r hsub =>
          (hsame b r).mpr (hlive b (Finset.mem_of_mem_erase hb) r hsub)
      · intro b hb r hsub
        by_cases hba : b = a
        · subst hba
          exact hC b rfl r (hlive b ha r hsub)
        · exact hfree b (fun hmem => hb (Finset.mem_erase.mpr ⟨hba, hmem⟩)) r hsub
  | subscribes a r _ ha hbits hsub hsame =>
      rw [hbits]
      constructor
      · exact fun b hb r' hb' =>
          (hsame b hb r').mpr (((hsub b r').mp hb').imp_right (hlive b hb r'))
      · intro b hb r' hb'
        rcases (hsub b r').mp hb' with ⟨rfl, -⟩ | hold
        · exact hb ha
        · exact hfree b hb r' hold
  | unsubscribes a r _ ha hbits hsub hsame =>
      rw [hbits]
      constructor
      · exact fun b hb r' hb' =>
          (hsame b hb r').mpr (((hsub b r').mp hb').imp_left (hlive b hb r'))
      · exact fun b hb r' hb' => hfree b hb r' ((hsub b r').mp hb').1

/-- An app that leaves with a standing request leaves its bit behind. -/
theorem not_ownBits_step {w w' : World} {l : RouterCall} (h : w.Inv)
    (hk : KeepsStanding w) (hC : ¬ Unsubscribed w l) (hs : RouterStep w l w') :
    ¬ OwnBits w' := by
  intro hown
  obtain ⟨-, hfree⟩ := (ownBits_iff (World.inv_step h hs)).mp hown
  simp only [Unsubscribed, not_forall, not_not] at hC
  obtain ⟨a, rfl, r, hst⟩ := hC
  cases effect_step h hs with
  | quiet hl => exact hl a rfl
  | joins _ hl => exact hl a rfl
  | subscribes _ _ hl => exact hl a rfl
  | unsubscribes _ _ hl => exact hl a rfl
  | leaves _ ha hbits hreqs hsame =>
      refine hfree a ?_ r ?_
      · rw [hbits]
        exact Finset.notMem_erase a _
      · rw [hreqs]
        exact hk a ha r hst

/-! ## Every run -/

/-- **SUBSCRIPTIONS BELONG TO THEIR APP** all along a run, and messages reach only
    apps that asked for them, iff every app that leaves during the run has
    withdrawn its requests first. -/
theorem owned_iff_unsubscribed {tr : List (World × RouterCall)} {w : World}
    (h : Run RouterStep World.init tr w) : Along Owned tr w ↔ Meets Unsubscribed tr := by
  refine h.along_iff_meets (Q := fun w => (w.Inv ∧ KeepsStanding w) ∧ OwnBits w) ?_
    (fun _ hQ => ⟨hQ.2, hQ.2.deliveries⟩) ?_ ?_
  · exact ⟨⟨World.inv_init, fun a ha => (Finset.notMem_empty a ha).elim⟩,
      fun a r hsub => (Finset.notMem_empty a hsub).elim⟩
  · rintro w l w' ⟨⟨hinv, hk⟩, hown⟩ hC hs
    exact ⟨⟨World.inv_step hinv hs, keepsStanding_step hinv hk hs⟩,
      ownBits_step hinv hown hC hs⟩
  · exact fun hQ hC hs hP => not_ownBits_step hQ.1.1 hQ.1.2 hC hs hP.1

/-- An app subscribes, unsubscribes and leaves. -/
theorem owned_after_clean_leave :
    ∃ tr w, Run RouterStep World.init tr w ∧ (∃ x ∈ tr, x.2 = .deregisterApp 0)
      ∧ Along Owned tr w := by
  obtain ⟨tr, w, hrun, hno, hctx, -, hw⟩ :=
    subscribed_run (n := 2) (by decide) (Vector.replicate 16 0)
  have hleave : ∀ w', w'.router.ctx = w.router.ctx → RouterStep w' (.deregisterApp 0) _ :=
    fun w' heq => RouterStep.deregisterApp (heq ▸ hctx)
  have hall := (hrun.next (RouterStep.deregisterReq (r := Vector.replicate 16 0) hctx)).next
    (hleave _ rfl)
  refine ⟨_, _, hall, ⟨_, List.mem_append_right _ (List.mem_singleton.mpr rfl), rfl⟩,
    (owned_iff_unsubscribed hall).mpr ?_⟩
  refine meets_snoc.mpr ⟨meets_snoc.mpr ⟨?_, fun _ => nofun⟩, ?_⟩
  · exact fun x hx a ha => absurd ha (hno x hx a)
  · rintro _ ⟨⟩ r
    simp only [Standing, hw, Function.update_self]
    simp [lastFor]

/-- An app subscribes and leaves; the next app to register holds a subscription
    it never made. -/
theorem recycled_id_inherits_bits :
    ¬ ∀ tr w, Run RouterStep World.init tr w → Owned w := by
  intro h
  obtain ⟨tr, w, hrun, -, hctx, -, hw⟩ :=
    subscribed_run (n := 2) (by decide) (Vector.replicate 16 0)
  have hleft := hrun.next (RouterStep.deregisterApp hctx)
  have hempty : (deregisterApp w.router (some ⟨.fresh 2 (by decide), 0⟩)).appBitmap = ∅ := by
    simp [deregisterApp, releaseApp, hw]
  have hnew : RouterStep _ (.registerApp 2 ⟨true, true, true, true, true⟩) _ :=
    RouterStep.registerApp
      (w := { w with router := deregisterApp w.router (some ⟨.fresh 2 (by decide), 0⟩) })
  rw [registerApp_of_empty hempty (by decide)] at hnew
  have hbits := (h _ _ (hleft.next hnew)).1
  have hown := (hbits 0 (Vector.replicate 16 0) ?_).2
  · simp [Standing, World.registered, hw, lastFor] at hown
  · simp [World.registered, deregisterApp, releaseApp, hw, subscribers_update]

end JrtcSubscription
