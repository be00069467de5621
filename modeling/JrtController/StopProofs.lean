import JrtController.AppTableProofs

/-! # Stopping the controller

    When `jrtc_stop` is posted, `start_jrtc` tells the REST server to stop and walks over
    `app_envs`: every slot that is not `NULL` is unloaded, one after the other, by the main
    thread itself.  Nothing keeps the REST thread from calling `load_app` or `unload_app`
    meanwhile.

    * `MainStep` — the main thread's loop beside the accesses of all threads;
    * `Ok.unload_step` — a step of `unload_app` goes on with it, or ends it with its slot
      empty;
    * `Looping` — what the loop keeps while only the main thread moves;
    * `Looping.progress` — wherever it is, some step brings it nearer to its end;
    * `stop_empties` — it comes to its end and leaves nothing, if the REST thread has no
      call open and makes none. -/

namespace JrtcAppTable

open JrtcController Runs

/-- Where the main thread is in `start_jrtc` after it has loaded the north io app. -/
inductive Stop where
  /-- in `sem_wait`, or before it -/
  | waits
  /-- in the loop, before it reads `app_envs[i]` -/
  | loop (i : Nat)
  /-- in `unload_app(i)` -/
  | calls (i : Slot)
  | stopped

/-- The table with the main thread, which is thread 0. -/
structure Main where
  sys  : Sys
  stop : Stop

def Main.init : Main := ⟨Sys.init, .waits⟩

inductive MainEvent where
  | access (l : Event)
  | signal
  | skip
  | call
  | returns
  | finish

/-- One step.  The main thread loads before it waits, and unloads in its loop only. -/
inductive MainStep : Main → MainEvent → Main → Prop
  | access {m : Main} {l : Event} {s : Sys} :
      Step m.sys l s → (∀ i, l ≠ .unload 0 i) → (∀ req, l = .load 0 req → m.stop = .waits) →
      MainStep m (.access l) { m with sys := s }
  | signal {m : Main} :
      m.stop = .waits → m.sys.pc 0 = .idle → MainStep m .signal { m with stop := .loop 0 }
  | skip {m : Main} {i : Slot} :
      m.stop = .loop i.val → m.sys.appEnvs i = none →
      MainStep m .skip { m with stop := .loop (i.val + 1) }
  | call {m : Main} {i : Slot} {e : EnvId} :
      m.stop = .loop i.val → m.sys.appEnvs i = some e → m.sys.pc 0 = .idle →
      MainStep m .call ⟨m.sys.goto 0 (.read i), .calls i⟩
  | returns {m : Main} {i : Slot} :
      m.stop = .calls i → m.sys.pc 0 = .idle →
      MainStep m .returns { m with stop := .loop (i.val + 1) }
  | finish {m : Main} :
      m.stop = .loop 64 → MainStep m .finish { m with stop := .stopped }

/-- The slot a call of `unload_app` is about. -/
def Pc.unloads : Pc → Option Slot
  | .read i | .exiting _ i | .joining _ i | .closing _ i | .release _ i | .clear _ i => some i
  | _ => none

/-- A step of `unload_app` goes on with it, or ends it with its slot empty. -/
theorem Ok.unload_step {s s' : Sys} {l : Event} {k : Nat} {i : Slot} (h : Ok s)
    (hs : Step s l s') (hl : l.thread = some k) (hk : (s.pc k).unloads = some i) :
    ((s'.pc k).unloads = some i ∨ s'.pc k = .idle ∧ s'.appEnvs i = none)
    ∧ ∀ j, j ≠ i → s'.appEnvs j = s.appEnvs j := by
  cases hs with
  | ends => cases hl
  | @readNone k i' hpc hi =>
      cases hl
      rw [hpc] at hk
      obtain rfl := Option.some.inj hk
      exact ⟨Or.inr ⟨Function.update_self k _ s.pc, hi⟩, fun _ _ => rfl⟩
  | read hpc _ | join hpc _ | free hpc _ | exit hpc | close hpc =>
      cases hl
      rw [hpc] at hk
      exact ⟨Or.inl ((congrArg Pc.unloads (Function.update_self k _ s.pc)).trans hk),
        fun _ _ => rfl⟩
  | @freeNone k e i' hpc hi =>
      have hrole : s.role k = .drops e i' := congrArg Pc.role hpc
      obtain ⟨-, -, hslot⟩ : RoleOk s (.drops e i') := hrole ▸ h.role k
      exact absurd (hslot.symm.trans hi) (Option.some_ne_none e)
  | @clear k e i' hpc =>
      cases hl
      rw [hpc] at hk
      obtain rfl := Option.some.inj hk
      exact ⟨Or.inr ⟨Function.update_self k _ s.pc, Function.update_self i' _ s.appEnvs⟩,
        fun j hj => Function.update_of_ne hj ..⟩
  | load hpc | unload hpc | lookNone hpc _ | look hpc _ | lookEnd hpc _ | compare hpc _
  | callocFails hpc | calloc hpc | test hpc _ | full hpc _ | store hpc | dlopenFails hpc
  | dlopen hpc _ | createFails hpc | create hpc | undoFree hpc _ | undoNone hpc _
  | undoClear hpc | freeAgain hpc =>
      cases hl
      rw [hpc] at hk
      cases hk

/-- A thread that is in no call begins one. -/
theorem Step.of_idle {s s' : Sys} {l : Event} {k : Nat} (hs : Step s l s')
    (hl : l.thread = some k) (hk : s.pc k = .idle) :
    (∃ req, l = .load k req) ∨ ∃ i, l = .unload k i := by
  cases hs with
  | ends => cases hl
  | load => cases hl; exact Or.inl ⟨_, rfl⟩
  | unload => cases hl; exact Or.inr ⟨_, rfl⟩
  | readNone hpc _ | read hpc _ | join hpc _ | free hpc _ | freeNone hpc _ | exit hpc
  | close hpc | clear hpc | lookNone hpc _ | look hpc _ | lookEnd hpc _ | compare hpc _
  | callocFails hpc | calloc hpc | test hpc _ | full hpc _ | store hpc | dlopenFails hpc
  | dlopen hpc _ | createFails hpc | create hpc | undoFree hpc _ | undoNone hpc _
  | undoClear hpc | freeAgain hpc =>
      cases hl
      cases hk.symm.trans hpc

/-- The slots below `n` are empty. -/
def Emptied (s : Sys) (n : Nat) : Prop := ∀ j : Slot, j.val < n → s.appEnvs j = none

/-- What the main thread has done where it is in its loop. -/
def StopOk (s : Sys) : Stop → Prop
  | .waits => False
  | .loop i => s.pc 0 = .idle ∧ i ≤ 64 ∧ Emptied s i
  | .calls i => ((s.pc 0).unloads = some i ∨ s.pc 0 = .idle ∧ s.appEnvs i = none)
      ∧ Emptied s i.val
  | .stopped => s.pc 0 = .idle ∧ Emptied s 64

/-- The main thread is in its loop and nobody else is in a call. -/
structure Looping (m : Main) : Prop where
  ok     : Ok m.sys
  others : ∀ k, k ≠ 0 → m.sys.pc k = .idle
  stop   : StopOk m.sys m.stop

/-- Only the main thread moves, and the apps end. -/
def OnlyMain (_ : Main) : MainEvent → Prop
  | .access l => ∀ k, l.thread = some k → k = 0
  | _ => True

theorem Looping.pc {m : Main} (h : Looping m) (k : Nat) :
    m.sys.pc k = .idle ∨ ∃ i, (m.sys.pc k).unloads = some i := by
  by_cases hk : k = 0
  · rw [hk]
    have hstop := h.stop
    cases hs : m.stop with
    | waits => rw [hs] at hstop; exact hstop.elim
    | loop i => rw [hs] at hstop; exact Or.inl hstop.1
    | calls i =>
        rw [hs] at hstop
        rcases hstop.1 with hcall | hidle
        · exact Or.inr ⟨i, hcall⟩
        · exact Or.inl hidle.1
    | stopped => rw [hs] at hstop; exact Or.inl hstop.1
  · exact Or.inl (h.others k hk)

/-- Nobody loads. -/
theorem Looping.not_loading {m : Main} (h : Looping m) {k : Nat} {pc : Pc}
    (hk : m.sys.pc k = pc) (hidle : pc ≠ .idle) (hun : pc.unloads = none) : False := by
  rcases h.pc k with hpc | ⟨i, hpc⟩
  · exact hidle (hk.symm.trans hpc)
  · rw [hk, hun] at hpc
    cases hpc

theorem Looping.apart {m : Main} {l : Event} {s : Sys} (h : Looping m)
    (hs : Step m.sys l s) (hl : ∀ k, l.thread = some k → k = 0) : Apart m.sys l := by
  refine h.ok.apart (fun k req e i hk => (h.not_loading hk (by simp) rfl).elim)
    ⟨fun k hk j hj => h.others j fun hj0 => hj (hj0.trans (hl k hk).symm), fun k hfull => ?_,
      fun k e i _ hk => h.not_loading hk (by simp) rfl⟩
  subst hfull
  cases hs with
  | full hk _ => exact h.not_loading hk (by simp) rfl

theorem Looping.access {m : Main} {l : Event} {s : Sys} (h : Looping m)
    (hs : Step m.sys l s) (hun : ∀ i, l ≠ .unload 0 i)
    (hload : ∀ req, l = .load 0 req → m.stop = .waits)
    (hl : ∀ k, l.thread = some k → k = 0) : Looping { m with sys := s } := by
  have hok : Ok s := h.ok.step (h.apart hs hl) hs
  cases hthread : l.thread with
  | none =>
      cases hs with
      | ends => exact ⟨hok, h.others, h.stop⟩
      | _ => cases hthread
  | some k =>
      obtain rfl := hl k hthread
      have hstop := h.stop
      have hwait : m.stop ≠ .waits := by
        intro hw
        rw [hw] at hstop
        exact hstop
      -- the main thread makes no call of its own here
      have hbusy : m.sys.pc 0 ≠ .idle := by
        intro hidle
        rcases hs.of_idle hthread hidle with ⟨req, hreq⟩ | ⟨i, hi⟩
        · exact hwait (hload req hreq)
        · exact hun i hi
      refine ⟨hok, fun k hk => (hs.others hthread k hk).trans (h.others k hk), ?_⟩
      show StopOk s m.stop
      cases hm : m.stop with
      | waits => exact absurd hm hwait
      | loop i =>
          rw [hm] at hstop
          exact absurd hstop.1 hbusy
      | stopped =>
          rw [hm] at hstop
          exact absurd hstop.1 hbusy
      | calls i =>
          rw [hm] at hstop
          obtain ⟨hcall | hidle, hdone⟩ := hstop
          · obtain ⟨hnext, hrest⟩ := h.ok.unload_step hs hthread hcall
            refine ⟨hnext, fun j hj => ?_⟩
            have hji : j ≠ i := fun heq => absurd hj (heq ▸ Nat.lt_irrefl _)
            exact (hrest j hji).trans (hdone j hj)
          · exact absurd hidle.1 hbusy

theorem Looping.step {m m' : Main} {l : MainEvent} (h : Looping m) (hC : OnlyMain m l)
    (hs : MainStep m l m') : Looping m' := by
  have hstop := h.stop
  cases hs with
  | access hs hun hload => exact h.access hs hun hload hC
  | signal hw =>
      rw [hw] at hstop
      exact hstop.elim
  | @skip i hloop hnone =>
      rw [hloop] at hstop
      obtain ⟨hidle, -, hdone⟩ := hstop
      refine ⟨h.ok, h.others, hidle, i.isLt, fun j hj => ?_⟩
      rcases Nat.lt_succ_iff_lt_or_eq.mp hj with hlt | heq
      · exact hdone j hlt
      · rw [Fin.ext heq]
        exact hnone
  | @call i e hloop hi hidle =>
      rw [hloop] at hstop
      have hread : (m.sys.goto 0 (.read i)).pc 0 = .read i := Function.update_self 0 _ m.sys.pc
      refine ⟨h.ok.goto_same (by rw [Sys.role, hidle]; rfl), fun k hk => ?_,
        Or.inl (by rw [hread]; rfl), hstop.2.2⟩
      exact (Function.update_of_ne hk ..).trans (h.others k hk)
  | @returns i hcalls hidle =>
      rw [hcalls] at hstop
      obtain ⟨hcall | hnone, hdone⟩ := hstop
      · rw [hidle] at hcall
        cases hcall
      · refine ⟨h.ok, h.others, hidle, i.isLt, fun j hj => ?_⟩
        rcases Nat.lt_succ_iff_lt_or_eq.mp hj with hlt | heq
        · exact hdone j hlt
        · rw [Fin.ext heq]
          exact hnone.2
  | finish hloop =>
      rw [hloop] at hstop
      exact ⟨h.ok, h.others, hstop.1, hstop.2.2⟩

/-- What is left of a call of `unload_app`. -/
def Pc.left (running : EnvId → Bool) : Pc → Nat
  | .read _ => 9
  | .exiting _ _ => 8
  | .joining e _ => if running e then 7 else 6
  | .closing _ _ => 5
  | .release _ _ => 4
  | .clear _ _ => 3
  | _ => 2

/-- What is left of the loop. -/
def Main.left (m : Main) : Nat :=
  match m.stop with
  | .waits | .stopped => 0
  | .loop i => (64 - i) * 10 + 1
  | .calls i => (63 - i.val) * 10 + (m.sys.pc 0).left m.sys.running

/-- A step of the call the main thread is in brings it nearer to its end. -/
theorem Looping.call_step {m : Main} {i : Slot} (h : Looping m) (hm : m.stop = .calls i)
    (hcall : (m.sys.pc 0).unloads = some i) : ∃ l m', MainStep m l m' ∧ OnlyMain m l
      ∧ Looping m' ∧ m'.left < m.left := by
  -- a step of the thread to `pc`
  have hmove : ∀ {l : Event} {s : Sys} (pc : Pc), Step m.sys l s → l.thread = some 0 →
      s.pc = (m.sys.goto 0 pc).pc → s.running = m.sys.running →
      pc.left m.sys.running < (m.sys.pc 0).left m.sys.running →
      ∃ l m', MainStep m l m' ∧ OnlyMain m l ∧ Looping m' ∧ m'.left < m.left := by
    intro l s pc hs hl hpc hrun hlt
    have hidle : m.sys.pc 0 ≠ .idle := by
      intro hidle
      rw [hidle] at hcall
      cases hcall
    have hun : ∀ i, l ≠ .unload 0 i := by
      rintro i rfl
      cases hs with
      | unload hk => exact hidle hk
    have hload : ∀ req, l = .load 0 req → m.stop = .waits := by
      rintro req rfl
      cases hs with
      | load hk => exact absurd hk hidle
    have hthread : ∀ k, l.thread = some k → k = 0 := fun k hk =>
      Option.some.inj (hk.symm.trans hl)
    refine ⟨_, _, MainStep.access hs hun hload, hthread, h.access hs hun hload hthread, ?_⟩
    have hself : s.pc 0 = pc := (congrFun hpc 0).trans (Function.update_self 0 _ m.sys.pc)
    simp only [Main.left, hm, hself, hrun]
    omega
  cases hpc : m.sys.pc 0 with
  | read j =>
      cases hj : m.sys.appEnvs j with
      | none => exact hmove .idle (Step.readNone hpc hj) rfl rfl rfl (by simp [hpc, Pc.left])
      | some e =>
          exact hmove (.exiting e j) (Step.read hpc hj) rfl rfl rfl (by simp [hpc, Pc.left])
  | exiting e j =>
      refine hmove (.joining e j) (Step.exit hpc) rfl rfl rfl ?_
      rw [hpc]
      show (if m.sys.running e then 7 else 6) < 8
      split <;> omega
  | joining e j =>
      cases hrun : m.sys.running e with
      | true =>
          have hthread : ∀ k, (Event.ends e).thread = some k → k = 0 := fun k hk => by cases hk
          refine ⟨_, _, MainStep.access (Step.ends hrun) (by simp) (by simp), hthread,
            h.access (Step.ends hrun) (by simp) (by simp) hthread, ?_⟩
          simp [Main.left, hm, Pc.left, hpc, hrun]
      | false =>
          exact hmove (.closing e j) (Step.join hpc hrun) rfl rfl rfl
            (by simp [hpc, Pc.left, hrun])
  | closing e j => exact hmove (.release e j) (Step.close hpc) rfl rfl rfl (by simp [hpc, Pc.left])
  | release e j =>
      have hrole : m.sys.role 0 = .drops e j := congrArg Pc.role hpc
      obtain ⟨-, -, hslot⟩ : RoleOk m.sys (.drops e j) := hrole ▸ h.ok.role 0
      exact hmove (.clear e j) (Step.free hpc hslot) rfl rfl rfl (by simp [hpc, Pc.left])
  | clear e j => exact hmove .idle (Step.clear hpc) rfl rfl rfl (by simp [hpc, Pc.left])
  | _ =>
      rw [hpc] at hcall
      cases hcall

/-- Wherever the loop is, some step brings it nearer to its end. -/
theorem Looping.progress {m : Main} (h : Looping m) (hne : m.stop ≠ .stopped) :
    ∃ l m', MainStep m l m' ∧ OnlyMain m l ∧ Looping m' ∧ m'.left < m.left := by
  have hnear : ∀ {l : MainEvent} {m' : Main}, MainStep m l m' → OnlyMain m l →
      m'.left < m.left → ∃ l m', MainStep m l m' ∧ OnlyMain m l ∧ Looping m' ∧ m'.left < m.left :=
    fun hs hC hlt => ⟨_, _, hs, hC, h.step hC hs, hlt⟩
  have hstop := h.stop
  cases hm : m.stop with
  | stopped => exact absurd hm hne
  | waits => rw [hm] at hstop; exact hstop.elim
  | loop n =>
      rw [hm] at hstop
      obtain ⟨hidle, hle, -⟩ := hstop
      by_cases hn : n = 64
      · subst hn
        refine hnear (MainStep.finish hm) trivial ?_
        simp [Main.left, hm]
      · have hlt : n < 64 := by omega
        cases hi : m.sys.appEnvs ⟨n, hlt⟩ with
        | none =>
            refine hnear (MainStep.skip (i := ⟨n, hlt⟩) hm hi) trivial ?_
            simp only [Main.left, hm]
            omega
        | some e =>
            refine hnear (MainStep.call (i := ⟨n, hlt⟩) hm hi hidle) trivial ?_
            have hread : (m.sys.goto 0 (.read ⟨n, hlt⟩)).pc 0 = .read ⟨n, hlt⟩ :=
              Function.update_self 0 _ m.sys.pc
            simp only [Main.left, hm, hread, Pc.left]
            omega
  | calls i =>
      rw [hm] at hstop
      rcases hstop.1 with hcall | ⟨hidle, -⟩
      · exact h.call_step hm hcall
      · refine hnear (MainStep.returns hm hidle) trivial ?_
        simp only [Main.left, hm, hidle, Pc.left]
        omega

/-- The accesses of the threads fall apart. -/
def ApartMain (m : Main) : MainEvent → Prop
  | .access l => Apart m.sys l
  | _ => True

theorem ok_of_main {tr : List (Main × MainEvent)} {m : Main} (h : Run MainStep Main.init tr m)
    (hA : Meets ApartMain tr) : Ok m.sys := by
  refine (h.along_of_meets (Q := fun m => Ok m.sys) (C := ApartMain) ok_init ?_ hA).2
  intro m l m' hQ hC hs
  cases hs with
  | access hs => exact hQ.step hC hs
  | call _ _ hidle => exact hQ.goto_same (by rw [Sys.role, hidle]; rfl)
  | signal | skip | returns | finish => exact hQ

/-- **THE STOP LOOP LEAVES NOTHING.**  Let the calls have fallen apart so far, and let no
    call be open when the loop begins.  If from then on only the main thread moves and the
    apps end, the loop can always come to its end, and there no slot is taken, no env is
    allocated and no app runs. -/
theorem stop_empties {tr₀ tr : List (Main × MainEvent)} {m₀ m : Main}
    (h₀ : Run MainStep Main.init tr₀ m₀) (hapart : Meets ApartMain tr₀)
    (hidle : ∀ k, m₀.sys.pc k = .idle) (hbegin : m₀.stop = .loop 0)
    (h : Run MainStep m₀ tr m) (honly : Meets OnlyMain tr) :
    (∃ tr' m', Run MainStep m tr' m' ∧ Meets OnlyMain tr' ∧ m'.stop = .stopped)
    ∧ (m.stop = .stopped → (∀ i, m.sys.appEnvs i = none) ∧ (∀ e, m.sys.mem e = none)
        ∧ ∀ e, m.sys.running e = false) := by
  have hstart : Looping m₀ := by
    refine ⟨ok_of_main h₀ hapart, fun k _ => hidle k, ?_⟩
    rw [hbegin]
    exact ⟨hidle 0, Nat.zero_le _, fun j hj => absurd hj (Nat.not_lt_zero _)⟩
  have hloop : Looping m := (h.along_of_meets hstart (fun hQ hC hs => hQ.step hC hs) honly).2
  constructor
  · obtain ⟨tr', m', hrun, hC, -, hend⟩ := exists_run_of_measure (P := Looping)
      (G := fun m => m.stop = .stopped) (C := OnlyMain) Main.left
      (fun m hP hG => hP.progress hG) hloop
    exact ⟨tr', m', hrun, hC, hend⟩
  · intro hend
    have hstop := hloop.stop
    rw [hend] at hstop
    have hslots : ∀ i, m.sys.appEnvs i = none := fun i => hstop.2 i i.isLt
    have hmem : ∀ e, m.sys.mem e = none := by
      intro e
      by_contra hne
      rcases hloop.ok.kept e hne with ⟨i, hi⟩ | ⟨k, hk⟩
      · exact absurd ((hslots i).symm.trans hi).symm (Option.some_ne_none e)
      · have hpc : m.sys.pc k = .idle := by
          by_cases hk0 : k = 0
          · rw [hk0]
            exact hstop.1
          · exact hloop.others k hk0
        rw [Sys.role, hpc] at hk
        cases hk
    refine ⟨hslots, hmem, fun e => ?_⟩
    by_contra hrun
    exact hloop.ok.apps e (Bool.eq_true_of_not_eq_false hrun) (hmem e)

/-- The north io app is loaded, the controller is stopped, and the loop comes to its end. -/
theorem stop_empties_north_io : ∃ tr m, Run MainStep Main.init tr m ∧ m.stop = .stopped
    ∧ (∀ i, m.sys.appEnvs i = none) ∧ ∀ e, m.sys.mem e = none := by
  obtain ⟨tr, s, hload, halone, -, hidle, hmain⟩ := exists_loaded
  have hok := ok_of_alone hload halone
  have hlift : Run MainStep Main.init (tr.map fun x => (⟨x.1, .waits⟩, .access x.2))
      ⟨s, .waits⟩ :=
    hload.lift (f := fun s => (⟨s, .waits⟩ : Main)) (C := fun _ l => ∀ i, l ≠ .unload 0 i)
      (fun hl hs => MainStep.access hs hl fun _ _ => rfl) hmain
  have hstop : MainStep ⟨s, .waits⟩ .signal ⟨s, .loop 0⟩ := MainStep.signal rfl (hidle 0)
  have hstart := hlift.next hstop
  have hmeets : Meets ApartMain
      ((tr.map fun x => ((⟨x.1, .waits⟩ : Main), MainEvent.access x.2)) ++
        [(⟨s, .waits⟩, .signal)]) := by
    refine meets_snoc.mpr ⟨List.forall_mem_map.mpr fun x hx => ?_, trivial⟩
    exact (hok.1 x hx).1.apart (hok.1 x hx).2 (halone x hx)
  obtain ⟨tr', m, hrun, honly, hend⟩ :=
    (stop_empties hstart hmeets hidle rfl Run.start meets_nil).1
  have hleft := (stop_empties hstart hmeets hidle rfl hrun honly).2 hend
  exact ⟨_, m, hstart.trans hrun, hend, hleft.1, hleft.2.1⟩

end JrtcAppTable
