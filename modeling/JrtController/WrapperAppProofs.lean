import JrtController.RouterLookupProofs
import JrtController.AppQueueProofs
import JrtController.RunProofs

/-! # The C++ and the Python `JrtcApp`

    `jrtc_app.cpp` and `jrtc_app.py` are two translations of one app loop.  Each
    is a machine that waits for the answer to its next call — a clock reading, the
    result of a router call, `app_exit` — and runs on from there to the call after
    it.  Both are given the same answers.

    * `Cpp.step`, `Py.step` — the two programs, from call to call;
    * `Follows` — what the parts that are the same in both languages preserve;
    * `inStep_run` — the programs never wait for different calls, so that one
      sequence of answers is the same sequence for both;
    * `Busy`, `Matched` — the state they share while they agree;
    * `matched_step`, `not_equivalent_step` — one answer keeps the programs
      together under `Agrees`, and tells them apart outside it;
    * `equivalent_iff_agrees` — on every run they make the same handler calls and
      fail to initialise together iff all answers are of that kind. -/

namespace JrtcWrapperApp

open JrtcStreamId JrtcRouterLookup JrtcAppQueue Runs

/-! ## Configurations, calls and answers -/

/-- `JrtcStreamIdCfg_t`. -/
structure StreamIdCfg where
  destination  : Int
  deviceId     : Int
  streamSource : Option String
  ioMap        : Option String
  deriving DecidableEq

/-- `JrtcAppChannelCfg_t`. -/
structure AppChannelCfg where
  isOutput : Bool
  numElems : Int
  elemSize : Int
  deriving DecidableEq

/-- `JrtcStreamCfg_t`. -/
structure StreamCfg where
  sid        : StreamIdCfg
  isRx       : Bool
  appChannel : Option AppChannelCfg
  deriving DecidableEq

/-- `JrtcAppCfg_t`, of which the context is only logged and the sleep timeout
    only passes time. -/
structure AppCfg where
  qSize                     : Int
  streams                   : List StreamCfg
  initializationTimeoutSecs : ℚ
  inactivityTimeoutSecs     : ℚ

/-- A `dapp_channel_ctx_t` that is not `NULL`. -/
abbrev ChanCtx := Nat

/-- `StreamItem`. -/
structure StreamItem where
  sid        : StreamId
  registered : Bool
  chanCtx    : Option ChanCtx
  deriving DecidableEq

/-- The calls of an app that have an effect. -/
inductive Event where
  | appHandler (timeout : Bool) (streamIdx : Int) (entry : Option DataEntry)
  | channelCreate (cfg : AppChannelCfg) (sid : StreamId) (res : Option ChanCtx)
  | registerReq (sid : StreamId) (res : Int)
  | releaseBuf (data : BufPtr)
  | deregisterReq (sid : StreamId)
  | channelDestroy (chan : ChanCtx)
  deriving DecidableEq

/-- What a call returns to the app. -/
inductive Answer where
  | clock (t : ℚ)
  | generated (res : Int) (sid : StreamId)
  | created (chan : Option ChanCtx)
  | registered (res : Int)
  | channelExists (res : Int)
  | appExit (flag : Bool)
  | received (batch : List DataEntry)

/-- The call an app waits for, with the local variables it needs afterwards. -/
inductive Phase where
  /-- the first clock reading of the initialisation -/
  | start
  | generate (s : StreamCfg) (rest : List StreamCfg)
  | create (cfg : AppChannelCfg) (s : StreamCfg) (si : StreamItem) (rest : List StreamCfg)
  | register (si : StreamItem) (rest : List StreamCfg)
  /-- the clock reading after a stream was initialised -/
  | initCheck (rest : List StreamCfg)
  | channelExists (si : StreamItem) (rest : List (StreamCfg × StreamItem))
  /-- the clock reading after a channel was not there yet -/
  | waitCheck (si : StreamItem) (rest : List (StreamCfg × StreamItem))
  /-- the test of `app_exit` -/
  | loop
  /-- the clock reading `now` -/
  | now
  | receive
  /-- the clock reading after an entry was handled -/
  | stamp (rest : List DataEntry)
  | returned
  /-- an exception has left the program -/
  | raised

/-- The answers to the call an app waits for. -/
inductive Awaits : Phase → Answer → Prop
  | start (t : ℚ) : Awaits .start (.clock t)
  | generate (s : StreamCfg) (rest : List StreamCfg) (res : Int) (sid : StreamId) :
      Awaits (.generate s rest) (.generated res sid)
  | create (cfg : AppChannelCfg) (s : StreamCfg) (si : StreamItem)
      (rest : List StreamCfg) (chan : Option ChanCtx) :
      Awaits (.create cfg s si rest) (.created chan)
  | register (si : StreamItem) (rest : List StreamCfg) (res : Int) :
      Awaits (.register si rest) (.registered res)
  | initCheck (rest : List StreamCfg) (t : ℚ) : Awaits (.initCheck rest) (.clock t)
  | channelExists (si : StreamItem) (rest : List (StreamCfg × StreamItem)) (res : Int) :
      Awaits (.channelExists si rest) (.channelExists res)
  | waitCheck (si : StreamItem) (rest : List (StreamCfg × StreamItem)) (t : ℚ) :
      Awaits (.waitCheck si rest) (.clock t)
  | loop (flag : Bool) : Awaits .loop (.appExit flag)
  | now (t : ℚ) : Awaits .now (.clock t)
  | receive (batch : List DataEntry) : Awaits .receive (.received batch)
  | stamp (rest : List DataEntry) (t : ℚ) : Awaits (.stamp rest) (.clock t)

/-- The least index of a stream for reception whose request the id matches. -/
def findStream (streams : List StreamCfg) (items : List StreamItem) (sid : StreamId) :
    Option Nat :=
  (streams.zip items).findIdx? fun x => x.1.isRx && matchesReq sid x.2.sid

/-- The calls of a clean-up, stream by stream. -/
def cleanUpCalls (items : List StreamItem) : List Event :=
  items.flatMap fun si =>
    (if si.registered then [.deregisterReq si.sid] else [])
      ++ (match si.chanCtx with
          | some chan => [.channelDestroy chan]
          | none => [])

/-! ## The C++ program -/

/-- The members of the C++ `JrtcApp`, and `start_time` of `Init`. -/
structure Cpp where
  phase            : Phase
  startTime        : ℚ
  lastReceivedTime : ℚ
  streamItems      : List StreamItem
  /-- what `Init` returned -/
  initResult       : Option Int
  log              : List Event

/-- `duration_cast<seconds>`: towards zero. -/
def truncSeconds (d : ℚ) : Int := d.num.tdiv d.den

namespace Cpp

/-- The constructor, with its clock reading. -/
def construct (t : ℚ) : Cpp := ⟨.start, t, t, [], none, []⟩

def emit (s : Cpp) (e : Event) : Cpp := { s with log := s.log ++ [e] }

def cleanUp (s : Cpp) : Cpp := { s with log := s.log ++ cleanUpCalls s.streamItems }

/-- `run`, from the return of `Init`.  A vector of negative size throws. -/
def initReturns (cfg : AppCfg) (s : Cpp) (res : Int) : Cpp :=
  let s := { s with initResult := some res }
  if res = 0 then
    if cfg.qSize < 0 then { s with phase := .raised } else { s with phase := .loop }
  else { s.cleanUp with phase := .returned }

/-- The second loop of `Init`, over the streams that are left. -/
def waitStream (cfg : AppCfg) (s : Cpp) : List (StreamCfg × StreamItem) → Cpp
  | [] => s.initReturns cfg 0
  | (st, si) :: rest =>
      if !st.isRx && si.chanCtx.isNone then { s with phase := .channelExists si rest }
      else s.waitStream cfg rest

/-- The first loop of `Init`. -/
def initStream (cfg : AppCfg) (s : Cpp) : List StreamCfg → Cpp
  | [] => s.waitStream cfg (cfg.streams.zip s.streamItems)
  | st :: rest => { s with phase := .generate st rest }

/-- The end of the body of the first loop. -/
def pushItem (cfg : AppCfg) (s : Cpp) (si : StreamItem) (rest : List StreamCfg) : Cpp :=
  let s := { s with streamItems := s.streamItems ++ [si] }
  if cfg.initializationTimeoutSecs > 0 then { s with phase := .initCheck rest }
  else s.initStream cfg rest

/-- The body of the first loop, from the registration on. -/
def registerStream (cfg : AppCfg) (s : Cpp) (st : StreamCfg) (si : StreamItem)
    (rest : List StreamCfg) : Cpp :=
  if st.isRx && !si.registered then { s with phase := .register si rest }
  else s.pushItem cfg si rest

/-- The loop over the received entries, up to the clock reading of the next. -/
def dispatch (cfg : AppCfg) (s : Cpp) : List DataEntry → Cpp
  | [] => { s with phase := .loop }
  | e :: rest =>
      let s := match findStream cfg.streams s.streamItems e.streamId with
        | some i => s.emit (.appHandler false i (some e))
        | none => s
      { s.emit (.releaseBuf e.data) with phase := .stamp rest }

/-- `JrtcApp::Init` and `JrtcApp::run`, from the answer to one call to the next call. -/
def resume (cfg : AppCfg) (s : Cpp) : Phase → Answer → Cpp
  | .start, .clock t =>
      { s with startTime := t, lastReceivedTime := t }.initStream cfg cfg.streams
  | .generate st rest, .generated res sid =>
      if res ≠ 1 then s.initReturns cfg (-1)
      else match st.appChannel with
        | some ch => { s with phase := .create ch st ⟨sid, false, none⟩ rest }
        | none => s.registerStream cfg st ⟨sid, false, none⟩ rest
  | .create ch st si rest, .created chan =>
      let s := s.emit (.channelCreate ch si.sid chan)
      if chan = none then s.initReturns cfg (-1)
      else s.registerStream cfg st { si with chanCtx := chan } rest
  | .register si rest, .registered res =>
      let s := s.emit (.registerReq si.sid res)
      if res ≠ 1 then s.initReturns cfg (-1)
      else s.pushItem cfg { si with registered := true } rest
  | .initCheck rest, .clock t =>
      if truncSeconds (t - s.startTime) > cfg.initializationTimeoutSecs then
        s.initReturns cfg (-1)
      else s.initStream cfg rest
  | .channelExists si rest, .channelExists res =>
      if res ≠ 0 then s.waitStream cfg rest
      else if cfg.initializationTimeoutSecs > 0 then
        { s with phase := .waitCheck si rest }
      else { s with phase := .channelExists si rest }
  | .waitCheck si rest, .clock t =>
      if truncSeconds (t - s.startTime) > cfg.initializationTimeoutSecs then
        s.initReturns cfg (-1)
      else { s with phase := .channelExists si rest }
  | .loop, .appExit flag =>
      if flag then { s.cleanUp with phase := .returned } else { s with phase := .now }
  | .now, .clock t =>
      let s := if cfg.inactivityTimeoutSecs > 0
            ∧ t - s.lastReceivedTime > cfg.inactivityTimeoutSecs then
          { s.emit (.appHandler true (-1) none) with lastReceivedTime := t }
        else s
      { s with phase := .receive }
  | .receive, .received batch => s.dispatch cfg batch
  | .stamp rest, .clock t => { s with lastReceivedTime := t }.dispatch cfg rest
  | _, _ => s

def step (cfg : AppCfg) (s : Cpp) (a : Answer) : Cpp := s.resume cfg s.phase a

end Cpp

/-! ## The Python program -/

/-- The attributes of the Python `JrtcApp`, and `start_time` of `init`. -/
structure Py where
  phase                : Phase
  startTime            : ℚ
  /-- `self.data.last_received_time` -/
  dataLastReceivedTime : ℚ
  /-- `self.last_received_time`, which nothing reads -/
  lastReceivedTime     : Option ℚ
  streamItems          : List StreamItem
  /-- what `init` returned -/
  initResult           : Option Int
  log                  : List Event

namespace Py

/-- The constructor, with its clock reading. -/
def construct (t : ℚ) : Py := ⟨.start, t, t, none, [], none, []⟩

def emit (s : Py) (e : Event) : Py := { s with log := s.log ++ [e] }

/-- `run`, from the return of `init`.  An array of negative size raises. -/
def initReturns (cfg : AppCfg) (s : Py) (res : Int) : Py :=
  let s := { s with initResult := some res }
  if res ≠ 0 then { s with phase := .returned }
  else if cfg.qSize < 0 then { s with phase := .raised }
  else { s with phase := .loop }

/-- The second loop of `init`, over the streams that are left. -/
def waitStream (cfg : AppCfg) (s : Py) : List (StreamCfg × StreamItem) → Py
  | [] => s.initReturns cfg 0
  | (st, si) :: rest =>
      if !st.isRx && si.chanCtx.isNone then { s with phase := .channelExists si rest }
      else s.waitStream cfg rest

/-- The first loop of `init`. -/
def initStream (cfg : AppCfg) (s : Py) : List StreamCfg → Py
  | [] => s.waitStream cfg (cfg.streams.zip s.streamItems)
  | st :: rest => { s with phase := .generate st rest }

/-- The end of the body of the first loop. -/
def pushItem (cfg : AppCfg) (s : Py) (si : StreamItem) (rest : List StreamCfg) : Py :=
  let s := { s with streamItems := s.streamItems ++ [si] }
  if cfg.initializationTimeoutSecs > 0 then { s with phase := .initCheck rest }
  else s.initStream cfg rest

/-- The body of the first loop, from the registration on. -/
def registerStream (cfg : AppCfg) (s : Py) (st : StreamCfg) (si : StreamItem)
    (rest : List StreamCfg) : Py :=
  if st.isRx && !si.registered then { s with phase := .register si rest }
  else s.pushItem cfg si rest

/-- The loop over the received entries, up to the clock reading of the next.  An
    entry is a structure, so `not data_entry` is false. -/
def dispatch (cfg : AppCfg) (s : Py) : List DataEntry → Py
  | [] => { s with phase := .loop }
  | e :: rest =>
      let s := match findStream cfg.streams s.streamItems e.streamId with
        | some i => s.emit (.appHandler false i (some e))
        | none => s
      { s.emit (.releaseBuf e.data) with phase := .stamp rest }

/-- `JrtcApp.init` and `JrtcApp.run`, from the answer to one call to the next call. -/
def resume (cfg : AppCfg) (s : Py) : Phase → Answer → Py
  | .start, .clock t =>
      { s with startTime := t, lastReceivedTime := some t }.initStream cfg cfg.streams
  | .generate st rest, .generated res sid =>
      -- `generate_id` raises before its result can be tested
      if res ≠ 1 then { s with phase := .raised }
      else match st.appChannel with
        | some ch => { s with phase := .create ch st ⟨sid, false, none⟩ rest }
        | none => s.registerStream cfg st ⟨sid, false, none⟩ rest
  | .create ch st si rest, .created chan =>
      let s := s.emit (.channelCreate ch si.sid chan)
      if chan = none then s.initReturns cfg (-1)
      else s.registerStream cfg st { si with chanCtx := chan } rest
  | .register si rest, .registered res =>
      let s := s.emit (.registerReq si.sid res)
      -- `not res`, so a negative result passes
      if res = 0 then s.initReturns cfg (-1)
      else s.pushItem cfg { si with registered := true } rest
  | .initCheck rest, .clock t =>
      if t - s.startTime > cfg.initializationTimeoutSecs then s.initReturns cfg (-1)
      else s.initStream cfg rest
  | .channelExists si rest, .channelExists res =>
      if res ≠ 0 then s.waitStream cfg rest
      else if cfg.initializationTimeoutSecs > 0 then
        { s with phase := .waitCheck si rest }
      else { s with phase := .channelExists si rest }
  | .waitCheck si rest, .clock t =>
      if t - s.startTime > cfg.initializationTimeoutSecs then s.initReturns cfg (-1)
      else { s with phase := .channelExists si rest }
  | .loop, .appExit flag =>
      if flag then { s with phase := .returned } else { s with phase := .now }
  | .now, .clock t =>
      let s := if cfg.inactivityTimeoutSecs > 0
            ∧ t - s.dataLastReceivedTime > cfg.inactivityTimeoutSecs then
          { s.emit (.appHandler true (-1) none) with lastReceivedTime := some t }
        else s
      { s with phase := .receive }
  | .receive, .received batch => s.dispatch cfg batch
  | .stamp rest, .clock t => { s with dataLastReceivedTime := t }.dispatch cfg rest
  | _, _ => s

def step (cfg : AppCfg) (s : Py) (a : Answer) : Py := s.resume cfg s.phase a

end Py

/-! ## Both programs on the same answers -/

/-- The two programs, and the last clock reading. -/
structure Pair where
  cpp   : Cpp
  py    : Py
  clock : ℚ

def Pair.construct (t : ℚ) : Pair := ⟨.construct t, .construct t, t⟩

/-- The last clock reading after an answer. -/
def Answer.clockAfter (t : ℚ) : Answer → ℚ
  | .clock t' => t'
  | _ => t

/-- Both programs are given the next answer, which at least one of them waits for;
    a program that has ended ignores it.  The clock does not go back. -/
inductive PairStep (cfg : AppCfg) : Pair → Answer → Pair → Prop
  | answer {w : Pair} {a : Answer} :
      Awaits w.cpp.phase a ∨ Awaits w.py.phase a → w.clock ≤ a.clockAfter w.clock →
      PairStep cfg w a ⟨w.cpp.step cfg a, w.py.step cfg a, a.clockAfter w.clock⟩

/-- The handler calls among the calls of an app. -/
def handlerCalls (log : List Event) : List (Bool × Int × Option DataEntry) :=
  log.filterMap fun
    | .appHandler timeout streamIdx entry => some (timeout, streamIdx, entry)
    | _ => none

/-- The initialisation has returned a failure. -/
def InitFailed (initResult : Option Int) : Prop :=
  ∃ res, initResult = some res ∧ res ≠ 0

/-- The programs have made the same handler calls, and both or neither has
    returned an initialisation failure. -/
def Equivalent (w : Pair) : Prop :=
  handlerCalls w.cpp.log = handlerCalls w.py.log
    ∧ (InitFailed w.cpp.initResult ↔ InitFailed w.py.initResult)

/-- The answers both programs take alike: no failure to generate an id, no
    registration result but 0 and 1, no initialisation check late by a part of a
    second that truncation drops, and no inactivity check that is late counted
    from the last entry (or the constructor) but not from the last event C++
    counts from. -/
def Agrees (cfg : AppCfg) (w : Pair) (a : Answer) : Prop :=
  match w.cpp.phase, a with
  | .generate _ _, .generated res _ => res = 1
  | .register _ _, .registered res => res = 0 ∨ res = 1
  | .initCheck _, .clock t | .waitCheck _ _, .clock t =>
      t - w.cpp.startTime ≤ cfg.initializationTimeoutSecs
        ∨ cfg.initializationTimeoutSecs < truncSeconds (t - w.cpp.startTime)
  | .now, .clock t =>
      cfg.inactivityTimeoutSecs ≤ 0
        ∨ t - w.py.dataLastReceivedTime ≤ cfg.inactivityTimeoutSecs
        ∨ cfg.inactivityTimeoutSecs < t - w.cpp.lastReceivedTime
  | _, _ => True

/-! ## What the programs share -/

/-- A call made by the clean-up. -/
def Event.isCleanUp : Event → Bool
  | .deregisterReq _ | .channelDestroy _ => true
  | _ => false

/-- The calls of an app without those of its clean-up, which the C++ program makes
    before it returns and the Python program does not. -/
def mainCalls (log : List Event) : List Event :=
  log.filter fun e => !e.isCleanUp

theorem mainCalls_append (log log' : List Event) :
    mainCalls (log ++ log') = mainCalls log ++ mainCalls log' :=
  List.filter_append ..

theorem mainCalls_cleanUpCalls (items : List StreamItem) :
    mainCalls (cleanUpCalls items) = [] := by
  refine List.filter_eq_nil_iff.mpr fun e he => ?_
  obtain ⟨si, -, hmem⟩ := List.mem_flatMap.mp he
  rcases List.mem_append.mp hmem with hmem | hmem
  · split at hmem
    · rw [List.mem_singleton.mp hmem]
      exact Bool.false_ne_true
    · exact (List.not_mem_nil hmem).elim
  · split at hmem
    · rw [List.mem_singleton.mp hmem]
      exact Bool.false_ne_true
    · exact (List.not_mem_nil hmem).elim

theorem handlerCalls_mainCalls (log : List Event) :
    handlerCalls (mainCalls log) = handlerCalls log := by
  rw [mainCalls, handlerCalls, List.filterMap_filter]
  refine List.filterMap_congr fun e _ => ?_
  -- an event of the clean-up is no handler call
  cases e <;> rfl

/-- What is the same in both programs while they agree, whatever they wait for.
    `t` is the last clock reading. -/
structure Alike (t : ℚ) (c : Cpp) (p : Py) : Prop where
  startTime   : c.startTime = p.startTime
  streamItems : c.streamItems = p.streamItems
  initResult  : c.initResult = p.initResult
  calls       : mainCalls c.log = mainCalls p.log
  last_le     : p.dataLastReceivedTime ≤ c.lastReceivedTime
  clock_last  : p.dataLastReceivedTime ≤ t
  clock_start : c.startTime ≤ t

/-- In the middle of a step. -/
structure Busy (t : ℚ) (c : Cpp) (p : Py) : Prop extends Alike t c p where
  running : ¬ InitFailed c.initResult

/-- Between two steps: the programs wait for the same call. -/
structure Matched (t : ℚ) (c : Cpp) (p : Py) : Prop extends Alike t c p where
  phase   : c.phase = p.phase
  running : c.phase ≠ .returned → ¬ InitFailed c.initResult

theorem Alike.handlerCalls_eq {t : ℚ} {c : Cpp} {p : Py} (h : Alike t c p) :
    handlerCalls c.log = handlerCalls p.log := by
  rw [← handlerCalls_mainCalls, h.calls, handlerCalls_mainCalls]

theorem matched_construct (t : ℚ) : Matched t (.construct t) (.construct t) where
  startTime := rfl
  streamItems := rfl
  initResult := rfl
  calls := rfl
  last_le := le_refl t
  clock_last := le_refl t
  clock_start := le_refl t
  phase := rfl
  running _ := nofun

theorem Matched.equivalent {t : ℚ} {c : Cpp} {p : Py} (h : Matched t c p) :
    Equivalent ⟨c, p, t⟩ :=
  ⟨h.handlerCalls_eq, by rw [h.initResult]⟩

/-! ## The parts that are the same in both languages -/

/-- Programs that test alike go the same way. -/
theorem ite_rel {R : Cpp → Py → Prop} {c₁ c₂ : Cpp} {p₁ p₂ : Py} {P Q : Prop}
    [Decidable P] [Decidable Q] (hPQ : P ↔ Q) (h₁ : R c₁ p₁) (h₂ : R c₂ p₂) :
    R (if P then c₁ else c₂) (if Q then p₁ else p₂) := by
  by_cases hP : P
  · rw [if_pos hP, if_pos (hPQ.mp hP)]
    exact h₁
  · rw [if_neg hP, if_neg (hPQ.not.mp hP)]
    exact h₂

/-- `B` holds in the middle of a step and gives `M` at its end, as far as the
    elementary moves of the programs go. -/
structure Follows (B M : Cpp → Py → Prop) : Prop where
  items {c : Cpp} {p : Py} : B c p → c.streamItems = p.streamItems
  goto {c : Cpp} {p : Py} : B c p → ∀ ph, M { c with phase := ph } { p with phase := ph }
  emit {c : Cpp} {p : Py} : B c p → ∀ e, B (c.emit e) (p.emit e)
  push {c : Cpp} {p : Py} : B c p → ∀ si,
    B { c with streamItems := c.streamItems ++ [si] }
      { p with streamItems := p.streamItems ++ [si] }
  initReturns {c : Cpp} {p : Py} : B c p → ∀ cfg res,
    M (c.initReturns cfg res) (p.initReturns cfg res)

namespace Follows

variable {B M : Cpp → Py → Prop} {c : Cpp} {p : Py} {cfg : AppCfg}

theorem waitStream (F : Follows B M) (h : B c p) (rest : List (StreamCfg × StreamItem)) :
    M (c.waitStream cfg rest) (p.waitStream cfg rest) := by
  induction rest with
  | nil => exact F.initReturns h cfg 0
  | cons x rest ih => exact ite_rel Iff.rfl (F.goto h _) ih

theorem initStream (F : Follows B M) (h : B c p) (rest : List StreamCfg) :
    M (c.initStream cfg rest) (p.initStream cfg rest) := by
  cases rest with
  | nil =>
      rw [Cpp.initStream, Py.initStream, F.items h]
      exact F.waitStream h _
  | cons st rest => exact F.goto h _

theorem pushItem (F : Follows B M) (h : B c p) (si : StreamItem)
    (rest : List StreamCfg) : M (c.pushItem cfg si rest) (p.pushItem cfg si rest) :=
  ite_rel Iff.rfl (F.goto (F.push h si) _) (F.initStream (F.push h si) rest)

theorem registerStream (F : Follows B M) (h : B c p) (st : StreamCfg) (si : StreamItem)
    (rest : List StreamCfg) :
    M (c.registerStream cfg st si rest) (p.registerStream cfg st si rest) :=
  ite_rel Iff.rfl (F.goto h _) (F.pushItem h si rest)

theorem dispatch (F : Follows B M) (h : B c p) (batch : List DataEntry) :
    M (c.dispatch cfg batch) (p.dispatch cfg batch) := by
  cases batch with
  | nil => exact F.goto h _
  | cons e rest =>
      have hfound : B
          (match findStream cfg.streams c.streamItems e.streamId with
            | some i => c.emit (.appHandler false i (some e))
            | none => c)
          (match findStream cfg.streams p.streamItems e.streamId with
            | some i => p.emit (.appHandler false i (some e))
            | none => p) := by
        rw [F.items h]
        cases findStream cfg.streams p.streamItems e.streamId with
        | none => exact h
        | some i => exact F.emit h _
      exact F.goto (F.emit hfound _) _

end Follows

/-- `run` returns: C++ cleans up, Python leaves that to `jrtc_app_destroy`. -/
theorem Alike.returns {t : ℚ} {c : Cpp} {p : Py} (h : Alike t c p) :
    Matched t { c.cleanUp with phase := .returned } { p with phase := .returned } := by
  refine ⟨{ h with calls := ?_ }, rfl, fun hne => absurd rfl hne⟩
  show mainCalls (c.log ++ cleanUpCalls c.streamItems) = mainCalls p.log
  rw [mainCalls_append, mainCalls_cleanUpCalls, List.append_nil, h.calls]

theorem Busy.goto {t : ℚ} {c : Cpp} {p : Py} (h : Busy t c p) (ph : Phase) :
    Matched t { c with phase := ph } { p with phase := ph } :=
  ⟨{ h.toAlike with }, rfl, fun _ => h.running⟩

theorem Busy.initReturns {t : ℚ} {c : Cpp} {p : Py} (h : Busy t c p) (cfg : AppCfg)
    (res : Int) : Matched t (c.initReturns cfg res) (p.initReturns cfg res) := by
  have hres : Alike t { c with initResult := some res }
      { p with initResult := some res } :=
    { h.toAlike with initResult := rfl }
  unfold Cpp.initReturns Py.initReturns
  by_cases h0 : res = 0
  · rw [if_pos h0, if_neg (not_not.mpr h0)]
    have hbusy : Busy t { c with initResult := some res }
        { p with initResult := some res } := by
      refine ⟨hres, ?_⟩
      rintro ⟨r, hr, hne⟩
      exact hne ((Option.some.inj hr).symm.trans h0)
    exact ite_rel Iff.rfl (hbusy.goto _) (hbusy.goto _)
  · rw [if_neg h0, if_pos h0]
    exact hres.returns

theorem busy_follows (t : ℚ) : Follows (Busy t) (Matched t) where
  items h := h.streamItems
  goto h := h.goto
  emit {c p} h e := by
    refine ⟨{ h.toAlike with calls := ?_ }, h.running⟩
    show mainCalls (c.log ++ [e]) = mainCalls (p.log ++ [e])
    rw [mainCalls_append, mainCalls_append, h.calls]
  push h si := ⟨{ h.toAlike with streamItems := by rw [h.streamItems] }, h.running⟩
  initReturns h := h.initReturns

/-! ## The programs never wait for different calls -/

/-- A program that takes no more answers. -/
def Phase.Ended (ph : Phase) : Prop := ph = .returned ∨ ph = .raised

structure SameItems (c : Cpp) (p : Py) : Prop where
  items : c.streamItems = p.streamItems

structure SameCall (c : Cpp) (p : Py) : Prop extends SameItems c p where
  phase : c.phase = p.phase

/-- The programs wait for the same call, and so take the same answers, or one of
    them has ended. -/
def InStep (c : Cpp) (p : Py) : Prop :=
  SameCall c p ∨ c.phase.Ended ∨ p.phase.Ended

theorem sameItems_follows : Follows SameItems SameCall where
  items h := h.items
  goto h _ := ⟨⟨h.items⟩, rfl⟩
  emit h _ := ⟨h.items⟩
  push {c p} h si := by
    refine ⟨?_⟩
    show c.streamItems ++ [si] = p.streamItems ++ [si]
    rw [h.items]
  initReturns {c p} h cfg res := by
    unfold Cpp.initReturns Py.initReturns
    by_cases h0 : res = 0
    · rw [if_pos h0, if_neg (not_not.mpr h0)]
      exact ite_rel Iff.rfl ⟨⟨h.items⟩, rfl⟩ ⟨⟨h.items⟩, rfl⟩
    · rw [if_neg h0, if_pos h0]
      exact ⟨⟨h.items⟩, rfl⟩

/-- Programs may differ in a test if the branch it leads to ends them. -/
theorem inStep_ite {c₁ c₂ : Cpp} {p₁ p₂ : Py} {P Q : Prop} [Decidable P] [Decidable Q]
    (hc : c₁.phase.Ended) (hp : p₁.phase.Ended) (h : InStep c₂ p₂) :
    InStep (if P then c₁ else c₂) (if Q then p₁ else p₂) := by
  by_cases hP : P
  · rw [if_pos hP]
    exact Or.inr (Or.inl hc)
  · rw [if_neg hP]
    by_cases hQ : Q
    · rw [if_pos hQ]
      exact Or.inr (Or.inr hp)
    · rw [if_neg hQ]
      exact h

theorem Cpp.ended_step {cfg : AppCfg} {c : Cpp} (h : c.phase.Ended) (a : Answer) :
    (c.step cfg a).phase.Ended := by
  have hstay : c.step cfg a = c := by
    rw [Cpp.step]
    rcases h with h | h
    · rw [h]
      cases a <;> rfl
    · rw [h]
      cases a <;> rfl
  rw [hstay]
  exact h

theorem Py.ended_step {cfg : AppCfg} {p : Py} (h : p.phase.Ended) (a : Answer) :
    (p.step cfg a).phase.Ended := by
  have hstay : p.step cfg a = p := by
    rw [Py.step]
    rcases h with h | h
    · rw [h]
      cases a <;> rfl
    · rw [h]
      cases a <;> rfl
  rw [hstay]
  exact h

theorem inStep_step {cfg : AppCfg} {c : Cpp} {p : Py} (h : InStep c p) {a : Answer}
    (ha : Awaits c.phase a ∨ Awaits p.phase a) :
    InStep (c.step cfg a) (p.step cfg a) := by
  rcases h with ⟨⟨hitems⟩, hph⟩ | hc | hp
  · have F := sameItems_follows
    replace ha : Awaits c.phase a := ha.elim id (hph ▸ ·)
    rw [Cpp.step, Py.step, ← hph]
    generalize c.phase = ph at ha
    cases ha with
    | start t =>
        refine Or.inl (F.initStream ?_ _)
        exact ⟨hitems⟩
    | generate st rest res sid =>
        refine inStep_ite (Or.inl rfl) (Or.inr rfl) ?_
        cases st.appChannel with
        | none => exact Or.inl (F.registerStream ⟨hitems⟩ _ _ _)
        | some ch => exact Or.inl (F.goto ⟨hitems⟩ _)
    | create ch st si rest chan =>
        have hcreate := F.emit ⟨hitems⟩ (.channelCreate ch si.sid chan)
        exact inStep_ite (Or.inl rfl) (Or.inl rfl)
          (Or.inl (F.registerStream hcreate _ _ _))
    | register si rest res =>
        have hreg := F.emit ⟨hitems⟩ (.registerReq si.sid res)
        exact inStep_ite (Or.inl rfl) (Or.inl rfl) (Or.inl (F.pushItem hreg _ _))
    | initCheck rest t =>
        exact inStep_ite (Or.inl rfl) (Or.inl rfl) (Or.inl (F.initStream ⟨hitems⟩ _))
    | channelExists si rest res =>
        exact Or.inl (ite_rel Iff.rfl (F.waitStream ⟨hitems⟩ rest)
          (ite_rel Iff.rfl (F.goto ⟨hitems⟩ _) (F.goto ⟨hitems⟩ _)))
    | waitCheck si rest t =>
        exact inStep_ite (Or.inl rfl) (Or.inl rfl) (Or.inl (F.goto ⟨hitems⟩ _))
    | loop flag =>
        exact inStep_ite (Or.inl rfl) (Or.inl rfl) (Or.inl (F.goto ⟨hitems⟩ _))
    | now t =>
        -- one program may call its handler without the other
        refine Or.inl ⟨⟨?_⟩, rfl⟩
        simp only [Cpp.resume, Py.resume]
        split <;> split <;> exact hitems
    | receive batch => exact Or.inl (F.dispatch ⟨hitems⟩ _)
    | stamp rest t =>
        refine Or.inl (F.dispatch ?_ _)
        exact ⟨hitems⟩
  · exact Or.inr (Or.inl (Cpp.ended_step hc a))
  · exact Or.inr (Or.inr (Py.ended_step hp a))

/-- **ONE SEQUENCE OF ANSWERS IS ENOUGH**: on every run the programs wait for the
    same call until one of them ends. -/
theorem inStep_run {cfg : AppCfg} {t : ℚ} {tr : List (Pair × Answer)} {w : Pair}
    (h : Run (PairStep cfg) (.construct t) tr w) : InStep w.cpp w.py := by
  refine h.invariant (P := fun w => InStep w.cpp w.py) (Or.inl ⟨⟨rfl⟩, rfl⟩) ?_
  rintro w a _ hw ⟨ha, -⟩
  exact inStep_step hw ha

/-! ## One answer -/

theorem truncSeconds_le {d : ℚ} (hd : 0 ≤ d) : (truncSeconds d : ℚ) ≤ d := by
  have hfloor : truncSeconds d = ⌊d⌋ := by
    rw [truncSeconds, Rat.floor_def', Int.tdiv_eq_ediv_of_nonneg (Rat.num_nonneg.mpr hd)]
  rw [hfloor]
  exact Int.floor_le d

section

variable {t t' : ℚ} {c : Cpp} {p : Py} {cfg : AppCfg}

/-- A program that waits for an answer has not returned. -/
theorem Matched.busy (h : Matched t c p) {a : Answer} (ha : Awaits c.phase a)
    (ht : t ≤ t') : Busy t' c p := by
  refine ⟨{ h.toAlike with
    clock_last := le_trans h.clock_last ht
    clock_start := le_trans h.clock_start ht }, h.running ?_⟩
  intro hph
  rw [hph] at ha
  exact nomatch ha

/-- Under the condition both programs judge an initialisation check alike. -/
theorem initCheck_congr (h : Alike t' c p)
    (hC : t' - c.startTime ≤ cfg.initializationTimeoutSecs
      ∨ cfg.initializationTimeoutSecs < truncSeconds (t' - c.startTime)) :
    (truncSeconds (t' - c.startTime) > cfg.initializationTimeoutSecs)
      ↔ t' - p.startTime > cfg.initializationTimeoutSecs := by
  have htrunc := truncSeconds_le (sub_nonneg.mpr h.clock_start)
  rw [← h.startTime]
  constructor
  · exact fun hlate => lt_of_lt_of_le hlate htrunc
  · intro hlate
    rcases hC with hC | hC
    · exact absurd hlate (not_lt.mpr hC)
    · exact hC

/-- The same for an inactivity check. -/
theorem now_congr (h : Alike t' c p)
    (hC : cfg.inactivityTimeoutSecs ≤ 0
      ∨ t' - p.dataLastReceivedTime ≤ cfg.inactivityTimeoutSecs
      ∨ cfg.inactivityTimeoutSecs < t' - c.lastReceivedTime) :
    (cfg.inactivityTimeoutSecs > 0 ∧ t' - c.lastReceivedTime > cfg.inactivityTimeoutSecs)
      ↔ cfg.inactivityTimeoutSecs > 0
        ∧ t' - p.dataLastReceivedTime > cfg.inactivityTimeoutSecs := by
  have hlast := h.last_le
  constructor
  · rintro ⟨hpos, hlate⟩
    exact ⟨hpos, by linarith⟩
  · rintro ⟨hpos, hlate⟩
    refine ⟨hpos, ?_⟩
    rcases hC with hC | hC | hC
    · exact absurd hpos (not_lt.mpr hC)
    · exact absurd hlate (not_lt.mpr hC)
    · exact hC

/-- **ONE ANSWER** of the kind both programs take alike keeps them together. -/
theorem matched_step (h : Matched t c p) {a : Answer} (ht : t ≤ a.clockAfter t)
    (ha : Awaits c.phase a) (hC : Agrees cfg ⟨c, p, t⟩ a) :
    Matched (a.clockAfter t) (c.step cfg a) (p.step cfg a) := by
  have hb := h.busy ha ht
  have F := busy_follows (a.clockAfter t)
  rw [Cpp.step, Py.step, ← h.phase]
  unfold Agrees at hC
  generalize c.phase = ph at ha hC
  cases ha with
  | start t' =>
      have hstart : Alike t' { c with startTime := t', lastReceivedTime := t' }
          { p with startTime := t', lastReceivedTime := some t' } :=
        { hb.toAlike with
          startTime := rfl
          last_le := hb.clock_last
          clock_last := hb.clock_last
          clock_start := le_refl t' }
      exact F.initStream ⟨hstart, hb.running⟩ _
  | generate st rest res sid =>
      simp only [Cpp.resume, Py.resume, if_neg (not_not.mpr hC)]
      cases st.appChannel with
      | none => exact F.registerStream hb _ _ _
      | some ch => exact hb.goto _
  | create ch st si rest chan =>
      have hcreate := F.emit hb (.channelCreate ch si.sid chan)
      exact ite_rel Iff.rfl (hcreate.initReturns _ _) (F.registerStream hcreate _ _ _)
  | register si rest res =>
      have hreg := F.emit hb (.registerReq si.sid res)
      refine ite_rel ?_ (hreg.initReturns _ _) (F.pushItem hreg _ _)
      rcases hC with rfl | rfl <;> decide
  | initCheck rest t' =>
      exact ite_rel (initCheck_congr hb.toAlike hC) (hb.initReturns _ _)
        (F.initStream hb rest)
  | channelExists si rest res =>
      exact ite_rel Iff.rfl (F.waitStream hb rest) (ite_rel Iff.rfl (hb.goto _) (hb.goto _))
  | waitCheck si rest t' =>
      exact ite_rel (initCheck_congr hb.toAlike hC) (hb.initReturns _ _) (hb.goto _)
  | loop flag => exact ite_rel Iff.rfl hb.toAlike.returns (hb.goto _)
  | now t' =>
      have hfire : Busy t'
          { c.emit (.appHandler true (-1) none) with lastReceivedTime := t' }
          { p.emit (.appHandler true (-1) none) with lastReceivedTime := some t' } :=
        ⟨{ (F.emit hb _).toAlike with last_le := hb.clock_last }, hb.running⟩
      exact (ite_rel (now_congr hb.toAlike hC) hfire hb).goto _
  | receive batch => exact F.dispatch hb _
  | stamp rest t' =>
      have hstamp : Alike t' { c with lastReceivedTime := t' }
          { p with dataLastReceivedTime := t' } :=
        { hb.toAlike with
          last_le := le_refl t'
          clock_last := le_refl t' }
      exact F.dispatch ⟨hstamp, hb.running⟩ rest

theorem Cpp.initFailed_initReturns (s : Cpp) :
    InitFailed (s.initReturns cfg (-1)).initResult :=
  ⟨-1, rfl, by decide⟩

theorem Py.initFailed_initReturns (s : Py) :
    InitFailed (s.initReturns cfg (-1)).initResult :=
  ⟨-1, rfl, by decide⟩

/-- Going on with the initialisation is not a failure yet. -/
theorem Py.not_initFailed_initStream {s : Py} (h : ¬ InitFailed s.initResult)
    (rest : List StreamCfg) : ¬ InitFailed (s.initStream cfg rest).initResult := by
  have hwait : ∀ rest, ¬ InitFailed (s.waitStream cfg rest).initResult := by
    intro rest
    induction rest with
    | nil =>
        have h0 : (s.initReturns cfg 0).initResult = some 0 := by
          unfold Py.initReturns
          rw [if_neg (not_not.mpr rfl)]
          split <;> rfl
        rw [Py.waitStream, h0]
        rintro ⟨res, hres, hne⟩
        exact hne (Option.some.inj hres).symm
    | cons x rest ih =>
        rw [Py.waitStream]
        split
        · exact h
        · exact ih
  cases rest with
  | nil => exact hwait _
  | cons st rest => exact h

theorem Py.not_initFailed_pushItem {s : Py} (h : ¬ InitFailed s.initResult)
    (si : StreamItem) (rest : List StreamCfg) :
    ¬ InitFailed (s.pushItem cfg si rest).initResult := by
  unfold Py.pushItem
  split
  · exact h
  · exact Py.not_initFailed_initStream
      (s := { s with streamItems := s.streamItems ++ [si] }) h rest

/-- Any other answer tells the programs apart at once. -/
theorem not_equivalent_step (h : Matched t c p) {a : Answer} (ht : t ≤ a.clockAfter t)
    (ha : Awaits c.phase a) (hC : ¬ Agrees cfg ⟨c, p, t⟩ a) :
    ¬ Equivalent ⟨c.step cfg a, p.step cfg a, a.clockAfter t⟩ := by
  have hb := h.busy ha ht
  have hpy : ¬ InitFailed p.initResult := hb.initResult ▸ hb.running
  rw [Cpp.step, Py.step, ← h.phase]
  unfold Agrees at hC
  generalize c.phase = ph at ha hC
  rintro ⟨hcalls, hfail⟩
  cases ha with
  | generate st rest res sid =>
      simp only [Cpp.resume, Py.resume, if_pos hC] at hfail
      exact hpy (hfail.mp c.initFailed_initReturns)
  | register si rest res =>
      obtain ⟨h0, h1⟩ := not_or.mp hC
      simp only [Cpp.resume, Py.resume, if_pos h1, if_neg h0] at hfail
      exact Py.not_initFailed_pushItem (s := p.emit (.registerReq si.sid res)) hpy _ _
        (hfail.mp (Cpp.initFailed_initReturns _))
  | initCheck rest t' =>
      obtain ⟨hlate, hearly⟩ := not_or.mp hC
      rw [h.startTime] at hlate
      simp only [Cpp.resume, Py.resume, if_pos (not_le.mp hlate), if_neg hearly] at hfail
      have hcpp := hfail.mpr p.initFailed_initReturns
      rw [((busy_follows _).initStream hb rest).initResult] at hcpp
      exact Py.not_initFailed_initStream hpy rest hcpp
  | waitCheck si rest t' =>
      obtain ⟨hlate, hearly⟩ := not_or.mp hC
      rw [h.startTime] at hlate
      simp only [Cpp.resume, Py.resume, if_pos (not_le.mp hlate), if_neg hearly] at hfail
      exact hb.running (hfail.mpr p.initFailed_initReturns)
  | now t' =>
      obtain ⟨hpos, hrest⟩ := not_or.mp hC
      obtain ⟨hlate, hearly⟩ := not_or.mp hrest
      have hcpp : ¬ (cfg.inactivityTimeoutSecs > 0
          ∧ t' - c.lastReceivedTime > cfg.inactivityTimeoutSecs) := fun hc => hearly hc.2
      have hpy := And.intro (not_le.mp hpos) (not_le.mp hlate)
      simp only [Cpp.resume, Py.resume, if_neg hcpp, if_pos hpy, Py.emit] at hcalls
      rw [h.handlerCalls_eq, handlerCalls, handlerCalls, List.filterMap_append] at hcalls
      exact absurd hcalls (by simp)
  | start t' => exact hC trivial
  | create ch st si rest chan => exact hC trivial
  | channelExists si rest res => exact hC trivial
  | loop flag => exact hC trivial
  | receive batch => exact hC trivial
  | stamp rest t' => exact hC trivial

end

/-! ## Every run -/

/-- **WHEN THE TWO APPS ARE EQUIVALENT.**  On every run of both programs on the
    same answers, they have at all times made the same handler calls and both or
    neither failed to initialise, iff each answer is one they take alike. -/
theorem equivalent_iff_agrees {cfg : AppCfg} {t : ℚ} {tr : List (Pair × Answer)}
    {w : Pair} (h : Run (PairStep cfg) (.construct t) tr w) :
    Along Equivalent tr w ↔ Meets (Agrees cfg) tr := by
  refine h.along_iff_meets (Q := fun w => Matched w.clock w.cpp w.py)
    (matched_construct t) (fun _ hQ => hQ.equivalent) ?_ ?_
  · rintro w a _ hQ hC ⟨ha, ht⟩
    exact matched_step hQ ht (ha.elim id (hQ.phase ▸ ·)) hC
  · rintro w a _ hQ hC ⟨ha, ht⟩
    exact not_equivalent_step hQ ht (ha.elim id (hQ.phase ▸ ·)) hC

/-- An app that receives on one stream, with an inactivity timeout of a second. -/
def oneStreamCfg : AppCfg := ⟨4, [⟨⟨1, 1, none, none⟩, true, none⟩], 0, 1⟩

/-- The state of the app with one stream in front of its main loop. -/
def oneStreamReady : Pair :=
  ⟨⟨.loop, 0, 0, [⟨.replicate 16 0, true, none⟩], some 0,
      [.registerReq (.replicate 16 0) 1]⟩,
    ⟨.loop, 0, 0, some 0, [⟨.replicate 16 0, true, none⟩], some 0,
      [.registerReq (.replicate 16 0) 1]⟩, 0⟩

theorem run_oneStream : ∃ tr, Run (PairStep oneStreamCfg) (.construct 0) tr oneStreamReady
    ∧ Meets (Agrees oneStreamCfg) tr := by
  have h₁ := Run.start.next (@PairStep.answer oneStreamCfg (.construct 0) (.clock 0)
    (Or.inl (.start 0)) (le_refl 0))
  have h₂ := h₁.next (.answer (Or.inl (.generate _ _ 1 (.replicate 16 0))) (le_refl 0))
  have h₃ := h₂.next (.answer (Or.inl (.register _ _ 1)) (le_refl 0))
  refine ⟨_, h₃, meets_snoc.mpr ⟨meets_snoc.mpr ⟨meets_snoc.mpr ⟨?_, trivial⟩, rfl⟩, ?_⟩⟩
  · exact fun _ hx => (List.not_mem_nil hx).elim
  · exact Or.inr rfl

/-- A message arrives and is handled, and the app is told to exit. -/
theorem equivalent_on_one_message :
    ∃ tr w, Run (PairStep oneStreamCfg) (.construct 0) tr w ∧ Along Equivalent tr w
      ∧ handlerCalls w.py.log = [(false, 0, some ⟨7, .replicate 16 0⟩)] := by
  obtain ⟨tr, hrun, hC⟩ := run_oneStream
  have h₁ := hrun.next (.answer (Or.inl (.loop false)) (le_refl 0))
  have h₂ := h₁.next (.answer (Or.inl (.now 0)) (le_refl 0))
  have h₃ := h₂.next (.answer (Or.inl (.receive [⟨7, .replicate 16 0⟩])) (le_refl 0))
  have h₄ := h₃.next (.answer (Or.inl (.stamp _ 0)) (le_refl 0))
  have h₅ := h₄.next (.answer (Or.inl (.loop true)) (le_refl 0))
  refine ⟨_, _, h₅, (equivalent_iff_agrees h₅).mpr ?_, by decide +kernel⟩
  refine meets_snoc.mpr ⟨meets_snoc.mpr ⟨meets_snoc.mpr ⟨meets_snoc.mpr ⟨meets_snoc.mpr
    ⟨hC, trivial⟩, ?_⟩, trivial⟩, trivial⟩, trivial⟩
  exact Or.inr (Or.inl (by decide +kernel))

/-- Nothing arrives for longer than the timeout.  Python resets a variable nothing
    reads, and calls its handler again in the next round. -/
theorem inactivity_handler_called_again :
    ¬ ∀ cfg t tr w, Run (PairStep cfg) (.construct t) tr w → Equivalent w := by
  intro hall
  obtain ⟨tr, hrun, -⟩ := run_oneStream
  have h₁ := hrun.next (.answer (Or.inl (.loop false)) (le_refl 0))
  have h₂ := h₁.next (.answer (Or.inl (.now 2)) (by decide))
  have h₃ := h₂.next (.answer (Or.inl (.receive [])) (le_refl 2))
  have h₄ := h₃.next (.answer (Or.inl (.loop false)) (le_refl 2))
  have h₅ := h₄.next (.answer (Or.inl (.now 2)) (le_refl 2))
  exact absurd (hall _ _ _ _ h₅).1 (by decide +kernel)

end JrtcWrapperApp
