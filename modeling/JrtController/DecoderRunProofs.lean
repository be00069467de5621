import JrtController.ChannelProofs
import JrtController.CodeletSetProofs
import JrtController.RunProofs

/-! # The decoder command from start to end

    `jrtc-ctl decoder run` starts the services of the decoder, a UDP server for JSON
    texts and a loop that handles what either puts in its queue, and returns when all
    three have returned.  A signal ends the contexts of the two servers; the loop ends
    with the context of the group, which only an error ends, or when both queues are
    closed.

    * `Cmd.inv_run` — what every run keeps: who closes which queue, who has returned, and
      what is in the queues;
    * `never_panics` — nothing is sent to a closed queue, and none is closed twice;
    * `ends_iff` — after a signal the command can end without a failure to come exactly if
      the control server has listened and the server for JSON is enabled or some service
      has failed;
    * `drained` — without a failure everything that was queued is handled, in order,
      before the command ends;
    * `handles_all_iff` — so a datagram is lost exactly if the queue is full when it
      comes. -/

namespace JrtcDecoderRun

open JrtcStreamId JrtcCodeletSet Channels Runs

/-! ## The command -/

/-- The flags of the command that decide what is started and read. -/
structure Options where
  dataBufferSize : Nat
  dataEnabled    : Bool
  gatewayEnabled : Bool
  jsonBufferSize : Nat
  jsonEnabled    : Bool

structure RecData where
  payload    : Bytes
  streamUUID : StreamId

/-- What `serveData` makes of the bytes it has read: a datagram of less than 16 bytes is
    skipped. -/
def recData (buffer : Bytes) : Option RecData :=
  if buffer.length < 16 then none
  else some ⟨buffer.drop 16, Vector.ofFn fun i => buffer.getD i.val 0⟩

/-- The size of both queues. -/
def qSize : Nat := 1000

/-- What runs in a goroutine of its own and listens: `serveControl`, `serveData` and
    `serveGateway` of the decoder, and `Serve` of the UDP server. -/
inductive Which where
  | control
  | data
  | gateway
  | udp
  deriving DecidableEq

inductive Service where
  | off
  | starting
  | serving
  | returned (err : Bool)
  deriving DecidableEq

/-- Where `Serve` of the decoder is: in `wg.Wait`, in `g.Wait`, or back. -/
inductive Serve where
  | waiting
  | running
  | returned (err : Bool)
  deriving DecidableEq

/-- The command.  `serverDone`, `udpDone` and `groupDone` are the contexts of the two
    servers and of the group, `ready` is that `wg.Done` was called, and the lists record
    what was put in the queues and what the loop has handled. -/
structure Cmd where
  signalled   : Bool
  serverDone  : Bool
  udpDone     : Bool
  groupDone   : Bool
  ready       : Bool
  service     : Which → Service
  serve       : Serve
  outQ        : Chan RecData
  jsonQ       : Chan Bytes
  active      : Bool × Bool
  looping     : Bool
  sent        : List RecData
  handled     : List RecData
  jsonSent    : List Bytes
  jsonHandled : List Bytes
  panicked    : Bool

/-- The command before any goroutine has run.  `Serve` of the UDP server returns at once
    if it is not enabled. -/
def Cmd.init (o : Options) : Cmd where
  signalled := false
  serverDone := false
  udpDone := false
  groupDone := false
  ready := false
  service
    | .control => .starting
    | .data | .gateway => .off
    | .udp => if o.jsonEnabled then .starting else .returned false
  serve := .waiting
  outQ := .empty
  jsonQ := .empty
  active := (true, true)
  looping := true
  sent := []
  handled := []
  jsonSent := []
  jsonHandled := []
  panicked := false

namespace Cmd

def put (s : Cmd) (w : Which) (v : Service) : Cmd :=
  { s with service := Function.update s.service w v }

/-- A service in the group of the decoder has returned an error. -/
def innerFailed (s : Cmd) : Bool :=
  [Which.control, .data, .gateway].any fun w => s.service w = .returned true

/-- Every service in the group of the decoder has returned or was never started. -/
def innerStopped (s : Cmd) : Bool :=
  [Which.control, .data, .gateway].all fun w =>
    s.service w = .off ∨ s.service w = .returned false ∨ s.service w = .returned true

/-- The context a service looks at. -/
def contextDone (s : Cmd) : Which → Bool
  | .udp => s.udpDone
  | _ => s.serverDone || s.innerFailed

/-- `s.OutQ <- …` with a default branch, of `serveData`. -/
def receive (s : Cmd) : Option RecData → Cmd
  | none => s
  | some x => match s.outQ.offer qSize x with
      | none => { s with panicked := true }
      | some (true, q) => { s with outQ := q, sent := s.sent ++ [x] }
      | some (false, _) => s

/-- The same of `Serve` of the UDP server. -/
def receiveJson (s : Cmd) (x : Bytes) : Cmd :=
  match s.jsonQ.offer qSize x with
  | none => { s with panicked := true }
  | some (true, q) => { s with jsonQ := q, jsonSent := s.jsonSent ++ [x] }
  | some (false, _) => s

/-- The UDP server sees that its context is done. -/
def stopUdp (s : Cmd) : Cmd :=
  match s.jsonQ.close with
  | none => { s with panicked := true }
  | some q => { s.put .udp (.returned false) with jsonQ := q }

/-- `g.Wait` of the decoder is over; an error ends the context of the outer group. -/
def serveReturns (s : Cmd) : Cmd :=
  match s.outQ.close with
  | none => { s with panicked := true }
  | some q => { s with
      outQ := q
      serve := .returned s.innerFailed
      groupDone := s.groupDone || s.innerFailed }

/-- A service of the loop is not active any more. -/
def deactivate (s : Cmd) (active : Bool × Bool) : Cmd :=
  { s with active := active, looping := active.1 || active.2 }

/-- The first branch of the loop. -/
def takeData (s : Cmd) (q : Chan RecData) : Option RecData → Cmd
  | some x => if s.active.1 then { s with outQ := q, handled := s.handled ++ [x] }
      else { s with outQ := q }.deactivate (false, s.active.2)
  | none => { s with outQ := q }.deactivate (false, s.active.2)

/-- The second branch of the loop. -/
def takeJson (s : Cmd) (q : Chan Bytes) : Option Bytes → Cmd
  | some x => if s.active.2 then { s with jsonQ := q, jsonHandled := s.jsonHandled ++ [x] }
      else { s with jsonQ := q }.deactivate (s.active.1, false)
  | none => { s with jsonQ := q }.deactivate (s.active.1, false)

/-- `g.Wait` of the command returns. -/
def Ended (s : Cmd) : Prop :=
  s.looping = false ∧ (∃ err, s.serve = .returned err) ∧ ∃ err, s.service .udp = .returned err

end Cmd

inductive Event where
  | signal
  | cancelServer
  | cancelUdp
  | listens (w : Which)
  | fails (w : Which)
  | stops (w : Which)
  | waited
  | datagram (packet : Bytes)
  | json (packet : Bytes)
  | serveReturns
  | takeData
  | takeJson
  | loopDone

/-- One step of a goroutine, of the network or of the user. -/
inductive Step (o : Options) : Cmd → Event → Cmd → Prop
  | signal {s : Cmd} : Step o s .signal { s with signalled := true }
  | cancelServer {s : Cmd} :
      s.signalled = true → Step o s .cancelServer { s with serverDone := true }
  | cancelUdp {s : Cmd} :
      s.signalled = true → Step o s .cancelUdp { s with udpDone := true }
  | listens {s : Cmd} {w : Which} :
      s.service w = .starting →
      Step o s (.listens w) { s.put w .serving with ready := s.ready || w = .control }
  -- no listener, or an error from a socket that was open
  | fails {s : Cmd} {w : Which} :
      s.service w = .starting ∨ s.service w = .serving →
      Step o s (.fails w)
        { s.put w (.returned true) with groupDone := s.groupDone || w = .udp }
  | stops {s : Cmd} {w : Which} :
      w ≠ .udp → s.service w = .serving → s.contextDone w = true →
      Step o s (.stops w) (s.put w (.returned false))
  | stopsUdp {s : Cmd} :
      s.service .udp = .serving → s.contextDone .udp = true →
      Step o s (.stops .udp) s.stopUdp
  | waited {s : Cmd} :
      s.serve = .waiting → s.ready = true →
      Step o s .waited { (s.put .data (if o.dataEnabled then .starting else .off)).put .gateway
        (if o.gatewayEnabled then .starting else .off) with serve := .running }
  | datagram {s : Cmd} {packet : Bytes} :
      s.service .data = .serving →
      Step o s (.datagram packet) (s.receive (recData (packet.take o.dataBufferSize)))
  | json {s : Cmd} {packet : Bytes} :
      s.service .udp = .serving →
      Step o s (.json packet) (s.receiveJson (packet.take o.jsonBufferSize))
  | serveReturns {s : Cmd} :
      s.serve = .running → s.innerStopped = true → Step o s .serveReturns s.serveReturns
  | takeData {s : Cmd} {r : Option RecData} {q : Chan RecData} :
      s.looping = true → s.outQ.recv = some (r, q) → Step o s .takeData (s.takeData q r)
  | takeJson {s : Cmd} {r : Option Bytes} {q : Chan Bytes} :
      s.looping = true → s.jsonQ.recv = some (r, q) → Step o s .takeJson (s.takeJson q r)
  | loopDone {s : Cmd} :
      s.looping = true → s.groupDone = true → Step o s .loopDone { s with looping := false }

/-- A panic ends the process. -/
def CmdStep (o : Options) (s : Cmd) (l : Event) (s' : Cmd) : Prop :=
  s.panicked = false ∧ Step o s l s'

/-! ## What every run keeps -/

/-- A service that can still go on. -/
def Service.Live (v : Service) : Prop := v = .starting ∨ v = .serving

theorem Service.not_live_off : ¬ Service.Live .off := by simp [Service.Live]

theorem Service.not_live_returned (err : Bool) : ¬ Service.Live (.returned err) := by
  simp [Service.Live]

theorem Cmd.innerFailed_iff (s : Cmd) :
    s.innerFailed = true ↔ ∃ w, w ≠ .udp ∧ s.service w = .returned true := by
  constructor
  · intro h
    simp only [Cmd.innerFailed, List.any_cons, List.any_nil, Bool.or_false, Bool.or_eq_true,
      decide_eq_true_eq] at h
    rcases h with h | h | h
    · exact ⟨.control, by simp, h⟩
    · exact ⟨.data, by simp, h⟩
    · exact ⟨.gateway, by simp, h⟩
  · rintro ⟨w, hw, h⟩
    cases w <;> simp_all [Cmd.innerFailed]

theorem Cmd.innerStopped_iff (s : Cmd) :
    s.innerStopped = true ↔ ∀ w, w ≠ .udp → ¬ (s.service w).Live := by
  have hlive : ∀ v : Service, (v = .off ∨ v = .returned false ∨ v = .returned true) ↔ ¬ v.Live := by
    intro v
    cases v with
    | returned err => cases err <;> simp [Service.Live]
    | _ => simp [Service.Live]
  simp only [Cmd.innerStopped, List.all_cons, List.all_nil, Bool.and_true, Bool.and_eq_true,
    decide_eq_true_eq, hlive]
  constructor
  · rintro ⟨hc, hd, hg⟩ w hw
    cases w with
    | control => exact hc
    | data => exact hd
    | gateway => exact hg
    | udp => exact absurd rfl hw
  · intro h
    exact ⟨h .control (by simp), h .data (by simp), h .gateway (by simp)⟩

/-- Who has started, who has returned, and what follows for the queues and the group. -/
structure Cmd.Services (o : Options) (s : Cmd) : Prop where
  idle    : s.serve = .waiting → s.service .data = .off ∧ s.service .gateway = .off
  started : s.serve ≠ .waiting → s.ready = true
  control : s.service .control ≠ .off
  serving : s.service .control = .serving → s.ready = true
  closed  : s.outQ.closed = true ↔ ∃ err, s.serve = .returned err
  stopped : ∀ {err}, s.serve = .returned err →
    (∀ w, w ≠ .udp → ¬ (s.service w).Live) ∧ err = s.innerFailed
  udp     : s.service .udp ≠ .off ∧ (o.jsonEnabled = false → s.service .udp = .returned false)
  json    : s.jsonQ.closed = true ↔ o.jsonEnabled = true ∧ s.service .udp = .returned false
  group   : s.groupDone = true ↔ s.serve = .returned true ∨ s.service .udp = .returned true

/-- Where the loop is. -/
structure Cmd.Loop (s : Cmd) : Prop where
  data : s.active.1 = false → s.outQ.queue = [] ∧ s.outQ.closed = true
  json : s.active.2 = false → s.jsonQ.queue = [] ∧ s.jsonQ.closed = true
  runs : s.looping = true → s.active ≠ (false, false)
  left : s.looping = false → s.groupDone = true ∨ s.active = (false, false)

structure Cmd.Inv (o : Options) (s : Cmd) : Prop where
  alive    : s.panicked = false
  services : s.Services o
  loop     : s.Loop
  tracks   : Tracks s.outQ s.sent s.handled
  jsons    : Tracks s.jsonQ s.jsonSent s.jsonHandled

theorem Cmd.inv_init (o : Options) : (Cmd.init o).Inv o where
  alive := rfl
  services := {
    idle := fun _ => ⟨rfl, rfl⟩
    started := fun h => absurd rfl h
    control := by simp [Cmd.init]
    serving := by simp [Cmd.init]
    closed := by simp [Cmd.init, Chan.empty]
    stopped := by simp [Cmd.init]
    udp := by cases hj : o.jsonEnabled <;> simp [Cmd.init, hj]
    json := by cases hj : o.jsonEnabled <;> simp [Cmd.init, Chan.empty, hj]
    group := by cases hj : o.jsonEnabled <;> simp [Cmd.init, hj] }
  loop := ⟨by simp [Cmd.init], by simp [Cmd.init], by simp [Cmd.init], by simp [Cmd.init]⟩
  tracks := tracks_empty
  jsons := tracks_empty

namespace Cmd

variable {o : Options} {s s' : Cmd}

@[simp] theorem service_put_self (s : Cmd) (w : Which) (v : Service) :
    (s.put w v).service w = v := Function.update_self ..

@[simp] theorem service_put_of_ne (s : Cmd) {w w' : Which} (h : w' ≠ w) (v : Service) :
    (s.put w v).service w' = s.service w' := Function.update_of_ne h ..

/-- The services of the group of the decoder do not see the UDP server. -/
theorem innerFailed_congr (h : ∀ w, w ≠ .udp → s'.service w = s.service w) :
    s'.innerFailed = s.innerFailed := by
  simp [innerFailed, h .control (by simp), h .data (by simp), h .gateway (by simp)]

/-- After `Serve` has returned only the UDP server goes on. -/
theorem Services.eq_udp (h : s.Services o) {err : Bool} (hs : s.serve = .returned err)
    {w : Which} (hw : (s.service w).Live) : w = .udp := by
  by_contra hne
  exact (h.stopped hs).1 w hne hw

/-- A service goes on: what is to be shown is about the UDP server only. -/
theorem Services.put (h : s.Services o) {w : Which} {v : Service} (hw : (s.service w).Live)
    (hv : v ≠ .off) (hsvc : s'.service = Function.update s.service w v)
    (hserve : s'.serve = s.serve) (hout : s'.outQ = s.outQ)
    (hready : s.ready = true → s'.ready = true)
    (hctl : w = .control → v = .serving → s'.ready = true)
    (hjson : s'.jsonQ.closed = true ↔ o.jsonEnabled = true ∧ s'.service .udp = .returned false)
    (hgroup : s'.groupDone = true ↔ s.serve = .returned true ∨ s'.service .udp = .returned true) :
    s'.Services o := by
  have hne : ∀ {w'}, ¬ (s.service w').Live → w' ≠ w := by
    rintro w' hnot rfl
    exact hnot hw
  have hkeep : ∀ {w'}, ¬ (s.service w').Live → s'.service w' = s.service w' := by
    intro w' hnot
    rw [hsvc, Function.update_of_ne (hne hnot)]
  refine ⟨?_, ?_, ?_, ?_, ?_, ?_, ⟨?_, ?_⟩, hjson, by rw [hserve]; exact hgroup⟩
  · intro hwait
    obtain ⟨hd, hg⟩ := h.idle (hserve ▸ hwait)
    exact ⟨(hkeep (hd ▸ Service.not_live_off)).trans hd,
      (hkeep (hg ▸ Service.not_live_off)).trans hg⟩
  · intro hwait
    exact hready (h.started (hserve ▸ hwait))
  · by_cases hc : Which.control = w
    · rw [hsvc, hc, Function.update_self]
      exact hv
    · rw [hsvc, Function.update_of_ne hc]
      exact h.control
  · intro hserving
    by_cases hc : Which.control = w
    · rw [hsvc, hc, Function.update_self] at hserving
      exact hctl hc.symm hserving
    · rw [hsvc, Function.update_of_ne hc] at hserving
      exact hready (h.serving hserving)
  · rw [hout, hserve]
    exact h.closed
  · intro err herr
    rw [hserve] at herr
    obtain rfl := h.eq_udp herr hw
    have hothers : ∀ w', w' ≠ .udp → s'.service w' = s.service w' := by
      intro w' hw'
      rw [hsvc, Function.update_of_ne hw']
    obtain ⟨hstop, herr'⟩ := h.stopped herr
    refine ⟨fun w' hw' => ?_, ?_⟩
    · rw [hothers w' hw']
      exact hstop w' hw'
    · rw [innerFailed_congr hothers]
      exact herr'
  · by_cases hu : Which.udp = w
    · rw [hsvc, hu, Function.update_self]
      exact hv
    · rw [hsvc, Function.update_of_ne hu]
      exact h.udp.1
  · intro hoff
    have hret := h.udp.2 hoff
    exact (hkeep (hret ▸ Service.not_live_returned false)).trans hret

/-- A service other than the UDP server goes on. -/
theorem Services.put_inner (h : s.Services o) {w : Which} {v : Service}
    (hw : (s.service w).Live) (hne : w ≠ .udp) (hv : v ≠ .off)
    (hsvc : s'.service = Function.update s.service w v) (hserve : s'.serve = s.serve)
    (hout : s'.outQ = s.outQ) (hready : s.ready = true → s'.ready = true)
    (hctl : w = .control → v = .serving → s'.ready = true) (hjson : s'.jsonQ = s.jsonQ)
    (hgroup : s'.groupDone = s.groupDone) : s'.Services o := by
  have hudp : s'.service .udp = s.service .udp := by
    rw [hsvc, Function.update_of_ne hne.symm]
  refine h.put hw hv hsvc hserve hout hready hctl ?_ ?_
  · rw [hjson, hudp]
    exact h.json
  · rw [hgroup, hudp]
    exact h.group

/-- A step that no service takes. -/
theorem Services.congr (h : s.Services o) (hsvc : s'.service = s.service)
    (hserve : s'.serve = s.serve) (hout : s'.outQ.closed = s.outQ.closed)
    (hready : s'.ready = s.ready) (hjson : s'.jsonQ.closed = s.jsonQ.closed)
    (hgroup : s'.groupDone = s.groupDone) : s'.Services o where
  idle := by rw [hserve, hsvc]; exact h.idle
  started := by rw [hserve, hready]; exact h.started
  control := by rw [hsvc]; exact h.control
  serving := by rw [hsvc, hready]; exact h.serving
  closed := by rw [hout, hserve]; exact h.closed
  stopped := by
    intro err herr
    rw [hserve] at herr
    have hfail : s'.innerFailed = s.innerFailed := innerFailed_congr fun w _ => by rw [hsvc]
    rw [hsvc, hfail]
    exact h.stopped herr
  udp := by rw [hsvc]; exact h.udp
  json := by rw [hjson, hsvc]; exact h.json
  group := by rw [hgroup, hserve, hsvc]; exact h.group

/-- The loop sees the queues and the context of the group. -/
theorem Loop.congr (h : s.Loop) (hout : s'.outQ = s.outQ) (hjson : s'.jsonQ = s.jsonQ)
    (hactive : s'.active = s.active) (hloop : s'.looping = s.looping)
    (hgroup : s.groupDone = true → s'.groupDone = true) : s'.Loop where
  data := by rw [hactive, hout]; exact h.data
  json := by rw [hactive, hjson]; exact h.json
  runs := by rw [hactive, hloop]; exact h.runs
  left := by
    rw [hactive, hloop]
    exact fun hl => (h.left hl).imp_left hgroup

/-- A value for a queue that is open. -/
theorem receive_cases (h : s.outQ.closed = false) (r : Option RecData) :
    s.receive r = s ∨ ∃ x, r = some x ∧ s.receive r = { s with
      outQ := { s.outQ with queue := s.outQ.queue ++ [x] }, sent := s.sent ++ [x] } := by
  cases r with
  | none => exact Or.inl rfl
  | some x =>
      by_cases hlt : s.outQ.queue.length < qSize
      · refine Or.inr ⟨x, rfl, ?_⟩
        simp [receive, Chan.offer, h, hlt]
      · refine Or.inl ?_
        simp [receive, Chan.offer, h, hlt]

theorem receiveJson_cases (h : s.jsonQ.closed = false) (x : Bytes) :
    s.receiveJson x = s ∨ s.receiveJson x = { s with
      jsonQ := { s.jsonQ with queue := s.jsonQ.queue ++ [x] }, jsonSent := s.jsonSent ++ [x] } := by
  by_cases hlt : s.jsonQ.queue.length < qSize
  · refine Or.inr ?_
    simp [receiveJson, Chan.offer, h, hlt]
  · refine Or.inl ?_
    simp [receiveJson, Chan.offer, h, hlt]

theorem Services.open_of_live (h : s.Services o) {w : Which} (hw : w ≠ .udp)
    (hlive : (s.service w).Live) : s.outQ.closed = false := by
  refine Bool.eq_false_iff.mpr fun hc => ?_
  obtain ⟨err, herr⟩ := h.closed.mp hc
  exact (h.stopped herr).1 w hw hlive

theorem Services.json_open (h : s.Services o) (hlive : (s.service .udp).Live) :
    s.jsonQ.closed = false := by
  refine Bool.eq_false_iff.mpr fun hc => ?_
  rw [(h.json.mp hc).2] at hlive
  exact Service.not_live_returned false hlive

theorem Inv.receive (h : s.Inv o) (hdata : s.service .data = .serving) (r : Option RecData) :
    (s.receive r).Inv o := by
  have hopen := h.services.open_of_live (w := .data) (by simp) (Or.inr hdata)
  rcases receive_cases hopen r with heq | ⟨x, -, heq⟩
  · rw [heq]
    exact h
  · rw [heq]
    refine ⟨h.alive, h.services.congr rfl rfl rfl rfl rfl rfl, ⟨fun ha => ?_, h.loop.json,
      h.loop.runs, h.loop.left⟩, ?_, h.jsons⟩
    · have hc := (h.loop.data ha).2
      rw [hopen] at hc
      cases hc
    · have htr := h.tracks
      rw [Tracks] at htr ⊢
      rw [← htr, List.append_assoc]

theorem Inv.receiveJson (h : s.Inv o) (hudp : s.service .udp = .serving) (x : Bytes) :
    (s.receiveJson x).Inv o := by
  have hopen := h.services.json_open (Or.inr hudp)
  rcases receiveJson_cases hopen x with heq | heq
  · rw [heq]
    exact h
  · rw [heq]
    refine ⟨h.alive, h.services.congr rfl rfl rfl rfl rfl rfl, ⟨h.loop.data, fun ha => ?_,
      h.loop.runs, h.loop.left⟩, h.tracks, ?_⟩
    · have hc := (h.loop.json ha).2
      rw [hopen] at hc
      cases hc
    · have htr := h.jsons
      rw [Tracks] at htr ⊢
      rw [← htr, List.append_assoc]

theorem Services.stopUdp_eq (h : s.Services o) (hudp : s.service .udp = .serving) :
    s.stopUdp
      = { s.put .udp (.returned false) with jsonQ := { s.jsonQ with closed := true } } := by
  simp [Cmd.stopUdp, Chan.close, h.json_open (Or.inr hudp)]

theorem Inv.stopUdp (h : s.Inv o) (hudp : s.service .udp = .serving) : s.stopUdp.Inv o := by
  have hon : o.jsonEnabled = true := by
    refine Bool.not_eq_false _ ▸ fun hoff => ?_
    rw [h.services.udp.2 hoff] at hudp
    cases hudp
  rw [h.services.stopUdp_eq hudp]
  refine ⟨h.alive, ?_, ⟨h.loop.data, fun ha => ⟨(h.loop.json ha).1, rfl⟩, h.loop.runs,
    h.loop.left⟩, h.tracks, h.jsons⟩
  refine h.services.put (Or.inr hudp) (by simp) rfl rfl rfl id (by simp) ?_ ?_
  · simp [hon]
  · have hgroup := h.services.group
    rw [hudp] at hgroup
    simpa [put] using hgroup

theorem Services.serveReturns_eq (h : s.Services o) (hrun : s.serve = .running) :
    s.serveReturns = { s with
      outQ := { s.outQ with closed := true }
      serve := .returned s.innerFailed
      groupDone := s.groupDone || s.innerFailed } := by
  have hopen : s.outQ.closed = false := by
    refine Bool.eq_false_iff.mpr fun hc => ?_
    obtain ⟨err, herr⟩ := h.closed.mp hc
    rw [hrun] at herr
    cases herr
  simp [Cmd.serveReturns, Chan.close, hopen]

theorem Inv.serveReturns (h : s.Inv o) (hrun : s.serve = .running)
    (hstop : s.innerStopped = true) : s.serveReturns.Inv o := by
  rw [h.services.serveReturns_eq hrun]
  refine ⟨h.alive, ?_, ⟨fun ha => ⟨(h.loop.data ha).1, rfl⟩, h.loop.json, h.loop.runs,
    fun hl => (h.loop.left hl).imp_left fun hg => by simp [hg]⟩, h.tracks, h.jsons⟩
  have hgroup := h.services.group
  refine ⟨by simp, fun _ => h.services.started (by rw [hrun]; simp), h.services.control,
    h.services.serving, by simp, fun herr => ⟨s.innerStopped_iff.mp hstop, ?_⟩, h.services.udp,
    h.services.json, ?_⟩
  · exact (Serve.returned.inj herr).symm
  · rw [hrun] at hgroup
    simp only [reduceCtorEq, false_or] at hgroup
    simp [hgroup, or_comm]

/-- A branch of the loop handles a value or finds the queue closed. -/
theorem Loop.takeData_cases (h : s.Loop) {r : Option RecData} {q : Chan RecData}
    (hr : s.outQ.recv = some (r, q)) :
    (∃ x, r = some x ∧ s.active.1 = true ∧ s.outQ.queue = x :: q.queue
        ∧ s.takeData q r = { s with outQ := q, handled := s.handled ++ [x] })
      ∨ (r = none ∧ s.outQ.queue = [] ∧ s.outQ.closed = true
        ∧ s.takeData q r = { s with active := (false, s.active.2), looping := s.active.2 }) := by
  cases r with
  | some x =>
      have hq := (Chan.of_recv_some hr).1
      have ha : s.active.1 = true := by
        refine Bool.not_eq_false _ ▸ fun hn => ?_
        rw [(h.data hn).1] at hq
        cases hq
      exact Or.inl ⟨x, rfl, ha, hq, by simp [takeData, ha]⟩
  | none =>
      obtain ⟨rfl, hq, hc⟩ := Chan.of_recv_none hr
      exact Or.inr ⟨rfl, hq, hc, by simp [takeData, deactivate]⟩

theorem Loop.takeJson_cases (h : s.Loop) {r : Option Bytes} {q : Chan Bytes}
    (hr : s.jsonQ.recv = some (r, q)) :
    (∃ x, r = some x ∧ s.active.2 = true ∧ s.jsonQ.queue = x :: q.queue
        ∧ s.takeJson q r = { s with jsonQ := q, jsonHandled := s.jsonHandled ++ [x] })
      ∨ (r = none ∧ s.jsonQ.queue = [] ∧ s.jsonQ.closed = true
        ∧ s.takeJson q r = { s with active := (s.active.1, false), looping := s.active.1 }) := by
  cases r with
  | some x =>
      have hq := (Chan.of_recv_some hr).1
      have ha : s.active.2 = true := by
        refine Bool.not_eq_false _ ▸ fun hn => ?_
        rw [(h.json hn).1] at hq
        cases hq
      exact Or.inl ⟨x, rfl, ha, hq, by simp [takeJson, ha]⟩
  | none =>
      obtain ⟨rfl, hq, hc⟩ := Chan.of_recv_none hr
      exact Or.inr ⟨rfl, hq, hc, by simp [takeJson, deactivate]⟩

theorem Inv.takeData (h : s.Inv o) {r : Option RecData} {q : Chan RecData}
    (hr : s.outQ.recv = some (r, q)) : (s.takeData q r).Inv o := by
  rcases h.loop.takeData_cases hr with ⟨x, rfl, ha, hq, heq⟩ | ⟨rfl, hq, hc, heq⟩
  · rw [heq]
    refine ⟨h.alive, h.services.congr rfl rfl (Chan.of_recv_some hr).2 rfl rfl rfl,
      ⟨fun hn => ?_, h.loop.json, h.loop.runs, h.loop.left⟩, h.tracks.recv hr, h.jsons⟩
    exact absurd (ha.symm.trans hn) (by simp)
  · rw [heq]
    refine ⟨h.alive, h.services.congr rfl rfl rfl rfl rfl rfl,
      ⟨fun _ => ⟨hq, hc⟩, h.loop.json, fun hl => ?_, fun hl => Or.inr ?_⟩, h.tracks, h.jsons⟩
    · simpa using hl
    · simpa using hl

theorem Inv.takeJson (h : s.Inv o) {r : Option Bytes} {q : Chan Bytes}
    (hr : s.jsonQ.recv = some (r, q)) : (s.takeJson q r).Inv o := by
  rcases h.loop.takeJson_cases hr with ⟨x, rfl, ha, hq, heq⟩ | ⟨rfl, hq, hc, heq⟩
  · rw [heq]
    refine ⟨h.alive, h.services.congr rfl rfl rfl rfl (Chan.of_recv_some hr).2 rfl,
      ⟨h.loop.data, fun hn => ?_, h.loop.runs, h.loop.left⟩, h.tracks, h.jsons.recv hr⟩
    exact absurd (ha.symm.trans hn) (by simp)
  · rw [heq]
    refine ⟨h.alive, h.services.congr rfl rfl rfl rfl rfl rfl,
      ⟨h.loop.data, fun _ => ⟨hq, hc⟩, fun hl => ?_, fun hl => Or.inr ?_⟩, h.tracks, h.jsons⟩
    · simpa using hl
    · simpa using hl

theorem Inv.step {l : Event} (h : s.Inv o) (hs : Step o s l s') : s'.Inv o := by
  cases hs with
  | signal | cancelServer | cancelUdp =>
      exact ⟨h.alive, h.services.congr rfl rfl rfl rfl rfl rfl, h.loop.congr rfl rfl rfl rfl id,
        h.tracks, h.jsons⟩
  | @listens w hw =>
      refine ⟨h.alive, ?_, h.loop.congr rfl rfl rfl rfl id, h.tracks, h.jsons⟩
      by_cases hu : w = .udp
      · subst hu
        have hjson := h.services.json
        have hgroup := h.services.group
        rw [hw] at hjson hgroup
        exact h.services.put (Or.inl hw) (by simp) rfl rfl rfl (fun hr => by simp [hr]) (by simp)
          (by simpa [put] using hjson) (by simpa [put] using hgroup)
      · exact h.services.put_inner (Or.inl hw) hu (by simp) rfl rfl rfl (fun hr => by simp [hr])
          (fun hc _ => by simp [hc]) rfl rfl
  | @fails w hw =>
      refine ⟨h.alive, ?_, h.loop.congr rfl rfl rfl rfl (fun hg => by simp [hg]), h.tracks, h.jsons⟩
      by_cases hu : w = .udp
      · subst hu
        have hopen := h.services.json_open hw
        exact h.services.put hw (by simp) rfl rfl rfl id (by simp) (by simp [hopen, put])
          (by simp)
      · exact h.services.put_inner hw hu (by simp) rfl rfl rfl id (by simp) rfl (by simp [hu])
  | @stops w hu hw hc =>
      exact ⟨h.alive, h.services.put_inner (Or.inr hw) hu (by simp) rfl rfl rfl id (by simp) rfl rfl,
        h.loop.congr rfl rfl rfl rfl id, h.tracks, h.jsons⟩
  | stopsUdp hudp hc => exact h.stopUdp hudp
  | waited hwait hready =>
      have hclosed := h.services.closed
      have hgroup := h.services.group
      rw [hwait] at hclosed hgroup
      refine ⟨h.alive, ⟨by simp, fun _ => hready, ?_, ?_, ?_, by simp, ?_, ?_, ?_⟩,
        h.loop.congr rfl rfl rfl rfl id, h.tracks, h.jsons⟩
      · simpa using h.services.control
      · exact fun _ => hready
      · simpa [put] using hclosed
      · simpa using h.services.udp
      · simpa [put] using h.services.json
      · simpa [put] using hgroup
  | datagram hdata => exact h.receive hdata _
  | json hudp => exact h.receiveJson hudp _
  | serveReturns hrun hstop => exact h.serveReturns hrun hstop
  | takeData hl hr => exact h.takeData hr
  | takeJson hl hr => exact h.takeJson hr
  | loopDone hl hg =>
      exact ⟨h.alive, h.services.congr rfl rfl rfl rfl rfl rfl, ⟨h.loop.data, h.loop.json,
        fun hn => Bool.noConfusion hn, fun _ => Or.inl hg⟩, h.tracks, h.jsons⟩

/-- **WHAT EVERY RUN KEEPS.** -/
theorem inv_run {tr : List (Cmd × Event)} (h : Run (CmdStep o) (Cmd.init o) tr s) : s.Inv o :=
  h.invariant (Cmd.inv_init o) fun hinv hstep => hinv.step hstep.2

end Cmd

/-- The flags that start everything. -/
def allOptions : Options where
  dataBufferSize := 65535
  dataEnabled := true
  gatewayEnabled := true
  jsonBufferSize := 65535
  jsonEnabled := true

/-- The services start and a datagram is read. -/
theorem exists_datagram : ∃ tr s, Run (CmdStep allOptions) (Cmd.init allOptions) tr s
    ∧ s.sent.length = 1 := by
  have h₁ := (Run.start : Run (CmdStep allOptions) (Cmd.init allOptions) [] _).next
    ⟨rfl, Step.listens (w := .control) rfl⟩
  have h₂ := h₁.next ⟨rfl, Step.waited rfl rfl⟩
  have h₃ := h₂.next ⟨rfl, Step.listens (w := .data) rfl⟩
  exact ⟨_, _, h₃.next (l := .datagram (List.replicate 16 0)) ⟨rfl, Step.datagram rfl⟩, rfl⟩

/-- **NO PANIC.**  Nothing is sent to a queue that is closed, and no queue is closed
    twice. -/
theorem never_panics {o : Options} {tr : List (Cmd × Event)} {s : Cmd}
    (h : Run (CmdStep o) (Cmd.init o) tr s) : s.panicked = false :=
  (Cmd.inv_run h).alive

/-- A datagram is queued. -/
theorem never_panics_queued : ∃ s : Cmd, s.sent.length = 1 ∧ s.panicked = false := by
  obtain ⟨tr, s, hrun, hsent⟩ := exists_datagram
  exact ⟨s, hsent, never_panics hrun⟩

/-! ## How it ends -/

namespace Cmd

variable {o : Options} {s s' : Cmd}

/-- Some service has returned an error. -/
def Failed (s : Cmd) : Prop := ∃ w, s.service w = .returned true

/-- The control server listens or is about to, and the queue for JSON will be closed or
    the context of the group will end. -/
def CanEnd (o : Options) (s : Cmd) : Prop :=
  (s.ready = false → (s.service .control).Live) ∧ (o.jsonEnabled = true ∨ s.Failed)

end Cmd

/-- What a service has left to do. -/
def Service.left : Service → Nat
  | .starting => 2
  | .serving => 1
  | _ => 0

def Serve.left : Serve → Nat
  | .waiting => 6
  | .running => 1
  | .returned _ => 0

/-- The step is not a service's error. -/
def NoFailure (_ : Cmd) (l : Event) : Prop := ∀ w, l ≠ .fails w

namespace Cmd

variable {o : Options} {s s' : Cmd}

theorem canEnd_congr (hsvc : s'.service = s.service) (hready : s'.ready = s.ready) :
    s'.CanEnd o ↔ s.CanEnd o := by
  rw [CanEnd, CanEnd, Failed, Failed, hsvc, hready]

/-- A service that has not failed moves on without failing. -/
theorem failed_put {w : Which} {v : Service} (hw : s.service w ≠ .returned true)
    (hv : v ≠ .returned true) (hsvc : s'.service = Function.update s.service w v) :
    s'.Failed ↔ s.Failed := by
  refine exists_congr fun w' => ?_
  rw [hsvc]
  by_cases h : w' = w
  · subst h
    rw [Function.update_self]
    exact ⟨fun h => absurd h hv, fun h => absurd h hw⟩
  · rw [Function.update_of_ne h]

theorem canEnd_put {w : Which} {v : Service} (hw : (s.service w).Live)
    (hv : v ≠ .returned true) (hsvc : s'.service = Function.update s.service w v)
    (hready : w ≠ .control → s'.ready = s.ready)
    (hctl : w = .control → s'.ready = true) : s'.CanEnd o ↔ s.CanEnd o := by
  have hfail : s'.Failed ↔ s.Failed := by
    refine failed_put (fun hr => ?_) hv hsvc
    rw [hr] at hw
    exact Service.not_live_returned true hw
  refine and_congr ?_ (or_congr Iff.rfl hfail)
  by_cases hc : w = .control
  · subst hc
    simp [hctl rfl, hw]
  · rw [hready hc, hsvc, Function.update_of_ne (Ne.symm hc)]

/-- Without a failure, whether the command can end does not change. -/
theorem Inv.canEnd_step {l : Event} (h : s.Inv o) (hs : Step o s l s') (hl : NoFailure s l) :
    s'.CanEnd o ↔ s.CanEnd o := by
  cases hs with
  | signal | cancelServer | cancelUdp | loopDone => exact canEnd_congr rfl rfl
  | @listens w hw =>
      exact canEnd_put (Or.inl hw) (by simp) rfl (fun hc => by simp [hc]) (fun hc => by simp [hc])
  | @fails w hw => exact absurd rfl (hl w)
  | @stops w hu hw hc =>
      exact canEnd_put (Or.inr hw) (by simp) rfl (fun _ => rfl)
        (fun hc => h.services.serving (hc ▸ hw))
  | stopsUdp hudp hc =>
      rw [h.services.stopUdp_eq hudp]
      exact canEnd_put (Or.inr hudp) (by simp) rfl (fun _ => rfl) (by simp)
  | waited hwait hready =>
      obtain ⟨hd, hg⟩ := h.services.idle hwait
      refine and_congr (by simp [hready, put]) (or_congr Iff.rfl (exists_congr fun w => ?_))
      cases w with
      | control => simp
      | udp => simp
      | data => cases hon : o.dataEnabled <;> simp [hd]
      | gateway => cases hon : o.gatewayEnabled <;> simp [hg]
  | datagram hdata =>
      have hopen := h.services.open_of_live (w := .data) (by simp) (Or.inr hdata)
      rcases receive_cases hopen (recData _) with heq | ⟨x, -, heq⟩ <;> rw [heq]
      exact canEnd_congr rfl rfl
  | json hudp =>
      have hopen := h.services.json_open (Or.inr hudp)
      rcases receiveJson_cases hopen _ with heq | heq <;> rw [heq]
      exact canEnd_congr rfl rfl
  | serveReturns hrun hstop =>
      rw [h.services.serveReturns_eq hrun]
      exact canEnd_congr rfl rfl
  | takeData hlo hr =>
      rcases h.loop.takeData_cases hr with ⟨x, -, -, -, heq⟩ | ⟨-, -, -, heq⟩ <;> rw [heq] <;>
        exact canEnd_congr rfl rfl
  | takeJson hlo hr =>
      rcases h.loop.takeJson_cases hr with ⟨x, -, -, -, heq⟩ | ⟨-, -, -, heq⟩ <;> rw [heq] <;>
        exact canEnd_congr rfl rfl

theorem signalled_step {l : Event} (h : s.Inv o) (hs : Step o s l s')
    (hsig : s.signalled = true) : s'.signalled = true := by
  cases hs with
  | signal => rfl
  | stopsUdp hudp hc => rwa [h.services.stopUdp_eq hudp]
  | datagram hdata =>
      have hopen := h.services.open_of_live (w := .data) (by simp) (Or.inr hdata)
      rcases receive_cases hopen (recData _) with heq | ⟨x, -, heq⟩ <;> rwa [heq]
  | json hudp =>
      have hopen := h.services.json_open (Or.inr hudp)
      rcases receiveJson_cases hopen _ with heq | heq <;> rwa [heq]
  | serveReturns hrun hstop => rwa [h.services.serveReturns_eq hrun]
  | takeData hlo hr =>
      rcases h.loop.takeData_cases hr with ⟨x, -, -, -, heq⟩ | ⟨-, -, -, heq⟩ <;> rwa [heq]
  | takeJson hlo hr =>
      rcases h.loop.takeJson_cases hr with ⟨x, -, -, -, heq⟩ | ⟨-, -, -, heq⟩ <;> rwa [heq]
  | _ => exact hsig

/-- Where the command has ended, it could end. -/
theorem Inv.canEnd_of_ended (h : s.Inv o) (hend : s.Ended) : s.CanEnd o := by
  obtain ⟨hloop, ⟨err, herr⟩, -⟩ := hend
  have hready : s.ready = true := h.services.started (by rw [herr]; simp)
  refine ⟨fun hn => absurd (hready.symm.trans hn) (by simp), ?_⟩
  rcases h.loop.left hloop with hgroup | hactive
  · right
    rcases h.services.group.mp hgroup with hserve | hudp
    · have hfail := (h.services.stopped hserve).2.symm
      obtain ⟨w, -, hw⟩ := s.innerFailed_iff.mp hfail
      exact ⟨w, hw⟩
    · exact ⟨.udp, hudp⟩
  · left
    exact (h.services.json.mp (h.loop.json (by rw [hactive])).2).1

/-! ### Step by step to the end -/

/-- What is left to be done. -/
def left (s : Cmd) : Nat :=
  (!s.serverDone).toNat + (!s.udpDone).toNat + Service.left (s.service .control)
    + Service.left (s.service .data) + Service.left (s.service .gateway)
    + Service.left (s.service .udp) + Serve.left s.serve + s.looping.toNat + s.active.1.toNat
    + s.active.2.toNat + s.outQ.queue.length + s.jsonQ.queue.length

/-- A service that moves on has less to do. -/
theorem left_put {w : Which} {v : Service} (h : Service.left v < Service.left (s.service w)) :
    (s.put w v).left < s.left := by
  cases w <;> simp [left, put, Function.update] <;> omega

theorem Loop.left_takeData (h : s.Loop) {r : Option RecData} {q : Chan RecData}
    (hr : s.outQ.recv = some (r, q)) (hl : s.looping = true) (ha : s.active.1 = true) :
    (s.takeData q r).left < s.left := by
  rcases h.takeData_cases hr with ⟨x, -, -, hq, heq⟩ | ⟨-, -, -, heq⟩ <;> rw [heq]
  · simp [Cmd.left, hq]
  · cases hb : s.active.2 <;> simp [Cmd.left, ha, hl, hb]

theorem Loop.left_takeJson (h : s.Loop) {r : Option Bytes} {q : Chan Bytes}
    (hr : s.jsonQ.recv = some (r, q)) (hl : s.looping = true) (ha : s.active.2 = true) :
    (s.takeJson q r).left < s.left := by
  rcases h.takeJson_cases hr with ⟨x, -, -, hq, heq⟩ | ⟨-, -, -, heq⟩ <;> rw [heq]
  · simp [Cmd.left, hq]
  · cases hb : s.active.1 <;> simp [Cmd.left, ha, hl, hb]

/-- While a service is live, it can go on. -/
theorem Inv.live_step (h : s.Inv o) (hserver : s.serverDone = true) (hudp : s.udpDone = true)
    {w : Which} (hw : (s.service w).Live) :
    ∃ l s', Step o s l s' ∧ NoFailure s l ∧ s'.left < s.left := by
  have hctx : s.contextDone w = true := by cases w <;> simp [contextDone, hserver, hudp]
  rcases hw with hw | hw
  · refine ⟨_, _, Step.listens hw, by simp [NoFailure], ?_⟩
    exact left_put (s := s) (w := w) (v := .serving) (by simp [hw, Service.left])
  · by_cases hu : w = .udp
    · subst hu
      refine ⟨_, _, Step.stopsUdp hw hctx, by simp [NoFailure], ?_⟩
      rw [h.services.stopUdp_eq hw]
      exact left_put (s := s) (w := .udp) (v := .returned false) (by simp [hw, Service.left])
    · exact ⟨_, _, Step.stops hu hw hctx, by simp [NoFailure],
        left_put (by simp [hw, Service.left])⟩

/-- When all services have returned, `Serve` can go on. -/
theorem Inv.serve_step (h : s.Inv o) (hcan : s.CanEnd o) (hdead : ∀ w, ¬ (s.service w).Live)
    (hserve : ∀ err, s.serve ≠ .returned err) :
    ∃ l s', Step o s l s' ∧ NoFailure s l ∧ s'.left < s.left := by
  cases hs : s.serve with
  | returned err => exact absurd hs (hserve err)
  | waiting =>
      have hready : s.ready = true := by
        refine Bool.not_eq_false _ ▸ fun hn => ?_
        exact hdead .control (hcan.1 hn)
      obtain ⟨hd, hg⟩ := h.services.idle hs
      refine ⟨_, _, Step.waited hs hready, by simp [NoFailure], ?_⟩
      cases hon : o.dataEnabled <;> cases hgon : o.gatewayEnabled <;>
        simp [left, put, Function.update, hs, hd, hg, Serve.left, Service.left] <;> omega
  | running =>
      have hstop := s.innerStopped_iff.mpr fun w _ => hdead w
      refine ⟨_, _, Step.serveReturns hs hstop, by simp [NoFailure], ?_⟩
      rw [h.services.serveReturns_eq hs]
      simp [left, hs, Serve.left]

/-- When the services and `Serve` have returned, the loop can go on. -/
theorem Inv.loop_step (h : s.Inv o) (hcan : s.CanEnd o) (hloop : s.looping = true)
    {err err' : Bool} (hserve : s.serve = .returned err)
    (hudp : s.service .udp = .returned err') :
    ∃ l s', Step o s l s' ∧ NoFailure s l ∧ s'.left < s.left := by
  cases hg : s.groupDone with
  | true =>
      refine ⟨_, _, Step.loopDone hloop hg, by simp [NoFailure], ?_⟩
      simp [left, hloop]
  | false =>
      -- nobody has failed, so both queues are closed
      have hnone : ¬ (s.serve = .returned true ∨ s.service .udp = .returned true) :=
        fun hor => Bool.noConfusion (hg.symm.trans (h.services.group.mpr hor))
      have hfailed : ¬ s.Failed := by
        rintro ⟨w, hw⟩
        by_cases hu : w = .udp
        · exact hnone (Or.inr (hu ▸ hw))
        · have hfail := s.innerFailed_iff.mpr ⟨w, hu, hw⟩
          rw [← (h.services.stopped hserve).2] at hfail
          exact hnone (Or.inl (hfail ▸ hserve))
      have hclosed : s.outQ.closed = true := h.services.closed.mpr ⟨err, hserve⟩
      have hjson : s.jsonQ.closed = true := by
        refine h.services.json.mpr ⟨hcan.2.resolve_right hfailed, ?_⟩
        cases err' with
        | false => exact hudp
        | true => exact absurd (Or.inr hudp) hnone
      cases ha : s.active.1 with
      | true =>
          obtain ⟨r, q, hr⟩ := Chan.exists_recv hclosed
          exact ⟨_, _, Step.takeData hloop hr, by simp [NoFailure], h.loop.left_takeData hr hloop ha⟩
      | false =>
          have hj : s.active.2 = true := by
            refine Bool.not_eq_false _ ▸ fun hn => ?_
            exact h.loop.runs hloop (Prod.ext ha hn)
          obtain ⟨r, q, hr⟩ := Chan.exists_recv hjson
          exact ⟨_, _, Step.takeJson hloop hr, by simp [NoFailure], h.loop.left_takeJson hr hloop hj⟩

/-- What brings the command nearer to its end. -/
theorem Inv.next_step (h : s.Inv o) (hsig : s.signalled = true) (hcan : s.CanEnd o)
    (hend : ¬ s.Ended) : ∃ l s', Step o s l s' ∧ NoFailure s l ∧ s'.left < s.left := by
  cases hserver : s.serverDone with
  | false =>
      refine ⟨_, _, Step.cancelServer hsig, by simp [NoFailure], ?_⟩
      simp [left, hserver]
  | true =>
      cases hudp : s.udpDone with
      | false =>
          refine ⟨_, _, Step.cancelUdp hsig, by simp [NoFailure], ?_⟩
          simp [left, hudp]
      | true =>
          by_cases hlive : ∃ w, (s.service w).Live
          · obtain ⟨w, hw⟩ := hlive
            exact h.live_step hserver hudp hw
          · have hdead : ∀ w, ¬ (s.service w).Live := fun w hw => hlive ⟨w, hw⟩
            by_cases hserve : ∃ err, s.serve = .returned err
            · obtain ⟨err, herr⟩ := hserve
              obtain ⟨err', herr'⟩ : ∃ err', s.service .udp = .returned err' := by
                have hoff := h.services.udp.1
                have hdead' := hdead .udp
                cases hu : s.service .udp with
                | returned err' => exact ⟨err', rfl⟩
                | _ => simp [hu, Service.Live] at hoff hdead'
              have hloop : s.looping = true := by
                refine Bool.not_eq_false _ ▸ fun hl => ?_
                exact hend ⟨hl, ⟨err, herr⟩, err', herr'⟩
              exact h.loop_step hcan hloop herr herr'
            · exact h.serve_step hcan hdead fun err herr => hserve ⟨err, herr⟩

end Cmd

/-- **WHEN THE COMMAND ENDS.**  From every state that any run has led to, whatever has
    failed in it, once a signal was received: the command can return without a further
    failure exactly if the control server has not failed to listen, and the UDP server for
    JSON is enabled or some service has failed.  The flag of that server is off unless it
    is given; the loop then waits for the end of a queue that nobody closes. -/
theorem ends_iff {o : Options} {tr : List (Cmd × Event)} {s : Cmd}
    (h : Run (CmdStep o) (Cmd.init o) tr s) (hsig : s.signalled = true) :
    (∃ tr' s', Run (CmdStep o) s tr' s' ∧ Meets NoFailure tr' ∧ s'.Ended) ↔ s.CanEnd o := by
  have hinv := Cmd.inv_run h
  constructor
  · rintro ⟨tr', s', hrun, hmeets, hend⟩
    have hkeep : s'.Inv o ∧ (s'.CanEnd o ↔ s.CanEnd o) := by
      clear hend
      induction hrun with
      | start => exact ⟨hinv, Iff.rfl⟩
      | next _ hs ih =>
          obtain ⟨hm, hl⟩ := meets_snoc.mp hmeets
          obtain ⟨hi, hiff⟩ := ih hm
          exact ⟨hi.step hs.2, (hi.canEnd_step hs.2 hl).trans hiff⟩
    exact hkeep.2.mp (hkeep.1.canEnd_of_ended hend)
  · intro hcan
    have hprogress : ∀ s : Cmd, (s.Inv o ∧ s.signalled = true ∧ s.CanEnd o) → ¬ s.Ended →
        ∃ l s', CmdStep o s l s' ∧ NoFailure s l
          ∧ (s'.Inv o ∧ s'.signalled = true ∧ s'.CanEnd o) ∧ s'.left < s.left := by
      rintro s ⟨hi, hsig, hcan⟩ hend
      obtain ⟨l, s', hs, hl, hlt⟩ := hi.next_step hsig hcan hend
      exact ⟨l, s', ⟨hi.alive, hs⟩, hl,
        ⟨hi.step hs, Cmd.signalled_step hi hs hsig, (hi.canEnd_step hs hl).mpr hcan⟩, hlt⟩
    obtain ⟨tr', s', hrun, hmeets, -, hend⟩ :=
      exists_run_of_measure Cmd.left hprogress ⟨hinv, hsig, hcan⟩
    exact ⟨tr', s', hrun, hmeets, hend⟩

/-- The flags as they are if none is given. -/
def defaultOptions : Options where
  dataBufferSize := 65535
  dataEnabled := false
  gatewayEnabled := false
  jsonBufferSize := 65535
  jsonEnabled := false

/-- With the default flags the command does not return after a signal. -/
theorem default_never_ends : ∃ tr s, Run (CmdStep defaultOptions) (Cmd.init defaultOptions) tr s
    ∧ s.signalled = true ∧ ¬ ∃ tr' s', Run (CmdStep defaultOptions) s tr' s'
      ∧ Meets NoFailure tr' ∧ s'.Ended := by
  have hs : CmdStep defaultOptions (Cmd.init defaultOptions) .signal _ := ⟨rfl, Step.signal⟩
  refine ⟨_, _, Run.start.next hs, rfl, ?_⟩
  rw [ends_iff (Run.start.next hs) rfl]
  rintro ⟨-, hjson | ⟨w, hw⟩⟩
  · cases hjson
  · cases w <;> cases hw

/-! ## What is handled -/

/-- On every run what the loop has handled is a part of what was queued, from the first on
    and in order; and if the command ends without a failure, it is everything. -/
theorem drained {o : Options} {tr : List (Cmd × Event)} {s : Cmd}
    (h : Run (CmdStep o) (Cmd.init o) tr s) :
    s.handled <+: s.sent ∧ s.jsonHandled <+: s.jsonSent
    ∧ (s.Ended → ¬ s.Failed → s.handled = s.sent ∧ s.jsonHandled = s.jsonSent) := by
  have hinv := Cmd.inv_run h
  refine ⟨⟨_, hinv.tracks⟩, ⟨_, hinv.jsons⟩, fun hend hfail => ?_⟩
  have hactive : s.active = (false, false) := by
    refine (hinv.loop.left hend.1).resolve_left fun hgroup => hfail ?_
    rcases hinv.services.group.mp hgroup with hserve | hudp
    · obtain ⟨w, -, hw⟩ := s.innerFailed_iff.mp (hinv.services.stopped hserve).2.symm
      exact ⟨w, hw⟩
    · exact ⟨.udp, hudp⟩
  have hout := (hinv.loop.data (by rw [hactive])).1
  have hjson := (hinv.loop.json (by rw [hactive])).1
  have htracks : s.handled ++ s.outQ.queue = s.sent := hinv.tracks
  have hjsons : s.jsonHandled ++ s.jsonQ.queue = s.jsonSent := hinv.jsons
  rw [hout, List.append_nil] at htracks
  rw [hjson, List.append_nil] at hjsons
  exact ⟨htracks, hjsons⟩

/-- What the datagrams of a run hold, in the order in which they were read. -/
def arrived (o : Options) (tr : List (Cmd × Event)) : List RecData :=
  tr.filterMap fun x => match x.2 with
    | .datagram packet => recData (packet.take o.dataBufferSize)
    | _ => none

/-- The queue has room for what a datagram holds. -/
def HasRoom (o : Options) (s : Cmd) : Event → Prop
  | .datagram packet =>
      (recData (packet.take o.dataBufferSize)).isSome = true → s.outQ.queue.length < qSize
  | _ => True

theorem arrived_snoc (o : Options) (tr : List (Cmd × Event)) (s : Cmd) (l : Event) :
    arrived o (tr ++ [(s, l)]) = arrived o tr ++ arrived o [(s, l)] := by
  simp [arrived]

/-- Only a datagram puts something in the queue of the decoder. -/
theorem Cmd.Inv.sent_step {o : Options} {s s' : Cmd} {l : Event} (h : s.Inv o)
    (hs : Step o s l s') (hl : ∀ packet, l ≠ .datagram packet) : s'.sent = s.sent := by
  cases hs with
  | datagram hdata => exact absurd rfl (hl _)
  | stopsUdp hudp hc => rw [h.services.stopUdp_eq hudp]; rfl
  | json hudp =>
      have hopen := h.services.json_open (Or.inr hudp)
      rcases Cmd.receiveJson_cases hopen _ with heq | heq <;> rw [heq]
  | serveReturns hrun hstop => rw [h.services.serveReturns_eq hrun]
  | takeData hlo hr =>
      rcases h.loop.takeData_cases hr with ⟨x, -, -, -, heq⟩ | ⟨-, -, -, heq⟩ <;> rw [heq]
  | takeJson hlo hr =>
      rcases h.loop.takeJson_cases hr with ⟨x, -, -, -, heq⟩ | ⟨-, -, -, heq⟩ <;> rw [heq]
  | _ => rfl

/-- What is queued is what has arrived, but for what came when the queue was full. -/
theorem sent_of_arrived {o : Options} {tr : List (Cmd × Event)} {s : Cmd}
    (h : Run (CmdStep o) (Cmd.init o) tr s) :
    s.sent.Sublist (arrived o tr) ∧ (s.sent = arrived o tr ↔ Meets (HasRoom o) tr) := by
  induction h with
  | start => exact ⟨List.Sublist.refl _, fun _ => meets_nil, fun _ => rfl⟩
  | @next tr s l s' hrun hs ih =>
      have hinv := Cmd.inv_run hrun
      obtain ⟨hsub, hiff⟩ := ih
      rw [arrived_snoc, meets_snoc, ← hiff]
      by_cases hl : ∃ packet, l = .datagram packet
      · obtain ⟨packet, rfl⟩ := hl
        cases hs.2 with
        | datagram hdata =>
            have hopen := hinv.services.open_of_live (w := .data) (by simp) (Or.inr hdata)
            cases hx : recData (packet.take o.dataBufferSize) with
            | none => simpa [arrived, hx, Cmd.receive, HasRoom] using hsub
            | some x =>
                by_cases hroom : s.outQ.queue.length < qSize
                · simpa [arrived, hx, Cmd.receive, HasRoom, Chan.offer, hopen, hroom] using hsub
                · have hne : s.sent ≠ arrived o tr ++ [x] := by
                    intro heq
                    have hlen := hsub.length_le
                    rw [heq, List.length_append] at hlen
                    simp at hlen
                  have hfull : ¬ HasRoom o s (.datagram packet) := by simp [HasRoom, hx, hroom]
                  have hnew : arrived o [(s, .datagram packet)] = [x] := by simp [arrived, hx]
                  have hdrop : s.receive (some x) = s := by
                    simp [Cmd.receive, Chan.offer, hopen, hroom]
                  rw [hnew, hdrop]
                  exact ⟨hsub.trans (List.sublist_append_left _ _), fun heq => absurd heq hne,
                    fun hor => absurd hor.2 hfull⟩
      · rw [hinv.sent_step hs.2 fun packet hp => hl ⟨packet, hp⟩]
        cases l with
        | datagram packet => exact absurd ⟨packet, rfl⟩ hl
        | _ => simpa [arrived, HasRoom] using hsub

/-- **WHAT IS HANDLED.**  On every run what the decoder has handled is among what the
    datagrams held, in the order in which they came; and when the command ends without a
    failure, it is all of it exactly if the queue had room whenever a datagram came. -/
theorem handles_all_iff {o : Options} {tr : List (Cmd × Event)} {s : Cmd}
    (h : Run (CmdStep o) (Cmd.init o) tr s) :
    s.handled.Sublist (arrived o tr)
    ∧ (s.Ended → ¬ s.Failed → (s.handled = arrived o tr ↔ Meets (HasRoom o) tr)) := by
  obtain ⟨hsub, hiff⟩ := sent_of_arrived h
  obtain ⟨hpre, -, hall⟩ := drained h
  refine ⟨hpre.sublist.trans hsub, fun hend hfail => ?_⟩
  rw [(hall hend hfail).1]
  exact hiff

/-- One datagram was read. -/
theorem handles_all_queued : ∃ (tr : List (Cmd × Event)) (s : Cmd), s.sent.length = 1
    ∧ s.handled.Sublist (arrived allOptions tr) := by
  obtain ⟨tr, s, hrun, hsent⟩ := exists_datagram
  exact ⟨tr, s, hsent, (handles_all_iff hrun).1⟩

end JrtcDecoderRun
