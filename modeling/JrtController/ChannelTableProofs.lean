import JrtController.StreamIdProofs
import JrtController.RunProofs
import JrtController.KeyRefTableProofs

/-! # The channel tables of an app

    `jrtc_router_channel_create` files a channel in `app_out_channel_list` or
    `app_in_channel_list` under the address of its own parameter `stream_id`,
    which is passed by value: the address is on the stack of a call that is about
    to return.  `jrtc_router_channel_destroy` looks the channel up by the id it
    keeps itself.

    * `ChanSys.Wf` — what every run keeps: an entry refers to the parameter of
      the call that made its channel;
    * `ChanSys.Exact` — what holds while nothing overwrites those parameters: the
      tables are the live channels, each found under its own id;
    * `keyed_iff_undisturbed` — on every run each live channel is found under its
      id, and destroying it removes it alone, iff no parameter of a live
      channel's create call is overwritten. -/

namespace JrtcChannelTable

open JrtcStreamId Runs KeyRefTable

/-- An address of 16 bytes of memory. -/
abbrev Addr := Nat

/-- A `struct dapp_channel_ctx`, by number, and with it its `io_channel`. -/
abbrev ChanId := Nat

/-- `struct dapp_channel_ctx`, and where the parameter of its create call was. -/
structure Channel where
  streamId : StreamId
  isOutput : Bool
  param    : Addr

/-- The two tables of an app, the memory their keys are in, and the channels.
    `lists true` is `app_out_channel_list`, `lists false` `app_in_channel_list`. -/
structure ChanSys where
  mem         : Addr → StreamId
  lists       : Bool → List (Entry Addr ChanId)
  channel     : ChanId → Option Channel
  live        : Finset ChanId
  nextChan    : ChanId
  /-- the `io_channel`s that were destroyed, oldest first -/
  ioDestroyed : List ChanId
  /-- the stream ids of the create calls made so far -/
  used        : List StreamId

/-- What the calls of a create return. -/
structure CreateAlloc where
  channel   : Bool
  ioChannel : Bool
  htSet     : Bool
  deriving DecidableEq, Repr

section

variable (hash : StreamId → Nat)

/-- `jrtc_router_channel_create`, with its parameter `stream_id` at address
    `param`.  The caller has put the argument there. -/
def channelCreate (s : ChanSys) (app : Bool) (isOutput : Bool) (streamId : StreamId)
    (param : Addr) (al : CreateAlloc) : ChanSys :=
  let s := { s with
    mem := Function.update s.mem param streamId, used := s.used ++ [streamId] }
  if !app then s
  else if !al.channel then s
  else
    let chan := s.nextChan
    let s := { s with nextChan := s.nextChan + 1 }
    if !al.ioChannel then s
    else if !al.htSet then { s with ioDestroyed := s.ioDestroyed ++ [chan] }
    else { s with
      lists := Function.update s.lists isOutput
        (set s.mem ⟨hash streamId, param, chan⟩ (s.lists isOutput))
      channel := Function.update s.channel chan (some ⟨streamId, isOutput, param⟩)
      live := insert chan s.live }

/-- `jrtc_router_channel_destroy`: nothing is destroyed unless the removal finds
    an entry. -/
def channelDestroy (s : ChanSys) (chan : ChanId) : ChanSys :=
  match s.channel chan with
  | none => s
  | some ch =>
      match remove s.mem (hash ch.streamId) ch.streamId (s.lists ch.isOutput) with
      | none => s
      | some list => { s with
          lists := Function.update s.lists ch.isOutput list
          live := s.live.erase chan
          ioDestroyed := s.ioDestroyed ++ [chan] }

/-- A call on the tables, or memory of a returned call being reused. -/
inductive ChanCall where
  | create (app isOutput : Bool) (streamId : StreamId) (param : Addr) (al : CreateAlloc)
  | destroy (chan : ChanId)
  | overwrite (addr : Addr) (bytes : StreamId)

/-- One call.  The stream ids of the creates are pairwise distinct, and an app
    destroys channels it has. -/
inductive ChanStep : ChanSys → ChanCall → ChanSys → Prop
  | create {s : ChanSys} {app isOutput : Bool} {streamId : StreamId} {param : Addr}
      {al : CreateAlloc} : streamId ∉ s.used →
      ChanStep s (.create app isOutput streamId param al)
        (channelCreate hash s app isOutput streamId param al)
  | destroy {s : ChanSys} {chan : ChanId} : chan ∈ s.live →
      ChanStep s (.destroy chan) (channelDestroy hash s chan)
  | overwrite {s : ChanSys} {addr : Addr} {bytes : StreamId} :
      ChanStep s (.overwrite addr bytes)
        { s with mem := Function.update s.mem addr bytes }

/-- Empty tables, and memory holding anything. -/
def ChanSys.init (mem : Addr → StreamId) : ChanSys :=
  ⟨mem, fun _ => [], fun _ => none, ∅, 0, [], []⟩

/-- A channel is in its table under its own stream id. -/
def Found (s : ChanSys) (chan : ChanId) (ch : Channel) : Prop :=
  ∃ e ∈ s.lists ch.isOutput, e.value = chan ∧ s.mem e.key = ch.streamId

/-- Destroying a channel takes it, and nothing else, out of its table and
    destroys its `io_channel`, which was not destroyed before. -/
def DestroysExactly (s : ChanSys) (chan : ChanId) (ch : Channel) : Prop :=
  (channelDestroy hash s chan).lists = Function.update s.lists ch.isOutput
      ((s.lists ch.isOutput).filter fun e => e.value ≠ chan)
    ∧ (channelDestroy hash s chan).ioDestroyed = s.ioDestroyed ++ [chan]
    ∧ chan ∉ s.ioDestroyed

/-- What the tables are to guarantee of every live channel. -/
def Keyed (s : ChanSys) : Prop :=
  ∀ chan ∈ s.live, ∀ ch, s.channel chan = some ch →
    Found s chan ch ∧ DestroysExactly hash s chan ch

/-- What a step writes to memory that a caller or a later call owns. -/
def ChanCall.write : ChanCall → Option (Addr × StreamId)
  | .create _ _ streamId param _ => some (param, streamId)
  | .destroy _ => none
  | .overwrite addr bytes => some (addr, bytes)

/-- The parameter of a live channel's create call is left as it was. -/
def Undisturbed (s : ChanSys) (l : ChanCall) : Prop :=
  ∀ addr bytes, l.write = some (addr, bytes) → ∀ chan ∈ s.live, ∀ ch,
    s.channel chan = some ch → ch.param = addr → bytes = ch.streamId

end

/-! ## What every run keeps -/

/-- Entries refer to the parameters of the calls that made their channels, and
    numbers and stream ids are not used twice. -/
structure ChanSys.Wf (s : ChanSys) : Prop where
  key : ∀ b, ∀ e ∈ s.lists b, ∃ ch, s.channel e.value = some ch ∧ e.key = ch.param
  used : ∀ chan ch, s.channel chan = some ch → ch.streamId ∈ s.used
  channel_lt : ∀ chan ch, s.channel chan = some ch → chan < s.nextChan
  live : ∀ chan ∈ s.live, ∃ ch, s.channel chan = some ch
  destroyed_lt : ∀ chan ∈ s.ioDestroyed, chan < s.nextChan

variable {hash : StreamId → Nat}

/-- The caller passes the stream id, and the call uses up channel numbers and
    destroys `io_channel`s of its own. -/
def ChanSys.passed (s : ChanSys) (param : Addr) (sid : StreamId) (nextChan : ChanId)
    (destroyed : List ChanId) : ChanSys :=
  { s with
    mem := Function.update s.mem param sid, used := s.used ++ [sid]
    nextChan := nextChan, ioDestroyed := s.ioDestroyed ++ destroyed }

/-- A create that succeeds. -/
def ChanSys.filed (hash : StreamId → Nat) (s : ChanSys) (isOutput : Bool)
    (sid : StreamId) (param : Addr) : ChanSys :=
  { s.passed param sid (s.nextChan + 1) [] with
    lists := Function.update s.lists isOutput
      (set (Function.update s.mem param sid) ⟨hash sid, param, s.nextChan⟩
        (s.lists isOutput))
    channel := Function.update s.channel s.nextChan (some ⟨sid, isOutput, param⟩)
    live := insert s.nextChan s.live }

/-- A create either files a new channel, or fails and leaves at most an
    `io_channel` of its own destroyed. -/
theorem channelCreate_cases (hash : StreamId → Nat) (s : ChanSys) (app isOutput : Bool)
    (sid : StreamId) (param : Addr) (al : CreateAlloc) :
    channelCreate hash s app isOutput sid param al = s.filed hash isOutput sid param
    ∨ ∃ n destroyed, s.nextChan ≤ n ∧ (∀ c ∈ destroyed, s.nextChan ≤ c ∧ c < n)
      ∧ channelCreate hash s app isOutput sid param al
        = s.passed param sid n destroyed := by
  unfold channelCreate ChanSys.filed ChanSys.passed
  cases app with
  | false => exact Or.inr ⟨s.nextChan, [], Nat.le_refl _, nofun, by simp⟩
  | true =>
      cases al.channel with
      | false => exact Or.inr ⟨s.nextChan, [], Nat.le_refl _, nofun, by simp⟩
      | true =>
          cases al.ioChannel with
          | false => exact Or.inr ⟨s.nextChan + 1, [], Nat.le_succ _, nofun, by simp⟩
          | true =>
              cases al.htSet with
              | false =>
                  refine Or.inr ⟨s.nextChan + 1, [s.nextChan], Nat.le_succ _, ?_, by simp⟩
                  intro c hc
                  rw [List.mem_singleton.mp hc]
                  exact ⟨Nat.le_refl _, Nat.lt_succ_self _⟩
              | true => exact Or.inl (by simp)

/-- A destroy either does nothing or takes one entry out of the channel's table. -/
theorem channelDestroy_cases (hash : StreamId → Nat) (s : ChanSys) (chan : ChanId) :
    channelDestroy hash s chan = s
    ∨ ∃ ch list, s.channel chan = some ch
      ∧ remove s.mem (hash ch.streamId) ch.streamId (s.lists ch.isOutput) = some list
      ∧ channelDestroy hash s chan = { s with
          lists := Function.update s.lists ch.isOutput list
          live := s.live.erase chan
          ioDestroyed := s.ioDestroyed ++ [chan] } := by
  cases hch : s.channel chan with
  | none => exact Or.inl (by simp only [channelDestroy, hch])
  | some ch =>
      cases hrem : remove s.mem (hash ch.streamId) ch.streamId (s.lists ch.isOutput) with
      | none => exact Or.inl (by simp only [channelDestroy, hch, hrem])
      | some list =>
          exact Or.inr ⟨ch, list, rfl, hrem, by simp only [channelDestroy, hch, hrem]⟩

/-- Only one of the two tables changes. -/
theorem mem_update_lists {lists : Bool → List (Entry Addr ChanId)} {b d : Bool}
    {list : List (Entry Addr ChanId)} {e : Entry Addr ChanId}
    (he : e ∈ Function.update lists d list b) : (b = d ∧ e ∈ list) ∨ e ∈ lists b := by
  by_cases hb : b = d
  · rw [hb, Function.update_self] at he
    exact Or.inl ⟨hb, he⟩
  · rw [Function.update_of_ne hb] at he
    exact Or.inr he

theorem ChanSys.channel_filed_new (s : ChanSys) (hash : StreamId → Nat)
    (isOutput : Bool) (sid : StreamId) (param : Addr) :
    (s.filed hash isOutput sid param).channel s.nextChan
      = some ⟨sid, isOutput, param⟩ :=
  Function.update_self ..

theorem ChanSys.channel_filed_of_ne (s : ChanSys) (isOutput : Bool) (sid : StreamId)
    (param : Addr) {chan : ChanId} (hne : chan ≠ s.nextChan) :
    (s.filed hash isOutput sid param).channel chan = s.channel chan :=
  Function.update_of_ne hne _ _

theorem ChanSys.channel_filed_cases {s : ChanSys} {isOutput : Bool} {sid : StreamId}
    {param : Addr} {chan : ChanId} {ch : Channel}
    (hch : (s.filed hash isOutput sid param).channel chan = some ch) :
    (chan = s.nextChan ∧ ch = ⟨sid, isOutput, param⟩)
      ∨ chan ≠ s.nextChan ∧ s.channel chan = some ch := by
  by_cases hne : chan = s.nextChan
  · subst hne
    rw [s.channel_filed_new hash isOutput sid param] at hch
    exact Or.inl ⟨rfl, (Option.some.inj hch).symm⟩
  · rw [s.channel_filed_of_ne isOutput sid param hne] at hch
    exact Or.inr ⟨hne, hch⟩

namespace ChanSys.Wf

variable {s : ChanSys}

theorem live_lt (h : s.Wf) {chan : ChanId} (hchan : chan ∈ s.live) :
    chan < s.nextChan := by
  obtain ⟨ch, hch⟩ := h.live chan hchan
  exact h.channel_lt chan ch hch

theorem passed (h : s.Wf) (param : Addr) (sid : StreamId) {n : ChanId}
    (hn : s.nextChan ≤ n) {destroyed : List ChanId}
    (hd : ∀ c ∈ destroyed, s.nextChan ≤ c ∧ c < n) :
    (s.passed param sid n destroyed).Wf where
  key := h.key
  used chan ch hch := List.mem_append_left _ (h.used chan ch hch)
  channel_lt chan ch hch := Nat.lt_of_lt_of_le (h.channel_lt chan ch hch) hn
  live := h.live
  destroyed_lt chan hchan := by
    rcases List.mem_append.mp hchan with hchan | hchan
    · exact Nat.lt_of_lt_of_le (h.destroyed_lt chan hchan) hn
    · exact (hd chan hchan).2

theorem filed (h : s.Wf) (isOutput : Bool) (sid : StreamId) (param : Addr) :
    (s.filed hash isOutput sid param).Wf := by
  have hnew := s.channel_filed_new hash isOutput sid param
  refine ⟨?_, ?_, ?_, ?_, ?_⟩
  · intro b e he
    have hmem : e = ⟨hash sid, param, s.nextChan⟩ ∨ e ∈ s.lists b := by
      rcases mem_update_lists he with ⟨rfl, hlist⟩ | hlist
      · exact mem_of_mem_set hlist
      · exact Or.inr hlist
    rcases hmem with rfl | hmem
    · exact ⟨_, hnew, rfl⟩
    · obtain ⟨ch, hch, hkey⟩ := h.key b e hmem
      have hne := Nat.ne_of_lt (h.channel_lt _ ch hch)
      exact ⟨ch, (s.channel_filed_of_ne isOutput sid param hne).trans hch, hkey⟩
  · intro chan ch hch
    rcases channel_filed_cases hch with ⟨-, rfl⟩ | ⟨-, hch⟩
    · exact List.mem_append_right _ (List.mem_singleton.mpr rfl)
    · exact List.mem_append_left _ (h.used chan ch hch)
  · intro chan ch hch
    rcases channel_filed_cases hch with ⟨rfl, -⟩ | ⟨-, hch⟩
    · exact Nat.lt_succ_self _
    · exact Nat.lt_succ_of_lt (h.channel_lt chan ch hch)
  · intro chan hchan
    rcases Finset.mem_insert.mp hchan with rfl | hchan
    · exact ⟨_, hnew⟩
    · obtain ⟨ch, hch⟩ := h.live chan hchan
      have hne := Nat.ne_of_lt (h.live_lt hchan)
      exact ⟨ch, (s.channel_filed_of_ne isOutput sid param hne).trans hch⟩
  · intro chan hchan
    rcases List.mem_append.mp hchan with hchan | hchan
    · exact Nat.lt_succ_of_lt (h.destroyed_lt chan hchan)
    · exact (List.not_mem_nil hchan).elim

theorem step (h : s.Wf) {l : ChanCall} {s' : ChanSys} (hs : ChanStep hash s l s') :
    s'.Wf := by
  cases hs with
  | @create app isOutput sid param al hsid =>
      rcases channelCreate_cases hash s app isOutput sid param al with
        heq | ⟨n, destroyed, hn, hd, heq⟩
      · rw [heq]
        exact h.filed isOutput sid param
      · rw [heq]
        exact h.passed param sid hn hd
  | @destroy chan hlive =>
      rcases channelDestroy_cases hash s chan with heq | ⟨ch, list, hch, hrem, heq⟩
      · rw [heq]
        exact h
      · rw [heq]
        refine ⟨?_, h.used, h.channel_lt,
          fun c hc => h.live c (Finset.mem_of_mem_erase hc), ?_⟩
        · intro b e he
          rcases mem_update_lists he with ⟨-, hlist⟩ | hlist
          · exact h.key _ e (mem_of_mem_remove hrem hlist)
          · exact h.key b e hlist
        · intro c hc
          rcases List.mem_append.mp hc with hc | hc
          · exact h.destroyed_lt c hc
          · rw [List.mem_singleton.mp hc]
            exact h.live_lt hlive
  | overwrite => exact ⟨h.key, h.used, h.channel_lt, h.live, h.destroyed_lt⟩

end ChanSys.Wf

theorem ChanSys.wf_init (mem : Addr → StreamId) : (ChanSys.init mem).Wf where
  key _ _ he := (List.not_mem_nil he).elim
  used _ _ hch := nomatch hch
  channel_lt _ _ hch := nomatch hch
  live _ hchan := (Finset.notMem_empty _ hchan).elim
  destroyed_lt _ hchan := (List.not_mem_nil hchan).elim

/-! ## What holds while the parameters are left alone -/

/-- The tables hold exactly the live channels, each under the hash and the
    address it was created with, where its stream id still is. -/
structure ChanSys.Exact (hash : StreamId → Nat) (s : ChanSys) : Prop where
  entry : ∀ chan ∈ s.live, ∀ ch, s.channel chan = some ch →
    ⟨hash ch.streamId, ch.param, chan⟩ ∈ s.lists ch.isOutput
      ∧ s.mem ch.param = ch.streamId
  owner : ∀ b, ∀ e ∈ s.lists b, e.value ∈ s.live ∧ ∃ ch, s.channel e.value = some ch
    ∧ ch.isOutput = b ∧ e = ⟨hash ch.streamId, ch.param, e.value⟩
  nodup : ∀ b, ((s.lists b).map Entry.value).Nodup
  distinct : ∀ c ∈ s.live, ∀ c' ∈ s.live, ∀ ch ch', s.channel c = some ch →
    s.channel c' = some ch' → ch.streamId = ch'.streamId → c = c'
  undestroyed : ∀ c ∈ s.live, c ∉ s.ioDestroyed

theorem ChanSys.exact_init (hash : StreamId → Nat) (mem : Addr → StreamId) :
    (ChanSys.init mem).Exact hash where
  entry _ hchan := (Finset.notMem_empty _ hchan).elim
  owner _ _ he := (List.not_mem_nil he).elim
  nodup _ := List.nodup_nil
  distinct _ hc := (Finset.notMem_empty _ hc).elim
  undestroyed _ hc := (Finset.notMem_empty _ hc).elim

namespace ChanSys.Exact

variable {s : ChanSys}

/-- Destroying a live channel takes it alone out of its table. -/
theorem destroy_eq (h : s.Exact hash) {chan : ChanId} (hlive : chan ∈ s.live)
    {ch : Channel} (hch : s.channel chan = some ch) :
    channelDestroy hash s chan = { s with
      lists := Function.update s.lists ch.isOutput
        ((s.lists ch.isOutput).filter fun e => e.value ≠ chan)
      live := s.live.erase chan
      ioDestroyed := s.ioDestroyed ++ [chan] } := by
  obtain ⟨hmem, hbytes⟩ := h.entry chan hlive ch hch
  have hrem : remove s.mem (hash ch.streamId) ch.streamId (s.lists ch.isOutput)
      = some ((s.lists ch.isOutput).filter fun e => e.value ≠ chan) := by
    refine remove_of_unique (h.nodup _) hmem ⟨rfl, hbytes⟩ ?_
    -- another entry with these bytes at its address would be another channel
    -- with the same stream id
    rintro x hx ⟨-, hxbytes⟩
    obtain ⟨hxlive, ch', hch', -, hxeq⟩ := h.owner _ x hx
    have hkey : x.key = ch'.param := congrArg Entry.key hxeq
    rw [hkey, (h.entry x.value hxlive ch' hch').2] at hxbytes
    have hval := h.distinct x.value hxlive chan hlive ch' ch hch' hch hxbytes
    rw [hval] at hch'
    obtain rfl := Option.some.inj (hch'.symm.trans hch)
    rw [hxeq, hval]
  simp only [channelDestroy, hch, hrem]

theorem keyed (h : s.Exact hash) : Keyed hash s := by
  intro chan hlive ch hch
  obtain ⟨hmem, hbytes⟩ := h.entry chan hlive ch hch
  refine ⟨⟨_, hmem, rfl, hbytes⟩, ?_⟩
  rw [DestroysExactly, h.destroy_eq hlive hch]
  exact ⟨rfl, rfl, h.undestroyed chan hlive⟩

/-- A write to memory that leaves the parameters of live channels alone. -/
theorem bytes_of_write (h : s.Exact hash) {addr : Addr} {bytes : StreamId}
    (hC : ∀ chan ∈ s.live, ∀ ch, s.channel chan = some ch → ch.param = addr →
      bytes = ch.streamId) {chan : ChanId} (hlive : chan ∈ s.live) {ch : Channel}
    (hch : s.channel chan = some ch) :
    Function.update s.mem addr bytes ch.param = ch.streamId := by
  by_cases hp : ch.param = addr
  · rw [hp, Function.update_self]
    exact hC chan hlive ch hch hp
  · rw [Function.update_of_ne hp]
    exact (h.entry chan hlive ch hch).2

section Filed

variable (h : s.Exact hash) (hwf : s.Wf) {isOutput : Bool} {sid : StreamId} {param : Addr}
  (hsid : sid ∉ s.used)
  (hC : ∀ chan ∈ s.live, ∀ ch, s.channel chan = some ch → ch.param = param →
    sid = ch.streamId)

include hwf hsid

/-- What is live after a channel was filed. -/
theorem live_filed_cases {chan : ChanId} {ch : Channel}
    (hchan : chan ∈ (s.filed hash isOutput sid param).live)
    (hch : (s.filed hash isOutput sid param).channel chan = some ch) :
    (chan = s.nextChan ∧ ch = ⟨sid, isOutput, param⟩)
      ∨ chan ∈ s.live ∧ s.channel chan = some ch ∧ ch.streamId ≠ sid := by
  rcases channel_filed_cases hch with hnew | ⟨hne, hold⟩
  · exact Or.inl hnew
  · refine Or.inr ⟨Finset.mem_of_mem_insert_of_ne hchan hne, hold, ?_⟩
    rintro rfl
    exact hsid (hwf.used chan ch hold)

include h hC

/-- No entry is found under a new stream id, so the new one is added. -/
theorem lists_filed (b : Bool) :
    (s.filed hash isOutput sid param).lists b
      = s.lists b ++ if b = isOutput then [⟨hash sid, param, s.nextChan⟩] else [] := by
  by_cases hb : b = isOutput
  · subst hb
    rw [if_pos rfl]
    refine (Function.update_self ..).trans (set_of_no_hit ?_)
    rintro x hx ⟨-, hbytes⟩
    obtain ⟨hxlive, ch, hch, -, hxeq⟩ := h.owner b x hx
    have hkey : x.key = ch.param := congrArg Entry.key hxeq
    rw [hkey, h.bytes_of_write hC hxlive hch, Function.update_self] at hbytes
    exact hsid (hbytes ▸ hwf.used x.value ch hch)
  · rw [if_neg hb, List.append_nil]
    exact Function.update_of_ne hb _ _

theorem filed : (s.filed hash isOutput sid param).Exact hash := by
  have hne : ∀ c ∈ s.live, c ≠ s.nextChan := fun c hc => Nat.ne_of_lt (hwf.live_lt hc)
  refine ⟨?_, ?_, ?_, ?_, ?_⟩
  · intro chan hchan ch hch
    rw [h.lists_filed hwf hsid hC]
    rcases live_filed_cases hwf hsid hchan hch with ⟨rfl, rfl⟩ | ⟨hchan, hch, -⟩
    · rw [if_pos rfl]
      exact ⟨List.mem_append_right _ (List.mem_singleton.mpr rfl), Function.update_self ..⟩
    · exact ⟨List.mem_append_left _ (h.entry chan hchan ch hch).1,
        h.bytes_of_write hC hchan hch⟩
  · intro b e he
    rw [h.lists_filed hwf hsid hC] at he
    rcases List.mem_append.mp he with hmem | hmem
    · obtain ⟨hlive, ch, hch, hdir, heq⟩ := h.owner b e hmem
      exact ⟨Finset.mem_insert_of_mem hlive, ch,
        (s.channel_filed_of_ne isOutput sid param (hne _ hlive)).trans hch, hdir, heq⟩
    · obtain ⟨rfl, hnew⟩ := List.mem_ite_nil_right.mp hmem
      rw [List.mem_singleton.mp hnew]
      exact ⟨Finset.mem_insert_self .., _, s.channel_filed_new hash b sid param, rfl, rfl⟩
  · intro b
    rw [h.lists_filed hwf hsid hC, List.map_append]
    refine (h.nodup b).append ?_ ?_
    · split
      · exact List.nodup_singleton _
      · exact List.nodup_nil
    · intro c hc hc'
      obtain ⟨e, he, rfl⟩ := List.mem_map.mp hc
      obtain ⟨e', he', heq⟩ := List.mem_map.mp hc'
      obtain ⟨-, hmem⟩ := List.mem_ite_nil_right.mp he'
      rw [List.mem_singleton.mp hmem] at heq
      exact hne _ (h.owner b e he).1 heq.symm
  · intro c hc c' hc' ch ch' hch hch' heq
    rcases live_filed_cases hwf hsid hc hch with ⟨rfl, rfl⟩ | ⟨hc, hch, hother⟩
    · rcases live_filed_cases hwf hsid hc' hch' with ⟨rfl, -⟩ | ⟨-, -, hother⟩
      · rfl
      · exact absurd heq.symm hother
    · rcases live_filed_cases hwf hsid hc' hch' with ⟨rfl, rfl⟩ | ⟨hc', hch', -⟩
      · exact absurd heq hother
      · exact h.distinct c hc c' hc' ch ch' hch hch' heq
  · intro c hc hd
    rw [show (s.filed hash isOutput sid param).ioDestroyed = s.ioDestroyed ++ [] from rfl,
      List.append_nil] at hd
    rcases Finset.mem_insert.mp hc with rfl | hc
    · exact Nat.lt_irrefl _ (hwf.destroyed_lt _ hd)
    · exact h.undestroyed c hc hd

end Filed

/-- The entry of a channel is in one table alone. -/
theorem update_lists_filter (h : s.Exact hash) {chan : ChanId} {ch : Channel}
    (hch : s.channel chan = some ch) (b : Bool) :
    Function.update s.lists ch.isOutput
        ((s.lists ch.isOutput).filter fun e => e.value ≠ chan) b
      = (s.lists b).filter fun e => e.value ≠ chan := by
  by_cases hb : b = ch.isOutput
  · rw [hb, Function.update_self]
  · rw [Function.update_of_ne hb]
    refine (List.filter_eq_self.mpr fun e he => decide_eq_true ?_).symm
    rintro rfl
    obtain ⟨-, ch', hch', hdir, -⟩ := h.owner b e he
    obtain rfl := Option.some.inj (hch'.symm.trans hch)
    exact hb hdir.symm

theorem destroyed (h : s.Exact hash) {chan : ChanId} {ch : Channel}
    (hch : s.channel chan = some ch) :
    ({ s with
      lists := Function.update s.lists ch.isOutput
        ((s.lists ch.isOutput).filter fun e => e.value ≠ chan)
      live := s.live.erase chan
      ioDestroyed := s.ioDestroyed ++ [chan] } : ChanSys).Exact hash := by
  rw [show Function.update s.lists ch.isOutput
      ((s.lists ch.isOutput).filter fun e => e.value ≠ chan)
    = fun b => (s.lists b).filter fun e => e.value ≠ chan from
      funext (h.update_lists_filter hch)]
  refine ⟨?_, ?_, ?_, ?_, ?_⟩
  · intro c hc ch' hch'
    obtain ⟨hne, hc⟩ := Finset.mem_erase.mp hc
    obtain ⟨hmem, hbytes⟩ := h.entry c hc ch' hch'
    exact ⟨List.mem_filter.mpr ⟨hmem, decide_eq_true hne⟩, hbytes⟩
  · intro b e he
    obtain ⟨hmem, hne⟩ := List.mem_filter.mp he
    obtain ⟨hl, hrest⟩ := h.owner b e hmem
    exact ⟨Finset.mem_erase.mpr ⟨of_decide_eq_true hne, hl⟩, hrest⟩
  · intro b
    exact (h.nodup b).sublist (List.filter_sublist.map _)
  · intro c hc c' hc'
    exact h.distinct c (Finset.mem_of_mem_erase hc) c' (Finset.mem_of_mem_erase hc')
  · intro c hc hmem
    obtain ⟨hne, hc⟩ := Finset.mem_erase.mp hc
    rcases List.mem_append.mp hmem with hmem | hmem
    · exact h.undestroyed c hc hmem
    · exact hne (List.mem_singleton.mp hmem)

theorem step (h : s.Exact hash) (hwf : s.Wf) {l : ChanCall} {s' : ChanSys}
    (hC : Undisturbed s l) (hs : ChanStep hash s l s') : s'.Exact hash := by
  cases hs with
  | @create app isOutput sid param al hsid =>
      have hCw := hC param sid rfl
      rcases channelCreate_cases hash s app isOutput sid param al with
        heq | ⟨n, destroyed, hn, hd, heq⟩
      · rw [heq]
        exact h.filed hwf hsid hCw
      · rw [heq]
        refine ⟨?_, h.owner, h.nodup, h.distinct, ?_⟩
        · exact fun chan hchan ch hch =>
            ⟨(h.entry chan hchan ch hch).1, h.bytes_of_write hCw hchan hch⟩
        · intro c hc hmem
          rcases List.mem_append.mp hmem with hmem | hmem
          · exact h.undestroyed c hc hmem
          · exact absurd (hwf.live_lt hc) (Nat.not_lt.mpr (hd c hmem).1)
  | @destroy chan hlive =>
      obtain ⟨ch, hch⟩ := hwf.live chan hlive
      rw [h.destroy_eq hlive hch]
      exact h.destroyed hch
  | @overwrite addr bytes =>
      refine ⟨?_, h.owner, h.nodup, h.distinct, h.undestroyed⟩
      exact fun chan hchan ch hch => ⟨(h.entry chan hchan ch hch).1,
        h.bytes_of_write (hC addr bytes rfl) hchan hch⟩

end ChanSys.Exact

/-! ## The tables, run by run -/

/-- What a step writes is there afterwards, and it destroys no channel. -/
theorem ChanStep.write_effect {s s' : ChanSys} {l : ChanCall} (hwf : s.Wf)
    (hs : ChanStep hash s l s') {addr : Addr} {bytes : StreamId}
    (hw : l.write = some (addr, bytes)) :
    s'.mem addr = bytes ∧ ∀ chan ∈ s.live,
      chan ∈ s'.live ∧ s'.channel chan = s.channel chan := by
  cases hs with
  | @create app isOutput sid param al hsid =>
      obtain ⟨rfl, rfl⟩ := Prod.mk.inj (Option.some.inj hw)
      rcases channelCreate_cases hash s app isOutput sid param al with
        heq | ⟨n, destroyed, -, -, heq⟩
      · rw [heq]
        refine ⟨Function.update_self .., fun chan hchan => ?_⟩
        exact ⟨Finset.mem_insert_of_mem hchan,
          Function.update_of_ne (Nat.ne_of_lt (hwf.live_lt hchan)) _ _⟩
      · rw [heq]
        exact ⟨Function.update_self .., fun chan hchan => ⟨hchan, rfl⟩⟩
  | destroy => exact nomatch hw
  | @overwrite addr bytes =>
      obtain ⟨rfl, rfl⟩ := Prod.mk.inj (Option.some.inj hw)
      exact ⟨Function.update_self .., fun chan hchan => ⟨hchan, rfl⟩⟩

/-- A channel whose parameter is overwritten is no longer found under its id:
    its entries all refer to that parameter. -/
theorem not_keyed_of_disturbed {s s' : ChanSys} {l : ChanCall} (hwf : s.Wf)
    (hC : ¬ Undisturbed s l) (hs : ChanStep hash s l s') : ¬ Keyed hash s' := by
  intro hkeyed
  refine hC fun addr bytes hw chan hlive ch hch hparam => ?_
  obtain ⟨hmem, hkept⟩ := hs.write_effect hwf hw
  obtain ⟨hlive', hch'⟩ := hkept chan hlive
  rw [hch] at hch'
  obtain ⟨⟨e, he, hval, hbytes⟩, -⟩ := hkeyed chan hlive' ch hch'
  obtain ⟨ch₁, hch₁, hkey⟩ := (hwf.step hs).key _ e he
  rw [hval] at hch₁
  obtain rfl := Option.some.inj (hch₁.symm.trans hch')
  rw [hkey, hparam, hmem] at hbytes
  exact hbytes

/-- **WHEN THE TABLES KEEP THEIR CHANNELS.**  On every run of creates, destroys
    and reuse of stack memory, each live channel is found under its own stream id
    and destroyed exactly, iff no step overwrites the parameter of a live
    channel's create call. -/
theorem keyed_iff_undisturbed {mem : Addr → StreamId} {tr : List (ChanSys × ChanCall)}
    {s : ChanSys} (h : Run (ChanStep hash) (ChanSys.init mem) tr s) :
    Along (Keyed hash) tr s ↔ Meets Undisturbed tr := by
  refine h.along_iff_meets (Q := fun s => s.Wf ∧ s.Exact hash)
    ⟨ChanSys.wf_init mem, ChanSys.exact_init hash mem⟩ (fun _ hQ => hQ.2.keyed) ?_ ?_
  · exact fun hQ hC hs => ⟨hQ.1.step hs, hQ.2.step hQ.1 hC hs⟩
  · exact fun hQ hC hs => not_keyed_of_disturbed hQ.1 hC hs

/-- A state with one output channel, which every call made for it succeeded in
    creating. -/
def oneChannel (hash : StreamId → Nat) (mem : Addr → StreamId) (sid : StreamId)
    (param : Addr) : ChanSys :=
  channelCreate hash (ChanSys.init mem) true true sid param ⟨true, true, true⟩

theorem run_oneChannel (hash : StreamId → Nat) (mem : Addr → StreamId) (sid : StreamId)
    (param : Addr) : Run (ChanStep hash) (ChanSys.init mem)
      [(ChanSys.init mem, .create true true sid param ⟨true, true, true⟩)]
      (oneChannel hash mem sid param) :=
  Run.start.next (.create List.not_mem_nil)

/-- Another create keeps the channel found iff its parameter is elsewhere. -/
theorem undisturbed_oneChannel (hash : StreamId → Nat) (mem : Addr → StreamId)
    {sid sid' : StreamId} (hne : sid' ≠ sid) (param param' : Addr) (al : CreateAlloc) :
    Undisturbed (oneChannel hash mem sid param) (.create true false sid' param' al)
      ↔ param' ≠ param := by
  have hch : (oneChannel hash mem sid param).channel 0 = some ⟨sid, true, param⟩ := rfl
  constructor
  · rintro hC rfl
    exact hne (hC param' sid' rfl 0 (Finset.mem_singleton_self 0) _ hch rfl)
  · intro hparam addr bytes hw chan hlive ch hch' heq
    obtain ⟨rfl, rfl⟩ := Prod.mk.inj (Option.some.inj hw)
    obtain rfl := Finset.mem_singleton.mp hlive
    obtain rfl := Option.some.inj (hch.symm.trans hch')
    exact absurd heq.symm hparam

/-- Two creates whose parameters are at different addresses. -/
theorem keyed_with_distinct_parameters :
    ∃ tr s, Run (ChanStep fun _ => 0) (ChanSys.init fun _ => .replicate 16 0) tr s
      ∧ s.live = {1, 0} ∧ Along (Keyed fun _ => 0) tr s := by
  have hne : (.replicate 16 2 : StreamId) ≠ .replicate 16 1 := by decide
  have hrun := (run_oneChannel (fun _ => 0) (fun _ => .replicate 16 0)
    (.replicate 16 1) 0).next (@ChanStep.create _ _ true false (.replicate 16 2) 1
      ⟨true, true, true⟩ fun hmem => hne (List.mem_singleton.mp hmem))
  refine ⟨_, _, hrun, rfl, (keyed_iff_undisturbed hrun).mpr ?_⟩
  refine meets_snoc.mpr ⟨?_, (undisturbed_oneChannel _ _ hne 0 1 _).mpr (by decide)⟩
  intro x hx addr bytes hw chan hlive
  obtain rfl := List.mem_singleton.mp hx
  exact (Finset.notMem_empty _ hlive).elim

/-- The second create call has its parameter where the first one had it.  The
    first channel is then no longer found under its own id. -/
theorem parameter_reused_by_next_create :
    ¬ ∀ (hash : StreamId → Nat) (mem : Addr → StreamId) (tr : List (ChanSys × ChanCall))
      (s : ChanSys), Run (ChanStep hash) (ChanSys.init mem) tr s → Keyed hash s := by
  intro hall
  have hne : (.replicate 16 2 : StreamId) ≠ .replicate 16 1 := by decide
  have hrun := run_oneChannel (fun _ => 0) (fun _ => .replicate 16 0) (.replicate 16 1) 0
  have hstep := @ChanStep.create (fun _ => 0) (oneChannel (fun _ => 0)
    (fun _ => .replicate 16 0) (.replicate 16 1) 0) true false (.replicate 16 2) 0
    ⟨true, true, true⟩ fun hmem => hne (List.mem_singleton.mp hmem)
  have hwf := hrun.invariant (ChanSys.wf_init _) (fun hwf hs => hwf.step hs)
  have hC := (undisturbed_oneChannel (fun _ => 0) (fun _ => .replicate 16 0) hne 0 0
    ⟨true, true, true⟩).not.mpr (fun h => h rfl)
  exact not_keyed_of_disturbed hwf hC hstep (hall _ _ _ _ (hrun.next hstep))

end JrtcChannelTable
