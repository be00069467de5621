import JrtController.RunProofs
import JrtController.SliceHeapProofs

/-! # Batches for log analytics

    `Upload` puts messages into a buffer, with commas between them.  When the next one would
    make it too large, when a timer fires and when the uploader is closed, `flush` makes a
    batch of the buffer and starts a goroutine that hands it to `client.send`.  A mutex guards
    the buffer, and not what a goroutine sends: this is a slice that `append` made from the
    package's `prefix`.

    * `exceeds_iff` — the size check does not overflow;
    * `ThreadStep`, `Step` — the threads that upload, flush and close, and the goroutines;
    * `At.own`, `At.other`, `Batches.step` — what one step keeps;
    * `closed_batches` — when `Close` returns, each goroutine has handed over its batch once,
      and the batches in the order in which they were started are the messages in theirs. -/

namespace JrtcUploader

open SliceHeap Runs

/-! ## Messages and batches -/

/-- `UploaderOptions`. -/
structure Options where
  maxBatchSize : BitVec 64
  small        : maxBatchSize.toNat < 2 ^ 63

/-- The largest object that the runtime of Go allocates. -/
def maxAlloc : Nat := 2 ^ 48

/-- A message that fits into a batch. -/
structure Message (opts : Options) where
  text     : List UInt8
  nonempty : text ≠ []
  fits     : text.length + 2 ≤ opts.maxBatchSize.toNat
  alloc    : text.length ≤ maxAlloc

def comma : UInt8 := 44

def leftBracket : UInt8 := 91

def rightBracket : UInt8 := 93

section

variable {opts : Options}

/-- Messages with commas between them. -/
def join (ms : List (Message opts)) : List UInt8 := [comma].intercalate (ms.map Message.text)

/-- The JSON list of some messages. -/
def batch (ms : List (Message opts)) : List UInt8 :=
  leftBracket :: (join ms ++ [rightBracket])

theorem join_snoc {ms : List (Message opts)} (h : ms ≠ []) (m : Message opts) :
    join (ms ++ [m]) = join ms ++ comma :: m.text := by
  induction ms with
  | nil => exact absurd rfl h
  | cons m' ms ih =>
      cases ms with
      | nil =>
          show [comma].intercalate [m'.text, m.text] = [comma].intercalate [m'.text] ++ _
          rw [List.intercalate_cons_cons, List.intercalate_singleton,
            List.intercalate_singleton, List.append_assoc]
          rfl
      | cons m'' ms =>
          have hrest := ih (List.cons_ne_nil _ _)
          simp only [join, List.cons_append, List.map_cons, List.intercalate_cons_cons]
            at hrest ⊢
          rw [hrest]
          simp only [List.append_assoc]

theorem exists_join_cons (m : Message opts) (ms : List (Message opts)) :
    ∃ rest, join (m :: ms) = m.text ++ rest := by
  cases ms with
  | nil => exact ⟨[], List.intercalate_singleton.trans (List.append_nil _).symm⟩
  | cons m' ms => exact ⟨_, List.intercalate_cons_cons.trans (List.append_assoc ..)⟩

theorem join_ne_nil {ms : List (Message opts)} (h : ms ≠ []) : join ms ≠ [] := by
  obtain ⟨m, ms, rfl⟩ := List.exists_cons_of_ne_nil h
  obtain ⟨rest, hrest⟩ := exists_join_cons m ms
  intro hnil
  exact m.nonempty (List.append_eq_nil_iff.mp (hrest.symm.trans hnil)).1

theorem length_batch (ms : List (Message opts)) :
    (batch ms).length = (join ms).length + 2 := by
  rw [batch, List.length_cons, List.length_append]
  rfl

end

/-! ## The package's slices -/

def prefixSlice : Slice := ⟨0, 1⟩

def suffixSlice : Slice := ⟨1, 1⟩

def delimiterSlice : Slice := ⟨2, 1⟩

/-- The arrays of the package's variables, which the compiler lays out without room. -/
def packageHeap : Heap UInt8 := [[leftBracket], [rightBracket], [comma]]

/-- These arrays are as they were. -/
def Package (heap : Heap UInt8) : Prop := Extends packageHeap heap

/-! ## The uploader -/

/-- `currentSize+newBytesSize > int(u.opts.maxBatchSize)`, in 64 bits with a sign. -/
def exceeds (opts : Options) (buffered new : Nat) : Bool :=
  let currentSize : BitVec 64 := 1 + BitVec.ofNat 64 buffered + 1
  let newBytesSize : BitVec 64 := BitVec.ofNat 64 new + 1
  opts.maxBatchSize.slt (currentSize + newBytesSize)

/-- How far the goroutine of a batch is. -/
inductive Progress where
  | started
  | sending (data : List UInt8)
  | finished (data : List UInt8)
  deriving DecidableEq, Repr

/-- The goroutine of a batch.  What was in the buffer is noted for the statements. -/
structure Sender (opts : Options) where
  toUpload : Slice
  messages : List (Message opts)
  progress : Progress

/-- What a goroutine has handed to `client.send`. -/
def Sender.sent {opts : Options} (x : Sender opts) : List (List UInt8) :=
  match x.progress with
  | .started => []
  | .sending data => [data]
  | .finished data => [data]

/-- What the threads share.  `calls` and `buffered` are noted for the statements: the messages
    of `Upload` in the order in which its calls got the mutex, and those in the buffer. -/
structure Shared (opts : Options) where
  heap     : Heap UInt8
  bs       : List UInt8
  hasTimer : Bool
  m        : Option Nat
  senders  : List (Sender opts)
  handed   : List (List UInt8)
  closing  : Bool
  calls    : List (Message opts)
  buffered : List (Message opts)

/-- `NewUploader`. -/
def Shared.init (opts : Options) : Shared opts where
  heap := packageHeap
  bs := []
  hasTimer := true
  m := none
  senders := []
  handed := []
  closing := false
  calls := []
  buffered := []

/-- `flush` with the mutex.  The room that `append` leaves behind its arrays is the runtime's
    choice. -/
def Shared.flush {opts : Options} (sh : Shared opts) (room room' : List UInt8) : Shared opts :=
  if sh.bs = [] then sh
  else
    let toUpload := append sh.heap prefixSlice sh.bs room
    let toUpload' := append toUpload.1 toUpload.2 (content sh.heap suffixSlice) room'
    { sh with
      heap := toUpload'.1
      bs := []
      senders := sh.senders ++ [⟨toUpload'.2, sh.buffered, .started⟩]
      buffered := [] }

/-- The end of `Upload`, from the delimiter on. -/
def Shared.write {opts : Options} (sh : Shared opts) (m : Message opts) (room : List UInt8) :
    Shared opts :=
  if sh.bs ≠ [] then
    let bs := append sh.heap delimiterSlice m.text room
    { sh with
      heap := bs.1
      bs := sh.bs ++ content bs.1 bs.2
      buffered := sh.buffered ++ [m] }
  else { sh with bs := sh.bs ++ m.text, buffered := sh.buffered ++ [m] }

/-- Where a thread is. -/
inductive Pc (opts : Options) where
  | idle
  /-- `Upload` before the mutex, before its checks and before its write -/
  | uploading (m : Message opts)
  | checking (m : Message opts)
  | writing (m : Message opts)
  /-- `flush`, called by the timer or by `Close`, before the mutex and after it -/
  | flushing (close : Bool)
  | flushLocked (close : Bool)
  /-- before the mutex is released -/
  | leaving (close : Bool)
  /-- `Close` before `activeRequests.Wait` returns, and after it -/
  | waiting
  | closed

namespace Pc

variable {opts : Options}

/-- The thread is to put a message into the buffer. -/
def isUpload : Pc opts → Bool
  | .uploading _ => true
  | .checking _ => true
  | .writing _ => true
  | _ => false

/-- The message of a call that waits for the mutex. -/
def waits : Pc opts → Option (Message opts)
  | .uploading m => some m
  | _ => none

/-- The message of a call that has the mutex. -/
def pending : Pc opts → List (Message opts)
  | .checking m => [m]
  | .writing m => [m]
  | _ => []

end Pc

inductive Action (opts : Options) where
  | upload (m : Message opts)
  | flush
  | close
  | lock
  | check (room room' : List UInt8)
  | write (room : List UInt8)
  | body (room room' : List UInt8)
  | unlock
  | wait

/-- What a thread does next.  Where memory cannot be allocated the process ends. -/
inductive ThreadStep (opts : Options) (t : Nat) :
    Shared opts → Pc opts → Action opts → Shared opts → Pc opts → Prop
  /-- after `Close` has been called, nothing is uploaded -/
  | upload {sh m} : sh.closing = false →
      ThreadStep opts t sh .idle (.upload m) sh (.uploading m)
  | flush {sh} : ThreadStep opts t sh .idle .flush sh (.flushing false)
  | close {sh} : ThreadStep opts t sh .idle .close { sh with closing := true } (.flushing true)
  | lockUpload {sh m} : sh.m = none →
      ThreadStep opts t sh (.uploading m) .lock
        { sh with m := some t, calls := sh.calls ++ [m] } (.checking m)
  | lockFlush {sh close} : sh.m = none →
      ThreadStep opts t sh (.flushing close) .lock { sh with m := some t } (.flushLocked close)
  /-- "uploader is closed" -/
  | noTimer {sh m room room'} : sh.hasTimer = false →
      ThreadStep opts t sh (.checking m) (.check room room') sh (.leaving false)
  | fits {sh m room room'} : sh.hasTimer = true →
      exceeds opts sh.bs.length m.text.length = false →
      ThreadStep opts t sh (.checking m) (.check room room') sh (.writing m)
  | exceeds {sh m room room'} : sh.hasTimer = true →
      exceeds opts sh.bs.length m.text.length = true →
      ThreadStep opts t sh (.checking m) (.check room room') (sh.flush room room') (.writing m)
  | write {sh m room} : (sh.write m room).bs.length ≤ maxAlloc →
      ThreadStep opts t sh (.writing m) (.write room) (sh.write m room) (.leaving false)
  | body {sh close room room'} :
      ThreadStep opts t sh (.flushLocked close) (.body room room') (sh.flush room room')
        (.leaving close)
  | unlock {sh close} :
      ThreadStep opts t sh (.leaving close) .unlock { sh with m := none }
        (if close then .waiting else .idle)
  | wait {sh} : (∀ x ∈ sh.senders, ∃ data, x.progress = .finished data) →
      ThreadStep opts t sh .waiting .wait sh .closed

structure State (opts : Options) where
  shared : Shared opts
  pc     : Nat → Pc opts

def State.init (opts : Options) : State opts := ⟨.init opts, fun _ => .idle⟩

inductive Label (opts : Options) where
  | thread (t : Nat) (a : Action opts)
  | send (k : Nat)
  | finish (k : Nat)

/-- The uploader with its threads and goroutines.  `Close` is called when no message is on its
    way to the buffer. -/
inductive Step (opts : Options) : State opts → Label opts → State opts → Prop
  | thread {s t a sh p} : ThreadStep opts t s.shared (s.pc t) a sh p →
      (a = .close → ∀ u, (s.pc u).isUpload = false) →
      Step opts s (.thread t a) ⟨sh, Function.update s.pc t p⟩
  | send {s before after toUpload messages} :
      s.shared.senders = before ++ ⟨toUpload, messages, .started⟩ :: after →
      Step opts s (.send before.length)
        { s with shared := { s.shared with
          senders := before
            ++ ⟨toUpload, messages, .sending (content s.shared.heap toUpload)⟩ :: after
          handed := s.shared.handed ++ [content s.shared.heap toUpload] } }
  | finish {s before after toUpload messages data} :
      s.shared.senders = before ++ ⟨toUpload, messages, .sending data⟩ :: after →
      Step opts s (.finish before.length)
        { s with shared := { s.shared with
          senders := before ++ ⟨toUpload, messages, .finished data⟩ :: after } }

/-! ## The size check -/

/-- **THE SIZE CHECK** counts a comma whether there is one or not, and does not overflow. -/
theorem exceeds_iff (opts : Options) {buffered new : Nat} (hbuffered : buffered ≤ maxAlloc)
    (hnew : new ≤ maxAlloc) :
    exceeds opts buffered new = true ↔ opts.maxBatchSize.toNat < buffered + new + 3 := by
  have hmax := opts.small
  have hone : (1 : BitVec 64).toNat = 1 := rfl
  rw [maxAlloc] at hbuffered hnew
  have hsum : (1 + BitVec.ofNat 64 buffered + 1 + (BitVec.ofNat 64 new + 1)).toNat
      = buffered + new + 3 := by
    simp only [BitVec.toNat_add, BitVec.toNat_ofNat, hone]
    omega
  rw [exceeds, BitVec.slt_iff_toInt_lt, BitVec.toInt_eq_toNat_of_lt (by omega),
    BitVec.toInt_eq_toNat_of_lt (by omega), hsum]
  exact Int.ofNat_lt

section

variable {opts : Options} {sh sh' : Shared opts}

/-! ## The buffer -/

@[simp] theorem flush_m (sh : Shared opts) (room room' : List UInt8) :
    (sh.flush room room').m = sh.m := by
  rw [Shared.flush]
  split
  · rfl
  · rfl

@[simp] theorem flush_closing (sh : Shared opts) (room room' : List UInt8) :
    (sh.flush room room').closing = sh.closing := by
  rw [Shared.flush]
  split
  · rfl
  · rfl

@[simp] theorem flush_hasTimer (sh : Shared opts) (room room' : List UInt8) :
    (sh.flush room room').hasTimer = sh.hasTimer := by
  rw [Shared.flush]
  split
  · rfl
  · rfl

theorem flush_calls (sh : Shared opts) (room room' : List UInt8) :
    (sh.flush room room').calls = sh.calls := by
  rw [Shared.flush]
  split
  · rfl
  · rfl

@[simp] theorem flush_bs (sh : Shared opts) (room room' : List UInt8) :
    (sh.flush room room').bs = [] := by
  rw [Shared.flush]
  split
  case isTrue h => exact h
  case isFalse => rfl

theorem flush_of_nil (h : sh.bs = []) (room room' : List UInt8) :
    sh.flush room room' = sh := by
  rw [Shared.flush, if_pos h]

@[simp] theorem write_m (sh : Shared opts) (m : Message opts) (room : List UInt8) :
    (sh.write m room).m = sh.m := by
  rw [Shared.write]
  split
  · rfl
  · rfl

@[simp] theorem write_closing (sh : Shared opts) (m : Message opts) (room : List UInt8) :
    (sh.write m room).closing = sh.closing := by
  rw [Shared.write]
  split
  · rfl
  · rfl

@[simp] theorem write_hasTimer (sh : Shared opts) (m : Message opts) (room : List UInt8) :
    (sh.write m room).hasTimer = sh.hasTimer := by
  rw [Shared.write]
  split
  · rfl
  · rfl

theorem write_calls (sh : Shared opts) (m : Message opts) (room : List UInt8) :
    (sh.write m room).calls = sh.calls := by
  rw [Shared.write]
  split
  · rfl
  · rfl

/-- A slice of the package has its byte, and no room behind it. -/
theorem Package.slice {heap : Heap UInt8} (h : Package heap) {s : Slice} {b : UInt8}
    (hs : s.array < 3) (hb : arrayOf packageHeap s = [b]) (hlen : s.len = 1) :
    Valid heap s ∧ (arrayOf heap s).length ≤ s.len ∧ content heap s = [b] := by
  have harray : arrayOf heap s = [b] := (h.arrayOf s hs).trans hb
  refine ⟨⟨lt_of_lt_of_le hs h.length, ?_⟩, ?_, ?_⟩
  · rw [harray, hlen]
    exact le_rfl
  · rw [harray, hlen]
    exact le_rfl
  · rw [content, harray, hlen]
    rfl

/-- The goroutine of a batch has the bytes of its batch, and no others. -/
structure SenderOk (heap : Heap UInt8) (x : Sender opts) : Prop where
  messages : x.messages ≠ []
  valid    : Valid heap x.toUpload
  content  : content heap x.toUpload = batch x.messages
  size     : (batch x.messages).length ≤ opts.maxBatchSize.toNat
  sent     : ∀ data ∈ x.sent, data = batch x.messages

theorem SenderOk.extends {heap heap' : Heap UInt8} {x : Sender opts} (h : SenderOk heap x)
    (hext : Extends heap heap') : SenderOk heap' x where
  messages := h.messages
  valid := hext.valid h.valid
  content := (hext.content_eq h.valid).trans h.content
  size := h.size
  sent := h.sent

/-- What the buffer and the goroutines hold, while a call of `Upload` has a message in its
    hands. -/
structure Batches (sh : Shared opts) (pending : List (Message opts)) : Prop where
  package : Package sh.heap
  calls   : sh.calls = (sh.senders.map Sender.messages).flatten ++ (sh.buffered ++ pending)
  bs      : sh.bs = join sh.buffered
  size    : sh.bs ≠ [] → sh.bs.length + 2 ≤ opts.maxBatchSize.toNat
  alloc   : sh.bs.length ≤ maxAlloc
  senders : ∀ x ∈ sh.senders, SenderOk sh.heap x
  handed  : sh.handed.Perm (sh.senders.flatMap Sender.sent)

/-- The mutex and the call of `Close` do not matter. -/
theorem Batches.frame {pending : List (Message opts)} (h : Batches sh pending)
    (m : Option Nat) (closing : Bool) :
    Batches { sh with m := m, closing := closing } pending :=
  ⟨h.package, h.calls, h.bs, h.size, h.alloc, h.senders, h.handed⟩

theorem Batches.buffered_ne_nil {pending : List (Message opts)} (h : Batches sh pending)
    (hbs : sh.bs ≠ []) : sh.buffered ≠ [] := by
  intro hnil
  refine hbs ?_
  rw [h.bs, hnil]
  rfl

/-- **A BATCH** is a new array: no other goroutine reads it, and it does not change. -/
theorem append_batch {heap : Heap UInt8} (h : Package heap) {bs : List UInt8} (hbs : bs ≠ [])
    (room room' : List UInt8) :
    let toUpload := append heap prefixSlice bs room
    let toUpload' := append toUpload.1 toUpload.2 (content heap suffixSlice) room'
    Extends heap toUpload'.1 ∧ Valid toUpload'.1 toUpload'.2
      ∧ content toUpload'.1 toUpload'.2 = leftBracket :: (bs ++ [rightBracket]) := by
  obtain ⟨hvalid, hfull, hprefix⟩ := h.slice (by decide) (rfl : arrayOf _ prefixSlice = _) rfl
  obtain ⟨-, -, hsuffix⟩ := h.slice (by decide) (rfl : arrayOf _ suffixSlice = _) rfl
  have hnew : (append heap prefixSlice bs room).2.array = heap.length := by
    rw [append_of_full hfull hbs]
  have hvalid' := valid_append hvalid bs room
  refine ⟨(extends_append_of_full hfull hbs room).append hnew.ge _ room',
    valid_append hvalid' _ room', ?_⟩
  rw [content_append hvalid', content_append hvalid, hsuffix, hprefix]
  rfl

theorem Batches.flush {pending : List (Message opts)} (h : Batches sh pending)
    (room room' : List UInt8) : Batches (sh.flush room room') pending := by
  rw [Shared.flush]
  split
  case isTrue => exact h
  case isFalse hbs =>
      obtain ⟨hext, hvalid, hcontent⟩ := append_batch h.package hbs room room'
      have hbatch : leftBracket :: (sh.bs ++ [rightBracket]) = batch sh.buffered := by
        rw [h.bs, batch]
      refine ⟨h.package.trans hext, ?_, rfl, fun hne => absurd rfl hne, Nat.zero_le _, ?_, ?_⟩
      · rw [List.map_append, List.flatten_append, h.calls, List.append_assoc]
        simp
      · intro x hx
        rcases List.mem_append.mp hx with hx | hx
        · exact (h.senders x hx).extends hext
        · obtain rfl := List.mem_singleton.mp hx
          refine ⟨h.buffered_ne_nil hbs, hvalid, hcontent.trans hbatch, ?_, fun data hd => ?_⟩
          · rw [length_batch, ← h.bs]
            exact h.size hbs
          · exact absurd hd List.not_mem_nil
      · rw [List.flatMap_append]
        simpa [Sender.sent] using h.handed

/-- A goroutine goes on: its batch stays, and what it hands over is added. -/
theorem Batches.replace {pending : List (Message opts)} (h : Batches sh pending)
    {before after : List (Sender opts)} {x x' : Sender opts}
    (hsenders : sh.senders = before ++ x :: after) (hok : SenderOk sh.heap x')
    (hmessages : x'.messages = x.messages) {new : List (List UInt8)}
    (hsent : x'.sent = x.sent ++ new) :
    Batches { sh with
      senders := before ++ x' :: after
      handed := sh.handed ++ new } pending where
  package := h.package
  calls := by
    have hcalls := h.calls
    rw [hsenders, List.map_append, List.map_cons, ← hmessages, ← List.map_cons,
      ← List.map_append] at hcalls
    exact hcalls
  bs := h.bs
  size := h.size
  alloc := h.alloc
  senders := by
    intro y hy
    have hold : ∀ z ∈ before ++ x :: after, SenderOk sh.heap z := hsenders ▸ h.senders
    rcases List.mem_append.mp hy with hy | hy
    · exact hold y (List.mem_append_left _ hy)
    · rcases List.mem_cons.mp hy with rfl | hy
      · exact hok
      · exact hold y (List.mem_append_right _ (List.mem_cons_of_mem _ hy))
  handed := by
    have hperm := h.handed
    rw [hsenders, List.flatMap_append, List.flatMap_cons] at hperm
    show (sh.handed ++ new).Perm _
    rw [List.flatMap_append, List.flatMap_cons, hsent, List.append_assoc]
    refine (hperm.append_right new).trans ?_
    rw [List.append_assoc, List.append_assoc]
    exact (List.perm_append_comm.append_left _).append_left _

/-- There is room for a message behind what is in the buffer. -/
def Room (bs : List UInt8) (m : Message opts) : Prop :=
  bs ≠ [] → bs.length + 1 + m.text.length + 2 ≤ opts.maxBatchSize.toNat

theorem room_nil (m : Message opts) : Room [] m := fun h => absurd rfl h

/-- The size check leaves room. -/
theorem room_of_fits {pending : List (Message opts)} (h : Batches sh pending)
    {m : Message opts} (hfits : exceeds opts sh.bs.length m.text.length = false) :
    Room sh.bs m := by
  intro _
  have hiff := exceeds_iff opts h.alloc m.alloc
  rw [hfits] at hiff
  have hle := not_lt.mp fun hlt => Bool.noConfusion (hiff.mpr hlt)
  omega

theorem content_append_delimiter {heap : Heap UInt8} (h : Package heap) {bs : List UInt8}
    (hbs : bs ≠ []) (room : List UInt8) :
    Extends heap (append heap delimiterSlice bs room).1
      ∧ content (append heap delimiterSlice bs room).1 (append heap delimiterSlice bs room).2
        = comma :: bs := by
  obtain ⟨hvalid, hfull, hcomma⟩ :=
    h.slice (by decide) (rfl : arrayOf _ delimiterSlice = _) rfl
  refine ⟨extends_append_of_full hfull hbs room, ?_⟩
  rw [content_append hvalid, hcomma]
  rfl

/-- **THE WRITE** moves the message from the hands of its call to the buffer. -/
theorem Batches.write {m : Message opts} (h : Batches sh [m]) (hroom : Room sh.bs m)
    {room : List UInt8} (halloc : (sh.write m room).bs.length ≤ maxAlloc) :
    Batches (sh.write m room) [] := by
  have hcalls : sh.calls = (sh.senders.map Sender.messages).flatten
      ++ ((sh.buffered ++ [m]) ++ []) := by
    rw [List.append_nil]
    exact h.calls
  rw [Shared.write] at halloc ⊢
  split at halloc
  case isTrue hbs =>
      obtain ⟨hext, hcontent⟩ := content_append_delimiter h.package m.nonempty room
      rw [if_pos hbs]
      dsimp only at halloc ⊢
      rw [hcontent] at halloc ⊢
      refine ⟨h.package.trans hext, hcalls, ?_, fun _ => ?_, halloc,
        fun x hx => (h.senders x hx).extends hext, h.handed⟩
      · rw [join_snoc (h.buffered_ne_nil hbs), h.bs]
      · have hsize := hroom hbs
        rw [List.length_append, List.length_cons]
        omega
  case isFalse hbs =>
      rw [if_neg hbs]
      have hnil : sh.bs = [] := not_not.mp hbs
      have hbuffered : sh.buffered = [] := by
        by_contra hne
        exact join_ne_nil hne (h.bs.symm.trans hnil)
      refine ⟨h.package, hcalls, ?_, fun _ => ?_, halloc, h.senders, h.handed⟩
      · show sh.bs ++ m.text = join (sh.buffered ++ [m])
        rw [hnil, hbuffered]
        exact List.intercalate_singleton.symm
      · show (sh.bs ++ m.text).length + 2 ≤ _
        rw [hnil]
        exact m.fits

/-! ## Where the threads are -/

/-- Every goroutine has handed over its batch and is done. -/
def AllFinished (sh : Shared opts) : Prop :=
  ∀ x ∈ sh.senders, ∃ data, x.progress = .finished data

/-- What holds while a thread is at a point of its code. -/
def At (sh : Shared opts) (t : Nat) : Pc opts → Prop
  | .idle => sh.m ≠ some t
  | .uploading _ => sh.m ≠ some t ∧ sh.closing = false
  | .checking _ => sh.m = some t ∧ sh.closing = false
  | .writing m => sh.m = some t ∧ sh.closing = false ∧ Room sh.bs m
  | .flushing close => sh.m ≠ some t ∧ (close = true → sh.closing = true)
  | .flushLocked close => sh.m = some t ∧ (close = true → sh.closing = true)
  | .leaving close => sh.m = some t ∧ (close = true → sh.closing = true ∧ sh.bs = [])
  | .waiting => sh.m ≠ some t ∧ sh.closing = true ∧ sh.bs = []
  | .closed => sh.m ≠ some t ∧ sh.closing = true ∧ sh.bs = [] ∧ AllFinished sh

/-- **THE THREAD'S OWN STEP** leads to what holds at its next point. -/
theorem At.own {t : Nat} {p p' : Pc opts} {a : Action opts} {pending : List (Message opts)}
    (hat : At sh t p) (hb : Batches sh pending) (h : ThreadStep opts t sh p a sh' p') :
    At sh' t p' := by
  cases h with
  | upload hopen => exact ⟨hat, hopen⟩
  | flush => exact ⟨hat, fun h => Bool.noConfusion h⟩
  | close => exact ⟨hat, fun _ => rfl⟩
  | lockUpload hfree => exact ⟨rfl, hat.2⟩
  | lockFlush hfree => exact ⟨rfl, hat.2⟩
  | noTimer htimer => exact ⟨hat.1, fun h => Bool.noConfusion h⟩
  | fits htimer hfits => exact ⟨hat.1, hat.2, room_of_fits hb hfits⟩
  | exceeds htimer hexceeds =>
      refine ⟨?_, ?_, ?_⟩
      · rw [flush_m]
        exact hat.1
      · rw [flush_closing]
        exact hat.2
      · rw [flush_bs]
        exact room_nil _
  | write halloc =>
      refine ⟨?_, fun h => Bool.noConfusion h⟩
      rw [write_m]
      exact hat.1
  | body =>
      refine ⟨?_, fun hclose => ⟨?_, flush_bs _ _ _⟩⟩
      · rw [flush_m]
        exact hat.1
      · rw [flush_closing]
        exact hat.2 hclose
  | @unlock close =>
      have hfree : (none : Option Nat) ≠ some t := (Option.some_ne_none t).symm
      cases close with
      | false => exact hfree
      | true => exact ⟨hfree, hat.2 rfl⟩
  | wait hdone => exact ⟨hat.1, hat.2.1, hat.2.2, hdone⟩

/-- What holds at the points of threads that do not have the mutex. -/
def Outside (sh : Shared opts) : Pc opts → Prop
  | .idle => True
  | .uploading _ => sh.closing = false
  | .checking _ => False
  | .writing _ => False
  | .flushing close => close = true → sh.closing = true
  | .flushLocked _ => False
  | .leaving _ => False
  | .waiting => sh.closing = true ∧ sh.bs = []
  | .closed => sh.closing = true ∧ sh.bs = [] ∧ AllFinished sh

theorem at_iff_outside {u : Nat} (hu : sh.m ≠ some u) (q : Pc opts) :
    At sh u q ↔ Outside sh q := by
  cases q with
  | idle => exact iff_of_true hu trivial
  | uploading m => exact and_iff_right hu
  | checking m => exact iff_of_false (fun h => hu h.1) id
  | writing m => exact iff_of_false (fun h => hu h.1) id
  | flushing close => exact and_iff_right hu
  | flushLocked close => exact iff_of_false (fun h => hu h.1) id
  | leaving close => exact iff_of_false (fun h => hu h.1) id
  | waiting => exact and_iff_right hu
  | closed => exact and_iff_right hu

/-- A thread without the mutex does not see what others do with it: once `Close` is called
    and the buffer is empty, it stays so. -/
theorem Outside.mono {q : Pc opts} (h : Outside sh q) (hclosing : sh'.closing = sh.closing)
    (hbs : sh.closing = true → sh.bs = [] → sh'.bs = [] ∧ sh'.senders = sh.senders) :
    Outside sh' q := by
  cases q with
  | idle => trivial
  | uploading m => exact hclosing.trans h
  | checking m => exact h
  | writing m => exact h
  | flushing close => exact fun hclose => hclosing.trans (h hclose)
  | flushLocked close => exact h
  | leaving close => exact h
  | waiting => exact ⟨hclosing.trans h.1, (hbs h.1 h.2).1⟩
  | closed =>
      obtain ⟨hempty, hsenders⟩ := hbs h.1 h.2.1
      refine ⟨hclosing.trans h.1, hempty, ?_⟩
      rw [AllFinished, hsenders]
      exact h.2.2

theorem At.keep {u : Nat} {q : Pc opts} (hq : At sh u q) (hm : sh.m ≠ some u)
    (hm' : sh'.m ≠ some u) (hclosing : sh'.closing = sh.closing)
    (hbs : sh.closing = true → sh.bs = [] → sh'.bs = [] ∧ sh'.senders = sh.senders) :
    At sh' u q :=
  (at_iff_outside hm' q).mpr (((at_iff_outside hm q).mp hq).mono hclosing hbs)

/-- A flush by the thread with the mutex. -/
theorem At.keep_flush {u : Nat} {q : Pc opts} (hq : At sh u q) (hm : sh.m ≠ some u)
    (room room' : List UInt8) : At (sh.flush room room') u q := by
  refine hq.keep hm (flush_m sh room room' ▸ hm) (flush_closing _ _ _) fun _ hbs => ?_
  rw [flush_of_nil hbs]
  exact ⟨hbs, rfl⟩

/-- **THE OTHER THREADS** keep what holds where they are. -/
theorem At.other {t u : Nat} {p p' q : Pc opts} {a : Action opts} (hu : u ≠ t)
    (hat : At sh t p) (h : ThreadStep opts t sh p a sh' p') (hq : At sh u q)
    (hquiet : a = .close → q.isUpload = false) : At sh' u q := by
  have hsome : ∀ {o : Option Nat}, o = some t → o ≠ some u := by
    rintro o rfl heq
    exact hu (Option.some.inj heq).symm
  have hnone : ∀ {o : Option Nat}, o = none → o ≠ some u := by
    rintro o rfl
    exact (Option.some_ne_none u).symm
  cases h with
  | upload hopen => exact hq
  | flush => exact hq
  | close =>
      -- a message on its way is what `Close` waits for
      have hup := hquiet rfl
      cases q with
      | idle => exact hq
      | uploading m => exact Bool.noConfusion hup
      | checking m => exact Bool.noConfusion hup
      | writing m => exact Bool.noConfusion hup
      | flushing close => exact ⟨hq.1, fun _ => rfl⟩
      | flushLocked close => exact ⟨hq.1, fun _ => rfl⟩
      | leaving close => exact ⟨hq.1, fun hclose => ⟨rfl, (hq.2 hclose).2⟩⟩
      | waiting => exact ⟨hq.1, rfl, hq.2.2⟩
      | closed => exact ⟨hq.1, rfl, hq.2.2⟩
  | lockUpload hfree => exact hq.keep (hnone hfree) (hsome rfl) rfl fun _ hbs => ⟨hbs, rfl⟩
  | lockFlush hfree => exact hq.keep (hnone hfree) (hsome rfl) rfl fun _ hbs => ⟨hbs, rfl⟩
  | noTimer htimer => exact hq
  | fits htimer hfits => exact hq
  | exceeds htimer hexceeds => exact hq.keep_flush (hsome hat.1) _ _
  | write halloc =>
      refine hq.keep (hsome hat.1) (hsome ((write_m _ _ _).trans hat.1)) (write_closing _ _ _)
        fun hclosing => ?_
      exact Bool.noConfusion (hat.2.1.symm.trans hclosing)
  | body => exact hq.keep_flush (hsome hat.1) _ _
  | unlock => exact hq.keep (hsome hat.1) (hnone rfl) rfl fun _ hbs => ⟨hbs, rfl⟩
  | wait hdone => exact hq

/-! ## Runs -/

/-- The message in the hands of the call that has the mutex. -/
def pendingOf (m : Option Nat) (pc : Nat → Pc opts) : List (Message opts) :=
  match m with
  | none => []
  | some t => (pc t).pending

theorem pendingOf_update_self (pc : Nat → Pc opts) (t : Nat) (p : Pc opts) :
    pendingOf (some t) (Function.update pc t p) = p.pending := by
  rw [pendingOf, Function.update_self]

theorem pendingOf_update_of_ne {m : Option Nat} {t : Nat} (h : m ≠ some t)
    (pc : Nat → Pc opts) (p : Pc opts) :
    pendingOf m (Function.update pc t p) = pendingOf m pc := by
  cases m with
  | none => rfl
  | some u =>
      have hu : u ≠ t := fun heq => h (congrArg some heq)
      rw [pendingOf, pendingOf, Function.update_of_ne hu]

/-- **THE BUFFER AND THE GOROUTINES** after a step of a thread. -/
theorem Batches.step {t : Nat} {p p' : Pc opts} {a : Action opts} {pc : Nat → Pc opts}
    (hpc : pc t = p) (htimer : sh.hasTimer = true) (hat : At sh t p)
    (hb : Batches sh (pendingOf sh.m pc)) (h : ThreadStep opts t sh p a sh' p') :
    Batches sh' (pendingOf sh'.m (Function.update pc t p')) := by
  have hpending : ∀ {m : Option Nat}, m = some t → pendingOf m pc = p.pending := by
    rintro m rfl
    rw [pendingOf, hpc]
  cases h with
  | upload hopen =>
      rw [pendingOf_update_of_ne hat]
      exact hb
  | flush =>
      rw [pendingOf_update_of_ne hat]
      exact hb
  | close =>
      show Batches _ (pendingOf sh.m _)
      rw [pendingOf_update_of_ne hat]
      exact hb.frame _ _
  | @lockUpload m hfree =>
      rw [hfree] at hb
      show Batches _ (pendingOf (some t) _)
      rw [pendingOf_update_self]
      refine ⟨hb.package, ?_, hb.bs, hb.size, hb.alloc, hb.senders, hb.handed⟩
      show sh.calls ++ [m] = _
      rw [hb.calls, pendingOf, List.append_nil, List.append_assoc]
      rfl
  | lockFlush hfree =>
      rw [hfree] at hb
      show Batches _ (pendingOf (some t) _)
      rw [pendingOf_update_self]
      exact hb.frame _ _
  | noTimer hno => exact absurd (htimer.symm.trans hno) Bool.noConfusion
  | fits _ hfits =>
      rw [hpending hat.1] at hb
      rw [hat.1, pendingOf_update_self]
      exact hb
  | exceeds _ hexceeds =>
      rw [hpending hat.1] at hb
      rw [flush_m, hat.1, pendingOf_update_self]
      exact hb.flush _ _
  | write halloc =>
      rw [hpending hat.1] at hb
      rw [write_m, hat.1, pendingOf_update_self]
      exact hb.write hat.2.2 halloc
  | body =>
      rw [hpending hat.1] at hb
      rw [flush_m, hat.1, pendingOf_update_self]
      exact hb.flush _ _
  | unlock =>
      rw [hpending hat.1] at hb
      exact hb.frame _ _
  | wait hdone =>
      rw [pendingOf_update_of_ne hat.1]
      exact hb

/-- The timer is not set to nil. -/
theorem hasTimer_step {t : Nat} {p p' : Pc opts} {a : Action opts}
    (h : ThreadStep opts t sh p a sh' p') : sh'.hasTimer = sh.hasTimer := by
  cases h with
  | exceeds _ _ => exact flush_hasTimer _ _ _
  | write _ => exact write_hasTimer _ _ _
  | body => exact flush_hasTimer _ _ _
  | _ => rfl

/-- What holds between any two steps. -/
structure Inv (s : State opts) : Prop where
  timer   : s.shared.hasTimer = true
  threads : ∀ t, At s.shared t (s.pc t)
  batches : Batches s.shared (pendingOf s.shared.m s.pc)

theorem inv_init (opts : Options) : Inv (State.init opts) where
  timer := rfl
  threads := fun t => (Option.some_ne_none t).symm
  batches :=
    { package := ⟨le_rfl, fun _ _ => rfl⟩
      calls := rfl
      bs := rfl
      size := fun h => absurd rfl h
      alloc := Nat.zero_le _
      senders := fun _ hx => absurd hx List.not_mem_nil
      handed := .nil }

/-- What a step of a goroutine leaves to the threads: one that is not done keeps `Close` from
    returning. -/
theorem At.senders {t : Nat} {p : Pc opts} {x : Sender opts} (hat : At sh t p)
    (hx : x ∈ sh.senders) (hnot : ∀ data, x.progress ≠ .finished data)
    (senders : List (Sender opts)) (handed : List (List UInt8)) :
    At { sh with senders := senders, handed := handed } t p := by
  cases p with
  | closed =>
      obtain ⟨data, hdata⟩ := hat.2.2.2 x hx
      exact absurd hdata (hnot data)
  | _ => exact hat

/-- **STEP.** -/
theorem inv_step {s s' : State opts} {l : Label opts} (hinv : Inv s)
    (h : Step opts s l s') : Inv s' := by
  cases h with
  | @thread t a sh p hstep hquiet =>
      refine ⟨(hasTimer_step hstep).trans hinv.timer, ?_,
        hinv.batches.step rfl hinv.timer (hinv.threads t) hstep⟩
      refine (Function.forall_update_iff s.pc fun u q => At sh u q).mpr ⟨?_, fun u hu => ?_⟩
      · exact (hinv.threads t).own hinv.batches hstep
      · exact At.other hu (hinv.threads t) hstep (hinv.threads u) fun hclose => hquiet hclose u
  | @send before after toUpload messages hsenders =>
      have hmem : ⟨toUpload, messages, .started⟩ ∈ s.shared.senders := by
        rw [hsenders]
        exact List.mem_append_right _ List.mem_cons_self
      have hok := hinv.batches.senders _ hmem
      have hnext : SenderOk s.shared.heap
          ⟨toUpload, messages, .sending (content s.shared.heap toUpload)⟩ := by
        refine ⟨hok.messages, hok.valid, hok.content, hok.size, fun data hd => ?_⟩
        rw [List.mem_singleton.mp hd]
        exact hok.content
      exact ⟨hinv.timer, fun u => (hinv.threads u).senders hmem (fun _ => Progress.noConfusion)
        _ _, hinv.batches.replace hsenders hnext rfl rfl⟩
  | @finish before after toUpload messages data hsenders =>
      have hmem : ⟨toUpload, messages, .sending data⟩ ∈ s.shared.senders := by
        rw [hsenders]
        exact List.mem_append_right _ List.mem_cons_self
      have hok := hinv.batches.senders _ hmem
      have hnext : SenderOk s.shared.heap ⟨toUpload, messages, .finished data⟩ :=
        ⟨hok.messages, hok.valid, hok.content, hok.size, hok.sent⟩
      have hb := hinv.batches.replace hsenders hnext rfl (List.append_nil _).symm
      rw [List.append_nil] at hb
      exact ⟨hinv.timer, fun u => (hinv.threads u).senders hmem (fun _ => Progress.noConfusion)
        _ _, hb⟩

/-! ## The calls of a run -/

/-- The message with which an action calls `Upload`. -/
def Action.calls : Action opts → List (Message opts)
  | .upload m => [m]
  | _ => []

/-- The message of the call that gets the mutex by an action. -/
def Action.locks (p : Pc opts) : Action opts → List (Message opts)
  | .lock => p.waits.toList
  | _ => []

/-- The messages of the calls of `Upload` in a run. -/
def called (tr : List (State opts × Label opts)) : List (Message opts) :=
  tr.flatMap fun x =>
    match x.2 with
    | .thread _ a => a.calls
    | _ => []

/-- The same in the order in which the calls got the mutex. -/
def uploads (tr : List (State opts × Label opts)) : List (Message opts) :=
  tr.flatMap fun x =>
    match x.2 with
    | .thread t a => a.locks (x.1.pc t)
    | _ => []

/-- The calls that wait for the mutex. -/
structure Waiting (pc : Nat → Pc opts) (ws : List (Nat × Message opts)) : Prop where
  nodup : (ws.map Prod.fst).Nodup
  mem   : ∀ t m, (t, m) ∈ ws ↔ (pc t).waits = some m

theorem Waiting.update {pc : Nat → Pc opts} {ws : List (Nat × Message opts)}
    (h : Waiting pc ws) {t : Nat} {p : Pc opts} (hp : p.waits = (pc t).waits) :
    Waiting (Function.update pc t p) ws := by
  refine ⟨h.nodup, fun u m => ?_⟩
  rw [h.mem]
  by_cases hu : u = t
  · rw [hu, Function.update_self, hp]
  · rw [Function.update_of_ne hu]

theorem Waiting.call {pc : Nat → Pc opts} {ws : List (Nat × Message opts)}
    (h : Waiting pc ws) {t : Nat} (hpc : (pc t).waits = none) (m : Message opts) :
    Waiting (Function.update pc t (.uploading m)) ((t, m) :: ws) := by
  refine ⟨?_, fun u m' => ?_⟩
  · rw [List.map_cons, List.nodup_cons]
    refine ⟨fun hmem => ?_, h.nodup⟩
    obtain ⟨⟨u, m'⟩, hw, rfl⟩ := List.mem_map.mp hmem
    cases hpc.symm.trans ((h.mem u m').mp hw)
  · rw [List.mem_cons, h.mem]
    by_cases hu : u = t
    · rw [hu, Function.update_self, hpc]
      simp [Pc.waits, eq_comm]
    · rw [Function.update_of_ne hu]
      simp [hu]

theorem Waiting.locked {pc : Nat → Pc opts} {before after : List (Nat × Message opts)}
    {t : Nat} {m : Message opts} (h : Waiting pc (before ++ (t, m) :: after)) {p : Pc opts}
    (hp : p.waits = none) : Waiting (Function.update pc t p) (before ++ after) := by
  have hnodup := h.nodup
  rw [List.map_append, List.map_cons] at hnodup
  have hsplit := List.nodup_middle.mp hnodup
  rw [List.nodup_cons, ← List.map_append] at hsplit
  refine ⟨hsplit.2, fun u m' => ?_⟩
  by_cases hu : u = t
  · rw [hu, Function.update_self, hp]
    refine iff_of_false (fun hmem => hsplit.1 ?_) (Option.some_ne_none m').symm
    exact List.mem_map.mpr ⟨(t, m'), hmem, rfl⟩
  · rw [Function.update_of_ne hu, ← h.mem]
    simp [hu]

/-- A call waits for the mutex until it gets it. -/
theorem Waiting.step {t : Nat} {p p' : Pc opts} {a : Action opts} {pc : Nat → Pc opts}
    {ws : List (Nat × Message opts)} (hw : Waiting pc ws) (hpc : pc t = p)
    (h : ThreadStep opts t sh p a sh' p') :
    ∃ ws', Waiting (Function.update pc t p') ws'
      ∧ (a.calls ++ ws.map Prod.snd).Perm (a.locks p ++ ws'.map Prod.snd) := by
  have hother : p'.waits = p.waits → Waiting (Function.update pc t p') ws :=
    fun hp => hw.update (hpc ▸ hp)
  cases h with
  | @upload m hopen => exact ⟨(t, m) :: ws, hw.call (congrArg Pc.waits hpc) m, .refl _⟩
  | @lockUpload m hfree =>
      obtain ⟨before, after, rfl⟩ :=
        List.append_of_mem ((hw.mem t m).mpr (congrArg Pc.waits hpc))
      exact ⟨before ++ after, hw.locked rfl, List.perm_middle.map Prod.snd⟩
  | @unlock close =>
      refine ⟨ws, hother ?_, .refl _⟩
      cases close with
      | false => rfl
      | true => rfl
  | _ => exact ⟨ws, hother rfl, .refl _⟩

theorem calls_step {t : Nat} {p p' : Pc opts} {a : Action opts}
    (h : ThreadStep opts t sh p a sh' p') : sh'.calls = sh.calls ++ a.locks p := by
  cases h with
  | lockUpload hfree => rfl
  | exceeds _ _ => exact (flush_calls _ _ _).trans (List.append_nil _).symm
  | write _ => exact (write_calls _ _ _).trans (List.append_nil _).symm
  | body => exact (flush_calls _ _ _).trans (List.append_nil _).symm
  | _ => exact (List.append_nil _).symm

/-- The calls of a run have the mutex behind them, or wait for it. -/
theorem exists_waiting {tr : List (State opts × Label opts)} {s : State opts}
    (h : Run (Step opts) (.init opts) tr s) : s.shared.calls = uploads tr
      ∧ ∃ ws, Waiting s.pc ws ∧ (called tr).Perm (uploads tr ++ ws.map Prod.snd) := by
  induction h with
  | start =>
      refine ⟨rfl, [], ⟨List.nodup_nil, fun t m => ?_⟩, .nil⟩
      exact iff_of_false List.not_mem_nil (Option.some_ne_none m).symm
  | @next tr s l s' hrun hstep ih =>
      obtain ⟨hcalls, ws, hw, hperm⟩ := ih
      rw [called, uploads, List.flatMap_append, List.flatMap_append, ← called, ← uploads,
        List.flatMap_singleton, List.flatMap_singleton]
      cases hstep with
      | @thread t a sh p hthread hquiet =>
          obtain ⟨ws', hw', hperm'⟩ := hw.step rfl hthread
          refine ⟨(calls_step hthread).trans (congrArg (· ++ _) hcalls), ws', hw', ?_⟩
          show (called tr ++ a.calls).Perm ((uploads tr ++ a.locks (s.pc t)) ++ ws'.map Prod.snd)
          refine (hperm.append_right _).trans ?_
          rw [List.append_assoc, List.append_assoc]
          exact (List.perm_append_comm.trans hperm').append_left _
      | send hsenders =>
          refine ⟨hcalls.trans (List.append_nil _).symm, ws, hw, ?_⟩
          simpa using hperm
      | finish hsenders =>
          refine ⟨hcalls.trans (List.append_nil _).symm, ws, hw, ?_⟩
          simpa using hperm

/-- After `Close` is called no message is on its way to the buffer. -/
theorem Inv.isUpload_eq_false {s : State opts} (h : Inv s) (hclosing : s.shared.closing = true)
    (u : Nat) : (s.pc u).isUpload = false := by
  have hat := h.threads u
  cases hpc : s.pc u with
  | uploading m =>
      rw [hpc] at hat
      cases hat.2.symm.trans hclosing
  | checking m =>
      rw [hpc] at hat
      cases hat.2.symm.trans hclosing
  | writing m =>
      rw [hpc] at hat
      cases hat.2.1.symm.trans hclosing
  | _ => rfl

theorem pendingOf_eq_nil {pc : Nat → Pc opts} (h : ∀ u, (pc u).isUpload = false)
    (m : Option Nat) : pendingOf m pc = [] := by
  cases m with
  | none => rfl
  | some u =>
      have hu := h u
      rw [pendingOf]
      cases hpc : pc u with
      | checking m =>
          rw [hpc] at hu
          cases hu
      | writing m =>
          rw [hpc] at hu
          cases hu
      | _ => rfl

theorem Waiting.eq_nil {pc : Nat → Pc opts} {ws : List (Nat × Message opts)}
    (h : Waiting pc ws) (hpc : ∀ u, (pc u).isUpload = false) : ws = [] := by
  refine List.eq_nil_iff_forall_not_mem.mpr ?_
  rintro ⟨u, m⟩ hmem
  have hwaits := (h.mem u m).mp hmem
  have hu := hpc u
  cases hp : pc u with
  | uploading m' =>
      rw [hp] at hu
      cases hu
  | _ =>
      rw [hp] at hwaits
      cases hwaits

/-- A goroutine that is done has handed over its batch. -/
theorem SenderOk.sent_eq {heap : Heap UInt8} {x : Sender opts} (h : SenderOk heap x)
    {data : List UInt8} (hdata : x.progress = .finished data) :
    x.sent = [batch x.messages] := by
  have hone : x.sent = [data] := by rw [Sender.sent, hdata]
  rw [hone, h.sent data (hone ▸ List.mem_singleton_self data)]

/-- **EVERY MESSAGE IN ONE BATCH.**  When `Close` has returned, the goroutines that `flush` has
    started, in their order, have each handed over one batch, the batches are made of the
    messages in the order in which their calls got the mutex, and every call had it. -/
theorem closed_batches {tr : List (State opts × Label opts)} {s : State opts} {t : Nat}
    (h : Run (Step opts) (.init opts) tr s) (hclosed : s.pc t = .closed) :
    ∃ groups : List (List (Message opts)), groups.flatten = uploads tr
      ∧ (uploads tr).Perm (called tr)
      ∧ (∀ g ∈ groups, g ≠ [] ∧ (batch g).length ≤ opts.maxBatchSize.toNat)
      ∧ s.shared.senders.map Sender.sent = groups.map (fun g => [batch g])
      ∧ s.shared.handed.Perm (groups.map batch) := by
  have hinv : Inv s := h.invariant (inv_init opts) fun hinv hstep => inv_step hinv hstep
  obtain ⟨hcalls, ws, hw, hperm⟩ := exists_waiting h
  have hat := hinv.threads t
  rw [hclosed] at hat
  obtain ⟨-, hclosing, hbs, hfinished⟩ := hat
  have hquiet := hinv.isUpload_eq_false hclosing
  have hb := hinv.batches
  have hbuffered : s.shared.buffered = [] := by
    by_contra hne
    exact join_ne_nil hne (hb.bs.symm.trans hbs)
  have hsent : ∀ x ∈ s.shared.senders, x.sent = [batch x.messages] := by
    intro x hx
    obtain ⟨data, hdata⟩ := hfinished x hx
    exact (hb.senders x hx).sent_eq hdata
  refine ⟨s.shared.senders.map Sender.messages, ?_, ?_, fun g hg => ?_, ?_, ?_⟩
  · rw [← hcalls, hb.calls, hbuffered, pendingOf_eq_nil hquiet, List.append_nil,
      List.append_nil]
  · rw [hw.eq_nil hquiet, List.map_nil, List.append_nil] at hperm
    exact hperm.symm
  · obtain ⟨x, hx, rfl⟩ := List.mem_map.mp hg
    exact ⟨(hb.senders x hx).messages, (hb.senders x hx).size⟩
  · rw [List.map_map]
    exact List.map_congr_left hsent
  · refine hb.handed.trans (List.Perm.of_eq ?_)
    rw [List.flatMap, List.map_congr_left hsent, List.map_map, ← List.flatMap]
    exact (List.map_eq_flatMap ..).symm

end

/-! ## Goroutines that overtake -/

theorem three_small : (3 : BitVec 64).toNat < 2 ^ 63 := by decide

/-- Batches of three bytes have room for one digit. -/
def threeBytes : Options := ⟨3, three_small⟩

theorem digit_fits (d : UInt8) : [d].length + 2 ≤ threeBytes.maxBatchSize.toNat := le_rfl

theorem digit_alloc (d : UInt8) : [d].length ≤ maxAlloc := by
  show 1 ≤ 2 ^ 48
  decide

def digit (d : UInt8) : Message threeBytes where
  text := [d]
  nonempty := List.cons_ne_nil d []
  fits := digit_fits d
  alloc := digit_alloc d

/-- Thread 0 is somewhere, and the others do nothing. -/
def only (p : Pc threeBytes) : Nat → Pc threeBytes := Function.update (fun _ => .idle) 0 p

/-- A run of thread 0 and the goroutines leads here. -/
def Leads (sh : Shared threeBytes) (p : Pc threeBytes) : Prop :=
  ∃ tr, Run (Step threeBytes) (.init threeBytes) tr ⟨sh, only p⟩

theorem only_zero (p : Pc threeBytes) : only p 0 = p := Function.update_self ..

theorem leads_init : Leads (.init threeBytes) .idle := by
  refine ⟨[], ?_⟩
  rw [only, Function.update_eq_self]
  exact .start

theorem Leads.thread {sh sh' : Shared threeBytes} {p p' : Pc threeBytes}
    {a : Action threeBytes} (h : Leads sh p) (hstep : ThreadStep threeBytes 0 sh p a sh' p') :
    Leads sh' p' := by
  obtain ⟨tr, hrun⟩ := h
  have hquiet : a = .close → ∀ u, (only p u).isUpload = false := by
    rintro rfl u
    cases hstep
    rw [only, Function.update_eq_self]
    rfl
  have hpcs : Function.update (only p) 0 p' = only p' := Function.update_idem ..
  have hnext : Step threeBytes ⟨sh, only p⟩ (.thread 0 a) ⟨sh', Function.update (only p) 0 p'⟩ :=
    .thread ((only_zero p).symm ▸ hstep) hquiet
  rw [hpcs] at hnext
  exact ⟨_, hrun.next hnext⟩

/-- `Upload` of a digit that does not fit, with the mutex and after it. -/
def locked (sh : Shared threeBytes) (d : UInt8) : Shared threeBytes :=
  { sh with m := some 0, calls := sh.calls ++ [digit d] }

def afterUpload (sh : Shared threeBytes) (d : UInt8) : Shared threeBytes :=
  { ((locked sh d).flush [] []).write (digit d) [] with m := none }

theorem Leads.upload {sh : Shared threeBytes} (h : Leads sh .idle) (hopen : sh.closing = false)
    (hfree : sh.m = none) (htimer : sh.hasTimer = true) (d : UInt8)
    (hexceeds : exceeds threeBytes sh.bs.length [d].length = true) :
    Leads (afterUpload sh d) .idle := by
  have hcheck : ThreadStep threeBytes 0 (locked sh d) (.checking (digit d)) (.check [] [])
      ((locked sh d).flush [] []) (.writing (digit d)) := .exceeds htimer hexceeds
  have hwrite : ThreadStep threeBytes 0 ((locked sh d).flush [] []) (.writing (digit d))
      (.write []) (((locked sh d).flush [] []).write (digit d) []) (.leaving false) := by
    refine .write ?_
    rw [Shared.write, if_neg (not_not.mpr (flush_bs _ _ _))]
    show (((locked sh d).flush [] []).bs ++ [d]).length ≤ maxAlloc
    rw [flush_bs]
    exact digit_alloc d
  have hlocked := (h.thread (.upload hopen)).thread (.lockUpload (m := digit d) hfree)
  exact ((hlocked.thread hcheck).thread hwrite).thread .unlock

/-- `Close` before it waits. -/
def afterFlush (sh : Shared threeBytes) : Shared threeBytes :=
  { Shared.flush { sh with closing := true, m := some 0 } [] [] with m := none }

theorem Leads.close {sh : Shared threeBytes} (h : Leads sh .idle) (hfree : sh.m = none) :
    Leads (afterFlush sh) .waiting := by
  have hbody : ThreadStep threeBytes 0 { sh with closing := true, m := some 0 }
      (.flushLocked true) (.body [] [])
      (Shared.flush { sh with closing := true, m := some 0 } [] []) (.leaving true) := .body
  have hlocked := (h.thread .close).thread (.lockFlush hfree)
  exact (hlocked.thread hbody).thread .unlock

theorem Leads.send {sh : Shared threeBytes} {p : Pc threeBytes} {toUpload : Slice}
    {messages : List (Message threeBytes)} (h : Leads sh p)
    (before after : List (Sender threeBytes))
    (hsenders : sh.senders = before ++ ⟨toUpload, messages, .started⟩ :: after) :
    Leads { sh with
      senders := before ++ ⟨toUpload, messages, .sending (content sh.heap toUpload)⟩ :: after
      handed := sh.handed ++ [content sh.heap toUpload] } p := by
  obtain ⟨tr, hrun⟩ := h
  exact ⟨_, hrun.next (Step.send hsenders)⟩

theorem Leads.finish {sh : Shared threeBytes} {p : Pc threeBytes} {toUpload : Slice}
    {messages : List (Message threeBytes)} {data : List UInt8} (h : Leads sh p)
    (before after : List (Sender threeBytes))
    (hsenders : sh.senders = before ++ ⟨toUpload, messages, .sending data⟩ :: after) :
    Leads { sh with senders := before ++ ⟨toUpload, messages, .finished data⟩ :: after } p := by
  obtain ⟨tr, hrun⟩ := h
  exact ⟨_, hrun.next (Step.finish hsenders)⟩

/-- The goroutines of the two batches. -/
def first (progress : Progress) : Sender threeBytes := ⟨⟨4, 3⟩, [digit 49], progress⟩

def second (progress : Progress) : Sender threeBytes := ⟨⟨6, 3⟩, [digit 50], progress⟩

/-- What they have to send. -/
def firstBatch : List UInt8 := [leftBracket, 49, rightBracket]

def secondBatch : List UInt8 := [leftBracket, 50, rightBracket]

/-- The digits 1 and 2 are uploaded, and the goroutine of the second batch is faster. -/
theorem overtaking_run : ∃ sh, Leads sh .closed ∧ sh.calls = [digit 49, digit 50]
    ∧ sh.handed = [secondBatch, firstBatch] := by
  have huploads := (leads_init.upload rfl rfl rfl 49 rfl).upload rfl rfl rfl 50 rfl
  have hwaiting := huploads.close rfl
  have hsent := (hwaiting.send [first .started] [] rfl).send []
    [second (.sending secondBatch)] rfl
  have hfinished := (hsent.finish [] [second (.sending secondBatch)] rfl).finish
    [first (.finished firstBatch)] [] rfl
  have hdone : ∀ x ∈ [first (.finished firstBatch), second (.finished secondBatch)],
      ∃ data, x.progress = .finished data := by simp [first, second]
  exact ⟨_, hfinished.thread (.wait hdone), rfl, rfl⟩

/-- The messages of the batches in the order in which they are handed to `client.send` need
    not be those that were uploaded, in their order. -/
theorem handed_out_of_order : ¬ ∀ (opts : Options) (tr : List (State opts × Label opts))
    (s : State opts) (t : Nat), Run (Step opts) (.init opts) tr s → s.pc t = .closed →
      ∃ groups : List (List (Message opts)), groups.flatten = uploads tr
        ∧ s.shared.handed = groups.map batch := by
  intro h
  obtain ⟨sh, ⟨tr, hrun⟩, hcalls, hhanded⟩ := overtaking_run
  obtain ⟨groups, hflatten, hgroups⟩ := h threeBytes tr _ 0 hrun (only_zero .closed)
  rw [← (exists_waiting hrun).1] at hflatten
  have hflat : groups.flatten = [digit 49, digit 50] := hflatten.trans hcalls
  have hmap : [secondBatch, firstBatch] = groups.map batch := hhanded.symm.trans hgroups
  cases groups with
  | nil => cases hflat
  | cons g groups =>
      obtain ⟨hg, -⟩ := List.cons.inj hmap
      rw [List.flatten_cons] at hflat
      cases g with
      | nil => cases hg
      | cons m g =>
          -- the first batch would begin with the digit 1
          obtain ⟨rfl, -⟩ := List.cons.inj hflat
          obtain ⟨rest, hrest⟩ := exists_join_cons (digit 49) g
          rw [batch, hrest] at hg
          obtain ⟨hdigit, -⟩ := List.cons.inj (List.cons.inj hg).2
          exact absurd hdigit (by decide)

/-- The run of the example is one in which `Close` has returned. -/
theorem closed_batches_overtaking : ∃ (tr : List (State threeBytes × Label threeBytes))
    (s : State threeBytes), Run (Step threeBytes) (.init threeBytes) tr s ∧ s.pc 0 = .closed
      ∧ ∃ groups : List (List (Message threeBytes)), groups.flatten = uploads tr
        ∧ (uploads tr).Perm (called tr)
        ∧ (∀ g ∈ groups, g ≠ [] ∧ (batch g).length ≤ threeBytes.maxBatchSize.toNat)
        ∧ s.shared.senders.map Sender.sent = groups.map (fun g => [batch g])
        ∧ s.shared.handed.Perm (groups.map batch) := by
  obtain ⟨sh, ⟨tr, hrun⟩, -⟩ := overtaking_run
  have hclosed : (State.mk sh (only .closed)).pc 0 = .closed := only_zero .closed
  exact ⟨tr, _, hrun, hclosed, closed_batches hrun hclosed⟩

end JrtcUploader
