import Mathlib.Tactic

/-! # Buffered channels

    A channel with a bounded buffer that one side offers values to without waiting, and
    that is closed when there are no more.  What was sent before the close is received
    before the close is.

    * `Chan.offer`, `Chan.close`, `Chan.recv` — the operations, with where they panic and
      where they wait;
    * `Tracks` — what was received and what is still in the buffer is what was sent, in
      order;
    * `Tracks.recv_closed` — who receives the close has received everything. -/

namespace Channels

variable {α : Type*}

structure Chan (α : Type*) where
  queue  : List α
  closed : Bool

namespace Chan

def empty : Chan α := ⟨[], false⟩

/-- A send with another branch to take if the buffer is full: the channel after it and
    whether the value was sent.  On a closed channel it panics. -/
def offer (cap : Nat) (x : α) (c : Chan α) : Option (Bool × Chan α) :=
  if c.closed then none
  else if c.queue.length < cap then some (true, { c with queue := c.queue ++ [x] })
  else some (false, c)

/-- A second close panics. -/
def close (c : Chan α) : Option (Chan α) :=
  if c.closed then none else some { c with closed := true }

/-- A receive: a value, or the mark that the channel is closed and empty, or it waits. -/
def recv (c : Chan α) : Option (Option α × Chan α) :=
  match c.queue with
  | x :: rest => some (some x, { c with queue := rest })
  | [] => if c.closed then some (none, c) else none

theorem recv_cons {c : Chan α} {x : α} {rest : List α} (h : c.queue = x :: rest) :
    c.recv = some (some x, { c with queue := rest }) := by
  simp [recv, h]

theorem recv_closed {c : Chan α} (hq : c.queue = []) (hc : c.closed = true) :
    c.recv = some (none, c) := by
  simp [recv, hq, hc]

/-- The mark comes from a closed channel with nothing in it. -/
theorem of_recv_none {c c' : Chan α} (h : c.recv = some (none, c')) :
    c' = c ∧ c.queue = [] ∧ c.closed = true := by
  cases hq : c.queue with
  | cons x rest => simp [recv, hq] at h
  | nil =>
      cases hc : c.closed with
      | false => simp [recv, hq, hc] at h
      | true => simpa [recv, hq, hc, eq_comm] using h

theorem of_recv_some {c c' : Chan α} {x : α} (h : c.recv = some (some x, c')) :
    c.queue = x :: c'.queue ∧ c'.closed = c.closed := by
  cases hq : c.queue with
  | nil => cases hc : c.closed <;> simp [recv, hq, hc] at h
  | cons y rest =>
      obtain ⟨rfl, rfl⟩ : y = x ∧ _ = c' := by simpa [recv, hq] using h
      exact ⟨rfl, rfl⟩

/-- Who receives from a closed channel does not wait. -/
theorem exists_recv {c : Chan α} (h : c.closed = true) : ∃ r c', c.recv = some (r, c') := by
  cases hq : c.queue with
  | nil => exact ⟨none, c, recv_closed hq h⟩
  | cons x rest => exact ⟨some x, _, recv_cons hq⟩

end Chan

/-- What was received, then what is in the buffer, is what was sent. -/
def Tracks (c : Chan α) (sent got : List α) : Prop := got ++ c.queue = sent

theorem tracks_empty : Tracks (Chan.empty : Chan α) [] [] := rfl

namespace Tracks

variable {c c' : Chan α} {sent got : List α} {x : α}

theorem offer {cap : Nat} {done : Bool} (h : Tracks c sent got)
    (ho : c.offer cap x = some (done, c')) :
    Tracks c' (if done then sent ++ [x] else sent) got := by
  have hsent : got ++ c.queue = sent := h
  unfold Chan.offer at ho
  split at ho
  · cases ho
  · split at ho
    · obtain ⟨rfl, rfl⟩ := Prod.mk.inj (Option.some.inj ho)
      simp [Tracks, ← hsent]
    · obtain ⟨rfl, rfl⟩ := Prod.mk.inj (Option.some.inj ho)
      exact h

theorem close (h : Tracks c sent got) (hc : c.close = some c') : Tracks c' sent got := by
  unfold Chan.close at hc
  split at hc
  · cases hc
  · rw [← Option.some.inj hc]
    exact h

theorem recv (h : Tracks c sent got) (hr : c.recv = some (some x, c')) :
    Tracks c' sent (got ++ [x]) := by
  have hsent : got ++ c.queue = sent := h
  simp [Tracks, ← hsent, (Chan.of_recv_some hr).1]

/-- **THE CLOSE COMES LAST.**  Who receives the mark has received everything. -/
theorem recv_closed (h : Tracks c sent got) (hr : c.recv = some (none, c')) : got = sent := by
  have hsent : got ++ c.queue = sent := h
  rwa [(Chan.of_recv_none hr).2.1, List.append_nil] at hsent

end Tracks

end Channels
