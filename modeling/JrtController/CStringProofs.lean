import JrtController.LoopProofs

/-! # Strings in arrays

    What `strncpy` writes to an array, and the string that a function finds which is given a
    pointer to an array: the characters up to the first NUL.

    * `strncpy_eq` — copying a part of a string that is `n` characters long writes to exactly
      the first `n` elements;
    * `readString_eq_ok_iff` — a string is found iff a NUL ends it in the array. -/

namespace CStrings

open Loops

/-- An array was written or read outside its elements. -/
inductive Fault where
  | written
  | read
  deriving DecidableEq, Repr

variable {α : Type}

def write (a : List α) (i : Nat) (c : α) : Except Fault (List α) :=
  if i < a.length then .ok (a.set i c) else .error .written

/-- The loop of `strncpy`.  Behind the last character of the source it writes NULs. -/
def strncpyFrom (nul : α) : Nat → Nat → List α → List α → Except Fault (List α)
  | 0, _, dst, _ => .ok dst
  | n + 1, i, dst, src => do
    let dst ← write dst i (src.headD nul)
    strncpyFrom nul n (i + 1) dst src.tail

/-- `strncpy(dst, src, n)`. -/
def strncpy (nul : α) (dst src : List α) (n : Nat) : Except Fault (List α) :=
  strncpyFrom nul n 0 dst src

/-- The string at the start of an array. -/
def readString [DecidableEq α] (nul : α) (a : List α) : Except Fault (List α) :=
  if nul ∈ a then .ok (a.takeWhile (· ≠ nul)) else .error .read

/-- The loop after the characters `es` were written. -/
theorem strncpyFrom_eq {nul : α} {dst es src : List α} {n : Nat} (hes : es.length ≤ dst.length)
    (hn : n ≤ src.length) :
    strncpyFrom nul n es.length (es ++ dst.drop es.length) src
      = if es.length + n ≤ dst.length
        then .ok (es ++ src.take n ++ dst.drop (es.length + n)) else .error .written := by
  induction n generalizing es src with
  | zero =>
      rw [strncpyFrom, Nat.add_zero, if_pos hes, List.take_zero, List.append_nil]
  | succ n ih =>
      cases src with
      | nil => cases hn
      | cons c src =>
          have hlen : (es ++ dst.drop es.length).length = dst.length := by
            rw [List.length_append, List.length_drop]
            omega
          rw [strncpyFrom, write, hlen]
          by_cases hroom : es.length < dst.length
          · have hsucc : (es ++ [c]).length = es.length + 1 := List.length_append
            have hstep := @ih (es ++ [c]) src (by omega) (Nat.le_of_succ_le_succ hn)
            rw [if_pos hroom, List.headD_cons, set_behind hroom]
            show strncpyFrom nul n (es.length + 1) _ src = _
            rw [← hsucc, hstep, hsucc, List.append_assoc es, List.singleton_append,
              Nat.add_assoc, Nat.add_comm 1 n]
            rfl
          · rw [if_neg hroom, if_neg (by omega)]
            rfl

/-- **`strncpy`** of a string that is long enough writes `n` elements. -/
theorem strncpy_eq (nul : α) (dst : List α) {src : List α} {n : Nat} (hn : n ≤ src.length) :
    strncpy nul dst src n
      = if n ≤ dst.length then .ok (src.take n ++ dst.drop n) else .error .written := by
  have hloop := @strncpyFrom_eq α nul dst [] src n (Nat.zero_le _) hn
  rw [List.length_nil, Nat.zero_add, List.nil_append, List.nil_append, List.drop_zero] at hloop
  exact hloop

/-- The characters up to the first NUL. -/
theorem takeWhile_append_nul [DecidableEq α] {nul : α} {out : List α} (hno : nul ∉ out)
    (rest : List α) : (out ++ nul :: rest).takeWhile (· ≠ nul) = out := by
  have hout : ∀ c ∈ out, decide (c ≠ nul) = true := by
    intro c hc
    refine decide_eq_true ?_
    rintro rfl
    exact hno hc
  rw [List.takeWhile_append_of_pos hout, List.takeWhile_cons_of_neg (by simp), List.append_nil]

theorem readString_eq_ok_iff [DecidableEq α] {nul : α} {a out : List α} :
    readString nul a = .ok out ↔ nul ∉ out ∧ ∃ rest, a = out ++ nul :: rest := by
  rw [readString]
  constructor
  · intro h
    by_cases hmem : nul ∈ a
    · obtain ⟨pre, rest, rfl, hno⟩ := List.eq_append_cons_of_mem hmem
      rw [if_pos hmem, takeWhile_append_nul hno] at h
      cases h
      exact ⟨hno, rest, rfl⟩
    · rw [if_neg hmem] at h
      cases h
  · rintro ⟨hno, rest, rfl⟩
    rw [if_pos (List.mem_append_right _ List.mem_cons_self), takeWhile_append_nul hno]

end CStrings
