import JrtController.CStringProofs
import JrtController.EnvExpansionProofs

/-! # The array of a variable's name

    A turn of the loop of `expand_env_vars` copies the name between the braces to the array
    `var_name` of 256 zeros, with `strncpy` and the length of the name as its bound, and
    gives the array to `getenv`.  `EnvExpansionProofs` has this as a name that fits or does
    not; here the array is written and read.

    * `lookedUp_eq` — what `getenv` is asked for, by the length of the name;
    * `goes_iff`, `memory_expands_iff` — the loop with the array is that of
      `EnvExpansionProofs`;
    * `namesKept_iff` — every turn keeps within the array and looks up the name that was
      matched iff no turn meets a name longer than 255 characters. -/

namespace JrtcVarName

open Loops CStrings JrtcEnvExpansion

def nul : Char := Char.ofNat 0

/-- The characters of a C string, without the NUL that ends it. -/
structure CText where
  chars : CStr
  noNul : nul ∉ chars

/-- The environment of a process: its values are C strings. -/
structure Environment where
  getenv : CStr → Option CText

def Environment.environ (env : Environment) : Environ := fun name =>
  (env.getenv name).map CText.chars

/-! ## The function -/

/-- `var_name` after `strncpy(var_name, expanded + match[1].rm_so, var_len)`. -/
def varName (m : Match) : Except Fault CStr :=
  strncpy nul (List.replicate 256 nul) (m.name ++ '}' :: m.post) m.name.length

/-- The name that `getenv(var_name)` looks up. -/
def lookedUp (m : Match) : Except Fault CStr := do
  let varName ← varName m
  readString nul varName

/-- One turn of the loop, with the array. -/
def memoryTurn (env : Environment) (expanded : CStr) : Turn CStr (Except Fault CStr) :=
  match regexec expanded with
  | none => .leave (.ok expanded)
  | some m =>
    match lookedUp m with
    | .error f => .leave (.error f)
    | .ok name => .next (m.pre ++ (value env.environ name ++ m.post))

/-- What is written lies in the array and leaves a NUL in it, and the name that is looked up
    is the text between the braces. -/
def Keeps (m : Match) : Prop :=
  (∃ array, varName m = .ok array ∧ nul ∈ array) ∧ lookedUp m = .ok m.name

/-- Every turn of the loop does so. -/
def NamesKept (env : Environment) (input : CText) : Prop :=
  ∀ s, Relation.ReflTransGen (Goes (memoryTurn env)) input.chars s →
    ∀ m, regexec s = some m → Keeps m

/-! ## The array -/

theorem varName_eq (m : Match) : varName m = if m.name.length ≤ 256
    then .ok (m.name ++ List.replicate (256 - m.name.length) nul) else .error .written := by
  have hlen : m.name.length ≤ (m.name ++ '}' :: m.post).length := by
    rw [List.length_append]
    exact Nat.le_add_right _ _
  rw [varName, strncpy_eq _ _ hlen, List.length_replicate, List.take_left, List.drop_replicate]

/-- **THE NAME THAT IS LOOKED UP**: at 256 characters there is no NUL left in the array. -/
theorem lookedUp_eq {m : Match} (hno : nul ∉ m.name) : lookedUp m
    = if m.name.length ≤ 255 then .ok m.name
      else if m.name.length = 256 then .error .read else .error .written := by
  rw [lookedUp, varName_eq]
  by_cases hshort : m.name.length ≤ 255
  · rw [if_pos hshort, if_pos (by omega)]
    refine readString_eq_ok_iff.mpr ⟨hno, List.replicate (255 - m.name.length) nul, ?_⟩
    rw [← List.replicate_succ]
    congr 2
    omega
  · rw [if_neg hshort]
    by_cases hfull : m.name.length = 256
    · rw [if_pos hfull, if_pos (by omega), hfull]
      show readString nul (m.name ++ List.replicate 0 nul) = _
      rw [List.replicate_zero, List.append_nil, readString, if_neg hno]
    · rw [if_neg hfull, if_neg (by omega)]
      rfl

theorem keeps_iff {m : Match} (hno : nul ∉ m.name) : Keeps m ↔ m.name.length ≤ 255 := by
  rw [Keeps, lookedUp_eq hno]
  constructor
  · rintro ⟨-, h⟩
    by_contra hlong
    rw [if_neg hlong] at h
    split at h
    · cases h
    · cases h
  · intro hshort
    refine ⟨⟨_, by rw [varName_eq, if_pos (by omega)], ?_⟩, if_pos hshort⟩
    refine List.mem_append_right _ (List.mem_replicate.mpr ⟨?_, rfl⟩)
    omega

/-! ## The loop -/

theorem nul_not_mem_value (env : Environment) (name : CStr) : nul ∉ value env.environ name := by
  rw [value, Environment.environ]
  cases env.getenv name with
  | none => exact List.not_mem_nil
  | some text => exact text.noNul

/-- The parts of a C string around a match. -/
theorem nul_not_mem_match {s : CStr} {m : Match} (hm : IsMatch s m) (hs : nul ∉ s) :
    nul ∉ m.pre ∧ nul ∉ m.name ∧ nul ∉ m.post := by
  rw [hm.text, reference_append] at hs
  simp only [List.mem_append, List.mem_cons, not_or] at hs
  exact ⟨hs.1, hs.2.2.2.1, hs.2.2.2.2.2⟩

section

variable {env : Environment} {s s' : CStr}

/-- What a turn with the array does. -/
theorem memoryTurn_cases (env : Environment) (hs : nul ∉ s) :
    regexec s = none ∧ memoryTurn env s = .leave (.ok s)
      ∨ ∃ m, regexec s = some m ∧ IsMatch s m
        ∧ (255 < m.name.length ∧ (∃ f, memoryTurn env s = .leave (.error f))
          ∨ m.name.length ≤ 255
            ∧ memoryTurn env s = .next (m.pre ++ (value env.environ m.name ++ m.post))) := by
  rw [memoryTurn]
  rcases regexec_cases s with ⟨hnone, -⟩ | ⟨m, hsome, hm⟩
  · rw [hnone]
    exact Or.inl ⟨rfl, rfl⟩
  · have hno := (nul_not_mem_match hm hs).2.1
    rw [hsome]
    refine Or.inr ⟨m, rfl, hm, ?_⟩
    simp only [lookedUp_eq hno]
    by_cases hshort : m.name.length ≤ 255
    · rw [if_pos hshort]
      exact Or.inr ⟨hshort, rfl⟩
    · rw [if_neg hshort]
      refine Or.inl ⟨not_le.mp hshort, ?_⟩
      by_cases hfull : m.name.length = 256
      · rw [if_pos hfull]
        exact ⟨.read, rfl⟩
      · rw [if_neg hfull]
        exact ⟨.written, rfl⟩

theorem nul_not_mem_next (hs : nul ∉ s) (h : memoryTurn env s = .next s') : nul ∉ s' := by
  rcases memoryTurn_cases env hs with ⟨-, heq⟩ | ⟨m, -, hm, ⟨-, f, heq⟩ | ⟨-, heq⟩⟩
  · cases heq.symm.trans h
  · cases heq.symm.trans h
  · cases heq.symm.trans h
    obtain ⟨hpre, -, hpost⟩ := nul_not_mem_match hm hs
    simp only [List.mem_append, not_or]
    exact ⟨hpre, nul_not_mem_value env m.name, hpost⟩

/-- **THE TURNS AGREE** with those that only look at the length of the name. -/
theorem goes_iff (hs : nul ∉ s) :
    memoryTurn env s = .next s' ↔ turn env.environ s = .next s' := by
  rcases turn_cases env.environ s with ⟨hnone, -, heq⟩ | ⟨m, hsome, -, hturn⟩
  · rcases memoryTurn_cases env hs with ⟨-, heq'⟩ | ⟨m, hsome, -⟩
    · rw [heq, heq']
      exact iff_of_false (fun h => by cases h) fun h => by cases h
    · cases hnone.symm.trans hsome
  · rcases memoryTurn_cases env hs with ⟨hnone, -⟩ | ⟨m', hsome', -, hturn'⟩
    · cases hnone.symm.trans hsome
    · cases hsome.symm.trans hsome'
      rcases hturn with ⟨hlong, heq⟩ | ⟨hshort, heq⟩
      · rcases hturn' with ⟨-, f, heq'⟩ | ⟨hshort, -⟩
        · rw [heq, heq']
          exact iff_of_false (fun h => by cases h) fun h => by cases h
        · exact absurd hshort (not_le.mpr hlong)
      · rcases hturn' with ⟨hlong, -⟩ | ⟨-, heq'⟩
        · exact absurd hshort (not_le.mpr hlong)
        · rw [heq, heq', Turn.next.injEq, Turn.next.injEq]

theorem returns_iff (hs : nul ∉ s) (out : CStr) :
    memoryTurn env s = .leave (.ok out) ↔ turn env.environ s = .leave (.done out) := by
  rcases turn_cases env.environ s with ⟨hnone, -, heq⟩ | ⟨m, hsome, -, hturn⟩
  · rcases memoryTurn_cases env hs with ⟨-, heq'⟩ | ⟨m, hsome, -⟩
    · rw [heq, heq', Turn.leave.injEq, Turn.leave.injEq, Except.ok.injEq, Expansion.done.injEq]
    · cases hnone.symm.trans hsome
  · -- with a match neither turn returns a string
    rcases memoryTurn_cases env hs with ⟨hnone, -⟩ | ⟨m', -, -, hturn'⟩
    · cases hnone.symm.trans hsome
    · refine iff_of_false ?_ ?_
      · intro h
        rcases hturn' with ⟨-, f, heq'⟩ | ⟨-, heq'⟩
        · cases heq'.symm.trans h
        · cases heq'.symm.trans h
      · intro h
        rcases hturn with ⟨-, heq⟩ | ⟨-, heq⟩
        · cases heq.symm.trans h
        · cases heq.symm.trans h

end

/-- **THE ARRAY REFINES THE LENGTH CHECK**: the loop with the array returns what the loop of
    `EnvExpansionProofs` returns. -/
theorem memory_expands_iff (env : Environment) (input : CText) (out : CStr) :
    Leaves (memoryTurn env) input.chars (.ok out)
      ↔ Leaves (turn env.environ) input.chars (.done out) :=
  leaves_iff_of_agree (P := fun s => nul ∉ s) (fun _ _ hs h => nul_not_mem_next hs h)
    (fun _ _ hs => goes_iff hs) (fun _ hs => returns_iff hs out) input.noNul

/-- **EVERY NAME IS KEPT** iff the names that the loop meets have at most 255 characters. -/
theorem namesKept_iff (env : Environment) (input : CText) :
    NamesKept env input ↔ NamesFit env.environ input.chars := by
  have hno : ∀ s s', nul ∉ s → memoryTurn env s = .next s' → nul ∉ s' :=
    fun _ _ hs h => nul_not_mem_next hs h
  have hway : ∀ s, Relation.ReflTransGen (Goes (memoryTurn env)) input.chars s
      ↔ Relation.ReflTransGen (Goes (turn env.environ)) input.chars s :=
    fun s => reaches_iff_of_agree hno (fun _ _ hs => goes_iff hs) input.noNul
  have hkeeps : ∀ s, Relation.ReflTransGen (Goes (memoryTurn env)) input.chars s →
      ∀ m, regexec s = some m → (Keeps m ↔ m.name.length ≤ 255) := by
    intro s hreach m hm
    have hs : nul ∉ s := reaches_invariant hno hreach input.noNul
    rcases regexec_cases s with ⟨hnone, -⟩ | ⟨m', hm', hmatch⟩
    · cases hnone.symm.trans hm
    · cases hm.symm.trans hm'
      exact keeps_iff (nul_not_mem_match hmatch hs).2.1
  constructor
  · intro h s hreach m hm
    exact (hkeeps s ((hway s).mpr hreach) m hm).mp (h s ((hway s).mpr hreach) m hm)
  · intro h s hreach m hm
    exact (hkeeps s hreach m hm).mpr (h s ((hway s).mp hreach) m hm)

/-- What a string that is one reference matches. -/
theorem regexec_reference {name : CStr} (hne : name ≠ []) (hno : '}' ∉ name) :
    regexec (reference name) = some ⟨[], name, []⟩ := by
  have hm : matchHere (reference name) = some (name, []) :=
    matchHere_eq_some_iff.mpr ⟨hne, hno, (List.append_nil _).symm⟩
  have hcons : reference name = '$' :: '{' :: (name ++ ['}']) := rfl
  rw [hcons] at hm ⊢
  rw [regexec, hm]

/-- A name of 256 characters fills the array: no NUL is left for `getenv`. -/
theorem full_name_not_kept :
    ¬ ∀ (env : Environment) (input : CText), NamesKept env input := by
  intro h
  have hname : ∀ c : Char, c ≠ 'A' → c ∉ List.replicate 256 'A' := by
    intro c hc hmem
    exact hc (List.eq_of_mem_replicate hmem)
  have hno : nul ∉ reference (List.replicate 256 'A') := by
    simp only [reference, List.mem_append, List.mem_cons, not_or]
    exact ⟨by decide, by decide, hname nul (by decide), by decide, List.not_mem_nil⟩
  have hmatch : regexec (reference (List.replicate 256 'A')) = _ :=
    regexec_reference (List.replicate_succ ▸ List.cons_ne_nil _ _) (hname '}' (by decide))
  have hkept : Keeps _ := h ⟨fun _ => none⟩ ⟨_, hno⟩ _ .refl _ hmatch
  have hshort := (keeps_iff (hname nul (by decide))).mp hkept
  rw [List.length_replicate] at hshort
  omega

end JrtcVarName
