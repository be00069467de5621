import Mathlib.Tactic

/-! # Shell variables in a text

    Go's `os.Expand` replaces `$name` and `${name}` in a text by the values of variables.  A
    dollar sign before anything that is not a name stays, and bad syntax is dropped.  A value
    is not looked at again.

    * `scan` — a text as the pieces the function finds in it;
    * `expand_eq_self_of_literal` — a text without references stays;
    * `scan_expand` — what is found in a text that has been expanded, with values that are
      empty or bad syntax themselves;
    * `expand_expand_iff`, `expand_eq_self_iff` — which texts are the same expanded twice as
      once, and expanded once as not at all, whatever the values are. -/

namespace ShellExpand

/-! ## The function -/

def isShellSpecialVar (c : Char) : Bool := c ∈ ['*', '#', '$', '@', '!', '?', '-'] || c.isDigit

def isAlphaNum (c : Char) : Bool := c = '_' || c.isAlphanum

/-- `getShellName`: the name at the start of a text, and how many characters it takes.  With
    no name, these are bad syntax to drop. -/
def getShellName : List Char → List Char × Nat
  | [] => ([], 0)
  | c :: s =>
    if c = '{' then
      let name := s.takeWhile (· ≠ '}')
      if name.length < s.length then
        if name = [] then ([], 2) else (name, name.length + 2)
      else ([], 1)
    else if isShellSpecialVar c then ([c], 1)
    else
      let name := (c :: s).takeWhile isAlphaNum
      (name, name.length)

/-- A piece of a text: a character that stays, a reference, or bad syntax. -/
inductive Piece where
  | lit (c : Char)
  | var (name : List Char)
  | bad
  deriving DecidableEq, Repr

/-- What a dollar sign before a text is. -/
def dollar (s : List Char) : Piece :=
  if (getShellName s).1 ≠ [] then .var (getShellName s).1
  else if 0 < (getShellName s).2 then .bad
  else .lit '$'

/-- The pieces of a text, after the first `w` characters. -/
def scan : Nat → List Char → List Piece
  | _, [] => []
  | w + 1, _ :: s => scan w s
  | 0, c :: s =>
    if c = '$' ∧ s ≠ [] then dollar s :: scan (getShellName s).2 s
    else .lit c :: scan 0 s

/-- What a piece is replaced by. -/
def Piece.text (mapping : List Char → List Char) : Piece → List Char
  | .lit c => [c]
  | .var name => mapping name
  | .bad => []

/-- `os.Expand`. -/
def expand (mapping : List Char → List Char) (s : List Char) : List Char :=
  (scan 0 s).flatMap (Piece.text mapping)

/-! ## One step -/

/-- A character that cannot follow the dollar sign of a reference. -/
def Plain (c : Char) : Prop :=
  c ≠ '{' ∧ isShellSpecialVar c = false ∧ isAlphaNum c = false

theorem Plain.ne_dollar {c : Char} (h : Plain c) : c ≠ '$' := by
  rintro rfl
  exact Bool.noConfusion h.2.1

theorem getShellName_of_plain {c : Char} (h : Plain c) (s : List Char) :
    getShellName (c :: s) = ([], 0) := by
  have hname : (c :: s).takeWhile isAlphaNum = [] :=
    List.takeWhile_cons_of_neg (by rw [h.2.2]; exact Bool.false_ne_true)
  rw [getShellName, if_neg h.1, h.2.1, if_neg Bool.false_ne_true, hname]
  rfl

/-- **WHAT A DOLLAR SIGN CAN BE**: one that stays is before a character that stays. -/
theorem dollar_cases {s : List Char} (hs : s ≠ []) :
    (∃ name, dollar s = .var name) ∨ dollar s = .bad
      ∨ ∃ c s', s = c :: s' ∧ Plain c ∧ dollar s = .lit '$' ∧ (getShellName s).2 = 0 := by
  obtain ⟨c, s', rfl⟩ := List.exists_cons_of_ne_nil hs
  rw [dollar]
  by_cases hname : (getShellName (c :: s')).1 ≠ []
  · rw [if_pos hname]
    exact Or.inl ⟨_, rfl⟩
  · rw [if_neg hname]
    by_cases hw : 0 < (getShellName (c :: s')).2
    · rw [if_pos hw]
      exact Or.inr (Or.inl rfl)
    · rw [if_neg hw]
      refine Or.inr (Or.inr ⟨c, s', rfl, ?_, rfl, by omega⟩)
      rw [getShellName] at hname hw
      by_cases hbrace : c = '{'
      · rw [if_pos hbrace] at hw
        dsimp only at hw
        split at hw
        · split at hw
          · exact absurd (Nat.succ_pos 1) hw
          · exact absurd (Nat.succ_pos _) hw
        · exact absurd (Nat.succ_pos 0) hw
      · rw [if_neg hbrace] at hname
        by_cases hspecial : isShellSpecialVar c = true
        · rw [if_pos hspecial] at hname
          exact absurd (List.cons_ne_nil c []) hname
        · rw [if_neg hspecial] at hname
          refine ⟨hbrace, Bool.not_eq_true _ ▸ hspecial, ?_⟩
          by_contra halpha
          rw [Bool.not_eq_false] at halpha
          rw [List.takeWhile_cons_of_pos halpha] at hname
          exact hname (List.cons_ne_nil _ _)

theorem scan_of_ne {c : Char} (h : c ≠ '$') (s : List Char) :
    scan 0 (c :: s) = .lit c :: scan 0 s := by
  rw [scan, if_neg fun hc => h hc.1]

theorem scan_plain {c : Char} (h : Plain c) (s : List Char) :
    scan 0 ('$' :: c :: s) = .lit '$' :: .lit c :: scan 0 s := by
  have hdollar : dollar (c :: s) = .lit '$' := by
    rw [dollar, getShellName_of_plain h]
    rfl
  rw [scan, if_pos ⟨rfl, List.cons_ne_nil _ _⟩, hdollar, getShellName_of_plain h,
    scan_of_ne h.ne_dollar]

/-- The text of bad syntax. -/
def badText : List Char := ['$', '{', '}']

theorem badText_ne_nil : badText ≠ [] := List.cons_ne_nil _ _

theorem scan_badText (s : List Char) : scan 0 (badText ++ s) = .bad :: scan 0 s := rfl

/-- Only the values of the variables in a text matter. -/
theorem expand_congr {mapping mapping' : List Char → List Char} {s : List Char}
    (h : ∀ name, .var name ∈ scan 0 s → mapping name = mapping' name) :
    expand mapping s = expand mapping' s := by
  refine congrArg List.flatten (List.map_congr_left fun p hp => ?_)
  cases p with
  | lit c => rfl
  | var name => exact h name hp
  | bad => rfl

/-! ## Texts that stay -/

/-- A text without references and bad syntax stays. -/
theorem expand_eq_self_of_literal {s : List Char} (h : ∀ p ∈ scan 0 s, ∃ c, p = .lit c)
    (mapping : List Char → List Char) : expand mapping s = s := by
  induction s with
  | nil => rfl
  | cons c s ih =>
      have hscan : scan 0 (c :: s) = .lit c :: scan 0 s := by
        by_cases hc : c = '$' ∧ s ≠ []
        · rcases dollar_cases hc.2 with ⟨name, hvar⟩ | hbad | ⟨d, s', -, -, hlit, hw⟩
          · rw [scan, if_pos hc, hvar] at h
            obtain ⟨c', heq⟩ := h _ List.mem_cons_self
            cases heq
          · rw [scan, if_pos hc, hbad] at h
            obtain ⟨c', heq⟩ := h _ List.mem_cons_self
            cases heq
          · rw [scan, if_pos hc, hlit, hw, hc.1]
        · rw [scan, if_neg hc]
      rw [hscan, List.forall_mem_cons] at h
      rw [expand, hscan, List.flatMap_cons]
      exact congrArg (c :: ·) (ih h.2)

theorem length_scan_le (w : Nat) (s : List Char) : (scan w s).length ≤ s.length := by
  induction s generalizing w with
  | nil => simp [scan]
  | cons c s ih =>
      cases w with
      | succ w => exact (ih w).trans (Nat.le_succ _)
      | zero =>
          rw [scan]
          split
          · exact Nat.succ_le_succ (ih _)
          · exact Nat.succ_le_succ (ih 0)

/-- A text in which a reference has no value gets shorter. -/
theorem length_expand_lt {s : List Char} {p : Piece} (hp : p ∈ scan 0 s)
    (hlit : ∀ c, p ≠ .lit c) : (expand (fun _ => []) s).length < s.length := by
  have hone : ∀ q : Piece, (q.text fun _ => []).length ≤ 1 := by
    intro q
    cases q with
    | lit c => exact le_rfl
    | var name => exact Nat.zero_le 1
    | bad => exact Nat.zero_le 1
  have hall : ∀ l : List Piece, (l.flatMap (Piece.text fun _ => [])).length ≤ l.length := by
    intro l
    induction l with
    | nil => exact le_rfl
    | cons q l ih =>
        rw [List.flatMap_cons, List.length_append, List.length_cons]
        have := hone q
        omega
  obtain ⟨before, after, hscan⟩ := List.append_of_mem hp
  have hnone : p.text (fun _ => []) = [] := by
    cases p with
    | lit c => exact absurd rfl (hlit c)
    | var name => rfl
    | bad => rfl
  refine lt_of_lt_of_le ?_ (length_scan_le 0 s)
  rw [expand, hscan, List.flatMap_append, List.flatMap_cons, hnone, List.nil_append,
    List.length_append, List.length_append, List.length_cons]
  have hbefore := hall before
  have hafter := hall after
  omega

/-! ## Texts that have been expanded -/

/-- What a piece leaves to be found where references have no value or bad syntax for one. -/
def Piece.again (mapping : List Char → List Char) : Piece → List Piece
  | .lit c => [.lit c]
  | .var name => if mapping name = [] then [] else [.bad]
  | .bad => []

/-- These are no references. -/
theorem var_not_mem_again (mapping : List Char → List Char) (l : List Piece)
    (name : List Char) : .var name ∉ l.flatMap (Piece.again mapping) := by
  intro h
  obtain ⟨q, -, hq⟩ := List.mem_flatMap.mp h
  cases q with
  | lit c => cases List.mem_singleton.mp hq
  | var n =>
      rw [Piece.again] at hq
      split at hq
      · exact List.not_mem_nil hq
      · cases List.mem_singleton.mp hq
  | bad => exact List.not_mem_nil hq

/-- **EXPANDED ONCE**: the characters that stay are found again, and the bad syntax that
    values brought. -/
theorem scan_expand {mapping : List Char → List Char}
    (h : ∀ name, mapping name = [] ∨ mapping name = badText) (s : List Char) :
    scan 0 (expand mapping s) = (scan 0 s).flatMap (Piece.again mapping) := by
  have hgen : ∀ w, scan 0 ((scan w s).flatMap (Piece.text mapping))
      = (scan w s).flatMap (Piece.again mapping) := by
    induction s with
    | nil =>
        intro w
        rw [scan]
        rfl
    | cons c s ih =>
        intro w
        cases w with
        | succ w => exact ih w
        | zero =>
            by_cases hc : c = '$' ∧ s ≠ []
            · rcases dollar_cases hc.2 with ⟨name, hvar⟩ | hbad | ⟨d, s', rfl, hd, hlit, hw⟩
              · rw [scan, if_pos hc, hvar, List.flatMap_cons, List.flatMap_cons, Piece.text,
                  Piece.again]
                rcases h name with hname | hname
                · rw [hname, if_pos rfl]
                  exact ih _
                · rw [hname, if_neg badText_ne_nil, scan_badText]
                  exact congrArg (Piece.bad :: ·) (ih _)
              · rw [scan, if_pos hc, hbad]
                exact ih _
              · -- the character after the dollar sign is still there
                have hih := ih 0
                rw [scan_of_ne hd.ne_dollar, List.flatMap_cons, List.flatMap_cons] at hih
                have hrest := (List.cons.inj ((scan_of_ne hd.ne_dollar _).symm.trans hih)).2
                rw [hc.1, scan_plain hd]
                show scan 0 ('$' :: d :: _) = .lit '$' :: .lit d :: _
                rw [scan_plain hd]
                exact congrArg (fun l => Piece.lit '$' :: Piece.lit d :: l) hrest
            · rw [scan, if_neg hc]
              show scan 0 (c :: _) = .lit c :: _
              by_cases hs : s = []
              · rw [hs]
                show scan 0 [c] = [.lit c]
                rw [scan, if_neg fun hc => hc.2 rfl]
                rfl
              · rw [scan_of_ne fun heq => hc ⟨heq, hs⟩]
                exact congrArg (Piece.lit c :: ·) (ih 0)
  exact hgen 0

/-! ## Whatever the values are -/

/-- Values of which one is bad syntax, and the others are empty. -/
def oneBad (name : List Char) : List Char → List Char := fun n =>
  if n = name then badText else []

theorem oneBad_cases (name n : List Char) : oneBad name n = [] ∨ oneBad name n = badText := by
  rw [oneBad]
  by_cases hn : n = name
  · rw [if_pos hn]
    exact Or.inr rfl
  · rw [if_neg hn]
    exact Or.inl rfl

section Values

variable {Mapping : (List Char → List Char) → Prop}

/-- **NOT EXPANDED OR ONCE**: a text stays for all values iff nothing is replaced in it.
    Nothing need be known of the values but that all may be missing. -/
theorem expand_eq_self_iff (hnone : Mapping fun _ => []) (s : List Char) :
    (∀ mapping, Mapping mapping → expand mapping s = s)
      ↔ ∀ p ∈ scan 0 s, ∃ c, p = .lit c := by
  constructor
  · intro h p hp
    by_contra hlit
    have hlt := length_expand_lt hp fun c heq => hlit ⟨c, heq⟩
    rw [h _ hnone] at hlt
    exact lt_irrefl _ hlt
  · intro h mapping _
    exact expand_eq_self_of_literal h mapping

variable {Named : List Char → Prop}

/-- **ONCE OR TWICE**: a second expansion changes nothing for all values iff the text refers to
    no variable that may have one.  Bad syntax as the value of a single variable decides. -/
theorem expand_expand_iff
    (hnamed : ∀ mapping, Mapping mapping → ∀ name, ¬ Named name → mapping name = [])
    (hone : ∀ name, Named name → Mapping (oneBad name))
    (s : List Char) :
    (∀ mapping, Mapping mapping → expand mapping (expand mapping s) = expand mapping s)
      ↔ ∀ name, .var name ∈ scan 0 s → ¬ Named name := by
  constructor
  · intro h name hvar hname
    have hscan := scan_expand (oneBad_cases name) s
    have hbad : Piece.bad ∈ scan 0 (expand (oneBad name) s) := by
      rw [hscan]
      refine List.mem_flatMap.mpr ⟨.var name, hvar, ?_⟩
      rw [Piece.again, oneBad, if_pos rfl, if_neg badText_ne_nil]
      exact List.mem_singleton_self _
    -- no reference is left, so the second expansion only drops what is bad
    have hdrops : expand (oneBad name) (expand (oneBad name) s)
        = expand (fun _ => []) (expand (oneBad name) s) :=
      expand_congr fun n hn => absurd hn (hscan ▸ var_not_mem_again _ _ n)
    have hlt := length_expand_lt hbad fun c => Piece.noConfusion
    rw [← hdrops, h _ (hone name hname)] at hlt
    exact lt_irrefl _ hlt
  · intro h mapping hmapping
    have hempty : expand mapping s = expand (fun _ => []) s :=
      expand_congr fun name hvar => hnamed mapping hmapping name (h name hvar)
    rw [hempty]
    refine expand_eq_self_of_literal (fun p hp => ?_) mapping
    rw [scan_expand (fun _ => Or.inl rfl)] at hp
    obtain ⟨q, -, hq⟩ := List.mem_flatMap.mp hp
    cases q with
    | lit c => exact ⟨c, List.mem_singleton.mp hq⟩
    | var name =>
        rw [Piece.again, if_pos rfl] at hq
        exact absurd hq List.not_mem_nil
    | bad => exact absurd hq List.not_mem_nil

end Values

end ShellExpand
