import JrtController.StreamIdProofs

/-! # The sixteen masked look-ups and the dispatch predicate

    The router finds the subscribers of a message by sixteen exact look-ups,
    one per choice of which of the four fields (forward destination, device id,
    path, name) are replaced by their all-ones wildcard.  Applications dispatch
    what they receive with `jrtc_router_stream_id_matches_req`, a bitwise subset
    test over four machine words.

    * `mem_lookupIds_iff` — the hand-written mask table enumerates exactly the
      wildcard combinations: a request is looked up iff it has the message's
      version and each other field equal or all ones (`Matches`);
    * `matchesReq_iff` — the word loop is containment of every field;
    * `matchesReq_agrees_iff` — the two decisions agree at a pair of ids iff no
      field is nested without being a wildcard, or some field is not nested. -/

namespace JrtcRouterLookup

open PackedBits JrtcStreamId

/-- `struct jrtc_router_stream_id_int`, the unpacked form of an id. -/
structure StreamIdInt where
  ver        : BitVec 6
  fwdDst     : BitVec 7
  deviceId   : BitVec 7
  streamPath : BitVec 54
  streamName : BitVec 54
  deriving DecidableEq, Repr

/-- `JRTC_ROUTER_DEST_ANY`. -/
def destAny : BitVec 7 := 0x7F

/-- `JRTC_ROUTER_DEVICE_ID_ANY`. -/
def deviceIdAny : BitVec 7 := 0x7F

/-- `JRTC_ROUTER_STREAM_PATH_ANY`. -/
def streamPathAny : BitVec 54 := 0x3FFFFFFFFFFFFF

/-- `JRTC_ROUTER_STREAM_NAME_ANY`. -/
def streamNameAny : BitVec 54 := 0x3FFFFFFFFFFFFF

/-- `lookup_mask`, in the order of the source. -/
def lookupMask : List StreamIdInt :=
  [⟨0, 0, 0, 0, 0⟩,
   ⟨0, 0, 0, 0, streamNameAny⟩,
   ⟨0, 0, 0, streamPathAny, 0⟩,
   ⟨0, 0, deviceIdAny, 0, 0⟩,
   ⟨0, destAny, 0, 0, 0⟩,
   ⟨0, 0, 0, streamPathAny, streamNameAny⟩,
   ⟨0, 0, deviceIdAny, 0, streamNameAny⟩,
   ⟨0, destAny, 0, 0, streamNameAny⟩,
   ⟨0, 0, deviceIdAny, streamPathAny, 0⟩,
   ⟨0, destAny, 0, streamPathAny, 0⟩,
   ⟨0, destAny, deviceIdAny, 0, 0⟩,
   ⟨0, 0, deviceIdAny, streamPathAny, streamNameAny⟩,
   ⟨0, destAny, 0, streamPathAny, streamNameAny⟩,
   ⟨0, destAny, deviceIdAny, 0, streamNameAny⟩,
   ⟨0, destAny, deviceIdAny, streamPathAny, 0⟩,
   ⟨0, destAny, deviceIdAny, streamPathAny, streamNameAny⟩]

/-- One look-up id: the message id with the four masks of one table row OR-ed
    in.  The bit-fields are promoted before the macros use them. -/
def lookupId (sid : StreamId) (mask : StreamIdInt) : StreamId :=
  let id := applyFwdDstMask sid (mask.fwdDst.setWidth 32)
  let id := applyDeviceIdMask id (mask.deviceId.setWidth 32)
  let id := applyStreamPathMask id (mask.streamPath.setWidth 64)
  applyStreamNameMask id (mask.streamName.setWidth 64)

/-- The look-up ids of a message, in look-up order. -/
def lookupIds (sid : StreamId) : List StreamId := lookupMask.map (lookupId sid)

/-- What a subscription means: the request has the message's version, and each
    other field is the message's or a wildcard. -/
def Matches (req sid : StreamId) : Prop :=
  field .ver req = field .ver sid ∧
    ∀ f, f ≠ .ver → field f req = field f sid ∨ field f req = BitVec.allOnes _

-- ── Fields of a look-up id ────────────────────────────────────────────────────

/-- Two ids with the same five fields are the same bytes. -/
theorem ext_field {a b : StreamId} (h : ∀ f, field f a = field f b) : a = b := by
  have hbits : ∀ f : Field, ∀ k, f.lo ≤ k → k < f.lo + f.width →
      bitAt a k = bitAt b k := fun f =>
    (slice_eq_iff a b f.lo f.width).mp (h f)
  apply ext_bitAt
  intro k hk
  by_cases h1 : k < 6
  · exact hbits .ver k (Nat.zero_le _) h1
  by_cases h2 : k < 13
  · exact hbits .fwdDst k (Nat.le_of_not_lt h1) h2
  by_cases h3 : k < 20
  · exact hbits .deviceId k (Nat.le_of_not_lt h2) h3
  by_cases h4 : k < 74
  · exact hbits .streamPath k (Nat.le_of_not_lt h3) h4
  · exact hbits .streamName k (Nat.le_of_not_lt h4) hk

/-- The mask a table row applies to a field. -/
def StreamIdInt.mask (m : StreamIdInt) : (f : Field) → BitVec f.width
  | .ver => 0
  | .fwdDst => m.fwdDst
  | .deviceId => m.deviceId
  | .streamPath => m.streamPath
  | .streamName => m.streamName

/-- OR-ing a zero-extended mask into a field. -/
theorem field_of_or_updates {f : Field} {w : Nat} {id id' : StreamId}
    {m : BitVec f.width} (hw : f.width ≤ w)
    (h : Updates or f.lo f.width 0 id id' (m.setWidth w)) :
    field f id' = field f id ||| m := by
  apply BitVec.eq_of_getLsbD_eq
  intro i hi
  rw [field, h.slice_getLsbD f.lo_add_width_le hi, BitVec.getLsbD_or,
    BitVec.getLsbD_setWidth, decide_eq_true (Nat.lt_of_lt_of_le hi hw),
    Bool.true_and]
  rfl

/-- A field other than the masked one is unchanged. -/
theorem field_of_updates_ne {f g : Field} {w : Nat} {id id' : StreamId}
    {m : BitVec w} (hg : g ≠ f)
    (h : Updates or f.lo f.width 0 id id' m) : field g id' = field g id :=
  h.slice_disjoint g.lo_add_width_le (f.disjoint g hg)

/-- **EVERY FIELD OF A LOOK-UP ID** is the message's field OR-ed with the row's
    mask for it. -/
theorem field_lookupId (sid : StreamId) (m : StreamIdInt) (f : Field) :
    field f (lookupId sid m) = field f sid ||| m.mask f := by
  have h1 := applyFwdDstMask_updates sid (m.fwdDst.setWidth 32)
  have h2 := applyDeviceIdMask_updates
    (applyFwdDstMask sid (m.fwdDst.setWidth 32)) (m.deviceId.setWidth 32)
  have h3 := applyStreamPathMask_updates
    (applyDeviceIdMask (applyFwdDstMask sid (m.fwdDst.setWidth 32))
      (m.deviceId.setWidth 32)) (m.streamPath.setWidth 64)
  have h4 := applyStreamNameMask_updates
    (applyStreamPathMask (applyDeviceIdMask
      (applyFwdDstMask sid (m.fwdDst.setWidth 32)) (m.deviceId.setWidth 32))
      (m.streamPath.setWidth 64)) (m.streamName.setWidth 64)
  cases f with
  | ver =>
      refine (field_of_updates_ne (f := .streamName) (by decide) h4).trans ?_
      refine (field_of_updates_ne (f := .streamPath) (by decide) h3).trans ?_
      refine (field_of_updates_ne (f := .deviceId) (by decide) h2).trans ?_
      refine (field_of_updates_ne (f := .fwdDst) (by decide) h1).trans ?_
      exact (BitVec.or_zero).symm
  | fwdDst =>
      refine (field_of_updates_ne (f := .streamName) (by decide) h4).trans ?_
      refine (field_of_updates_ne (f := .streamPath) (by decide) h3).trans ?_
      refine (field_of_updates_ne (f := .deviceId) (by decide) h2).trans ?_
      exact field_of_or_updates (f := .fwdDst) (by decide) h1
  | deviceId =>
      refine (field_of_updates_ne (f := .streamName) (by decide) h4).trans ?_
      refine (field_of_updates_ne (f := .streamPath) (by decide) h3).trans ?_
      refine (field_of_or_updates (f := .deviceId) (by decide) h2).trans ?_
      exact congrArg (· ||| m.deviceId)
        (field_of_updates_ne (f := .fwdDst) (g := .deviceId) (by decide) h1)
  | streamPath =>
      refine (field_of_updates_ne (f := .streamName) (by decide) h4).trans ?_
      refine (field_of_or_updates (f := .streamPath) (by decide) h3).trans ?_
      refine congrArg (· ||| m.streamPath) ?_
      refine (field_of_updates_ne (f := .deviceId) (g := .streamPath)
        (by decide) h2).trans ?_
      exact field_of_updates_ne (f := .fwdDst) (by decide) h1
  | streamName =>
      refine (field_of_or_updates (f := .streamName) (by decide) h4).trans ?_
      refine congrArg (· ||| m.streamName) ?_
      refine (field_of_updates_ne (f := .streamPath) (g := .streamName)
        (by decide) h3).trans ?_
      refine (field_of_updates_ne (f := .deviceId) (by decide) h2).trans ?_
      exact field_of_updates_ne (f := .fwdDst) (by decide) h1

-- ── The mask table enumerates the wildcard combinations ───────────────────────

/-- The row that wildcards exactly the chosen fields. -/
def wildcardRow (dst dev path name : Bool) : StreamIdInt where
  ver        := 0
  fwdDst     := if dst then destAny else 0
  deviceId   := if dev then deviceIdAny else 0
  streamPath := if path then streamPathAny else 0
  streamName := if name then streamNameAny else 0

theorem wildcardRow_mem (dst dev path name : Bool) :
    wildcardRow dst dev path name ∈ lookupMask := by
  cases dst <;> cases dev <;> cases path <;> cases name <;> decide

/-- Every row masks a field with nothing or with its wildcard, and never
    touches the version. -/
theorem mask_zero_or_any : ∀ m ∈ lookupMask, ∀ f : Field,
    m.mask f = 0 ∨ (f ≠ .ver ∧ m.mask f = BitVec.allOnes _) := by
  intro m hm f
  cases f with
  | ver => exact Or.inl rfl
  | fwdDst =>
      have h : ∀ m ∈ lookupMask,
          m.fwdDst = 0 ∨ m.fwdDst = BitVec.allOnes 7 := by decide
      exact (h m hm).imp id fun ha => ⟨by decide, ha⟩
  | deviceId =>
      have h : ∀ m ∈ lookupMask,
          m.deviceId = 0 ∨ m.deviceId = BitVec.allOnes 7 := by decide
      exact (h m hm).imp id fun ha => ⟨by decide, ha⟩
  | streamPath =>
      have h : ∀ m ∈ lookupMask,
          m.streamPath = 0 ∨ m.streamPath = BitVec.allOnes 54 := by decide
      exact (h m hm).imp id fun ha => ⟨by decide, ha⟩
  | streamName =>
      have h : ∀ m ∈ lookupMask,
          m.streamName = 0 ∨ m.streamName = BitVec.allOnes 54 := by decide
      exact (h m hm).imp id fun ha => ⟨by decide, ha⟩

/-- A field that is equal or wildcarded is the message's field OR-ed with the
    mask that wildcards it iff it differs. -/
theorem or_mask_of_matches {w : Nat} {req sid : BitVec w}
    (h : req = sid ∨ req = BitVec.allOnes w) :
    req = sid ||| (if decide (req ≠ sid) then BitVec.allOnes w else 0) := by
  by_cases heq : req = sid
  · rw [if_neg (by simp [heq])]
    exact heq.trans (BitVec.or_zero).symm
  · rw [if_pos (decide_eq_true heq)]
    exact (h.resolve_left heq).trans (BitVec.or_allOnes).symm

/-- **THE LOOK-UPS ARE THE WILDCARD COMBINATIONS**: an id is one of the sixteen
    look-up ids of a message iff it matches the message as a request. -/
theorem mem_lookupIds_iff (req sid : StreamId) :
    req ∈ lookupIds sid ↔ Matches req sid := by
  constructor
  · intro hmem
    obtain ⟨m, hm, rfl⟩ := List.mem_map.mp hmem
    refine ⟨?_, ?_⟩
    · rw [field_lookupId]
      exact BitVec.or_zero
    · intro f _
      rw [field_lookupId]
      rcases mask_zero_or_any m hm f with h0 | ⟨-, hany⟩
      · exact Or.inl (by rw [h0]; exact BitVec.or_zero)
      · exact Or.inr (by rw [hany]; exact BitVec.or_allOnes)
  · rintro ⟨hver, hfields⟩
    refine List.mem_map.mpr ⟨wildcardRow
      (decide (field .fwdDst req ≠ field .fwdDst sid))
      (decide (field .deviceId req ≠ field .deviceId sid))
      (decide (field .streamPath req ≠ field .streamPath sid))
      (decide (field .streamName req ≠ field .streamName sid)),
      wildcardRow_mem _ _ _ _, ?_⟩
    refine ext_field fun f => (field_lookupId sid _ f).trans ?_
    cases f with
    | ver => exact (BitVec.or_zero).trans hver.symm
    | fwdDst => exact (or_mask_of_matches (hfields .fwdDst (by decide))).symm
    | deviceId => exact (or_mask_of_matches (hfields .deviceId (by decide))).symm
    | streamPath =>
        exact (or_mask_of_matches (hfields .streamPath (by decide))).symm
    | streamName =>
        exact (or_mask_of_matches (hfields .streamName (by decide))).symm

/-! ## The dispatch predicate of the applications -/

/-- `((int*)id)[j]`: four bytes read as a little-endian `int`. -/
def word (id : StreamId) (j : Fin 4) : BitVec 32 :=
  id[4 * j.val + 3] ++ id[4 * j.val + 2] ++ id[4 * j.val + 1] ++ id[4 * j.val]

/-- `jrtc_router_stream_id_matches_req`: the loop returns `false` at the first
    word of the message that has a bit the request's word lacks. -/
def matchesReq (sid sidReq : StreamId) : Bool :=
  (List.finRange 4).all fun j => (word sid j &&& word sidReq j) == word sid j

/-- Every set bit of the message's field is set in the request's. -/
def Contained (f : Field) (sid req : StreamId) : Prop :=
  field f sid &&& field f req = field f sid

theorem and_eq_left_iff {w : Nat} (x y : BitVec w) :
    x &&& y = x ↔ ∀ i, i < w → x.getLsbD i = true → y.getLsbD i = true := by
  constructor
  · intro h i _ hx
    rw [← h, BitVec.getLsbD_and, Bool.and_eq_true] at hx
    exact hx.2
  · intro h
    apply BitVec.eq_of_getLsbD_eq
    intro i hi
    rw [BitVec.getLsbD_and]
    cases hx : x.getLsbD i with
    | false => rfl
    | true => rw [h i hi hx]; rfl

/-- Bit `i` of a word is bit `i % 8` of its byte `i / 8`. -/
theorem word_getLsbD (id : StreamId) (j : Fin 4) {i : Nat} (hi : i < 32) :
    (word id j).getLsbD i = bitAt id (8 * (4 * j.val + i / 8) + (7 - i % 8)) := by
  have hj := j.isLt
  rw [bitAt_byte id (by omega) (by omega), word, BitVec.getLsbD_append,
    BitVec.getLsbD_append, BitVec.getLsbD_append]
  by_cases h1 : i < 8
  · rw [if_pos h1]
    congr 2 <;> omega
  by_cases h2 : i < 16
  · rw [if_neg h1, if_pos (by omega)]
    congr 2 <;> omega
  by_cases h3 : i < 24
  · rw [if_neg h1, if_neg (by omega), if_pos (by omega)]
    congr 2 <;> omega
  · rw [if_neg h1, if_neg (by omega), if_neg (by omega)]
    congr 2 <;> omega

/-- The word loop tests containment of the whole id, bit by bit. -/
theorem matchesReq_iff_bits (sid req : StreamId) : matchesReq sid req = true
    ↔ ∀ k, k < 128 → bitAt sid k = true → bitAt req k = true := by
  rw [matchesReq, List.all_eq_true]
  constructor
  · intro h k hk hbit
    -- bit `k` of the id is bit `8 * (k / 8 % 4) + (7 - k % 8)` of word `k / 32`
    have hw := h ⟨k / 32, by omega⟩ (List.mem_finRange _)
    rw [beq_iff_eq, and_eq_left_iff] at hw
    have hki := hw (8 * (k / 8 % 4) + (7 - k % 8)) (by omega)
    rw [word_getLsbD _ _ (by omega), word_getLsbD _ _ (by omega)] at hki
    have hpos : 8 * (4 * (k / 32) + (8 * (k / 8 % 4) + (7 - k % 8)) / 8)
        + (7 - (8 * (k / 8 % 4) + (7 - k % 8)) % 8) = k := by omega
    simp only [hpos] at hki
    exact hki hbit
  · intro h j _
    rw [beq_iff_eq, and_eq_left_iff]
    intro i hi
    have hj := j.isLt
    rw [word_getLsbD _ _ hi, word_getLsbD _ _ hi]
    exact h _ (by omega)

/-- Containment of a field, in bits of the id. -/
theorem contained_iff_bits (f : Field) (sid req : StreamId) :
    Contained f sid req ↔ ∀ k, f.lo ≤ k → k < f.lo + f.width →
      bitAt sid k = true → bitAt req k = true := by
  rw [Contained, and_eq_left_iff]
  constructor
  · intro h k hlo hhi
    rw [bitAt_eq_slice sid hlo hhi, bitAt_eq_slice req hlo hhi]
    exact h _ (by omega)
  · intro h i hi
    rw [field_getLsbD f sid hi, field_getLsbD f req hi]
    exact h _ (by omega) (by omega)

/-- **THE DISPATCH PREDICATE** holds iff all five fields are contained. -/
theorem matchesReq_iff (sid req : StreamId) :
    matchesReq sid req = true ↔ ∀ f, Contained f sid req := by
  rw [matchesReq_iff_bits]
  constructor
  · intro h f
    rw [contained_iff_bits]
    intro k _ hhi
    exact h k (Nat.lt_of_lt_of_le hhi f.lo_add_width_le)
  · intro h k hk
    by_cases h1 : k < 6
    · exact (contained_iff_bits .ver _ _).mp (h _) k (Nat.zero_le _) h1
    by_cases h2 : k < 13
    · exact (contained_iff_bits .fwdDst _ _).mp (h _) k (Nat.le_of_not_lt h1) h2
    by_cases h3 : k < 20
    · exact (contained_iff_bits .deviceId _ _).mp (h _) k (Nat.le_of_not_lt h2) h3
    by_cases h4 : k < 74
    · exact (contained_iff_bits .streamPath _ _).mp (h _) k (Nat.le_of_not_lt h3) h4
    · exact (contained_iff_bits .streamName _ _).mp (h _) k (Nat.le_of_not_lt h4) hk

/-- A matching request contains the message: the router never delivers what the
    predicate then rejects. -/
theorem Matches.contained {req sid : StreamId} (h : Matches req sid) (f : Field) :
    Contained f sid req := by
  by_cases hf : f = .ver
  · subst hf
    rw [Contained, h.1]
    exact BitVec.and_self
  · rcases h.2 f hf with heq | hany
    · rw [Contained, heq]
      exact BitVec.and_self
    · rw [Contained, hany]
      exact BitVec.and_allOnes

/-- The request's field strictly contains the message's field although it is no
    wildcard (the version has no wildcard). -/
def NestedApart (f : Field) (sid req : StreamId) : Prop :=
  Contained f sid req ∧ field f req ≠ field f sid ∧
    (f = .ver ∨ field f req ≠ BitVec.allOnes _)

/-- A contained request that has no field nested apart matches. -/
theorem matches_of_not_nestedApart {req sid : StreamId}
    (hc : ∀ f, Contained f sid req) (hn : ∀ f, ¬ NestedApart f sid req) :
    Matches req sid := by
  refine ⟨?_, ?_⟩
  · by_contra hne
    exact hn .ver ⟨hc .ver, hne, Or.inl rfl⟩
  · intro f _
    by_cases heq : field f req = field f sid
    · exact Or.inl heq
    · refine Or.inr ?_
      by_contra hany
      exact hn f ⟨hc f, heq, Or.inr hany⟩

/-- **WHEN DISPATCH AND DELIVERY AGREE.**  At a pair of ids the predicate gives
    the router's answer iff a field nested apart, if there is one, comes with
    another field that is not contained at all. -/
theorem matchesReq_agrees_iff (sid req : StreamId) :
    (matchesReq sid req = true ↔ req ∈ lookupIds sid)
      ↔ ((∃ f, NestedApart f sid req) → ∃ g, ¬ Contained g sid req) := by
  rw [matchesReq_iff, mem_lookupIds_iff]
  constructor
  · rintro hagree ⟨f, -, hne, hwild⟩
    by_contra hall
    have hm : Matches req sid :=
      hagree.mp fun g => Classical.not_not.mp fun hg => hall ⟨g, hg⟩
    rcases hwild with rfl | hany
    · exact hne hm.1
    · by_cases hf : f = .ver
      · subst hf
        exact hne hm.1
      · exact (hm.2 f hf).elim hne hany
  · intro hcond
    constructor
    · intro hc
      refine matches_of_not_nestedApart hc ?_
      intro f hf
      obtain ⟨g, hg⟩ := hcond ⟨f, hf⟩
      exact hg (hc g)
    · intro hm f
      exact hm.contained f

/-- A message of device 1 is accepted for a request of device 3, which the
    router does not look up: destination UDP, path and name hashes of the
    binding tests. -/
theorem matchesReq_accepts_other_device :
    ¬ ∀ sid req : StreamId, matchesReq sid req = true ↔ req ∈ lookupIds sid := by
  intro h
  have hpair := h
    #v[0x00, 0x10, 0x1e, 0x30, 0x97, 0xb1, 0x45, 0x4b,
       0xfc, 0xaf, 0xca, 0xc3, 0x0c, 0x22, 0x35, 0xd9]
    #v[0x00, 0x10, 0x3e, 0x30, 0x97, 0xb1, 0x45, 0x4b,
       0xfc, 0xaf, 0xca, 0xc3, 0x0c, 0x22, 0x35, 0xd9]
  revert hpair
  decide

end JrtcRouterLookup
