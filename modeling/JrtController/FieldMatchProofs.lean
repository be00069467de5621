import JrtController.BitFieldProofs
import JrtController.RouterLookupProofs

/-! # The predicates on single fields

    `jrtc_router_stream_id_fwd_dst_matches_req` and its three siblings cast a pointer to an
    id to a pointer to `struct jrtc_router_stream_id_int` and compare one of its bit-fields.
    The ids are packed by hand, the most significant bits first; the bit-fields start at the
    low bits, each in a unit of its own type, and the last one begins where an id ends.

    * `startOf_eq` — where the five bit-fields are;
    * `matchesReq_of_field` — what a predicate compares, for a bit-field inside the id;
    * `streamName_outside` — the bit-field of the name is not;
    * `subset_iff_within`, `contained_iff_within` — the bits that are compared and those of
      the packed field, byte by byte;
    * `predicates_never_meet` — so the four are never all right, and when each single one
      is. -/

namespace JrtcFieldMatch

open PackedBits BitFields JrtcStreamId JrtcRouterLookup

/-! ## The structure -/

/-- The declared type of a member in bytes: `uint16_t` or `uint64_t`. -/
def typeBytes : Field → Nat
  | .ver => 2
  | .fwdDst => 2
  | .deviceId => 2
  | .streamPath => 8
  | .streamName => 8

theorem width_pos (f : Field) : 0 < f.width := by
  cases f <;> decide

theorem width_le (f : Field) : f.width ≤ 8 * typeBytes f := by
  cases f <;> decide

def decl (f : Field) : Decl := ⟨typeBytes f, f.width, width_pos f, width_le f⟩

/-- The members of `struct jrtc_router_stream_id_int`, in their order. -/
def members : List Field := [.ver, .fwdDst, .deviceId, .streamPath, .streamName]

/-- The first bit of a member. -/
def startOf (f : Field) : Nat :=
  ((members.zip (layout 0 (members.map decl))).lookup f).getD 0

/-- The first bit of a member, computed. -/
theorem startOf_eq (f : Field) : startOf f
    = match f with
      | .ver => 0
      | .fwdDst => 6
      | .deviceId => 16
      | .streamPath => 64
      | .streamName => 128 := by
  cases f <;> rfl

theorem startOf_fits (f : Field) : startOf f % (decl f).unit + f.width ≤ (decl f).unit := by
  cases f with
  | ver => exact place_fits (decl .ver) 0
  | fwdDst => exact place_fits (decl .fwdDst) 6
  | deviceId => exact place_fits (decl .deviceId) 13
  | streamPath => exact place_fits (decl .streamPath) 23
  | streamName => exact place_fits (decl .streamName) 118

/-! ## The predicates -/

/-- `((struct jrtc_router_stream_id_int*)sid)->f`. -/
def readMember (f : Field) (sid : StreamId) : Except Fault (BitVec f.width) :=
  readField sid.toList (decl f) (startOf f)

/-- The body the four predicates share. -/
def fieldMatchesReq (f : Field) (sid sidReq : StreamId) : Except Fault Bool := do
  let a ← readMember f sid
  let b ← readMember f sidReq
  let c ← readMember f sid
  pure (a &&& b == c)

def fwdDstMatchesReq : StreamId → StreamId → Except Fault Bool := fieldMatchesReq .fwdDst

def deviceIdMatchesReq : StreamId → StreamId → Except Fault Bool := fieldMatchesReq .deviceId

def streamPathMatchesReq : StreamId → StreamId → Except Fault Bool := fieldMatchesReq .streamPath

def streamNameMatchesReq : StreamId → StreamId → Except Fault Bool := fieldMatchesReq .streamName

/-- A predicate reads bytes of the ids alone, and tells whether the packed field of the
    first is a subset of that of the second. -/
def Meets (p : StreamId → StreamId → Except Fault Bool) (f : Field) (sid req : StreamId) :
    Prop :=
  ∃ b, p sid req = .ok b ∧ (b = true ↔ Contained f sid req)

/-- The ids match iff the four predicates hold and the version is a subset. -/
def WholeMeets (sid req : StreamId) : Prop :=
  matchesReq sid req = true
    ↔ (fwdDstMatchesReq sid req = .ok true ∧ deviceIdMatchesReq sid req = .ok true
      ∧ streamPathMatchesReq sid req = .ok true ∧ streamNameMatchesReq sid req = .ok true)
      ∧ Contained .ver sid req

/-- The four predicates do what they should, each and together. -/
structure PredicatesMeet (sid req : StreamId) : Prop where
  fwdDst     : Meets fwdDstMatchesReq .fwdDst sid req
  deviceId   : Meets deviceIdMatchesReq .deviceId sid req
  streamPath : Meets streamPathMatchesReq .streamPath sid req
  streamName : Meets streamNameMatchesReq .streamName sid req
  whole      : WholeMeets sid req

/-! ## What they compare -/

/-- The bits of the bit-field are a subset. -/
def Subset (f : Field) (sid req : StreamId) : Prop :=
  ∀ p, startOf f ≤ p → p < startOf f + f.width →
    bitOf sid.toList p = true → bitOf req.toList p = true

/-- **A BIT-FIELD INSIDE THE ID** is compared. -/
theorem matchesReq_of_field {f : Field} (hin : (startOf f / (decl f).unit + 1) * typeBytes f ≤ 16)
    (sid req : StreamId) :
    ∃ b, fieldMatchesReq f sid req = .ok b ∧ (b = true ↔ Subset f sid req) := by
  have hlen : ∀ id : StreamId, (startOf f / (decl f).unit + 1) * typeBytes f
      ≤ id.toList.length := by
    intro id
    rw [Vector.length_toList]
    exact hin
  obtain ⟨a, ha, habits⟩ := readField_getLsbD (startOf_fits f) (hlen sid)
  obtain ⟨b, hb, hbbits⟩ := readField_getLsbD (startOf_fits f) (hlen req)
  refine ⟨a &&& b == a, ?_, ?_⟩
  · rw [fieldMatchesReq, readMember, readMember, ha, hb]
    rfl
  · rw [beq_iff_eq, and_eq_left_iff]
    constructor
    · intro h p hlo hhi
      have hp := h (p - startOf f) (show p - startOf f < f.width by omega)
      rw [habits _ (show p - startOf f < f.width by omega),
        hbbits _ (show p - startOf f < f.width by omega), Nat.add_sub_cancel' hlo] at hp
      exact hp
    · intro h i hi
      rw [habits i hi, hbbits i hi]
      exact h _ (Nat.le_add_right _ _) (Nat.add_lt_add_left hi _)

/-- **THE BIT-FIELD OF THE NAME** begins behind the id. -/
theorem streamName_outside (sid req : StreamId) (b : Bool) :
    streamNameMatchesReq sid req ≠ .ok b := by
  have hshort : sid.toList.length
      < (startOf .streamName / (decl .streamName).unit + 1) * (decl .streamName).bytes := by
    rw [Vector.length_toList]
    decide
  obtain ⟨f, hf⟩ := readField_eq_error_iff.mpr hshort
  rw [streamNameMatchesReq, fieldMatchesReq, readMember, hf]
  intro h
  cases h

/-! ## Byte by byte -/

/-- The bits of a byte that a mask selects are a subset. -/
def Within (sid req : StreamId) (x : Nat × BitVec 8) : Prop :=
  sid[x.1]! &&& x.2 &&& req[x.1]! = sid[x.1]! &&& x.2

/-- The bytes of the bit-fields inside the id. -/
def comparedMasks : Field → List (Nat × BitVec 8)
  | .ver => [(0, 0x3F)]
  | .fwdDst => [(0, 0xC0), (1, 0x1F)]
  | .deviceId => [(2, 0x7F)]
  | .streamPath =>
    [(8, 0xFF), (9, 0xFF), (10, 0xFF), (11, 0xFF), (12, 0xFF), (13, 0xFF), (14, 0x3F)]
  | .streamName => []

/-- The bytes of the packed fields. -/
def packedMasks : Field → List (Nat × BitVec 8)
  | .ver => [(0, 0xFC)]
  | .fwdDst => [(0, 0x03), (1, 0xF8)]
  | .deviceId => [(1, 0x07), (2, 0xF0)]
  | .streamPath => [(2, 0x0F), (3, 0xFF), (4, 0xFF), (5, 0xFF), (6, 0xFF), (7, 0xFF),
      (8, 0xFF), (9, 0xC0)]
  | .streamName =>
    [(9, 0x3F), (10, 0xFF), (11, 0xFF), (12, 0xFF), (13, 0xFF), (14, 0xFF), (15, 0xFF)]

theorem bitOf_toList (id : StreamId) {j b : Nat} (hj : j < 16) (hb : b < 8) :
    bitOf id.toList (8 * j + b) = (id[j]!).getLsbD b := by
  have hdiv : (8 * j + b) / 8 = j := by omega
  have hmod : (8 * j + b) % 8 = b := by omega
  rw [bitOf, hdiv, hmod, getElem!_pos id j hj, List.getD_eq_getElem?_getD,
    Vector.getElem?_toList, Vector.getElem?_eq_getElem hj, Option.getD_some]

theorem within_iff {j : Nat} (hj : j < 16) (mask : BitVec 8) (sid req : StreamId) :
    Within sid req (j, mask) ↔ ∀ b, b < 8 → mask.getLsbD b = true →
      bitOf sid.toList (8 * j + b) = true → bitOf req.toList (8 * j + b) = true := by
  rw [Within, and_eq_left_iff]
  refine forall₂_congr fun b hb => ?_
  rw [BitVec.getLsbD_and, Bool.and_eq_true, bitOf_toList sid hj hb, bitOf_toList req hj hb]
  exact ⟨fun h hm hs => h ⟨hs, hm⟩, fun h hs => h hs.2 hs.1⟩

/-- A set of bits, selected by masks of different bytes. -/
theorem forall_bits_iff {R : Nat → Prop} {masks : List (Nat × BitVec 8)}
    (hbytes : ∀ x ∈ masks, x.1 < 16)
    (hR : ∀ p, p < 128 → (R p ↔ ∃ x ∈ masks, x.1 = p / 8 ∧ x.2.getLsbD (p % 8) = true))
    (sid req : StreamId) :
    (∀ p, p < 128 → R p → bitOf sid.toList p = true → bitOf req.toList p = true)
      ↔ ∀ x ∈ masks, Within sid req x := by
  constructor
  · rintro h ⟨j, mask⟩ hx
    have hj : j < 16 := hbytes _ hx
    rw [within_iff hj]
    intro b hb hmask
    refine h (8 * j + b) (by omega) ((hR _ (by omega)).mpr ⟨(j, mask), hx, ?_, ?_⟩)
    · show j = (8 * j + b) / 8
      omega
    · rw [show (8 * j + b) % 8 = b by omega]
      exact hmask
  · intro h p hp hin
    obtain ⟨⟨j, mask⟩, hx, rfl, hmask⟩ := (hR p hp).mp hin
    have hw := (within_iff (hbytes _ hx) mask sid req).mp (h _ hx) (p % 8) (by omega) hmask
    rw [Nat.div_add_mod p 8] at hw
    exact hw

theorem comparedMasks_cover (f : Field) (hf : f ≠ .streamName) :
    ∀ p, p < 128 → ((startOf f ≤ p ∧ p < startOf f + f.width)
      ↔ ∃ x ∈ comparedMasks f, x.1 = p / 8 ∧ x.2.getLsbD (p % 8) = true) := by
  cases f with
  | ver => decide +kernel
  | fwdDst => decide +kernel
  | deviceId => decide +kernel
  | streamPath => decide +kernel
  | streamName => exact absurd rfl hf

/-- The packed fields count the bits of a byte from the high end. -/
theorem packedMasks_cover (f : Field) :
    ∀ p, p < 128 → ((f.lo ≤ 8 * (p / 8) + (7 - p % 8) ∧ 8 * (p / 8) + (7 - p % 8) < f.lo + f.width)
      ↔ ∃ x ∈ packedMasks f, x.1 = p / 8 ∧ x.2.getLsbD (p % 8) = true) := by
  cases f <;> decide +kernel

/-- **THE BITS THAT ARE COMPARED**, byte by byte. -/
theorem subset_iff_within {f : Field} (hf : f ≠ .streamName) (sid req : StreamId) :
    Subset f sid req ↔ ∀ x ∈ comparedMasks f, Within sid req x := by
  have hend : startOf f + f.width ≤ 128 := by
    cases f with
    | streamName => exact absurd rfl hf
    | _ => decide
  have hbytes : ∀ x ∈ comparedMasks f, x.1 < 16 := by
    cases f <;> decide
  rw [← forall_bits_iff hbytes (comparedMasks_cover f hf)]
  exact ⟨fun h p _ hp => h p hp.1 hp.2, fun h p hlo hhi => h p (by omega) ⟨hlo, hhi⟩⟩

/-- **THE PACKED FIELD**, byte by byte. -/
theorem contained_iff_within (f : Field) (sid req : StreamId) :
    Contained f sid req ↔ ∀ x ∈ packedMasks f, Within sid req x := by
  have hbytes : ∀ x ∈ packedMasks f, x.1 < 16 := by
    cases f <;> decide
  have hend := f.lo_add_width_le
  have hbit : ∀ (id : StreamId) (p : Nat), p < 128 →
      bitAt id (8 * (p / 8) + (7 - p % 8)) = bitOf id.toList p := by
    intro id p hp
    have hj : p / 8 < 16 := by omega
    rw [bitAt_byte id hj (by omega), ← getElem!_pos id (p / 8) hj,
      ← bitOf_toList id hj (by omega), Nat.div_add_mod]
  rw [contained_iff_bits, ← forall_bits_iff hbytes (packedMasks_cover f)]
  constructor
  · intro h p hp hin
    rw [← hbit sid p hp, ← hbit req p hp]
    exact h _ hin.1 hin.2
  · intro h k hlo hhi
    -- bit `k` from the high end is bit `7 - k % 8` of byte `k / 8` from the low end
    have hk : 8 * ((8 * (k / 8) + (7 - k % 8)) / 8) + (7 - (8 * (k / 8) + (7 - k % 8)) % 8)
        = k := by omega
    have hp := h (8 * (k / 8) + (7 - k % 8)) (by omega) (by rw [hk]; exact ⟨hlo, hhi⟩)
    rw [← hbit sid _ (by omega), ← hbit req _ (by omega), hk] at hp
    exact hp

/-! ## When the predicates are right -/

/-- The bits that are compared and the bits of the packed field give the same answer. -/
def Agree (f : Field) (sid req : StreamId) : Prop :=
  (∀ x ∈ comparedMasks f, Within sid req x) ↔ ∀ x ∈ packedMasks f, Within sid req x

theorem meets_iff_agree {f : Field} (hf : f ≠ .streamName) (sid req : StreamId) :
    Meets (fieldMatchesReq f) f sid req ↔ Agree f sid req := by
  have hin : (startOf f / (decl f).unit + 1) * typeBytes f ≤ 16 := by
    cases f with
    | streamName => exact absurd rfl hf
    | _ => decide
  obtain ⟨b, hb, hsub⟩ := matchesReq_of_field hin sid req
  rw [subset_iff_within hf] at hsub
  rw [Agree, ← hsub, ← contained_iff_within]
  constructor
  · rintro ⟨b', hb', hmeets⟩
    cases hb.symm.trans hb'
    exact hmeets
  · intro h
    exact ⟨b, hb, h⟩

theorem not_meets_streamName (sid req : StreamId) :
    ¬ Meets streamNameMatchesReq .streamName sid req := by
  rintro ⟨b, hb, -⟩
  exact streamName_outside sid req b hb

/-- The four never hold together. -/
theorem wholeMeets_iff (sid req : StreamId) :
    WholeMeets sid req ↔ matchesReq sid req = false := by
  have hnot : ¬ ((fwdDstMatchesReq sid req = .ok true ∧ deviceIdMatchesReq sid req = .ok true
      ∧ streamPathMatchesReq sid req = .ok true ∧ streamNameMatchesReq sid req = .ok true)
      ∧ Contained .ver sid req) :=
    fun h => streamName_outside sid req true h.1.2.2.2
  rw [WholeMeets, iff_false_right hnot, Bool.not_eq_true]

/-- **NEVER ALL RIGHT**: at no pair of ids do the four predicates do what they should, since
    that of the name reads outside the ids.  Each of the other three does iff the bits it
    compares happen to give the answer of the packed field. -/
theorem predicates_never_meet (sid req : StreamId) :
    ¬ PredicatesMeet sid req
      ∧ ¬ Meets streamNameMatchesReq .streamName sid req
      ∧ (Meets fwdDstMatchesReq .fwdDst sid req ↔ Agree .fwdDst sid req)
      ∧ (Meets deviceIdMatchesReq .deviceId sid req ↔ Agree .deviceId sid req)
      ∧ (Meets streamPathMatchesReq .streamPath sid req ↔ Agree .streamPath sid req)
      ∧ (WholeMeets sid req ↔ matchesReq sid req = false) := by
  have hname := not_meets_streamName sid req
  exact ⟨fun h => hname h.streamName, hname, meets_iff_agree (by decide) sid req,
    meets_iff_agree (by decide) sid req, meets_iff_agree (by decide) sid req,
    wholeMeets_iff sid req⟩

/-- An id with a destination and a device. -/
def idFor (fwdDst deviceId : BitVec 16) : StreamId :=
  setDeviceId (setFwdDst (Vector.replicate 16 0) fwdDst) deviceId

/-- A message for UDP from device 16 and a request for UDP from device 1: the high bits of
    the device are taken for bits of the destination, which is the same in both. -/
theorem sameDestination_not_matched : ¬ ∀ sid req : StreamId, PredicatesMeet sid req := by
  intro h
  obtain ⟨b, hb, hiff⟩ := (h (idFor 2 16) (idFor 2 1)).fwdDst
  have hfalse : fwdDstMatchesReq (idFor 2 16) (idFor 2 1) = .ok false := by decide +kernel
  have hsame : field .fwdDst (idFor 2 16) &&& field .fwdDst (idFor 2 1)
      = field .fwdDst (idFor 2 16) := by decide +kernel
  cases hfalse.symm.trans hb
  cases hiff.mpr hsame

end JrtcFieldMatch
