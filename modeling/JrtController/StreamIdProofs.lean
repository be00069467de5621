import JrtController.PackedBitsProofs

/-! # Router stream ids: the packed record and its C accessors

    A stream id is sixteen `char`s that pack five fields, most significant bit
    first: a 6-bit version, a 7-bit forward destination, a 7-bit device id, a
    54-bit path hash and a 54-bit name hash.  Four of the five boundaries fall
    inside a byte (bytes 0, 1, 2 and 9).

    The setters, the mask macros and the getters are translated byte by byte
    with C's conversions written out: `char` is signed on the target, so a
    promotion to `int` or a cast to `uint64_t` sign-extends.  Every setter is
    shown to be one field update (`setField_updates`) and so is every mask macro;
    the three short getters read exactly their field, while the two long ones
    OR sign-extended bytes together and smear (`getStreamPath_getLsbD`,
    `getStreamName_getLsbD`).  `Format` of the Go bindings clears the fields it is
    asked to and no other (`field_format`). -/

namespace JrtcStreamId

open PackedBits

/-- `jrtc_router_stream_id_t`: `char id[JRTC_ROUTER_STREAM_ID_BYTE_LEN]`. -/
abbrev StreamId := Vector (BitVec 8) 16

-- ── C integer conversions ─────────────────────────────────────────────────────

/-- A `char` promoted to `int`. -/
def intOfChar (c : BitVec 8) : BitVec 32 := c.signExtend 32

/-- A `char` cast to `uint64_t`. -/
def u64OfChar (c : BitVec 8) : BitVec 64 := c.signExtend 64

/-- An `int` converted to `uint64_t` by the usual arithmetic conversions. -/
def u64OfInt (x : BitVec 32) : BitVec 64 := x.signExtend 64

/-- Assignment to a `char` keeps the low eight bits. -/
def charOf {w : Nat} (x : BitVec w) : BitVec 8 := x.setWidth 8

-- ── The macros on the byte array ──────────────────────────────────────────────

/-- `_jrtc_router_stream_id_apply_fwd_dst_mask`. -/
def applyFwdDstMask (id : StreamId) (fwdDst : BitVec 32) : StreamId :=
  let id := id.set 0 (charOf (intOfChar id[0]
    ||| ((intOfChar id[0] &&& 0xFC) ||| ((fwdDst &&& 0x7F).sshiftRight 5))))
  id.set 1 (charOf (intOfChar id[1]
    ||| (((fwdDst &&& 0x1F) <<< 3) ||| (intOfChar id[1] &&& 0x07))))

/-- `_jrtc_router_stream_id_apply_device_id_mask`. -/
def applyDeviceIdMask (id : StreamId) (deviceId : BitVec 32) : StreamId :=
  let id := id.set 1 (charOf (intOfChar id[1]
    ||| ((intOfChar id[1] &&& 0xF8) ||| (deviceId.sshiftRight 4 &&& 0x07))))
  id.set 2 (charOf (intOfChar id[2]
    ||| (((deviceId &&& 0x0F) <<< 4) ||| (intOfChar id[2] &&& 0x0F))))

/-- `_jrtc_router_stream_id_apply_stream_path_mask`. -/
def applyStreamPathMask (id : StreamId) (streamPath : BitVec 64) : StreamId :=
  let id := id.set 2 (charOf (u64OfChar id[2]
    ||| (u64OfInt (intOfChar id[2] &&& 0xF0) ||| ((streamPath >>> 50) &&& 0x0F))))
  let id := id.set 3 (charOf (u64OfChar id[3] ||| ((streamPath >>> 42) &&& 0xFF)))
  let id := id.set 4 (charOf (u64OfChar id[4] ||| ((streamPath >>> 34) &&& 0xFF)))
  let id := id.set 5 (charOf (u64OfChar id[5] ||| ((streamPath >>> 26) &&& 0xFF)))
  let id := id.set 6 (charOf (u64OfChar id[6] ||| ((streamPath >>> 18) &&& 0xFF)))
  let id := id.set 7 (charOf (u64OfChar id[7] ||| ((streamPath >>> 10) &&& 0xFF)))
  let id := id.set 8 (charOf (u64OfChar id[8] ||| ((streamPath >>> 2) &&& 0xFF)))
  id.set 9 (charOf (u64OfChar id[9]
    ||| (((streamPath &&& 0x03) <<< 6) ||| u64OfInt (intOfChar id[9] &&& 0x3F))))

/-- `_jrtc_router_stream_id_apply_stream_name_mask`. -/
def applyStreamNameMask (id : StreamId) (streamName : BitVec 64) : StreamId :=
  let id := id.set 9 (charOf (u64OfChar id[9]
    ||| (u64OfInt (intOfChar id[9] &&& 0xC0) ||| ((streamName >>> 48) &&& 0x3F))))
  let id := id.set 10 (charOf (u64OfChar id[10] ||| ((streamName >>> 40) &&& 0xFF)))
  let id := id.set 11 (charOf (u64OfChar id[11] ||| ((streamName >>> 32) &&& 0xFF)))
  let id := id.set 12 (charOf (u64OfChar id[12] ||| ((streamName >>> 24) &&& 0xFF)))
  let id := id.set 13 (charOf (u64OfChar id[13] ||| ((streamName >>> 16) &&& 0xFF)))
  let id := id.set 14 (charOf (u64OfChar id[14] ||| ((streamName >>> 8) &&& 0xFF)))
  id.set 15 (charOf (u64OfChar id[15] ||| (streamName &&& 0xFF)))

/-- `_jrtc_router_stream_id_set_ver`. -/
def idSetVer (id : StreamId) (ver : BitVec 32) : StreamId :=
  id.set 0 (charOf ((ver <<< 2) ||| (intOfChar id[0] &&& 0x03)))

/-- `_jrtc_router_stream_id_set_fwd_dst`. -/
def idSetFwdDst (id : StreamId) (fwdDst : BitVec 32) : StreamId :=
  let id := id.set 0 (charOf ((intOfChar id[0] &&& 0xFC)
    ||| ((fwdDst &&& 0x7F).sshiftRight 5)))
  id.set 1 (charOf (((fwdDst &&& 0x1F) <<< 3) ||| (intOfChar id[1] &&& 0x07)))

/-- `_jrtc_router_stream_id_set_device_id`. -/
def idSetDeviceId (id : StreamId) (deviceId : BitVec 32) : StreamId :=
  let id := id.set 1 (charOf ((intOfChar id[1] &&& 0xF8)
    ||| (deviceId.sshiftRight 4 &&& 0x07)))
  id.set 2 (charOf (((deviceId &&& 0x0F) <<< 4) ||| (intOfChar id[2] &&& 0x0F)))

/-- `_jrtc_router_stream_id_set_stream_path`. -/
def idSetStreamPath (id : StreamId) (streamPath : BitVec 64) : StreamId :=
  let id := id.set 2 (charOf (u64OfInt (intOfChar id[2] &&& 0xF0)
    ||| ((streamPath >>> 50) &&& 0x0F)))
  let id := id.set 3 (charOf ((streamPath >>> 42) &&& 0xFF))
  let id := id.set 4 (charOf ((streamPath >>> 34) &&& 0xFF))
  let id := id.set 5 (charOf ((streamPath >>> 26) &&& 0xFF))
  let id := id.set 6 (charOf ((streamPath >>> 18) &&& 0xFF))
  let id := id.set 7 (charOf ((streamPath >>> 10) &&& 0xFF))
  let id := id.set 8 (charOf ((streamPath >>> 2) &&& 0xFF))
  id.set 9 (charOf (((streamPath &&& 0x03) <<< 6)
    ||| u64OfInt (intOfChar id[9] &&& 0x3F)))

/-- `_jrtc_router_stream_id_set_stream_name`. -/
def idSetStreamName (id : StreamId) (streamName : BitVec 64) : StreamId :=
  let id := id.set 9 (charOf (u64OfInt (intOfChar id[9] &&& 0xC0)
    ||| ((streamName >>> 48) &&& 0x3F)))
  let id := id.set 10 (charOf ((streamName >>> 40) &&& 0xFF))
  let id := id.set 11 (charOf ((streamName >>> 32) &&& 0xFF))
  let id := id.set 12 (charOf ((streamName >>> 24) &&& 0xFF))
  let id := id.set 13 (charOf ((streamName >>> 16) &&& 0xFF))
  let id := id.set 14 (charOf ((streamName >>> 8) &&& 0xFF))
  id.set 15 (charOf (streamName &&& 0xFF))

-- ── The accessor functions ────────────────────────────────────────────────────

/-- `jrtc_router_stream_id_set_ver`. -/
def setVer (id : StreamId) (ver : BitVec 16) : StreamId :=
  idSetVer id (ver.setWidth 32)

/-- `jrtc_router_stream_id_set_fwd_dst`. -/
def setFwdDst (id : StreamId) (fwdDst : BitVec 16) : StreamId :=
  idSetFwdDst id (fwdDst.setWidth 32)

/-- `jrtc_router_stream_id_set_device_id`. -/
def setDeviceId (id : StreamId) (deviceId : BitVec 16) : StreamId :=
  idSetDeviceId id (deviceId.setWidth 32)

/-- `jrtc_router_stream_id_set_stream_path`. -/
def setStreamPath (id : StreamId) (streamPath : BitVec 64) : StreamId :=
  idSetStreamPath id streamPath

/-- `jrtc_router_stream_id_set_stream_name`. -/
def setStreamName (id : StreamId) (streamName : BitVec 64) : StreamId :=
  idSetStreamName id streamName

/-- `jrtc_router_stream_id_get_ver`. -/
def getVer (id : StreamId) : BitVec 16 :=
  ((intOfChar id[0]).sshiftRight 2 &&& 0x3F).setWidth 16

/-- `jrtc_router_stream_id_get_fwd_dst`. -/
def getFwdDst (id : StreamId) : BitVec 16 :=
  (((intOfChar id[0] &&& 0x03) <<< 5)
    ||| ((intOfChar id[1]).sshiftRight 3 &&& 0x1F)).setWidth 16

/-- `jrtc_router_stream_id_get_device_id`. -/
def getDeviceId (id : StreamId) : BitVec 16 :=
  (((intOfChar id[1] &&& 0x07) <<< 4)
    ||| ((intOfChar id[2]).sshiftRight 4 &&& 0x0F)).setWidth 16

/-- `jrtc_router_stream_id_get_stream_path`. -/
def getStreamPath (id : StreamId) : BitVec 64 :=
  ((u64OfChar id[2] &&& 0x0F) <<< 50) ||| (u64OfChar id[3] <<< 42)
    ||| (u64OfChar id[4] <<< 34) ||| (u64OfChar id[5] <<< 26)
    ||| (u64OfChar id[6] <<< 18) ||| (u64OfChar id[7] <<< 10)
    ||| (u64OfChar id[8] <<< 2) ||| ((u64OfChar id[9] &&& 0xC0) >>> 6)

/-- `jrtc_router_stream_id_get_stream_name`; the last byte has no cast, so it is
    promoted to `int` before it is converted. -/
def getStreamName (id : StreamId) : BitVec 64 :=
  ((u64OfChar id[9] &&& 0x3F) <<< 48) ||| (u64OfChar id[10] <<< 40)
    ||| (u64OfChar id[11] <<< 32) ||| (u64OfChar id[12] <<< 24)
    ||| (u64OfChar id[13] <<< 16) ||| (u64OfChar id[14] <<< 8)
    ||| u64OfInt (intOfChar id[15])

-- ── Each macro is one field update ────────────────────────────────────────────

theorem intOfChar_getLsbD (c : BitVec 8) {i : Nat} (hi : i < 8) :
    (intOfChar c).getLsbD i = c.getLsbD i := by
  rw [intOfChar, BitVec.getLsbD_signExtend, if_pos hi,
    decide_eq_true (show i < 32 by omega), Bool.true_and]

theorem u64OfChar_getLsbD (c : BitVec 8) {i : Nat} (hi : i < 8) :
    (u64OfChar c).getLsbD i = c.getLsbD i := by
  rw [u64OfChar, BitVec.getLsbD_signExtend, if_pos hi,
    decide_eq_true (show i < 64 by omega), Bool.true_and]

theorem u64OfInt_getLsbD (x : BitVec 32) {i : Nat} (hi : i < 8) :
    (u64OfInt x).getLsbD i = x.getLsbD i := by
  rw [u64OfInt, BitVec.getLsbD_signExtend, if_pos (show i < 32 by omega),
    decide_eq_true (show i < 64 by omega), Bool.true_and]

/-- The low bits of an arithmetic right shift by less than 24. -/
theorem sshiftRight_getLsbD (x : BitVec 32) {s i : Nat} (hs : s < 24)
    (hi : i < 8) : (x.sshiftRight s).getLsbD i = x.getLsbD (s + i) := by
  rw [BitVec.getLsbD_sshiftRight, decide_eq_false (show ¬ 32 ≤ i by omega),
    if_pos (by omega)]
  rfl

section Pieces

variable (p len : Nat) {mask : BitVec 32} {c : BitVec 8}

/-- Masking a promoted `char` keeps its bits outside the piece. -/
theorem intOfChar_and_keep (c : BitVec 8)
    (hmask : ∀ i, i < 8 → mask.getLsbD i = !inPiece p len i) :
    ∀ i, i < 8 → (intOfChar c &&& mask).getLsbD i
      = (c.getLsbD i && !inPiece p len i) := by
  intro i hi
  rw [BitVec.getLsbD_and, intOfChar_getLsbD c hi, hmask i hi]

theorem u64OfInt_and_keep (c : BitVec 8)
    (hmask : ∀ i, i < 8 → mask.getLsbD i = !inPiece p len i) :
    ∀ i, i < 8 → (u64OfInt (intOfChar c &&& mask)).getLsbD i
      = (c.getLsbD i && !inPiece p len i) := by
  intro i hi
  rw [u64OfInt_getLsbD _ hi, intOfChar_and_keep p len c hmask i hi]

/-- `b |= (b & keep) | put` sets the bits of `put` and no others. -/
theorem or_absorb {w : Nat} {x keep put : BitVec w} {q : Nat → Bool}
    (hx : ∀ i, i < 8 → x.getLsbD i = c.getLsbD i)
    (hkeep : ∀ i, i < 8 → keep.getLsbD i = (c.getLsbD i && !inPiece p len i))
    (hput : ∀ i, i < 8 → put.getLsbD i = q i) :
    ∀ i, i < 8 → (x ||| (keep ||| put)).getLsbD i = (c.getLsbD i || q i) := by
  intro i hi
  rw [BitVec.getLsbD_or, BitVec.getLsbD_or, hx i hi, hkeep i hi, hput i hi]
  cases c.getLsbD i with
  | true => rfl
  | false => rfl

end Pieces

/-- The whole byte `j` is replaced by bits `s .. s + 8` of a 64-bit value. -/
theorem set_byte (id : StreamId) (v : BitVec 64) (s j : Nat) (hj : j < 16) :
    Updates overwrite (8 * j) 8 s id
      (id.set j (charOf ((v >>> s) &&& 0xFF))) v := by
  refine Updates.set_piece j 0 8 hj (by decide) ?_
  intro i hi
  have hin : inPiece 0 8 i = true := decide_eq_true (by omega)
  rw [ushiftRight_and_piece v s 8 (by decide) i hi, hin, Bool.not_true,
    Bool.and_false, Bool.false_or]

/-- The whole byte `j` is OR-ed with bits `s .. s + 8` of a 64-bit mask. -/
theorem or_byte (id : StreamId) (v : BitVec 64) (s j : Nat) (hj : j < 16) :
    Updates or (8 * j) 8 s id
      (id.set j (charOf (u64OfChar id[j] ||| ((v >>> s) &&& 0xFF)))) v := by
  refine Updates.or_piece j 0 8 hj (by decide) ?_
  intro i hi
  rw [BitVec.getLsbD_or, u64OfChar_getLsbD _ hi,
    ushiftRight_and_piece v s 8 (by decide) i hi]

/-- The last byte of the name needs no shift. -/
theorem set_last_byte (id : StreamId) (v : BitVec 64) :
    Updates overwrite 120 8 0 id (id.set 15 (charOf (v &&& 0xFF))) v := by
  have h := set_byte id v 0 15 (by decide)
  rw [BitVec.ushiftRight_zero] at h
  exact h

theorem or_last_byte (id : StreamId) (v : BitVec 64) :
    Updates or 120 8 0 id
      (id.set 15 (charOf (u64OfChar id[15] ||| (v &&& 0xFF)))) v := by
  have h := or_byte id v 0 15 (by decide)
  rw [BitVec.ushiftRight_zero] at h
  exact h

theorem idSetVer_updates (id : StreamId) (ver : BitVec 32) :
    Updates overwrite 0 6 0 id (idSetVer id ver) ver := by
  refine Updates.set_piece 0 2 6 (by decide) (by decide) ?_
  intro i hi
  have hshift : (ver <<< 2).getLsbD i
      = (inPiece 2 6 i && ver.getLsbD (0 + (i - 2))) := by
    rw [BitVec.getLsbD_shiftLeft, decide_eq_true (show i < 32 by omega),
      inPiece, Nat.zero_add, Bool.true_and]
    by_cases h : i < 2
    · rw [decide_eq_true h, decide_eq_false (by omega)]
      rfl
    · rw [decide_eq_false h, decide_eq_true (by omega)]
      rfl
  rw [BitVec.getLsbD_or, hshift,
    intOfChar_and_keep 2 6 id[0] (by decide) i hi, Bool.or_comm]

/-- The upper two bits of a forward destination. -/
theorem fwdDst_upper (v : BitVec 32) :
    ∀ i, i < 8 → ((v &&& 0x7F).sshiftRight 5).getLsbD i
      = (inPiece 0 2 i && v.getLsbD (5 + (i - 0))) := by
  intro i hi
  have hmask : ∀ i, i < 8 → (0x7F#32).getLsbD (5 + i) = inPiece 0 2 i := by
    decide
  rw [sshiftRight_getLsbD _ (by decide) hi, BitVec.getLsbD_and]
  exact (congrArg (v.getLsbD (5 + i) && ·) (hmask i hi)).trans
    (Bool.and_comm ..)

/-- The upper three bits of a device id. -/
theorem deviceId_upper (v : BitVec 32) :
    ∀ i, i < 8 → (v.sshiftRight 4 &&& 0x07).getLsbD i
      = (inPiece 0 3 i && v.getLsbD (4 + (i - 0))) := by
  intro i hi
  have hmask : ∀ i, i < 8 → (0x07#32).getLsbD i = inPiece 0 3 i := by decide
  rw [BitVec.getLsbD_and, sshiftRight_getLsbD _ (by decide) hi]
  exact (congrArg (v.getLsbD (4 + i) && ·) (hmask i hi)).trans
    (Bool.and_comm ..)

theorem idSetFwdDst_updates (id : StreamId) (fwdDst : BitVec 32) :
    Updates overwrite 6 7 0 id (idSetFwdDst id fwdDst) fwdDst := by
  refine Updates.append 2 5 (Updates.set_piece 0 0 2 (by decide) (by decide) ?_)
    (Updates.set_piece 1 3 5 (by decide) (by decide) ?_)
  · intro i hi
    rw [BitVec.getLsbD_or, intOfChar_and_keep 0 2 id[0] (by decide) i hi,
      fwdDst_upper fwdDst i hi]
  · intro i hi
    rw [BitVec.getLsbD_or, intOfChar_and_keep 3 5 _ (by decide) i hi,
      and_shiftLeft_piece fwdDst 3 5 (by decide) rfl (by decide) i hi,
      Bool.or_comm]
    rfl

theorem idSetDeviceId_updates (id : StreamId) (deviceId : BitVec 32) :
    Updates overwrite 13 7 0 id (idSetDeviceId id deviceId) deviceId := by
  refine Updates.append 3 4 (Updates.set_piece 1 0 3 (by decide) (by decide) ?_)
    (Updates.set_piece 2 4 4 (by decide) (by decide) ?_)
  · intro i hi
    rw [BitVec.getLsbD_or, intOfChar_and_keep 0 3 id[1] (by decide) i hi,
      deviceId_upper deviceId i hi]
  · intro i hi
    rw [BitVec.getLsbD_or, intOfChar_and_keep 4 4 _ (by decide) i hi,
      and_shiftLeft_piece deviceId 4 4 (by decide) rfl (by decide) i hi,
      Bool.or_comm]
    rfl

theorem idSetStreamPath_updates (id : StreamId) (streamPath : BitVec 64) :
    Updates overwrite 20 54 0 id (idSetStreamPath id streamPath) streamPath := by
  refine Updates.append 52 2 (Updates.append 44 8 (Updates.append 36 8
    (Updates.append 28 8 (Updates.append 20 8 (Updates.append 12 8
    (Updates.append 4 8 (Updates.set_piece 2 0 4 (by decide) (by decide) ?_)
    (set_byte _ streamPath 42 3 (by decide)))
    (set_byte _ streamPath 34 4 (by decide)))
    (set_byte _ streamPath 26 5 (by decide)))
    (set_byte _ streamPath 18 6 (by decide)))
    (set_byte _ streamPath 10 7 (by decide)))
    (set_byte _ streamPath 2 8 (by decide)))
    (Updates.set_piece 9 6 2 (by decide) (by decide) ?_)
  · intro i hi
    rw [BitVec.getLsbD_or, u64OfInt_and_keep 0 4 id[2] (by decide) i hi,
      ushiftRight_and_piece streamPath 50 4 (by decide) i hi]
  · intro i hi
    rw [BitVec.getLsbD_or, u64OfInt_and_keep 6 2 _ (by decide) i hi,
      and_shiftLeft_piece streamPath 6 2 (by decide) rfl (by decide) i hi,
      Bool.or_comm]
    rfl

theorem idSetStreamName_updates (id : StreamId) (streamName : BitVec 64) :
    Updates overwrite 74 54 0 id (idSetStreamName id streamName) streamName := by
  refine Updates.append 46 8 (Updates.append 38 8 (Updates.append 30 8
    (Updates.append 22 8 (Updates.append 14 8 (Updates.append 6 8
    (Updates.set_piece 9 0 6 (by decide) (by decide) ?_)
    (set_byte _ streamName 40 10 (by decide)))
    (set_byte _ streamName 32 11 (by decide)))
    (set_byte _ streamName 24 12 (by decide)))
    (set_byte _ streamName 16 13 (by decide)))
    (set_byte _ streamName 8 14 (by decide))) (set_last_byte _ streamName)
  intro i hi
  rw [BitVec.getLsbD_or, u64OfInt_and_keep 0 6 id[9] (by decide) i hi,
    ushiftRight_and_piece streamName 48 6 (by decide) i hi]
theorem applyFwdDstMask_updates (id : StreamId) (fwdDst : BitVec 32) :
    Updates or 6 7 0 id (applyFwdDstMask id fwdDst) fwdDst := by
  refine Updates.append 2 5 (Updates.or_piece 0 0 2 (by decide) (by decide) ?_)
    (Updates.or_piece 1 3 5 (by decide) (by decide) ?_)
  · exact or_absorb 0 2 (fun i hi => intOfChar_getLsbD id[0] hi)
      (intOfChar_and_keep 0 2 id[0] (by decide)) (fwdDst_upper fwdDst)
  · rw [BitVec.or_comm ((fwdDst &&& 0x1F) <<< 3)]
    exact or_absorb 3 5 (fun i hi => intOfChar_getLsbD _ hi)
      (intOfChar_and_keep 3 5 _ (by decide))
      (and_shiftLeft_piece fwdDst 3 5 (by decide) rfl (by decide))

theorem applyDeviceIdMask_updates (id : StreamId) (deviceId : BitVec 32) :
    Updates or 13 7 0 id (applyDeviceIdMask id deviceId) deviceId := by
  refine Updates.append 3 4 (Updates.or_piece 1 0 3 (by decide) (by decide) ?_)
    (Updates.or_piece 2 4 4 (by decide) (by decide) ?_)
  · exact or_absorb 0 3 (fun i hi => intOfChar_getLsbD id[1] hi)
      (intOfChar_and_keep 0 3 id[1] (by decide)) (deviceId_upper deviceId)
  · rw [BitVec.or_comm ((deviceId &&& 0x0F) <<< 4)]
    exact or_absorb 4 4 (fun i hi => intOfChar_getLsbD _ hi)
      (intOfChar_and_keep 4 4 _ (by decide))
      (and_shiftLeft_piece deviceId 4 4 (by decide) rfl (by decide))

theorem applyStreamPathMask_updates (id : StreamId) (streamPath : BitVec 64) :
    Updates or 20 54 0 id (applyStreamPathMask id streamPath) streamPath := by
  refine Updates.append 52 2 (Updates.append 44 8 (Updates.append 36 8
    (Updates.append 28 8 (Updates.append 20 8 (Updates.append 12 8
    (Updates.append 4 8 (Updates.or_piece 2 0 4 (by decide) (by decide) ?_)
    (or_byte _ streamPath 42 3 (by decide)))
    (or_byte _ streamPath 34 4 (by decide)))
    (or_byte _ streamPath 26 5 (by decide)))
    (or_byte _ streamPath 18 6 (by decide)))
    (or_byte _ streamPath 10 7 (by decide)))
    (or_byte _ streamPath 2 8 (by decide)))
    (Updates.or_piece 9 6 2 (by decide) (by decide) ?_)
  · exact or_absorb 0 4 (fun i hi => u64OfChar_getLsbD id[2] hi)
      (u64OfInt_and_keep 0 4 id[2] (by decide))
      (ushiftRight_and_piece streamPath 50 4 (by decide))
  · rw [BitVec.or_comm ((streamPath &&& 0x03) <<< 6)]
    exact or_absorb 6 2 (fun i hi => u64OfChar_getLsbD _ hi)
      (u64OfInt_and_keep 6 2 _ (by decide))
      (and_shiftLeft_piece streamPath 6 2 (by decide) rfl (by decide))

theorem applyStreamNameMask_updates (id : StreamId) (streamName : BitVec 64) :
    Updates or 74 54 0 id (applyStreamNameMask id streamName) streamName := by
  refine Updates.append 46 8 (Updates.append 38 8 (Updates.append 30 8
    (Updates.append 22 8 (Updates.append 14 8 (Updates.append 6 8
    (Updates.or_piece 9 0 6 (by decide) (by decide) ?_)
    (or_byte _ streamName 40 10 (by decide)))
    (or_byte _ streamName 32 11 (by decide)))
    (or_byte _ streamName 24 12 (by decide)))
    (or_byte _ streamName 16 13 (by decide)))
    (or_byte _ streamName 8 14 (by decide))) (or_last_byte _ streamName)
  exact or_absorb 0 6 (fun i hi => u64OfChar_getLsbD id[9] hi)
    (u64OfInt_and_keep 0 6 id[9] (by decide))
    (ushiftRight_and_piece streamName 48 6 (by decide))
/-! ## The five fields as one family -/

/-- The fields of `struct jrtc_router_stream_id_int`. -/
inductive Field where
  | ver | fwdDst | deviceId | streamPath | streamName
  deriving DecidableEq, Repr

namespace Field

/-- Offset of a field, in bits from the start of the id. -/
def lo : Field → Nat
  | ver => 0
  | fwdDst => 6
  | deviceId => 13
  | streamPath => 20
  | streamName => 74

/-- Width of a field in bits. -/
def width : Field → Nat
  | ver => 6
  | fwdDst => 7
  | deviceId => 7
  | streamPath => 54
  | streamName => 54

/-- Width of the accessors' argument: `uint16_t` or `uint64_t`. -/
def argWidth : Field → Nat
  | ver => 16
  | fwdDst => 16
  | deviceId => 16
  | streamPath => 64
  | streamName => 64

/-- Positions, inside the field, of the sign bits of the whole bytes that its
    getter casts to `uint64_t`. -/
def signBits : Field → List Nat
  | ver => []
  | fwdDst => []
  | deviceId => []
  | streamPath => [9, 17, 25, 33, 41, 49]
  | streamName => [7, 15, 23, 31, 39, 47]

theorem lo_add_width_le (f : Field) : f.lo + f.width ≤ 8 * 16 := by
  cases f <;> decide

theorem width_le_argWidth (f : Field) : f.width < f.argWidth := by
  cases f <;> decide

theorem signBits_lt (f : Field) : ∀ p ∈ f.signBits, p < f.width := by
  cases f <;> decide

/-- Different fields do not overlap. -/
theorem disjoint (f g : Field) (h : g ≠ f) :
    g.lo + g.width ≤ f.lo ∨ f.lo + f.width ≤ g.lo := by
  revert h
  cases f <;> cases g <;> decide

end Field

/-- The value of a field: its bits read as an unsigned number. -/
def field (f : Field) (id : StreamId) : BitVec f.width := slice id f.lo f.width

/-- The setter of each field. -/
def setField : (f : Field) → StreamId → BitVec f.argWidth → StreamId
  | .ver => setVer
  | .fwdDst => setFwdDst
  | .deviceId => setDeviceId
  | .streamPath => setStreamPath
  | .streamName => setStreamName

/-- The getter of each field. -/
def getField : (f : Field) → StreamId → BitVec f.argWidth
  | .ver => getVer
  | .fwdDst => getFwdDst
  | .deviceId => getDeviceId
  | .streamPath => getStreamPath
  | .streamName => getStreamName

/-- The `uint16_t` argument is promoted to `int` before it is written. -/
theorem updates_of_promoted {f : Bool → Bool → Bool} {lo w : Nat}
    {id id' : StreamId} {v : BitVec 16} (hw : w ≤ 16)
    (h : Updates f lo w 0 id id' (v.setWidth 32)) :
    Updates f lo w 0 id id' v := by
  refine h.congr_value ?_
  intro i hi
  rw [BitVec.getLsbD_setWidth, decide_eq_true (show 0 + i < 32 by omega),
    Bool.true_and]

/-- **EVERY SETTER IS A FIELD UPDATE**, whatever the bytes and the argument. -/
theorem setField_updates (f : Field) (id : StreamId) (v : BitVec f.argWidth) :
    Updates overwrite f.lo f.width 0 id (setField f id v) v := by
  cases f with
  | ver => exact updates_of_promoted (by decide) (idSetVer_updates id _)
  | fwdDst => exact updates_of_promoted (by decide) (idSetFwdDst_updates id _)
  | deviceId => exact updates_of_promoted (by decide) (idSetDeviceId_updates id _)
  | streamPath => exact idSetStreamPath_updates id v
  | streamName => exact idSetStreamName_updates id v

/-- Setting a field stores the argument modulo `2 ^ width`. -/
theorem field_setField (f : Field) (id : StreamId) (v : BitVec f.argWidth) :
    field f (setField f id v) = v.setWidth f.width :=
  slice_overwrite (setField_updates f id v) f.lo_add_width_le

/-- Setting a field leaves the others alone. -/
theorem field_setField_ne {f g : Field} (h : g ≠ f) (id : StreamId)
    (v : BitVec f.argWidth) : field g (setField f id v) = field g id :=
  (setField_updates f id v).slice_disjoint g.lo_add_width_le (f.disjoint g h)

/-! ## What the getters read -/

theorem field_getLsbD (f : Field) (id : StreamId) {i : Nat} (hi : i < f.width) :
    (field f id).getLsbD i = bitAt id (f.lo + (f.width - 1 - i)) :=
  slice_getLsbD id f.lo hi

/-- A field bit inside byte `j`. -/
theorem field_getLsbD_byte (f : Field) (id : StreamId) {i : Nat} (j b : Nat)
    (hi : i < f.width) (hj : j < 16) (hb : b < 8)
    (he : f.lo + (f.width - 1 - i) = 8 * j + (7 - b)) :
    (field f id).getLsbD i = id[j].getLsbD b := by
  rw [field_getLsbD f id hi, he, bitAt_byte id hj hb]

/-- A field split over two bytes, assembled in an `int`: `u` bits from the end
    of the first byte, then `t` bits from the start of the second. -/
theorem two_bytes_getLsbD (a b : BitVec 8) {hiMask loMask : BitVec 32}
    (u t r : Nat) (hr : r + t = 8) (hu : u + t ≤ 8)
    (hhi : ∀ i, i < 16 → hiMask.getLsbD i = decide (i < u))
    (hlo : ∀ i, i < 16 → loMask.getLsbD i = decide (i < t))
    {i : Nat} (hi : i < 16) :
    ((((intOfChar a &&& hiMask) <<< t)
        ||| ((intOfChar b).sshiftRight r &&& loMask)).setWidth 16).getLsbD i
      = if i < t then b.getLsbD (r + i)
        else if i < u + t then a.getLsbD (i - t) else false := by
  rw [BitVec.getLsbD_setWidth, decide_eq_true hi, Bool.true_and,
    BitVec.getLsbD_or, BitVec.getLsbD_and, BitVec.getLsbD_shiftLeft,
    BitVec.getLsbD_and, hlo i hi, hhi (i - t) (by omega),
    decide_eq_true (show i < 32 by omega), Bool.true_and]
  by_cases hit : i < t
  · rw [if_pos hit, sshiftRight_getLsbD _ (by omega) (by omega),
      intOfChar_getLsbD b (by omega), decide_eq_true hit]
    simp
  · rw [if_neg hit, decide_eq_false hit]
    by_cases hiu : i < u + t
    · rw [if_pos hiu, intOfChar_getLsbD a (by omega),
        decide_eq_true (show i - t < u by omega)]
      simp
    · rw [if_neg hiu, decide_eq_false (show ¬ i - t < u by omega)]
      simp

theorem getVer_getLsbD (id : StreamId) {i : Nat} (hi : i < 16) :
    (getVer id).getLsbD i
      = (decide (i < 6) && (field .ver id).getLsbD i) := by
  have hmask : ∀ i, i < 16 → (0x3F#32).getLsbD i = decide (i < 6) := by decide
  have hm := hmask i hi
  rw [getVer, BitVec.getLsbD_setWidth, decide_eq_true hi, Bool.true_and,
    BitVec.getLsbD_and]
  by_cases h6 : i < 6
  · rw [sshiftRight_getLsbD _ (by decide) (by omega),
      intOfChar_getLsbD _ (by omega),
      field_getLsbD_byte .ver id 0 (2 + i) h6 (by decide) (by omega)
        (by simp only [Field.lo, Field.width]; omega), Bool.and_comm]
    exact congrArg (· && _) hm
  · rw [decide_eq_false h6, Bool.false_and]
    rw [decide_eq_false h6] at hm
    exact (congrArg (_ && ·) hm).trans (Bool.and_false _)

theorem getFwdDst_getLsbD (id : StreamId) {i : Nat} (hi : i < 16) :
    (getFwdDst id).getLsbD i
      = (decide (i < 7) && (field .fwdDst id).getLsbD i) := by
  rw [getFwdDst, two_bytes_getLsbD _ _ 2 5 3 rfl (by decide) (by decide)
    (by decide) hi]
  by_cases h5 : i < 5
  · rw [if_pos h5, decide_eq_true (show i < 7 by omega), Bool.true_and,
      field_getLsbD_byte .fwdDst id 1 (3 + i) (show i < 7 by omega) (by decide)
        (by omega) (by simp only [Field.lo, Field.width]; omega)]
  · rw [if_neg h5]
    by_cases h7 : i < 2 + 5
    · rw [if_pos h7, decide_eq_true (show i < 7 by omega), Bool.true_and,
        field_getLsbD_byte .fwdDst id 0 (i - 5) h7 (by decide)
          (by omega) (by simp only [Field.lo, Field.width]; omega)]
    · rw [if_neg h7, decide_eq_false (show ¬ i < 7 by omega), Bool.false_and]

theorem getDeviceId_getLsbD (id : StreamId) {i : Nat} (hi : i < 16) :
    (getDeviceId id).getLsbD i
      = (decide (i < 7) && (field .deviceId id).getLsbD i) := by
  rw [getDeviceId, two_bytes_getLsbD _ _ 3 4 4 rfl (by decide) (by decide)
    (by decide) hi]
  by_cases h4 : i < 4
  · rw [if_pos h4, decide_eq_true (show i < 7 by omega), Bool.true_and,
      field_getLsbD_byte .deviceId id 2 (4 + i) (show i < 7 by omega) (by decide)
        (by omega) (by simp only [Field.lo, Field.width]; omega)]
  · rw [if_neg h4]
    by_cases h7 : i < 3 + 4
    · rw [if_pos h7, decide_eq_true (show i < 7 by omega), Bool.true_and,
        field_getLsbD_byte .deviceId id 1 (i - 4) h7 (by decide)
          (by omega) (by simp only [Field.lo, Field.width]; omega)]
    · rw [if_neg h7, decide_eq_false (show ¬ i < 7 by omega), Bool.false_and]

/-- **THE SMEAR**: a sign-extended byte moved up by `t` contributes its own
    eight bits and then copies of its sign bit all the way up. -/
theorem u64OfChar_shiftLeft_getLsbD (id : StreamId) (j t e : Nat) {i : Nat}
    (hj : j < 16) (he : 8 * j + 7 + t = e) (hi : i < 64) :
    (u64OfChar id[j] <<< t).getLsbD i
      = ((decide (t ≤ i ∧ i < t + 8) && bitAt id (e - i))
        || (decide (t + 7 ≤ i) && bitAt id (e - (t + 7)))) := by
  have hsign : bitAt id (e - (t + 7)) = id[j].msb := by
    rw [show e - (t + 7) = 8 * j + (7 - 7) by omega,
      bitAt_byte id hj (by decide)]
    rfl
  rw [BitVec.getLsbD_shiftLeft, decide_eq_true hi, Bool.true_and, u64OfChar,
    BitVec.getLsbD_signExtend, decide_eq_true (show i - t < 64 by omega),
    Bool.true_and, hsign]
  by_cases hlow : i < t
  · simp [hlow, show ¬ t ≤ i by omega, show ¬ t + 7 ≤ i by omega]
  · by_cases hin : i < t + 8
    · have hb : bitAt id (e - i) = id[j].getLsbD (i - t) := by
        rw [show e - i = 8 * j + (7 - (i - t)) by omega,
          bitAt_byte id hj (by omega)]
      rw [if_pos (by omega), hb]
      by_cases h7 : i = t + 7
      · subst h7
        rw [show t + 7 - t = 7 by omega]
        simp [BitVec.msb_eq_getLsbD_last]
      · simp [hlow, show t ≤ i by omega, hin, show ¬ t + 7 ≤ i by omega]
    · rw [if_neg (by omega)]
      simp [hlow, show t ≤ i by omega, hin, show t + 7 ≤ i by omega]

/-- The first, partial byte of a long field is masked before it is moved. -/
theorem u64OfChar_and_shiftLeft_getLsbD (id : StreamId) (j t e u : Nat)
    (mask : BitVec 64) {i : Nat} (hj : j < 16) (he : 8 * j + 7 + t = e)
    (hu : u ≤ 8) (hmask : ∀ i, i < 64 → mask.getLsbD i = decide (i < u))
    (hi : i < 64) :
    ((u64OfChar id[j] &&& mask) <<< t).getLsbD i
      = (decide (t ≤ i ∧ i < t + u) && bitAt id (e - i)) := by
  rw [BitVec.getLsbD_shiftLeft, decide_eq_true hi, Bool.true_and,
    BitVec.getLsbD_and, hmask _ (by omega)]
  by_cases hin : t ≤ i ∧ i < t + u
  · rw [u64OfChar_getLsbD _ (by omega), decide_eq_true hin,
      show e - i = 8 * j + (7 - (i - t)) by omega, bitAt_byte id hj (by omega)]
    simp [show ¬ i < t by omega, show i - t < u by omega]
  · rw [decide_eq_false hin]
    by_cases hlow : i < t
    · simp [hlow]
    · simp [show ¬ i - t < u by omega]

/-- The last, partial byte of the path. -/
theorem u64OfChar_and_shiftRight_getLsbD (id : StreamId) {i : Nat}
    (hi : i < 64) : ((u64OfChar id[9] &&& 0xC0) >>> 6).getLsbD i
      = (decide (i < 2) && bitAt id (73 - i)) := by
  have hmask : ∀ i, i < 64 → (0xC0#64).getLsbD (6 + i) = decide (i < 2) := by
    decide
  have hm := hmask i hi
  rw [BitVec.getLsbD_ushiftRight, BitVec.getLsbD_and]
  by_cases h2 : i < 2
  · rw [u64OfChar_getLsbD _ (show 6 + i < 8 by omega),
      show 73 - i = 8 * 9 + (7 - (6 + i)) by omega,
      bitAt_byte id (by decide) (by omega), Bool.and_comm]
    exact congrArg (· && _) hm
  · rw [decide_eq_false h2] at hm ⊢
    exact (congrArg (_ && ·) hm).trans (Bool.and_false _)

/-- The path getter reads the field, OR-ed with every sign smear. -/
theorem getStreamPath_getLsbD (id : StreamId) {i : Nat} (hi : i < 64) :
    (getStreamPath id).getLsbD i = ((decide (i < 54) && bitAt id (73 - i))
      || Field.streamPath.signBits.any
        fun p => decide (p ≤ i) && bitAt id (73 - p)) := by
  rw [getStreamPath]
  simp only [BitVec.getLsbD_or,
    u64OfChar_and_shiftLeft_getLsbD id 2 50 73 4 0x0F (by decide) rfl (by decide)
      (by decide) hi,
    u64OfChar_shiftLeft_getLsbD id 3 42 73 (by decide) rfl hi,
    u64OfChar_shiftLeft_getLsbD id 4 34 73 (by decide) rfl hi,
    u64OfChar_shiftLeft_getLsbD id 5 26 73 (by decide) rfl hi,
    u64OfChar_shiftLeft_getLsbD id 6 18 73 (by decide) rfl hi,
    u64OfChar_shiftLeft_getLsbD id 7 10 73 (by decide) rfl hi,
    u64OfChar_shiftLeft_getLsbD id 8 2 73 (by decide) rfl hi,
    u64OfChar_and_shiftRight_getLsbD id hi]
  rw [Bool.eq_iff_iff]
  simp only [Field.signBits, List.any_cons, List.any_nil, Bool.or_eq_true,
    Bool.and_eq_true, decide_eq_true_eq, Bool.or_false]
  grind

theorem u64OfInt_intOfChar (c : BitVec 8) :
    u64OfInt (intOfChar c) = u64OfChar c := by
  revert c
  decide

/-- The name getter reads the field, OR-ed with every sign smear. -/
theorem getStreamName_getLsbD (id : StreamId) {i : Nat} (hi : i < 64) :
    (getStreamName id).getLsbD i = ((decide (i < 54) && bitAt id (127 - i))
      || Field.streamName.signBits.any
        fun p => decide (p ≤ i) && bitAt id (127 - p)) := by
  have h15 := u64OfChar_shiftLeft_getLsbD id 15 0 127 (by decide) rfl hi
  rw [BitVec.shiftLeft_zero] at h15
  rw [getStreamName, u64OfInt_intOfChar]
  simp only [BitVec.getLsbD_or, h15,
    u64OfChar_and_shiftLeft_getLsbD id 9 48 127 6 0x3F (by decide) rfl (by decide)
      (by decide) hi,
    u64OfChar_shiftLeft_getLsbD id 10 40 127 (by decide) rfl hi,
    u64OfChar_shiftLeft_getLsbD id 11 32 127 (by decide) rfl hi,
    u64OfChar_shiftLeft_getLsbD id 12 24 127 (by decide) rfl hi,
    u64OfChar_shiftLeft_getLsbD id 13 16 127 (by decide) rfl hi,
    u64OfChar_shiftLeft_getLsbD id 14 8 127 (by decide) rfl hi]
  rw [Bool.eq_iff_iff]
  simp only [Field.signBits, List.any_cons, List.any_nil, Bool.or_eq_true,
    Bool.and_eq_true, decide_eq_true_eq, Bool.or_false]
  grind

/-- A field of a smeared value only looks at bits inside the field. -/
theorem smear_congr (f : Field) (i : Nat) (x y : Nat → Bool)
    (h : ∀ p, p < f.width → x p = y p) :
    ((decide (i < f.width) && x i) || f.signBits.any fun p => decide (p ≤ i) && x p)
      = ((decide (i < f.width) && y i)
        || f.signBits.any fun p => decide (p ≤ i) && y p) := by
  have hfield : (decide (i < f.width) && x i) = (decide (i < f.width) && y i) := by
    by_cases hi : i < f.width
    · rw [h i hi]
    · rw [decide_eq_false hi, Bool.false_and, Bool.false_and]
  have hsign : f.signBits.any (fun p => decide (p ≤ i) && x p)
      = f.signBits.any fun p => decide (p ≤ i) && y p := by
    rw [Bool.eq_iff_iff, List.any_eq_true, List.any_eq_true]
    constructor
    · rintro ⟨p, hp, hx⟩
      rw [h p (f.signBits_lt p hp)] at hx
      exact ⟨p, hp, hx⟩
    · rintro ⟨p, hp, hy⟩
      rw [← h p (f.signBits_lt p hp)] at hy
      exact ⟨p, hp, hy⟩
  rw [hfield, hsign]

/-- **WHAT A GETTER RETURNS**: the field, OR-ed with ones from every set sign
    bit upward. -/
theorem getField_getLsbD (f : Field) (id : StreamId) {i : Nat}
    (hi : i < f.argWidth) : (getField f id).getLsbD i
      = ((decide (i < f.width) && (field f id).getLsbD i)
        || f.signBits.any fun p => decide (p ≤ i) && (field f id).getLsbD p) := by
  cases f with
  | ver => exact (getVer_getLsbD id hi).trans (Bool.or_false _).symm
  | fwdDst => exact (getFwdDst_getLsbD id hi).trans (Bool.or_false _).symm
  | deviceId => exact (getDeviceId_getLsbD id hi).trans (Bool.or_false _).symm
  | streamPath =>
      refine (getStreamPath_getLsbD id hi).trans (smear_congr .streamPath i
        (fun p => bitAt id (73 - p)) (field .streamPath id).getLsbD ?_)
      intro p hp
      rw [field_getLsbD .streamPath id hp]
      congr 1
      simp only [Field.lo, Field.width] at hp ⊢
      omega
  | streamName =>
      refine (getStreamName_getLsbD id hi).trans (smear_congr .streamName i
        (fun p => bitAt id (127 - p)) (field .streamName id).getLsbD ?_)
      intro p hp
      rw [field_getLsbD .streamName id hp]
      congr 1
      simp only [Field.lo, Field.width] at hp ⊢
      omega

/-! ## The record laws -/

/-- What a lawful record accessor satisfies at one id and one argument: reading
    back what was set gives it modulo the field width, the other getters do not
    move, and writing a getter's own value back changes no byte. -/
structure RecordLaws (f : Field) (id : StreamId) (v : BitVec f.argWidth) :
    Prop where
  get_set : (getField f (setField f id v)).toNat = v.toNat % 2 ^ f.width
  get_set_other : ∀ g, g ≠ f → getField g (setField f id v) = getField g id
  set_get : setField f id (getField f id) = id

/-- No sign bit of the getter's whole bytes is set in the argument. -/
def SignBitsClear (f : Field) (v : BitVec f.argWidth) : Prop :=
  ∀ p ∈ f.signBits, v.getLsbD p = false

/-- Wherever a sign bit is set in the id's own field, every higher bit of the
    field is set as well. -/
def SignBitsFilled (f : Field) (id : StreamId) : Prop :=
  ∀ p ∈ f.signBits, (field f id).getLsbD p = true →
    ∀ i, p ≤ i → i < f.width → (field f id).getLsbD i = true

/-- Getters only depend on the field. -/
theorem getField_congr (f : Field) {id id' : StreamId}
    (h : field f id' = field f id) : getField f id' = getField f id := by
  apply BitVec.eq_of_getLsbD_eq
  intro i hi
  rw [getField_getLsbD f id' hi, getField_getLsbD f id hi, h]

/-- Reading back a value is exact iff none of its sign bits is set: a set one
    also sets bit `width`, which the value modulo `2 ^ width` does not have. -/
theorem get_set_iff (f : Field) (id : StreamId) (v : BitVec f.argWidth) :
    (getField f (setField f id v)).toNat = v.toNat % 2 ^ f.width
      ↔ SignBitsClear f v := by
  have hbit : ∀ p, p < f.width → (field f (setField f id v)).getLsbD p
      = v.getLsbD p := by
    intro p hp
    rw [field_setField, BitVec.getLsbD_setWidth, decide_eq_true hp,
      Bool.true_and]
  constructor
  · intro hget p hp
    cases hv : v.getLsbD p with
    | false => rfl
    | true =>
        exfalso
        have htop : (getField f (setField f id v)).getLsbD f.width = true := by
          rw [getField_getLsbD f _ f.width_le_argWidth, Bool.or_eq_true]
          refine Or.inr (List.any_eq_true.mpr ⟨p, hp, ?_⟩)
          rw [hbit p (f.signBits_lt p hp), hv, Bool.and_true]
          exact decide_eq_true (Nat.le_of_lt (f.signBits_lt p hp))
        have hmod := hget ▸ Nat.mod_lt v.toNat (Nat.two_pow_pos f.width)
        rw [BitVec.getLsbD, Nat.testBit_lt_two_pow hmod] at htop
        exact Bool.noConfusion htop
  · intro hclear
    have hval : getField f (setField f id v)
        = (v.setWidth f.width).setWidth f.argWidth := by
      apply BitVec.eq_of_getLsbD_eq
      intro i hi
      have hnone : (f.signBits.any fun p => decide (p ≤ i)
          && (field f (setField f id v)).getLsbD p) = false := by
        rw [List.any_eq_false]
        intro p hp
        rw [hbit p (f.signBits_lt p hp), hclear p hp, Bool.and_false]
        exact Bool.false_ne_true
      rw [getField_getLsbD f _ hi, hnone, Bool.or_false, field_setField]
      simp [BitVec.getLsbD_setWidth, hi]
    rw [hval, BitVec.toNat_setWidth, BitVec.toNat_setWidth]
    refine Nat.mod_eq_of_lt ?_
    calc v.toNat % 2 ^ f.width < 2 ^ f.width := Nat.mod_lt _ (Nat.two_pow_pos _)
      _ ≤ 2 ^ f.argWidth :=
          Nat.pow_le_pow_right (by decide) (Nat.le_of_lt f.width_le_argWidth)

/-- Writing a getter's value back is harmless iff the smear falls on bits that
    were ones already. -/
theorem set_get_iff (f : Field) (id : StreamId) :
    setField f id (getField f id) = id ↔ SignBitsFilled f id := by
  rw [overwrite_eq_self_iff (setField_updates f id (getField f id))
    f.lo_add_width_le]
  have hget : ∀ i, i < f.width → (getField f id).getLsbD i
      = ((field f id).getLsbD i
        || f.signBits.any fun p => decide (p ≤ i) && (field f id).getLsbD p) := by
    intro i hi
    rw [getField_getLsbD f id (Nat.lt_trans hi f.width_le_argWidth),
      decide_eq_true hi, Bool.true_and]
  constructor
  · intro hback p hp hbit i hpi hi
    have hi' := hback i hi
    rw [hget i hi] at hi'
    rw [field, ← hi', Bool.or_eq_true]
    refine Or.inr (List.any_eq_true.mpr ⟨p, hp, ?_⟩)
    rw [hbit, Bool.and_true]
    exact decide_eq_true hpi
  · intro hfill i hi
    rw [hget i hi]
    cases hb : (field f id).getLsbD i with
    | true => exact hb.symm
    | false =>
        rw [Bool.false_or, ← field, hb, List.any_eq_false]
        intro p hp hsmear
        rw [Bool.and_eq_true, decide_eq_true_eq] at hsmear
        have := hfill p hp hsmear.2 i hsmear.1 hi
        rw [hb] at this
        exact Bool.noConfusion this

/-- **WHEN THE ACCESSORS ARE LAWFUL.**  The laws hold at an id and an argument
    exactly when the argument has no sign bit set and the id's own field is
    filled above each of its sign bits; for the three short fields there are no
    sign bits and the laws always hold. -/
theorem recordLaws_iff (f : Field) (id : StreamId) (v : BitVec f.argWidth) :
    RecordLaws f id v ↔ SignBitsClear f v ∧ SignBitsFilled f id := by
  constructor
  · intro h
    exact ⟨(get_set_iff f id v).mp h.get_set, (set_get_iff f id).mp h.set_get⟩
  · rintro ⟨hclear, hfill⟩
    refine ⟨(get_set_iff f id v).mpr hclear, ?_, (set_get_iff f id).mpr hfill⟩
    intro g hg
    exact getField_congr g (field_setField_ne hg id v)

/-- A path hash whose byte 3 is `0x80` does not survive the round trip. -/
theorem streamPath_reads_back_smeared :
    ¬ ∀ (f : Field) (id : StreamId) (v : BitVec f.argWidth),
      RecordLaws f id v := by
  intro h
  have hlaw := (h .streamPath (Vector.replicate 16 0) 0x2000000000000).get_set
  revert hlaw
  decide

/-! ## Clearing fields

    `StreamID.Format` of the Go bindings works on the same bytes, unsigned. -/

/-- `StreamIDFormatConfig`: the fields to clear. -/
structure StreamIDFormatConfig where
  clearVersion               : Bool
  clearForwardingDestination : Bool
  clearDeviceID              : Bool
  clearStreamPath            : Bool
  clearStreamName            : Bool

def clearVersion (s : StreamId) : StreamId := s.set 0 (s[0] &&& 0x03)

def clearForwardingDestination (s : StreamId) : StreamId :=
  let s := s.set 0 (s[0] &&& 0xFC)
  s.set 1 (s[1] &&& 0x07)

def clearDeviceID (s : StreamId) : StreamId :=
  let s := s.set 1 (s[1] &&& 0xF8)
  s.set 2 (s[2] &&& 0x0F)

def clearStreamPath (s : StreamId) : StreamId :=
  let s := s.set 2 (s[2] &&& 0xF0)
  let s := ((((s.set 3 0).set 4 0).set 5 0).set 6 0).set 7 0
  let s := s.set 8 (s[8] &&& 0)
  s.set 9 (s[9] &&& 0x3F)

def clearStreamName (s : StreamId) : StreamId :=
  let s := s.set 9 (s[9] &&& 0xC0)
  (((((s.set 10 0).set 11 0).set 12 0).set 13 0).set 14 0).set 15 0

/-- `StreamID.Format`. -/
def format (req : StreamIDFormatConfig) (s : StreamId) : StreamId :=
  let s := if req.clearVersion then clearVersion s else s
  let s := if req.clearForwardingDestination then clearForwardingDestination s else s
  let s := if req.clearDeviceID then clearDeviceID s else s
  let s := if req.clearStreamPath then clearStreamPath s else s
  if req.clearStreamName then clearStreamName s else s

/-- Whether `Format` is asked to clear a field. -/
def StreamIDFormatConfig.clears (req : StreamIDFormatConfig) : Field → Bool
  | .ver => req.clearVersion
  | .fwdDst => req.clearForwardingDestination
  | .deviceId => req.clearDeviceID
  | .streamPath => req.clearStreamPath
  | .streamName => req.clearStreamName

/-- An `&=` that clears a piece of a byte. -/
theorem and_piece (x : BitVec 8) (p len : Nat) {mask : BitVec 8}
    (hmask : ∀ i, i < 8 → mask.getLsbD i = !inPiece p len i) :
    ∀ i, i < 8 → (x &&& mask).getLsbD i = (x.getLsbD i && !inPiece p len i) := by
  intro i hi
  rw [BitVec.getLsbD_and, hmask i hi]

/-- A byte set to zero. -/
theorem zero_piece (x : BitVec 8) :
    ∀ i, i < 8 → (0 : BitVec 8).getLsbD i = (x.getLsbD i && !inPiece 0 8 i) := by
  intro i hi
  have hin : inPiece 0 8 i = true := decide_eq_true (by omega)
  rw [hin, Bool.not_true, Bool.and_false]
  exact BitVec.getLsbD_zero

theorem clearVersion_updates (s : StreamId) :
    Updates overwrite 0 6 0 s (clearVersion s) (0#64) :=
  Updates.clear_piece 0 2 6 (by decide) (by decide) (and_piece _ 2 6 (by decide))

theorem clearForwardingDestination_updates (s : StreamId) :
    Updates overwrite 6 7 0 s (clearForwardingDestination s) (0#64) :=
  Updates.append 2 5
    (Updates.clear_piece 0 0 2 (by decide) (by decide) (and_piece _ 0 2 (by decide)))
    (Updates.clear_piece 1 3 5 (by decide) (by decide) (and_piece _ 3 5 (by decide)))

theorem clearDeviceID_updates (s : StreamId) :
    Updates overwrite 13 7 0 s (clearDeviceID s) (0#64) :=
  Updates.append 3 4
    (Updates.clear_piece 1 0 3 (by decide) (by decide) (and_piece _ 0 3 (by decide)))
    (Updates.clear_piece 2 4 4 (by decide) (by decide) (and_piece _ 4 4 (by decide)))

theorem clear_byte (s : StreamId) (j b : Nat) (hj : j < 16) :
    Updates overwrite (8 * j) 8 b s (s.set j 0) (0#64) :=
  Updates.clear_piece j 0 8 hj (by decide) (zero_piece _)

theorem clearStreamPath_updates (s : StreamId) :
    Updates overwrite 20 54 0 s (clearStreamPath s) (0#64) :=
  Updates.append 52 2 (Updates.append 44 8 (Updates.append 36 8
    (Updates.append 28 8 (Updates.append 20 8 (Updates.append 12 8
    (Updates.append 4 8
      (Updates.clear_piece 2 0 4 (by decide) (by decide) (and_piece _ 0 4 (by decide)))
    (clear_byte _ 3 42 (by decide)))
    (clear_byte _ 4 34 (by decide)))
    (clear_byte _ 5 26 (by decide)))
    (clear_byte _ 6 18 (by decide)))
    (clear_byte _ 7 10 (by decide)))
    (Updates.clear_piece 8 0 8 (by decide) (by decide) (and_piece _ 0 8 (by decide))))
    (Updates.clear_piece 9 6 2 (by decide) (by decide) (and_piece _ 6 2 (by decide)))

theorem clearStreamName_updates (s : StreamId) :
    Updates overwrite 74 54 0 s (clearStreamName s) (0#64) :=
  Updates.append 46 8 (Updates.append 38 8 (Updates.append 30 8
    (Updates.append 22 8 (Updates.append 14 8 (Updates.append 6 8
    (Updates.clear_piece 9 0 6 (by decide) (by decide) (and_piece _ 0 6 (by decide)))
    (clear_byte _ 10 40 (by decide)))
    (clear_byte _ 11 32 (by decide)))
    (clear_byte _ 12 24 (by decide)))
    (clear_byte _ 13 16 (by decide)))
    (clear_byte _ 14 8 (by decide))) (clear_byte _ 15 0 (by decide))

/-- The part of `Format` for each field. -/
def clearField : Field → StreamId → StreamId
  | .ver => clearVersion
  | .fwdDst => clearForwardingDestination
  | .deviceId => clearDeviceID
  | .streamPath => clearStreamPath
  | .streamName => clearStreamName

theorem clearField_updates (f : Field) (s : StreamId) :
    Updates overwrite f.lo f.width 0 s (clearField f s) (0#64) := by
  cases f with
  | ver => exact clearVersion_updates s
  | fwdDst => exact clearForwardingDestination_updates s
  | deviceId => exact clearDeviceID_updates s
  | streamPath => exact clearStreamPath_updates s
  | streamName => exact clearStreamName_updates s

/-- One part of `Format`, taken or not. -/
def clearIf (c : Bool) (f : Field) (s : StreamId) : StreamId :=
  if c then clearField f s else s

theorem field_clearIf (c : Bool) (f g : Field) (s : StreamId) :
    field g (clearIf c f s) = if c && decide (g = f) then 0 else field g s := by
  cases c with
  | false => rfl
  | true =>
      show field g (clearField f s) = _
      rw [Bool.true_and]
      by_cases hg : g = f
      · subst hg
        rw [if_pos (decide_eq_true rfl), field,
          slice_overwrite (clearField_updates g s) g.lo_add_width_le]
        exact BitVec.setWidth_zero ..
      · rw [if_neg (by simpa using hg)]
        exact (clearField_updates f s).slice_disjoint g.lo_add_width_le (f.disjoint g hg)

theorem format_eq_clearIf (req : StreamIDFormatConfig) (s : StreamId) :
    format req s = clearIf req.clearStreamName .streamName
      (clearIf req.clearStreamPath .streamPath (clearIf req.clearDeviceID .deviceId
        (clearIf req.clearForwardingDestination .fwdDst
          (clearIf req.clearVersion .ver s)))) := rfl

/-- **FORMAT** clears the fields it is asked to clear and keeps the others. -/
theorem field_format (req : StreamIDFormatConfig) (s : StreamId) (f : Field) :
    field f (format req s) = if req.clears f then 0 else field f s := by
  rw [format_eq_clearIf]
  rw [field_clearIf, field_clearIf, field_clearIf, field_clearIf, field_clearIf]
  cases f <;> simp only [reduceCtorEq, decide_true, decide_false, Bool.and_true,
    Bool.and_false, Bool.false_eq_true, if_false] <;> rfl

end JrtcStreamId
