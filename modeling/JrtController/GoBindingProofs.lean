import JrtController.CodeletSetProofs

/-! # The Go bindings of the stream ids

    `router_stream_id.go` reads the packed record with shifts and masks of its own, on
    unsigned bytes, and never through the C getters.

    * `one_byte_eq_field`, `two_bytes_eq_field` — a byte of a result, taken from one
      byte of the id or put together from two;
    * `getVersion_eq` … `getNameBytes_eq` — each getter returns its field, a path or a
      name as big-endian bytes;
    * `field_applySetters` — the fields after the C setters, called in any order;
    * `bindings_agree` — the getters return what the setters packed, `Format` clears the
      fields it is asked to as the getters see them, and the key of the decoder's store
      depends on path and name alone. -/

namespace JrtcGoBinding

open PackedBits JrtcStreamId JrtcRouterLookup JrtcCodeletSet

/-! ## The getters -/

def getVersion (s : StreamId) : BitVec 8 := (s[0]! >>> 2) &&& 0x3F

def getForwardingDestination (s : StreamId) : BitVec 8 :=
  ((s[0]! &&& 0x03) <<< 5) ||| ((s[1]! >>> 3) &&& 0x1F)

def getDeviceID (s : StreamId) : BitVec 8 :=
  ((s[1]! &&& 0x07) <<< 4) ||| ((s[2]! >>> 4) &&& 0x0F)

/-- `GetStreamPath`. -/
def getPathBytes (s : StreamId) : List (BitVec 8) :=
  [(s[2]! &&& 0x0F) <<< 2 ||| s[3]! >>> 6, s[3]! <<< 2 ||| s[4]! >>> 6,
   s[4]! <<< 2 ||| s[5]! >>> 6, s[5]! <<< 2 ||| s[6]! >>> 6, s[6]! <<< 2 ||| s[7]! >>> 6,
   s[7]! <<< 2 ||| s[8]! >>> 6, s[8]! <<< 2 ||| s[9]! >>> 6]

/-- `GetStreamName`. -/
def getNameBytes (s : StreamId) : List (BitVec 8) :=
  [s[9]! &&& 0x3F, s[10]!, s[11]!, s[12]!, s[13]!, s[14]!, s[15]!]

/-- A number as seven bytes, the most significant first. -/
def bigEndian (v : BitVec 54) : List (BitVec 8) :=
  [48, 40, 32, 24, 16, 8, 0].map fun e => (v >>> e).setWidth 8

/-! ## What a byte of a result is made of -/

theorem and_mask {mask : BitVec 8} {t : Nat}
    (hmask : ∀ i, i < 8 → mask.getLsbD i = decide (i < t)) (x : BitVec 8) {i : Nat}
    (hi : i < 8) : (x &&& mask).getLsbD i = (decide (i < t) && x.getLsbD i) := by
  rw [BitVec.getLsbD_and, hmask i hi, Bool.and_comm]

/-- **A BYTE FROM ONE BYTE**: the `t` bits of byte `j` from its bit `r` on. -/
theorem one_byte_eq_field (f : Field) (s : StreamId) (j r t e : Nat) {x : BitVec 8}
    (hj : j < 16) (hr : r + t ≤ 8)
    (hx : ∀ i, i < 8 → x.getLsbD i = (decide (i < t) && s[j].getLsbD (r + i)))
    (hpos : f.lo + f.width + r = 8 * j + 8 + e) (hin : e + t ≤ f.width)
    (hend : t = 8 ∨ e + t = f.width) : x = (field f s >>> e).setWidth 8 := by
  refine BitVec.eq_of_getLsbD_eq fun i hi => ?_
  rw [hx i hi, BitVec.getLsbD_setWidth, decide_eq_true hi, Bool.true_and,
    BitVec.getLsbD_ushiftRight]
  by_cases hit : i < t
  · rw [decide_eq_true hit, Bool.true_and,
      field_getLsbD_byte f s j (r + i) (by omega) hj (by omega) (by omega)]
  · rw [decide_eq_false hit, Bool.false_and, BitVec.getLsbD_of_ge _ _ (by omega)]

/-- **A BYTE FROM TWO BYTES**: the last `u` bits of byte `j`, then the first `t` bits of
    the next. -/
theorem two_bytes_eq_field (f : Field) (s : StreamId) (j u t e : Nat) {x y : BitVec 8}
    (hj : j + 1 < 16) (hu : u + t ≤ 8)
    (hx : ∀ i, i + t < 8 → x.getLsbD i = (decide (i < u) && s[j].getLsbD i))
    (hy : ∀ i, i < 8 → y.getLsbD i = (decide (i < t) && s[j + 1].getLsbD (8 - t + i)))
    (hpos : f.lo + f.width = 8 * j + 8 + t + e) (hin : e + (u + t) ≤ f.width)
    (hend : u + t = 8 ∨ e + (u + t) = f.width) :
    x <<< t ||| y = (field f s >>> e).setWidth 8 := by
  refine BitVec.eq_of_getLsbD_eq fun i hi => ?_
  rw [BitVec.getLsbD_or, BitVec.getLsbD_shiftLeft, hy i hi, BitVec.getLsbD_setWidth,
    decide_eq_true hi, Bool.true_and, Bool.true_and, BitVec.getLsbD_ushiftRight]
  by_cases hit : i < t
  · rw [decide_eq_true hit,
      field_getLsbD_byte f s (j + 1) (8 - t + i) (by omega) hj (by omega) (by omega)]
    simp
  · rw [decide_eq_false hit, hx (i - t) (by omega)]
    by_cases hiu : i < u + t
    · rw [decide_eq_true (show i - t < u by omega),
        field_getLsbD_byte f s j (i - t) (by omega) (by omega) (by omega) (by omega)]
      simp
    · rw [decide_eq_false (show ¬ i - t < u by omega),
        BitVec.getLsbD_of_ge (field f s) (e + i) (by omega)]
      simp

theorem ushiftRight_getLsbD (x : BitVec 8) (t : Nat) (ht : t ≤ 8) (i : Nat) :
    (x >>> (8 - t)).getLsbD i = (decide (i < t) && x.getLsbD (8 - t + i)) := by
  rw [BitVec.getLsbD_ushiftRight]
  by_cases hit : i < t
  · rw [decide_eq_true hit, Bool.true_and]
  · rw [decide_eq_false hit, Bool.false_and, BitVec.getLsbD_of_ge _ _ (by omega)]

theorem ushiftRight_and_mask {mask : BitVec 8} {t : Nat}
    (hmask : ∀ i, i < 8 → mask.getLsbD i = decide (i < t)) (x : BitVec 8) (r : Nat) {i : Nat}
    (hi : i < 8) : (x >>> r &&& mask).getLsbD i = (decide (i < t) && x.getLsbD (r + i)) := by
  rw [and_mask hmask _ hi, BitVec.getLsbD_ushiftRight]

/-! ## The getters return the fields -/

theorem getVersion_eq (s : StreamId) : getVersion s = (field .ver s).setWidth 8 :=
  one_byte_eq_field .ver s 0 2 6 0 (by decide) (by decide)
    (fun _ hi => ushiftRight_and_mask (by decide) _ 2 hi) (by decide) (by decide) (by decide)

theorem getForwardingDestination_eq (s : StreamId) :
    getForwardingDestination s = (field .fwdDst s).setWidth 8 :=
  two_bytes_eq_field .fwdDst s 0 2 5 0 (by decide) (by decide)
    (fun _ hi => and_mask (by decide) _ (by omega))
    (fun _ hi => ushiftRight_and_mask (by decide) _ 3 hi) (by decide) (by decide) (by decide)

theorem getDeviceID_eq (s : StreamId) : getDeviceID s = (field .deviceId s).setWidth 8 :=
  two_bytes_eq_field .deviceId s 1 3 4 0 (by decide) (by decide)
    (fun _ hi => and_mask (by decide) _ (by omega))
    (fun _ hi => ushiftRight_and_mask (by decide) _ 4 hi) (by decide) (by decide) (by decide)

theorem getPathBytes_eq (s : StreamId) : getPathBytes s = bigEndian (field .streamPath s) := by
  -- the first byte takes four bits of byte 2, the others six of the byte before
  have hfirst : (s[2] &&& 0x0F) <<< 2 ||| s[3] >>> 6
      = (field .streamPath s >>> 48).setWidth 8 :=
    two_bytes_eq_field .streamPath s 2 4 2 48 (by decide) (by decide)
      (fun _ hi => and_mask (by decide) _ (by omega))
      (fun i _ => ushiftRight_getLsbD _ 2 (by decide) i) (by decide) (by decide) (by decide)
  have hbyte : ∀ (j : Nat) (hj : j + 1 < 16), 3 ≤ j → j ≤ 8 → s[j] <<< 2 ||| s[j + 1] >>> 6
      = (field .streamPath s >>> (64 - 8 * j)).setWidth 8 := by
    intro j hj hlo hhi
    refine two_bytes_eq_field .streamPath s j 6 2 (64 - 8 * j) hj (by decide) ?_
      (fun i _ => ushiftRight_getLsbD _ 2 (by decide) i) ?_ ?_ (Or.inl rfl)
    · intro i hi
      rw [decide_eq_true (show i < 6 by omega), Bool.true_and]
    · show 20 + 54 = _
      omega
    · show _ ≤ 54
      omega
  simp only [getPathBytes, bigEndian, List.map_cons, List.map_nil, List.cons.injEq]
  exact ⟨hfirst, hbyte 3 (by decide) (by decide) (by decide),
    hbyte 4 (by decide) (by decide) (by decide), hbyte 5 (by decide) (by decide) (by decide),
    hbyte 6 (by decide) (by decide) (by decide), hbyte 7 (by decide) (by decide) (by decide),
    hbyte 8 (by decide) (by decide) (by decide), trivial⟩

theorem getNameBytes_eq (s : StreamId) : getNameBytes s = bigEndian (field .streamName s) := by
  have hfirst : s[9] &&& 0x3F = (field .streamName s >>> 48).setWidth 8 :=
    one_byte_eq_field .streamName s 9 0 6 48 (by decide) (by decide)
      (fun i hi => by rw [and_mask (t := 6) (by decide) _ hi, Nat.zero_add])
      (by decide) (by decide) (by decide)
  have hbyte : ∀ (j : Nat) (hj : j < 16), 10 ≤ j → s[j]
      = (field .streamName s >>> (120 - 8 * j)).setWidth 8 := by
    intro j hj hlo
    refine one_byte_eq_field .streamName s j 0 8 (120 - 8 * j) hj (by decide) ?_ ?_ ?_
      (Or.inl rfl)
    · intro i hi
      rw [decide_eq_true hi, Bool.true_and, Nat.zero_add]
    · show 74 + 54 + 0 = _
      omega
    · show _ ≤ 54
      omega
  simp only [getNameBytes, bigEndian, List.map_cons, List.map_nil, List.cons.injEq]
  exact ⟨hfirst, hbyte 10 (by decide) (by decide), hbyte 11 (by decide) (by decide),
    hbyte 12 (by decide) (by decide), hbyte 13 (by decide) (by decide),
    hbyte 14 (by decide) (by decide), hbyte 15 (by decide) (by decide), trivial⟩

/-- What the five getters return. -/
structure GoFields where
  version               : BitVec 8
  forwardingDestination : BitVec 8
  deviceID              : BitVec 8
  streamPath            : List (BitVec 8)
  streamName            : List (BitVec 8)
  deriving DecidableEq

def goFields (s : StreamId) : GoFields :=
  ⟨getVersion s, getForwardingDestination s, getDeviceID s, getPathBytes s, getNameBytes s⟩

/-- The values of a record, as Go has them. -/
def goValues (sid : StreamIdInt) : GoFields :=
  ⟨sid.ver.setWidth 8, sid.fwdDst.setWidth 8, sid.deviceId.setWidth 8,
    bigEndian sid.streamPath, bigEndian sid.streamName⟩

/-- **THE GETTERS** return the fields, whatever the bytes of the id. -/
theorem goFields_eq (s : StreamId) : goFields s
    = goValues ⟨field .ver s, field .fwdDst s, field .deviceId s, field .streamPath s,
        field .streamName s⟩ := by
  rw [goFields, goValues, getVersion_eq, getForwardingDestination_eq, getDeviceID_eq,
    getPathBytes_eq, getNameBytes_eq]
  rfl

/-! ## The setters -/

/-- A call of one of the C setters. -/
abbrev SetterCall := (f : Field) × BitVec f.argWidth

def applySetters (id : StreamId) (calls : List SetterCall) : StreamId :=
  calls.foldl (fun id c => setField c.1 id c.2) id

/-- The calls that pack a record. -/
def setterCalls (sid : StreamIdInt) : List SetterCall :=
  [⟨.ver, sid.ver.setWidth 16⟩, ⟨.fwdDst, sid.fwdDst.setWidth 16⟩,
   ⟨.deviceId, sid.deviceId.setWidth 16⟩, ⟨.streamPath, sid.streamPath.setWidth 64⟩,
   ⟨.streamName, sid.streamName.setWidth 64⟩]

theorem field_applySetters_of_not_mem {calls : List SetterCall} {f : Field}
    (hf : f ∉ calls.map Sigma.fst) (id : StreamId) :
    field f (applySetters id calls) = field f id := by
  induction calls generalizing id with
  | nil => rfl
  | cons c calls ih =>
      rw [List.map_cons, List.mem_cons, not_or] at hf
      show field f (applySetters (setField c.1 id c.2) calls) = _
      rw [ih hf.2, field_setField_ne hf.1]

/-- **THE SETTERS**, in any order: a field that was set once holds what it was set to. -/
theorem field_applySetters {calls : List SetterCall} (hnodup : (calls.map Sigma.fst).Nodup)
    {f : Field} {v : BitVec f.argWidth} (hmem : ⟨f, v⟩ ∈ calls) (id : StreamId) :
    field f (applySetters id calls) = v.setWidth f.width := by
  induction calls generalizing id with
  | nil => exact (List.not_mem_nil hmem).elim
  | cons c calls ih =>
      rw [List.map_cons, List.nodup_cons] at hnodup
      show field f (applySetters (setField c.1 id c.2) calls) = _
      rcases List.mem_cons.mp hmem with rfl | hmem
      · rw [field_applySetters_of_not_mem hnodup.1, field_setField]
      · exact ih hnodup.2 hmem _

theorem goFields_applySetters (id : StreamId) {sid : StreamIdInt} {calls : List SetterCall}
    (hcalls : calls.Perm (setterCalls sid)) :
    goFields (applySetters id calls) = goValues sid := by
  have hnodup : (calls.map Sigma.fst).Nodup :=
    (hcalls.map Sigma.fst).nodup_iff.mpr
      (by decide : [Field.ver, .fwdDst, .deviceId, .streamPath, .streamName].Nodup)
  -- an argument was widened from its field
  have hfield : ∀ {f : Field} {v : BitVec f.width},
      ⟨f, v.setWidth f.argWidth⟩ ∈ setterCalls sid → field f (applySetters id calls) = v := by
    intro f v hmem
    rw [field_applySetters hnodup (hcalls.mem_iff.mpr hmem),
      BitVec.setWidth_setWidth_of_le v f.width_le_argWidth.le, BitVec.setWidth_eq]
  have hver : field .ver (applySetters id calls) = sid.ver := hfield List.mem_cons_self
  have hdst : field .fwdDst (applySetters id calls) = sid.fwdDst :=
    hfield (List.mem_cons_of_mem _ List.mem_cons_self)
  have hdev : field .deviceId (applySetters id calls) = sid.deviceId :=
    hfield (List.mem_cons_of_mem _ (List.mem_cons_of_mem _ List.mem_cons_self))
  have hpath : field .streamPath (applySetters id calls) = sid.streamPath :=
    hfield (List.mem_cons_of_mem _ (List.mem_cons_of_mem _
      (List.mem_cons_of_mem _ List.mem_cons_self)))
  have hname : field .streamName (applySetters id calls) = sid.streamName :=
    hfield (List.mem_cons_of_mem _ (List.mem_cons_of_mem _
      (List.mem_cons_of_mem _ (List.mem_cons_of_mem _ List.mem_cons_self))))
  rw [goFields_eq, hver, hdst, hdev, hpath, hname]

/-! ## `Format` and the key of the store -/

/-- The fields with those a request names set to zero. -/
def GoFields.cleared (req : StreamIDFormatConfig) (g : GoFields) : GoFields where
  version := if req.clearVersion then 0 else g.version
  forwardingDestination :=
    if req.clearForwardingDestination then 0 else g.forwardingDestination
  deviceID := if req.clearDeviceID then 0 else g.deviceID
  streamPath := if req.clearStreamPath then List.replicate 7 0 else g.streamPath
  streamName := if req.clearStreamName then List.replicate 7 0 else g.streamName

theorem goFields_format (req : StreamIDFormatConfig) (s : StreamId) :
    goFields (format req s) = (goFields s).cleared req := by
  rw [goFields_eq, goFields_eq, field_format, field_format, field_format, field_format,
    field_format]
  simp only [goValues, GoFields.cleared, StreamIDFormatConfig.clears, GoFields.mk.injEq]
  exact ⟨apply_ite (fun v : BitVec 6 => v.setWidth 8) _ _ _,
    apply_ite (fun v : BitVec 7 => v.setWidth 8) _ _ _,
    apply_ite (fun v : BitVec 7 => v.setWidth 8) _ _ _, apply_ite bigEndian _ _ _,
    apply_ite bigEndian _ _ _⟩

/-- The key of the decoder's store as text; `uuidString` is the text of an id. -/
def streamToSchemaKey (uuidString : StreamId → String) (s : StreamId) : String :=
  "streamToSchema/" ++ uuidString (streamKey s)

/-- **THE BINDINGS AGREE** with the packed record: the getters return what the setters
    packed in any order into any bytes, `Format` clears for them the fields it is asked
    to, and two ids have one key iff path and name are equal. -/
theorem bindings_agree (uuidString : StreamId → String)
    (hinj : Function.Injective uuidString) :
    (∀ (id : StreamId) (sid : StreamIdInt) (calls : List SetterCall),
        calls.Perm (setterCalls sid) → goFields (applySetters id calls) = goValues sid)
      ∧ (∀ (req : StreamIDFormatConfig) (s : StreamId),
        goFields (format req s) = (goFields s).cleared req)
      ∧ ∀ s s' : StreamId, streamToSchemaKey uuidString s = streamToSchemaKey uuidString s'
        ↔ field .streamPath s = field .streamPath s'
          ∧ field .streamName s = field .streamName s' := by
  refine ⟨fun id sid calls h => goFields_applySetters id h, goFields_format, fun s s' => ?_⟩
  exact (String.append_right_inj _).trans (hinj.eq_iff.trans (streamKey_eq_iff s s'))

/-- The bytes of an id as characters. -/
def byteText (s : StreamId) : String :=
  String.ofList (s.toList.map fun b => Char.ofNat b.toNat)

theorem byteText_injective : Function.Injective byteText := by
  have hchar : Function.Injective fun b : BitVec 8 => Char.ofNat b.toNat := by
    have hleft : ∀ b : BitVec 8, BitVec.ofNat 8 (Char.ofNat b.toNat).toNat = b := by decide
    exact Function.LeftInverse.injective (g := fun c : Char => BitVec.ofNat 8 c.toNat) hleft
  intro s s' h
  exact Vector.toList_inj.mp (List.map_injective_iff.mpr hchar (String.ofList_injective h))

theorem bindings_agree_packed :
    goFields (applySetters (Vector.replicate 16 0xFF) (setterCalls ⟨1, 2, 3, 4, 5⟩))
      = goValues ⟨1, 2, 3, 4, 5⟩ :=
  (bindings_agree byteText byteText_injective).1 _ _ _ (List.Perm.refl _)

end JrtcGoBinding
