import JrtController.WordBitsProofs
import JrtController.CodeletSetProofs

/-! # The hashes of a stream id

    A stream id carries a path and a name as numbers of 54 bits, taken from a Bloom
    filter to which the text was added with 38 hash functions.  Here the filter is as
    the code has it: `MurmurHash64A` over the bytes in memory, the bitmap of 32-bit
    words, and the iterator whose `has_next` and `next` each scan on their own.

    * `murmurHash64A_ok`, `murmurHash64A_faults` — the hash reads inside the text unless
      its length, converted to `int`, is -8 or less;
    * `bitOf_bfAdd` — the positions an element sets;
    * `getLsbD_extractBits` — the iterator delivers every position, so that the cut-off
      never drops one;
    * `getHash_spec`, `getHash_eq_codeletSet` — the number, in terms of the hash
      functions, and as the codelet sets use it;
    * `hash_meets_iff` — for which texts the number and the id are as they should be. -/

namespace JrtcStreamHash

open PackedBits Loops WordBits JrtcStreamId JrtcRouterLookup
open JrtcCodeletSet (Bytes packId hashNumberBits numHashFunctions field_packId_streamPath
  field_packId_streamName)

/-! ## Texts in memory -/

/-- A text without its terminating NUL. -/
structure CString where
  bytes : Bytes
  noNul : 0 ∉ bytes

/-- The bytes that can be read through a pointer to the text. -/
def CString.mem (s : CString) : Bytes := s.bytes ++ [0]

def strlen (mem : Bytes) : Nat := mem.findIdx (· = 0)

theorem strlen_mem (s : CString) : strlen s.mem = s.bytes.length := by
  have hnone : ∀ b ∈ s.bytes, ¬ decide (b = 0) = true := by
    intro b hb hb0
    exact s.noNul (of_decide_eq_true hb0 ▸ hb)
  have hidx : s.bytes.findIdx (fun b => decide (b = 0)) = s.bytes.length :=
    List.findIdx_eq_length.mpr fun b hb => Bool.eq_false_iff.mpr (hnone b hb)
  rw [strlen, CString.mem, List.findIdx_append, hidx, if_neg (lt_irrefl _)]
  exact Nat.zero_add _

/-- What becomes of a read through a pointer that has left its object. -/
inductive MemFault where
  | readOutside
  deriving DecidableEq, Repr

def readByte (mem : Bytes) (i : Nat) : Except MemFault (BitVec 8) :=
  match mem[i]? with
  | some b => .ok b
  | none => .error .readOutside

/-! ## `MurmurHash64A` -/

/-- The multiplier `m`. -/
def murmurMultiplier : BitVec 64 := 0xc6a4a7935bd1e995

/-- The bytes of a `uint64_t`, least significant first. -/
def leWord (bytes : Bytes) : BitVec 64 :=
  bytes.foldr (fun b acc => acc <<< 8 ||| b.setWidth 64) 0

/-- The body of the loop over the blocks. -/
def mixBlock (h k : BitVec 64) : BitVec 64 :=
  let k := k * murmurMultiplier
  let k := k ^^^ k >>> 47
  let k := k * murmurMultiplier
  (h ^^^ k) * murmurMultiplier

/-- The loop `while (data != end)`, where `end` is `toGo` blocks from `data`.  An `end`
    before `data` is never met. -/
def mixBlocks (toGo : Int) (h : BitVec 64) (data : Bytes) : Except MemFault (BitVec 64 × Bytes) :=
  if toGo = 0 then .ok (h, data)
  else match data with
    | b₀ :: b₁ :: b₂ :: b₃ :: b₄ :: b₅ :: b₆ :: b₇ :: data =>
        mixBlocks (toGo - 1) (mixBlock h (leWord [b₀, b₁, b₂, b₃, b₄, b₅, b₆, b₇])) data
    | _ => .error .readOutside

/-- The `switch` on the number of bytes left, whose cases fall through from the last
    byte to the first. -/
def mixTail (h : BitVec 64) (data2 : Bytes) (left : Nat) : Except MemFault (BitVec 64) := do
  let h ← (List.range left).reverse.foldlM
    (fun h i => do
      let b ← readByte data2 i
      pure (h ^^^ b.setWidth 64 <<< (8 * i))) h
  pure (if left = 0 then h else h * murmurMultiplier)

def murmurHash64A (key : Bytes) (len : BitVec 32) (seed : BitVec 64) :
    Except MemFault (BitVec 64) := do
  let h := seed ^^^ (len.signExtend 64 * murmurMultiplier)
  let (h, data2) ← mixBlocks (len.toInt.tdiv 8) h key
  let h ← mixTail h data2 (len &&& 7).toNat
  let h := h ^^^ h >>> 47
  let h := h * murmurMultiplier
  pure (h ^^^ h >>> 47)

theorem mixBlocks_ok {n : Nat} {data : Bytes} (hn : 8 * n ≤ data.length) (h : BitVec 64) :
    ∃ h', mixBlocks n h data = .ok (h', data.drop (8 * n)) := by
  induction n generalizing h data with
  | zero =>
      refine ⟨h, ?_⟩
      rw [mixBlocks.eq_def, if_pos Nat.cast_zero]
      rfl
  | succ n ih =>
      match data, hn with
      | b₀ :: b₁ :: b₂ :: b₃ :: b₄ :: b₅ :: b₆ :: b₇ :: data, hn =>
          have hlen : 8 * n ≤ data.length := by
            simp only [List.length_cons] at hn
            omega
          obtain ⟨h', hrest⟩ := ih hlen
            (mixBlock h (leWord [b₀, b₁, b₂, b₃, b₄, b₅, b₆, b₇]))
          refine ⟨h', ?_⟩
          rw [mixBlocks, if_neg (by omega), show ((n + 1 : Nat) : Int) - 1 = n by omega, hrest,
            Nat.mul_succ]
          rfl

theorem mixBlocks_faults {toGo : Int} (hneg : toGo < 0) (h : BitVec 64) (data : Bytes) :
    mixBlocks toGo h data = .error .readOutside := by
  fun_induction mixBlocks toGo h data with
  | case1 => omega
  | case2 toGo h hne b₀ b₁ b₂ b₃ b₄ b₅ b₆ b₇ data ih => exact ih (by omega)
  | case3 => rfl

theorem mixTail_ok {data2 : Bytes} {left : Nat} (hleft : left ≤ data2.length)
    (h : BitVec 64) : ∃ h', mixTail h data2 left = .ok h' := by
  obtain ⟨h₁, hfold⟩ := exists_foldlM_eq_ok (l := (List.range left).reverse)
    (f := fun h i => do
      let b ← readByte data2 i
      pure (h ^^^ b.setWidth 64 <<< (8 * i)))
    (fun i hi h => by
      have hlt : i < data2.length :=
        lt_of_lt_of_le (List.mem_range.mp (List.mem_reverse.mp hi)) hleft
      rw [readByte, List.getElem?_eq_getElem hlt]
      exact ⟨_, rfl⟩) h
  exact ⟨_, bind_eq_ok_iff.mpr ⟨h₁, hfold, rfl⟩⟩

theorem and_seven (len : BitVec 32) : (len &&& 7).toNat = len.toNat % 8 := by
  rw [BitVec.toNat_and]
  exact Nat.and_two_pow_sub_one_eq_mod len.toNat 3

theorem tdiv_eight_of_neg {a : Int} (ha : a < 0) : a.tdiv 8 = -(-a / 8) := by
  rw [← Int.tdiv_eq_ediv_of_nonneg (by omega), Int.neg_tdiv, neg_neg]

/-- **THE HASH RETURNS** if its length is above -8 and the text has as many bytes. -/
theorem murmurHash64A_ok {key : Bytes} {n : Nat} (hn : n ≤ key.length)
    (hlen : -8 < (BitVec.ofNat 32 n).toInt) (seed : BitVec 64) :
    ∃ v, murmurHash64A key (BitVec.ofNat 32 n) seed = .ok v := by
  obtain ⟨k, hblocks, hk⟩ : ∃ k : Nat, (BitVec.ofNat 32 n).toInt.tdiv 8 = k
      ∧ 8 * k + (BitVec.ofNat 32 n).toNat % 8 ≤ key.length := by
    have htoNat : (BitVec.ofNat 32 n).toNat = n % 2 ^ 32 := BitVec.toNat_ofNat n 32
    rw [BitVec.toInt_eq_toNat_cond] at hlen ⊢
    by_cases hpos : 2 * (BitVec.ofNat 32 n).toNat < 2 ^ 32
    · rw [if_pos hpos, Int.natCast_tdiv_eq_ediv]
      exact ⟨(BitVec.ofNat 32 n).toNat / 8, by omega, by omega⟩
    · -- a length of -7 to -1: no block, and up to seven bytes of the text
      rw [if_neg hpos] at hlen ⊢
      rw [tdiv_eight_of_neg (by omega)]
      exact ⟨0, by omega, by omega⟩
  have hroom : 8 * k ≤ key.length := by omega
  have hleft : (BitVec.ofNat 32 n &&& 7).toNat ≤ (key.drop (8 * k)).length := by
    rw [and_seven, List.length_drop]
    omega
  obtain ⟨h₁, h₁eq⟩ := mixBlocks_ok hroom
    (seed ^^^ ((BitVec.ofNat 32 n).signExtend 64 * murmurMultiplier))
  obtain ⟨h₂, h₂eq⟩ := mixTail_ok hleft h₁
  exact ⟨_, bind_eq_ok_iff.mpr ⟨_, hblocks ▸ h₁eq, bind_eq_ok_iff.mpr ⟨h₂, h₂eq, rfl⟩⟩⟩

/-- **THE HASH LEAVES THE TEXT** if its length is -8 or less. -/
theorem murmurHash64A_faults {len : BitVec 32} (hlen : len.toInt ≤ -8) (key : Bytes)
    (seed : BitVec 64) : murmurHash64A key len seed = .error .readOutside := by
  have hneg : len.toInt.tdiv 8 < 0 := by
    rw [tdiv_eight_of_neg (by omega)]
    omega
  rw [murmurHash64A, mixBlocks_faults hneg]
  rfl

/-! ## The bitmap -/

/-- `jrtc_router_bitmap_t`. -/
structure Bitmap where
  size  : Nat
  data  : List (BitVec 32)
  words : data.length = (size + 31) / 32

/-- `jrtc_router_bitmap_create`; `alloc` is whether both allocations succeed. -/
def bitmapCreate (alloc : Bool) (size : Nat) : Option Bitmap :=
  if alloc then some ⟨size, List.replicate ((size + 31) / 32) 0, List.length_replicate⟩
  else none

def bitmapSet (bitmap : Bitmap) (index : Nat) : Bitmap :=
  if index < bitmap.size then
    { bitmap with
      data := orBit bitmap.data index
      words := (length_orBit bitmap.data index).trans bitmap.words }
  else bitmap

def bitmapGet (bitmap : Bitmap) (index : Nat) : Int :=
  if index < bitmap.size then
    if bitmap.data.getD (index / 32) 0 &&& 1#32 <<< (index % 32) ≠ 0 then 1 else 0
  else -1

@[simp] theorem bitmapSet_size (bitmap : Bitmap) (index : Nat) :
    (bitmapSet bitmap index).size = bitmap.size := by
  rw [bitmapSet]
  split <;> rfl

theorem bitOf_bitmapSet {bitmap : Bitmap} {i : Nat} (hi : i < bitmap.size) (j : Nat) :
    bitOf (bitmapSet bitmap i).data j = (bitOf bitmap.data j || decide (j = i)) := by
  have hword : i / 32 < bitmap.data.length := by
    rw [bitmap.words]
    omega
  rw [bitmapSet, if_pos hi]
  exact bitOf_orBit (by decide) hword j

theorem bitmapGet_ne_zero_iff {bitmap : Bitmap} {i : Nat} (hi : i < bitmap.size) :
    bitmapGet bitmap i ≠ 0 ↔ bitOf bitmap.data i = true := by
  have hmask := and_one_shiftLeft_ne_zero_iff (bitmap.data.getD (i / 32) 0)
    (Nat.mod_lt i (by decide : 0 < 32))
  rw [bitmapGet, if_pos hi, bitOf, ← hmask]
  by_cases h : bitmap.data.getD (i / 32) 0 &&& 1#32 <<< (i % 32) ≠ 0
  · rw [if_pos h]
    exact iff_of_true one_ne_zero h
  · rw [if_neg h]
    exact iff_of_false (fun h0 => h0 rfl) h

/-! ## The iterator -/

/-- `jrtc_router_bitmap_iterator_t`. -/
structure BitmapIterator where
  bitmap : Bitmap
  index  : Nat

/-- The loop of `has_next`, which runs on a copy of the iterator. -/
def hasNextLoop (bitmap : Bitmap) : Nat → Nat → Bool
  | 0, _ => false
  | left + 1, index =>
      if bitmapGet bitmap index ≠ 0 then true else hasNextLoop bitmap left (index + 1)

def iteratorHasNext (iter : BitmapIterator) : Bool :=
  hasNextLoop iter.bitmap (iter.bitmap.size - iter.index) iter.index

/-- The loop of `next`: what is returned, and the index afterwards. -/
def nextLoop (bitmap : Bitmap) : Nat → Nat → Nat × Nat
  | 0, index => (2 ^ 32 - 1, index)
  | left + 1, index =>
      if bitmapGet bitmap index ≠ 0 then (index, index + 1)
      else nextLoop bitmap left (index + 1)

def iteratorNext (iter : BitmapIterator) : Nat × BitmapIterator :=
  let r := nextLoop iter.bitmap (iter.bitmap.size - iter.index) iter.index
  (r.1, { iter with index := r.2 })

/-- The test both loops make. -/
def isSet (bitmap : Bitmap) (i : Nat) : Bool := decide (bitmapGet bitmap i ≠ 0)

theorem hasNextLoop_eq (bitmap : Bitmap) (left index : Nat) :
    hasNextLoop bitmap left index = (firstFrom (isSet bitmap) left index).isSome := by
  induction left generalizing index with
  | zero => rfl
  | succ left ih =>
      rw [hasNextLoop, firstFrom, isSet]
      by_cases h : bitmapGet bitmap index ≠ 0
      · rw [if_pos h, if_pos (decide_eq_true h)]
        rfl
      · rw [if_neg h, if_neg (by rwa [decide_eq_true_iff]), ih]

theorem nextLoop_eq {bitmap : Bitmap} {left index j : Nat}
    (h : firstFrom (isSet bitmap) left index = some j) :
    nextLoop bitmap left index = (j, j + 1) := by
  induction left generalizing index with
  | zero => cases h
  | succ left ih =>
      rw [firstFrom, isSet] at h
      rw [nextLoop]
      by_cases hget : bitmapGet bitmap index ≠ 0
      · rw [if_pos (decide_eq_true hget)] at h
        cases h
        rw [if_pos hget]
      · rw [if_neg (by rwa [decide_eq_true_iff])] at h
        rw [if_neg hget, ih h]

/-! ## The filter -/

/-- `jrtc_router_bf_t`. -/
structure Bf where
  bitmap  : Bitmap
  bitSize : Nat
  nHash   : Nat

def bfInit (alloc : Bool) (bitSize nHash : Nat) : Option Bf :=
  (bitmapCreate alloc bitSize).map fun bitmap => ⟨bitmap, bitSize, nHash⟩

/-- The position of a hash, as the `uint32_t` the bitmap is given. -/
def bfIndex (bitSize : Nat) (hash : BitVec 64) : Nat :=
  ((hash % BitVec.ofNat 64 bitSize).setWidth 32).toNat

/-- `jrtc_router_bf_add`.  The size arrives as a `size_t` and is passed on as an `int`. -/
def bfAdd (bf : Bf) (elem : Bytes) (elemSize : BitVec 64) : Except MemFault Bf :=
  (List.range bf.nHash).foldlM
    (fun bf' i => do
      let hash ← murmurHash64A elem (elemSize.setWidth 32) (BitVec.ofNat 64 i)
      pure { bf' with bitmap := bitmapSet bf'.bitmap (bfIndex bf.bitSize hash) }) bf

/-- The loop of `jrtc_router_bf_extract_bits`, which stops once `n_bits` bits were
    extracted; `left` is how many are still allowed. -/
def extractLoop : Nat → BitmapIterator → BitVec 64 → BitVec 64
  | 0, _, result => result
  | left + 1, iter, result =>
      if iteratorHasNext iter then
        extractLoop left (iteratorNext iter).2 (result ||| 1#64 <<< (iteratorNext iter).1)
      else result

def bfExtractBits (bf : Bf) (nBits : Nat) : BitVec 64 :=
  if nBits > 64 ∨ bf.bitSize < nBits then 0
  else extractLoop nBits ⟨bf.bitmap, 0⟩ 0

theorem bfIndex_eq {bitSize : Nat} (hpos : 0 < bitSize) (hsize : bitSize < 2 ^ 32)
    (hash : BitVec 64) : bfIndex bitSize hash = hash.toNat % bitSize := by
  have hlt : hash.toNat % bitSize < bitSize := Nat.mod_lt _ hpos
  rw [bfIndex, BitVec.toNat_setWidth, BitVec.toNat_umod, BitVec.toNat_ofNat,
    Nat.mod_eq_of_lt (by omega : bitSize < 2 ^ 64), Nat.mod_eq_of_lt (by omega)]

/-- **ADDING AN ELEMENT** sets the positions of its hashes. -/
theorem bitOf_bfAdd {bf bf' : Bf} {elem : Bytes} {elemSize : BitVec 64}
    (hsize : bf.bitmap.size = bf.bitSize) (hpos : 0 < bf.bitSize) (hlt : bf.bitSize < 2 ^ 32)
    (h : bfAdd bf elem elemSize = .ok bf') :
    bf'.bitSize = bf.bitSize ∧ bf'.bitmap.size = bf.bitmap.size
      ∧ ∀ j, bitOf bf'.bitmap.data j = true ↔ bitOf bf.bitmap.data j = true
        ∨ ∃ k < bf.nHash, ∃ v, murmurHash64A elem (elemSize.setWidth 32) (BitVec.ofNat 64 k)
          = .ok v ∧ v.toNat % bf.bitSize = j := by
  have hfold := foldlM_invariant (P := fun done bf' => bf'.bitSize = bf.bitSize
    ∧ bf'.bitmap.size = bf.bitmap.size
    ∧ ∀ j, bitOf bf'.bitmap.data j = true ↔ bitOf bf.bitmap.data j = true
      ∨ ∃ k ∈ done, ∃ v, murmurHash64A elem (elemSize.setWidth 32) (BitVec.ofNat 64 k) = .ok v
        ∧ v.toNat % bf.bitSize = j) h ⟨rfl, rfl, fun j => by simp⟩ ?_
  · obtain ⟨hbits, hbitmap, hset⟩ := hfold
    refine ⟨hbits, hbitmap, fun j => ?_⟩
    simp only [hset, List.mem_range]
  · rintro done k b b' ⟨hbits, hbitmap, hset⟩ hb
    obtain ⟨v, hv, hret⟩ := bind_eq_ok_iff.mp hb
    cases hret
    refine ⟨hbits, (bitmapSet_size _ _).trans hbitmap, fun j => ?_⟩
    have hin : bfIndex bf.bitSize v < b.bitmap.size := by
      rw [bfIndex_eq hpos hlt, hbitmap, hsize]
      exact Nat.mod_lt _ hpos
    show bitOf (bitmapSet b.bitmap (bfIndex bf.bitSize v)).data j = true ↔ _
    rw [bitOf_bitmapSet hin, bfIndex_eq hpos hlt, Bool.or_eq_true, decide_eq_true_iff, hset]
    constructor
    · rintro ((hold | ⟨k', hk', hhash⟩) | hnew)
      · exact Or.inl hold
      · exact Or.inr ⟨k', List.mem_append_left _ hk', hhash⟩
      · exact Or.inr ⟨k, List.mem_append_right _ List.mem_cons_self, v, hv, hnew.symm⟩
    · rintro (hold | ⟨k', hk', v', hv', hj⟩)
      · exact Or.inl (Or.inl hold)
      · rcases List.mem_append.mp hk' with hk' | hk'
        · exact Or.inl (Or.inr ⟨k', hk', v', hv', hj⟩)
        · rw [List.mem_singleton.mp hk', hv] at hv'
          cases hv'
          exact Or.inr hj.symm

/-- The extraction from an index on, with room for every position that is left. -/
theorem getLsbD_extractLoop {left : Nat} {iter : BitmapIterator} {result : BitVec 64}
    (hsize : iter.bitmap.size ≤ 64) (hroom : iter.bitmap.size - iter.index ≤ left) (i : Nat) :
    (extractLoop left iter result).getLsbD i = true ↔ result.getLsbD i = true
      ∨ (iter.index ≤ i ∧ i < iter.bitmap.size ∧ bitOf iter.bitmap.data i = true) := by
  have hset : ∀ k, k < iter.bitmap.size →
      (isSet iter.bitmap k = true ↔ bitOf iter.bitmap.data k = true) := fun k hk =>
    decide_eq_true_iff.trans (bitmapGet_ne_zero_iff hk)
  -- each turn takes one position off the room and at least one off the bitmap
  induction left generalizing iter result with
  | zero =>
      refine ⟨Or.inl, ?_⟩
      rintro (h | ⟨hle, hlt, -⟩)
      · exact h
      · omega
  | succ left ih =>
      rw [extractLoop, iteratorHasNext, hasNextLoop_eq]
      cases hnext : firstFrom (isSet iter.bitmap) (iter.bitmap.size - iter.index)
          iter.index with
      | none =>
          rw [if_neg (by simp)]
          refine ⟨Or.inl, ?_⟩
          rintro (h | ⟨hle, hlt, hbit⟩)
          · exact h
          · have hno := firstFrom_eq_none hnext i hle (by omega)
            rw [(hset i hlt).mpr hbit] at hno
            cases hno
      | some j =>
          obtain ⟨hle, hlt, hj, hmin⟩ := firstFrom_eq_some hnext
          rw [if_pos Option.isSome_some, iteratorNext, nextLoop_eq hnext]
          have hroom' : iter.bitmap.size - (j + 1) ≤ left := by omega
          refine (@ih ⟨iter.bitmap, j + 1⟩ (result ||| 1#64 <<< j) hsize hroom' hset).trans ?_
          rw [BitVec.getLsbD_or, Bool.or_eq_true,
            getLsbD_one_shiftLeft (by decide) (by omega), decide_eq_true_iff]
          show (_ ∨ _) ∨ (j + 1 ≤ i ∧ _) ↔ _
          constructor
          · rintro ((h | rfl) | ⟨hji, hi⟩)
            · exact Or.inl h
            · exact Or.inr ⟨hle, by omega, (hset i (by omega)).mp hj⟩
            · exact Or.inr ⟨by omega, hi⟩
          · rintro (h | ⟨hi, hisize, hbit⟩)
            · exact Or.inl (Or.inl h)
            · rcases lt_trichotomy i j with hij | hij | hij
              · have hno := hmin i hi hij
                rw [(hset i hisize).mpr hbit] at hno
                cases hno
              · exact Or.inl (Or.inr hij)
              · exact Or.inr ⟨hij, hisize, hbit⟩

/-- **THE EXTRACTED NUMBER** has the bits of the bitmap. -/
theorem getLsbD_extractBits {bf : Bf} (hsize : bf.bitmap.size = bf.bitSize)
    (h64 : bf.bitSize ≤ 64) (i : Nat) :
    (bfExtractBits bf bf.bitSize).getLsbD i = true
      ↔ i < bf.bitSize ∧ bitOf bf.bitmap.data i = true := by
  rw [bfExtractBits, if_neg (by omega),
    getLsbD_extractLoop (hsize.trans_le h64) (hsize.le : bf.bitmap.size - 0 ≤ bf.bitSize)]
  show (0#64).getLsbD i = true ∨ (0 ≤ i ∧ i < bf.bitmap.size ∧ _) ↔ _
  rw [BitVec.getLsbD_zero, hsize]
  simp

/-! ## `jrtc_router_get_hash` -/

/-- `jrtc_router_get_hash`; without memory for the bitmap it returns 0. -/
def getHash (alloc : Bool) (name : CString) : Except MemFault (BitVec 64) :=
  match bfInit alloc hashNumberBits numHashFunctions with
  | none => .ok 0
  | some bf => do
    let nameLen := BitVec.ofNat 32 (strlen name.mem)
    let bf ← bfAdd bf name.mem (nameLen.signExtend 64)
    pure (bfExtractBits bf hashNumberBits)

/-- The call of the hash function for one seed, on the length as an `int`. -/
def hashAt (name : CString) (seed : Nat) : Except MemFault (BitVec 64) :=
  murmurHash64A name.mem (BitVec.ofNat 32 (strlen name.mem)) (BitVec.ofNat 64 seed)

/-- The length of the text, as an `int`, is above -8; it is if the text has fewer than
    2^31 bytes. -/
def LengthHashes (name : CString) : Prop := -8 < (BitVec.ofNat 32 name.bytes.length).toInt

theorem hashAt_ok {name : CString} (h : LengthHashes name) (seed : Nat) :
    ∃ v, hashAt name seed = .ok v := by
  have hlen : strlen name.mem ≤ name.mem.length := List.findIdx_le_length
  refine murmurHash64A_ok hlen ?_ _
  rw [strlen_mem]
  exact h

theorem hashAt_faults {name : CString} (h : ¬ LengthHashes name) (seed : Nat) :
    hashAt name seed = .error .readOutside := by
  refine murmurHash64A_faults ?_ _ _
  rw [strlen_mem]
  exact not_lt.mp h

theorem setWidth_signExtend (x : BitVec 32) : (x.signExtend 64).setWidth 32 = x := by
  refine BitVec.eq_of_getLsbD_eq fun i hi => ?_
  rw [BitVec.getLsbD_setWidth, BitVec.getLsbD_signExtend]
  simp [hi, (by omega : i < 64)]

/-- The filter before the name is added. -/
def emptyFilter : Bf :=
  ⟨⟨hashNumberBits, List.replicate ((hashNumberBits + 31) / 32) 0, List.length_replicate⟩,
    hashNumberBits, numHashFunctions⟩

theorem getHash_eq (name : CString) : getHash true name
    = bfAdd emptyFilter name.mem ((BitVec.ofNat 32 (strlen name.mem)).signExtend 64)
        >>= fun bf => pure (bfExtractBits bf hashNumberBits) := rfl

/-- **THE HASH OF A TEXT** has the bits its hash functions choose. -/
theorem getHash_spec {name : CString} (h : LengthHashes name) :
    ∃ v, getHash true name = .ok v ∧ ∀ i, v.getLsbD i = true
      ↔ ∃ k < numHashFunctions, ∃ hash, hashAt name k = .ok hash
        ∧ hash.toNat % hashNumberBits = i := by
  obtain ⟨bf, hbf⟩ : ∃ bf, bfAdd emptyFilter name.mem
      ((BitVec.ofNat 32 (strlen name.mem)).signExtend 64) = .ok bf := by
    refine exists_foldlM_eq_ok (fun k _ bf' => ?_) emptyFilter
    obtain ⟨v, hv⟩ := hashAt_ok h k
    rw [setWidth_signExtend, show murmurHash64A name.mem _ _ = .ok v from hv]
    exact ⟨_, rfl⟩
  obtain ⟨hbits, hbitmap, hset⟩ := bitOf_bfAdd rfl (by decide) (by decide) hbf
  refine ⟨bfExtractBits bf hashNumberBits, ?_, fun i => ?_⟩
  · rw [getHash_eq, hbf]
    rfl
  · have hbits' : bf.bitSize = hashNumberBits := hbits
    have hempty : bitOf emptyFilter.bitmap.data i = false := bitOf_replicate _ i
    rw [← hbits', getLsbD_extractBits (hbitmap.trans hbits.symm)
      (by rw [hbits']; decide), hset, hempty, setWidth_signExtend]
    constructor
    · rintro ⟨-, hfalse | hhash⟩
      · cases hfalse
      · exact hbits ▸ hhash
    · rintro ⟨k, hk, hash, hv, rfl⟩
      refine ⟨Nat.mod_lt _ (by rw [hbits']; decide), Or.inr ⟨k, hk, hash, hv, ?_⟩⟩
      rw [hbits]

theorem getHash_faults {name : CString} (h : ¬ LengthHashes name) (v : BitVec 64) :
    getHash true name ≠ .ok v := by
  intro hv
  rw [getHash_eq] at hv
  obtain ⟨bf, hbf, -⟩ := bind_eq_ok_iff.mp hv
  -- the very first hash function does not return
  obtain ⟨bf₁, hfirst, -⟩ := bind_eq_ok_iff.mp hbf
  obtain ⟨hash, hhash, -⟩ := bind_eq_ok_iff.mp hfirst
  rw [setWidth_signExtend] at hhash
  cases hhash.symm.trans (hashAt_faults h 0)

theorem getLsbD_codeletSet_getHash (murmur : String → Nat → BitVec 64) (name : String)
    (i : Nat) : (JrtcCodeletSet.getHash murmur name).getLsbD i = true
      ↔ ∃ k < numHashFunctions, (murmur name k).toNat % hashNumberBits = i := by
  have hfold : ∀ (seeds : List Nat) (result : BitVec 64), (seeds.foldl
      (fun result seed => result ||| 1#64 <<< ((murmur name seed).toNat % hashNumberBits))
      result).getLsbD i = true
        ↔ result.getLsbD i = true
          ∨ ∃ k ∈ seeds, (murmur name k).toNat % hashNumberBits = i := by
    intro seeds
    induction seeds with
    | nil => intro result; simp
    | cons k seeds ih =>
        intro result
        have hlt : (murmur name k).toNat % hashNumberBits < 64 :=
          lt_of_lt_of_le (Nat.mod_lt _ (by decide)) (by decide)
        rw [List.foldl_cons, ih, BitVec.getLsbD_or, Bool.or_eq_true,
          getLsbD_one_shiftLeft (by decide) hlt, decide_eq_true_iff, List.exists_mem_cons_iff,
          or_assoc, eq_comm (a := i)]
  rw [JrtcCodeletSet.getHash, hfold]
  simp

/-- **THE HASH OF THE CODELET SETS**: given the values of the hash function, the filter
    computes the number the ids of a codelet set are made of. -/
theorem getHash_eq_codeletSet {name : CString} {murmur : String → Nat → BitVec 64}
    {text : String} (h : ∀ k < numHashFunctions, hashAt name k = .ok (murmur text k)) :
    getHash true name = .ok (JrtcCodeletSet.getHash murmur text) := by
  have hlen : LengthHashes name := by
    by_contra hno
    cases (h 0 (by decide)).symm.trans (hashAt_faults hno 0)
  obtain ⟨v, hv, hbits⟩ := getHash_spec hlen
  rw [hv]
  refine congrArg Except.ok (BitVec.eq_of_getLsbD_eq fun i _ => Bool.eq_iff_iff.mpr ?_)
  rw [hbits, getLsbD_codeletSet_getHash]
  refine exists_congr fun k => and_congr_right fun hk => ?_
  rw [h k hk]
  constructor
  · rintro ⟨hash, heq, hi⟩
    cases heq
    exact hi
  · exact fun hi => ⟨_, rfl, hi⟩

/-! ## `jrtc_router_generate_stream_id` -/

/-- The hash of a path or name; `NULL` stands for the wildcard. -/
def hashOrAny (alloc : Bool) (any : BitVec 54) : Option CString → Except MemFault (BitVec 64)
  | none => .ok (any.setWidth 64)
  | some name => getHash alloc name

/-- `jrtc_router_generate_stream_id`: what it returns, and the id behind the pointer,
    which is cleared first. -/
def generateStreamId (pathAlloc nameAlloc : Bool) (streamId : Option StreamId)
    (fwdDst deviceId : BitVec 32) (streamPath streamName : Option CString) :
    Except MemFault (Int × Option StreamId) :=
  match streamId with
  | none => .ok (-1, none)
  | some _ => do
    let pathHash ← hashOrAny pathAlloc streamPathAny streamPath
    let nameHash ← hashOrAny nameAlloc streamNameAny streamName
    if pathHash = 0 ∨ nameHash = 0 then .ok (-1, some (Vector.replicate 16 0))
    else .ok (1, some (packId
      { ver := 0
        fwdDst := fwdDst.setWidth 7
        deviceId := deviceId.setWidth 7
        streamPath := pathHash.setWidth 54
        streamName := nameHash.setWidth 54 }))

/-- The hash of a text is a number of 54 bits, with a bit for each position the hash
    functions choose; so it has 1 to 38 bits, and is neither 0 nor a wildcard. -/
def HashMeets (name : CString) : Prop :=
  ∃ v, getHash true name = .ok v ∧ v.toNat < 2 ^ 54
    ∧ (∀ i, v.getLsbD i = true ↔ ∃ k < 38, ∃ hash,
        murmurHash64A name.mem (BitVec.ofNat 32 (strlen name.mem)) (BitVec.ofNat 64 k) = .ok hash
          ∧ hash.toNat % 54 = i)
    ∧ 1 ≤ bitCount v ∧ bitCount v ≤ 38
    ∧ v ≠ 0 ∧ v ≠ streamPathAny.setWidth 64 ∧ v ≠ streamNameAny.setWidth 64

/-- An id is generated, in which a field is the wildcard iff its argument was `NULL`. -/
def IdMeets (streamId : StreamId) (fwdDst deviceId : BitVec 32)
    (streamPath streamName : Option CString) : Prop :=
  ∃ sid, generateStreamId true true (some streamId) fwdDst deviceId streamPath streamName
      = .ok (1, some sid)
    ∧ (field .streamPath sid = streamPathAny ↔ streamPath = none)
    ∧ (field .streamName sid = streamNameAny ↔ streamName = none)

theorem hashMeets_of_lengthHashes {name : CString} (h : LengthHashes name) :
    HashMeets name := by
  obtain ⟨v, hv, hbits⟩ := getHash_spec h
  have hcount : 1 ≤ bitCount v ∧ bitCount v ≤ 38 := by
    choose hash hhash using hashAt_ok h
    refine bitCount_bounds (f := fun k => (hash k).toNat % 54) (by decide) fun i => ?_
    refine (hbits i).trans (exists_congr fun k => and_congr_right fun _ => ?_)
    rw [hhash k]
    constructor
    · rintro ⟨v', heq, hi⟩
      cases heq
      exact hi
    · exact fun hi => ⟨_, rfl, hi⟩
  have hlt : v.toNat < 2 ^ 54 := by
    refine Nat.lt_pow_two_of_testBit _ fun i hi => ?_
    by_contra hbit
    have hset : v.getLsbD i = true := Bool.eq_true_of_not_eq_false hbit
    obtain ⟨k, -, hash, -, hmod⟩ := (hbits i).mp hset
    have : hash.toNat % hashNumberBits < 54 := Nat.mod_lt _ (by decide)
    omega
  have hany : bitCount (streamPathAny.setWidth 64) = 54 := by decide
  refine ⟨v, hv, hlt, hbits, hcount.1, hcount.2, ?_, ?_, ?_⟩
  · rintro rfl
    exact absurd hcount.1 (by decide)
  · rintro rfl
    omega
  · rintro rfl
    have hany' : bitCount (streamNameAny.setWidth 64) = 54 := hany
    omega

theorem hashMeets_iff (name : CString) : HashMeets name ↔ LengthHashes name := by
  refine ⟨fun h => ?_, hashMeets_of_lengthHashes⟩
  by_contra hno
  obtain ⟨v, hv, -⟩ := h
  exact getHash_faults hno v hv

/-- What a path or name leaves in its field. -/
theorem hashOrAny_spec {any : BitVec 54} (hany : any = streamPathAny)
    {text : Option CString} (h : ∀ name ∈ text, LengthHashes name) :
    ∃ v, hashOrAny true any text = .ok v ∧ v ≠ 0 ∧ (v.setWidth 54 = any ↔ text = none) := by
  cases text with
  | none =>
      refine ⟨any.setWidth 64, rfl, ?_, iff_of_true ?_ rfl⟩
      · rw [hany]
        decide
      · exact BitVec.setWidth_setWidth_of_le _ (by decide)
  | some name =>
      obtain ⟨v, hv, hlt, -, -, -, hzero, hpath, -⟩ := hashMeets_of_lengthHashes (h name rfl)
      refine ⟨v, hv, hzero, iff_of_false (fun hwild => hpath ?_) (Option.some_ne_none name)⟩
      rw [← hany, ← hwild]
      refine BitVec.eq_of_toNat_eq ?_
      rw [BitVec.toNat_setWidth, BitVec.toNat_setWidth]
      omega

theorem idMeets_iff (streamId : StreamId) (fwdDst deviceId : BitVec 32)
    (streamPath streamName : Option CString) :
    IdMeets streamId fwdDst deviceId streamPath streamName
      ↔ (∀ name ∈ streamPath, LengthHashes name) ∧ ∀ name ∈ streamName, LengthHashes name := by
  constructor
  · rintro ⟨sid, hsid, -⟩
    obtain ⟨pathHash, hpath, hsid⟩ := bind_eq_ok_iff.mp hsid
    obtain ⟨nameHash, hname, -⟩ := bind_eq_ok_iff.mp hsid
    constructor
    · rintro name rfl
      by_contra hno
      exact getHash_faults hno _ hpath
    · rintro name rfl
      by_contra hno
      exact getHash_faults hno _ hname
  · rintro ⟨hpath, hname⟩
    obtain ⟨pathHash, hpathHash, hpath0, hpathAny⟩ := hashOrAny_spec rfl hpath
    obtain ⟨nameHash, hnameHash, hname0, hnameAny⟩ :=
      hashOrAny_spec (show streamNameAny = streamPathAny from rfl) hname
    refine ⟨_, bind_eq_ok_iff.mpr ⟨pathHash, hpathHash,
      bind_eq_ok_iff.mpr ⟨nameHash, hnameHash, if_neg (not_or.mpr ⟨hpath0, hname0⟩)⟩⟩, ?_, ?_⟩
    · rw [field_packId_streamPath]
      exact hpathAny
    · rw [field_packId_streamName]
      exact hnameAny

/-- **THE HASHES AND THE IDS** are as they should be for exactly the texts whose length,
    as an `int`, is above -8. -/
theorem hash_meets_iff (name : CString) (streamId : StreamId) (fwdDst deviceId : BitVec 32)
    (streamPath streamName : Option CString) :
    (HashMeets name ↔ LengthHashes name)
      ∧ (IdMeets streamId fwdDst deviceId streamPath streamName
        ↔ (∀ name ∈ streamPath, LengthHashes name)
          ∧ ∀ name ∈ streamName, LengthHashes name) :=
  ⟨hashMeets_iff name, idMeets_iff streamId fwdDst deviceId streamPath streamName⟩

/-- A text of 2^31 letters. -/
def longText : CString where
  bytes := List.replicate (2 ^ 31) 97
  noNul := fun h => absurd (List.eq_of_mem_replicate h) (by decide)

/-- Its length is negative as an `int`, and the end of the blocks lies before their
    beginning. -/
theorem longText_hash_faults :
    ¬ ((∀ name, HashMeets name) ∧ ∀ streamId fwdDst deviceId streamPath streamName,
      IdMeets streamId fwdDst deviceId streamPath streamName) := by
  rintro ⟨h, -⟩
  have hlen : ¬ LengthHashes longText := by
    rw [LengthHashes, longText, List.length_replicate]
    decide
  obtain ⟨v, hv, -⟩ := h longText
  exact getHash_faults hlen v hv

end JrtcStreamHash
