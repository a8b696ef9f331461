import TxValidator.Slot
import TxValidator.Lib.MerkleTree

/-! The Poseidon2 wrappers and the root recomputation.  The permutation itself is outside the
repository: it is a parameter, a function from lists of Goldilocks elements to four elements.  Each
hash of a layout is `poseidon2` of the layout's preimage, a definition of its own. -/

namespace TxValidator

/-- An element of the Goldilocks field. -/
abbrev Goldilocks := Fin (2 ^ 64 - 2 ^ 32 + 1)

/-- The element that a word stands for, reduced when the word is not canonical. -/
def fromCanonicalU64 (v : UInt64) : Goldilocks := Fin.ofNat _ v.toNat

def toCanonicalU64 (x : Goldilocks) : UInt64 := UInt64.ofNat x.val

/-- The external Poseidon2 hash without padding. -/
structure Poseidon2Hash where
  hashNoPad : List Goldilocks → Vector Goldilocks 4

section Wrappers

variable (P : Poseidon2Hash)

def poseidon2 (input : List UInt64) : Digest :=
  let h := P.hashNoPad (input.map fromCanonicalU64)
  Vector.ofFn fun j => toCanonicalU64 h[j]

/-- The eight elements of a balance leaf. -/
def balanceLeafPreimage (balance : UInt64) (seedHash : Vector UInt64 3)
    (credit nonce allowance : UInt64) : List UInt64 :=
  let (cLo, cHi) := splitU64 credit
  (packBalanceFields balance allowance).toList ++ seedHash.toList ++ [cLo, cHi, nonce]

def balanceLeaf (balance : UInt64) (seedHash : Vector UInt64 3)
    (credit nonce allowance : UInt64) : Digest :=
  poseidon2 P (balanceLeafPreimage balance seedHash credit nonce allowance)

/-- The limbs of a hash that a main leaf commits. -/
def committed (d : Digest) : Vector UInt64 2 := #v[d[0], d[1]]

/-- The eight elements of a main leaf: of the key and the address hash, the first two each. -/
def mainLeafPreimage (balanceHash pkHash addressHash : Digest) : List UInt64 :=
  [balanceHash[0], balanceHash[1], balanceHash[2], balanceHash[3], pkHash[0], pkHash[1],
    addressHash[0], addressHash[1]]

def mainLeaf (balanceHash pkHash addressHash : Digest) : Digest :=
  poseidon2 P (mainLeafPreimage balanceHash pkHash addressHash)

def twoToOnePreimage (left right : Digest) : List UInt64 :=
  [left[0], left[1], left[2], left[3], right[0], right[1], right[2], right[3]]

def twoToOne (left right : Digest) : Digest := poseidon2 P (twoToOnePreimage left right)

/-- The commitment of a Schnorr public key, of which the leaf keeps two limbs. -/
def schnorrPkHash (schnorrPkEnc : Vector UInt64 5) : Digest := poseidon2 P schnorrPkEnc.toList

def addressHash (userAddress : Vector UInt8 20) : Digest :=
  poseidon2 P (userAddress.toList.map UInt8.toUInt64)

def randomIhb (serverSeed : Vector UInt64 8) (userSeed : Vector UInt64 4) : Digest :=
  poseidon2 P (serverSeed.toList ++ userSeed.toList)

/-- The first four elements of the server seed, not hashed. -/
def randomCrash (serverSeed : Vector UInt64 8) : Vector UInt64 4 :=
  #v[serverSeed[0], serverSeed[1], serverSeed[2], serverSeed[3]]

def seedHashTruncated (serverSeed : Vector UInt64 8) : Vector UInt64 3 :=
  let h := poseidon2 P serverSeed.toList
  #v[h[0], h[1], h[2]]

def userSeedBindingPreimage (gameId betFull : UInt64) (predictionHash : Digest)
    (userSecret : Vector UInt64 4) : List UInt64 :=
  [gameId, betFull, predictionHash[0], predictionHash[1], predictionHash[2], predictionHash[3],
    userSecret[0], userSecret[1], userSecret[2], userSecret[3]]

def userSeedBinding (gameId betFull : UInt64) (predictionHash : Digest)
    (userSecret : Vector UInt64 4) : Digest :=
  poseidon2 P (userSeedBindingPreimage gameId betFull predictionHash userSecret)

def slotH (random : Vector UInt64 4) (betFull winFull gameId : UInt64)
    (predictionHash : Digest) : Digest :=
  poseidon2 P [random[0], random[1], random[2], random[3], betFull, winFull, gameId,
    predictionHash[0], predictionHash[1], predictionHash[2], predictionHash[3]]

def predictionHashStandardPreimage (gameId p0 p1 p2 : UInt64) : List UInt64 := [gameId, p0, p1, p2]

def predictionHashStandard (gameId p0 p1 p2 : UInt64) : Digest :=
  poseidon2 P (predictionHashStandardPreimage gameId p0 p1 p2)

/-- The thirteen elements of a keno prediction: ten places for the picks, padded with zeros. -/
def predictionHashKenoPreimage (gameId risk pickCount : UInt64) (selected : List UInt8) :
    List UInt64 :=
  [gameId, risk, pickCount] ++
    (List.range 10).map fun i => if h : i < selected.length then selected[i].toUInt64 else 0

def predictionHashKeno (gameId risk pickCount : UInt64) (selected : List UInt8) : Digest :=
  poseidon2 P (predictionHashKenoPreimage gameId risk pickCount selected)

/-- The three elements that a seed commitment keeps of a hash. -/
def truncated (d : Digest) : Vector UInt64 3 := #v[d[0], d[1], d[2]]

def slotHPreimage (random : Vector UInt64 4) (betFull winFull gameId : UInt64)
    (predictionHash : Digest) : List UInt64 :=
  [random[0], random[1], random[2], random[3], betFull, winFull, gameId, predictionHash[0],
    predictionHash[1], predictionHash[2], predictionHash[3]]

/-! ### Merkle roots -/

/-- The root that a main leaf reaches along the path of `userId`, whose bits are consumed from the
least significant one. -/
def rootFromLeaf (leaf : Digest) (siblings : Vector Digest treeDepth) (userId : UInt32) : Digest :=
  siblings.toList.zipIdx.foldl (fun current (sibling, level) =>
    let bit := (userId >>> UInt32.ofNat level) &&& 1 == 1
    let (left, right) := if bit then (sibling, current) else (current, sibling)
    twoToOne P left right) leaf

def computeRoot (balanceHash pkHash addressHash : Digest) (siblings : Vector Digest treeDepth)
    (userId : UInt32) : Digest :=
  rootFromLeaf P (mainLeaf P balanceHash pkHash addressHash) siblings userId

end Wrappers

/-! ### Canonical elements -/

theorem toCanonicalU64_toNat (x : Goldilocks) : (toCanonicalU64 x).toNat = x.val :=
  UInt64.toNat_ofNat_of_lt' (Nat.lt_trans x.isLt (by decide))

theorem toCanonicalU64_canonical (x : Goldilocks) : isCanonical (toCanonicalU64 x) = true :=
  isCanonical_iff.mpr (by rw [toCanonicalU64_toNat]; exact x.isLt)

theorem fromCanonicalU64_injOn {v w : UInt64} (hv : isCanonical v = true)
    (hw : isCanonical w = true) (h : fromCanonicalU64 v = fromCanonicalU64 w) : v = w := by
  have h' := congrArg Fin.val h
  simp only [fromCanonicalU64, Fin.ofNat] at h'
  rw [Nat.mod_eq_of_lt (isCanonical_iff.mp hv), Nat.mod_eq_of_lt (isCanonical_iff.mp hw)] at h'
  exact UInt64.toNat_inj.mp h'

theorem map_fromCanonicalU64_injOn {xs ys : List UInt64} (hx : allCanonical xs = true)
    (hy : allCanonical ys = true) (h : xs.map fromCanonicalU64 = ys.map fromCanonicalU64) :
    xs = ys := by
  induction xs generalizing ys with
  | nil => cases ys with
    | nil => rfl
    | cons y ys => simp at h
  | cons x xs ih =>
    cases ys with
    | nil => simp at h
    | cons y ys =>
      simp only [List.map_cons, List.cons.injEq] at h
      simp only [allCanonical, List.all_cons, Bool.and_eq_true] at hx hy
      rw [fromCanonicalU64_injOn hx.1 hy.1 h.1, ih hx.2 hy.2 h.2]

/-- Every element of a digest is canonical. -/
theorem poseidon2_canonical (P : Poseidon2Hash) (input : List UInt64) :
    allCanonical (poseidon2 P input).toList = true := by
  rw [allCanonical_iff]
  intro v hv
  obtain ⟨j, hj, rfl⟩ := List.mem_iff_getElem.mp hv
  simp only [poseidon2, Vector.getElem_toList, Vector.getElem_ofFn]
  exact toCanonicalU64_canonical _

theorem toCanonicalU64_injective {x y : Goldilocks} (h : toCanonicalU64 x = toCanonicalU64 y) :
    x = y := by
  have h' := congrArg UInt64.toNat h
  rw [toCanonicalU64_toNat, toCanonicalU64_toNat] at h'
  exact Fin.val_inj.mp h'

/-- Two digests are equal when the permutation's outputs are. -/
theorem poseidon2_eq_iff {P : Poseidon2Hash} {xs ys : List UInt64} :
    poseidon2 P xs = poseidon2 P ys ↔
      P.hashNoPad (xs.map fromCanonicalU64) = P.hashNoPad (ys.map fromCanonicalU64) := by
  constructor
  · intro h
    refine Vector.ext fun i hi => ?_
    have hi' := congrArg (fun d : Digest => d[i]) h
    simp only [poseidon2, Vector.getElem_ofFn] at hi'
    exact toCanonicalU64_injective hi'
  · intro h
    rw [poseidon2, poseidon2, h]

/-- The permutation has no collision among the inputs of `S`. -/
def CollisionFree (P : Poseidon2Hash) (S : Set (List UInt64)) : Prop :=
  Set.InjOn P.hashNoPad (List.map fromCanonicalU64 '' S)

theorem CollisionFree.mono {P : Poseidon2Hash} {S T : Set (List UInt64)} (h : CollisionFree P T)
    (hST : S ⊆ T) : CollisionFree P S :=
  Set.InjOn.mono (Set.image_mono hST) h

theorem CollisionFree.injOn {P : Poseidon2Hash} {S : Set (List UInt64)} (h : CollisionFree P S)
    (hS : ∀ x ∈ S, allCanonical x = true) : Set.InjOn (poseidon2 P) S := by
  intro x hx y hy hxy
  have hmap := h (Set.mem_image_of_mem _ hx) (Set.mem_image_of_mem _ hy) (poseidon2_eq_iff.mp hxy)
  exact map_fromCanonicalU64_injOn (hS x hx) (hS y hy) hmap

/-! ### Layouts -/

theorem digest_ext {d d' : Digest} (h0 : d[0] = d'[0]) (h1 : d[1] = d'[1]) (h2 : d[2] = d'[2])
    (h3 : d[3] = d'[3]) : d = d' := by
  refine Vector.ext fun i hi => ?_
  match i, hi with
  | 0, _ => exact h0
  | 1, _ => exact h1
  | 2, _ => exact h2
  | 3, _ => exact h3

theorem seed_ext {s s' : Vector UInt64 3} (h0 : s[0] = s'[0]) (h1 : s[1] = s'[1])
    (h2 : s[2] = s'[2]) : s = s' := by
  refine Vector.ext fun i hi => ?_
  match i, hi with
  | 0, _ => exact h0
  | 1, _ => exact h1
  | 2, _ => exact h2

/-- The emptiness test on the committed limbs. -/
theorem allZero_committed {d : Digest} :
    allZero (committed d).toList = true ↔ d[0] = 0 ∧ d[1] = 0 := by
  rw [allZero_iff]
  show (∀ v ∈ [d[0], d[1]], v = 0) ↔ _
  simp

theorem committed_eq_zero {d : Digest} : committed d = zeroLimbs ↔ d[0] = 0 ∧ d[1] = 0 := by
  constructor
  · intro h
    exact ⟨congrArg (·[0]) h, congrArg (·[1]) h⟩
  · rintro ⟨h0, h1⟩
    exact limbs_ext h0 h1

/-- The main leaf depends on the committed limbs only. -/
theorem mainLeaf_widen (P : Poseidon2Hash) (b pk a : Digest) :
    mainLeaf P b (widen (committed pk)) (widen (committed a)) = mainLeaf P b pk a := rfl

theorem twoToOnePreimage_injective {l r l' r' : Digest}
    (h : twoToOnePreimage l r = twoToOnePreimage l' r') : l = l' ∧ r = r' := by
  simp only [twoToOnePreimage, List.cons.injEq, and_true] at h
  obtain ⟨h0, h1, h2, h3, h4, h5, h6, h7⟩ := h
  exact ⟨digest_ext h0 h1 h2 h3, digest_ext h4 h5 h6 h7⟩

theorem mainLeafPreimage_injective {b b' pk pk' a a' : Digest}
    (h : mainLeafPreimage b pk a = mainLeafPreimage b' pk' a') :
    b = b' ∧ (pk[0] = pk'[0] ∧ pk[1] = pk'[1]) ∧ a[0] = a'[0] ∧ a[1] = a'[1] := by
  simp only [mainLeafPreimage, List.cons.injEq, and_true] at h
  obtain ⟨h0, h1, h2, h3, h4, h5, h6, h7⟩ := h
  exact ⟨digest_ext h0 h1 h2 h3, ⟨h4, h5⟩, h6, h7⟩

/-- Two leaf states with storable allowances never share a preimage. -/
theorem balanceLeafPreimage_injective {b b' c c' n n' a a' : UInt64} {s s' : Vector UInt64 3}
    (ha : a ≤ providerAllowanceMax) (ha' : a' ≤ providerAllowanceMax)
    (h : balanceLeafPreimage b s c n a = balanceLeafPreimage b' s' c' n' a') :
    b = b' ∧ s = s' ∧ c = c' ∧ n = n' ∧ a = a' := by
  obtain ⟨hfront, hback⟩ := List.append_inj h (by simp)
  obtain ⟨hpack, hseed⟩ := List.append_inj hfront (by simp)
  simp only [List.cons.injEq, and_true] at hback
  obtain ⟨hlo, hhi, hnonce⟩ := hback
  obtain ⟨hb, ha⟩ := packBalanceFields_injective ha ha' (Vector.toList_inj.mp hpack)
  exact ⟨hb, Vector.toList_inj.mp hseed, splitU64_injective hlo hhi, hnonce, ha⟩

/-- The eight elements of a balance leaf from before provider allowances: bare 32-bit limbs. -/
def legacyLeafPreimage (balance : UInt64) (seedHash : Vector UInt64 3) (credit nonce : UInt64) :
    List UInt64 :=
  let (bLo, bHi) := splitU64 balance
  let (cLo, cHi) := splitU64 credit
  [bLo, bHi] ++ seedHash.toList ++ [cLo, cHi, nonce]

/-- Packing is a bijection between the balances with a 62-bit allowance and the pairs of fields
below `2^63`; so a leaf state is determined by its preimage, which without an allowance is the
legacy one. -/
theorem balance_leaf_encoding :
    (∀ balance allowance : UInt64, allowance.toNat < 2 ^ 62 →
      (∀ v ∈ (packBalanceFields balance allowance).toList,
        v.toNat < 2 ^ 63 ∧ isCanonical v = true) ∧
      unpackBalanceFields (packBalanceFields balance allowance) = (balance, allowance)) ∧
    (∀ fields : Vector UInt64 2, (∀ v ∈ fields.toList, v.toNat < 2 ^ 63) →
      (unpackBalanceFields fields).2.toNat < 2 ^ 62 ∧
      packBalanceFields (unpackBalanceFields fields).1 (unpackBalanceFields fields).2 = fields) ∧
    (∀ (b b' c c' n n' a a' : UInt64) (s s' : Vector UInt64 3),
      a.toNat < 2 ^ 62 → a'.toNat < 2 ^ 62 →
      balanceLeafPreimage b s c n a = balanceLeafPreimage b' s' c' n' a' →
      b = b' ∧ s = s' ∧ c = c' ∧ n = n' ∧ a = a') ∧
    ∀ (b c n : UInt64) (s : Vector UInt64 3),
      (balanceLeafPreimage b s c n 0).length = 8 ∧
      balanceLeafPreimage b s c n 0 = legacyLeafPreimage b s c n := by
  refine ⟨fun balance allowance hlt => ?_, fun fields hfields => ?_,
    fun b b' c c' n n' a a' s s' ha ha' h => ?_, fun b c n s => ⟨?_, ?_⟩⟩
  · have hmax := le_max_of_toNat_lt hlt
    obtain ⟨h0, h1⟩ := packBalanceFields_lt balance hmax
    refine ⟨limbs_forall.mpr ⟨?_, ?_⟩, unpack_packBalanceFields balance hmax⟩
    · exact ⟨h0, isCanonical_of_lt h0⟩
    · exact ⟨h1, isCanonical_of_lt h1⟩
  · obtain ⟨h0, h1⟩ := limbs_forall.mp hfields
    exact ⟨unpackBalanceFields_allowance_lt h0 h1, pack_unpackBalanceFields h0 h1⟩
  · exact balanceLeafPreimage_injective (le_max_of_toNat_lt ha) (le_max_of_toNat_lt ha') h
  · simp [balanceLeafPreimage]
  · rw [balanceLeafPreimage, packBalanceFields_zero]
    rfl

theorem balance_leaf_encoding_mixed :
    unpackBalanceFields (packBalanceFields 0xFFFFFFFF00000001 0x2ABCDEF012345678) =
        (0xFFFFFFFF00000001, 0x2ABCDEF012345678) ∧
      packBalanceFields (unpackBalanceFields #v[0x7FFFFFFFFFFFFFFF, 0x100000000]).1
        (unpackBalanceFields #v[0x7FFFFFFFFFFFFFFF, 0x100000000]).2 =
        #v[0x7FFFFFFFFFFFFFFF, 0x100000000] :=
  ⟨(balance_leaf_encoding.1 _ _ (by decide)).2,
    (balance_leaf_encoding.2.1 _ (limbs_forall.mpr ⟨by decide, by decide⟩)).2⟩

theorem balanceLeafPreimage_canonical {b c n a : UInt64} {s : Vector UInt64 3}
    (hs : allCanonical s.toList = true) (hn : isCanonical n = true)
    (ha : a ≤ providerAllowanceMax) : allCanonical (balanceLeafPreimage b s c n a) = true := by
  obtain ⟨hlo, hhi⟩ := splitU64_canonical c
  have hpack := packBalanceFields_canonical b ha
  rw [allCanonical] at hs hpack
  simp only [balanceLeafPreimage, allCanonical, List.all_append, List.all_cons, List.all_nil, hpack,
    hs, hlo, hhi, hn, Bool.and_self]

theorem mainLeafPreimage_canonical {b pk a : Digest} (hb : allCanonical b.toList = true)
    (hpk : allCanonical pk.toList = true) (ha : allCanonical a.toList = true) :
    allCanonical (mainLeafPreimage b pk a) = true := by
  simp only [mainLeafPreimage, allCanonical, List.all_cons, List.all_nil, canonical_getElem hb,
    canonical_getElem hpk, canonical_getElem ha, Bool.and_self]

theorem twoToOnePreimage_canonical {l r : Digest} (hl : allCanonical l.toList = true)
    (hr : allCanonical r.toList = true) : allCanonical (twoToOnePreimage l r) = true := by
  simp only [twoToOnePreimage, allCanonical, List.all_cons, List.all_nil, canonical_getElem hl,
    canonical_getElem hr, Bool.and_self]

theorem randomCrash_canonical {serverSeed : Vector UInt64 8}
    (h : allCanonical serverSeed.toList = true) :
    allCanonical (randomCrash serverSeed).toList = true := by
  refine allCanonical_iff.mpr fun v hv => ?_
  simp only [randomCrash, Vector.toList_mk, List.mem_cons, List.not_mem_nil, or_false] at hv
  rcases hv with rfl | rfl | rfl | rfl <;> exact canonical_getElem h _ _

theorem slotHPreimage_canonical {random : Vector UInt64 4} {predictionHash : Digest}
    {bet win gameId : UInt64} (hrandom : allCanonical random.toList = true)
    (hbet : isCanonical bet = true) (hwin : isCanonical win = true)
    (hgame : isCanonical gameId = true) (hprediction : allCanonical predictionHash.toList = true) :
    allCanonical (slotHPreimage random bet win gameId predictionHash) = true := by
  simp only [slotHPreimage, allCanonical, List.all_cons, List.all_nil, canonical_getElem hrandom,
    canonical_getElem hprediction, hbet, hwin, hgame, Bool.and_self]

/-! ### Paths -/

theorem bit_eq {userId : UInt32} {level : Nat} (h : level < 32) :
    ((userId >>> UInt32.ofNat level) &&& 1 == 1) = decide (userId.toNat / 2 ^ level % 2 = 1) := by
  have hshift : (userId >>> UInt32.ofNat level).toNat = userId.toNat / 2 ^ level := by
    rw [UInt32.toNat_shiftRight, UInt32.toNat_ofNat_of_lt' (Nat.lt_trans h (by decide)),
      Nat.mod_eq_of_lt h,
      Nat.shiftRight_eq_div_pow]
  have hand : ((userId >>> UInt32.ofNat level) &&& 1).toNat = userId.toNat / 2 ^ level % 2 := by
    rw [UInt32.toNat_and, hshift]
    exact Nat.and_two_pow_sub_one_eq_mod _ 1
  rw [beq_eq_decide, decide_eq_decide, ← UInt32.toNat_inj, hand]
  rfl

/-- The loop over the siblings from level `n` on climbs from entry `userId / 2 ^ n`. -/
theorem foldl_zipIdx_eq_climb (P : Poseidon2Hash) (userId : UInt32) (ss : List Digest) (n : Nat)
    (h : n + ss.length ≤ 32) (d : Digest) :
    (ss.zipIdx n).foldl (fun current (sibling, level) =>
      let bit := (userId >>> UInt32.ofNat level) &&& 1 == 1
      let (left, right) := if bit then (sibling, current) else (current, sibling)
      twoToOne P left right) d =
    MerkleTree.climb (twoToOne P) d ss (userId.toNat / 2 ^ n) := by
  induction ss generalizing n d with
  | nil => rfl
  | cons s ss ih =>
    rw [List.zipIdx_cons, List.foldl_cons, ih (n + 1) (by simp at h; omega), MerkleTree.climb,
      Nat.pow_succ, ← Nat.div_div_eq_div_mul]
    congr 1
    simp only [bit_eq (show n < 32 by simp at h; omega), decide_eq_true_eq, MerkleTree.pair]
    split <;> rfl

/-- The root of a leaf is what its path climbs to. -/
theorem rootFromLeaf_eq_climb (P : Poseidon2Hash) (leaf : Digest)
    (siblings : Vector Digest treeDepth) (userId : UInt32) :
    rootFromLeaf P leaf siblings userId =
      MerkleTree.climb (twoToOne P) leaf siblings.toList userId.toNat := by
  have h := foldl_zipIdx_eq_climb P userId siblings.toList 0
    (by rw [Vector.length_toList, treeDepth]; omega) leaf
  rwa [Nat.pow_zero, Nat.div_one] at h

/-- A hash to run the model with: one more than the sum of the input. -/
def sumHash : Poseidon2Hash where
  hashNoPad xs := #v[xs.sum + 1, 0, 0, 0]

theorem sum_bytes_le (bytes : List UInt8) :
    ((bytes.map UInt8.toUInt64).map fromCanonicalU64).sum.val ≤ 255 * bytes.length := by
  induction bytes with
  | nil => exact Nat.le_refl 0
  | cons b bytes ih =>
    have hb : (fromCanonicalU64 b.toUInt64).val ≤ b.toNat := Nat.mod_le _ _
    have hbyte := b.toNat_lt
    simp only [List.map_cons, List.sum_cons, Fin.val_add, List.length_cons]
    refine (Nat.mod_le _ _).trans ?_
    omega

/-- The toy hash of an address has a non-zero first limb. -/
theorem sumHash_address (userAddress : Vector UInt8 20) :
    committed (addressHash sumHash userAddress) ≠ zeroLimbs := by
  intro h
  have hsum := sum_bytes_le userAddress.toList
  have hfirst : (addressHash sumHash userAddress)[0] = toCanonicalU64
      (((userAddress.toList.map UInt8.toUInt64).map fromCanonicalU64).sum + 1) := by
    simp [addressHash, poseidon2, sumHash]
  rw [Vector.length_toList] at hsum
  rw [(committed_eq_zero.mp h).1] at hfirst
  generalize ((userAddress.toList.map UInt8.toUInt64).map fromCanonicalU64).sum = total at *
  have hzero := congrArg UInt64.toNat hfirst
  rw [toCanonicalU64_toNat, Fin.val_add, Nat.mod_eq_of_lt (by simp; omega)] at hzero
  exact absurd hzero.symm (Nat.succ_ne_zero _)

end TxValidator
