import Mathlib.Data.UInt
import Mathlib.Tactic.Common

/-! Goldilocks canonicity, the limbs of a 64-bit word, and the packing of a balance and a provider
allowance into the two leading fields of a balance leaf. -/

namespace TxValidator

/-- The Goldilocks modulus `2^64 - 2^32 + 1`. -/
def goldilocksP : UInt64 := 18446744069414584321

/-- `v` is a canonical representative of a field element. -/
def isCanonical (v : UInt64) : Bool := v < goldilocksP

def allCanonical (vals : List UInt64) : Bool := vals.all isCanonical

/-- Every element is zero: the test for an empty hash slot. -/
def allZero (vals : List UInt64) : Bool := vals.all fun v => v == 0

/-- The low and the high 32-bit limb of a word. -/
def splitU64 (v : UInt64) : UInt64 × UInt64 := (v &&& 0xFFFFFFFF, v >>> 32)

/-- The width of the provider allowance in a balance leaf. -/
def providerAllowanceBits : UInt64 := 62

/-- The width of each allowance half above a balance limb. -/
def allowanceHalfBits : UInt64 := 31

/-- The largest storable provider allowance, `2^62 - 1`. -/
def providerAllowanceMax : UInt64 := (1 <<< providerAllowanceBits) - 1

def allowanceHalfMask : UInt64 := (1 <<< allowanceHalfBits) - 1

/-- The two leading fields of a balance leaf: each balance limb below one half of the allowance.
The source panics on an allowance above `providerAllowanceMax`. -/
def packBalanceFields (balance allowance : UInt64) : Vector UInt64 2 :=
  let (balLo, balHi) := splitU64 balance
  let allowA := allowance &&& allowanceHalfMask
  let allowB := allowance >>> allowanceHalfBits
  #v[(allowA <<< 32) ||| balLo, (allowB <<< 32) ||| balHi]

def limbMask : UInt64 := 0xFFFFFFFF

/-- The balance and the allowance in the two leading fields of a balance leaf.  In debug builds the
source asserts that each field is below `2^63`. -/
def unpackBalanceFields (fields : Vector UInt64 2) : UInt64 × UInt64 :=
  let balance := (fields[0] &&& limbMask) ||| ((fields[1] &&& limbMask) <<< 32)
  let allowance := ((fields[1] >>> 32) <<< allowanceHalfBits) ||| (fields[0] >>> 32)
  (balance, allowance)

/-- The two committed limbs of a hash slot that holds none. -/
def zeroLimbs : Vector UInt64 2 := #v[0, 0]

/-- Two limbs as four, the other two zero. -/
def widen (v : Vector UInt64 2) : Vector UInt64 4 := #v[v[0], v[1], 0, 0]

theorem goldilocksP_toNat : goldilocksP.toNat = 2 ^ 64 - 2 ^ 32 + 1 := by decide

theorem providerAllowanceMax_toNat : providerAllowanceMax.toNat = 2 ^ 62 - 1 := by decide

theorem toNat_lt_of_le_max {allowance : UInt64} (h : allowance ≤ providerAllowanceMax) :
    allowance.toNat < 2 ^ 62 := by
  have hmax := UInt64.le_iff_toNat_le.mp h
  rw [providerAllowanceMax_toNat] at hmax
  omega

theorem le_max_of_toNat_lt {allowance : UInt64} (h : allowance.toNat < 2 ^ 62) :
    allowance ≤ providerAllowanceMax := by
  rw [UInt64.le_iff_toNat_le, providerAllowanceMax_toNat]
  omega

theorem isCanonical_iff {v : UInt64} : isCanonical v = true ↔ v.toNat < 2 ^ 64 - 2 ^ 32 + 1 := by
  rw [isCanonical, decide_eq_true_iff, UInt64.lt_iff_toNat_lt, goldilocksP_toNat]

theorem allCanonical_iff {vals : List UInt64} :
    allCanonical vals = true ↔ ∀ v ∈ vals, isCanonical v = true :=
  List.all_eq_true

/-- The entries of a canonical vector. -/
theorem canonical_getElem {n : Nat} {v : Vector UInt64 n} (h : allCanonical v.toList = true)
    (i : Nat) (hi : i < n) : isCanonical v[i] = true :=
  allCanonical_iff.mp h _ (by simp)

theorem allZero_iff {vals : List UInt64} : allZero vals = true ↔ ∀ v ∈ vals, v = 0 := by
  simp [allZero]

/-- A word below `2^63` is canonical. -/
theorem isCanonical_of_lt {v : UInt64} (h : v.toNat < 2 ^ 63) : isCanonical v = true :=
  isCanonical_iff.mpr (by omega)

/-! ### Limbs and packed fields -/

theorem limbs_ext {d d' : Vector UInt64 2} (h0 : d[0] = d'[0]) (h1 : d[1] = d'[1]) : d = d' := by
  refine Vector.ext fun i hi => ?_
  match i, hi with
  | 0, _ => exact h0
  | 1, _ => exact h1

theorem limbs_forall {p : UInt64 → Prop} {d : Vector UInt64 2} :
    (∀ v ∈ d.toList, p v) ↔ p d[0] ∧ p d[1] := by
  constructor
  · intro h
    exact ⟨h _ (by simp), h _ (by simp)⟩
  · rintro ⟨h0, h1⟩ v hv
    obtain ⟨i, hi, rfl⟩ := List.mem_iff_getElem.mp hv
    rw [Vector.getElem_toList]
    rw [Vector.length_toList] at hi
    match i, hi with
    | 0, _ => exact h0
    | 1, _ => exact h1

theorem splitU64_toNat (v : UInt64) :
    (splitU64 v).1.toNat = v.toNat % 2 ^ 32 ∧ (splitU64 v).2.toNat = v.toNat / 2 ^ 32 := by
  constructor
  · rw [splitU64, UInt64.toNat_and]
    exact Nat.and_two_pow_sub_one_eq_mod v.toNat 32
  · rw [splitU64, UInt64.toNat_shiftRight]
    exact Nat.shiftRight_eq_div_pow v.toNat 32

/-- Two words with the same limbs are equal. -/
theorem splitU64_injective {v w : UInt64} (h1 : (splitU64 v).1 = (splitU64 w).1)
    (h2 : (splitU64 v).2 = (splitU64 w).2) : v = w := by
  have hv := splitU64_toNat v
  have hw := splitU64_toNat w
  have h1' := congrArg UInt64.toNat h1
  have h2' := congrArg UInt64.toNat h2
  apply UInt64.toNat_inj.mp
  omega

/-- A word shifted above another of at most `k` bits: the two can be read back from the sum. -/
theorem shiftLeft_or_toNat (high low : UInt64) {k : UInt64} (hk : k.toNat < 64)
    (hlow : low.toNat < 2 ^ k.toNat) (hhigh : high.toNat * 2 ^ k.toNat < 2 ^ 64) :
    ((high <<< k) ||| low).toNat = high.toNat * 2 ^ k.toNat + low.toNat := by
  have hshift : (high <<< k).toNat = high.toNat * 2 ^ k.toNat := by
    rw [UInt64.toNat_shiftLeft, Nat.mod_eq_of_lt hk, Nat.shiftLeft_eq, Nat.mod_eq_of_lt hhigh]
  rw [UInt64.toNat_or, hshift, Nat.mul_comm, Nat.two_pow_add_eq_or_of_lt hlow]

/-- A half of the allowance above a balance limb. -/
theorem pack_toNat {half limb : UInt64} (hhalf : half.toNat < 2 ^ 31)
    (hlimb : limb.toNat < 2 ^ 32) :
    ((half <<< 32) ||| limb).toNat = half.toNat * 2 ^ 32 + limb.toNat :=
  shiftLeft_or_toNat half limb (k := 32) (by decide) hlimb
    (show half.toNat * 2 ^ 32 < 2 ^ 64 by omega)

theorem packBalanceFields_toNat (balance : UInt64) {allowance : UInt64}
    (h : allowance ≤ providerAllowanceMax) :
    (packBalanceFields balance allowance)[0].toNat =
        allowance.toNat % 2 ^ 31 * 2 ^ 32 + balance.toNat % 2 ^ 32 ∧
      (packBalanceFields balance allowance)[1].toNat =
        allowance.toNat / 2 ^ 31 * 2 ^ 32 + balance.toNat / 2 ^ 32 := by
  have hmax := toNat_lt_of_le_max h
  have hbal := balance.toNat_lt
  obtain ⟨hlo, hhi⟩ := splitU64_toNat balance
  have hA : (allowance &&& allowanceHalfMask).toNat = allowance.toNat % 2 ^ 31 := by
    rw [UInt64.toNat_and]
    exact Nat.and_two_pow_sub_one_eq_mod allowance.toNat 31
  have hB : (allowance >>> allowanceHalfBits).toNat = allowance.toNat / 2 ^ 31 := by
    rw [UInt64.toNat_shiftRight]
    exact Nat.shiftRight_eq_div_pow allowance.toNat 31
  have hlo' : (splitU64 balance).1.toNat < 2 ^ 32 := by omega
  have hhi' : (splitU64 balance).2.toNat < 2 ^ 32 := by omega
  constructor
  · rw [← hlo, ← hA]
    exact pack_toNat (by omega) hlo'
  · rw [← hhi, ← hB]
    exact pack_toNat (by omega) hhi'

theorem unpackBalanceFields_toNat {fields : Vector UInt64 2} (h0 : fields[0].toNat < 2 ^ 63)
    (h1 : fields[1].toNat < 2 ^ 63) :
    (unpackBalanceFields fields).1.toNat =
        fields[1].toNat % 2 ^ 32 * 2 ^ 32 + fields[0].toNat % 2 ^ 32 ∧
      (unpackBalanceFields fields).2.toNat =
        fields[1].toNat / 2 ^ 32 * 2 ^ 31 + fields[0].toNat / 2 ^ 32 := by
  have hmask : ∀ v : UInt64, (v &&& limbMask).toNat = v.toNat % 2 ^ 32 := fun v =>
    (splitU64_toNat v).1
  have hhigh : ∀ v : UInt64, (v >>> 32).toNat = v.toNat / 2 ^ 32 := fun v => (splitU64_toNat v).2
  have hbalance := shiftLeft_or_toNat (fields[1] &&& limbMask) (fields[0] &&& limbMask) (k := 32)
    (by decide)
    (by rw [hmask]; exact Nat.mod_lt _ (by decide))
    (by rw [hmask]; change fields[1].toNat % 2 ^ 32 * 2 ^ 32 < 2 ^ 64; omega)
  have hallowance := shiftLeft_or_toNat (fields[1] >>> 32) (fields[0] >>> 32)
    (k := allowanceHalfBits) (by decide) (by rw [hhigh]; change _ < 2 ^ 31; omega)
    (by rw [hhigh]; change _ * 2 ^ 31 < 2 ^ 64; omega)
  rw [hmask, hmask] at hbalance
  rw [hhigh, hhigh] at hallowance
  constructor
  · rw [unpackBalanceFields, UInt64.or_comm]
    exact hbalance
  · exact hallowance

/-! ### Round trips -/

theorem packBalanceFields_lt (balance : UInt64) {allowance : UInt64}
    (h : allowance ≤ providerAllowanceMax) :
    (packBalanceFields balance allowance)[0].toNat < 2 ^ 63 ∧
      (packBalanceFields balance allowance)[1].toNat < 2 ^ 63 := by
  obtain ⟨h0, h1⟩ := packBalanceFields_toNat balance h
  have hmax := toNat_lt_of_le_max h
  have hbal := balance.toNat_lt
  constructor
  · omega
  · omega

theorem unpack_packBalanceFields (balance : UInt64) {allowance : UInt64}
    (h : allowance ≤ providerAllowanceMax) :
    unpackBalanceFields (packBalanceFields balance allowance) = (balance, allowance) := by
  obtain ⟨hlt0, hlt1⟩ := packBalanceFields_lt balance h
  obtain ⟨h0, h1⟩ := packBalanceFields_toNat balance h
  obtain ⟨hbalance, hallowance⟩ := unpackBalanceFields_toNat hlt0 hlt1
  rw [h0, h1] at hbalance hallowance
  have hmax := toNat_lt_of_le_max h
  have hbal := balance.toNat_lt
  refine Prod.ext (UInt64.toNat_inj.mp ?_) (UInt64.toNat_inj.mp ?_)
  · dsimp only
    omega
  · dsimp only
    omega

theorem unpackBalanceFields_allowance_lt {fields : Vector UInt64 2}
    (h0 : fields[0].toNat < 2 ^ 63) (h1 : fields[1].toNat < 2 ^ 63) :
    (unpackBalanceFields fields).2.toNat < 2 ^ 62 := by
  rw [(unpackBalanceFields_toNat h0 h1).2]
  omega

theorem pack_unpackBalanceFields {fields : Vector UInt64 2} (h0 : fields[0].toNat < 2 ^ 63)
    (h1 : fields[1].toNat < 2 ^ 63) :
    packBalanceFields (unpackBalanceFields fields).1 (unpackBalanceFields fields).2 = fields := by
  obtain ⟨hbalance, hallowance⟩ := unpackBalanceFields_toNat h0 h1
  have hmax := le_max_of_toNat_lt (unpackBalanceFields_allowance_lt h0 h1)
  obtain ⟨hp0, hp1⟩ := packBalanceFields_toNat (unpackBalanceFields fields).1 hmax
  rw [hbalance, hallowance] at hp0 hp1
  refine limbs_ext (UInt64.toNat_inj.mp ?_) (UInt64.toNat_inj.mp ?_)
  · rw [hp0]
    omega
  · rw [hp1]
    omega

/-- Without an allowance the packed fields are the limbs of the balance. -/
theorem packBalanceFields_zero (balance : UInt64) :
    packBalanceFields balance 0 = #v[(splitU64 balance).1, (splitU64 balance).2] := by
  obtain ⟨h0, h1⟩ := packBalanceFields_toNat balance (show 0 ≤ providerAllowanceMax by decide)
  obtain ⟨hlo, hhi⟩ := splitU64_toNat balance
  refine limbs_ext (UInt64.toNat_inj.mp ?_) (UInt64.toNat_inj.mp ?_)
  · exact (h0.trans (Nat.zero_add _)).trans hlo.symm
  · exact (h1.trans (Nat.zero_add _)).trans hhi.symm

/-- The packed fields determine the balance and the allowance. -/
theorem packBalanceFields_injective {balance balance' allowance allowance' : UInt64}
    (h : allowance ≤ providerAllowanceMax) (h' : allowance' ≤ providerAllowanceMax)
    (hpack : packBalanceFields balance allowance = packBalanceFields balance' allowance') :
    balance = balance' ∧ allowance = allowance' := by
  have hunpack := congrArg unpackBalanceFields hpack
  rw [unpack_packBalanceFields balance h, unpack_packBalanceFields balance' h'] at hunpack
  exact Prod.mk.inj hunpack

theorem widen_canonical {v : Vector UInt64 2} (h : allCanonical v.toList = true) :
    allCanonical (widen v).toList = true := by
  show allCanonical [v[0], v[1], 0, 0] = true
  have hzero : isCanonical 0 = true := by decide
  simp only [allCanonical, List.all_cons, List.all_nil, canonical_getElem h, hzero, Bool.and_self]

theorem splitU64_canonical (v : UInt64) :
    isCanonical (splitU64 v).1 = true ∧ isCanonical (splitU64 v).2 = true := by
  obtain ⟨hlo, hhi⟩ := splitU64_toNat v
  have hv := v.toNat_lt
  exact ⟨isCanonical_of_lt (by omega), isCanonical_of_lt (by omega)⟩

theorem packBalanceFields_canonical (balance : UInt64) {allowance : UInt64}
    (h : allowance ≤ providerAllowanceMax) :
    allCanonical (packBalanceFields balance allowance).toList = true := by
  obtain ⟨h0, h1⟩ := packBalanceFields_lt balance h
  rw [allCanonical_iff, limbs_forall]
  exact ⟨isCanonical_of_lt h0, isCanonical_of_lt h1⟩

end TxValidator
