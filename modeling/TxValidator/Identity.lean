import TxValidator.Hash
import TxValidator.Lib.Checked

/-! The identity effects of a slot: key and address setters, the payout counterparty, the signed
types with their nonce lanes, and the nonce advance. -/

namespace TxValidator

open Checked

structure AddressEffects where
  newPkHash : Digest
  newAddressHash : Digest
  isKeySetter : Bool

def buildAddress (P : Poseidon2Hash) (input : SlotInput) (flags : TxFlags) :
    Except SlotRejection AddressEffects := do
  let isNewPkProvided := !allZero input.newPkHash.toList
  let isKeySetter := flags.isKeyRegisterOnly && isNewPkProvided
  let newPkHash := if isKeySetter then input.newPkHash else input.oldPkHash
  let isAddrAllZero := allZero input.oldAddressHash.toList
  let isDepositFirst := flags.isDeposit && isAddrAllZero
  let isKeySetterFirst := isKeySetter && isAddrAllZero
  let isAddressSetter := isDepositFirst || isKeySetterFirst
  let isDepRedeposit := flags.isDeposit && !isAddrAllZero
  let newAddressHash ← (
    if isAddressSetter then
      .ok (addressHash P input.userAddress)
    else if isDepRedeposit then
      let computed := addressHash P input.userAddress
      if computed != input.oldAddressHash then
        .error .addressHashMismatch
      else
        .ok input.oldAddressHash
    else
      .ok input.oldAddressHash)
  return { newPkHash, newAddressHash, isKeySetter }

/-- The recipient that a slot paying `userAddress` must carry. -/
def recipientAddrHashFor (P : Poseidon2Hash) (txType : UInt8) (userAddress : Vector UInt8 20) :
    Vector UInt64 2 :=
  if txType == txWithdrawal then
    committed (addressHash P userAddress)
  else
    zeroLimbs

def checkRecipientBinding (P : Poseidon2Hash) (input : SlotInput) : Except SlotRejection Unit :=
  failIf (input.recipientAddrHash != recipientAddrHashFor P input.txType input.userAddress)
    .recipientAddrHashMismatch

structure AuthDecode where
  isAuthenticated : Bool
  isAccountLane : Bool
  isGameLane : Bool

def checkAuth (input : SlotInput) (flags : TxFlags) : Except SlotRejection AuthDecode := do
  let isGameLane := flags.isGameLane
  let isAccountLane := flags.isWithdrawal || flags.isTransfer
  let isAuthenticated := isGameLane || isAccountLane
  failIf (isAuthenticated && allZero input.oldPkHash.toList) .signedWithoutPk
  return { isAuthenticated, isAccountLane, isGameLane }

def computeNewNonce (oldNonce : UInt64) (isGameBump isAccountBump : Bool) :
    Except SlotRejection UInt64 := do
  failIf (oldNonce ≥ 1 <<< (gameLaneBits + accountLaneBits)) .nonceLaneOverflow
  let (accountLane, gameLane) := splitNonce oldNonce
  failIf (isGameBump && gameLane == gameLaneMax) .nonceLaneOverflow
  failIf (isAccountBump && accountLane == accountLaneMax) .nonceLaneOverflow
  return oldNonce + isGameBump.toUInt64 + isAccountBump.toUInt64 * accountLaneUnit

/-- The nonce advance of a slot of type `txType`, for the engine that keeps nonces of its own. -/
def advanceNonce (oldNonce : UInt64) (txType : UInt8) (isKeySetter : Bool) :
    Except SlotRejection UInt64 :=
  let flags := TxFlags.fromTxType txType
  let isGameBump := flags.isGameLane
  let isAccountBump := flags.isWithdrawal || flags.isTransfer || isKeySetter
  computeNewNonce oldNonce isGameBump isAccountBump

/-! ### Address and key -/

/-- The slot installs a key: a `key_register_only` that supplies one. -/
def SlotInput.isKeySetter (input : SlotInput) : Bool :=
  input.txType == txKeyRegisterOnly && !allZero input.newPkHash.toList

/-- The slot stamps the address. -/
def SlotInput.isAddressSetter (input : SlotInput) : Bool :=
  (input.txType == txDeposit || input.isKeySetter) && allZero input.oldAddressHash.toList

structure AddressSpec (P : Poseidon2Hash) (input : SlotInput) (addr : AddressEffects) : Prop where
  isKeySetter : addr.isKeySetter = input.isKeySetter
  newPkHash : addr.newPkHash = if input.isKeySetter then input.newPkHash else input.oldPkHash
  redeposit : input.txType = txDeposit → allZero input.oldAddressHash.toList = false →
    addressHash P input.userAddress = input.oldAddressHash
  newAddressHash : addr.newAddressHash =
    if input.isAddressSetter then addressHash P input.userAddress else input.oldAddressHash

theorem buildAddress_eq_ok {P : Poseidon2Hash} {input : SlotInput} {addr : AddressEffects} :
    buildAddress P input input.flags = .ok addr ↔ AddressSpec P input addr := by
  have hsetter : (input.flags.isDeposit && allZero input.oldAddressHash.toList ||
      input.isKeySetter && allZero input.oldAddressHash.toList) = input.isAddressSetter :=
    (Bool.and_or_distrib_right ..).symm
  have hkey : (input.flags.isKeyRegisterOnly && !allZero input.newPkHash.toList) =
      input.isKeySetter := rfl
  have hzeroSetter : allZero input.oldAddressHash.toList = false → input.isAddressSetter = false :=
    fun hzero => by rw [SlotInput.isAddressSetter, hzero, Bool.and_false]
  simp only [buildAddress, hkey, hsetter, bind_eq_ok]
  constructor
  · rintro ⟨newAddressHash, haddr, h⟩
    cases h
    refine ⟨rfl, rfl, fun hdep hzero => ?_, ?_⟩
    · rw [hzeroSetter hzero] at haddr
      by_contra hne
      simp [TxFlags.fromTxType, hdep, hzero, hne] at haddr
    · split at haddr
      · rename_i hset
        rw [if_pos hset, Except.ok.inj haddr]
      rename_i hset
      rw [if_neg hset]
      split at haddr
      · split at haddr
        · cases haddr
        · exact (Except.ok.inj haddr).symm
      · exact (Except.ok.inj haddr).symm
  · intro h
    obtain ⟨newPkHash, newAddressHash, isKeySetter⟩ := addr
    obtain ⟨rfl, rfl, hredeposit, rfl⟩ := h
    refine ⟨_, ?_, rfl⟩
    by_cases hset : input.isAddressSetter = true
    · rw [if_pos hset, if_pos hset]
    rw [if_neg hset, if_neg hset]
    split
    · rename_i hdep
      simp only [TxFlags.fromTxType, Bool.and_eq_true, beq_iff_eq, Bool.not_eq_true'] at hdep
      rw [hredeposit hdep.1 hdep.2, bne_self_eq_false, if_neg Bool.false_ne_true]
    · rfl

/-! ### Signed types -/

/-- The types that the owner signs with the registered key. -/
def SlotInput.isSigned (input : SlotInput) : Bool :=
  input.txType ∈ [txInHouseBet, txWithdrawal, txTransfer, txCrashSettle, txSetProviderAllowance]

/-- The slot bumps the game lane of the nonce. -/
def SlotInput.bumpsGameLane (input : SlotInput) : Bool :=
  input.txType ∈ [txInHouseBet, txCrashSettle, txSetProviderAllowance]

/-- The slot bumps the account lane of the nonce. -/
def SlotInput.bumpsAccountLane (input : SlotInput) : Bool :=
  decide (input.txType ∈ [txWithdrawal, txTransfer]) || input.isKeySetter

theorem isGameLane_eq (input : SlotInput) : input.flags.isGameLane = input.bumpsGameLane := by
  simp only [SlotInput.bumpsGameLane, TxFlags.isGameLane, TxFlags.isIhbOrCrash,
    TxFlags.fromTxType, List.mem_cons, List.not_mem_nil, or_false, Bool.decide_or,
    ← beq_eq_decide, Bool.or_assoc]

theorem isAccountLane_eq (input : SlotInput) :
    (input.flags.isWithdrawal || input.flags.isTransfer || input.isKeySetter) =
      input.bumpsAccountLane := by
  simp only [SlotInput.bumpsAccountLane, TxFlags.fromTxType, List.mem_cons, List.not_mem_nil,
    or_false, Bool.decide_or, ← beq_eq_decide]

theorem isAuthenticated_eq (input : SlotInput) :
    (input.bumpsGameLane || (input.flags.isWithdrawal || input.flags.isTransfer)) =
      input.isSigned := by
  rw [Bool.eq_iff_iff]
  simp only [SlotInput.isSigned, SlotInput.bumpsGameLane, TxFlags.fromTxType, List.mem_cons,
    List.not_mem_nil, or_false, Bool.or_eq_true, beq_iff_eq, decide_eq_true_eq]
  tauto

/-- The auth decode succeeds unless a signed slot carries an all-zero key hash. -/
theorem checkAuth_eq_ok {input : SlotInput} {auth : AuthDecode} :
    checkAuth input input.flags = .ok auth ↔
      (input.isSigned = true → allZero input.oldPkHash.toList = false) ∧
        auth = ⟨input.isSigned, input.flags.isWithdrawal || input.flags.isTransfer,
          input.bumpsGameLane⟩ := by
  simp only [checkAuth, isGameLane_eq, isAuthenticated_eq, failIf_bind_eq_ok, Bool.and_eq_false_iff]
  constructor
  · rintro ⟨hkey, h⟩
    cases h
    exact ⟨fun hs => hkey.resolve_left (by simp [hs]), rfl⟩
  · rintro ⟨hkey, rfl⟩
    refine ⟨?_, rfl⟩
    cases hs : input.isSigned with
    | false => exact Or.inl rfl
    | true => exact Or.inr (hkey hs)

/-! ### Nonce advance -/

/-- The nonce advance in exact arithmetic: no lane carries into the other. -/
structure NonceSpec (oldNonce : UInt64) (isGameBump isAccountBump : Bool) (new : UInt64) :
    Prop where
  range : oldNonce.toNat < 2 ^ 63
  game : isGameBump = true → oldNonce.toNat % 2 ^ 40 < 2 ^ 40 - 1
  account : isAccountBump = true → oldNonce.toNat / 2 ^ 40 < 2 ^ 23 - 1
  new : new.toNat = oldNonce.toNat + isGameBump.toNat + isAccountBump.toNat * 2 ^ 40

theorem nonce_add_toNat {n : UInt64} (h : n.toNat < 2 ^ 63) (g a : Bool) :
    (n + g.toUInt64 + a.toUInt64 * accountLaneUnit).toNat =
      n.toNat + g.toNat + a.toNat * 2 ^ 40 := by
  have hg : g.toUInt64.toNat = g.toNat := by cases g <;> rfl
  have ha : (a.toUInt64 * accountLaneUnit).toNat = a.toNat * 2 ^ 40 := by cases a <;> rfl
  have hg1 : g.toNat ≤ 1 := g.toNat_le
  have ha1 : a.toNat ≤ 1 := a.toNat_le
  rw [UInt64.toNat_add, UInt64.toNat_add, hg, ha]
  omega

theorem computeNewNonce_eq_ok {oldNonce new : UInt64} {g a : Bool} :
    computeNewNonce oldNonce g a = .ok new ↔ NonceSpec oldNonce g a new := by
  obtain ⟨hacct, hgame⟩ := splitNonce_toNat oldNonce
  have hrange : decide (oldNonce ≥ 1 <<< (gameLaneBits + accountLaneBits)) = false ↔
      oldNonce.toNat < 2 ^ 63 := by
    rw [decide_eq_false_iff_not, ge_iff_le, UInt64.not_le, UInt64.lt_iff_toNat_lt]
    rfl
  have hlanes := oldNonce.toNat_lt
  have hg : (g && (splitNonce oldNonce).2 == gameLaneMax) = false ↔
      (g = true → oldNonce.toNat % 2 ^ 40 < 2 ^ 40 - 1) := by
    rw [Bool.and_eq_false_imp, beq_eq_false_iff_ne, ne_eq, ← UInt64.toNat_inj, hgame,
      gameLaneMax_toNat]
    exact imp_congr_right fun _ => by omega
  simp only [computeNewNonce, failIf_bind_eq_ok, hrange, hg]
  constructor
  · rintro ⟨hr, hgc, hac, h⟩
    cases h
    refine ⟨hr, hgc, fun ha => ?_, nonce_add_toNat hr g a⟩
    rw [Bool.and_eq_false_imp] at hac
    have hne := beq_eq_false_iff_ne.mp (hac ha)
    rw [ne_eq, ← UInt64.toNat_inj, hacct, accountLaneMax_toNat] at hne
    omega
  · rintro ⟨hr, hgc, hac, hnew⟩
    refine ⟨hr, hgc, ?_, ?_⟩
    · rw [Bool.and_eq_false_imp]
      intro ha
      rw [beq_eq_false_iff_ne, ne_eq, ← UInt64.toNat_inj, hacct, accountLaneMax_toNat]
      have := hac ha
      omega
    · congr 1
      apply UInt64.toNat_inj.mp
      rw [nonce_add_toNat hr, hnew]

namespace NonceSpec

variable {oldNonce new : UInt64} {g a : Bool}

/-- A bump stays within its lane. -/
theorem lanes_lt (h : NonceSpec oldNonce g a new) : oldNonce.toNat % 2 ^ 40 + g.toNat < 2 ^ 40 ∧
    oldNonce.toNat / 2 ^ 40 + a.toNat < 2 ^ 23 := by
  constructor
  · cases g with
    | false => exact Nat.mod_lt _ (by decide)
    | true => exact Nat.add_lt_of_lt_sub (h.game rfl)
  · cases a with
    | false => exact Nat.div_lt_of_lt_mul h.range
    | true => exact Nat.add_lt_of_lt_sub (h.account rfl)

theorem new_lt (h : NonceSpec oldNonce g a new) : new.toNat < 2 ^ 63 := by
  obtain ⟨hgame, haccount⟩ := h.lanes_lt
  rw [h.new]
  omega

theorem gameLane (h : NonceSpec oldNonce g a new) :
    new.toNat % 2 ^ 40 = oldNonce.toNat % 2 ^ 40 + g.toNat := by
  obtain ⟨hgame, -⟩ := h.lanes_lt
  rw [h.new]
  omega

theorem accountLane (h : NonceSpec oldNonce g a new) :
    new.toNat / 2 ^ 40 = oldNonce.toNat / 2 ^ 40 + a.toNat := by
  obtain ⟨hgame, -⟩ := h.lanes_lt
  rw [h.new]
  omega

end NonceSpec

end TxValidator
