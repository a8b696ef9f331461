import TxValidator.Ledger

/-! The two parts of the effect layer: the effects that a slot computes from its own fields, and its
root and total liability, the only ones that read the shared state. -/

namespace TxValidator

open Checked

/-- The effects of a slot apart from its root and total liability. -/
structure LocalEffects where
  bal : BalanceEffects
  newProviderAllowance : UInt64
  addr : AddressEffects
  newNonce : UInt64
  fairnessResult : Option FairnessEffects
  newSeedHash : Vector UInt64 3

section Parts

variable (P : Poseidon2Hash) (G : GameCore)

/-- The effect layer up to the seed advance. -/
def computeLocal (input : SlotInput) : Except SlotRejection LocalEffects := do
  let flags := TxFlags.fromTxType input.txType
  failIf (flags.isSetInitSeedHash && input.userId != 0) .setInitSeedNotAccountZero
  failIf (flags.isInHouseBet && input.userId == 0) .inHouseBetOnAccountZero
  let bal ← buildBalanceChanges input flags
  let newProviderAllowance ← computeNewAllowance input flags
  failIf (flags.isRiskReject && bal.newBalance < input.oldDepositCredit) .riskRejectBelowCredit
  let addr ← buildAddress P input flags
  checkRecipientBinding P input
  let auth ← checkAuth input flags
  let isAccountBump := auth.isAccountLane || addr.isKeySetter
  let newNonce ← computeNewNonce input.oldNonce auth.isGameLane isAccountBump
  let fairnessResult ← (
    if flags.isIhbOrCrash then some <$> checkFairness P G input flags else .ok none)
  let isFirstRegistration := flags.isKeyRegisterOnly && allZero input.oldSeedHash.toList
  let isNeedsNewSeed := flags.isInHouseBet || flags.isSetInitSeedHash || isFirstRegistration
  failIf (isNeedsNewSeed && allZero input.nextServerSeedHash.toList) .zeroSeedCommit
  let newSeedHash := match fairnessResult with
    | some fe => fe.newSeedHash
    | none =>
      if flags.isSetInitSeedHash || isFirstRegistration then input.nextServerSeedHash
      else input.oldSeedHash
  return { bal, newProviderAllowance, addr, newNonce, fairnessResult, newSeedHash }

namespace LocalEffects

variable (c : LocalEffects) (input : SlotInput)

/-- The effects of a slot with the total liability `newTotalLiability` after it. -/
def effects (newTotalLiability : UInt64) : SlotEffects where
  newBalance := c.bal.newBalance
  newCredit := c.bal.newCredit
  newSeedHash := c.newSeedHash
  newNonce := c.newNonce
  newGameNonce := (splitNonce c.newNonce).2
  newAccountNonce := (splitNonce c.newNonce).1
  newProviderAllowance := c.newProviderAllowance
  newPkHash := c.addr.newPkHash
  newAddressHash := c.addr.newAddressHash
  newRoot := computeNewRoot P c.bal.newBalance c.newSeedHash c.bal.newCredit c.newNonce
    c.newProviderAllowance c.addr.newPkHash c.addr.newAddressHash input.mainSiblings input.userId
  newTotalLiability
  random := (c.fairnessResult.map FairnessEffects.random).getD zeroDigest
  slotH := (c.fairnessResult.map FairnessEffects.slotH).getD zeroDigest
  isMultisetSlot := c.fairnessResult.isSome

/-- The leaf that the effects describe. -/
def newLeaf : Leaf where
  balance := c.bal.newBalance
  credit := c.bal.newCredit
  seedHash := c.newSeedHash
  nonce := c.newNonce
  allowance := c.newProviderAllowance
  pk := committed c.addr.newPkHash
  address := committed c.addr.newAddressHash

/-- The effect layer from the total liability on. -/
def finish : Except SlotRejection SlotEffects :=
  c.effects P input <$> computeNewTl input.oldTotalLiability c.bal.addFull c.bal.subFull

end LocalEffects

theorem LocalEffects.effects_newLeaf (c : LocalEffects) (input : SlotInput)
    (newTotalLiability : UInt64) :
    (c.effects P input newTotalLiability).newLeaf = c.newLeaf := rfl

theorem computeEffects_eq_local (input : SlotInput) :
    computeEffects P G input = computeLocal P G input >>= fun c => c.finish P input := by
  simp only [computeEffects, computeLocal, bind_assoc, pure_bind]
  rfl

/-- An accepted slot has its local effects, with the total liability that they lead to. -/
theorem exists_localEffects {P : Poseidon2Hash} {G : GameCore} {input : SlotInput} {e : SlotEffects}
    (h : validateSlot P G input = .ok e) :
    ∃ c newTl, computeLocal P G input = .ok c ∧
      computeNewTl input.oldTotalLiability c.bal.addFull c.bal.subFull = .ok newTl ∧
      e = c.effects P input newTl := by
  obtain ⟨on, -⟩ := validateSlot_eq_ok.mp h
  rw [validateSlot_eq_computeEffects on, computeEffects_eq_local] at h
  obtain ⟨c, hc, hfinish⟩ := bind_eq_ok.mp h
  obtain ⟨newTl, htl, he⟩ := map_eq_ok.mp hfinish
  exact ⟨c, newTl, hc, htl, he.symm⟩

end Parts

end TxValidator
