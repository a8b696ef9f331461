import TxValidator.Execution
import TxValidator.Commitments

/-! Safety of the execution: whatever the slot, every operation that the validator reaches meets its
precondition, so it neither panics nor hashes an element that is not canonical. -/

namespace TxValidator

/-- What the validator relies on in the game library: the codes of the actions that it replays, the
size of a shoe, and the number of picks of a keno ticket. -/
structure GameCore.Documented (G : GameCore) : Prop where
  actionHit : G.actionHit = 1
  actionInsuranceDecline : G.actionInsuranceDecline = 6
  maxCards : G.maxCards = 30
  kenoPicks : ∀ picks, G.kenoValidateSelected picks = true → picks.length ≤ 10

namespace Execution

open Checked Traced

variable {P : Poseidon2Hash} {G : GameCore} {input : SlotInput} {flags : TxFlags}

theorem emit_runs (op : Operation G) (h : op.Safe) :
    Runs Operation.Safe (emit op : Exec G Unit) (.ok ()) := Runs.emit h

/-! ### Hashes -/

theorem poseidon2_runs {xs : List UInt64} (h : allCanonical xs = true) :
    Runs Operation.Safe (poseidon2 P xs : Exec G Digest) (.ok (TxValidator.poseidon2 P xs)) :=
  (emit_runs (.hash xs) h).step (Runs.pure _)

theorem balanceLeaf_runs {balance credit nonce allowance : UInt64} {seedHash : Vector UInt64 3}
    (hseed : allCanonical seedHash.toList = true) (hnonce : isCanonical nonce = true)
    (hallowance : allowance ≤ providerAllowanceMax) :
    Runs Operation.Safe (balanceLeaf P balance seedHash credit nonce allowance : Exec G Digest)
      (.ok (TxValidator.balanceLeaf P balance seedHash credit nonce allowance)) :=
  (emit_runs (.packBalanceFields balance allowance) hallowance).step
    (poseidon2_runs (balanceLeafPreimage_canonical hseed hnonce hallowance))

theorem rootFromLeaf_runs {leaf : Digest} {siblings : Vector Digest treeDepth} {userId : UInt32}
    (hleaf : allCanonical leaf.toList = true)
    (hsiblings : ∀ s ∈ siblings.toList, allCanonical s.toList = true) :
    Runs Operation.Safe (rootFromLeaf P leaf siblings userId : Exec G Digest)
      (.ok (TxValidator.rootFromLeaf P leaf siblings userId)) := by
  refine Runs.foldl (I := fun d : Digest => allCanonical d.toList = true) ?_ hleaf
  rintro current hcurrent ⟨sibling, level⟩ hmem
  have hsibling := hsiblings sibling (List.fst_mem_of_mem_zipIdx hmem)
  dsimp only
  split
  · exact ⟨poseidon2_runs (twoToOnePreimage_canonical hsibling hcurrent), poseidon2_canonical P _⟩
  · exact ⟨poseidon2_runs (twoToOnePreimage_canonical hcurrent hsibling), poseidon2_canonical P _⟩

theorem computeRoot_runs {balanceHash pkHash addressHash : Digest}
    {siblings : Vector Digest treeDepth} {userId : UInt32}
    (hbalance : allCanonical balanceHash.toList = true) (hpk : allCanonical pkHash.toList = true)
    (haddress : allCanonical addressHash.toList = true)
    (hsiblings : ∀ s ∈ siblings.toList, allCanonical s.toList = true) :
    Runs Operation.Safe
      (computeRoot P balanceHash pkHash addressHash siblings userId : Exec G Digest)
      (.ok (TxValidator.computeRoot P balanceHash pkHash addressHash siblings userId)) :=
  (poseidon2_runs (mainLeafPreimage_canonical hbalance hpk haddress)).step
    (rootFromLeaf_runs (poseidon2_canonical P _) hsiblings)

theorem addressHash_runs (userAddress : Vector UInt8 20) :
    Runs Operation.Safe (addressHash P userAddress : Exec G Digest)
      (.ok (TxValidator.addressHash P userAddress)) := by
  refine poseidon2_runs (allCanonical_iff.mpr fun v hv => ?_)
  obtain ⟨b, -, rfl⟩ := List.mem_map.mp hv
  exact toUInt64_canonical_u8 b

theorem append_canonical {xs ys : List UInt64} (hxs : allCanonical xs = true)
    (hys : allCanonical ys = true) : allCanonical (xs ++ ys) = true := by
  rw [allCanonical] at hxs hys ⊢
  rw [List.all_append, hxs, hys, Bool.and_self]

theorem seedHashTruncated_runs {serverSeed : Vector UInt64 8}
    (h : allCanonical serverSeed.toList = true) :
    Runs Operation.Safe (seedHashTruncated P serverSeed : Exec G (Vector UInt64 3))
      (.ok (TxValidator.seedHashTruncated P serverSeed)) :=
  (poseidon2_runs h).step (Runs.pure _)

/-! ### Identity -/

theorem buildAddress_runs :
    Runs Operation.Safe (buildAddress P input flags : Exec G AddressEffects)
      (TxValidator.buildAddress P input flags) := by
  refine Runs.bind ?_ fun newAddressHash _ => Runs.pure _
  split
  · exact addressHash_runs _
  split
  · refine (addressHash_runs _).step ?_
    rw [← failIf_bind]
    exact (Runs.lift _).bind fun _ _ => Runs.pure _
  · exact Runs.pure _

theorem recipientAddrHashFor_runs {txType : UInt8} {userAddress : Vector UInt8 20} :
    Runs Operation.Safe
      (recipientAddrHashFor P txType userAddress : Exec G (Vector UInt64 2))
      (.ok (TxValidator.recipientAddrHashFor P txType userAddress)) := by
  unfold recipientAddrHashFor TxValidator.recipientAddrHashFor
  split
  · exact (addressHash_runs _).step (Runs.pure _)
  · exact Runs.pure _

theorem checkRecipientBinding_runs :
    Runs Operation.Safe (checkRecipientBinding P input input.flags : Exec G Unit)
      (TxValidator.checkRecipientBinding P input) :=
  (emit_runs (.debugAssert _) (beq_self_eq_true _)).step
    (recipientAddrHashFor_runs.step (Runs.lift _))

theorem computeNewNonce_runs {oldNonce : UInt64} {g a : Bool} :
    Runs Operation.Safe (computeNewNonce oldNonce g a : Exec G UInt64)
      (TxValidator.computeNewNonce oldNonce g a) := by
  refine (Runs.lift _).bind fun _ hrange => (Runs.lift _).bind fun _ _ =>
    (Runs.lift _).bind fun _ _ => ?_
  have hlt : oldNonce.toNat < 2 ^ 63 := by
    rw [failIf_eq_ok, decide_eq_false_iff_not, ge_iff_le, UInt64.not_le,
      UInt64.lt_iff_toNat_lt] at hrange
    exact hrange
  have hgame : g.toUInt64.toNat ≤ 1 := by cases g <;> decide
  have haccount : (a.toUInt64 * accountLaneUnit).toNat ≤ 2 ^ 40 := by cases a <;> decide
  have hfirst : oldNonce.toNat + g.toUInt64.toNat < 2 ^ 64 := by omega
  refine (emit_runs (.add oldNonce g.toUInt64) hfirst).step
    ((emit_runs (.add _ _) ?_).step (Runs.pure _))
  show (oldNonce + g.toUInt64).toNat + _ < 2 ^ 64
  rw [UInt64.toNat_add, Nat.mod_eq_of_lt hfirst]
  omega

/-! ### Games -/

theorem unfoldShoe_runs (hcards : G.maxCards = 30) {serverSeed : Vector UInt64 8}
    {userSecretRandom : Vector UInt64 4} (hserver : allCanonical serverSeed.toList = true)
    (hsecret : allCanonical userSecretRandom.toList = true) :
    Runs Operation.Safe
      (unfoldShoe P serverSeed userSecretRandom : Exec G (Vector UInt8 G.maxCards))
      (.ok (TxValidator.unfoldShoe P G serverSeed userSecretRandom)) := by
  refine (poseidon2_runs (append_canonical hserver hsecret)).step
    (Runs.step (Runs.ofFn fun k => ?_) (Runs.pure _))
  have hlt := k.isLt
  have hk : (UInt64.ofNat k.val).toNat = k.val :=
    UInt64.toNat_ofNat_of_lt' (show k.val < 2 ^ 64 by omega)
  have hcard : allCanonical [UInt64.ofNat k.val] = true := by
    refine allCanonical_iff.mpr fun v hv => ?_
    rw [List.mem_singleton.mp hv]
    exact isCanonical_of_lt (by omega)
  exact (poseidon2_runs (append_canonical (poseidon2_canonical P _) hcard)).step (Runs.pure _)

theorem blackjackComputePayout_runs (hG : G.Documented) {serverSeed : Vector UInt64 8}
    {userSecretRandom : Vector UInt64 4} {predictionLo predictionHi : UInt32} {baseBet : UInt64}
    (hserver : allCanonical serverSeed.toList = true)
    (hsecret : allCanonical userSecretRandom.toList = true) :
    Runs Operation.Safe (blackjackComputePayout P serverSeed userSecretRandom predictionLo
        predictionHi baseBet : Exec G (Option BlackjackResult))
      (.ok (TxValidator.blackjackComputePayout P G serverSeed userSecretRandom predictionLo
        predictionHi baseBet)) := by
  unfold blackjackComputePayout TxValidator.blackjackComputePayout
  dsimp only
  split
  · exact Runs.pure _
  · rename_i hvalid
    refine (unfoldShoe_runs hG.maxCards hserver hsecret).step
      ((emit_runs (.replayFull _) fun a ha => ?_).step (Runs.pure _))
    simp only [Bool.not_eq_true, List.any_eq_false, Bool.or_eq_true, decide_eq_true_eq, not_or,
      gt_iff_lt, UInt8.not_lt, hG.actionHit, hG.actionInsuranceDecline] at hvalid
    exact hvalid a ha

/-- What the screening of keno picks establishes. -/
theorem sortedKenoPicks_safe {picks : List UInt8} (h : sortedKenoPicks G input = .ok picks) :
    (Operation.kenoPayout input.gameMode.toUInt8 picks : Operation G).Safe := by
  obtain ⟨rfl, hmode, hvalid, htable⟩ := sortedKenoPicks_eq_ok.mp h
  refine ⟨List.pairwise_insertionSort _ _, hvalid, ?_, htable⟩
  have hle := UInt32.le_iff_toNat_le.mp hmode
  rw [UInt8.le_iff_toNat_le, UInt32.toNat_toUInt8]
  exact (Nat.mod_le _ _).trans hle

theorem verifyPredictionHash_runs (hG : G.Documented) :
    Runs Operation.Safe (verifyPredictionHash P G input)
      (TxValidator.verifyPredictionHash P G input flags) := by
  refine Runs.bind ?_ fun _ _ => Runs.lift _
  split
  · refine (Runs.lift _).bind fun picks hpicks => ?_
    obtain ⟨rfl, -, hvalid, -⟩ := sortedKenoPicks_eq_ok.mp hpicks
    exact poseidon2_runs (kenoPreimage_canonical (hG.kenoPicks _ hvalid))
  · exact poseidon2_runs (standardPreimage_canonical input)

theorem dispatchPayout_runs (hG : G.Documented) (on : AlwaysOn P input)
    {random : Vector UInt64 4} :
    Runs Operation.Safe (dispatchPayout P G input random)
      (TxValidator.dispatchPayout P G input random) := by
  obtain ⟨hserver, -, -, -, -, -, -, -, -, hsecret, -⟩ := fieldsCanonical_iff.mp on.canonical
  unfold dispatchPayout TxValidator.dispatchPayout
  dsimp only
  split
  · exact Runs.pure _
  split
  · exact Runs.pure _
  split
  · refine (Runs.lift _).bind fun mode hmode => ?_
    exact (emit_runs (.dicePayout mode) ⟨_, okOr_eq_ok.mp hmode⟩).step (Runs.pure _)
  split
  · refine (Runs.lift _).bind fun picks hpicks => ?_
    exact (emit_runs _ (sortedKenoPicks_safe hpicks)).step (Runs.pure _)
  split
  · refine (Runs.lift _).bind fun _ hvalid => ?_
    rw [failIf_eq_ok, Bool.not_eq_false'] at hvalid
    exact (emit_runs (.plinkoPayout _ _ _) hvalid).step (Runs.pure _)
  split
  · refine (Runs.lift _).bind fun _ hvalid => ?_
    have hside := UInt8.not_lt.mp (of_decide_eq_false (failIf_eq_ok.mp hvalid))
    exact (emit_runs (.coinflipPayout _) hside).step (Runs.pure _)
  split
  · refine (blackjackComputePayout_runs hG hserver hsecret).step ?_
    exact (Runs.lift _).bind fun _ _ => (Runs.lift _).bind fun _ _ => Runs.pure _
  · exact Runs.lift _

theorem verifyPayout_runs (hG : G.Documented) (on : AlwaysOn P input)
    {random : Vector UInt64 4} :
    Runs Operation.Safe (verifyPayout P G input random)
      (TxValidator.verifyPayout P G input flags random) :=
  (dispatchPayout_runs hG on).bind fun _ _ => Runs.lift _

/-! ### Fairness -/

theorem checkSeedHash_runs {checked : Bool} {serverSeed : Vector UInt64 8}
    {seedHash : Vector UInt64 3} {rejection : SlotRejection}
    (hserver : allCanonical serverSeed.toList = true) :
    Runs Operation.Safe (checkSeedHash P checked serverSeed seedHash rejection : Exec G Unit)
      (failIf (checked && TxValidator.seedHashTruncated P serverSeed != seedHash) rejection) := by
  cases checked with
  | false => exact Runs.pure _
  | true => exact (seedHashTruncated_runs hserver).step (Runs.lift _)

theorem checkCrashCommit_runs (hserver : allCanonical input.serverSeed.toList = true) :
    Runs Operation.Safe (checkCrashCommit P input flags : Exec G Unit)
      (failIf (flags.isCrashSettle && match input.crashSeedHash with
        | some seedHash => TxValidator.seedHashTruncated P input.serverSeed != seedHash
        | none => false) .crashSeedCommitMismatch) := by
  unfold checkCrashCommit
  cases input.crashSeedHash with
  | some seedHash => exact checkSeedHash_runs hserver
  | none =>
    dsimp only
    rw [Bool.and_false]
    exact Runs.pure _

theorem checkUserSeed_runs (on : AlwaysOn P input) :
    Runs Operation.Safe (checkUserSeed P input flags : Exec G Unit)
      (failIf (flags.isInHouseBet && TxValidator.userSeedBinding P input.gameId.toUInt64
        input.amount input.predictionHash input.userSecretRandom != input.userSeed)
        .userSeedBindingMismatch) := by
  unfold checkUserSeed
  cases flags.isInHouseBet with
  | false => exact Runs.pure _
  | true => exact (poseidon2_runs (bindingPreimage_canonical on)).step (Runs.lift _)

theorem checkFairness_runs (hG : G.Documented) (on : AlwaysOn P input)
    (hgame : flags.isIhbOrCrash = true) :
    Runs Operation.Safe (checkFairness P G input flags)
      (TxValidator.checkFairness P G input flags) := by
  obtain ⟨hserver, huser, -, -, -, -, -, -, hprediction, -, -⟩ :=
    fieldsCanonical_iff.mp on.canonical
  refine (emit_runs (.debugAssert _) hgame).step ((checkSeedHash_runs hserver).bind fun _ _ =>
    (checkCrashCommit_runs hserver).bind fun _ _ => (checkUserSeed_runs on).bind fun _ _ => ?_)
  have hslotH : ∀ {random : Vector UInt64 4}, allCanonical random.toList = true →
      allCanonical (slotHPreimage random input.amount input.winAmount input.gameId.toUInt64
        input.predictionHash) = true := fun h =>
    slotHPreimage_canonical h on.amount on.winAmount (toUInt64_canonical_u8 _) hprediction
  cases flags.isInHouseBet with
  | true =>
    refine (poseidon2_runs (append_canonical hserver huser)).step
      ((verifyPredictionHash_runs hG).bind fun _ _ => (verifyPayout_runs hG on).bind fun _ _ => ?_)
    exact (poseidon2_runs (hslotH (poseidon2_canonical P _))).step (Runs.pure _)
  | false =>
    refine (Runs.pure (randomCrash input.serverSeed)).step
      ((verifyPredictionHash_runs hG).bind fun _ _ => (verifyPayout_runs hG on).bind fun _ _ => ?_)
    exact (poseidon2_runs (hslotH (randomCrash_canonical hserver))).step (Runs.pure _)

/-! ### Slots -/

theorem verifyCurrentRoot_runs (hfields : fieldsCanonical input = true)
    (hallowance : input.oldProviderAllowance ≤ providerAllowanceMax) :
    Runs Operation.Safe (verifyCurrentRoot P input : Exec G Unit)
      (TxValidator.verifyCurrentRoot P input) := by
  obtain ⟨-, -, hseed, -, hnonce, hpk, -, haddress, -, -, hsiblings⟩ :=
    fieldsCanonical_iff.mp hfields
  refine (balanceLeaf_runs hseed hnonce hallowance).step ?_
  exact (computeRoot_runs (poseidon2_canonical P _) hpk haddress hsiblings).step (Runs.lift _)

theorem computeNewRoot_runs {newBalance newCredit newNonce newAllowance : UInt64}
    {newSeedHash : Vector UInt64 3} {newPkHash newAddressHash : Digest}
    {siblings : Vector Digest treeDepth} {userId : UInt32}
    (hseed : allCanonical newSeedHash.toList = true) (hnonce : isCanonical newNonce = true)
    (hallowance : newAllowance ≤ providerAllowanceMax)
    (hpk : allCanonical newPkHash.toList = true)
    (haddress : allCanonical newAddressHash.toList = true)
    (hsiblings : ∀ s ∈ siblings.toList, allCanonical s.toList = true) :
    Runs Operation.Safe (computeNewRoot P newBalance newSeedHash newCredit newNonce newAllowance
        newPkHash newAddressHash siblings userId : Exec G Digest)
      (.ok (TxValidator.computeNewRoot P newBalance newSeedHash newCredit newNonce newAllowance
        newPkHash newAddressHash siblings userId)) :=
  (balanceLeaf_runs hseed hnonce hallowance).step
    (computeRoot_runs (poseidon2_canonical P _) hpk haddress hsiblings)

theorem fairnessResult_runs (hG : G.Documented) (on : AlwaysOn P input) :
    Runs Operation.Safe
      (if input.flags.isIhbOrCrash then some <$> checkFairness P G input input.flags
        else return none)
      (if input.flags.isIhbOrCrash then some <$> TxValidator.checkFairness P G input input.flags
        else .ok none) := by
  split
  · exact (checkFairness_runs hG on ‹_›).map
  · exact Runs.pure _

theorem computeEffects_runs (hG : G.Documented) (on : AlwaysOn P input) :
    Runs Operation.Safe (computeEffects P G input) (TxValidator.computeEffects P G input) := by
  obtain ⟨-, -, hseed, hnext, -, hpk, hnewPk, haddress, -, -, hsiblings⟩ :=
    fieldsCanonical_iff.mp on.canonical
  refine (Runs.lift _).bind fun _ _ => (Runs.lift _).bind fun _ _ =>
    (Runs.lift _).bind fun bal _ => (Runs.lift _).bind fun newAllowance hallowance =>
    (Runs.lift _).bind fun _ _ => buildAddress_runs.bind fun addr haddr =>
    checkRecipientBinding_runs.bind fun _ _ => (Runs.lift _).bind fun auth _ =>
    computeNewNonce_runs.bind fun newNonce hnonce => ?_
  rcases splitNonce newNonce with ⟨newAccountNonce, newGameNonce⟩
  refine (fairnessResult_runs hG on).bind fun r hr => (Runs.lift _).bind fun _ _ =>
    (Runs.lift _).bind fun _ _ => (computeNewRoot_runs ?_ ?_ ?_ ?_ ?_ hsiblings).step (Runs.pure _)
  · rcases fairnessResult_eq_ok.mp hr with ⟨-, fe, hfe, rfl⟩ | ⟨-, rfl⟩
    · dsimp only
      rw [hfe.newSeedHash]
      split
      · exact hnext
      · exact hseed
    · dsimp only
      split
      · exact hnext
      · exact hseed
  · exact isCanonical_of_lt (computeNewNonce_eq_ok.mp hnonce).new_lt
  · exact (computeNewAllowance_eq_ok.mp hallowance).le_max
  · rw [(buildAddress_eq_ok.mp haddr).newPkHash]
    split
    · exact hnewPk
    · exact hpk
  · rw [(buildAddress_eq_ok.mp haddr).newAddressHash]
    split
    · exact poseidon2_canonical P _
    · exact haddress

theorem validateSlot_runs (hG : G.Documented) (input : SlotInput) :
    Runs Operation.Safe (validateSlot P G input) (TxValidator.validateSlot P G input) := by
  refine (Runs.lift _).bind fun _ htype => (Runs.lift _).bind fun _ hfields =>
    (Runs.lift _).bind fun _ hamount => (Runs.lift _).bind fun _ hallowance =>
    (Runs.lift _).bind fun _ huser => ?_
  have hcanonical : fieldsCanonical input = true := ite_eq_ok.mp hfields
  have hstored : input.oldProviderAllowance ≤ providerAllowanceMax :=
    UInt64.not_lt.mp (of_decide_eq_false (failIf_eq_ok.mp hallowance))
  refine (verifyCurrentRoot_runs hcanonical hstored).bind fun _ hroot =>
    (Runs.lift _).bind fun _ htl => ?_
  rw [failIf_eq_ok, bne_eq_false_iff_eq] at htl
  exact computeEffects_runs hG (alwaysOn_iff.mpr ⟨htype, hfields, hamount, hallowance, huser,
    hroot, htl⟩)

/-- Every execution of the validator returns what the validator does, and each operation on its way
meets its precondition. -/
theorem validateSlot_never_panics (hG : G.Documented) (input : SlotInput) :
    (validateSlot P G input).result = TxValidator.validateSlot P G input ∧
      ∀ op ∈ (validateSlot P G input).trace, op.Safe := by
  have hruns := validateSlot_runs (P := P) hG input
  exact ⟨hruns.result, hruns.allowed⟩

theorem evenCore_documented : evenCore.Documented where
  actionHit := rfl
  actionInsuranceDecline := rfl
  maxCards := rfl
  kenoPicks _ h := (of_decide_eq_true h).2

theorem houseBet_never_panics :
    (validateSlot sumHash evenCore houseBet).result = .ok houseBetEffects ∧
      ∀ op ∈ (validateSlot sumHash evenCore houseBet).trace, op.Safe := by
  obtain ⟨hresult, hsafe⟩ := validateSlot_never_panics evenCore_documented houseBet
  exact ⟨hresult.trans houseBet_ok, hsafe⟩

end Execution

end TxValidator
