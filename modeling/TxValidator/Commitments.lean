import TxValidator.Settlement

/-! The commitments of an `in_house_bet`.  Two accepted bets with one seed commitment and one user
seed share everything that decides their outcome, or two different canonical inputs of a hash
collide, and the inputs are the ones that the two slots hash. -/

namespace TxValidator

open Checked

variable {P : Poseidon2Hash} {G : GameCore} {input input1 input2 : SlotInput}
  {e e1 e2 : SlotEffects} {random : Vector UInt64 4} {win : UInt64}

/-- The permutation has one output on the two inputs, which differ as field elements. -/
structure Collision (P : Poseidon2Hash) (x y : List UInt64) : Prop where
  ne : x.map fromCanonicalU64 ≠ y.map fromCanonicalU64
  eq : P.hashNoPad (x.map fromCanonicalU64) = P.hashNoPad (y.map fromCanonicalU64)

/-- As `Collision`, for two server seeds and the three elements that are kept of the output. -/
structure SeedCollision (P : Poseidon2Hash) (x y : Vector UInt64 8) : Prop where
  ne : x.toList.map fromCanonicalU64 ≠ y.toList.map fromCanonicalU64
  eq : seedHashTruncated P x = seedHashTruncated P y

theorem eq_or_collision {x y : List UInt64} (hx : allCanonical x = true)
    (hy : allCanonical y = true) (h : poseidon2 P x = poseidon2 P y) : x = y ∨ Collision P x y := by
  by_cases hxy : x.map fromCanonicalU64 = y.map fromCanonicalU64
  · exact Or.inl (map_fromCanonicalU64_injOn hx hy hxy)
  · exact Or.inr ⟨hxy, poseidon2_eq_iff.mp h⟩

theorem eq_or_seedCollision {x y : Vector UInt64 8} (hx : allCanonical x.toList = true)
    (hy : allCanonical y.toList = true) (h : seedHashTruncated P x = seedHashTruncated P y) :
    x = y ∨ SeedCollision P x y := by
  by_cases hxy : x.toList.map fromCanonicalU64 = y.toList.map fromCanonicalU64
  · exact Or.inl (Vector.toList_inj.mp (map_fromCanonicalU64_injOn hx hy hxy))
  · exact Or.inr ⟨hxy, h⟩

/-- The seven game identifiers are pairwise distinct. -/
def GameCore.DistinctIds (G : GameCore) : Prop := (G.crashGameId :: G.inHouseGameIds).Nodup

/-! ### Canonical preimages -/

theorem toUInt64_canonical_u8 (v : UInt8) : isCanonical v.toUInt64 = true :=
  isCanonical_of_lt (by rw [UInt8.toNat_toUInt64]; have := v.toNat_lt; omega)

theorem toUInt64_canonical_u32 (v : UInt32) : isCanonical v.toUInt64 = true :=
  isCanonical_of_lt (by rw [UInt32.toNat_toUInt64]; have := v.toNat_lt; omega)

theorem bindingPreimage_canonical (on : AlwaysOn P input) :
    allCanonical input.bindingPreimage = true := by
  obtain ⟨-, -, -, -, -, -, -, -, hpred, hsecret, -⟩ := fieldsCanonical_iff.mp on.canonical
  rw [allCanonical_iff] at hpred hsecret ⊢
  intro v hv
  simp only [SlotInput.bindingPreimage, userSeedBindingPreimage, List.mem_cons, List.not_mem_nil,
    or_false] at hv
  rcases hv with rfl | rfl | rfl | rfl | rfl | rfl | rfl | rfl | rfl | rfl
  · exact toUInt64_canonical_u8 _
  · exact on.amount
  · exact hpred _ (by simp)
  · exact hpred _ (by simp)
  · exact hpred _ (by simp)
  · exact hpred _ (by simp)
  · exact hsecret _ (by simp)
  · exact hsecret _ (by simp)
  · exact hsecret _ (by simp)
  · exact hsecret _ (by simp)

theorem standardPreimage_canonical (input : SlotInput) :
    allCanonical input.standardPreimage = true := by
  rw [allCanonical_iff]
  intro v hv
  simp only [SlotInput.standardPreimage, predictionHashStandardPreimage, List.mem_cons,
    List.not_mem_nil, or_false] at hv
  rcases hv with rfl | rfl | rfl | rfl
  · exact toUInt64_canonical_u8 _
  all_goals exact toUInt64_canonical_u32 _

theorem toNat_ofNat_of_le_ten {n : ℕ} (h : n ≤ 10) : (UInt64.ofNat n).toNat = n :=
  UInt64.toNat_ofNat_of_lt' (Nat.lt_of_le_of_lt h (by decide))

theorem kenoPreimage_canonical (hlen : (input.kenoSelected.insertionSort (· ≤ ·)).length ≤ 10) :
    allCanonical input.kenoPreimage = true := by
  rw [allCanonical_iff]
  intro v hv
  simp only [SlotInput.kenoPreimage, predictionHashKenoPreimage, List.mem_append, List.mem_cons,
    List.not_mem_nil, or_false, List.mem_map] at hv
  rcases hv with (rfl | rfl | rfl) | ⟨i, -, rfl⟩
  · exact toUInt64_canonical_u8 _
  · exact toUInt64_canonical_u32 _
  · refine isCanonical_of_lt ?_
    rw [toNat_ofNat_of_le_ten hlen]
    omega
  · split
    · exact toUInt64_canonical_u8 _
    · decide

/-! ### What the preimages determine -/

theorem standardPreimage_inj (h : input1.standardPreimage = input2.standardPreimage) :
    input1.gameMode = input2.gameMode ∧ input1.predictionLo = input2.predictionLo ∧
      input1.predictionHi = input2.predictionHi := by
  simp only [SlotInput.standardPreimage, predictionHashStandardPreimage, List.cons.injEq,
    UInt32.toUInt64_inj, and_true] at h
  exact h.2

/-- Two pick lists of at most ten picks with one keno preimage are equal. -/
theorem predictionHashKenoPreimage_inj {g1 g2 r1 r2 : UInt64} {l1 l2 : List UInt8}
    (hlen1 : l1.length ≤ 10) (hlen2 : l2.length ≤ 10)
    (h : predictionHashKenoPreimage g1 r1 (UInt64.ofNat l1.length) l1 =
      predictionHashKenoPreimage g2 r2 (UInt64.ofNat l2.length) l2) : r1 = r2 ∧ l1 = l2 := by
  simp only [predictionHashKenoPreimage, List.cons_append, List.nil_append, List.cons.injEq] at h
  obtain ⟨-, hrisk, hcount, hpicks⟩ := h
  have hlen : l1.length = l2.length := by
    have h' := congrArg UInt64.toNat hcount
    rwa [toNat_ofNat_of_le_ten hlen1, toNat_ofNat_of_le_ten hlen2] at h'
  refine ⟨hrisk, List.ext_getElem hlen fun i h1 h2 => ?_⟩
  have hi := List.map_inj_left.mp hpicks i (List.mem_range.mpr (by omega))
  rw [dif_pos h1, dif_pos h2] at hi
  exact UInt8.toUInt64_inj.mp hi

theorem kenoPreimage_inj (hlen1 : (input1.kenoSelected.insertionSort (· ≤ ·)).length ≤ 10)
    (hlen2 : (input2.kenoSelected.insertionSort (· ≤ ·)).length ≤ 10)
    (h : input1.kenoPreimage = input2.kenoPreimage) : input1.gameMode = input2.gameMode ∧
      input1.kenoSelected.insertionSort (· ≤ ·) = input2.kenoSelected.insertionSort (· ≤ ·) := by
  obtain ⟨hmode, hpicks⟩ := predictionHashKenoPreimage_inj hlen1 hlen2 h
  exact ⟨UInt32.toUInt64_inj.mp hmode, hpicks⟩

theorem bindingPreimage_inj (h : input1.bindingPreimage = input2.bindingPreimage) :
    input1.gameId = input2.gameId ∧ input1.amount = input2.amount ∧
      input1.predictionHash = input2.predictionHash ∧
      input1.userSecretRandom = input2.userSecretRandom := by
  simp only [SlotInput.bindingPreimage, userSeedBindingPreimage, List.cons.injEq, and_true,
    UInt8.toUInt64_inj] at h
  obtain ⟨hgame, hamount, h0, h1, h2, h3, s0, s1, s2, s3⟩ := h
  exact ⟨hgame, hamount, digest_ext h0 h1 h2 h3, digest_ext s0 s1 s2 s3⟩

/-! ### The outcome -/

/-- The sorted picks of a keno slot that passes the fairness layer pass the library's screen. -/
theorem FairnessSpec.picks_screened {fe : FairnessEffects} (h : FairnessSpec P G input fe)
    (hid : input.gameId = G.kenoGameId) :
    G.kenoValidateSelected (input.kenoSelected.insertionSort (· ≤ ·)) = true := by
  obtain ⟨picks, hpicks⟩ := h.kenoPicks hid
  obtain ⟨rfl, -, hvalid, -⟩ := sortedKenoPicks_eq_ok.mp hpicks
  exact hvalid

theorem FairnessSpec.keno_length {fe : FairnessEffects} (h : FairnessSpec P G input fe)
    (hkeno : ∀ picks, G.kenoValidateSelected picks = true → picks.length ≤ 10)
    (hid : input.gameId = G.kenoGameId) :
    (input.kenoSelected.insertionSort (· ≤ ·)).length ≤ 10 :=
  hkeno _ (h.picks_screened hid)

theorem predictionPreimage_canonical
    (hlen : input.gameId = G.kenoGameId → (input.kenoSelected.insertionSort (· ≤ ·)).length ≤ 10) :
    allCanonical (input.predictionPreimage G) = true := by
  rw [SlotInput.predictionPreimage]
  split
  · rename_i hid
    exact kenoPreimage_canonical (hlen hid)
  · exact standardPreimage_canonical input

/-- The game parameters that the two slots share: for keno the mode and the picks up to order, for
any other game the mode and both prediction words. -/
structure SameParameters (G : GameCore) (input1 input2 : SlotInput) : Prop where
  gameMode : input1.gameMode = input2.gameMode
  standard : input1.gameId ≠ G.kenoGameId →
    input1.predictionLo = input2.predictionLo ∧ input1.predictionHi = input2.predictionHi
  keno : input1.gameId = G.kenoGameId → input1.kenoSelected.insertionSort (· ≤ ·) =
    input2.kenoSelected.insertionSort (· ≤ ·)

theorem sameParameters_of_preimage (hid : input1.gameId = input2.gameId)
    (hlen1 : input1.gameId = G.kenoGameId →
      (input1.kenoSelected.insertionSort (· ≤ ·)).length ≤ 10)
    (hlen2 : input2.gameId = G.kenoGameId →
      (input2.kenoSelected.insertionSort (· ≤ ·)).length ≤ 10)
    (h : input1.predictionPreimage G = input2.predictionPreimage G) :
    SameParameters G input1 input2 := by
  rw [SlotInput.predictionPreimage, SlotInput.predictionPreimage, ← hid] at h
  by_cases hkeno : input1.gameId = G.kenoGameId
  · rw [if_pos hkeno, if_pos hkeno] at h
    obtain ⟨hmode, hpicks⟩ := kenoPreimage_inj (hlen1 hkeno) (hlen2 (hid ▸ hkeno)) h
    exact ⟨hmode, fun hne => absurd hkeno hne, fun _ => hpicks⟩
  · rw [if_neg hkeno, if_neg hkeno] at h
    obtain ⟨hmode, hlo, hhi⟩ := standardPreimage_inj h
    exact ⟨hmode, fun _ => ⟨hlo, hhi⟩, fun heq => absurd heq hkeno⟩

/-- The commitments that two slots share when no hash collides. -/
structure SameCommitments (G : GameCore) (input1 input2 : SlotInput) : Prop where
  serverSeed : input1.serverSeed = input2.serverSeed
  gameId : input1.gameId = input2.gameId
  amount : input1.amount = input2.amount
  predictionHash : input1.predictionHash = input2.predictionHash
  userSecretRandom : input1.userSecretRandom = input2.userSecretRandom
  parameters : SameParameters G input1 input2

theorem dispatchPayout_keno (hids : G.DistinctIds) (hid : input.gameId = G.kenoGameId) :
    dispatchPayout P G input random = do
      let sorted ← sortedKenoPicks G input
      return (G.kenoPayout random input.amount input.gameMode.toUInt8 sorted).winAmount := by
  simp only [GameCore.DistinctIds, GameCore.inHouseGameIds, List.nodup_cons, List.mem_cons,
    not_or] at hids
  obtain ⟨⟨-, -, hcrash, -⟩, ⟨-, hlimbo, -⟩, ⟨hdice, -⟩, -⟩ := hids
  simp only [dispatchPayout, hid, beq_iff_eq, if_neg (Ne.symm hcrash), if_neg (Ne.symm hlimbo),
    if_neg (Ne.symm hdice), if_true]

theorem dispatchPayout_blackjack (hids : G.DistinctIds) (hid : input.gameId = G.blackjackGameId)
    (h : dispatchPayout P G input random = .ok win) :
    (G.replayFull (unfoldShoe P G input.serverSeed input.userSecretRandom)
      (G.unpackActions input.predictionLo input.predictionHi) input.baseBet).totalStaked =
        input.amount := by
  simp only [GameCore.DistinctIds, GameCore.inHouseGameIds, List.nodup_cons, List.mem_cons,
    not_or, List.not_mem_nil, not_false_eq_true, and_true] at hids
  obtain ⟨⟨-, -, -, -, -, hcrash⟩, ⟨-, -, -, -, hlimbo⟩, ⟨-, -, -, hdice⟩, ⟨-, -, hkeno⟩,
    ⟨-, hplinko⟩, hcoinflip, -⟩ := hids
  simp only [dispatchPayout, hid, beq_iff_eq, if_neg (Ne.symm hcrash), if_neg (Ne.symm hlimbo),
    if_neg (Ne.symm hdice), if_neg (Ne.symm hkeno), if_neg (Ne.symm hplinko),
    if_neg (Ne.symm hcoinflip), if_true] at h
  obtain ⟨result, hresult, h⟩ := bind_eq_ok.mp h
  obtain ⟨hstake, -⟩ := failIf_bind_eq_ok.mp h
  rw [okOr_eq_ok, blackjackComputePayout] at hresult
  split at hresult
  · cases hresult
  · cases hresult
    simpa using hstake

/-- A blackjack round whose total stake is the bet has one base bet. -/
theorem SameCommitments.baseBet (h : SameCommitments G input1 input2) (hids : G.DistinctIds)
    (hstake : ∀ drawn actions, Function.Injective fun baseBet =>
      (G.replayFull drawn actions baseBet).totalStaked) {win1 win2 : UInt64}
    (h1 : dispatchPayout P G input1 random = .ok win1)
    (h2 : dispatchPayout P G input2 random = .ok win2)
    (hid : input1.gameId = G.blackjackGameId) : input1.baseBet = input2.baseBet := by
  have hne : input1.gameId ≠ G.kenoGameId := by
    simp only [GameCore.DistinctIds, GameCore.inHouseGameIds, List.nodup_cons, List.mem_cons,
      not_or] at hids
    rw [hid]
    exact Ne.symm hids.2.2.2.1.2.2.1
  obtain ⟨hlo, hhi⟩ := h.parameters.standard hne
  have hstake1 := dispatchPayout_blackjack hids hid h1
  have hstake2 := dispatchPayout_blackjack hids (h.gameId ▸ hid) h2
  rw [h.serverSeed, h.userSecretRandom, hlo, hhi, h.amount] at hstake1
  exact hstake _ _ (hstake1.trans hstake2.symm)

/-- The dispatch reads nothing of a slot beyond its commitments and, for blackjack, the base bet. -/
theorem SameCommitments.dispatchPayout_eq (h : SameCommitments G input1 input2)
    (hids : G.DistinctIds)
    (hbase : input1.gameId = G.blackjackGameId → input1.baseBet = input2.baseBet) :
    dispatchPayout P G input1 random = dispatchPayout P G input2 random := by
  by_cases hkeno : input1.gameId = G.kenoGameId
  · have hpicks : sortedKenoPicks G input1 = sortedKenoPicks G input2 := by
      rw [sortedKenoPicks, sortedKenoPicks, h.parameters.keno hkeno, h.parameters.gameMode]
    rw [dispatchPayout_keno hids hkeno, dispatchPayout_keno hids (h.gameId ▸ hkeno), hpicks,
      h.amount, h.parameters.gameMode]
  · obtain ⟨hlo, hhi⟩ := h.parameters.standard hkeno
    rw [h.gameId] at hkeno hbase
    by_cases hbj : input2.gameId = G.blackjackGameId
    · simp only [dispatchPayout, h.gameId, h.amount, h.serverSeed, h.userSecretRandom,
        h.parameters.gameMode, hlo, hhi, hbase hbj, beq_false_of_ne hkeno, Bool.false_eq_true,
        if_false]
    · simp only [dispatchPayout, h.gameId, h.amount, h.parameters.gameMode, hlo, hhi,
        beq_false_of_ne hkeno, beq_false_of_ne hbj, Bool.false_eq_true, if_false]

/-- What an accepted `in_house_bet` satisfies. -/
theorem in_house_bet_fairness (h : validateSlot P G input = .ok e)
    (ht : input.txType = txInHouseBet) : AlwaysOn P input ∧
      FairnessSpec P G input ⟨e.random, e.slotH, e.newSeedHash⟩ ∧
      e.random = randomIhb P input.serverSeed input.userSeed := by
  obtain ⟨on, spec⟩ := validateSlot_eq_ok.mp h
  have hgame := isGame_of_inHouseBet ht
  have hrandom : e.random = _ := (spec.game hgame).random
  rw [if_pos ht] at hrandom
  exact ⟨on, spec.game hgame, hrandom⟩

theorem AlwaysOn.serverSeed_canonical (on : AlwaysOn P input) :
    allCanonical input.serverSeed.toList = true :=
  (fieldsCanonical_iff.mp on.canonical).1

/-- Two accepted `in_house_bet` slots with one seed commitment and one user seed have one server
seed, one game with one set of parameters, one bet, one random, one win and one slot hash; or two
different inputs that they hash collide. -/
theorem in_house_bet_fixed_by_commitments (hids : G.DistinctIds)
    (hkeno : ∀ picks, G.kenoValidateSelected picks = true → picks.length ≤ 10)
    (hstake : ∀ drawn actions, Function.Injective fun baseBet =>
      (G.replayFull drawn actions baseBet).totalStaked)
    (h1 : validateSlot P G input1 = .ok e1) (h2 : validateSlot P G input2 = .ok e2)
    (ht1 : input1.txType = txInHouseBet) (ht2 : input2.txType = txInHouseBet)
    (hseed : input1.oldSeedHash = input2.oldSeedHash) (huser : input1.userSeed = input2.userSeed) :
    SeedCollision P input1.serverSeed input2.serverSeed ∨
      Collision P input1.bindingPreimage input2.bindingPreimage ∨
      Collision P (input1.predictionPreimage G) (input2.predictionPreimage G) ∨
      (input1.serverSeed = input2.serverSeed ∧ input1.gameId = input2.gameId ∧
        input1.amount = input2.amount ∧ input1.predictionHash = input2.predictionHash ∧
        input1.userSecretRandom = input2.userSecretRandom ∧
        input1.gameMode = input2.gameMode ∧
        (input1.gameId ≠ G.kenoGameId → input1.predictionLo = input2.predictionLo ∧
          input1.predictionHi = input2.predictionHi) ∧
        (input1.gameId = G.kenoGameId → input1.kenoSelected.Perm input2.kenoSelected) ∧
        e1.random = e2.random ∧ input1.winAmount = input2.winAmount ∧ e1.slotH = e2.slotH) := by
  obtain ⟨on1, fair1, hrandom1⟩ := in_house_bet_fairness h1 ht1
  obtain ⟨on2, fair2, hrandom2⟩ := in_house_bet_fairness h2 ht2
  have hserver := (fair1.seedChain ht1).trans (hseed.trans (fair2.seedChain ht2).symm)
  have hbinding := (fair1.userSeed ht1).trans (huser.trans (fair2.userSeed ht2).symm)
  rcases eq_or_seedCollision on1.serverSeed_canonical on2.serverSeed_canonical hserver with
    hserver | hcol
  swap
  · exact Or.inl hcol
  rcases eq_or_collision (bindingPreimage_canonical on1) (bindingPreimage_canonical on2) hbinding
    with hbinding | hcol
  swap
  · exact Or.inr (Or.inl hcol)
  obtain ⟨hid, hamount, hpredHash, hsecret⟩ := bindingPreimage_inj hbinding
  have hlen1 := fair1.keno_length hkeno
  have hlen2 := fair2.keno_length hkeno
  have hpred := fair1.prediction.trans (hpredHash.trans fair2.prediction.symm)
  rcases eq_or_collision (predictionPreimage_canonical hlen1) (predictionPreimage_canonical hlen2)
    hpred with hpred | hcol
  swap
  · exact Or.inr (Or.inr (Or.inl hcol))
  have hsame : SameCommitments G input1 input2 :=
    ⟨hserver, hid, hamount, hpredHash, hsecret, sameParameters_of_preimage hid hlen1 hlen2 hpred⟩
  have hrandom : e1.random = e2.random := by rw [hrandom1, hrandom2, hserver, huser]
  have hpay1 : dispatchPayout P G input1 e1.random = _ := fair1.payout
  have hpay2 : dispatchPayout P G input2 e2.random = _ := fair2.payout
  rw [← hrandom] at hpay2
  have hwin : input1.winAmount = input2.winAmount := by
    rw [hsame.dispatchPayout_eq hids (hsame.baseBet hids hstake hpay1 hpay2), hpay2] at hpay1
    exact (Except.ok.inj hpay1).symm
  have hslotH : e1.slotH = e2.slotH := by
    have hs1 : e1.slotH = _ := fair1.slotH
    have hs2 : e2.slotH = _ := fair2.slotH
    rw [hs1, hs2]
    dsimp only
    rw [hrandom, hamount, hwin, hid, hpredHash]
  have hperm : input1.gameId = G.kenoGameId → input1.kenoSelected.Perm input2.kenoSelected := by
    intro hk
    exact sortedPicks_eq_iff.mp (hsame.parameters.keno hk)
  exact Or.inr (Or.inr (Or.inr ⟨hserver, hid, hamount, hpredHash, hsecret,
    hsame.parameters.gameMode, hsame.parameters.standard, hperm, hrandom, hwin, hslotH⟩))

/-- The bet of another account, with another balance and fields that limbo does not read. -/
def otherHouseBet : SlotInput := SlotInput.commit sumHash
  { houseBet with userId := 6, oldBalance := 100, oldTotalLiability := 100, baseBet := 9,
                  kenoSelected := [3, 1] }

theorem other_house_bet_win : ∃ e, validateSlot sumHash evenCore otherHouseBet = .ok e ∧
    houseBet.winAmount = otherHouseBet.winAmount ∧ houseBetEffects.slotH = e.slotH := by
  obtain ⟨e, he⟩ : ∃ e, validateSlot sumHash evenCore otherHouseBet = .ok e :=
    exists_of_isOk (by decide +kernel)
  have hids : evenCore.DistinctIds := by
    unfold GameCore.DistinctIds
    decide
  have hkeno : ∀ picks, evenCore.kenoValidateSelected picks = true → picks.length ≤ 10 :=
    fun picks h => (decide_eq_true_iff.mp h).2
  have hstake : ∀ drawn actions, Function.Injective fun baseBet =>
      (evenCore.replayFull drawn actions baseBet).totalStaked := fun _ _ _ _ h => h
  rcases in_house_bet_fixed_by_commitments hids hkeno hstake houseBet_ok he rfl rfl rfl rfl with
    hcol | hcol | hcol | hsame
  · exact absurd rfl hcol.ne
  · exact absurd rfl hcol.ne
  · exact absurd rfl hcol.ne
  · obtain ⟨-, -, -, -, -, -, -, -, -, hwin, hslotH⟩ := hsame
    exact ⟨e, he, hwin, hslotH⟩

end TxValidator
