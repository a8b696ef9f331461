import TxValidator.Ledger
import Mathlib.Tactic.MkIffOfInductiveProp

/-! The transition table of the validator: for each transaction type, the conditions of its own and
the state that it leaves.  The code never branches on the type; seven modules select on overlapping
sets of flags, and the table is what these selections come to. -/

namespace TxValidator

/-- The transaction types. -/
inductive TxKind
  | noop
  | deposit
  | bet
  | win
  | bonus
  | inHouseBet
  | withdrawal
  | riskReject
  | setInitSeedHash
  | keyRegisterOnly
  | transfer
  | referral
  | crashSettle
  | setProviderAllowance

namespace TxKind

def code : TxKind → UInt8
  | noop => txNoop
  | deposit => txDeposit
  | bet => txBet
  | win => txWin
  | bonus => txBonus
  | inHouseBet => txInHouseBet
  | withdrawal => txWithdrawal
  | riskReject => txRiskReject
  | setInitSeedHash => txSetInitSeedHash
  | keyRegisterOnly => txKeyRegisterOnly
  | transfer => txTransfer
  | referral => txReferral
  | crashSettle => txCrashSettle
  | setProviderAllowance => txSetProviderAllowance

def all : List TxKind :=
  [noop, deposit, bet, win, bonus, inHouseBet, withdrawal, riskReject, setInitSeedHash,
    keyRegisterOnly, transfer, referral, crashSettle, setProviderAllowance]

/-- Every valid transaction type is that of a kind. -/
theorem exists_code {t : UInt8} (h : t ≤ maxTxType) : ∃ kind : TxKind, kind.code = t := by
  have hlt : t.toNat < 14 := Nat.lt_succ_of_le (UInt8.le_iff_toNat_le.mp h)
  have hcodes : ∀ n : Fin 14, ∃ kind ∈ all, kind.code.toNat = n.val := by decide
  obtain ⟨kind, -, hkind⟩ := hcodes ⟨t.toNat, hlt⟩
  exact ⟨kind, UInt8.toNat_inj.mp hkind⟩

end TxKind

/-! ### Rows -/

/-- What a slot moves, leaves and commits. -/
structure RowData where
  add : UInt64
  sub : UInt64
  newCredit : UInt64
  newSeedHash : Vector UInt64 3
  newNonce : UInt64
  newProviderAllowance : UInt64
  newPkHash : Digest
  newAddressHash : Digest
  recipient : Vector UInt64 2
  random : Vector UInt64 4
  slotH : Digest
  isMultisetSlot : Bool

/-- A row of the transition table: what a slot does, and the conditions of its type. -/
structure Row extends RowData where
  guard : Prop

/-- The row of a slot that moves nothing and leaves its account as it is. -/
def SlotInput.unchanged (input : SlotInput) : Row where
  add := 0
  sub := 0
  newCredit := input.oldDepositCredit
  newSeedHash := input.oldSeedHash
  newNonce := input.oldNonce
  newProviderAllowance := input.oldProviderAllowance
  newPkHash := input.oldPkHash
  newAddressHash := input.oldAddressHash
  recipient := zeroLimbs
  random := zeroDigest
  slotH := zeroDigest
  isMultisetSlot := false
  guard := True

/-- The account of the slot has a key. -/
def SlotInput.HasKey (input : SlotInput) : Prop := allZero input.oldPkHash.toList = false

/-- The account lane is below its ceiling. -/
def SlotInput.AccountLaneFree (input : SlotInput) : Prop :=
  (splitNonce input.oldNonce).1 < accountLaneMax

/-- The game lane is below its ceiling. -/
def SlotInput.GameLaneFree (input : SlotInput) : Prop :=
  (splitNonce input.oldNonce).2 < gameLaneMax

/-- The next seed commitment is not empty. -/
def SlotInput.CommitsSeed (input : SlotInput) : Prop :=
  allZero input.nextServerSeedHash.toList = false

/-- The old credit, capped at the balance after the slot. -/
def SlotInput.cappedCredit (input : SlotInput) (add sub : UInt64) : UInt64 :=
  min input.oldDepositCredit (input.oldBalance + add - sub)

section Table

variable (P : Poseidon2Hash) (G : GameCore) (input : SlotInput)

/-- The committed prediction and the payout of a game on the drawn `random`. -/
structure SlotInput.Settles (random : Vector UInt64 4) : Prop where
  kenoPicks : input.gameId = G.kenoGameId → ∃ picks, sortedKenoPicks G input = .ok picks
  prediction : poseidon2 P (input.predictionPreimage G) = input.predictionHash
  payout : dispatchPayout P G input random = .ok input.winAmount

def SlotInput.slotHOf (random : Vector UInt64 4) : Digest :=
  slotH P random input.amount input.winAmount input.gameId.toUInt64 input.predictionHash

/-- The table. -/
def transition : TxKind → Row
  | .noop => input.unchanged
  | .deposit =>
    { input.unchanged with
      add := input.amount
      newCredit := input.oldDepositCredit + input.amount
      newAddressHash :=
        if allZero input.oldAddressHash.toList then addressHash P input.userAddress
        else input.oldAddressHash
      guard := input.oldDepositCredit.toNat + input.amount.toNat < 2 ^ 64 ∧
        (allZero input.oldAddressHash.toList = false →
          addressHash P input.userAddress = input.oldAddressHash) }
  | .win | .bonus | .referral => { input.unchanged with add := input.amount }
  | .bet =>
    { input.unchanged with
      sub := input.amount
      newCredit := input.cappedCredit 0 input.amount
      newProviderAllowance := input.oldProviderAllowance - input.amount
      guard := input.amount ≤ input.oldProviderAllowance }
  | .withdrawal =>
    { input.unchanged with
      sub := input.amount
      newCredit := input.cappedCredit 0 input.amount
      newNonce := input.oldNonce + accountLaneUnit
      recipient := committed (addressHash P input.userAddress)
      guard := input.HasKey ∧ input.AccountLaneFree }
  | .transfer =>
    { input.unchanged with
      sub := input.amount
      newCredit := input.cappedCredit 0 input.amount
      newNonce := input.oldNonce + accountLaneUnit
      guard := input.HasKey ∧ input.AccountLaneFree }
  | .riskReject =>
    { input.unchanged with
      sub := input.amount
      guard := input.oldDepositCredit.toNat + input.amount.toNat ≤ input.oldBalance.toNat }
  | .setInitSeedHash =>
    { input.unchanged with
      newSeedHash := input.nextServerSeedHash
      guard := input.userId = 0 ∧ input.CommitsSeed }
  | .keyRegisterOnly =>
    -- Without a new key the slot can still commit the first seed.
    let keyed := !allZero input.newPkHash.toList
    let unseeded := allZero input.oldSeedHash.toList
    { input.unchanged with
      newSeedHash := if unseeded then input.nextServerSeedHash else input.oldSeedHash
      newNonce := if keyed then input.oldNonce + accountLaneUnit else input.oldNonce
      newPkHash := if keyed then input.newPkHash else input.oldPkHash
      newAddressHash :=
        if keyed && allZero input.oldAddressHash.toList then addressHash P input.userAddress
        else input.oldAddressHash
      guard := (keyed = true → input.AccountLaneFree) ∧ (unseeded = true → input.CommitsSeed) }
  | .inHouseBet =>
    let random := randomIhb P input.serverSeed input.userSeed
    { input.unchanged with
      add := input.winAmount
      sub := input.amount
      newCredit := input.cappedCredit input.winAmount input.amount
      newSeedHash := input.nextServerSeedHash
      newNonce := input.oldNonce + 1
      random
      slotH := input.slotHOf P random
      isMultisetSlot := true
      guard := input.userId ≠ 0 ∧ input.HasKey ∧ input.GameLaneFree ∧
        seedHashTruncated P input.serverSeed = input.oldSeedHash ∧
        poseidon2 P input.bindingPreimage = input.userSeed ∧ input.Settles P G random ∧
        input.CommitsSeed }
  | .crashSettle =>
    let random := randomCrash input.serverSeed
    { input.unchanged with
      add := input.winAmount
      sub := input.amount
      newCredit := input.cappedCredit input.winAmount input.amount
      newNonce := input.oldNonce + 1
      random
      slotH := input.slotHOf P random
      isMultisetSlot := true
      guard := input.HasKey ∧ input.GameLaneFree ∧
        (∀ seedHash, input.crashSeedHash = some seedHash →
          seedHashTruncated P input.serverSeed = seedHash) ∧ input.Settles P G random }
  | .setProviderAllowance =>
    { input.unchanged with
      newNonce := input.oldNonce + 1
      newProviderAllowance := input.amount
      guard := input.amount ≤ providerAllowanceMax ∧ input.HasKey ∧ input.GameLaneFree }

/-- The effects of a row on the account of the slot, its root and the total liability. -/
def RowData.effects (row : RowData) : SlotEffects :=
  let newBalance := input.oldBalance + row.add - row.sub
  { newBalance
    newCredit := row.newCredit
    newSeedHash := row.newSeedHash
    newNonce := row.newNonce
    newGameNonce := (splitNonce row.newNonce).2
    newAccountNonce := (splitNonce row.newNonce).1
    newProviderAllowance := row.newProviderAllowance
    newPkHash := row.newPkHash
    newAddressHash := row.newAddressHash
    newRoot := computeNewRoot P newBalance row.newSeedHash row.newCredit row.newNonce
      row.newProviderAllowance row.newPkHash row.newAddressHash input.mainSiblings input.userId
    newTotalLiability := input.oldTotalLiability + row.add - row.sub
    random := row.random
    slotH := row.slotH
    isMultisetSlot := row.isMultisetSlot }

/-- The conditions that every type puts on what it moves. -/
structure RowData.Fits (row : RowData) : Prop where
  nonce : input.oldNonce.toNat < 2 ^ 63
  recipient : input.recipientAddrHash = row.recipient
  balance : input.oldBalance.toNat + row.add.toNat < 2 ^ 64
  totalLiability : input.oldTotalLiability.toNat + row.add.toNat < 2 ^ 64
  balanceCovers : row.sub.toNat ≤ input.oldBalance.toNat + row.add.toNat
  tlCovers : row.sub.toNat ≤ input.oldTotalLiability.toNat + row.add.toNat

/-! ### The flags as one row -/

/-- The random value that the fairness layer draws. -/
def SlotInput.drawn : Vector UInt64 4 :=
  if input.txType = txInHouseBet then randomIhb P input.serverSeed input.userSeed
  else randomCrash input.serverSeed

/-- The data that the overlapping flag sets select, for any type. -/
def SlotInput.selected : RowData where
  add := input.addAmount
  sub := input.subAmount
  newCredit :=
    if input.capsCredit then
      min (input.oldDepositCredit + input.creditAdd)
        (input.oldBalance + input.addAmount - input.subAmount)
    else input.oldDepositCredit + input.creditAdd
  newSeedHash := if input.writesSeed then input.nextServerSeedHash else input.oldSeedHash
  newNonce := input.oldNonce + input.bumpsGameLane.toUInt64 +
    input.bumpsAccountLane.toUInt64 * accountLaneUnit
  newProviderAllowance :=
    if input.txType = txSetProviderAllowance then input.amount
    else if input.txType = txBet then input.oldProviderAllowance - input.amount
    else input.oldProviderAllowance
  newPkHash := if input.isKeySetter then input.newPkHash else input.oldPkHash
  newAddressHash :=
    if input.isAddressSetter then addressHash P input.userAddress else input.oldAddressHash
  recipient := recipientAddrHashFor P input.txType input.userAddress
  random := if input.isGame then input.drawn P else zeroDigest
  slotH := if input.isGame then input.slotHOf P (input.drawn P) else zeroDigest
  isMultisetSlot := input.isGame

/-- The conditions of single types, each behind the flags that select it. -/
@[mk_iff] structure SlotInput.Selected : Prop where
  setInitAccount : input.txType = txSetInitSeedHash → input.userId = 0
  betAccount : input.txType = txInHouseBet → input.userId ≠ 0
  creditFits : input.oldDepositCredit.toNat + input.creditAdd.toNat < 2 ^ 64
  set : input.txType = txSetProviderAllowance → input.amount ≤ providerAllowanceMax
  bet : input.txType = txBet → input.amount ≤ input.oldProviderAllowance
  riskReject : input.txType = txRiskReject →
    input.oldDepositCredit.toNat + input.amount.toNat ≤ input.oldBalance.toNat
  redeposit : input.txType = txDeposit → allZero input.oldAddressHash.toList = false →
    addressHash P input.userAddress = input.oldAddressHash
  key : input.isSigned = true → input.HasKey
  gameLane : input.bumpsGameLane = true → input.GameLaneFree
  accountLane : input.bumpsAccountLane = true → input.AccountLaneFree
  seedChain : input.txType = txInHouseBet →
    seedHashTruncated P input.serverSeed = input.oldSeedHash
  crashCommit : input.txType = txCrashSettle → ∀ seedHash, input.crashSeedHash = some seedHash →
    seedHashTruncated P input.serverSeed = seedHash
  userSeed : input.txType = txInHouseBet → poseidon2 P input.bindingPreimage = input.userSeed
  settles : input.isGame = true → input.Settles P G (input.drawn P)
  seedCommit : input.writesSeed = true → input.CommitsSeed

end Table

variable {P : Poseidon2Hash} {G : GameCore} {input : SlotInput} {e : SlotEffects}

theorem gameLaneFree_iff :
    input.GameLaneFree ↔ input.oldNonce.toNat % 2 ^ 40 < 2 ^ 40 - 1 := by
  rw [SlotInput.GameLaneFree, UInt64.lt_iff_toNat_lt, (splitNonce_toNat _).2, gameLaneMax_toNat]

theorem accountLaneFree_iff :
    input.AccountLaneFree ↔ input.oldNonce.toNat / 2 ^ 40 < 2 ^ 23 - 1 := by
  rw [SlotInput.AccountLaneFree, UInt64.lt_iff_toNat_lt, (splitNonce_toNat _).1,
    accountLaneMax_toNat]

/-- Every type's flags select its row of the table. -/
theorem selected_transition {kind : TxKind} (h : kind.code = input.txType) :
    input.selected P = (transition P G input kind).toRowData ∧
      (input.Selected P G ↔ (transition P G input kind).guard) := by
  have hcredit : input.oldDepositCredit.toNat < 18446744073709551616 :=
    input.oldDepositCredit.toNat_lt
  -- With the type fixed every flag is decided, and what it selects is the row's.
  cases kind <;> simp [← h, hcredit, SlotInput.selected_iff, SlotInput.selected, transition,
    SlotInput.unchanged, SlotInput.cappedCredit, SlotInput.addAmount, SlotInput.subAmount,
    SlotInput.capsCredit, SlotInput.creditAdd, SlotInput.writesSeed, SlotInput.bumpsGameLane,
    SlotInput.bumpsAccountLane, SlotInput.isKeySetter, SlotInput.isAddressSetter,
    SlotInput.isGame, SlotInput.isSigned, SlotInput.drawn, recipientAddrHashFor, Bool.toUInt64,
    add_ite, TxKind.code, txNoop, txDeposit, txBet, txWin, txBonus, txInHouseBet, txWithdrawal,
    txRiskReject, txSetInitSeedHash, txKeyRegisterOnly, txTransfer, txReferral, txCrashSettle,
    txSetProviderAllowance]

/-! ### The specification in terms of the selected row -/

theorem eq_add_sub_iff {a b c d : UInt64} (hfits : a.toNat + b.toNat < 2 ^ 64)
    (hcovers : c.toNat ≤ a.toNat + b.toNat) :
    d.toNat = a.toNat + b.toNat - c.toNat ↔ d = a + b - c := by
  have hadd : (a + b).toNat = a.toNat + b.toNat := by
    rw [UInt64.toNat_add, Nat.mod_eq_of_lt hfits]
  have hsub : (a + b - c).toNat = a.toNat + b.toNat - c.toNat := by
    rw [UInt64.toNat_sub_of_le _ _ (UInt64.le_iff_toNat_le.mpr (hadd ▸ hcovers)), hadd]
  rw [← hsub, UInt64.toNat_inj]

theorem balanceSpec_iff (P : Poseidon2Hash) {newBalance newCredit : UInt64} :
    BalanceSpec input ⟨newBalance, newCredit, input.addAmount, input.subAmount⟩ ↔
      input.oldBalance.toNat + input.addAmount.toNat < 2 ^ 64 ∧
        input.subAmount.toNat ≤ input.oldBalance.toNat + input.addAmount.toNat ∧
        input.oldDepositCredit.toNat + input.creditAdd.toNat < 2 ^ 64 ∧
        newBalance = input.oldBalance + input.addAmount - input.subAmount ∧
        newCredit = (input.selected P).newCredit := by
  have hcredit : input.oldDepositCredit.toNat + input.creditAdd.toNat < 2 ^ 64 →
      (newCredit.toNat = (if input.capsCredit then
        min (input.oldDepositCredit.toNat + input.creditAdd.toNat)
          (input.oldBalance + input.addAmount - input.subAmount).toNat
        else input.oldDepositCredit.toNat + input.creditAdd.toNat) ↔
      newCredit = (input.selected P).newCredit) := by
    intro hfits
    have hadd : (input.oldDepositCredit + input.creditAdd).toNat =
        input.oldDepositCredit.toNat + input.creditAdd.toNat := by
      rw [UInt64.toNat_add, Nat.mod_eq_of_lt hfits]
    rw [← hadd, ← min_toNat, ← apply_ite UInt64.toNat, UInt64.toNat_inj]
    rfl
  constructor
  · rintro ⟨-, -, hfits, hcovers, hnew, hcreditFits, hnewCredit⟩
    obtain rfl := (eq_add_sub_iff hfits hcovers).mp hnew
    exact ⟨hfits, hcovers, hcreditFits, rfl, (hcredit hcreditFits).mp hnewCredit⟩
  · rintro ⟨hfits, hcovers, hcreditFits, rfl, hnewCredit⟩
    exact ⟨rfl, rfl, hfits, hcovers, (eq_add_sub_iff hfits hcovers).mpr rfl, hcreditFits,
      (hcredit hcreditFits).mpr hnewCredit⟩

theorem allowanceSpec_iff (P : Poseidon2Hash) {new : UInt64} : AllowanceSpec input new ↔
    input.oldProviderAllowance ≤ providerAllowanceMax ∧
      (input.txType = txSetProviderAllowance → input.amount ≤ providerAllowanceMax) ∧
      (input.txType = txBet → input.amount ≤ input.oldProviderAllowance) ∧
      new = (input.selected P).newProviderAllowance := by
  have hne : txBet ≠ txSetProviderAllowance := by decide
  have hsub : input.amount ≤ input.oldProviderAllowance →
      (input.oldProviderAllowance - input.amount).toNat =
        input.oldProviderAllowance.toNat - input.amount.toNat := UInt64.toNat_sub_of_le _ _
  unfold SlotInput.selected
  constructor
  · intro h
    refine ⟨h.stored, fun hs => (h.set hs).1, fun hb => UInt64.le_iff_toNat_le.mpr (h.bet hb).1, ?_⟩
    dsimp only
    split
    · exact (h.set ‹_›).2
    split
    · obtain ⟨hle, hnew⟩ := h.bet ‹_›
      apply UInt64.toNat_inj.mp
      rw [hnew, hsub (UInt64.le_iff_toNat_le.mpr hle)]
    · exact h.keep ‹_› ‹_›
  · rintro ⟨hstored, hset, hbet, rfl⟩
    refine ⟨hstored, fun hs => ⟨hset hs, if_pos hs⟩, fun hb => ?_, fun hs hb => ?_⟩
    · have hle := hbet hb
      dsimp only
      rw [if_neg (fun hs => hne (hb.symm.trans hs)), if_pos hb]
      exact ⟨UInt64.le_iff_toNat_le.mp hle, hsub hle⟩
    · dsimp only
      rw [if_neg hs, if_neg hb]

theorem nonceSpec_iff (P : Poseidon2Hash) {new : UInt64} :
    NonceSpec input.oldNonce input.bumpsGameLane input.bumpsAccountLane new ↔
      input.oldNonce.toNat < 2 ^ 63 ∧ (input.bumpsGameLane = true → input.GameLaneFree) ∧
        (input.bumpsAccountLane = true → input.AccountLaneFree) ∧
        new = (input.selected P).newNonce := by
  rw [gameLaneFree_iff, accountLaneFree_iff]
  constructor
  · rintro ⟨hrange, hgame, haccount, hnew⟩
    refine ⟨hrange, hgame, haccount, UInt64.toNat_inj.mp ?_⟩
    rw [hnew]
    exact (nonce_add_toNat hrange _ _).symm
  · rintro ⟨hrange, hgame, haccount, rfl⟩
    exact ⟨hrange, hgame, haccount, nonce_add_toNat hrange _ _⟩

theorem fairnessSpec_iff {random : Vector UInt64 4} {slotH : Digest}
    {newSeedHash : Vector UInt64 3} :
    FairnessSpec P G input ⟨random, slotH, newSeedHash⟩ ↔
      (input.txType = txInHouseBet →
        seedHashTruncated P input.serverSeed = input.oldSeedHash) ∧
      (input.txType = txCrashSettle → ∀ seedHash, input.crashSeedHash = some seedHash →
        seedHashTruncated P input.serverSeed = seedHash) ∧
      (input.txType = txInHouseBet → poseidon2 P input.bindingPreimage = input.userSeed) ∧
      input.Settles P G (input.drawn P) ∧ random = input.drawn P ∧
      slotH = input.slotHOf P (input.drawn P) ∧
      newSeedHash =
        if input.txType = txInHouseBet then input.nextServerSeedHash else input.oldSeedHash := by
  constructor
  · rintro ⟨hseed, hcrash, huser, hrandom, hkeno, hprediction, hpayout, hslotH, hnew⟩
    obtain rfl : random = input.drawn P := hrandom
    exact ⟨hseed, hcrash, huser, ⟨hkeno, hprediction, hpayout⟩, rfl, hslotH, hnew⟩
  · rintro ⟨hseed, hcrash, huser, hsettles, rfl, hslotH, hnew⟩
    exact ⟨hseed, hcrash, huser, rfl, hsettles.kenoPicks, hsettles.prediction, hsettles.payout,
      hslotH, hnew⟩

/-- Of the two games the bet writes a seed. -/
theorem game_seed_eq (hg : input.isGame = true) :
    (if input.writesSeed then input.nextServerSeedHash else input.oldSeedHash) =
      if input.txType = txInHouseBet then input.nextServerSeedHash else input.oldSeedHash := by
  simp only [SlotInput.isGame, Bool.or_eq_true, beq_iff_eq] at hg
  rcases hg with ht | ht
  · rw [SlotInput.writesSeed, ht]
    rfl
  · rw [SlotInput.writesSeed, ht]
    rfl

/-- A `risk_reject` leaves at least the credit when the balance holds both. -/
theorem riskReject_iff {bal : BalanceEffects} (ht : input.txType = txRiskReject)
    (h : BalanceSpec input bal) : input.oldDepositCredit.toNat ≤ bal.newBalance.toNat ↔
      input.oldDepositCredit.toNat + input.amount.toNat ≤ input.oldBalance.toNat := by
  have hadd : input.addAmount = 0 := by rw [SlotInput.addAmount, ht]; rfl
  have hsub : input.subAmount = input.amount := by rw [SlotInput.subAmount, ht]; rfl
  have hcovered := h.covered
  have hnew := h.newBalance
  rw [hadd, hsub, UInt64.toNat_zero] at hcovered hnew
  omega

/-- The effect layer accepts exactly the effects of the selected row, under its conditions. -/
theorem effectsSpec_iff (hstored : input.oldProviderAllowance ≤ providerAllowanceMax) :
    EffectsSpec P G input e ↔
      (input.Selected P G ∧ (input.selected P).Fits input) ∧
        e = (input.selected P).effects P input := by
  constructor
  · intro h
    obtain ⟨hbalance, hcovers, hcredit, hnewBalance, hnewCredit⟩ :=
      (balanceSpec_iff P).mp h.balance
    obtain ⟨-, hset, hbet, hallowance⟩ := (allowanceSpec_iff P).mp h.allowance
    obtain ⟨hrange, hgameLane, haccountLane, hnonce⟩ := (nonceSpec_iff P).mp h.nonce
    have hgame := fun hg => fairnessSpec_iff.mp (h.game hg)
    have hbetGame := fun ht => hgame (isGame_of_inHouseBet ht)
    have hnewTl := (eq_add_sub_iff h.tlFits h.tlCovered).mp h.newTl
    have hrandom : e.random = (input.selected P).random := by
      cases hg : input.isGame with
      | true => simp [SlotInput.selected, hg, (hgame hg).2.2.2.2.1]
      | false => simp [SlotInput.selected, hg, (h.noGame hg).1]
    have hslotH : e.slotH = (input.selected P).slotH := by
      cases hg : input.isGame with
      | true => simp [SlotInput.selected, hg, (hgame hg).2.2.2.2.2.1]
      | false => simp [SlotInput.selected, hg, (h.noGame hg).2]
    refine ⟨⟨⟨h.setInitAccount, h.betAccount, hcredit, hset, hbet,
      fun ht => (riskReject_iff ht h.balance).mp (h.riskReject ht), h.address.redeposit, h.key,
      hgameLane, haccountLane, fun ht => (hbetGame ht).1 ht,
      fun ht => (hgame (isGame_of_crashSettle ht)).2.1 ht, fun ht => (hbetGame ht).2.2.1 ht,
      fun hg => (hgame hg).2.2.2.1, h.seedCommit⟩,
      ⟨hrange, h.recipient, hbalance, h.tlFits, hcovers, h.tlCovered⟩⟩, ?_⟩
    have hlanes := h.lanes
    have hroot := h.newRoot
    rw [hnewBalance, h.seed, hnewCredit, hnonce, hallowance, h.newPkHash, h.newAddressHash] at hroot
    rw [hnonce] at hlanes
    exact SlotEffects.ext hnewBalance hnewCredit h.seed hnonce (congrArg Prod.snd hlanes)
      (congrArg Prod.fst hlanes) hallowance h.newPkHash h.newAddressHash hroot hnewTl hrandom
      hslotH h.multiset
  · rintro ⟨⟨hsel, hfits⟩, rfl⟩
    have hbalance : BalanceSpec input ⟨_, _, input.addAmount, input.subAmount⟩ :=
      (balanceSpec_iff P).mpr
        ⟨hfits.balance, hfits.balanceCovers, hsel.creditFits, rfl, rfl⟩
    constructor
    case setInitAccount => exact hsel.setInitAccount
    case betAccount => exact hsel.betAccount
    case balance => exact hbalance
    case allowance => exact (allowanceSpec_iff P).mpr ⟨hstored, hsel.set, hsel.bet, rfl⟩
    case riskReject => exact fun ht => (riskReject_iff ht hbalance).mpr (hsel.riskReject ht)
    case address => exact ⟨rfl, rfl, hsel.redeposit, rfl⟩
    case recipient => exact hfits.recipient
    case key => exact hsel.key
    case nonce => exact (nonceSpec_iff P).mpr ⟨hfits.nonce, hsel.gameLane, hsel.accountLane, rfl⟩
    case lanes => rfl
    case game =>
      intro hg
      refine fairnessSpec_iff.mpr ⟨hsel.seedChain, hsel.crashCommit, hsel.userSeed,
        hsel.settles hg, if_pos hg, if_pos hg, game_seed_eq hg⟩
    case noGame =>
      intro hg
      simp [RowData.effects, SlotInput.selected, hg]
    case multiset => rfl
    case seedCommit => exact hsel.seedCommit
    case seed => rfl
    case tlFits => exact hfits.totalLiability
    case tlCovered => exact hfits.tlCovers
    case newTl => exact (eq_add_sub_iff hfits.totalLiability hfits.tlCovers).mpr rfl
    case newRoot => rfl

/-- Past the always-on checks the row of the slot's type decides. -/
theorem AlwaysOn.eq_ok_iff (on : AlwaysOn P input) {kind : TxKind}
    (hkind : kind.code = input.txType) :
    validateSlot P G input = .ok e ↔
      ((transition P G input kind).guard ∧ (transition P G input kind).Fits input) ∧
        e = (transition P G input kind).effects P input := by
  obtain ⟨hdata, hguard⟩ := selected_transition (P := P) (G := G) hkind
  rw [validateSlot_eq_ok, effectsSpec_iff on.allowance, hdata, hguard]
  exact and_iff_right on

/-- A slot that passes the always-on checks is accepted exactly under the conditions of its type's
row of the table, with the effects of that row. -/
theorem validateSlot_transition (on : AlwaysOn P input) :
    ∃ kind : TxKind, kind.code = input.txType ∧ ∀ e, validateSlot P G input = .ok e ↔
      ((transition P G input kind).guard ∧ (transition P G input kind).Fits input) ∧
        e = (transition P G input kind).effects P input := by
  obtain ⟨kind, hkind⟩ := TxKind.exists_code on.txType
  exact ⟨kind, hkind, fun _ => on.eq_ok_iff hkind⟩

theorem provider_bet_row : ∃ kind : TxKind, kind.code = txBet ∧
    ((transition sumHash evenCore providerBet kind).guard ∧
      (transition sumHash evenCore providerBet kind).Fits providerBet) ∧
    providerBetEffects =
      (transition sumHash evenCore providerBet kind).effects sumHash providerBet := by
  have on := (validateSlot_eq_ok.mp providerBet_ok).1
  obtain ⟨kind, hkind, hrow⟩ := validateSlot_transition (G := evenCore) on
  exact ⟨kind, hkind, (hrow _).mp providerBet_ok⟩

end TxValidator
