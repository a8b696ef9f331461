import TxValidator.Chain
import TxValidator.Keys
import TxValidator.Table

/-! Withdrawals that are never refused.  On a sound state the withdrawal that looks its witness up
in the ledger is accepted as soon as the account has a key, a free account lane and the balance; so
accounts with room for two slots in their lanes can withdraw all that they hold. -/

namespace TxValidator

variable {P : Poseidon2Hash} {G : GameCore} {s s' : State} {u : UserId} {amount : UInt64}
  {userAddress : Vector UInt8 20} {e : SlotEffects} {l : Leaf}

/-! ### Honest witnesses -/

/-- A slot of account `u` that starts from the leaf `l`, with the committed limbs of its hashes and
zero in those that the leaf drops. -/
def Leaf.witness (l : Leaf) (u : UserId) : SlotInput where
  userId := UInt32.ofNat u.val
  oldBalance := l.balance
  oldDepositCredit := l.credit
  oldNonce := l.nonce
  oldProviderAllowance := l.allowance
  oldSeedHash := l.seedHash
  oldPkHash := widen l.pk
  oldAddressHash := widen l.address

theorem committed_widen (v : Vector UInt64 2) : committed (widen v) = v := limbs_ext rfl rfl

theorem allZero_widen {v : Vector UInt64 2} : allZero (widen v).toList = true ↔ v = zeroLimbs := by
  rw [allZero_iff]
  show (∀ x ∈ [v[0], v[1], 0, 0], x = 0) ↔ _
  constructor
  · intro h
    exact limbs_ext (h _ (by simp)) (h _ (by simp))
  · rintro rfl
    simp [zeroLimbs]

theorem witness_userId (l : Leaf) (u : UserId) : (l.witness u).userId.toNat = u.val :=
  UInt32.toNat_ofNat_of_lt' (Nat.lt_trans u.isLt (by decide))

theorem witness_account (l : Leaf) (u : UserId) : (l.witness u).account = u := by
  rw [SlotInput.account, witness_userId, Fin.ofNat_val_eq_self]

theorem witness_oldLeaf (l : Leaf) (u : UserId) : (l.witness u).oldLeaf = l :=
  Leaf.ext rfl rfl rfl rfl rfl (committed_widen _) (committed_widen _)

theorem witness_ownChecks (hl : l.Storable) : (l.witness u).OwnChecks := by
  have hzero4 : allCanonical (Vector.replicate 4 (0 : UInt64)).toList = true := by decide
  have htype : txNoop ≤ maxTxType := by decide
  have hamount : isCanonical 0 = true := by decide
  refine ⟨htype, fieldsCanonical_iff.mpr ⟨?_, hzero4, hl.seedHash, ?_, hl.nonce,
    widen_canonical hl.pk, hzero4, widen_canonical hl.address, hzero4, hzero4, ?_⟩, hamount,
    hamount, hl.allowance, ?_⟩
  · show allCanonical (Vector.replicate 8 (0 : UInt64)).toList = true
    decide
  · show allCanonical (Vector.replicate 3 (0 : UInt64)).toList = true
    decide
  · intro d hd
    rw [(Vector.mem_replicate.mp (Vector.mem_toList_iff.mp hd)).2]
    decide
  · exact (witness_userId l u).trans_lt u.isLt

/-- The witness starts from its account's leaf in the ledger. -/
theorem witness_leaf (s : State) (u : UserId) :
    (s.ledger ((s.leaves u).witness u).account).toLeaf = ((s.leaves u).witness u).oldLeaf := by
  rw [witness_account, witness_oldLeaf]
  rfl

/-! ### Withdrawals -/

/-- A withdrawal of account `u` on the leaf `l`, to `userAddress`. -/
def Leaf.withdrawal (P : Poseidon2Hash) (l : Leaf) (u : UserId) (amount : UInt64)
    (userAddress : Vector UInt8 20) : SlotInput :=
  { l.witness u with
    txType := txWithdrawal
    amount
    userAddress
    recipientAddrHash := committed (addressHash P userAddress) }

theorem withdrawal_ownChecks (hl : l.Storable) (hamount : isCanonical amount = true) :
    (l.withdrawal P u amount userAddress).OwnChecks := by
  have own : (l.witness u).OwnChecks := witness_ownChecks hl
  have htype : txWithdrawal ≤ maxTxType := by decide
  exact ⟨htype, own.canonical, hamount, own.winAmount, own.allowance, own.userId⟩

/-- The withdrawal tried on a state. -/
def State.withdrawal (P : Poseidon2Hash) (s : State) (u : UserId) (amount : UInt64)
    (userAddress : Vector UInt8 20) : SlotInput :=
  SlotInput.against P s.ledger s.totalLiability
    ((s.leaves u).withdrawal P u amount userAddress)

theorem withdrawal_account : (s.withdrawal P u amount userAddress).account = u :=
  witness_account (s.leaves u) u

/-- The leaf that a withdrawal leaves. -/
def Leaf.withdrawn (l : Leaf) (amount : UInt64) : Leaf :=
  { l with
    balance := l.balance - amount
    credit := min l.credit (l.balance - amount)
    nonce := l.nonce + accountLaneUnit }

/-- The account has a key, room in its account lane, and the balance. -/
structure Leaf.CanWithdraw (l : Leaf) (amount : UInt64) : Prop where
  key : l.pk ≠ zeroLimbs
  lane : (splitNonce l.nonce).1 < accountLaneMax
  balance : amount ≤ l.balance

theorem withdrawal_on (hamount : isCanonical amount = true) :
    AlwaysOn P (s.withdrawal P u amount userAddress) :=
  (withdrawal_ownChecks (s.ledger u).storable hamount).against (witness_leaf s u)

theorem State.Sound.balance_le (hs : s.Sound P) (u : UserId) :
    (s.leaves u).balance.toNat ≤ s.totalLiability.toNat := by
  rw [hs.total]
  exact s.ledger.balance_le u

theorem State.Sound.withdrawal_eq_ok (hs : s.Sound P) (hamount : isCanonical amount = true) :
    validateSlot P G (s.withdrawal P u amount userAddress) = .ok e ↔
      (s.leaves u).CanWithdraw amount ∧
        e = ((transition P G (s.withdrawal P u amount userAddress) .withdrawal).effects P
          (s.withdrawal P u amount userAddress)) := by
  have on : AlwaysOn P (s.withdrawal P u amount userAddress) := withdrawal_on hamount
  have hkind : TxKind.withdrawal.code = (s.withdrawal P u amount userAddress).txType := rfl
  rw [on.eq_ok_iff hkind]
  refine and_congr_left fun _ => ?_
  have hbalance := hs.balance_le u
  have hkey : (s.withdrawal P u amount userAddress).HasKey ↔ (s.leaves u).pk ≠ zeroLimbs := by
    show allZero (widen (s.leaves u).pk).toList = false ↔ _
    rw [← Bool.not_eq_true, allZero_widen]
  constructor
  · rintro ⟨⟨hk, hlane⟩, hfits⟩
    refine ⟨hkey.mp hk, hlane, ?_⟩
    have hcovers : amount.toNat ≤ (s.leaves u).balance.toNat + 0 := hfits.balanceCovers
    exact UInt64.le_iff_toNat_le.mpr hcovers
  · rintro ⟨hk, hlane, hcovers⟩
    rw [UInt64.le_iff_toNat_le] at hcovers
    refine ⟨⟨hkey.mpr hk, hlane⟩, ?_, rfl, ?_, ?_, ?_, ?_⟩
    · have hlane' := accountLaneFree_iff.mp
        (show (s.withdrawal P u amount userAddress).AccountLaneFree from hlane)
      show (s.leaves u).nonce.toNat < 2 ^ 63
      change (s.leaves u).nonce.toNat / 2 ^ 40 < 2 ^ 23 - 1 at hlane'
      omega
    · exact (s.leaves u).balance.toNat_lt
    · exact s.totalLiability.toNat_lt
    · exact hcovers
    · exact hcovers.trans hbalance

theorem State.Sound.withdraw (hs : s.Sound P) (userAddress : Vector UInt8 20)
    (hamount : isCanonical amount = true)
    (hcan : (s.leaves u).CanWithdraw amount)
    (h : validateSlot P G (s.withdrawal P u amount userAddress) = .ok e) : ∃ s',
      Step P G s ⟨s.withdrawal P u amount userAddress, e⟩ s' ∧ s'.Sound P ∧
        s'.leaves = Function.update s.leaves u ((s.leaves u).withdrawn amount) ∧
        s'.totalLiability.toNat + amount.toNat = s.totalLiability.toNat := by
  have hnewLeaf : e.newLeaf = (s.leaves u).withdrawn amount := by
    obtain ⟨-, rfl⟩ := (hs.withdrawal_eq_ok hamount).mp h
    have hzero : (s.leaves u).balance + 0 = (s.leaves u).balance := UInt64.add_zero _
    refine Leaf.ext ?_ ?_ rfl rfl rfl (committed_widen _) (committed_widen _)
    · show (s.leaves u).balance + 0 - amount = (s.leaves u).balance - amount
      rw [hzero]
    · show min (s.leaves u).credit ((s.leaves u).balance + 0 - amount) =
        min (s.leaves u).credit ((s.leaves u).balance - amount)
      rw [hzero]
  have haccount : ((s.leaves u).withdrawal P u amount userAddress).account = u :=
    witness_account (s.leaves u) u
  have hold : s.leaves ((s.leaves u).withdrawal P u amount userAddress).account =
      ((s.leaves u).withdrawal P u amount userAddress).oldLeaf := witness_leaf s u
  obtain ⟨s', hstep, hs', hleaves⟩ := hs.step_against hold h
  refine ⟨s', hstep, hs', ?_, ?_⟩
  · rw [hleaves, haccount, hnewLeaf]
  · have htotal := hstep.spec.tl_delta
    have hbalance := hs.balance_le u
    have hcovers := UInt64.le_iff_toNat_le.mp hcan.balance
    change (e.newTotalLiability.toNat : ℤ) - s.totalLiability.toNat = (0 : UInt64).toNat -
      amount.toNat at htotal
    rw [hstep.newTl]
    rw [UInt64.toNat_zero] at htotal
    show e.newTotalLiability.toNat + amount.toNat = s.totalLiability.toNat
    omega

/-- The withdrawal of a canonical amount that looks its witness up in the ledger of a sound state is
accepted exactly when the account has a key, room in its account lane, and the balance.  It then
takes a step to a sound state in which only that account changed: its balance dropped by the amount,
its credit is capped at the balance, and its account lane went up by one. -/
theorem withdrawal_accepted_iff (hs : s.Sound P) (userAddress : Vector UInt8 20)
    (hamount : isCanonical amount = true) :
    ((∃ e, validateSlot P G (s.withdrawal P u amount userAddress) = .ok e) ↔
      (s.leaves u).CanWithdraw amount) ∧
    ∀ e, validateSlot P G (s.withdrawal P u amount userAddress) = .ok e → ∃ s',
      Step P G s ⟨s.withdrawal P u amount userAddress, e⟩ s' ∧ s'.Sound P ∧
        s'.leaves = Function.update s.leaves u ((s.leaves u).withdrawn amount) ∧
        s'.totalLiability.toNat + amount.toNat = s.totalLiability.toNat := by
  refine ⟨⟨?_, fun hcan => ⟨_, (hs.withdrawal_eq_ok hamount).mpr ⟨hcan, rfl⟩⟩⟩, fun e h => ?_⟩
  · rintro ⟨e, h⟩
    exact ((hs.withdrawal_eq_ok hamount).mp h).1
  · exact hs.withdraw userAddress hamount ((hs.withdrawal_eq_ok hamount).mp h).1 h

/-- The account of the run's user holds what its last slot left. -/
theorem slots_leaf : ∃ s, Run sumHash evenCore emptyState slots s ∧ s.Sound sumHash ∧
    s.leaves providerBet.account = providerBetEffects.newLeaf := by
  obtain ⟨s, hrun, hsound⟩ := slots_sound
  have hsplit : Run sumHash evenCore emptyState
      (slots.take 3 ++ [⟨providerBet, providerBetEffects⟩]) s := hrun
  obtain ⟨t, -, hlast⟩ := Transition.Run.snoc_iff.mp hsplit
  exact ⟨s, hrun, hsound, hlast.newLeaf⟩

theorem slots_withdrawal : ∃ s e, Run sumHash evenCore emptyState slots s ∧
    validateSlot sumHash evenCore
      (s.withdrawal sumHash providerBet.account 3 registration.userAddress) = .ok e := by
  obtain ⟨s, hrun, hsound, hleaf⟩ := slots_leaf
  obtain ⟨e, he⟩ := (withdrawal_accepted_iff (G := evenCore) (u := providerBet.account) hsound
    registration.userAddress (show isCanonical 3 = true by decide)).1.mpr (by
      rw [hleaf]
      constructor <;> decide)
  exact ⟨s, e, hrun, he⟩

/-! ### Exits -/

/-- The account has a key and room for two slots in its account lane. -/
structure Leaf.CanExit (l : Leaf) : Prop where
  key : l.pk ≠ zeroLimbs
  lane : (splitNonce l.nonce).1.toNat + 2 ≤ accountLaneMax.toNat

/-- The slots withdraw all that the accounts `us` hold, two slots each. -/
structure Exit (P : Poseidon2Hash) (G : GameCore) (userAddress : UserId → Vector UInt8 20)
    (us : Finset UserId) (s : State) (as : List Slot) (s' : State) : Prop where
  run : Run P G s as s'
  length : as.length = 2 * us.card
  each : ∀ u ∈ us, as.countP (fun a => a.account == u) = 2
  slots : ∀ a ∈ as, a.account ∈ us ∧ a.input.txType = txWithdrawal ∧
    a.input.userAddress = userAddress a.account
  sound : s'.Sound P
  emptied : ∀ u ∈ us, (s'.leaves u).balance = 0 ∧ (s'.leaves u).credit = 0
  frame : ∀ v, v ∉ us → s'.leaves v = s.leaves v
  total : s'.totalLiability.toNat + ∑ u ∈ us, (s.leaves u).balance.toNat =
    s.totalLiability.toNat

theorem withdrawal_slot {userAddress : UserId → Vector UInt8 20} {a : Slot}
    (h : a.input = s.withdrawal P u amount (userAddress u)) : a.account ∈ ({u} : Finset UserId) ∧
      a.input.txType = txWithdrawal ∧ a.input.userAddress = userAddress a.account := by
  have haccount : a.account = u := by rw [Slot.account, h, withdrawal_account]
  rw [haccount, h]
  exact ⟨Finset.mem_singleton_self u, rfl, rfl⟩

theorem Exit.countP_of_notMem {userAddress : UserId → Vector UInt8 20} {us : Finset UserId}
    {as : List Slot} (h : Exit P G userAddress us s as s') (hu : u ∉ us) :
    as.countP (fun a => a.account == u) = 0 := by
  rw [List.countP_eq_zero]
  intro a ha hmark
  rw [← beq_iff_eq.mp hmark] at hu
  exact hu (h.slots a ha).1

theorem Exit.insert {userAddress : UserId → Vector UInt8 20} {us : Finset UserId} {t : State}
    {as bs : List Slot} (h : Exit P G userAddress us s as t)
    (h' : Exit P G userAddress {u} t bs s') (hu : u ∉ us) :
    Exit P G userAddress (Insert.insert u us) s (as ++ bs) s' where
  run := Transition.Run.append_iff.mpr ⟨t, h.run, h'.run⟩
  length := by
    rw [List.length_append, h.length, h'.length, Finset.card_insert_of_notMem hu,
      Finset.card_singleton, Nat.mul_add]
  each v hv := by
    rw [List.countP_append]
    by_cases hvu : v = u
    · rw [hvu, h.countP_of_notMem hu, h'.each u (Finset.mem_singleton_self u)]
    · rw [h.each v (Finset.mem_of_mem_insert_of_ne hv hvu),
        h'.countP_of_notMem (Finset.notMem_singleton.mpr hvu)]
  slots c hc := by
    rcases List.mem_append.mp hc with hc | hc
    · exact (h.slots c hc).imp_left Finset.mem_insert_of_mem
    · refine (h'.slots c hc).imp_left fun hmem => ?_
      rw [Finset.mem_singleton.mp hmem]
      exact Finset.mem_insert_self u us
  sound := h'.sound
  emptied v hv := by
    by_cases hvu : v = u
    · exact h'.emptied v (Finset.mem_singleton.mpr hvu)
    · rw [h'.frame v (Finset.notMem_singleton.mpr hvu)]
      exact h.emptied v (Finset.mem_of_mem_insert_of_ne hv hvu)
  frame v hv := by
    rw [Finset.mem_insert, not_or] at hv
    rw [h'.frame v (Finset.notMem_singleton.mpr hv.1), h.frame v hv.2]
  total := by
    have hpair := h'.total
    have hrest := h.total
    rw [Finset.sum_singleton, h.frame u hu] at hpair
    rw [Finset.sum_insert hu]
    omega

/-- Any balance, one above the field too, is the sum of two canonical amounts. -/
theorem exists_canonical_parts (balance : UInt64) : ∃ first rest, isCanonical first = true ∧
    isCanonical rest = true ∧ first ≤ balance ∧ balance - first = rest ∧
    first.toNat + rest.toNat = balance.toNat := by
  let first := min balance (goldilocksP - 1)
  have hfirst : first.toNat = min balance.toNat (2 ^ 64 - 2 ^ 32) := min_toNat _ _
  have hle : first.toNat ≤ balance.toNat := by omega
  have hrest : (balance - first).toNat = balance.toNat - first.toNat :=
    UInt64.toNat_sub_of_le _ _ (UInt64.le_iff_toNat_le.mpr hle)
  have hbound := balance.toNat_lt
  exact ⟨first, balance - first, isCanonical_iff.mpr (by omega), isCanonical_iff.mpr (by omega),
    UInt64.le_iff_toNat_le.mpr hle, rfl, by omega⟩

theorem Leaf.CanExit.canWithdraw (h : l.CanExit) (hle : amount ≤ l.balance) :
    l.CanWithdraw amount := by
  refine ⟨h.key, ?_, hle⟩
  have hlane := h.lane
  rw [UInt64.lt_iff_toNat_lt]
  omega

/-- The lane of a leaf that can exit has room for a second withdrawal. -/
theorem Leaf.CanExit.withdrawn (h : l.CanExit) :
    (l.withdrawn amount).CanWithdraw (l.withdrawn amount).balance := by
  refine ⟨h.key, ?_, UInt64.le_refl _⟩
  have hlane := h.lane
  rw [accountLaneMax_toNat, (splitNonce_toNat _).1] at hlane
  have hnonce : (l.nonce + accountLaneUnit).toNat = l.nonce.toNat + 2 ^ 40 := by
    rw [UInt64.toNat_add]
    exact Nat.mod_eq_of_lt (show l.nonce.toNat + 2 ^ 40 < 2 ^ 64 by omega)
  rw [UInt64.lt_iff_toNat_lt, accountLaneMax_toNat, (splitNonce_toNat _).1]
  show (l.nonce + accountLaneUnit).toNat / 2 ^ 40 < 2 ^ 23 - 1
  rw [hnonce]
  omega

theorem withdrawn_balance :
    (l.withdrawn l.balance).balance = 0 ∧ (l.withdrawn l.balance).credit = 0 := by
  have hzero : l.balance - l.balance = 0 := UInt64.sub_self _
  refine ⟨hzero, ?_⟩
  show min l.credit (l.balance - l.balance) = 0
  apply UInt64.toNat_inj.mp
  rw [hzero, min_toNat]
  exact Nat.min_zero _

/-- On a sound state an account with a key and room in its lane can withdraw all that it holds. -/
theorem State.Sound.exit (hs : s.Sound P) (userAddress : UserId → Vector UInt8 20)
    (hcan : (s.leaves u).CanExit) : ∃ as s', Exit P G userAddress {u} s as s' := by
  obtain ⟨first, rest, hfirst, hrest, hle, rfl, hparts⟩ :=
    exists_canonical_parts (s.leaves u).balance
  have hcan1 : (s.leaves u).CanWithdraw first := hcan.canWithdraw hle
  obtain ⟨s1, hstep1, hs1, hleaves1, htotal1⟩ := hs.withdraw (G := G) (userAddress u) hfirst hcan1
    ((hs.withdrawal_eq_ok hfirst).mpr ⟨hcan1, rfl⟩)
  have hleaf1 : s1.leaves u = (s.leaves u).withdrawn first := by
    rw [hleaves1, Function.update_self]
  have hcan2 : (s1.leaves u).CanWithdraw (s1.leaves u).balance := by
    rw [hleaf1]
    exact hcan.withdrawn
  have hleft : (s1.leaves u).balance = (s.leaves u).balance - first := by
    rw [hleaf1]
    rfl
  rw [← hleft] at hrest hparts
  obtain ⟨s2, hstep2, hs2, hleaves2, htotal2⟩ := hs1.withdraw (G := G) (userAddress u) hrest hcan2
    ((hs1.withdrawal_eq_ok hrest).mpr ⟨hcan2, rfl⟩)
  have hleaf2 : s2.leaves u = (s1.leaves u).withdrawn (s1.leaves u).balance := by
    rw [hleaves2, Function.update_self]
  obtain ⟨a, ha, hstep1⟩ : ∃ a : Slot,
      a.input = s.withdrawal P u first (userAddress u) ∧ Step P G s a s1 := ⟨_, rfl, hstep1⟩
  obtain ⟨b, hb, hstep2⟩ : ∃ b : Slot,
      b.input = s1.withdrawal P u (s1.leaves u).balance (userAddress u) ∧ Step P G s1 b s2 :=
    ⟨_, rfl, hstep2⟩
  have hslots : ∀ c ∈ [a, b], c.account ∈ ({u} : Finset UserId) ∧
      c.input.txType = txWithdrawal ∧ c.input.userAddress = userAddress c.account := by
    intro c hc
    rcases List.mem_pair.mp hc with rfl | rfl
    · exact withdrawal_slot ha
    · exact withdrawal_slot hb
  have hrun1 : Run P G s [a] s1 := Transition.Run.snoc .nil hstep1
  refine ⟨[a, b], s2, hrun1.snoc hstep2, rfl, ?_, hslots, hs2, ?_, ?_, ?_⟩
  · intro v hv
    rw [Finset.mem_singleton.mp hv]
    refine List.countP_eq_length.mpr fun c hc => beq_iff_eq.mpr ?_
    exact Finset.mem_singleton.mp (hslots c hc).1
  · intro v hv
    rw [Finset.mem_singleton.mp hv, hleaf2]
    exact withdrawn_balance
  · intro v hv
    have hv := Finset.notMem_singleton.mp hv
    rw [hleaves2, Function.update_of_ne hv, hleaves1, Function.update_of_ne hv]
  · rw [Finset.sum_singleton]
    omega

/-- On a sound state every set of accounts that each have a key and room for two slots in their
account lane can withdraw all that they hold, with two slots each and to addresses of their choice;
and when the others hold nothing, the total liability ends at zero. -/
theorem accounts_can_exit (hs : s.Sound P) (userAddress : UserId → Vector UInt8 20)
    {us : Finset UserId} (hcan : ∀ u ∈ us, (s.leaves u).CanExit) :
    ∃ as s', Exit P G userAddress us s as s' ∧
      ((∀ v, v ∉ us → (s.leaves v).balance = 0) → s'.totalLiability = 0) := by
  have hexit : ∃ as s', Exit P G userAddress us s as s' := by
    induction us using Finset.induction_on with
    | empty => exact ⟨[], s, .nil, rfl, by simp, by simp, hs, by simp, fun _ _ => rfl, by simp⟩
    | insert u us hu ih =>
      obtain ⟨as, t, hothers⟩ := ih fun v hv => hcan v (Finset.mem_insert_of_mem hv)
      have hcanU : (t.leaves u).CanExit := by
        rw [hothers.frame u hu]
        exact hcan u (Finset.mem_insert_self u us)
      obtain ⟨bs, s', hown⟩ := hothers.sound.exit (G := G) userAddress hcanU
      exact ⟨as ++ bs, s', hothers.insert hown hu⟩
  obtain ⟨as, s', h⟩ := hexit
  refine ⟨as, s', h, fun hothers => ?_⟩
  have hempty : ∀ u, (s'.leaves u).balance = 0 := by
    intro u
    by_cases hu : u ∈ us
    · exact (h.emptied u hu).1
    · rw [h.frame u hu]
      exact hothers u hu
  apply UInt64.toNat_inj.mp
  rw [h.sound.total]
  exact Finset.sum_eq_zero fun u _ => congrArg UInt64.toNat (hempty u)

theorem slots_exit : ∃ s as s', Run sumHash evenCore emptyState slots s ∧
    Exit sumHash evenCore (fun _ => registration.userAddress) {providerBet.account} s as s' ∧
    s'.totalLiability.toNat + 4 = s.totalLiability.toNat := by
  obtain ⟨s, hrun, hsound, hleaf⟩ := slots_leaf
  have hcan : ∀ u ∈ ({providerBet.account} : Finset UserId), (s.leaves u).CanExit := by
    intro u hu
    rw [Finset.mem_singleton.mp hu, hleaf]
    constructor <;> decide
  obtain ⟨as, s', hexit, -⟩ :=
    accounts_can_exit (G := evenCore) hsound (fun _ => registration.userAddress) hcan
  have htotal := hexit.total
  rw [Finset.sum_singleton, hleaf] at htotal
  exact ⟨s, as, s', hrun, hexit, htotal⟩

end TxValidator
