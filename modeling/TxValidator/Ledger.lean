import TxValidator.Validate
import TxValidator.Lib.Run

/-! The abstract ledger behind the state tree: a map from user ids to accounts, its Merkle root, and
the steps that accepted slots take on it.  An account commits two limbs of its key hash and two of
its address hash; the other limbs that a slot carries belong to no state. -/

namespace TxValidator

/-- An index into the state tree. -/
abbrev UserId := Fin (2 ^ treeDepth)

/-- The state that a leaf of the tree commits. -/
@[ext] structure Leaf where
  balance : UInt64
  credit : UInt64
  seedHash : Vector UInt64 3
  nonce : UInt64
  allowance : UInt64
  pk : Vector UInt64 2
  address : Vector UInt64 2
  deriving DecidableEq

/-- The leaf has an encoding: its allowance fits the packed fields and its limbs are canonical. -/
structure Leaf.Storable (l : Leaf) : Prop where
  allowance : l.allowance ≤ providerAllowanceMax
  seedHash : allCanonical l.seedHash.toList = true
  nonce : isCanonical l.nonce = true
  pk : allCanonical l.pk.toList = true
  address : allCanonical l.address.toList = true

/-- An account of the ledger. -/
structure Account extends Leaf where
  storable : toLeaf.Storable

abbrev Ledger := UserId → Account

/-- The leaf that a slot claims to start from. -/
def SlotInput.oldLeaf (input : SlotInput) : Leaf where
  balance := input.oldBalance
  credit := input.oldDepositCredit
  seedHash := input.oldSeedHash
  nonce := input.oldNonce
  allowance := input.oldProviderAllowance
  pk := committed input.oldPkHash
  address := committed input.oldAddressHash

/-- The leaf that the effects of a slot describe. -/
def SlotEffects.newLeaf (e : SlotEffects) : Leaf where
  balance := e.newBalance
  credit := e.newCredit
  seedHash := e.newSeedHash
  nonce := e.newNonce
  allowance := e.newProviderAllowance
  pk := committed e.newPkHash
  address := committed e.newAddressHash

/-- The account that a slot addresses: the low bits of its user id. -/
def SlotInput.account (input : SlotInput) : UserId := Fin.ofNat _ input.userId.toNat

/-! ### Roots -/

section Roots

variable (P : Poseidon2Hash)

def Leaf.balanceHash (l : Leaf) : Digest :=
  balanceLeaf P l.balance l.seedHash l.credit l.nonce l.allowance

/-- The main leaf of the tree for an account's state. -/
def Leaf.digest (l : Leaf) : Digest := mainLeaf P (l.balanceHash P) (widen l.pk) (widen l.address)

/-- The two preimages that a leaf's digest hashes. -/
def Leaf.preimages (l : Leaf) : List (List UInt64) :=
  [balanceLeafPreimage l.balance l.seedHash l.credit l.nonce l.allowance,
    mainLeafPreimage (l.balanceHash P) (widen l.pk) (widen l.address)]

namespace Ledger

/-- The leaf digests of the tree, by index. -/
def leaves (L : Ledger) (i : ℕ) : Digest := (L (Fin.ofNat _ i)).digest P

def root (L : Ledger) : Digest := MerkleTree.root (twoToOne P) treeDepth (L.leaves P)

def siblings (L : Ledger) (u : UserId) : List Digest :=
  MerkleTree.siblings (twoToOne P) treeDepth (L.leaves P) u

/-- Everything that the root of the ledger hashes. -/
def preimages (L : Ledger) : Set (List UInt64) :=
  {x | ∃ u, x ∈ (L u).preimages P} ∪
    (fun q => twoToOnePreimage q.1 q.2) ''
      MerkleTree.nodes (twoToOne P) treeDepth (L.leaves P)

end Ledger

/-- Everything that the root check of a slot hashes. -/
def SlotInput.oldPreimages (input : SlotInput) : List (List UInt64) :=
  input.oldLeaf.preimages P ++
    (MerkleTree.pathNodes (twoToOne P) (input.oldLeaf.digest P) input.mainSiblings.toList
      input.userId.toNat).map fun q => twoToOnePreimage q.1 q.2

theorem computeOldRoot_eq_climb (input : SlotInput) :
    computeOldRoot P input = MerkleTree.climb (twoToOne P) (input.oldLeaf.digest P)
      input.mainSiblings.toList input.userId.toNat := by
  rw [computeOldRoot, computeRoot, rootFromLeaf_eq_climb, ← mainLeaf_widen]
  rfl

theorem computeNewRoot_eq_climb (e : SlotEffects) (siblings : Vector Digest treeDepth)
    (userId : UInt32) :
    computeNewRoot P e.newBalance e.newSeedHash e.newCredit e.newNonce e.newProviderAllowance
      e.newPkHash e.newAddressHash siblings userId =
    MerkleTree.climb (twoToOne P) (e.newLeaf.digest P) siblings.toList userId.toNat := by
  rw [computeNewRoot, computeRoot, rootFromLeaf_eq_climb, ← mainLeaf_widen]
  rfl

end Roots

/-! ### Accepted slots -/

variable {P : Poseidon2Hash} {G : GameCore} {input : SlotInput} {e : SlotEffects}

theorem AlwaysOn.account_val (h : AlwaysOn P input) :
    input.account.val = input.userId.toNat :=
  Nat.mod_eq_of_lt h.userId

theorem committed_canonical {d : Digest} (h : allCanonical d.toList = true) :
    allCanonical (committed d).toList = true := by
  rw [allCanonical_iff] at h ⊢
  intro v hv
  have hv' : v = d[0] ∨ v = d[1] := by simpa [committed] using hv
  rcases hv' with rfl | rfl
  · exact h _ (by simp)
  · exact h _ (by simp)

/-- The limbs that the always-on checks find canonical. -/
theorem fieldsCanonical_iff : fieldsCanonical input = true ↔
    allCanonical input.serverSeed.toList = true ∧ allCanonical input.userSeed.toList = true ∧
    allCanonical input.oldSeedHash.toList = true ∧
    allCanonical input.nextServerSeedHash.toList = true ∧ isCanonical input.oldNonce = true ∧
    allCanonical input.oldPkHash.toList = true ∧ allCanonical input.newPkHash.toList = true ∧
    allCanonical input.oldAddressHash.toList = true ∧
    allCanonical input.predictionHash.toList = true ∧
    allCanonical input.userSecretRandom.toList = true ∧
    ∀ s ∈ input.mainSiblings.toList, allCanonical s.toList = true := by
  simp only [fieldsCanonical, Bool.and_eq_true, List.all_eq_true, and_assoc]

theorem AlwaysOn.oldLeaf_storable (h : AlwaysOn P input) : input.oldLeaf.Storable := by
  obtain ⟨-, -, hseed, -, hnonce, hpk, -, haddr, -, -, -⟩ := fieldsCanonical_iff.mp h.canonical
  exact ⟨h.allowance, hseed, hnonce, committed_canonical hpk, committed_canonical haddr⟩

/-- The seed, key and address that an accepted slot leaves are canonical in all their limbs. -/
theorem AlwaysOn.new_canonical (on : AlwaysOn P input) (spec : EffectsSpec P G input e) :
    allCanonical e.newSeedHash.toList = true ∧ allCanonical e.newPkHash.toList = true ∧
      allCanonical e.newAddressHash.toList = true := by
  obtain ⟨-, -, hseed, hnext, -, hpk, hnewPk, haddr, -, -, -⟩ :=
    fieldsCanonical_iff.mp on.canonical
  refine ⟨?_, ?_, ?_⟩
  · rw [spec.seed]
    split
    · exact hnext
    · exact hseed
  · rw [spec.newPkHash]
    split
    · exact hnewPk
    · exact hpk
  · rw [spec.newAddressHash]
    split
    · exact poseidon2_canonical P _
    · exact haddr

/-- An accepted slot leaves a leaf that has an encoding. -/
theorem newLeaf_storable (h : validateSlot P G input = .ok e) : e.newLeaf.Storable := by
  obtain ⟨on, spec⟩ := validateSlot_eq_ok.mp h
  obtain ⟨hseed, hpk, haddr⟩ := on.new_canonical spec
  exact ⟨spec.allowance.le_max, hseed, isCanonical_of_lt spec.nonce.new_lt,
    committed_canonical hpk, committed_canonical haddr⟩

/-- The account after an accepted slot. -/
def newAccount (h : validateSlot P G input = .ok e) : Account := ⟨e.newLeaf, newLeaf_storable h⟩

/-! ### Steps and runs -/

/-- An accepted slot: its witness and the effects that the validator returned. -/
structure Slot where
  input : SlotInput
  effects : SlotEffects

def Slot.account (a : Slot) : UserId := a.input.account

def Slot.amount (a : Slot) : ℕ := a.input.amount.toNat

/-- The state that slots are checked against, with the ledger behind its root. -/
structure State where
  ledger : Ledger
  root : Digest
  totalLiability : UInt64

/-- The step of an accepted slot: it is checked against the current root and total liability, its
old fields are its account's leaf, and its effects replace that leaf and no other. -/
structure Step (P : Poseidon2Hash) (G : GameCore) (s : State) (a : Slot) (s' : State) : Prop where
  accepted : validateSlot P G a.input = .ok a.effects
  currentRoot : a.input.currentRoot = s.root
  currentTl : a.input.currentTl = s.totalLiability
  oldLeaf : (s.ledger a.account).toLeaf = a.input.oldLeaf
  newLeaf : (s'.ledger a.account).toLeaf = a.effects.newLeaf
  frame : ∀ v, v ≠ a.account → s'.ledger v = s.ledger v
  newRoot : s'.root = a.effects.newRoot
  newTl : s'.totalLiability = a.effects.newTotalLiability

/-- A finite run of accepted slots. -/
abbrev Run (P : Poseidon2Hash) (G : GameCore) : State → List Slot → State → Prop :=
  Transition.Run (Step P G)

/-- The state after an accepted slot. -/
def State.after (s : State) (a : Slot) (h : validateSlot P G a.input = .ok a.effects) : State where
  ledger := Function.update s.ledger a.account (newAccount h)
  root := a.effects.newRoot
  totalLiability := a.effects.newTotalLiability

/-- Every accepted slot on the current root, total liability and leaf takes a step. -/
theorem Step.of_accepted {s : State} {a : Slot} (h : validateSlot P G a.input = .ok a.effects)
    (hroot : a.input.currentRoot = s.root) (htl : a.input.currentTl = s.totalLiability)
    (hold : (s.ledger a.account).toLeaf = a.input.oldLeaf) : Step P G s a (s.after a h) where
  accepted := h
  currentRoot := hroot
  currentTl := htl
  oldLeaf := hold
  newLeaf := by simp [State.after, newAccount]
  frame v hv := by simp [State.after, Function.update_of_ne hv]
  newRoot := rfl
  newTl := rfl

namespace Step

variable {s s' : State} {a : Slot}

theorem on (h : Step P G s a s') : AlwaysOn P a.input :=
  (validateSlot_eq_ok.mp h.accepted).1

theorem spec (h : Step P G s a s') : EffectsSpec P G a.input a.effects :=
  (validateSlot_eq_ok.mp h.accepted).2

/-- What a step reads and writes in each part of its account's leaf. -/
theorem part_eq {β : Type} (h : Step P G s a s') {u : UserId} (hu : a.account = u) (f : Leaf → β) :
    f (s.ledger u).toLeaf = f a.input.oldLeaf ∧ f (s'.ledger u).toLeaf = f a.effects.newLeaf := by
  subst hu
  rw [h.oldLeaf, h.newLeaf]
  exact ⟨rfl, rfl⟩

/-- A property of leaves that the effects of the slot keep is kept on every account. -/
theorem keeps {p : Leaf → Prop} (h : Step P G s a s')
    (hp : p a.input.oldLeaf → p a.effects.newLeaf) {u : UserId} (hs : p (s.ledger u).toLeaf) :
    p (s'.ledger u).toLeaf := by
  by_cases hu : a.account = u
  · subst hu
    rw [h.oldLeaf] at hs
    rw [h.newLeaf]
    exact hp hs
  · rw [h.frame u (Ne.symm hu)]
    exact hs

end Step

/-- The account of a user who never transacted. -/
def Account.zero : Account where
  balance := 0
  credit := 0
  seedHash := zeroSeed
  nonce := 0
  allowance := 0
  pk := zeroLimbs
  address := zeroLimbs
  storable := ⟨by decide, by decide, by decide, by decide, by decide⟩

/-- The empty ledger. -/
def Ledger.zero : Ledger := fun _ => Account.zero

/-- The siblings of every leaf of the empty ledger. -/
def zeroSiblings (P : Poseidon2Hash) : Vector Digest treeDepth :=
  Vector.ofFn fun i => MerkleTree.level (twoToOne P) (Account.zero.digest P) i

/-! ### A run of one account

User 5 registers a key on the empty ledger, wins a bet, grants an allowance and has a provider bet
taken from it. -/

def registration : SlotInput := SlotInput.commit sumHash {
  txType := txKeyRegisterOnly
  userId := 5
  mainSiblings := zeroSiblings sumHash
  nextServerSeedHash := #v[37, 0, 0]
  newPkHash := #v[1, 2, 3, 4] }

def registrationEffects : SlotEffects where
  newBalance := 0
  newCredit := 0
  newSeedHash := #v[37, 0, 0]
  newNonce := accountLaneUnit
  newGameNonce := 0
  newAccountNonce := 1
  newProviderAllowance := 0
  newPkHash := #v[1, 2, 3, 4]
  newAddressHash := #v[1, 0, 0, 0]
  newRoot := #v[1100316934184, 0, 0, 0]
  newTotalLiability := 0
  random := zeroDigest
  slotH := zeroDigest
  isMultisetSlot := false

/-- A slot of user 5 on the leaf, the root and the total liability that the effects before it
leave. -/
def SlotEffects.playerSlot (e : SlotEffects) (siblings : Vector Digest treeDepth) : SlotInput where
  userId := 5
  oldBalance := e.newBalance
  oldDepositCredit := e.newCredit
  oldSeedHash := e.newSeedHash
  oldNonce := e.newNonce
  oldProviderAllowance := e.newProviderAllowance
  oldPkHash := e.newPkHash
  oldAddressHash := e.newAddressHash
  oldTotalLiability := e.newTotalLiability
  mainSiblings := siblings
  currentRoot := e.newRoot
  currentTl := e.newTotalLiability

def houseBet : SlotInput :=
  { registrationEffects.playerSlot (zeroSiblings sumHash) with
    txType := txInHouseBet
    amount := 7
    winAmount := 14
    serverSeed := #v[1, 2, 3, 4, 5, 6, 7, 8]
    userSeed := #v[11, 0, 0, 0]
    nextServerSeedHash := #v[5, 6, 7]
    gameId := 1
    predictionHash := #v[2, 0, 0, 0] }

def houseBetEffects : SlotEffects :=
  { registrationEffects with
    newBalance := 7
    newSeedHash := #v[5, 6, 7]
    newNonce := accountLaneUnit + 1
    newGameNonce := 1
    newRoot := #v[1100316934173, 0, 0, 0]
    newTotalLiability := 7
    random := #v[48, 0, 0, 0]
    slotH := #v[73, 0, 0, 0]
    isMultisetSlot := true }

def grant : SlotInput :=
  { houseBetEffects.playerSlot (zeroSiblings sumHash) with
    txType := txSetProviderAllowance
    amount := 10 }

def grantEffects : SlotEffects :=
  { registrationEffects with
    newBalance := 7
    newSeedHash := #v[5, 6, 7]
    newNonce := accountLaneUnit + 2
    newGameNonce := 2
    newProviderAllowance := 10
    newRoot := #v[1143266607134, 0, 0, 0]
    newTotalLiability := 7 }

def providerBet : SlotInput :=
  { grantEffects.playerSlot (zeroSiblings sumHash) with
    txType := txBet
    amount := 3 }

def providerBetEffects : SlotEffects :=
  { grantEffects with
    newBalance := 4
    newProviderAllowance := 7
    newRoot := #v[1130381705243, 0, 0, 0]
    newTotalLiability := 4 }

def slots : List Slot :=
  [⟨registration, registrationEffects⟩, ⟨houseBet, houseBetEffects⟩, ⟨grant, grantEffects⟩,
    ⟨providerBet, providerBetEffects⟩]

theorem slots_ok : ∀ a ∈ slots, validateSlot sumHash evenCore a.input = .ok a.effects := by
  decide +kernel

theorem registration_ok : validateSlot sumHash evenCore registration = .ok registrationEffects :=
  slots_ok ⟨registration, registrationEffects⟩ (by simp [slots])

theorem houseBet_ok : validateSlot sumHash evenCore houseBet = .ok houseBetEffects :=
  slots_ok ⟨houseBet, houseBetEffects⟩ (by simp [slots])

theorem providerBet_ok : validateSlot sumHash evenCore providerBet = .ok providerBetEffects :=
  slots_ok ⟨providerBet, providerBetEffects⟩ (by simp [slots])

/-- The empty ledger, on the root that the registration is checked against. -/
def emptyState : State := ⟨Ledger.zero, registration.currentRoot, 0⟩

/-- The slot is on the account of `a`, and on the leaf, the root and the total liability that `a`
leaves. -/
def SlotInput.Follows (input : SlotInput) (a : Slot) : Prop :=
  input.userId = a.input.userId ∧ input.currentRoot = a.effects.newRoot ∧
    input.currentTl = a.effects.newTotalLiability ∧ a.effects.newLeaf = input.oldLeaf

instance (input : SlotInput) (a : Slot) : Decidable (input.Follows a) :=
  inferInstanceAs (Decidable (_ ∧ _ ∧ _ ∧ _))

theorem Step.next {s s' : State} {a b : Slot} (h : Step P G s a s')
    (hb : validateSlot P G b.input = .ok b.effects) (hfollows : b.input.Follows a) :
    Step P G s' b (s'.after b hb) := by
  obtain ⟨huser, hroot, htl, hleaf⟩ := hfollows
  have hsame : b.account = a.account := by
    rw [Slot.account, Slot.account, SlotInput.account, SlotInput.account, huser]
  refine Step.of_accepted hb ?_ ?_ ?_
  · rw [hroot, h.newRoot]
  · rw [htl, h.newTl]
  · rw [hsame, h.newLeaf, hleaf]

/-- Accepted slots that each follow the one before it are a run. -/
theorem Step.exists_run {s s' : State} {a : Slot} (h : Step P G s a s') (bs : List Slot)
    (hok : ∀ b ∈ bs, validateSlot P G b.input = .ok b.effects)
    (hchain : List.IsChain (fun a b => b.input.Follows a) (a :: bs)) :
    ∃ s'', Run P G s' bs s'' := by
  induction bs generalizing s s' a with
  | nil => exact ⟨s', .nil⟩
  | cons b bs ih =>
    rw [List.isChain_cons_cons] at hchain
    have hstep := h.next (hok b (List.mem_cons_self ..)) hchain.1
    obtain ⟨s'', hrun⟩ := ih hstep (fun b hb => hok b (List.mem_cons_of_mem _ hb)) hchain.2
    exact ⟨s'', Transition.Run.middle_iff.mpr ⟨s', _, .nil, hstep, hrun⟩⟩

theorem registration_step :
    ∃ s, Step sumHash evenCore emptyState ⟨registration, registrationEffects⟩ s :=
  ⟨_, Step.of_accepted (a := ⟨registration, registrationEffects⟩) registration_ok rfl rfl
    (show Account.zero.toLeaf = registration.oldLeaf by decide +kernel)⟩

theorem slots_run : ∃ s, Run sumHash evenCore emptyState slots s := by
  obtain ⟨s, h⟩ := registration_step
  obtain ⟨s', hrest⟩ := h.exists_run slots.tail
    (fun b hb => slots_ok b (List.mem_of_mem_tail hb)) (by decide +kernel)
  exact ⟨s', Transition.Run.middle_iff.mpr ⟨emptyState, s, .nil, h, hrest⟩⟩

/-! ### A run of two accounts

The house commits a seed; user 5 registers a key, deposits, grants an allowance, has a provider bet
taken from it, deposits again, wins a limbo bet on the target 2.00 and a coinflip, and withdraws. -/

def houseCommit : SlotInput := SlotInput.commit sumHash {
  txType := txSetInitSeedHash
  mainSiblings := zeroSiblings sumHash
  nextServerSeedHash := registration.nextServerSeedHash }

def houseCommitEffects : SlotEffects :=
  { registrationEffects with
    newNonce := 0
    newAccountNonce := 0
    newPkHash := zeroDigest
    newAddressHash := zeroDigest
    newRoot := #v[805306404, 0, 0, 0] }

/-- The siblings of user 5 once the house account holds the seed. -/
def houseSiblings : Vector Digest treeDepth := Vector.ofFn fun i =>
  if i.val == 2 then
    MerkleTree.climb (twoToOne sumHash) (houseCommitEffects.newLeaf.digest sumHash)
      ((zeroSiblings sumHash).toList.take 2) 0
  else (zeroSiblings sumHash).get i

def playerRegistration : SlotInput :=
  { registration with
    mainSiblings := houseSiblings
    currentRoot := houseCommitEffects.newRoot }

def playerRegistrationEffects : SlotEffects :=
  { registrationEffects with newRoot := #v[1100316934221, 0, 0, 0] }

def playerDeposit : SlotInput :=
  { playerRegistrationEffects.playerSlot houseSiblings with
    txType := txDeposit
    amount := 20 }

def playerDepositEffects : SlotEffects :=
  { playerRegistrationEffects with
    newBalance := 20
    newCredit := 20
    newRoot := #v[1100316934261, 0, 0, 0]
    newTotalLiability := 20 }

def playerGrant : SlotInput :=
  { playerDepositEffects.playerSlot houseSiblings with
    txType := txSetProviderAllowance
    amount := 10 }

def playerGrantEffects : SlotEffects :=
  { playerDepositEffects with
    newNonce := accountLaneUnit + 1
    newGameNonce := 1
    newProviderAllowance := 10
    newRoot := #v[1143266607222, 0, 0, 0] }

def playerProviderBet : SlotInput :=
  { playerGrantEffects.playerSlot houseSiblings with
    txType := txBet
    amount := 3 }

def playerProviderBetEffects : SlotEffects :=
  { playerGrantEffects with
    newBalance := 17
    newCredit := 17
    newProviderAllowance := 7
    newRoot := #v[1130381705328, 0, 0, 0]
    newTotalLiability := 17 }

def playerTopUp : SlotInput :=
  { playerProviderBetEffects.playerSlot houseSiblings with
    txType := txDeposit
    amount := 5 }

def playerTopUpEffects : SlotEffects :=
  { playerProviderBetEffects with
    newBalance := 22
    newCredit := 22
    newRoot := #v[1130381705338, 0, 0, 0]
    newTotalLiability := 22 }

def limboBet : SlotInput :=
  { playerTopUpEffects.playerSlot houseSiblings with
    txType := txInHouseBet
    amount := 7
    winAmount := 14
    serverSeed := houseBet.serverSeed
    userSeed := #v[309, 0, 0, 0]
    nextServerSeedHash := #v[38, 0, 0]
    gameId := 1
    gameMode := 98
    predictionLo := 200
    predictionHash := #v[300, 0, 0, 0] }

def limboBetEffects : SlotEffects :=
  { playerTopUpEffects with
    newBalance := 29
    newSeedHash := #v[38, 0, 0]
    newNonce := accountLaneUnit + 2
    newGameNonce := 2
    newRoot := #v[1130381705347, 0, 0, 0]
    newTotalLiability := 29
    random := #v[346, 0, 0, 0]
    slotH := #v[669, 0, 0, 0]
    isMultisetSlot := true }

def coinflipBet : SlotInput :=
  { limboBetEffects.playerSlot houseSiblings with
    txType := txInHouseBet
    amount := 5
    winAmount := 10
    serverSeed := #v[1, 2, 3, 4, 5, 6, 7, 9]
    userSeed := #v[18, 0, 0, 0]
    nextServerSeedHash := #v[39, 0, 0]
    gameId := 5
    predictionLo := 1
    predictionHash := #v[7, 0, 0, 0] }

def coinflipBetEffects : SlotEffects :=
  { limboBetEffects with
    newBalance := 34
    newSeedHash := #v[39, 0, 0]
    newNonce := accountLaneUnit + 3
    newGameNonce := 3
    newRoot := #v[1130381705354, 0, 0, 0]
    newTotalLiability := 34
    random := #v[56, 0, 0, 0]
    slotH := #v[84, 0, 0, 0] }

def playerWithdrawal : SlotInput :=
  { coinflipBetEffects.playerSlot houseSiblings with
    txType := txWithdrawal
    amount := 30
    recipientAddrHash := #v[1, 0] }

def playerWithdrawalEffects : SlotEffects :=
  { coinflipBetEffects with
    newBalance := 4
    newCredit := 4
    newNonce := accountLaneUnit + accountLaneUnit + 3
    newAccountNonce := 2
    newRoot := #v[2229893333082, 0, 0, 0]
    newTotalLiability := 4
    random := zeroDigest
    slotH := zeroDigest
    isMultisetSlot := false }

def playerSlots : List Slot :=
  [⟨houseCommit, houseCommitEffects⟩, ⟨playerRegistration, playerRegistrationEffects⟩,
    ⟨playerDeposit, playerDepositEffects⟩, ⟨playerGrant, playerGrantEffects⟩,
    ⟨playerProviderBet, playerProviderBetEffects⟩, ⟨playerTopUp, playerTopUpEffects⟩,
    ⟨limboBet, limboBetEffects⟩, ⟨coinflipBet, coinflipBetEffects⟩,
    ⟨playerWithdrawal, playerWithdrawalEffects⟩]

theorem playerSlots_ok :
    ∀ a ∈ playerSlots, validateSlot sumHash evenCore a.input = .ok a.effects := by
  decide +kernel

theorem houseCommit_ok : validateSlot sumHash evenCore houseCommit = .ok houseCommitEffects :=
  playerSlots_ok ⟨houseCommit, houseCommitEffects⟩ (by simp [playerSlots])

theorem limboBet_ok : validateSlot sumHash evenCore limboBet = .ok limboBetEffects :=
  playerSlots_ok ⟨limboBet, limboBetEffects⟩ (by simp [playerSlots])

/-- A slot of another account, checked against the root and the total liability that a slot leaves,
takes a step. -/
theorem Step.next_other {s s' : State} {a b : Slot} (h : Step P G s a s')
    (hb : validateSlot P G b.input = .ok b.effects) (hother : b.account ≠ a.account)
    (hroot : b.input.currentRoot = a.effects.newRoot)
    (htl : b.input.currentTl = a.effects.newTotalLiability)
    (hleaf : (s.ledger b.account).toLeaf = b.input.oldLeaf) : Step P G s' b (s'.after b hb) := by
  refine Step.of_accepted hb ?_ ?_ ?_
  · rw [hroot, h.newRoot]
  · rw [htl, h.newTl]
  · rw [h.frame _ hother, hleaf]

theorem playerRegistration_steps : ∃ s s',
    Step sumHash evenCore emptyState ⟨houseCommit, houseCommitEffects⟩ s ∧
      Step sumHash evenCore s ⟨playerRegistration, playerRegistrationEffects⟩ s' := by
  have h1 : Step sumHash evenCore emptyState ⟨houseCommit, houseCommitEffects⟩ _ :=
    Step.of_accepted (a := ⟨houseCommit, houseCommitEffects⟩) houseCommit_ok
      (show houseCommit.currentRoot = registration.currentRoot by decide +kernel) rfl
      (show Account.zero.toLeaf = houseCommit.oldLeaf by decide +kernel)
  have hregistration := playerSlots_ok ⟨playerRegistration, playerRegistrationEffects⟩
    (by simp [playerSlots])
  have h2 := h1.next_other hregistration
    (show playerRegistration.account ≠ houseCommit.account by decide +kernel) rfl rfl
    (show Account.zero.toLeaf = playerRegistration.oldLeaf by decide +kernel)
  exact ⟨_, _, h1, h2⟩

theorem player_run : ∃ s, Run sumHash evenCore emptyState playerSlots s := by
  obtain ⟨s, t, h1, h2⟩ := playerRegistration_steps
  obtain ⟨s', hrest⟩ := h2.exists_run (playerSlots.drop 2)
    (fun b hb => playerSlots_ok b (List.mem_of_mem_drop hb)) (by decide +kernel)
  have hfirst : Run sumHash evenCore emptyState [⟨houseCommit, houseCommitEffects⟩] s :=
    Transition.Run.nil.snoc h1
  exact ⟨s', Transition.Run.middle_iff.mpr ⟨s, t, hfirst, h2, hrest⟩⟩

end TxValidator
