import TxValidator.Lib.Pointwise
import TxValidator.Commute
import TxValidator.Overflow

/-! The ledger as a product of accounts.  What a slot asks of its account reads nothing of the
shared state, so every account is a machine of its own; a run of the ledger is a run of each
account, as long as the total liability has room for what the slots add to it.  Runs with the same
slots in the same order on each account, interleaved in any way, end in one ledger. -/

namespace TxValidator

open Checked
open Transition (Pointwise labelsOf run_pointwise_iff perm_of_labelsOf)

variable {P : Poseidon2Hash} {G : GameCore} {input : SlotInput} {e : SlotEffects} {s s' : State}
  {a : Slot} {as : List Slot} {l l' : Leaf} {rs : List SlotInput} {g : UserId → Leaf}

/-- A step of one account: the slot starts from its leaf, passes its own checks and has local
effects, which describe the leaf after it. -/
structure AccountStep (P : Poseidon2Hash) (G : GameCore) (l : Leaf) (input : SlotInput)
    (l' : Leaf) : Prop where
  own : input.OwnChecks
  oldLeaf : l = input.oldLeaf
  newLeaf : ∃ c, computeLocal P G input = .ok c ∧ l' = c.newLeaf

def Slot.request (a : Slot) : SlotInput := a.input.request

/-- The leaves of the ledger. -/
def State.leaves (s : State) (u : UserId) : Leaf := (s.ledger u).toLeaf

/-- The root of the state is its ledger's, and its total liability the sum of all balances. -/
structure State.Sound (P : Poseidon2Hash) (s : State) : Prop where
  root : s.root = s.ledger.root P
  total : s.totalLiability.toNat = s.ledger.totalBalance

/-- What the slots add to the total liability. -/
def totalAdded (rs : List SlotInput) : ℕ := (rs.map fun r => r.addAmount.toNat).sum

theorem totalAdded_snoc (rs : List SlotInput) (r : SlotInput) :
    totalAdded (rs ++ [r]) = totalAdded rs + r.addAmount.toNat := by
  rw [totalAdded, List.map_append, List.sum_append, List.map_singleton, List.sum_singleton,
    totalAdded]

theorem SlotInput.OwnChecks.request (own : input.OwnChecks) : input.request.OwnChecks :=
  ⟨own.txType, own.canonical, own.amount, own.winAmount, own.allowance, own.userId⟩

/-! ### From the ledger to its accounts -/

/-- A step of the ledger is a step of the slot's account. -/
theorem Step.pointwise (h : Step P G s a s') :
    Pointwise SlotInput.account (AccountStep P G) s.leaves a.request s'.leaves where
  own := by
    obtain ⟨c, newTl, hc, -, he⟩ := exists_localEffects h.accepted
    have hnew : (s'.ledger a.account).toLeaf = c.newLeaf := by rw [h.newLeaf, he]; rfl
    exact ⟨h.on.ownChecks.request, h.oldLeaf, c, hc, hnew⟩
  frame u hu := congrArg Account.toLeaf (h.frame u hu)

/-- A step of the ledger writes the leaf of the slot's account and no other. -/
theorem Step.leaves_eq (h : Step P G s a s') :
    s'.leaves = Function.update s.leaves a.account a.effects.newLeaf := by
  funext u
  by_cases hu : u = a.account
  · rw [hu, Function.update_self]
    exact h.newLeaf
  · rw [Function.update_of_ne hu]
    exact congrArg Account.toLeaf (h.frame u hu)

theorem Run.pointwise (h : Run P G s as s') :
    Transition.Run (Pointwise SlotInput.account (AccountStep P G)) s.leaves (as.map Slot.request)
      s'.leaves :=
  h.map State.leaves Slot.request fun _ _ _ => Step.pointwise

/-! ### From the accounts to the ledger -/

theorem State.Sound.after (hs : s.Sound P) {accepted : validateSlot P G a.input = .ok a.effects}
    (h : Step P G s a (s.after a accepted))
    (hsiblings : a.input.mainSiblings.toList = s.ledger.siblings P a.input.account) :
    (s.after a accepted).Sound P :=
  ⟨newRoot_eq accepted hsiblings, h.conserves hs.total⟩

/-- A slot that looks its path up in the ledger of a sound state, and is accepted there, takes a
step. -/
theorem State.Sound.step_against (hs : s.Sound P)
    (hold : s.leaves input.account = input.oldLeaf)
    (h : validateSlot P G (input.against P s.ledger s.totalLiability) = .ok e) :
    ∃ s', Step P G s ⟨input.against P s.ledger s.totalLiability, e⟩ s' ∧ s'.Sound P ∧
      s'.leaves = Function.update s.leaves input.account e.newLeaf := by
  have hstep := Step.of_accepted (a := ⟨_, e⟩) h hs.root.symm rfl hold
  exact ⟨_, hstep, hs.after hstep (path_toList _), hstep.leaves_eq⟩

/-- On a sound state with room for it, a step of an account is that of an accepted slot. -/
theorem AccountStep.exists_step (hs : s.Sound P)
    (h : AccountStep P G (s.leaves input.account) input l')
    (hroom : s.totalLiability.toNat + input.addAmount.toNat < 2 ^ 64) :
    ∃ a s', Step P G s a s' ∧ a.request = input.request ∧ s'.Sound P ∧
      s'.leaves = Function.update s.leaves input.account l' ∧
      s'.totalLiability.toNat ≤ s.totalLiability.toNat + input.addAmount.toNat := by
  obtain ⟨own, hold, c, hc, rfl⟩ := h
  have on : AlwaysOn P (input.against P s.ledger s.totalLiability) := own.against hold
  have hbal := computeLocal_balance hc
  -- The balance covers the debit, and the total liability is at least the balance.
  have hcovered := hbal.covered
  have hbalance : input.oldBalance.toNat ≤ s.totalLiability.toNat := by
    rw [hs.total, show input.oldBalance = (s.ledger input.account).balance from
      (congrArg Leaf.balance hold).symm]
    exact s.ledger.balance_le input.account
  obtain ⟨newTl, htl⟩ : ∃ newTl, computeNewTl s.totalLiability c.bal.addFull c.bal.subFull =
      .ok newTl := by
    have hlt : s.totalLiability.toNat + input.addAmount.toNat - input.subAmount.toNat < 2 ^ 64 := by
      omega
    rw [hbal.addFull, hbal.subFull]
    exact ⟨UInt64.ofNat _, computeNewTl_eq_ok.mpr ⟨hroom, by omega, UInt64.toNat_ofNat_of_lt' hlt⟩⟩
  obtain ⟨s', hstep, hs', hleaves⟩ := hs.step_against hold (validateSlot_against_ok on hc htl)
  refine ⟨_, s', hstep, rfl, hs', hleaves, ?_⟩
  rw [computeNewTl_eq_ok] at htl
  rw [hstep.newTl]
  show newTl.toNat ≤ _
  rw [htl.2.2, hbal.addFull]
  exact Nat.sub_le _ _

/-- On a sound state with room for them, steps of the accounts are those of a run. -/
theorem exists_run (hs : s.Sound P)
    (h : Transition.Run (Pointwise SlotInput.account (AccountStep P G)) s.leaves rs g)
    (hroom : s.totalLiability.toNat + totalAdded rs < 2 ^ 64) :
    ∃ as s', Run P G s as s' ∧ as.map Slot.request = rs.map SlotInput.request ∧ s'.Sound P ∧
      s'.leaves = g ∧ s'.totalLiability.toNat ≤ s.totalLiability.toNat + totalAdded rs := by
  induction h with
  | nil => exact ⟨[], s, .nil, rfl, hs, rfl, Nat.le_add_right _ _⟩
  | @snoc rs r _ _ _ hstep ih =>
    rw [totalAdded_snoc] at hroom ⊢
    obtain ⟨as, t, hrun, hreq, ht, hleaves, hle⟩ := ih (by omega)
    rw [← hleaves] at hstep
    obtain ⟨a, s', hlast, hreqLast, hs', hupdate, hleLast⟩ :=
      hstep.own.exists_step ht (by omega)
    refine ⟨as ++ [a], s', hrun.snoc hlast, ?_, hs', ?_, by omega⟩
    · rw [List.map_append, List.map_append, hreq, List.map_singleton, hreqLast,
        List.map_singleton]
    · rw [hupdate]
      funext u
      by_cases hu : u = r.account
      · rw [hu, Function.update_self]
      · rw [Function.update_of_ne hu, hstep.frame u hu]

/-- From a sound state with room for what the slots add, the slots can be run, interleaved as they
are, exactly when each account can take its own slots in their order. -/
theorem ledger_is_product_of_accounts (hs : s.Sound P)
    (hroom : s.totalLiability.toNat + totalAdded rs < 2 ^ 64) :
    (∃ as s', Run P G s as s' ∧ as.map Slot.request = rs.map SlotInput.request ∧
      s'.leaves = g) ↔
    ∀ u, Transition.Run (AccountStep P G) (s.leaves u)
      (labelsOf SlotInput.account u (rs.map SlotInput.request)) (g u) := by
  rw [← run_pointwise_iff]
  constructor
  · rintro ⟨as, s', hrun, hreq, rfl⟩
    rw [← hreq]
    exact hrun.pointwise
  · intro h
    have hadded : totalAdded (rs.map SlotInput.request) = totalAdded rs := by
      rw [totalAdded, List.map_map]
      rfl
    rw [← hadded] at hroom
    obtain ⟨as, s', hrun, hreq, -, hleaves, -⟩ := exists_run hs h hroom
    rw [List.map_map] at hreq
    exact ⟨as, s', hrun, hreq, hleaves⟩

theorem emptyState_sound : emptyState.Sound sumHash := by
  constructor
  · rw [show emptyState.ledger = Ledger.zero from rfl, zero_root]
    decide +kernel
  · simp [emptyState, Ledger.totalBalance, Ledger.zero, Account.zero]

theorem slots_are_product : ∃ s, Run sumHash evenCore emptyState playerSlots s ∧
    ∀ u, Transition.Run (AccountStep sumHash evenCore) (emptyState.leaves u)
      (labelsOf SlotInput.account u (playerSlots.map Slot.request)) (s.leaves u) := by
  obtain ⟨s, hrun⟩ := player_run
  have hroom : emptyState.totalLiability.toNat + totalAdded (playerSlots.map Slot.input) <
      2 ^ 64 := by
    decide
  exact ⟨s, hrun, (ledger_is_product_of_accounts emptyState_sound hroom).mp
    ⟨playerSlots, s, hrun, rfl, rfl⟩⟩

theorem Run.conserves (h : Run P G s as s') (hs : s.totalLiability.toNat = s.ledger.totalBalance) :
    s'.totalLiability.toNat = s'.ledger.totalBalance :=
  h.invariant (P := fun s => s.totalLiability.toNat = s.ledger.totalBalance)
    (fun _ _ _ hs h => h.conserves hs) hs

/-! ### Interleavings -/

/-- Accepted slots with one request have the same effects apart from the root and the total
liability. -/
theorem sameState_of_request {a a' : Slot} (h : validateSlot P G a.input = .ok a.effects)
    (h' : validateSlot P G a'.input = .ok a'.effects) (hreq : a'.request = a.request) :
    a.effects.SameState a'.effects := by
  obtain ⟨c, newTl, hc, -, he⟩ := exists_localEffects h
  obtain ⟨c', newTl', hc', -, he'⟩ := exists_localEffects h'
  have hlocal : computeLocal P G a'.request = computeLocal P G a.request := by rw [hreq]
  obtain rfl : c' = c := Except.ok.inj (hc'.symm.trans (hlocal.trans hc))
  rw [he, he']
  exact effects_sameState ..

theorem State.totalBalance_congr (h : s.leaves = s'.leaves) :
    s.ledger.totalBalance = s'.ledger.totalBalance :=
  Finset.sum_congr rfl fun u _ => congrArg (fun l => l.balance.toNat) (congrFun h u)

theorem State.root_congr (h : s.leaves = s'.leaves) : s.ledger.root P = s'.ledger.root P :=
  Ledger.root_congr fun u => congrFun h u

/-- The slots of a run from a sound state, interleaved in any other way that keeps the order on each
account, are accepted as well when the total liability has room for everything that they add.  They
have the same effects apart from the intermediate roots and total liabilities, and they end in the
same leaves, the same total liability and the root of the same ledger. -/
theorem interleavings_confluent (hs : s.Sound P) (hrun : Run P G s as s')
    (hroom : s.totalLiability.toNat + totalAdded (as.map Slot.request) < 2 ^ 64)
    (hsame : ∀ u, labelsOf SlotInput.account u rs =
      labelsOf SlotInput.account u (as.map Slot.request)) :
    ∃ as' s'', Run P G s as' s'' ∧ as'.map Slot.request = rs ∧ s''.leaves = s'.leaves ∧
      s''.totalLiability = s'.totalLiability ∧ s''.root = s'.ledger.root P ∧
      ∀ a ∈ as, ∀ a' ∈ as', a'.request = a.request → a.effects.SameState a'.effects := by
  have hperm : rs.Perm (as.map Slot.request) := perm_of_labelsOf hsame
  have hadded : totalAdded rs = totalAdded (as.map Slot.request) := (hperm.map _).sum_eq
  have hrequests : rs.map SlotInput.request = rs := by
    refine (List.map_congr_left fun r hr => ?_).trans (List.map_id _)
    obtain ⟨a, -, rfl⟩ := List.mem_map.mp (hperm.subset hr)
    rfl
  have haccounts : Transition.Run (Pointwise SlotInput.account (AccountStep P G)) s.leaves rs
      s'.leaves := by
    rw [run_pointwise_iff]
    intro u
    rw [hsame]
    exact run_pointwise_iff.mp hrun.pointwise u
  obtain ⟨as', s'', hrun', hreq, hs'', hleaves, -⟩ := exists_run hs haccounts (hadded ▸ hroom)
  rw [hrequests] at hreq
  have htotal := hrun.conserves hs.total
  have haccepted : ∀ {as s'}, Run P G s as s' → ∀ a ∈ as,
      validateSlot P G a.input = .ok a.effects :=
    fun h => h.forall_label fun _ _ _ h => h.accepted
  refine ⟨as', s'', hrun', hreq, hleaves, ?_, hs''.root.trans (State.root_congr hleaves), ?_⟩
  · apply UInt64.toNat_inj.mp
    rw [hs''.total, htotal, State.totalBalance_congr hleaves]
  · intro a ha a' ha' hreq
    exact sameState_of_request (haccepted hrun a ha) (haccepted hrun' a' ha') hreq

/-- The run of two accounts, with the house's commitment put off until after the first deposit. -/
def lateCommitment : List SlotInput :=
  [playerRegistration.request, playerDeposit.request] ++
    houseCommit.request :: (playerSlots.drop 3).map Slot.request

theorem late_commitment_confluent : ∃ s as' s', Run sumHash evenCore emptyState playerSlots s ∧
    Run sumHash evenCore emptyState as' s' ∧ as'.map Slot.request = lateCommitment ∧
    s'.leaves = s.leaves ∧ s'.totalLiability = s.totalLiability := by
  obtain ⟨s, hrun⟩ := player_run
  have hsame : ∀ u, labelsOf SlotInput.account u lateCommitment =
      labelsOf SlotInput.account u (playerSlots.map Slot.request) := by
    intro u
    -- The commitment moves past the deposit and then past the registration.
    have hdeposit := Transition.labelsOf_swap (k := u) [playerRegistration.request]
      ((playerSlots.drop 3).map Slot.request)
      (show playerDeposit.request.account ≠ houseCommit.request.account by decide)
    have hregistration := Transition.labelsOf_swap (k := u) [] (playerDeposit.request ::
        (playerSlots.drop 3).map Slot.request)
      (show playerRegistration.request.account ≠ houseCommit.request.account by decide)
    exact hdeposit.trans hregistration
  obtain ⟨as', s', hrun', hreq, hleaves, htotal, -⟩ :=
    interleavings_confluent emptyState_sound hrun (by decide) hsame
  exact ⟨s, as', s', hrun, hrun', hreq, hleaves, htotal⟩

end TxValidator
