import TxValidator.Conservation
import TxValidator.Credit
import TxValidator.Shared

/-! Overflow rejections.  Four checked operations report `tlOverflow`; on a ledger whose balances
sum to the total liability and cover the credits, the addition to the total liability dominates
the others. -/

namespace TxValidator

open Checked

variable {P : Poseidon2Hash} {G : GameCore} {input : SlotInput} {flags : TxFlags} {c : LocalEffects}

/-! ### Functions that report no overflow -/

theorem computeNewAllowance_avoids : Avoids .tlOverflow (computeNewAllowance input flags) := by
  unfold computeNewAllowance
  dsimp only
  split
  · exact avoids_error (by decide)
  split
  · split
    · exact avoids_error (by decide)
    · exact avoids_ok
  split
  · exact avoids_okOr (by decide)
  · exact avoids_ok

theorem buildAddress_avoids : Avoids .tlOverflow (buildAddress P input flags) := by
  refine Avoids.bind ?_ fun _ => avoids_ok
  split
  · exact avoids_ok
  split
  · dsimp only
    split
    · exact avoids_error (by decide)
    · exact avoids_ok
  · exact avoids_ok

theorem checkAuth_avoids : Avoids .tlOverflow (checkAuth input flags) :=
  (avoids_failIf (by decide)).bind fun _ => avoids_ok

theorem computeNewNonce_avoids {oldNonce : UInt64} {g a : Bool} :
    Avoids .tlOverflow (computeNewNonce oldNonce g a) :=
  (avoids_failIf (by decide)).bind fun _ => (avoids_failIf (by decide)).bind fun _ =>
    (avoids_failIf (by decide)).bind fun _ => avoids_ok

theorem sortedKenoPicks_avoids : Avoids .tlOverflow (sortedKenoPicks G input) := by
  unfold sortedKenoPicks
  dsimp only
  split
  · exact avoids_error (by decide)
  · exact avoids_ok

theorem verifyPredictionHash_avoids :
    Avoids .tlOverflow (verifyPredictionHash P G input flags) := by
  refine Avoids.bind ?_ fun _ => avoids_failIf (by decide)
  split
  · exact sortedKenoPicks_avoids.bind fun _ => avoids_ok
  · exact avoids_ok

theorem dispatchPayout_avoids {random : Vector UInt64 4} :
    Avoids .tlOverflow (dispatchPayout P G input random) := by
  unfold dispatchPayout
  dsimp only
  split
  · exact avoids_ok
  split
  · exact avoids_ok
  split
  · exact (avoids_okOr (by decide)).bind fun _ => avoids_ok
  split
  · exact sortedKenoPicks_avoids.bind fun _ => avoids_ok
  split
  · exact (avoids_failIf (by decide)).bind fun _ => avoids_ok
  split
  · exact (avoids_failIf (by decide)).bind fun _ => avoids_ok
  split
  · exact (avoids_okOr (by decide)).bind fun _ =>
      (avoids_failIf (by decide)).bind fun _ => avoids_ok
  · exact avoids_error (by decide)

theorem checkFairness_avoids : Avoids .tlOverflow (checkFairness P G input flags) :=
  (avoids_failIf (by decide)).bind fun _ => (avoids_failIf (by decide)).bind fun _ =>
    (avoids_failIf (by decide)).bind fun _ => verifyPredictionHash_avoids.bind fun _ =>
      (dispatchPayout_avoids.bind fun _ => avoids_failIf (by decide)).bind fun _ => avoids_ok

/-! ### The operations that do -/

theorem buildBalanceChanges_tlOverflow
    (h : buildBalanceChanges input input.flags = .error .tlOverflow) :
    2 ^ 64 ≤ input.oldBalance.toNat + input.addAmount.toNat ∨
      2 ^ 64 ≤ input.oldDepositCredit.toNat + input.creditAdd.toNat := by
  simp only [buildBalanceChanges, totalAdd_eq, userSub_eq, creditAdd_eq, bind_eq_error,
    okOr_eq_error, okOr_eq_ok, add_eq_none, reduceCtorEq, and_false, false_or, Option.some.injEq,
    exists_eq_left', and_true] at h
  rcases h with hbal | ⟨_, -, _, -, hcredit | ⟨_, -, h⟩⟩
  · exact Or.inl hbal
  · exact Or.inr hcredit
  · cases h

/-- The effects up to the seed advance overflow in the balance or the credit only. -/
theorem computeLocal_tlOverflow (h : computeLocal P G input = .error .tlOverflow) :
    buildBalanceChanges input input.flags = .error .tlOverflow := by
  rcases bind_eq_error.mp h with h | ⟨_, -, h⟩
  · exact absurd h (avoids_failIf (by decide))
  rcases bind_eq_error.mp h with h | ⟨_, -, h⟩
  · exact absurd h (avoids_failIf (by decide))
  rcases bind_eq_error.mp h with h | ⟨_, -, h⟩
  · exact h
  refine absurd h (computeNewAllowance_avoids.bind fun _ => (avoids_failIf (by decide)).bind
    fun _ => buildAddress_avoids.bind fun _ => (avoids_failIf (by decide)).bind fun _ =>
    checkAuth_avoids.bind fun _ => computeNewNonce_avoids.bind fun _ => Avoids.bind ?_ fun _ =>
    (avoids_failIf (by decide)).bind fun _ => avoids_ok)
  split
  · exact checkFairness_avoids.map
  · exact avoids_ok

theorem computeLocal_balance (h : computeLocal P G input = .ok c) : BalanceSpec input c.bal := by
  simp only [computeLocal, bind_eq_ok] at h
  obtain ⟨_, _, _, _, bal, hbal, _, _, _, _, _, _, _, _, _, _, _, _, _, _, _, _, h⟩ := h
  cases h
  exact buildBalanceChanges_eq_ok.mp hbal

theorem computeNewTl_eq_error {oldTl addFull subFull : UInt64} {r : SlotRejection}
    (h : computeNewTl oldTl addFull subFull = .error r) :
    2 ^ 64 ≤ oldTl.toNat + addFull.toNat ∨ oldTl.toNat + addFull.toNat < subFull.toNat := by
  by_contra hfits
  obtain ⟨hadd, hsub⟩ := not_or.mp hfits
  have hlt : oldTl.toNat + addFull.toNat - subFull.toNat < 2 ^ 64 := by omega
  rw [computeNewTl_eq_ok.mpr ⟨by omega, by omega, UInt64.toNat_ofNat_of_lt' hlt⟩] at h
  cases h

theorem validateSlot_tlOverflow (htl : input.oldTotalLiability = input.currentTl)
    (h : validateSlot P G input = .error .tlOverflow) :
    computeEffects P G input = .error .tlOverflow := by
  have hif : ∀ (c : Prop) [Decidable c] (r : SlotRejection), r ≠ .tlOverflow →
      Avoids .tlOverflow (if c then Except.ok () else .error r) := fun c _ r hr => by
    split
    · exact avoids_ok
    · exact avoids_error hr
  rcases bind_eq_error.mp h with h | ⟨_, -, h⟩
  · exact absurd h (avoids_failIf (by decide))
  rcases bind_eq_error.mp h with h | ⟨_, -, h⟩
  · exact absurd h (hif _ _ (by decide))
  rcases bind_eq_error.mp h with h | ⟨_, -, h⟩
  · exact absurd h (hif _ _ (by decide))
  rcases bind_eq_error.mp h with h | ⟨_, -, h⟩
  · exact absurd h (avoids_failIf (by decide))
  rcases bind_eq_error.mp h with h | ⟨_, -, h⟩
  · exact absurd h (hif _ _ (by decide))
  rcases bind_eq_error.mp h with h | ⟨_, -, h⟩
  · exact absurd h (hif _ _ (by decide))
  rw [htl, bne_self_eq_false] at h
  exact h

/-- What an overflow rejection of the effect layer means: one of the four checked operations
failed, the subtraction only after the balance covered the debit. -/
theorem computeEffects_tlOverflow (h : computeEffects P G input = .error .tlOverflow) :
    2 ^ 64 ≤ input.oldBalance.toNat + input.addAmount.toNat ∨
      2 ^ 64 ≤ input.oldDepositCredit.toNat + input.creditAdd.toNat ∨
      2 ^ 64 ≤ input.oldTotalLiability.toNat + input.addAmount.toNat ∨
      input.subAmount.toNat ≤ input.oldBalance.toNat + input.addAmount.toNat ∧
        input.oldTotalLiability.toNat + input.addAmount.toNat < input.subAmount.toNat := by
  rw [computeEffects_eq_local] at h
  rcases bind_eq_error.mp h with h | ⟨c, hc, h⟩
  · rcases buildBalanceChanges_tlOverflow (computeLocal_tlOverflow h) with hbal | hcredit
    · exact Or.inl hbal
    · exact Or.inr (Or.inl hcredit)
  · have hbal := computeLocal_balance hc
    obtain ⟨r, hr⟩ : ∃ r, computeNewTl input.oldTotalLiability input.addAmount
        input.subAmount = .error r := by
      rw [← hbal.addFull, ← hbal.subFull]
      exact error_of_map_eq_error h
    rcases computeNewTl_eq_error hr with hadd | hsub
    · exact Or.inr (Or.inr (Or.inl hadd))
    · exact Or.inr (Or.inr (Or.inr ⟨hbal.covered, hsub⟩))

theorem Ledger.balance_le (L : Ledger) (u : UserId) : (L u).balance.toNat ≤ L.totalBalance :=
  Nat.le.intro (Finset.add_sum_erase Finset.univ (fun u => (L u).balance.toNat)
    (Finset.mem_univ u))

/-- On a ledger whose balances sum to the total liability and cover the credits, a slot is rejected
with `tlOverflow` only when the addition to the total liability overflows, and then it is never
accepted; the other three checked operations fail only when that one does. -/
theorem tl_overflow_on_sound_ledger {L : Ledger} {tl : UInt64}
    (hsum : tl.toNat = ∑ u, (L u).balance.toNat) (hcovered : ∀ u, (L u).Covered)
    (hleaf : (L input.account).toLeaf = input.oldLeaf) (hold : input.oldTotalLiability = tl)
    (hcurrent : input.currentTl = tl) :
    (validateSlot P G input = .error .tlOverflow →
      2 ^ 64 ≤ tl.toNat + input.addAmount.toNat) ∧
    (2 ^ 64 ≤ tl.toNat + input.addAmount.toNat → ∀ e, validateSlot P G input ≠ .ok e) ∧
    (input.subAmount.toNat ≤ input.oldBalance.toNat + input.addAmount.toNat →
      input.subAmount.toNat ≤ tl.toNat + input.addAmount.toNat) ∧
    (2 ^ 64 ≤ input.oldBalance.toNat + input.addAmount.toNat →
      2 ^ 64 ≤ tl.toNat + input.addAmount.toNat) ∧
    (2 ^ 64 ≤ input.oldDepositCredit.toNat + input.creditAdd.toNat →
      2 ^ 64 ≤ tl.toNat + input.addAmount.toNat) := by
  have hbalance : input.oldBalance.toNat ≤ tl.toNat := by
    have hle := L.balance_le input.account
    rwa [show (L input.account).balance = input.oldBalance from congrArg Leaf.balance hleaf,
      Ledger.totalBalance, ← hsum] at hle
  have hcredit : input.oldDepositCredit.toNat ≤ input.oldBalance.toNat := by
    have hcov := hcovered input.account
    rw [hleaf] at hcov
    exact hcov
  have hadd := input.creditAdd_le
  refine ⟨fun h => ?_, fun hover e h => ?_, by omega, by omega, by omega⟩
  · have hcases := computeEffects_tlOverflow
      (validateSlot_tlOverflow (hold.trans hcurrent.symm) h)
    rw [hold] at hcases
    omega
  · have hfits := (validateSlot_eq_ok.mp h).2.tlFits
    rw [hold] at hfits
    omega

/-- The registered account, with a balance that some canonical amount overflows. -/
def fundedEffects : SlotEffects :=
  { registrationEffects with
    newBalance := 8589934592
    newCredit := 4294967296
    newTotalLiability := 8589934592 }

def fundedAccount : Account where
  toLeaf := fundedEffects.newLeaf
  storable := ⟨by decide, by decide, by decide, by decide, by decide⟩

def fundedLedger : Ledger := Function.update Ledger.zero registration.account fundedAccount

def fundedWithdrawal : SlotInput := SlotInput.commit sumHash {
  fundedEffects.playerSlot (zeroSiblings sumHash) with
  txType := txWithdrawal
  amount := fundedEffects.newBalance
  recipientAddrHash := committed registrationEffects.newAddressHash }

def fundedDeposit : SlotInput := SlotInput.commit sumHash {
  fundedEffects.playerSlot (zeroSiblings sumHash) with
  txType := txDeposit
  amount := goldilocksP - 1 }

theorem fundedLedger_account : fundedLedger registration.account = fundedAccount := by
  rw [fundedLedger, Function.update_self]

theorem fundedLedger_frame {u : UserId} (hu : u ≠ registration.account) :
    fundedLedger u = Account.zero := by
  rw [fundedLedger, Function.update_of_ne hu]
  rfl

theorem fundedLedger_total :
    fundedEffects.newTotalLiability.toNat = ∑ u, (fundedLedger u).balance.toNat := by
  rw [Finset.sum_eq_single registration.account]
  · rw [fundedLedger_account]
    rfl
  · intro u _ hu
    rw [fundedLedger_frame hu]
    rfl
  · intro h
    exact absurd (Finset.mem_univ _) h

theorem fundedLedger_covered (u : UserId) : (fundedLedger u).Covered := by
  by_cases hu : u = registration.account
  · rw [hu, fundedLedger_account]
    unfold Leaf.Covered
    decide
  · rw [fundedLedger_frame hu]
    exact Nat.le_refl 0

theorem funded_slots_overflow :
    validateSlot sumHash evenCore fundedWithdrawal ≠ .error .tlOverflow ∧
    fundedWithdrawal.subAmount.toNat ≤ fundedEffects.newTotalLiability.toNat +
      fundedWithdrawal.addAmount.toNat ∧
    validateSlot sumHash evenCore fundedDeposit = .error .tlOverflow ∧
    ∀ e, validateSlot sumHash evenCore fundedDeposit ≠ .ok e := by
  have hleaf : (fundedLedger registration.account).toLeaf = fundedEffects.newLeaf :=
    congrArg Account.toLeaf fundedLedger_account
  have hwithdrawal : (fundedLedger fundedWithdrawal.account).toLeaf = fundedWithdrawal.oldLeaf := by
    rw [show fundedWithdrawal.account = registration.account by decide, hleaf]
    decide
  have hdeposit : (fundedLedger fundedDeposit.account).toLeaf = fundedDeposit.oldLeaf := by
    rw [show fundedDeposit.account = registration.account by decide, hleaf]
    decide
  obtain ⟨hdebit, -, hcovers, -, -⟩ := tl_overflow_on_sound_ledger (P := sumHash) (G := evenCore)
    fundedLedger_total fundedLedger_covered hwithdrawal rfl rfl
  obtain ⟨-, hrejects, -, -, -⟩ := tl_overflow_on_sound_ledger (P := sumHash) (G := evenCore)
    fundedLedger_total fundedLedger_covered hdeposit rfl rfl
  exact ⟨fun h => absurd (hdebit h) (by decide), hcovers (by decide),
    by decide +kernel, hrejects (by decide +kernel)⟩

end TxValidator
