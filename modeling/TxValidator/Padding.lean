import TxValidator.Closure
import TxValidator.Liquidity

/-! Batches of a fixed size.  A `noop` leads back to its state, so it can be taken out of a run; and
on the root of a ledger every account has one, so that a run can be padded with them anywhere. -/

namespace TxValidator

open Transition (Fills)

variable {P : Poseidon2Hash} {G : GameCore} {s s' : State} {a : Slot} {as : List Slot} {u : UserId}

def Slot.isNoop (a : Slot) : Bool := a.input.txType == txNoop

/-- The slot is a `noop` of account `u`. -/
def Slot.idlesOn (u : UserId) (a : Slot) : Prop := a.account = u ∧ a.isNoop = true

/-- A `noop` that is checked against a state leads back to it. -/
theorem Step.idle (h : validateSlot P G a.input = .ok a.effects) (hnoop : a.isNoop = true)
    (hroot : a.input.currentRoot = s.root) (htl : a.input.currentTl = s.totalLiability)
    (hold : (s.ledger a.account).toLeaf = a.input.oldLeaf) : Step P G s a s := by
  have ht : a.input.txType = txNoop := beq_iff_eq.mp hnoop
  obtain ⟨on, spec⟩ := validateSlot_eq_ok.mp h
  have hrecipient : a.input.recipientAddrHash = zeroLimbs := by
    rw [spec.recipient, recipientAddrHashFor, ht]
    rfl
  have hidle := validateSlot_eq_ok.mpr ⟨on, noop_spec (G := G) on ht hrecipient spec.nonce.range⟩
  have heffects : a.effects = a.input.idleEffects := Except.ok.inj (h.symm.trans hidle)
  refine ⟨h, hroot, htl, hold, ?_, fun _ _ => rfl, ?_, ?_⟩
  · rw [hold, heffects]
    rfl
  · rw [heffects]
    exact hroot.symm
  · rw [heffects]
    exact htl.symm.trans on.tl.symm

theorem Step.eq_of_noop (h : Step P G s a s') (hnoop : a.isNoop = true) : s' = s :=
  h.right_unique (Step.idle h.accepted hnoop h.currentRoot h.currentTl h.oldLeaf)

/-- On the root of a ledger every account whose nonce is in range has a `noop`. -/
theorem exists_noop (hroot : s.root = s.ledger.root P)
    (hnonce : (s.ledger u).nonce.toNat < 2 ^ 63) : ∃ a, a.idlesOn u ∧ Step P G s a s := by
  let input := SlotInput.against P s.ledger s.totalLiability ((s.leaves u).witness u)
  have on : AlwaysOn P input := (witness_ownChecks (s.ledger u).storable).against (witness_leaf s u)
  have haccepted : validateSlot P G input = .ok input.idleEffects :=
    validateSlot_eq_ok.mpr ⟨on, noop_spec on rfl rfl hnonce⟩
  exact ⟨⟨input, input.idleEffects⟩, ⟨witness_account (s.leaves u) u, rfl⟩,
    Step.idle haccepted rfl hroot.symm rfl (witness_leaf s u)⟩

/-- `noop` slots are stutters.  A run without its `noop` slots is a run between the same states; and
from the root of a ledger with nonces in range, when no two hashed inputs collide, a run with `noop`
slots of any accounts put in at any places can be made a run between the same states. -/
theorem noops_are_stutters (hrun : Run P G s as s') :
    Run P G s (as.filter fun a => !a.isNoop) s' ∧
    (s.root = s.ledger.root P → (∀ u, (s.ledger u).nonce.toNat < 2 ^ 63) →
      CollisionFree P (hashedBy P s.ledger as) → ∀ plan : List (Slot ⊕ UserId),
        plan.filterMap Sum.getLeft? = as →
          ∃ bs, Run P G s bs s' ∧ List.Forall₂ (Fills Slot.idlesOn) plan bs) := by
  refine ⟨hrun.filter_idle fun _ _ _ h hnoop => h.eq_of_noop hnoop, ?_⟩
  rintro hroot hnonce hfree plan rfl
  refine Transition.Run.pad (fun as t u hprefix hrun => exists_noop ?_ ?_) hrun
  · exact (Run.root_eq hrun hroot (hfree.mono (hashedBy_mono hprefix.subset))).1
  · exact hrun.invariant (P := fun s => (s.ledger u).nonce.toNat < 2 ^ 63)
      (fun _ _ _ hs h => h.nonce_lt hs) (hnonce u)

/-- The run with a `noop` before it and one after it. -/
def paddedPlan : List (Slot ⊕ UserId) :=
  [.inr neighbourDeposit.account] ++ slots.map Sum.inl ++ [.inr registration.account]

theorem slots_padded : ∃ s bs, Run sumHash evenCore emptyState slots s ∧
    Run sumHash evenCore emptyState bs s ∧ bs.length = slots.length + 2 := by
  obtain ⟨s, hrun⟩ := slots_run
  have hnonce : ∀ u, (emptyState.ledger u).nonce.toNat < 2 ^ 63 := fun _ =>
    show (0 : UInt64).toNat < 2 ^ 63 by decide
  have hplan : paddedPlan.filterMap Sum.getLeft? = slots := rfl
  obtain ⟨bs, hpadded, hfills⟩ := (noops_are_stutters hrun).2 emptyState_sound.root
    hnonce slots_collision_free paddedPlan hplan
  refine ⟨s, bs, hrun, hpadded, hfills.length_eq.symm.trans ?_⟩
  rfl

end TxValidator
