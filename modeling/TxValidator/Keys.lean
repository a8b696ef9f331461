import TxValidator.Ledger

/-! Signed slots and registered keys.  The prerequisite of a signed slot tests all four limbs of the
old key hash, of which the leaf commits the first two: the test sees the committed key exactly when
it gives the same answer on those two. -/

namespace TxValidator

variable {P : Poseidon2Hash} {G : GameCore} {input : SlotInput} {e : SlotEffects} {s s' : State}
  {a : Slot} {as : List Slot}

/-- The emptiness test gives the same answer on a digest and on its committed limbs. -/
def emptinessCommitted (d : Digest) : Bool := allZero d.toList == allZero (committed d).toList

theorem committed_ne_zero {d : Digest} :
    committed d ≠ zeroLimbs ↔ allZero (committed d).toList = false := by
  rw [← Bool.not_eq_true, not_iff_not, allZero_committed, committed_eq_zero]

/-- The key limbs of an account with an allowance are not both zero. -/
def Leaf.AllowanceKeyed (l : Leaf) : Prop := l.allowance ≠ 0 → l.pk ≠ zeroLimbs

/-- The emptiness tests that a slot runs on key hashes see what the leaf commits. -/
def SlotInput.keysCommitted (input : SlotInput) : Prop :=
  (input.isSigned = true → emptinessCommitted input.oldPkHash = true) ∧
    (input.isKeySetter = true → emptinessCommitted input.newPkHash = true)

theorem EffectsSpec.signed_committed (spec : EffectsSpec P G input e) (hs : input.isSigned = true)
    (hc : emptinessCommitted input.oldPkHash = true) : committed input.oldPkHash ≠ zeroLimbs := by
  rw [committed_ne_zero, ← beq_iff_eq.mp hc]
  exact spec.key hs

/-- A slot whose tests see the committed limbs leaves no allowance on a zero key. -/
theorem EffectsSpec.allowanceKeyed (spec : EffectsSpec P G input e) (hc : input.keysCommitted)
    (hold : input.oldLeaf.AllowanceKeyed) : e.newLeaf.AllowanceKeyed := by
  intro hallow
  show committed e.newPkHash ≠ zeroLimbs
  rw [spec.newPkHash]
  split
  · rename_i hset
    rw [committed_ne_zero, ← beq_iff_eq.mp (hc.2 hset)]
    exact (isKeySetter_iff.mp hset).2
  · by_cases hset : input.txType = txSetProviderAllowance
    · have hs : input.isSigned = true := by
        rw [SlotInput.isSigned, hset]
        rfl
      exact spec.signed_committed hs (hc.1 hs)
    · -- Every other type only lowers the allowance, so the old leaf had one.
      refine hold fun hzero => hallow ?_
      by_cases hbet : input.txType = txBet
      · have hle : e.newProviderAllowance.toNat = 0 := by
          rw [(spec.allowance.bet hbet).2, show input.oldProviderAllowance = 0 from hzero]
          exact Nat.zero_sub _
        exact UInt64.toNat_inj.mp hle
      · exact (spec.allowance.keep hset hbet).trans hzero

theorem Step.allowanceKeyed (h : Step P G s a s') (hc : a.input.keysCommitted)
    (hs : ∀ u, (s.ledger u).AllowanceKeyed) (u : UserId) : (s'.ledger u).AllowanceKeyed :=
  h.keeps (h.spec.allowanceKeyed hc) (hs u)

/-- An accepted signed slot has a committed key exactly when its emptiness test sees the committed
limbs; in a run where every such test does, no account without a key ever holds an allowance. -/
theorem signed_slot_committed_key_iff :
    (∀ input e, validateSlot P G input = .ok e → input.isSigned = true →
      (committed input.oldPkHash ≠ zeroLimbs ↔ emptinessCommitted input.oldPkHash = true)) ∧
    ∀ s as s', Run P G s as s' → (∀ u, (s.ledger u).AllowanceKeyed) →
      (∀ a ∈ as, a.input.keysCommitted) → ∀ u, (s'.ledger u).AllowanceKeyed := by
  constructor
  · intro input e h hs
    have hfour := (validateSlot_eq_ok.mp h).2.key hs
    rw [emptinessCommitted, hfour, beq_iff_eq, committed_ne_zero]
    exact eq_comm
  · intro s as s' hrun hs hgood
    exact Transition.Run.invariant (P := fun s => ∀ u, (s.ledger u).AllowanceKeyed)
      (fun _ _ _ hs h => h.2.allowanceKeyed h.1 hs) (hrun.restrict hgood) hs

theorem signed_slot_committed_key_slots : ∃ s, Run sumHash evenCore emptyState slots s ∧
    ∀ u, (s.ledger u).AllowanceKeyed := by
  obtain ⟨s, hrun⟩ := slots_run
  have hgood : ∀ a ∈ slots, a.input.keysCommitted := by
    unfold SlotInput.keysCommitted
    decide
  exact ⟨s, hrun, signed_slot_committed_key_iff.2 _ _ _ hrun (fun _ h => absurd rfl h) hgood⟩

/-- A grant on an account of the empty ledger, with a key only where the leaf does not look. -/
def unkeyedGrant : SlotInput := SlotInput.commit sumHash {
  txType := txSetProviderAllowance
  userId := 5
  amount := 10
  mainSiblings := zeroSiblings sumHash
  oldPkHash := #v[0, 0, 1, 0] }

theorem unkeyed_grant_accepted :
    ¬∀ input e, validateSlot sumHash evenCore input = .ok e → input.isSigned = true →
      committed input.oldPkHash ≠ zeroLimbs := by
  intro hclaim
  obtain ⟨e, he⟩ : ∃ e, validateSlot sumHash evenCore unkeyedGrant = .ok e :=
    Checked.exists_of_isOk (by decide +kernel)
  exact hclaim unkeyedGrant e he (by decide) (committed_eq_zero.mpr ⟨rfl, rfl⟩)

end TxValidator
