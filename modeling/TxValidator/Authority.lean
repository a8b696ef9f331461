import TxValidator.Address
import TxValidator.Allowance
import TxValidator.Commitments
import TxValidator.Nonce

/-! What an owner's signature is tied to along a run: the next value of its lane, the key that the
latest registration installed, and, on a withdrawal, the address that is paid. -/

namespace TxValidator

open Transition (latest latest_eq_none latest_eq_some)

variable {P : Poseidon2Hash} {G : GameCore} {input : SlotInput} {e : SlotEffects} {s s' s'' : State}
  {a b : Slot} {as : List Slot} {u : UserId}

/-! ### Lanes -/

theorem Step.lane_le (h : Step P G s a s') {lane : Lane}
    (hs : lane.value (s.ledger u).nonce ≤ lane.ceiling) :
    lane.value (s'.ledger u).nonce ≤ lane.ceiling := by
  rw [h.lane_value u lane]
  split
  · rename_i hmark
    obtain ⟨hu, hbump⟩ := Slot.bumps_iff.mp hmark
    have hlt := h.spec.lane_lt hbump
    rw [← (h.nonce_eq hu).1] at hlt
    exact hlt
  · exact hs

theorem Run.lane_room (hrun : Run P G s as s') {lane : Lane}
    (hs : lane.value (s.ledger u).nonce ≤ lane.ceiling) :
    lane.value (s.ledger u).nonce + as.countP (Slot.bumps u lane) ≤ lane.ceiling := by
  rw [← hrun.lane_value u lane]
  exact hrun.invariant (P := fun s => lane.value (s.ledger u).nonce ≤ lane.ceiling)
    (fun _ _ _ hs h => h.lane_le hs) hs

/-- No slot bumps a lane that starts at its ceiling. -/
theorem Run.lane_full (hrun : Run P G s as s') {lane : Lane}
    (hs : lane.value (s.ledger u).nonce = lane.ceiling) :
    ∀ a ∈ as, a.account = u → a.input.bumps lane = false := by
  have hroom := hrun.lane_room hs.le
  have hcount : as.countP (Slot.bumps u lane) = 0 := by omega
  intro a ha hu
  by_contra hbump
  exact List.countP_eq_zero.mp hcount a ha
    (Slot.bumps_iff.mpr ⟨hu, Bool.eq_true_of_not_eq_false hbump⟩)

/-- The slots of a run that bump one lane of one account see its values one after the other, with no
gap, from the value before the run, and are at most as many as the ceiling leaves room for. -/
theorem lane_values_consecutive (hrun : Run P G s as s') (u : UserId) (lane : Lane) :
    ((as.filter (Slot.bumps u lane)).map fun a => lane.value a.input.oldNonce) =
        List.range' (lane.value (s.ledger u).nonce) (as.countP (Slot.bumps u lane)) ∧
      (lane.value (s.ledger u).nonce ≤ lane.ceiling →
        as.countP (Slot.bumps u lane) ≤ lane.ceiling - lane.value (s.ledger u).nonce) := by
  constructor
  · refine hrun.range'_of_step (fun s => lane.value (s.ledger u).nonce)
      (fun a => lane.value a.input.oldNonce) (fun _ _ _ h => h.lane_value u lane) ?_
    intro s a s' h hmark
    rw [(h.nonce_eq (Slot.bumps_iff.mp hmark).1).1]
  · intro hs
    have hroom := hrun.lane_room hs
    omega

theorem slots_lane_values : ∃ s, Run sumHash evenCore emptyState slots s ∧
    ((slots.filter (Slot.bumps 5 .game)).map fun a => Lane.game.value a.input.oldNonce) =
      [0, 1] := by
  obtain ⟨s, hrun⟩ := slots_run
  exact ⟨s, hrun, (lane_values_consecutive hrun 5 .game).1.trans (by decide)⟩

/-! ### Keys -/

/-- The slot installs a key on account `u`. -/
def Slot.setsKey (u : UserId) (a : Slot) : Bool := a.account == u && a.input.isKeySetter

theorem Step.key (h : Step P G s a s') (u : UserId) : (s'.ledger u).pk =
    if a.setsKey u then committed a.input.newPkHash else (s.ledger u).pk := by
  by_cases hu : a.account = u
  · obtain ⟨hold, hnew⟩ := h.part_eq hu Leaf.pk
    rw [hold, hnew, Slot.setsKey, hu, beq_self_eq_true, Bool.true_and]
    show committed a.effects.newPkHash = _
    rw [h.spec.newPkHash]
    split <;> rfl
  · rw [h.frame u (Ne.symm hu), Slot.setsKey, beq_false_of_ne hu]
    rfl

theorem Run.key (h : Run P G s as s') (u : UserId) : (s'.ledger u).pk =
    ((latest (Slot.setsKey u) as).map fun b => committed b.input.newPkHash).getD (s.ledger u).pk :=
  h.latest_of_step (fun s : State => (s.ledger u).pk) (fun b : Slot => committed b.input.newPkHash)
    fun _ _ _ h => h.key u

/-- A lane at its ceiling stays there, and freezes what its slots decide: at the account lane's
ceiling an account takes no withdrawal, no transfer and no key, and at the game lane's no bet, no
settlement and no grant, so that its allowance only pays for bets. -/
theorem full_lanes_freeze (hrun : Run P G s as s') :
    (Lane.account.value (s.ledger u).nonce = Lane.account.ceiling →
      (s'.ledger u).pk = (s.ledger u).pk ∧ ∀ a ∈ as, a.account = u →
        a.input.txType ≠ txWithdrawal ∧ a.input.txType ≠ txTransfer ∧
          a.input.isKeySetter = false) ∧
    (Lane.game.value (s.ledger u).nonce = Lane.game.ceiling →
      (s'.ledger u).allowance.toNat + spent u as = (s.ledger u).allowance.toNat ∧
        ∀ a ∈ as, a.account = u → a.input.isGame = false ∧
          a.input.txType ≠ txSetProviderAllowance) := by
  constructor
  · intro hfull
    have hfree := hrun.lane_full hfull
    simp only [SlotInput.bumps, SlotInput.bumpsAccountLane, List.mem_cons, List.not_mem_nil,
      or_false, Bool.or_eq_false_iff, decide_eq_false_iff_not, not_or] at hfree
    refine ⟨?_, fun a ha hu => ?_⟩
    · have hnone : latest (Slot.setsKey u) as = none := by
        refine latest_eq_none.mpr fun a ha => ?_
        by_contra hset
        rw [Bool.not_eq_false, Slot.setsKey, Bool.and_eq_true, beq_iff_eq] at hset
        rw [(hfree a ha hset.1).2] at hset
        exact Bool.false_ne_true hset.2
      rw [hrun.key u, hnone]
      rfl
    · obtain ⟨⟨hwithdrawal, htransfer⟩, hkey⟩ := hfree a ha hu
      exact ⟨hwithdrawal, htransfer, hkey⟩
  · intro hfull
    have hfree := hrun.lane_full hfull
    simp only [SlotInput.bumps, SlotInput.bumpsGameLane, List.mem_cons, List.not_mem_nil, or_false,
      decide_eq_false_iff_not, not_or] at hfree
    refine ⟨?_, fun a ha hu => ?_⟩
    · have hnone : latest (Slot.grants u) as = none := by
        refine latest_eq_none.mpr fun a ha => ?_
        by_contra hgrant
        obtain ⟨hu, ht⟩ := Slot.grants_iff.mp (Bool.eq_true_of_not_eq_false hgrant)
        exact (hfree a ha hu).2.2 ht
      rw [hrun.allowance u, granted, hnone]
      rfl
    · obtain ⟨hbet, hcrash, hgrant⟩ := hfree a ha hu
      refine ⟨Bool.eq_false_of_not_eq_true fun hgame => ?_, hgrant⟩
      exact (isGame_iff.mp hgame).elim hbet hcrash

/-- The registered account, with an allowance and both lanes at their ceilings. -/
def fullEffects : SlotEffects :=
  { registrationEffects with
    newBalance := 20
    newNonce := accountLaneMax * accountLaneUnit + gameLaneMax
    newGameNonce := gameLaneMax
    newAccountNonce := accountLaneMax
    newProviderAllowance := 10
    newTotalLiability := 20 }

def fullAccount : Account where
  toLeaf := fullEffects.newLeaf
  storable := ⟨by decide, by decide, by decide, by decide, by decide⟩

def fullWin : SlotInput := SlotInput.commit sumHash {
  fullEffects.playerSlot (zeroSiblings sumHash) with
  txType := txWin
  amount := 3 }

def fullWinEffects : SlotEffects :=
  { fullEffects with
    newBalance := 23
    newRoot := #v[9223372080609755198, 0, 0, 0]
    newTotalLiability := 23 }

def fullProviderBet : SlotInput :=
  { fullWinEffects.playerSlot (zeroSiblings sumHash) with
    txType := txBet
    amount := 4 }

def fullState : State where
  ledger := Function.update Ledger.zero fullWin.account fullAccount
  root := fullWin.currentRoot
  totalLiability := fullEffects.newTotalLiability

theorem fullState_account : fullState.ledger fullWin.account = fullAccount := by
  show Function.update Ledger.zero fullWin.account fullAccount fullWin.account = fullAccount
  rw [Function.update_self]

theorem full_account_keeps_key : ∃ e s', Run sumHash evenCore fullState
    [⟨fullWin, fullWinEffects⟩, ⟨fullProviderBet, e⟩] s' ∧
    (s'.ledger fullWin.account).pk = committed registration.newPkHash ∧
    (s'.ledger fullWin.account).allowance.toNat + 4 = 10 := by
  have hwin : validateSlot sumHash evenCore fullWin = .ok fullWinEffects := by decide +kernel
  obtain ⟨e, he⟩ : ∃ e, validateSlot sumHash evenCore fullProviderBet = .ok e :=
    Checked.exists_of_isOk (by decide +kernel)
  have hleaf : (fullState.ledger fullWin.account).toLeaf = fullWin.oldLeaf := by
    rw [fullState_account]
    decide
  have h1 := Step.of_accepted (s := fullState) (a := ⟨fullWin, fullWinEffects⟩) hwin rfl
    (by decide) hleaf
  have h2 := h1.next (b := ⟨fullProviderBet, e⟩) he
    ⟨rfl, rfl, rfl, rfl⟩
  have hrun : Run sumHash evenCore fullState
      [⟨fullWin, fullWinEffects⟩, ⟨fullProviderBet, e⟩] _ := .snoc (.snoc .nil h1) h2
  have hfull : ∀ lane : Lane,
      lane.value (fullState.ledger fullWin.account).nonce = lane.ceiling := by
    intro lane
    rw [fullState_account]
    cases lane <;> decide
  obtain ⟨haccount, hgame⟩ := full_lanes_freeze (u := fullWin.account) hrun
  have hkey := (haccount (hfull .account)).1
  have hallowance := (hgame (hfull .game)).1
  rw [fullState_account] at hkey hallowance
  refine ⟨e, _, hrun, hkey.trans (by decide), ?_⟩
  have hspent : spent fullWin.account
      [⟨fullWin, fullWinEffects⟩, ⟨fullProviderBet, e⟩] = 4 := rfl
  rwa [hspent] at hallowance

/-- As `Collision`, for the two limbs that a leaf keeps of the output. -/
structure LimbCollision (P : Poseidon2Hash) (x y : List UInt64) : Prop where
  ne : x.map fromCanonicalU64 ≠ y.map fromCanonicalU64
  eq : committed (poseidon2 P x) = committed (poseidon2 P y)

theorem eq_or_limbCollision {x y : List UInt64} (hx : allCanonical x = true)
    (hy : allCanonical y = true) (h : committed (poseidon2 P x) = committed (poseidon2 P y)) :
    x = y ∨ LimbCollision P x y := by
  by_cases hxy : x.map fromCanonicalU64 = y.map fromCanonicalU64
  · exact Or.inl (map_fromCanonicalU64_injOn hx hy hxy)
  · exact Or.inr ⟨hxy, h⟩

/-- From the empty ledger a signed slot whose prerequisite sees the committed limbs comes after a
registration on its account, and carries the key of the latest one; when both key hashes are those
of Schnorr keys, the keys are one, or collide in the limbs that the leaf keeps. -/
theorem signed_under_registered_key (hrun : Run P G s as s') (hs : s.ledger = Ledger.zero)
    (h : Step P G s' a s'') (hsigned : a.input.isSigned = true)
    (hcommitted : emptinessCommitted a.input.oldPkHash = true) :
    ∃ b ∈ as, latest (Slot.setsKey a.account) as = some b ∧
      committed a.input.oldPkHash = committed b.input.newPkHash ∧
      ∀ encA encB : Vector UInt64 5, allCanonical encA.toList = true →
        allCanonical encB.toList = true → a.input.oldPkHash = schnorrPkHash P encA →
        b.input.newPkHash = schnorrPkHash P encB →
        encA = encB ∨ LimbCollision P encA.toList encB.toList := by
  have hkey := h.spec.signed_committed hsigned hcommitted
  have hpk : committed a.input.oldPkHash = (s'.ledger a.account).pk :=
    (h.part_eq rfl Leaf.pk).1.symm
  rw [hrun.key a.account, hs] at hpk
  cases hlatest : latest (Slot.setsKey a.account) as with
  | none =>
    rw [hlatest] at hpk
    exact absurd hpk hkey
  | some b =>
    rw [hlatest] at hpk
    change committed a.input.oldPkHash = committed b.input.newPkHash at hpk
    refine ⟨b, (latest_eq_some hlatest).1, rfl, hpk, fun encA encB hA hB hoff hreg => ?_⟩
    rw [hoff, hreg] at hpk
    exact (eq_or_limbCollision hA hB hpk).imp_left Vector.toList_inj.mp

theorem grant_under_registered_key : ∃ s s', Step sumHash evenCore s ⟨grant, grantEffects⟩ s' ∧
    ∃ b ∈ [(⟨registration, registrationEffects⟩ : Slot), ⟨houseBet, houseBetEffects⟩],
      committed grant.oldPkHash = committed b.input.newPkHash := by
  obtain ⟨t, hrun⟩ := slots_run
  have hsplit : Run sumHash evenCore emptyState
      ([⟨registration, registrationEffects⟩, ⟨houseBet, houseBetEffects⟩] ++
        ⟨grant, grantEffects⟩ :: [⟨providerBet, providerBetEffects⟩]) t := hrun
  obtain ⟨s, s', hpast, hstep, -⟩ := Transition.Run.middle_iff.mp hsplit
  obtain ⟨b, hb, -, hkey, -⟩ :=
    signed_under_registered_key hpast rfl hstep (by decide) (by decide)
  exact ⟨s, s', hstep, b, hb, hkey⟩

/-! ### Recipients -/

theorem addressPreimage_canonical (userAddress : Vector UInt8 20) :
    allCanonical (userAddress.toList.map UInt8.toUInt64) = true := by
  rw [allCanonical_iff]
  intro v hv
  obtain ⟨byte, -, rfl⟩ := List.mem_map.mp hv
  exact toUInt64_canonical_u8 byte

/-- Addresses with one truncated hash are one address, or collide. -/
theorem eq_or_addressCollision {x y : Vector UInt8 20}
    (h : committed (addressHash P x) = committed (addressHash P y)) :
    x = y ∨ LimbCollision P (x.toList.map UInt8.toUInt64) (y.toList.map UInt8.toUInt64) := by
  have hx := addressPreimage_canonical x
  have hy := addressPreimage_canonical y
  refine (eq_or_limbCollision hx hy h).imp_left fun hxy => Vector.toList_inj.mp ?_
  exact List.map_injective_iff.mpr (fun _ _ h => UInt8.toUInt64_inj.mp h) hxy

theorem recipient_of_withdrawal (h : validateSlot P G input = .ok e)
    (ht : input.txType = txWithdrawal) :
    input.recipientAddrHash = committed (addressHash P input.userAddress) := by
  rw [(validateSlot_eq_ok.mp h).2.recipient, recipientAddrHashFor, ht, beq_self_eq_true]
  rfl

/-- A withdrawal that is signed for the address of its own account pays the address that the account
was deposited from, whatever happened between the two, or the addresses collide in the limbs that
the leaf keeps.  The leaf knows the address of the deposit when one of those limbs is not zero. -/
theorem own_withdrawal_pays_depositor {d w : Slot} {t t' t'' : State}
    (hdeposit : Step P G s d t) (hd : d.input.txType = txDeposit)
    (hset : committed (addressHash P d.input.userAddress) ≠ zeroLimbs) (hrun : Run P G t as t')
    (h : Step P G t' w t'') (hw : w.input.txType = txWithdrawal) (hu : w.account = d.account)
    (hown : w.input.recipientAddrHash = (t'.ledger w.account).address) :
    w.input.userAddress = d.input.userAddress ∨
      LimbCollision P (w.input.userAddress.toList.map UInt8.toUInt64)
        (d.input.userAddress.toList.map UInt8.toUInt64) := by
  have hstamped := hdeposit.address_of_deposit rfl hd
  have hkept : (t'.ledger d.account).address = (t.ledger d.account).address := by
    refine hrun.invariant
      (P := fun r => (r.ledger d.account).address = (t.ledger d.account).address)
      (fun r a r' hr h => ?_) rfl
    have hne : (r.ledger d.account).address ≠ zeroLimbs := by
      rw [hr, hstamped]
      exact hset
    exact (h.address_kept hne).trans hr
  rw [recipient_of_withdrawal h.accepted hw, hu, hkept, hstamped] at hown
  exact eq_or_addressCollision hown

theorem own_withdrawal_pays_address : playerWithdrawal.userAddress = playerDeposit.userAddress ∨
    LimbCollision sumHash (playerWithdrawal.userAddress.toList.map UInt8.toUInt64)
      (playerDeposit.userAddress.toList.map UInt8.toUInt64) := by
  obtain ⟨s, hrun⟩ := player_run
  have hsplit : Run sumHash evenCore emptyState (playerSlots.take 2 ++
      ⟨playerDeposit, playerDepositEffects⟩ :: ((playerSlots.drop 3).take 5 ++
        ⟨playerWithdrawal, playerWithdrawalEffects⟩ :: [])) s := hrun
  obtain ⟨_, t, -, hdeposit, hrest⟩ := Transition.Run.middle_iff.mp hsplit
  obtain ⟨t', _, hbetween, hwithdraw, -⟩ := Transition.Run.middle_iff.mp hrest
  have hown : playerWithdrawal.recipientAddrHash =
      (t'.ledger (Slot.account ⟨playerWithdrawal, playerWithdrawalEffects⟩)).address := by
    rw [hwithdraw.oldLeaf]
    decide
  exact own_withdrawal_pays_depositor hdeposit rfl (by decide) hbetween hwithdraw rfl
    (by decide) hown

end TxValidator
