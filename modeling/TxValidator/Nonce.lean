import TxValidator.Ledger

/-! The two lanes of an account's nonce along a run: each lane counts the slots that bump it, no
lane carries into the other, and no two slots sign the same value of a lane.  An engine that keeps
nonces of its own with `advanceNonce` agrees with the validator along every run. -/

namespace TxValidator

variable {P : Poseidon2Hash} {G : GameCore} {input : SlotInput} {e : SlotEffects} {s s' : State}
  {a : Slot} {as : List Slot}

inductive Lane
  | game
  | account

/-- The value of a lane of a packed nonce. -/
def Lane.value : Lane → UInt64 → ℕ
  | .game, nonce => (splitNonce nonce).2.toNat
  | .account, nonce => (splitNonce nonce).1.toNat

/-- The highest value of a lane. -/
def Lane.ceiling : Lane → ℕ
  | .game => gameLaneMax.toNat
  | .account => accountLaneMax.toNat

/-- The slot bumps the lane. -/
def SlotInput.bumps (input : SlotInput) : Lane → Bool
  | .game => input.bumpsGameLane
  | .account => input.bumpsAccountLane

/-- The slot bumps the lane of account `u`. -/
def Slot.bumps (u : UserId) (lane : Lane) (a : Slot) : Bool :=
  a.account == u && a.input.bumps lane

theorem Slot.bumps_iff {u : UserId} {lane : Lane} :
    a.bumps u lane = true ↔ a.account = u ∧ a.input.bumps lane = true := by
  rw [Slot.bumps, Bool.and_eq_true, beq_iff_eq]

/-- No slot bumps both lanes. -/
theorem bumps_disjoint (h : input.bumps .game = true) : input.bumps .account = false := by
  simp only [SlotInput.bumps, SlotInput.bumpsGameLane, List.mem_cons, List.not_mem_nil, or_false,
    decide_eq_true_eq] at h
  rcases h with ht | ht | ht <;>
    rw [SlotInput.bumps, SlotInput.bumpsAccountLane, SlotInput.isKeySetter, ht] <;> rfl

/-! ### One slot -/

theorem EffectsSpec.lane_value (spec : EffectsSpec P G input e) (lane : Lane) :
    lane.value e.newNonce = lane.value input.oldNonce + if input.bumps lane then 1 else 0 := by
  have hbit : ∀ b : Bool, b.toNat = if b then 1 else 0 := by decide
  cases lane with
  | game =>
    rw [Lane.value, Lane.value, (splitNonce_toNat _).2, (splitNonce_toNat _).2, spec.nonce.gameLane,
      hbit]
    rfl
  | account =>
    rw [Lane.value, Lane.value, (splitNonce_toNat _).1, (splitNonce_toNat _).1,
      spec.nonce.accountLane, hbit]
    rfl

/-- A slot that bumps a lane is accepted below the lane's ceiling only. -/
theorem EffectsSpec.lane_lt (spec : EffectsSpec P G input e) {lane : Lane}
    (h : input.bumps lane = true) : lane.value input.oldNonce < lane.ceiling := by
  cases lane with
  | game =>
    rw [Lane.value, Lane.ceiling, (splitNonce_toNat _).2, gameLaneMax_toNat]
    exact spec.nonce.game h
  | account =>
    rw [Lane.value, Lane.ceiling, (splitNonce_toNat _).1, accountLaneMax_toNat]
    exact spec.nonce.account h

theorem Step.nonce_eq (h : Step P G s a s') {u : UserId} (hu : a.account = u) :
    (s.ledger u).nonce = a.input.oldNonce ∧ (s'.ledger u).nonce = a.effects.newNonce :=
  h.part_eq hu Leaf.nonce

theorem Step.lane_value (h : Step P G s a s') (u : UserId) (lane : Lane) :
    lane.value (s'.ledger u).nonce =
      lane.value (s.ledger u).nonce + if a.bumps u lane then 1 else 0 := by
  by_cases hu : a.account = u
  · obtain ⟨hold, hnew⟩ := h.nonce_eq hu
    rw [hold, hnew, h.spec.lane_value, Slot.bumps, hu, beq_self_eq_true, Bool.true_and]
  · rw [h.frame u (Ne.symm hu), Slot.bumps, beq_false_of_ne hu]
    rfl

theorem Step.nonce_lt (h : Step P G s a s') {u : UserId} (hs : (s.ledger u).nonce.toNat < 2 ^ 63) :
    (s'.ledger u).nonce.toNat < 2 ^ 63 :=
  h.keeps (p := fun l => l.nonce.toNat < 2 ^ 63) (fun _ => h.spec.nonce.new_lt) hs

/-! ### Runs -/

theorem Run.lane_value (hrun : Run P G s as s') (u : UserId) (lane : Lane) :
    lane.value (s'.ledger u).nonce =
      lane.value (s.ledger u).nonce + as.countP (Slot.bumps u lane) :=
  Transition.Run.countP_of_step (fun s => lane.value (s.ledger u).nonce)
    (fun _ _ _ h => h.lane_value u lane) hrun

/-- The slots of a run that bump one lane of one account see increasing values of it. -/
theorem Run.lane_pairwise (hrun : Run P G s as s') (u : UserId) (lane : Lane) :
    as.Pairwise fun a b => a.bumps u lane = true → b.bumps u lane = true →
      lane.value a.input.oldNonce < lane.value b.input.oldNonce := by
  refine Transition.Run.pairwise_lt_of_step (fun s => lane.value (s.ledger u).nonce)
    (fun a => lane.value a.input.oldNonce) ?_ ?_ hrun
  · intro s a s' h
    rw [h.lane_value u lane]
    exact Nat.le_add_right _ _
  · intro s a s' h hmark
    rw [(h.nonce_eq (Slot.bumps_iff.mp hmark).1).1.symm, h.lane_value u lane, if_pos hmark]
    exact ⟨rfl, Nat.lt_succ_self _⟩

/-- Both lanes of an account count, over every run, the slots that bump them, and no slot bumps
both; the packed nonce stays below `2^63`; the returned lanes are those of the new nonce; no two
slots of the run sign one lane at one value; a lane that no slot bumps keeps its value; and a slot
at a lane's ceiling is rejected. -/
theorem nonce_lanes_over_runs {u : UserId} (hrun : Run P G s as s')
    (hnonce : (s.ledger u).nonce.toNat < 2 ^ 63) :
    (s'.ledger u).nonce.toNat < 2 ^ 63 ∧
      (∀ a ∈ as, (a.effects.newAccountNonce, a.effects.newGameNonce) =
        splitNonce a.effects.newNonce) ∧
      (∀ input : SlotInput, input.bumps .game = true → input.bumps .account = false) ∧
      ∀ lane : Lane,
        (lane.value (s'.ledger u).nonce =
          lane.value (s.ledger u).nonce + as.countP (Slot.bumps u lane)) ∧
        (as.Pairwise fun a b => a.bumps u lane = true → b.bumps u lane = true →
          lane.value a.input.oldNonce ≠ lane.value b.input.oldNonce) ∧
        ((∀ a ∈ as, a.account = u → a.input.bumps lane = false) →
          lane.value (s'.ledger u).nonce = lane.value (s.ledger u).nonce) ∧
        ∀ input : SlotInput, input.bumps lane = true →
          lane.value input.oldNonce = lane.ceiling → ∀ e, validateSlot P G input ≠ .ok e := by
  refine ⟨?_, ?_, fun _ => bumps_disjoint, fun lane => ⟨hrun.lane_value u lane, ?_, ?_, ?_⟩⟩
  · exact Transition.Run.invariant (P := fun s => (s.ledger u).nonce.toNat < 2 ^ 63)
      (fun _ _ _ hs h => h.nonce_lt hs) hrun hnonce
  · exact Transition.Run.forall_label (fun _ _ _ h => h.spec.lanes) hrun
  · refine (hrun.lane_pairwise u lane).imp fun hlt ha hb => ?_
    exact Nat.ne_of_lt (hlt ha hb)
  · intro hnone
    have hcount : as.countP (Slot.bumps u lane) = 0 := by
      rw [List.countP_eq_zero]
      intro a ha hmark
      obtain ⟨hu, hbump⟩ := Slot.bumps_iff.mp hmark
      rw [hnone a ha hu] at hbump
      cases hbump
    rw [hrun.lane_value u lane, hcount, Nat.add_zero]
  · intro input hbump hceiling e h
    have hlt := (validateSlot_eq_ok.mp h).2.lane_lt hbump
    rw [hceiling] at hlt
    exact Nat.lt_irrefl _ hlt

theorem nonce_lanes_over_slots : ∃ s, Run sumHash evenCore emptyState slots s ∧
    Lane.game.value (s.ledger 5).nonce = 2 ∧ Lane.account.value (s.ledger 5).nonce = 1 := by
  obtain ⟨s, hrun⟩ := slots_run
  obtain ⟨-, -, -, hlanes⟩ := nonce_lanes_over_runs (u := 5) hrun (by decide)
  exact ⟨s, hrun, (hlanes .game).1.trans (by decide),
    (hlanes .account).1.trans (by decide)⟩

/-! ### The mirror -/

/-- The nonces of a batch engine after a slot: it advances the nonce of the slot's account. -/
def mirrorNonces (nonces : UserId → UInt64) (a : Slot) :
    Except SlotRejection (UserId → UInt64) := do
  let nonce ← advanceNonce (nonces a.account) a.input.txType a.input.isKeySetter
  return Function.update nonces a.account nonce

/-- The nonces that the leaves of the ledger store. -/
def State.nonces (s : State) (u : UserId) : UInt64 := (s.ledger u).nonce

/-- The mirror advances the nonce by the rule that the validator applies. -/
theorem advanceNonce_eq_ok {new : UInt64} :
    advanceNonce input.oldNonce input.txType input.isKeySetter = .ok new ↔
      NonceSpec input.oldNonce input.bumpsGameLane input.bumpsAccountLane new := by
  rw [advanceNonce, isGameLane_eq, isAccountLane_eq]
  exact computeNewNonce_eq_ok

theorem EffectsSpec.lanes_le (spec : EffectsSpec P G input e) :
    e.newAccountNonce ≤ accountLaneMax ∧ e.newGameNonce ≤ gameLaneMax := by
  have hlt := spec.nonce.new_lt
  rw [spec.newAccountNonce_eq, spec.newGameNonce_eq, UInt64.le_iff_toNat_le,
    UInt64.le_iff_toNat_le, (splitNonce_toNat _).1, (splitNonce_toNat _).2, accountLaneMax_toNat,
    gameLaneMax_toNat]
  omega

theorem EffectsSpec.joinNonce_lanes (spec : EffectsSpec P G input e) :
    joinNonce e.newAccountNonce e.newGameNonce = e.newNonce := by
  rw [spec.newAccountNonce_eq, spec.newGameNonce_eq]
  exact joinNonce_splitNonce e.newNonce

/-- A mirror that holds the stored nonces holds them after a step. -/
theorem Step.mirrorNonces_eq (h : Step P G s a s') : mirrorNonces s.nonces a = .ok s'.nonces := by
  obtain ⟨hold, hnew⟩ := h.nonce_eq rfl
  have hadvance : advanceNonce (s.nonces a.account) a.input.txType a.input.isKeySetter =
      .ok a.effects.newNonce := by
    rw [State.nonces, hold]
    exact advanceNonce_eq_ok.mpr h.spec.nonce
  rw [mirrorNonces, hadvance]
  refine congrArg Except.ok (funext fun u => ?_)
  by_cases hu : u = a.account
  · rw [hu, Function.update_self]
    exact hnew.symm
  · rw [Function.update_of_ne hu, State.nonces, State.nonces, h.frame u hu]

/-- The public mirror of the nonce advance: on an accepted slot it returns the new nonce, of which
the returned lanes are the two lanes and which they make up again; where it rejects, so does the
validator; and an engine that keeps its nonces with it holds, after every run, the nonces that the
leaves store. -/
theorem advance_nonce_mirrors_validator :
    (∀ input e, validateSlot P G input = .ok e →
      advanceNonce input.oldNonce input.txType input.isKeySetter = .ok e.newNonce ∧
        splitNonce e.newNonce = (e.newAccountNonce, e.newGameNonce) ∧
        (e.newAccountNonce ≤ accountLaneMax ∧ e.newGameNonce ≤ gameLaneMax) ∧
        joinNonce e.newAccountNonce e.newGameNonce = e.newNonce) ∧
      (∀ (input : SlotInput) r,
        advanceNonce input.oldNonce input.txType input.isKeySetter = .error r →
          ∀ e, validateSlot P G input ≠ .ok e) ∧
      ∀ s as s', Run P G s as s' → as.foldlM mirrorNonces s.nonces = .ok s'.nonces := by
  refine ⟨fun input e h => ?_, fun input r hreject e h => ?_, fun s as s' hrun => ?_⟩
  · have spec := (validateSlot_eq_ok.mp h).2
    exact ⟨advanceNonce_eq_ok.mpr spec.nonce, spec.lanes.symm, spec.lanes_le, spec.joinNonce_lanes⟩
  · have spec := (validateSlot_eq_ok.mp h).2
    rw [advanceNonce_eq_ok.mpr spec.nonce] at hreject
    cases hreject
  · exact Transition.Run.foldlM_of_step State.nonces mirrorNonces
      (fun _ _ _ h => h.mirrorNonces_eq) hrun

/-- A bet of an account whose game lane is full. -/
def exhaustedBet : SlotInput :=
  SlotInput.commit sumHash { limboBet with oldNonce := accountLaneUnit + gameLaneMax }

theorem advance_nonce_mirrors_slots :
    (∃ s, Run sumHash evenCore emptyState slots s ∧
      slots.foldlM mirrorNonces emptyState.nonces = .ok s.nonces) ∧
      advanceNonce accountLaneUnit txInHouseBet false = .ok (accountLaneUnit + 1) ∧
      joinNonce 1 1 = accountLaneUnit + 1 ∧
      validateSlot sumHash evenCore exhaustedBet = .error .nonceLaneOverflow ∧
      ∀ e, validateSlot sumHash evenCore exhaustedBet ≠ .ok e := by
  obtain ⟨haccepted, hrejected, hruns⟩ :=
    advance_nonce_mirrors_validator (P := sumHash) (G := evenCore)
  obtain ⟨s, hrun⟩ := slots_run
  obtain ⟨hadvance, -, -, hjoin⟩ := haccepted _ _ houseBet_ok
  exact ⟨⟨s, hrun, hruns _ _ _ hrun⟩, hadvance, hjoin, by decide +kernel,
    hrejected exhaustedBet .nonceLaneOverflow (by decide)⟩

end TxValidator
