import TxValidator.Address
import TxValidator.Commitments
import TxValidator.Seed

/-! Draws that are fixed ahead of them.  The seed of a crash round is committed in the house account
before it, and a settlement that carries that commitment reveals it; so all settlements of one round
draw one random value, which the house fixed before the round, and pay alike for alike bets.  A bet
reveals what the account's slot before it committed; so the commitments of a run, one slot ahead,
fix its draws. -/

namespace TxValidator

open Transition (latest)

variable {P : Poseidon2Hash} {G : GameCore} {input : SlotInput} {e : SlotEffects}
  {s s' t t' : State} {a b : Slot} {as bs : List Slot}

/-- A step whose caller gives a `crash_settle` the commitment of the house account. -/
structure RoundStep (P : Poseidon2Hash) (G : GameCore) (s : State) (a : Slot) (s' : State) :
    Prop where
  step : Step P G s a s'
  supplied : a.input.txType = txCrashSettle →
    a.input.crashSeedHash = some (s.ledger 0).seedHash

/-- The slot leaves the commitment of the house account alone. -/
def Slot.keepsHouseSeed (a : Slot) : Prop :=
  a.setsInit = false ∧ (a.input.userId = 0 → ¬a.input.isFirstRegistration)

theorem crash_settle_fairness (h : validateSlot P G input = .ok e)
    (ht : input.txType = txCrashSettle) : AlwaysOn P input ∧
      FairnessSpec P G input ⟨e.random, e.slotH, e.newSeedHash⟩ ∧
      e.random = randomCrash input.serverSeed := by
  obtain ⟨on, spec⟩ := validateSlot_eq_ok.mp h
  have hfair := spec.game (isGame_of_crashSettle ht)
  have hrandom : e.random = _ := hfair.random
  rw [if_neg (by rw [ht]; decide)] at hrandom
  exact ⟨on, hfair, hrandom⟩

/-- A settlement on the house's commitment reveals it, and a slot that commits no seed keeps it. -/
theorem RoundStep.houseSeed (h : RoundStep P G s a s') (hkeeps : a.keepsHouseSeed) :
    (s'.ledger 0).seedHash = (s.ledger 0).seedHash ∧ (a.input.txType = txCrashSettle →
      seedHashTruncated P a.input.serverSeed = (s.ledger 0).seedHash) := by
  constructor
  · have hfirst : a.account = 0 → ¬a.input.isFirstRegistration := fun hu =>
      hkeeps.2 (h.step.on.account_eq_zero.mp hu)
    rw [h.step.crashSeed hfirst, hkeeps.1]
    rfl
  · intro ht
    exact (crash_settle_fairness h.step.accepted ht).2.1.crashCommit ht _ (h.supplied ht)

/-- The commitment before a run and those that its slots write to a user account are, in order,
those that the slots see and the one after it. -/
theorem Run.seed_handoff (h : Run P G s as s') {u : UserId} (hu : u ≠ 0) :
    (s.ledger u).seedHash ::
        (as.filter (Slot.commitsSeed u)).map (fun a => a.input.nextServerSeedHash) =
      (as.filter (Slot.commitsSeed u)).map (fun a => a.input.oldSeedHash) ++
        [(s'.ledger u).seedHash] :=
  h.handoff_of_step (fun s : State => (s.ledger u).seedHash) _ _ (fun _ _ _ h => h.seed hu)
    fun _ _ _ h hmark => (h.seed_eq (Slot.commitsSeed_iff.mp hmark).1).1.symm

/-- In two runs that start from one commitment, and whose first `k` slots that write the seed of a
user account commit alike, the next such slots see one commitment. -/
theorem Run.same_seed_seen (h1 : Run P G s as s') (h2 : Run P G t bs t') {u : UserId} (hu : u ≠ 0)
    (hstart : (s.ledger u).seedHash = (t.ledger u).seedHash) {k : ℕ}
    (hcommits : ((as.filter (Slot.commitsSeed u)).map fun a => a.input.nextServerSeedHash).take k =
      ((bs.filter (Slot.commitsSeed u)).map fun b => b.input.nextServerSeedHash).take k)
    (ha : (as.filter (Slot.commitsSeed u))[k]? = some a)
    (hb : (bs.filter (Slot.commitsSeed u))[k]? = some b) :
    a.input.oldSeedHash = b.input.oldSeedHash := by
  have hseen : ∀ {s as s'} {a : Slot}, Run P G s as s' →
      (as.filter (Slot.commitsSeed u))[k]? = some a →
      ((s.ledger u).seedHash :: ((as.filter (Slot.commitsSeed u)).map
        fun a => a.input.nextServerSeedHash).take k)[k]? = some a.input.oldSeedHash := by
    intro s as s' a h ha
    rw [← List.take_succ_cons, List.getElem?_take_of_lt (Nat.lt_succ_self k), h.seed_handoff hu,
      List.getElem?_append_left, List.getElem?_map, ha, Option.map_some]
    rw [List.length_map]
    exact (List.getElem?_eq_some_iff.mp ha).1
  have hsame := hseen h1 ha
  rw [hstart, hcommits, hseen h2 hb] at hsame
  exact (Option.some.inj hsame).symm

/-- The draws of an account's bets are fixed ahead of them: in two runs that start from one seed
commitment of the account, and up to bet `k` commit the same seeds, bet `k` reveals one server seed,
and draws one random value for one user seed, whatever else the runs do and the bets are; or the
server seeds collide. -/
theorem bets_draw_alike (h1 : Run P G s as s') (h2 : Run P G t bs t') {u : UserId} (hu : u ≠ 0)
    (hstart : (s.ledger u).seedHash = (t.ledger u).seedHash) {k : ℕ}
    (hcommits : ((as.filter (Slot.commitsSeed u)).map fun a => a.input.nextServerSeedHash).take k =
      ((bs.filter (Slot.commitsSeed u)).map fun b => b.input.nextServerSeedHash).take k)
    (ha : (as.filter (Slot.commitsSeed u))[k]? = some a)
    (hb : (bs.filter (Slot.commitsSeed u))[k]? = some b)
    (hta : a.input.txType = txInHouseBet) (htb : b.input.txType = txInHouseBet) :
    SeedCollision P a.input.serverSeed b.input.serverSeed ∨
      (a.input.serverSeed = b.input.serverSeed ∧
        (a.input.userSeed = b.input.userSeed → a.effects.random = b.effects.random)) := by
  have hold := h1.same_seed_seen h2 hu hstart hcommits ha hb
  have hacceptedA := h1.forall_label (fun _ _ _ h => h.accepted) a
    (List.mem_filter.mp (List.mem_of_getElem? ha)).1
  have hacceptedB := h2.forall_label (fun _ _ _ h => h.accepted) b
    (List.mem_filter.mp (List.mem_of_getElem? hb)).1
  obtain ⟨onA, fairA, hrandomA⟩ := in_house_bet_fairness hacceptedA hta
  obtain ⟨onB, fairB, hrandomB⟩ := in_house_bet_fairness hacceptedB htb
  have hreveal := (fairA.seedChain hta).trans (hold.trans (fairB.seedChain htb).symm)
  rcases eq_or_seedCollision onA.serverSeed_canonical onB.serverSeed_canonical hreveal with
    hsame | hcol
  · refine Or.inr ⟨hsame, fun huser => ?_⟩
    rw [hrandomA, hrandomB, hsame, huser]
  · exact Or.inl hcol

/-- The bet of the run, with another commitment to the next seed and another base bet. -/
def nextBet : SlotInput :=
  { houseBet with nextServerSeedHash := houseBet.oldSeedHash, baseBet := 9 }

theorem nextBet_draws_alike : ∃ e s' t', Run sumHash evenCore emptyState slots s' ∧
    Run sumHash evenCore emptyState [⟨registration, registrationEffects⟩, ⟨nextBet, e⟩] t' ∧
    houseBetEffects.random = e.random := by
  obtain ⟨s', hrun⟩ := slots_run
  obtain ⟨s, hreg⟩ := registration_step
  obtain ⟨e, he⟩ : ∃ e, validateSlot sumHash evenCore nextBet = .ok e :=
    Checked.exists_of_isOk (by decide +kernel)
  have hbet := hreg.next (b := ⟨nextBet, e⟩) he ⟨rfl, rfl, rfl, rfl⟩
  have hother : Run sumHash evenCore emptyState
      [⟨registration, registrationEffects⟩, ⟨nextBet, e⟩] _ := .snoc (.snoc .nil hreg) hbet
  have hdraw := @bets_draw_alike _ _ _ _ _ _ ⟨houseBet, houseBetEffects⟩ ⟨nextBet, e⟩ _ _ hrun
    hother houseBet.account (by decide) rfl 1 rfl rfl rfl rfl rfl
  rcases hdraw with hcol | ⟨-, hrandom⟩
  · exact absurd rfl hcol.ne
  · exact ⟨e, s', _, hrun, hother, hrandom rfl⟩

end TxValidator
