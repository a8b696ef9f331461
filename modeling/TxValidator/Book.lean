import TxValidator.Chain
import TxValidator.Table

/-! The book: the leaves of all accounts and the total liability, with no tree and no root.  A row
of the transition table posts to it.  The validator, which sees one leaf and one path at a time and
keeps nothing but a root and a total liability, implements the book: its chains are the book's
runs, and its roots are those of the book's leaves. -/

namespace TxValidator

variable {P : Poseidon2Hash} {G : GameCore} {input : SlotInput} {s s' : State} {a : Slot}
  {as : List Slot} {rs : List SlotInput} {kind : TxKind}

structure Book where
  leaves : UserId → Leaf
  totalLiability : UInt64

/-- The leaf that a row leaves of one that held `oldBalance`. -/
def RowData.leaf (row : RowData) (oldBalance : UInt64) : Leaf where
  balance := oldBalance + row.add - row.sub
  credit := row.newCredit
  seedHash := row.newSeedHash
  nonce := row.newNonce
  allowance := row.newProviderAllowance
  pk := committed row.newPkHash
  address := committed row.newAddressHash

theorem RowData.newLeaf_effects (row : RowData) :
    (row.effects P input).newLeaf = row.leaf input.oldBalance := rfl

/-- The book after a row is posted to it. -/
def Book.post (b : Book) (input : SlotInput) (row : RowData) : Book where
  leaves := Function.update b.leaves input.account (row.leaf input.oldBalance)
  totalLiability := b.totalLiability + row.add - row.sub

/-- A request on the book: it passes its own checks on its account's leaf, meets the conditions of
its type's row, and what it moves fits the account and the total liability. -/
structure BookStep (P : Poseidon2Hash) (G : GameCore) (b : Book) (input : SlotInput) (b' : Book) :
    Prop where
  own : input.OwnChecks
  oldLeaf : b.leaves input.account = input.oldLeaf
  row : ∃ kind : TxKind, kind.code = input.txType ∧ (transition P G input kind).guard ∧
    (transition P G input kind).Fits { input with oldTotalLiability := b.totalLiability } ∧
    b' = b.post input (transition P G input kind).toRowData

abbrev BookRun (P : Poseidon2Hash) (G : GameCore) : Book → List SlotInput → Book → Prop :=
  Transition.Run (BookStep P G)

def State.book (s : State) : Book := ⟨s.leaves, s.totalLiability⟩

/-! ### Steps -/

/-- The row of a slot reads nothing of the shared state. -/
theorem transition_shared (siblings : Vector Digest treeDepth) (root : Digest) (oldTl tl : UInt64) :
    transition P G { input with
      mainSiblings := siblings
      currentRoot := root
      oldTotalLiability := oldTl
      currentTl := tl } kind = transition P G input kind := by
  have hsettles : ∀ random, SlotInput.Settles P G { input with
      mainSiblings := siblings
      currentRoot := root
      oldTotalLiability := oldTl
      currentTl := tl } random = input.Settles P G random := fun random =>
    propext ⟨fun h => ⟨h.kenoPicks, h.prediction, h.payout⟩,
      fun h => ⟨h.kenoPicks, h.prediction, h.payout⟩⟩
  cases kind with
  | inHouseBet =>
    simp only [transition, hsettles]
    rfl
  | crashSettle =>
    simp only [transition, hsettles]
    rfl
  | _ => rfl

theorem transition_request : transition P G input.request kind = transition P G input kind :=
  transition_shared ..

theorem transition_against {L : Ledger} {tl : UInt64} :
    transition P G (input.against P L tl) kind = transition P G input kind :=
  transition_shared ..

/-- What an accepted slot does to the ledger, its request does to the book. -/
theorem Step.bookStep (h : Step P G s a s') : BookStep P G s.book a.request s'.book := by
  obtain ⟨kind, hkind⟩ := TxKind.exists_code h.on.txType
  obtain ⟨⟨hguard, hfits⟩, heffects⟩ := (h.on.eq_ok_iff hkind).mp h.accepted
  have htl : a.input.oldTotalLiability = s.totalLiability := h.on.tl.trans h.currentTl
  refine ⟨h.on.ownChecks.request, h.oldLeaf, kind, hkind, ?_, ?_, ?_⟩
  · rw [Slot.request, transition_request]
    exact hguard
  · rw [Slot.request, transition_request]
    have htotal := hfits.totalLiability
    have hcovers := hfits.tlCovers
    rw [htl] at htotal hcovers
    exact ⟨hfits.nonce, hfits.recipient, hfits.balance, htotal, hfits.balanceCovers, hcovers⟩
  · rw [Slot.request, transition_request, State.book, Book.post, Book.mk.injEq]
    constructor
    · rw [h.leaves_eq, heffects, RowData.newLeaf_effects]
      rfl
    · show s'.totalLiability = s.totalLiability + _ - _
      rw [h.newTl, heffects, ← htl]
      rfl

/-- On a sound state, what a request does to the book an accepted slot does to the ledger. -/
theorem BookStep.exists_step {b : Book} (hs : s.Sound P) (h : BookStep P G s.book input b) :
    ∃ a s', Step P G s a s' ∧ a.request = input.request ∧ s'.Sound P ∧ s'.book = b := by
  obtain ⟨own, hold, kind, hkind, hguard, hfits, rfl⟩ := h
  have on : AlwaysOn P (input.against P s.ledger s.totalLiability) := own.against hold
  have haccepted : validateSlot P G (input.against P s.ledger s.totalLiability) =
      .ok ((transition P G input kind).effects P (input.against P s.ledger s.totalLiability)) := by
    rw [on.eq_ok_iff hkind, transition_against]
    exact ⟨⟨hguard, hfits.nonce, hfits.recipient, hfits.balance, hfits.totalLiability,
      hfits.balanceCovers, hfits.tlCovers⟩, rfl⟩
  obtain ⟨s', hstep, hs', hleaves⟩ := hs.step_against hold haccepted
  refine ⟨_, s', hstep, rfl, hs', ?_⟩
  rw [State.book, Book.post, Book.mk.injEq]
  exact ⟨hleaves.trans (congrArg _ (RowData.newLeaf_effects _)), hstep.newTl⟩

/-! ### Runs -/

theorem Run.bookRun (h : Run P G s as s') : BookRun P G s.book (as.map Slot.request) s'.book :=
  h.map State.book Slot.request fun _ _ _ => Step.bookStep

theorem BookRun.exists_run {b : Book} (hs : s.Sound P) (h : BookRun P G s.book rs b) :
    ∃ as s', Run P G s as s' ∧ as.map Slot.request = rs.map SlotInput.request ∧ s'.Sound P ∧
      s'.book = b := by
  induction h with
  | nil => exact ⟨[], s, .nil, rfl, hs, rfl⟩
  | snoc _ h ih =>
    obtain ⟨as, t, hrun, hreq, ht, rfl⟩ := ih
    obtain ⟨a, s', hlast, hreqLast, hs', hbook⟩ := h.exists_step ht
    refine ⟨as ++ [a], s', hrun.snoc hlast, ?_, hs', hbook⟩
    rw [List.map_append, List.map_append, hreq, List.map_singleton, hreqLast, List.map_singleton]

/-- The validator implements the book.  When no two hashed inputs collide, a chain of accepted slots
from the root and the total liability of a sound state is a run of the book, and ends in the root
and the total liability of the book's last leaves.  And every run of the book is that of a chain of
accepted slots that make its requests. -/
theorem validator_implements_book (hs : s.Sound P) :
    (∀ as m, Chain P G s.ambient as m → CollisionFree P (hashedBy P s.ledger as) →
      ∃ s' : State, BookRun P G s.book (as.map Slot.request) s'.book ∧ s'.Sound P ∧
        s'.ambient = m) ∧
    ∀ rs b, BookRun P G s.book rs b → ∃ (as : List Slot) (s' : State),
      Chain P G s.ambient as s'.ambient ∧
      as.map Slot.request = rs.map SlotInput.request ∧ s'.Sound P ∧ s'.book = b := by
  constructor
  · intro as m hchain hfree
    have hstate : s = ⟨s.ledger, s.ledger.root P, s.totalLiability⟩ := by rw [← hs.root]
    rw [State.ambient, hs.root] at hchain
    obtain ⟨s', hrun, hm, hroot, -⟩ := Chain.exists_run hchain hfree
    rw [← hstate] at hrun
    exact ⟨s', hrun.bookRun, ⟨hroot, hrun.conserves hs.total⟩, hm⟩
  · intro rs b h
    obtain ⟨as, s', hrun, hreq, hs', hbook⟩ := BookRun.exists_run hs h
    have hchain := Transition.Run.map State.ambient id (fun _ _ _ h => h.chainStep) hrun
    rw [List.map_id] at hchain
    exact ⟨as, s', hchain, hreq, hs', hbook⟩

theorem slots_in_book : ∃ (s' : State) (as : List Slot) (m : Ambient),
    BookRun sumHash evenCore emptyState.book (slots.map Slot.request) s'.book ∧
    Chain sumHash evenCore emptyState.ambient as m ∧
    as.map Slot.request = slots.map Slot.request := by
  obtain ⟨m, hchain⟩ := slots_chain
  rw [← show emptyState.root = Ledger.zero.root sumHash from emptyState_sound.root] at hchain
  obtain ⟨s', hbook, -⟩ :=
    (validator_implements_book emptyState_sound).1 slots m hchain slots_collision_free
  obtain ⟨as, t, hchain', hreq, -⟩ := (validator_implements_book emptyState_sound).2 _ _ hbook
  rw [List.map_map] at hreq
  exact ⟨s', as, _, hbook, hchain', hreq⟩

end TxValidator
