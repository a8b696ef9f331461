import Mathlib.Algebra.Ring.Nat
import Mathlib.Data.Set.Function
import Mathlib.Logic.Function.Iterate
import Mathlib.Tactic.Common

/-! Binary hash trees over an arbitrary type of digests, with leaves numbered from zero and an
authentication path that reads the bits of a leaf's number from the least significant one.  A path
that reaches the root of a tree, with every sibling free, is the tree's own path whenever `node` is
injective on the pairs that the tree and the path combine. -/

namespace MerkleTree

open Function

variable {D : Type} (node : D → D → D)

/-- The level above `f`: its entry `i` combines entries `2 * i` and `2 * i + 1` of `f`. -/
def parents (f : ℕ → D) (i : ℕ) : D := node (f (2 * i)) (f (2 * i + 1))

/-- The root of the tree of depth `k` over the leaves `f 0`, ..., `f (2 ^ k - 1)`. -/
def root : ℕ → (ℕ → D) → D
  | 0, f => f 0
  | k + 1, f => root k (parents node f)

/-- The entry that `parents` combines with entry `i`. -/
def sibling (f : ℕ → D) (i : ℕ) : D := if i % 2 = 1 then f (i - 1) else f (i + 1)

/-- The siblings on the path from leaf `i` to the root of the tree of depth `k`. -/
def siblings : ℕ → (ℕ → D) → ℕ → List D
  | 0, _, _ => []
  | k + 1, f, i => sibling f i :: siblings k (parents node f) (i / 2)

/-- The digest `d` and its sibling `s` in order, when `d` is entry `i` of its level. -/
def pair (d s : D) (i : ℕ) : D × D := if i % 2 = 1 then (s, d) else (d, s)

/-- The digest that the path `ss` reaches from `d` at entry `i`. -/
def climb : D → List D → ℕ → D
  | d, [], _ => d
  | d, s :: ss, i => climb (uncurry node (pair d s i)) ss (i / 2)

/-- The pairs that the tree of depth `k` combines. -/
def nodes : ℕ → (ℕ → D) → Set (D × D)
  | 0, _ => ∅
  | k + 1, f => {q | ∃ i < 2 ^ k, q = (f (2 * i), f (2 * i + 1))} ∪ nodes k (parents node f)

/-- The pairs that the path `ss` combines on its way from `d` at entry `i`. -/
def pathNodes : D → List D → ℕ → List (D × D)
  | _, [], _ => []
  | d, s :: ss, i => pair d s i :: pathNodes (uncurry node (pair d s i)) ss (i / 2)

variable {node}

theorem pair_sibling (f : ℕ → D) (i : ℕ) :
    pair (f i) (sibling f i) i = (f (2 * (i / 2)), f (2 * (i / 2) + 1)) := by
  unfold pair sibling
  split
  · rw [show 2 * (i / 2) = i - 1 by omega, show i - 1 + 1 = i by omega]
  · rw [show 2 * (i / 2) = i by omega]

theorem node_pair_sibling (f : ℕ → D) (i : ℕ) :
    uncurry node (pair (f i) (sibling f i) i) = parents node f (i / 2) := by
  rw [pair_sibling]
  rfl

theorem pair_injective {d d' s s' : D} {i : ℕ} (h : pair d s i = pair d' s' i) :
    d = d' ∧ s = s' := by
  unfold pair at h
  split at h
  · exact ⟨(Prod.mk.inj h).2, (Prod.mk.inj h).1⟩
  · exact Prod.mk.inj h

theorem siblings_length (k : ℕ) (f : ℕ → D) (i : ℕ) : (siblings node k f i).length = k := by
  induction k generalizing f i with
  | zero => rfl
  | succ k ih => rw [siblings, List.length_cons, ih]

/-- A leaf's own path reaches the root. -/
theorem climb_siblings {k : ℕ} {f : ℕ → D} {i : ℕ} (hi : i < 2 ^ k) :
    climb node (f i) (siblings node k f i) i = root node k f := by
  induction k generalizing f i with
  | zero =>
    obtain rfl : i = 0 := by omega
    rfl
  | succ k ih =>
    rw [siblings, climb, node_pair_sibling, root]
    exact ih (by rw [Nat.pow_succ] at hi; omega)

/-! ### Replacing a leaf -/

theorem sibling_update (f : ℕ → D) (i : ℕ) (d : D) : sibling (update f i d) i = sibling f i := by
  unfold sibling
  split
  · rw [update_of_ne (by omega)]
  · rw [update_of_ne (by omega)]

theorem parents_update (f : ℕ → D) (i : ℕ) (d : D) :
    parents node (update f i d) =
      update (parents node f) (i / 2) (uncurry node (pair d (sibling f i) i)) := by
  funext j
  by_cases hj : j = i / 2
  · subst hj
    rw [update_self, ← node_pair_sibling, update_self, sibling_update]
  · rw [update_of_ne hj, parents, parents, update_of_ne (by omega), update_of_ne (by omega)]

theorem siblings_update (k : ℕ) (f : ℕ → D) (i : ℕ) (d : D) :
    siblings node k (update f i d) i = siblings node k f i := by
  induction k generalizing f i d with
  | zero => rfl
  | succ k ih => rw [siblings, siblings, sibling_update, parents_update, ih]

/-- The path of leaf `i`, climbed from another digest, reaches the root of the tree with that
digest in place of the leaf. -/
theorem climb_update {k : ℕ} {f : ℕ → D} {i : ℕ} (hi : i < 2 ^ k) (d : D) :
    climb node d (siblings node k f i) i = root node k (update f i d) := by
  have h : climb node (update f i d i) (siblings node k (update f i d) i) i =
      root node k (update f i d) := climb_siblings hi
  rwa [update_self, siblings_update] at h

theorem root_congr {k : ℕ} {f g : ℕ → D} (h : ∀ i < 2 ^ k, f i = g i) :
    root node k f = root node k g := by
  induction k generalizing f g with
  | zero => exact h 0 (by decide)
  | succ k ih =>
    refine ih fun i hi => ?_
    rw [parents, parents, h (2 * i) (by rw [Nat.pow_succ]; omega),
      h (2 * i + 1) (by rw [Nat.pow_succ]; omega)]

theorem nodes_congr {k : ℕ} {f g : ℕ → D} (h : ∀ i < 2 ^ k, f i = g i) :
    nodes node k f = nodes node k g := by
  induction k generalizing f g with
  | zero => rfl
  | succ k ih =>
    have hpair : ∀ i < 2 ^ k, f (2 * i) = g (2 * i) ∧ f (2 * i + 1) = g (2 * i + 1) := by
      intro i hi
      exact ⟨h _ (by rw [Nat.pow_succ]; omega), h _ (by rw [Nat.pow_succ]; omega)⟩
    have habove : nodes node k (parents node f) = nodes node k (parents node g) :=
      ih fun i hi => by rw [parents, parents, (hpair i hi).1, (hpair i hi).2]
    rw [nodes, nodes, habove]
    congr 1
    ext q
    constructor
    · rintro ⟨i, hi, rfl⟩
      exact ⟨i, hi, by rw [(hpair i hi).1, (hpair i hi).2]⟩
    · rintro ⟨i, hi, rfl⟩
      exact ⟨i, hi, by rw [(hpair i hi).1, (hpair i hi).2]⟩

/-- Replacing leaf `i` adds no combined pairs but those on its path. -/
theorem nodes_update {k : ℕ} {f : ℕ → D} {i : ℕ} (d : D) :
    nodes node k (update f i d) ⊆
      nodes node k f ∪ {q | q ∈ pathNodes node d (siblings node k f i) i} := by
  induction k generalizing f i d with
  | zero => exact Set.empty_subset _
  | succ k ih =>
    rintro q (⟨j, hj, rfl⟩ | hq)
    · by_cases hij : j = i / 2
      · have hpair := pair_sibling (update f i d) i
        rw [update_self, sibling_update] at hpair
        subst hij
        rw [← hpair]
        exact Or.inr (List.mem_cons_self ..)
      · rw [update_of_ne (by omega), update_of_ne (by omega)]
        exact Or.inl (Or.inl ⟨j, hj, rfl⟩)
    · rw [parents_update] at hq
      rcases ih _ hq with hq | hq
      · exact Or.inl (Or.inr hq)
      · exact Or.inr (List.mem_cons_of_mem _ hq)

/-! ### Binding -/

theorem mem_nodes_pair {k : ℕ} {f : ℕ → D} {i : ℕ} (hi : i < 2 ^ (k + 1)) :
    pair (f i) (sibling f i) i ∈ nodes node (k + 1) f :=
  Or.inl ⟨i / 2, by rw [Nat.pow_succ] at hi; omega, pair_sibling f i⟩

/-- A leaf's own path combines pairs of the tree. -/
theorem pathNodes_siblings {k : ℕ} {f : ℕ → D} {i : ℕ} (hi : i < 2 ^ k) :
    ∀ q ∈ pathNodes node (f i) (siblings node k f i) i, q ∈ nodes node k f := by
  induction k generalizing f i with
  | zero => exact fun q hq => nomatch hq
  | succ k ih =>
    intro q hq
    rw [siblings, pathNodes, node_pair_sibling] at hq
    rcases List.mem_cons.mp hq with rfl | hq
    · exact mem_nodes_pair hi
    · exact Or.inr (ih (by rw [Nat.pow_succ] at hi; omega) q hq)

/-- A path from leaf position `i` that reaches the root starts at the leaf and follows its
siblings, when `node` is injective on the pairs combined by the tree and the path. -/
theorem eq_of_climb_eq_root {k : ℕ} {f : ℕ → D} {i : ℕ} {d : D} {ss : List D}
    (hinj : Set.InjOn (uncurry node) (nodes node k f ∪ {q | q ∈ pathNodes node d ss i}))
    (hi : i < 2 ^ k) (hlen : ss.length = k) (h : climb node d ss i = root node k f) :
    d = f i ∧ ss = siblings node k f i := by
  induction k generalizing f i d ss with
  | zero =>
    obtain rfl : i = 0 := by omega
    obtain rfl := List.length_eq_zero_iff.mp hlen
    exact ⟨h, rfl⟩
  | succ k ih =>
    cases ss with
    | nil => simp at hlen
    | cons s ss =>
      -- Above the first level the path meets the tree, so its first pair has the tree's parent.
      have habove : Set.InjOn (uncurry node) (nodes node k (parents node f) ∪
          {q | q ∈ pathNodes node (uncurry node (pair d s i)) ss (i / 2)}) := by
        refine hinj.mono (Set.union_subset_union (fun q hq => Or.inr hq) fun q hq => ?_)
        exact List.mem_cons_of_mem _ hq
      obtain ⟨hparent, hss⟩ := ih habove (by rw [Nat.pow_succ] at hi; omega) (by simpa using hlen) h
      have hpair : pair d s i = pair (f i) (sibling f i) i :=
        hinj (Or.inr (List.mem_cons_self ..)) (Or.inl (mem_nodes_pair hi))
          (by rw [hparent, node_pair_sibling])
      obtain ⟨hd, hs⟩ := pair_injective hpair
      exact ⟨hd, by rw [siblings, hs, hss]⟩

/-- The root determines the leaves, when `node` is injective on the pairs of the two trees. -/
theorem root_injective {k : ℕ} {f g : ℕ → D}
    (hinj : Set.InjOn (uncurry node) (nodes node k f ∪ nodes node k g))
    (h : root node k f = root node k g) : ∀ i < 2 ^ k, f i = g i := by
  induction k generalizing f g with
  | zero =>
    intro i hi
    obtain rfl : i = 0 := by omega
    exact h
  | succ k ih =>
    intro i hi
    have hi' : i / 2 < 2 ^ k := by rw [Nat.pow_succ] at hi; omega
    have hparent : parents node f (i / 2) = parents node g (i / 2) :=
      ih (hinj.mono (Set.union_subset_union (fun q hq => Or.inr hq) fun q hq => Or.inr hq)) h _ hi'
    have hpair : pair (f i) (sibling f i) i = pair (g i) (sibling g i) i :=
      hinj (Or.inl (mem_nodes_pair hi)) (Or.inr (mem_nodes_pair hi))
        (by rw [node_pair_sibling, node_pair_sibling, hparent])
    exact (pair_injective hpair).1

/-- Two paths from one position to one digest are equal, when `node` is injective on the pairs of
both. -/
theorem climb_injective {d d' : D} {ss ss' : List D} {i : ℕ}
    (hinj : Set.InjOn (uncurry node)
      ({q | q ∈ pathNodes node d ss i} ∪ {q | q ∈ pathNodes node d' ss' i}))
    (hlen : ss.length = ss'.length) (h : climb node d ss i = climb node d' ss' i) :
    d = d' ∧ ss = ss' := by
  induction ss generalizing d d' ss' i with
  | nil =>
    obtain rfl := List.length_eq_zero_iff.mp hlen.symm
    exact ⟨h, rfl⟩
  | cons s ss ih =>
    cases ss' with
    | nil => cases hlen
    | cons s' ss' =>
      have habove := hinj.mono (Set.union_subset_union
        (fun _ hq => List.mem_cons_of_mem (pair d s i) hq)
        fun _ hq => List.mem_cons_of_mem (pair d' s' i) hq)
      obtain ⟨hparent, hss⟩ := ih habove (Nat.succ.inj hlen) h
      have hpair : pair d s i = pair d' s' i :=
        hinj (Or.inl (List.mem_cons_self ..)) (Or.inr (List.mem_cons_self ..)) hparent
      obtain ⟨hd, hs⟩ := pair_injective hpair
      exact ⟨hd, by rw [hs, hss]⟩

/-! ### Properties of every digest -/

theorem nodes_forall {p : D → Prop} (hnode : ∀ a b, p (node a b)) {k : ℕ} {f : ℕ → D}
    (hf : ∀ i, p (f i)) : ∀ q ∈ nodes node k f, p q.1 ∧ p q.2 := by
  induction k generalizing f with
  | zero =>
    intro q hq
    exact hq.elim
  | succ k ih =>
    rintro q (⟨i, -, rfl⟩ | hq)
    · exact ⟨hf _, hf _⟩
    · exact ih (fun i => hnode _ _) q hq

theorem siblings_forall {p : D → Prop} (hnode : ∀ a b, p (node a b)) {k : ℕ} {f : ℕ → D} {i : ℕ}
    (hf : ∀ i, p (f i)) : ∀ s ∈ siblings node k f i, p s := by
  induction k generalizing f i with
  | zero => exact fun s hs => nomatch hs
  | succ k ih =>
    intro s hs
    rcases List.mem_cons.mp hs with rfl | hs
    · unfold sibling
      split
      · exact hf _
      · exact hf _
    · exact ih (fun i => hnode _ _) s hs

theorem pathNodes_forall {p : D → Prop} (hnode : ∀ a b, p (node a b)) {d : D} {ss : List D} {i : ℕ}
    (hd : p d) (hss : ∀ s ∈ ss, p s) : ∀ q ∈ pathNodes node d ss i, p q.1 ∧ p q.2 := by
  induction ss generalizing d i with
  | nil => simp [pathNodes]
  | cons s ss ih =>
    intro q hq
    rcases List.mem_cons.mp hq with rfl | hq
    · have hs := hss s (List.mem_cons_self ..)
      unfold pair
      split
      · exact ⟨hs, hd⟩
      · exact ⟨hd, hs⟩
    · exact ih (hnode _ _) (fun s hs => hss s (List.mem_cons_of_mem _ hs)) q hq

/-! ### Constant trees -/

/-- The digest at height `k` of a tree whose leaves are all `d`. -/
def level (node : D → D → D) (d : D) (k : ℕ) : D := (fun x => node x x)^[k] d

theorem root_const (k : ℕ) (d : D) : root node k (fun _ => d) = level node d k := by
  induction k generalizing d with
  | zero => rfl
  | succ k ih => exact ih (node d d)

theorem siblings_const (k : ℕ) (d : D) (i : ℕ) :
    siblings node k (fun _ => d) i = (List.range k).map (level node d) := by
  induction k generalizing d i with
  | zero => rfl
  | succ k ih =>
    have hsibling : sibling (fun _ => d) i = d := by
      unfold sibling
      split <;> rfl
    rw [siblings, hsibling, List.range_succ_eq_map, List.map_cons, List.map_map]
    exact congrArg (List.cons d) (ih (node d d) (i / 2))

theorem nodes_const (k : ℕ) (d : D) :
    nodes node k (fun _ => d) ⊆
      {q | q ∈ (List.range k).map fun i => (level node d i, level node d i)} := by
  induction k generalizing d with
  | zero => exact Set.empty_subset _
  | succ k ih =>
    rintro q (⟨i, -, rfl⟩ | hq)
    · exact List.mem_map.mpr ⟨0, List.mem_range.mpr (Nat.succ_pos k), rfl⟩
    · obtain ⟨i, hi, rfl⟩ := List.mem_map.mp (ih (node d d) hq)
      have hi' := List.mem_range.mp hi
      exact List.mem_map.mpr ⟨i + 1, List.mem_range.mpr (by omega), rfl⟩

end MerkleTree
