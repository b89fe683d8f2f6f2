import CardCombat.Random.Choice
import Mathlib.Data.List.Perm.Subperm

/-!
# What draws promise

A bounded number is below its bound, whatever the generator is; a random rearrangement holds the
same elements as what was rearranged; and a sample takes its elements from different positions,
whichever of the ways of sampling is used.

## Main definitions

* `Draw.Positions` -- so many different positions below a bound.

## Main results

* `Draw.below_lt` -- the bound of a bounded number.
* `Draw.shuffle_perm` -- a random rearrangement is a rearrangement.
* `Draw.positions_sampleIndices`, `Draw.subperm_sample` -- what a sample consists of.
-/

namespace CardCombat.Draw

variable {α β : Type} {rng : Rng}

theorem run_bind (x : Draw α) (f : α → Draw β) (rng : Rng) :
    (x >>= f).run rng = (f (x.run rng).1).run (x.run rng).2 := rfl

theorem run_pure (a : α) (rng : Rng) : (pure a : Draw α).run rng = (a, rng) := rfl

/-! ## Bounded numbers -/

theorem raw_lt (width : Width) : ((raw width).run rng).1 < 1 <<< width.bits := by
  cases width with
  | single => exact UInt32.toNat_lt _
  | double => exact UInt64.toNat_lt _

/-- A number that is kept is below the bound, and so is the one that stands for none. -/
theorem attempt_lt {width : Width} {bound : Nat} (hb : 0 < bound) (attempts : Nat) :
    ((attempt width bound attempts).run rng).1 < bound := by
  induction attempts generalizing rng with
  | zero => exact hb
  | succ attempts ih =>
      unfold attempt
      rw [run_bind]
      dsimp only
      split
      · rw [run_pure]
        have hraw : ((raw width).run rng).1 < 1 <<< width.bits := raw_lt width
        have hpos : 0 < 1 <<< width.bits := Nat.one_shiftLeft _ ▸ Nat.two_pow_pos _
        rw [Nat.div_lt_iff_lt_mul hpos, Nat.mul_comm bound]
        exact Nat.mul_lt_mul_of_pos_right hraw hb
      · exact ih

theorem below_lt {width : Width} {bound : Nat} (hb : 0 < bound) :
    ((below width bound).run rng).1 < bound := attempt_lt hb _

/-- There is an index if the size is positive, and it is below the size. -/
theorem exists_index {size : Nat} (hs : 0 < size) :
    ∃ i, ((index size).run rng).1 = some i ∧ i < size := by
  unfold index
  rw [if_neg (Nat.ne_of_gt hs)]
  exact ⟨((below .double size).run rng).1, rfl, below_lt hs⟩

theorem index_getD_lt {size : Nat} (hs : 0 < size) : ((index size).run rng).1.getD 0 < size := by
  obtain ⟨i, hi, hlt⟩ := @exists_index rng size hs
  rwa [hi]

/-! ## Rearrangements -/

theorem swapIfInBounds_perm (xs : Array α) (i j : Nat) : (xs.swapIfInBounds i j).Perm xs := by
  rw [Array.swapIfInBounds_def]
  split
  · split
    · exact Array.swap_perm _ _
    · exact .refl xs
  · exact .refl xs

theorem shuffleFrom_perm (i : Nat) (xs : Array α) :
    ((shuffleFrom i xs).run rng).1.Perm xs := by
  induction i generalizing xs rng with
  | zero => exact .refl xs
  | succ i ih =>
      unfold shuffleFrom
      rw [run_bind]
      exact (ih _).trans (swapIfInBounds_perm _ _ _)

/-- A random rearrangement holds the same elements. -/
theorem shuffle_perm (xs : List α) : ((shuffle xs).run rng).1.Perm xs :=
  (shuffleFrom_perm _ _).toList

theorem perm_of_shuffle {xs ys : List α} {rng' : Rng} (h : (shuffle xs).run rng = (ys, rng')) :
    ys.Perm xs := by
  have hperm := @shuffle_perm α rng xs
  rwa [h] at hperm

/-! ## Choices -/

/-- A position is below the bound. -/
theorem place_lt {bound : Nat} (hb : 0 < bound) : ((place bound).run rng).1 < bound := below_lt hb

/-- What is chosen is one of those among which it was chosen. -/
theorem mem_of_choose {xs : List α} {x : α} (h : ((choose xs).run rng).1 = some x) : x ∈ xs := by
  unfold choose at h
  split at h
  · exact absurd h nofun
  · rw [run_bind] at h
    exact List.mem_of_getElem? h

/-! ## Samples -/

theorem shuffleFront_perm (count i : Nat) (xs : Array α) :
    ((shuffleFront count i xs).run rng).1.Perm xs := by
  induction count generalizing i xs rng with
  | zero => exact .refl xs
  | succ count ih =>
      unfold shuffleFront
      rw [run_bind]
      exact (ih _ _).trans (swapIfInBounds_perm _ _ _)

/-- So many different positions below a bound. -/
structure Positions (bound count : Nat) (indices : List Nat) : Prop where
  nodup : indices.Nodup
  below : ∀ i ∈ indices, i < bound
  length : indices.length = count

namespace Positions

variable {bound count : Nat} {indices indices' : List Nat}

theorem perm (h : Positions bound count indices) (hp : indices'.Perm indices) :
    Positions bound count indices' :=
  ⟨hp.nodup_iff.mpr h.nodup, fun i hmem => h.below i (hp.mem_iff.mp hmem), hp.length_eq ▸ h.length⟩

/-- One more position, the bound itself or a new one below it. -/
theorem cons {i : Nat} (h : Positions bound count indices) (hi : i ≤ bound) (hnew : i ∉ indices) :
    Positions (bound + 1) (count + 1) (i :: indices) where
  nodup := List.nodup_cons.mpr ⟨hnew, h.nodup⟩
  below j hmem := by
    rcases List.mem_cons.mp hmem with rfl | hmem
    · omega
    · have := h.below j hmem
      omega
  length := by rw [List.length_cons, h.length]

/-- Another position is collected: the one drawn, or the bound in place of one that is there. -/
theorem collectOne (h : Positions bound count indices) (keepOrder : Bool) :
    Positions (bound + 1) (count + 1) ((collectOne keepOrder indices bound).run rng).1 := by
  unfold Draw.collectOne
  rw [run_bind]
  have ht : ((place (bound + 1)).run rng).1 < bound + 1 := place_lt (Nat.succ_pos bound)
  generalize ((place (bound + 1)).run rng).1 = t at ht
  have hbound : bound ∉ indices := fun hmem => Nat.lt_irrefl _ (h.below bound hmem)
  by_cases hmem : t ∈ indices
  · rw [if_pos hmem]
    cases keepOrder with
    | true =>
        have hplace := Nat.le_of_lt (List.idxOf_lt_length_of_mem hmem)
        exact (h.cons (Nat.le_refl _) hbound).perm (List.perm_insertIdx _ _ hplace)
    | false => exact (h.cons (Nat.le_refl _) hbound).perm (List.perm_append_singleton _ _)
  · rw [if_neg hmem]
    exact (h.cons (Nat.le_of_lt_succ ht) hmem).perm (List.perm_append_singleton _ _)

/-- Positions are collected one after the other. -/
theorem collected (h : Positions bound count indices) (keepOrder : Bool) (amount : Nat) :
    Positions (bound + amount) (count + amount)
      (((List.range' bound amount).foldlM (Draw.collectOne keepOrder) indices).run rng).1 := by
  induction amount generalizing bound count indices rng with
  | zero => exact h
  | succ amount ih =>
      rw [List.range'_succ, List.foldlM_cons, run_bind, ← Nat.add_assoc, ← Nat.add_assoc,
        Nat.add_right_comm bound, Nat.add_right_comm count]
      exact ih (h.collectOne keepOrder)

end Positions

theorem positions_collect {size amount : Nat} (h : amount ≤ size) (keepOrder : Bool) :
    Positions size amount ((collect keepOrder size amount).run rng).1 := by
  have hnone : Positions (size - amount) 0 [] := ⟨List.nodup_nil, by simp, rfl⟩
  have hall := @Positions.collected rng _ _ _ hnone keepOrder amount
  rwa [Nat.sub_add_cancel h, Nat.zero_add] at hall

/-- **Sampled positions** are different, below the size, and as many as were asked for. -/
theorem positions_sampleIndices {size amount : Nat} (h : amount ≤ size) :
    Positions size amount ((sampleIndices size amount).run rng).1 := by
  unfold sampleIndices
  split
  · rw [run_bind]
    have hp := (@shuffleFront_perm _ rng amount 0 (Array.range size)).toList
    rw [Array.toList_range] at hp
    have hsub := List.take_sublist amount
      ((shuffleFront amount 0 (Array.range size)).run rng).1.toList
    refine ⟨(hp.nodup_iff.mpr List.nodup_range).sublist hsub, fun i hmem => ?_, ?_⟩
    · exact List.mem_range.mp (hp.mem_iff.mp (hsub.subset hmem))
    · show (List.take _ _).length = amount
      rw [List.length_take, hp.length_eq, List.length_range]
      exact Nat.min_eq_left h
  · split
    · exact positions_collect h true
    · rw [run_bind]
      exact (positions_collect h false).perm (shuffle_perm _)

theorem filterMap_getElem?_range (xs : List α) :
    (List.range xs.length).filterMap (xs[·]?) = xs := by
  induction xs with
  | nil => rfl
  | cons x xs ih =>
      rw [List.length_cons, List.range_succ_eq_map]
      simp [List.filterMap_map, ih]

/-- Elements at different positions: as many as there are positions, and none more often than it is
there. -/
theorem filterMap_getElem? {xs : List α} {count : Nat} {indices : List Nat}
    (h : Positions xs.length count indices) :
    (indices.filterMap (xs[·]?)).length = count ∧
      (indices.filterMap (xs[·]?)).Subperm xs := by
  constructor
  · have hsome : ∀ i ∈ indices, (xs[i]?).isSome = true := fun i hmem => by
      rw [List.getElem?_eq_getElem (h.below i hmem)]
      rfl
    rw [List.length_filterMap_eq_countP, List.countP_eq_length.mpr hsome, h.length]
  · have hsubset : indices ⊆ List.range xs.length :=
      fun i hmem => List.mem_range.mpr (h.below i hmem)
    obtain ⟨ordered, hperm, hsub⟩ := h.nodup.subperm hsubset
    have hfound := hsub.filterMap (xs[·]?)
    rw [filterMap_getElem?_range] at hfound
    exact ⟨_, hperm.filterMap _, hfound⟩

theorem run_sample (xs : List α) (amount : Nat) : ((sample xs amount).run rng).1 =
    ((sampleIndices xs.length (min amount xs.length)).run rng).1.filterMap (xs[·]?) := by
  unfold sample
  rw [run_bind]
  show List.filterMap (xs.toArray[·]?) _ = _
  simp only [List.getElem?_toArray]

/-- **A sample** has as many elements as were asked for, or as there are, and none more often than
it is there. -/
theorem subperm_sample (xs : List α) (amount : Nat) :
    ((sample xs amount).run rng).1.length = min amount xs.length ∧
      ((sample xs amount).run rng).1.Subperm xs := by
  rw [run_sample]
  exact filterMap_getElem? (positions_sampleIndices (Nat.min_le_right _ _))

/-- What is sampled is in the collection. -/
theorem mem_of_sample {xs : List α} {amount : Nat} {x : α}
    (h : x ∈ ((sample xs amount).run rng).1) : x ∈ xs := (subperm_sample xs amount).2.subset h

/-- What is sampled is different if all are. -/
theorem sample_spec (xs : List α) (amount : Nat) :
    ((sample xs amount).run rng).1.length = min amount xs.length ∧
      (xs.Nodup → ((sample xs amount).run rng).1.Nodup) := by
  obtain ⟨hlength, ordered, hperm, hsub⟩ := @subperm_sample _ rng xs amount
  exact ⟨hlength, fun hxs => hperm.nodup_iff.mp (hxs.sublist hsub)⟩

end CardCombat.Draw
