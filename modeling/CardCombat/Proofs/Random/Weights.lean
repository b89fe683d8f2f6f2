import CardCombat.Content.Template
import CardCombat.Proofs.Random.Draws
import CardCombat.Proofs.Random.Positive

/-!
# Choices by weight

A choice by weight takes an index with a positive weight, whatever number was drawn, and it takes
none only if no weight is positive. So an enemy template chooses one of the moves that it offers,
and not the last one if it offers another.

## Main definitions

* `EnemyTemplate.Offers` -- a template has a move with a positive weight at an index.
* `EnemyTemplate.Follows` -- what may come after the last move of an enemy.

## Main results

* `Draw.settles_weighted` -- what a choice by weight takes.
* `EnemyTemplate.follows_nextMove` -- the next move of a template.
-/

namespace CardCombat

namespace Draw

variable {rng : Rng} {weights : List Float32}

/-- What a choice by weight has settled for: an index with a positive weight, or nothing if there is
none. -/
def Settles (weights : List Float32) : Option Nat → Prop
  | some i => ∃ weight, weights[i]? = some weight ∧ 0 < weight
  | none => ∀ weight ∈ weights, ¬0 < weight

/-- A walk along the weights ends at a positive one, or with the last one before. -/
theorem settleWeight_spec (i : Nat) (threshold : Float32) (last : Option Nat) :
    (∃ j weight, settleWeight weights i threshold last = some (i + j) ∧
      weights[j]? = some weight ∧ 0 < weight) ∨
        settleWeight weights i threshold last = last ∧ ∀ weight ∈ weights, ¬0 < weight := by
  induction weights generalizing i threshold last with
  | nil => exact .inr ⟨rfl, fun _ hmem => absurd hmem List.not_mem_nil⟩
  | cons weight weights ih =>
      unfold settleWeight
      by_cases hpos : 0 < weight
      · rw [if_pos hpos]
        left
        dsimp only
        by_cases hleft : threshold - weight ≤ 0
        · rw [if_pos hleft]
          exact ⟨0, weight, rfl, rfl, hpos⟩
        · rw [if_neg hleft]
          rcases ih (i + 1) (threshold - weight) (some i) with ⟨j, found, h, hfound⟩ | ⟨h, -⟩
          · exact ⟨j + 1, found, h.trans (congrArg some (by omega)), hfound⟩
          · exact ⟨0, weight, h, rfl, hpos⟩
      · rw [if_neg hpos]
        rcases ih (i + 1) threshold last with ⟨j, found, h, hfound⟩ | ⟨h, hnone⟩
        · exact .inl ⟨j + 1, found, h.trans (congrArg some (by omega)), hfound⟩
        · exact .inr ⟨h, List.forall_mem_cons.mpr ⟨hpos, hnone⟩⟩

/-- The positive weights add up to something positive, if there are any. -/
theorem pos_foldl_add {total : Float32} (htotal : 0 < total)
    (hpos : ∀ weight ∈ weights, 0 < weight) :
    0 < weights.foldl (· + ·) total := by
  induction weights generalizing total with
  | nil => exact htotal
  | cons weight weights ih =>
      obtain ⟨hfirst, hrest⟩ := List.forall_mem_cons.mp hpos
      exact ih (pos_add htotal hfirst) hrest

theorem pos_total {weight : Float32} (hmem : weight ∈ weights) (hpos : 0 < weight) :
    0 < (weights.filter (0 < ·)).foldl (· + ·) 0 := by
  have hall : ∀ weight ∈ weights.filter (0 < ·), 0 < weight := fun weight hmem => by
    simpa using (List.mem_filter.mp hmem).2
  have hmem : weight ∈ weights.filter (0 < ·) := List.mem_filter.mpr ⟨hmem, by simpa using hpos⟩
  revert hall hmem
  generalize weights.filter (0 < ·) = positive
  intro hall hmem
  cases positive with
  | nil => exact absurd hmem List.not_mem_nil
  | cons first rest =>
      obtain ⟨hfirst, hrest⟩ := List.forall_mem_cons.mp hall
      rw [List.foldl_cons]
      exact pos_foldl_add (pos_zero_add hfirst) hrest

/-- **A choice by weight** takes an index with a positive weight if there is one. -/
theorem settles_weighted (weights : List Float32) (rng : Rng) :
    Settles weights ((weighted weights).run rng).1 := by
  have hsettled (threshold : Float32) :
      Settles weights (settleWeight weights 0 threshold none) := by
    rcases @settleWeight_spec weights 0 threshold none with ⟨j, weight, h, hfound⟩ | ⟨h, hnone⟩
    · rw [h, Nat.zero_add]
      exact ⟨weight, hfound⟩
    · rw [h]
      exact hnone
  have hnone (h : ¬0 < (weights.filter (0 < ·)).foldl (· + ·) 0) : Settles weights none :=
    fun weight hmem hpos => h (pos_total hmem hpos)
  unfold weighted
  dsimp only
  revert hnone
  generalize (weights.filter (0 < ·)).foldl (· + ·) 0 = total
  intro hnone
  by_cases htotal : 0 < total
  · rw [if_pos htotal]
    exact hsettled ((unit.run rng).1 * total)
  · rw [if_neg htotal]
    exact hnone htotal

end Draw

/-! ## Moves -/

namespace EnemyTemplate

variable {template : EnemyTemplate} {last : Option Nat} {i : Nat} {rng : Rng}

/-- The template has a move with a positive weight at an index. -/
def Offers (template : EnemyTemplate) (i : Nat) : Prop :=
  ∃ move, template.moves[i]? = some move ∧ 0 < move.weight

/-- The move that may come after the move `last`: one that the template offers, and not the last one
again if it offers another. Nothing comes only if it offers nothing. -/
def Follows (template : EnemyTemplate) (last : Option Nat) : Option Nat → Prop
  | some i => template.Offers i ∧ ∀ j, j ≠ i → template.Offers j → last ≠ some i
  | none => ∀ i, ¬template.Offers i

/-- The weights of the moves, without any that are negative or no numbers. -/
def weights (template : EnemyTemplate) : List Float32 :=
  template.moves.map fun move => if 0 < move.weight then move.weight else 0

theorem offers_iff :
    template.Offers i ↔ ∃ weight, template.weights[i]? = some weight ∧ 0 < weight := by
  unfold Offers weights
  rw [List.getElem?_map]
  cases template.moves[i]? with
  | none => exact iff_of_false (fun ⟨_, h, _⟩ => absurd h nofun) (fun ⟨_, h, _⟩ => absurd h nofun)
  | some move =>
      rw [Option.map_some]
      by_cases hpos : 0 < move.weight
      · rw [if_pos hpos]
        exact iff_of_true ⟨move, rfl, hpos⟩ ⟨move.weight, rfl, hpos⟩
      · rw [if_neg hpos]
        refine iff_of_false (fun ⟨found, h, hfound⟩ => ?_) (fun ⟨weight, h, hweight⟩ => ?_)
        · exact hpos (Option.some.inj h ▸ hfound)
        · exact zero_not_pos (Option.some.inj h ▸ hweight)

theorem hasAlternative_iff {last : Nat} :
    hasAlternative template.weights last = true ↔ ∃ i, i ≠ last ∧ template.Offers i := by
  unfold hasAlternative
  simp only [List.any_eq_true, Prod.exists, List.mem_zipIdx_iff_getElem?, Bool.and_eq_true,
    bne_iff_ne, decide_eq_true_iff, offers_iff]
  constructor
  · rintro ⟨weight, i, hfound, hi, hpos⟩
    exact ⟨i, hi, weight, hfound, hpos⟩
  · rintro ⟨i, hi, weight, hfound, hpos⟩
    exact ⟨weight, i, hfound, hi, hpos⟩

/-- **The next move** of a template follows the last one, whatever is drawn. -/
theorem follows_nextMove (template : EnemyTemplate) (last : Option Nat) (rng : Rng) :
    template.Follows last ((template.nextMove last).run rng).1 := by
  have hsettles : Draw.Settles (template.moveWeights last) ((template.nextMove last).run rng).1 :=
    Draw.settles_weighted _ rng
  revert hsettles
  generalize ((template.nextMove last).run rng).1 = chosen
  intro hsettles
  -- the last move is left out if there is another one
  by_cases hother : ∃ l, last = some l ∧ hasAlternative template.weights l = true
  · obtain ⟨l, rfl, halternative⟩ := hother
    have hweights : template.moveWeights (some l) = template.weights.set l 0 := if_pos halternative
    rw [hweights] at hsettles
    cases chosen with
    | some i =>
        obtain ⟨weight, hfound, hpos⟩ := hsettles
        have hi : l ≠ i := by
          rintro rfl
          obtain ⟨hlt, hfound⟩ := List.getElem?_eq_some_iff.mp hfound
          rw [List.getElem_set_self] at hfound
          exact zero_not_pos (hfound ▸ hpos)
        rw [List.getElem?_set_ne hi] at hfound
        exact ⟨offers_iff.mpr ⟨weight, hfound, hpos⟩, fun _ _ _ h => hi (Option.some.inj h)⟩
    | none =>
        obtain ⟨i, hi, hoffers⟩ := hasAlternative_iff.mp halternative
        obtain ⟨weight, hfound, hpos⟩ := offers_iff.mp hoffers
        rw [← List.getElem?_set_ne (Ne.symm hi)] at hfound
        exact absurd hpos (hsettles weight (List.mem_of_getElem? hfound))
  · have hweights : template.moveWeights last = template.weights := by
      cases last with
      | none => rfl
      | some l => exact if_neg fun halternative => hother ⟨l, rfl, halternative⟩
    rw [hweights] at hsettles
    cases chosen with
    | some i =>
        refine ⟨offers_iff.mpr hsettles, fun j hj hoffers hlast => hother ⟨i, hlast, ?_⟩⟩
        exact hasAlternative_iff.mpr ⟨j, hj, hoffers⟩
    | none =>
        intro i hoffers
        obtain ⟨weight, hfound, hpos⟩ := offers_iff.mp hoffers
        exact hsettles weight (List.mem_of_getElem? hfound) hpos

end EnemyTemplate

end CardCombat
