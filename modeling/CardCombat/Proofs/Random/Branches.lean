import CardCombat.Proofs.Random.Weights
import CardCombat.Proofs.Resolution.Ensures
import CardCombat.Resolve.Dispatch

/-!
# Branches and moves that are drawn by weight

An effect that chooses between branches carries out one with a positive weight, and an enemy makes a
move with a positive weight. Nothing is chosen only where there is nothing to choose, and then
nothing is drawn either; otherwise it takes a single word to choose, whatever the weights are.

## Main definitions

* `Resolution.Branches` -- what becomes of a choice between branches.

## Main results

* `Draw.weighted_eq_none_iff`, `Draw.run_weighted` -- when something is chosen, and what is drawn.
* `Resolution.branches_randomChoice` -- the branch that is carried out.
* `EnemyTemplate.nextMove_eq_none_iff` -- when an enemy has no next move.
* `chosen_by_weight` -- all choices by weight.
-/

namespace CardCombat

namespace Draw

variable {weights : List Float32} {weight : Float32} {rng : Rng} {i : Nat}

/-- **Nothing is chosen** only if no weight is positive. -/
theorem weighted_eq_none_iff :
    ((weighted weights).run rng).1 = none ↔ ∀ weight ∈ weights, ¬0 < weight := by
  have hsettles := settles_weighted weights rng
  revert hsettles
  cases ((weighted weights).run rng).1 with
  | none => exact fun hnone => iff_of_true rfl hnone
  | some i =>
      rintro ⟨weight, hfound, hpos⟩
      exact iff_of_false nofun fun hnone => hnone weight (List.mem_of_getElem? hfound) hpos

/-- Whatever is chosen has a positive weight. -/
theorem pos_of_weighted (h : ((weighted weights).run rng).1 = some i) :
    ∃ weight, weights[i]? = some weight ∧ 0 < weight := by
  have hsettles := settles_weighted weights rng
  rw [h] at hsettles
  exact hsettles

/-- Nothing is drawn where there is nothing to choose. -/
theorem run_weighted_of_none (h : ∀ weight ∈ weights, ¬0 < weight) :
    (weighted weights).run rng = (none, rng) := by
  have hnone : weights.filter (0 < ·) = [] :=
    List.filter_eq_nil_iff.mpr fun weight hmem => by simpa using h weight hmem
  unfold weighted
  dsimp only
  rw [hnone, List.foldl_nil, if_neg zero_not_pos]
  rfl

/-- A choice takes one word. -/
theorem run_weighted (hmem : weight ∈ weights) (hpos : 0 < weight) :
    ∃ i, (weighted weights).run rng = (some i, (word.run rng).2) := by
  have hchosen : ((weighted weights).run rng).1 ≠ none := fun hnone =>
    weighted_eq_none_iff.mp hnone weight hmem hpos
  have hword : ((weighted weights).run rng).2 = (word.run rng).2 := by
    unfold weighted
    rw [if_pos (pos_total hmem hpos)]
    rfl
  obtain ⟨i, hi⟩ := Option.ne_none_iff_exists'.mp hchosen
  exact ⟨i, Prod.ext hi hword⟩

end Draw

/-! ## Branches -/

namespace Resolution

variable {nested : List Effect → Context → Resolution Unit} {rules : Rules} {ctx : Context}
  {choices : List Branch} {s : Scene}

/-- What becomes of a choice between branches: one that has a positive weight is carried out, a
level deeper and after a word was read, or there is none and nothing happens. -/
inductive Branches (nested : List Effect → Context → Resolution Unit) (ctx : Context)
    (choices : List Branch) (s : Scene) : Except Fault (Unit × Scene) → Prop
  | idle (h : ∀ choice ∈ choices, ¬0 < choice.weight) : Branches nested ctx choices s (.ok ((), s))
  | taken {choice : Branch} (hmem : choice ∈ choices) (hpos : 0 < choice.weight) :
      Branches nested ctx choices s
        ((do nested choice.effects (← ctx.deeper) : Resolution Unit).run
          { s with rng := (Draw.word.run s.rng).2 })

/-- A choice between branches is a choice between their weights. -/
theorem run_randomChoice : (dispatch rules nested ctx (.randomChoice choices)).run s =
    (match ((Draw.weighted (choices.map (·.weight))).run s.rng).1.bind (choices[·]?) with
      | none => pure ()
      | some choice => do nested choice.effects (← ctx.deeper) : Resolution Unit).run
        { s with rng := ((Draw.weighted (choices.map (·.weight))).run s.rng).2 } := rfl

/-- **A branch without a positive weight is never carried out.** -/
theorem branches_randomChoice : Branches nested ctx choices s
    ((dispatch rules nested ctx (.randomChoice choices)).run s) := by
  rw [run_randomChoice]
  by_cases hsome : ∃ choice ∈ choices, 0 < choice.weight
  · obtain ⟨offered, hoffered, hpositive⟩ := hsome
    obtain ⟨i, hrun⟩ := @Draw.run_weighted _ _ s.rng
      (List.mem_map_of_mem hoffered) hpositive
    obtain ⟨weight, hfound, hpos⟩ := Draw.pos_of_weighted (congrArg Prod.fst hrun)
    rw [List.getElem?_map, Option.map_eq_some_iff] at hfound
    obtain ⟨choice, hchoice, rfl⟩ := hfound
    rw [hrun, Option.bind_some, hchoice]
    exact .taken (List.mem_of_getElem? hchoice) hpos
  · have hnone : ∀ choice ∈ choices, ¬0 < choice.weight := fun choice hmem hpos =>
      hsome ⟨choice, hmem, hpos⟩
    rw [Draw.run_weighted_of_none (List.forall_mem_map.mpr hnone)]
    exact .idle hnone

end Resolution

/-! ## Moves -/

namespace EnemyTemplate

variable {template : EnemyTemplate} {last : Option Nat} {rng : Rng} {i : Nat}

theorem offers_iff_mem : (∃ i, template.Offers i) ↔ ∃ move ∈ template.moves, 0 < move.weight := by
  unfold Offers
  constructor
  · rintro ⟨i, move, hfound, hpos⟩
    exact ⟨move, List.mem_of_getElem? hfound, hpos⟩
  · rintro ⟨move, hmem, hpos⟩
    obtain ⟨i, hfound⟩ := List.getElem?_of_mem hmem
    exact ⟨i, move, hfound, hpos⟩

/-- **An enemy has no next move** only if none of its moves has a positive weight. -/
theorem nextMove_eq_none_iff :
    ((template.nextMove last).run rng).1 = none ↔ ∀ move ∈ template.moves, ¬0 < move.weight := by
  have hfollows := template.follows_nextMove last rng
  have hnone : (∀ i, ¬template.Offers i) ↔ ∀ move ∈ template.moves, ¬0 < move.weight := by
    simpa using not_congr offers_iff_mem
  rw [← hnone]
  revert hfollows
  cases ((template.nextMove last).run rng).1 with
  | none => exact fun hidle => iff_of_true rfl hidle
  | some i => exact fun hmoves => iff_of_false nofun fun hidle => hidle i hmoves.1

/-- A move is not made again if there is another one. -/
theorem nextMove_ne_last {last j : Nat} (hj : j ≠ last) (hoffers : template.Offers j) :
    ((template.nextMove (some last)).run rng).1 ≠ some last := by
  have hfollows := template.follows_nextMove (some last) rng
  intro hsame
  rw [hsame] at hfollows
  exact hfollows.2 j hj hoffers rfl

end EnemyTemplate

/-! ## All choices -/

/-- **Whatever is chosen by weight has a positive weight**, and something is chosen wherever
something can be: of weights, of the branches of an effect, and of the moves of an enemy, which does
not make its last move again if it has another one. -/
theorem chosen_by_weight :
    (∀ (weights : List Float32) (rng : Rng),
      (((Draw.weighted weights).run rng).1 = none ↔ ∀ weight ∈ weights, ¬0 < weight) ∧
        ∀ i, ((Draw.weighted weights).run rng).1 = some i →
          ∃ weight, weights[i]? = some weight ∧ 0 < weight) ∧
      (∀ (rules : Rules) (nested : List Effect → Context → Resolution Unit) (ctx : Context)
          (choices : List Branch) (s : Scene), Resolution.Branches nested ctx choices s
        ((Resolution.dispatch rules nested ctx (.randomChoice choices)).run s)) ∧
      ∀ (template : EnemyTemplate) (last : Option Nat) (rng : Rng),
        (((template.nextMove last).run rng).1 = none ↔
          ∀ move ∈ template.moves, ¬0 < move.weight) ∧
        (∀ i, ((template.nextMove last).run rng).1 = some i → template.Offers i) ∧
        ∀ l j, last = some l → j ≠ l → template.Offers j →
          ((template.nextMove last).run rng).1 ≠ some l := by
  refine ⟨fun weights rng => ⟨Draw.weighted_eq_none_iff, fun i => Draw.pos_of_weighted⟩,
    fun rules nested ctx choices s => Resolution.branches_randomChoice, fun template last rng =>
      ⟨EnemyTemplate.nextMove_eq_none_iff, fun i hchosen => ?_, ?_⟩⟩
  · have hfollows := template.follows_nextMove last rng
    rw [hchosen] at hfollows
    exact hfollows.1
  · rintro l j rfl hj hoffers
    exact EnemyTemplate.nextMove_ne_last hj hoffers

end CardCombat
