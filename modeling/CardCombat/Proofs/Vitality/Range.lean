import CardCombat.Proofs.Vitality.Everyone

/-!
# The numbers of everyone stay in their range

From the start of a combat on, through calls of every kind, nobody has negative health, block or
barrier or a greatest health below one. Nobody has more health than the greatest either, unless some
effect of the content heals beyond it.

## Main definitions

* `Content.Overheals` -- some effect of the content heals beyond the greatest health.

## Main results

* `Rules.vital_of_reaches` -- the range of all numbers.
-/

namespace CardCombat

/-- The effect heals beyond the greatest health, itself or by an effect inside it. -/
inductive Effect.Overheals : Effect → Prop
  | heal {value target} : Overheals (.heal value target true)
  | inside {effect inner} (h : Effect.Inside inner effect) (hi : Overheals inner) :
      Overheals effect

/-- Some effect of the content heals beyond the greatest health. -/
def Content.Overheals (content : Content) : Prop :=
  ∃ effects, content.Holds effects ∧ ∃ effect ∈ effects, effect.Overheals

/-- Content permits no healing beyond the greatest health, unless some effect of it does that. -/
theorem Content.permits_overheals (content : Content) :
    content.Permits fun effect => ¬content.Overheals → ¬effect.Overheals where
  inside hinside hmay hnone hover := hmay hnone (.inside hinside hover)
  holds hholds effect hmem hnone hover := hnone ⟨_, hholds, effect, hmem, hover⟩

namespace Rules

/-- **The numbers of everyone stay in their range** from the start of a combat on: health, block and
barrier are not negative, the greatest health is positive, and if nothing heals beyond it health
stays below it. -/
theorem vital_of_reaches {rules : Rules} {run started run' : Run} {enemies : List String}
    (hstart : rules.perform run (.start enemies) = .ok (none, started))
    (h : rules.Reaches started run') :
    run'.InCombat (Combat.Everyone (Combatant.Vital ¬rules.content.Overheals)) := by
  have hp := rules.content.permits_overheals
  have hwear {before after : Combatant}
      (hw : Wear (fun effect => ¬rules.content.Overheals → ¬effect.Overheals) before after)
      (hb : before.Vital ¬rules.content.Overheals) : after.Vital ¬rules.content.Overheals :=
    hw.vital (fun hnone value target hmay => hmay hnone .heal) hb
  have hnew {combatant : Combatant} (hv : combatant.Vital True) :
      combatant.Vital ¬rules.content.Overheals :=
    ⟨hv.health, hv.maxHealth, hv.block, hv.barrier, fun _ => hv.bounded trivial⟩
  have hstarted := everyone_of_accepted hp hwear hnew hstart fun hother => absurd rfl (hother _)
  intro combat hcombat
  exact (everyone_of_reaches hp hwear hnew h hstarted combat hcombat).imp fun _ hfit => hfit.1

end Rules

/-! ## A tonic -/

/-- A card that heals and gives block, and an enemy that does nothing. -/
def tonicRules : Rules where
  content :=
    { cards := Catalog.empty.put "tonic"
        { id := "tonic", name := "Tonic", theme := .skill, cost := .fixed 1
          effects := [.heal (.fixed 5) .self false, .block (.fixed 3) .self] }
      powers := .empty
      enemies := Catalog.empty.put "dummy"
        { id := "dummy", name := "Dummy", maxHealth := 20, moves := [] } }

/-- A run with that card. -/
def tonicRun : Run where
  hero := ""
  health := 8
  maxHealth := 10
  deck := [{ uid := ⟨1⟩, definition := "tonic" }]
  rng := .ofSeed 0

theorem tonic_bounded : ¬tonicRules.content.Overheals := by
  rintro ⟨effects, hholds, effect, hmem, hover⟩
  cases hholds with
  | @card definition h upgraded =>
      obtain rfl := List.mem_singleton.mp h
      have heffects : effect ∈ [Effect.heal (.fixed 5) .self false, .block (.fixed 3) .self] := by
        cases upgraded <;> exact hmem
      rcases List.mem_pair.mp heffects with rfl | rfl
      · cases hover with
        | inside hinside => exact nomatch hinside
      · cases hover with
        | inside hinside => exact nomatch hinside
  | power h => exact absurd h List.not_mem_nil
  | relic h => exact absurd h List.not_mem_nil
  | move h hm =>
      obtain rfl := List.mem_singleton.mp h
      exact absurd hm List.not_mem_nil
  | ability h => exact absurd h List.not_mem_nil

/-- The run after a combat has begun. -/
def tonicStarted : Run := tonicRules.after tonicRun (.start ["dummy"])

theorem tonic_starts :
    tonicRules.perform tonicRun (.start ["dummy"]) = .ok (none, tonicStarted) :=
  Rules.perform_eq_of_answer (by decide +kernel)

theorem tonic_played :
    tonicRules.perform tonicStarted (.play ⟨1⟩ none) =
      .ok (none, tonicRules.after tonicStarted (.play ⟨1⟩ none)) :=
  Rules.perform_eq_of_answer (by decide +kernel)

namespace Rules

/-- Nobody is healed beyond the greatest health by the tonic. -/
theorem vital_of_tonic :
    (tonicRules.after tonicStarted (.play ⟨1⟩ none)).InCombat
      (Combat.Everyone (Combatant.Vital True)) := by
  intro combat hcombat
  have hall := vital_of_reaches tonic_starts (.call .refl tonic_played) combat hcombat
  exact hall.imp fun combatant hvital => ⟨hvital.health, hvital.maxHealth, hvital.block,
    hvital.barrier, fun _ => hvital.bounded tonic_bounded⟩

end Rules

end CardCombat
