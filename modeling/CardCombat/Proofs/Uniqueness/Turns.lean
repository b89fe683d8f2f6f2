import CardCombat.Proofs.Action.Upkeep
import CardCombat.Proofs.Uniqueness.Effects

/-!
# Turns and plays keep the ledger

What happens at the boundaries of turns has next to nothing to do with cards, and a card that is
played out of the hand comes into play and leaves it again. So everything that calls set going keeps
the ledger of cards, with one exception: when a discovery is answered, the card that was chosen
comes into a pile with a number that it got when it was offered.

## Main results

* `Upkeep.keeps`, `Enters.ledger` -- the boundaries of turns and plays.
* `keeps_governs` -- the ledger is kept in turns and plays.
* `Resolution.discovered_of_run` -- the answer to a discovery.
-/

namespace CardCombat

variable {rules : Rules} {s t : Scene} {card : Card}

/-! ## The boundaries of turns and plays -/

/-- **What happens at the boundaries of turns keeps the ledger.** -/
theorem Upkeep.keeps (h : Upkeep rules s t) : Keeps s t := by
  cases h with
  | decayed | eased | bared | moved => exact .of_setCombatant _ _
  | @declared id before enemy template chosen rng =>
      have hdrawn : Keeps s { s with rng } := .of_aside ⟨rfl, rfl⟩
      exact Keeps.flow.trans hdrawn (.of_setCombatant _ _)
  | released uid => exact .of_piles fun u => Piles.count_modify fun _ => id
  | told | turned | charged | discharged => exact .of_aside ⟨rfl, rfl⟩

theorem Pays.aside {cost : Int} (h : Pays cost s t) : Aside s t := by
  cases h with
  | nothing | energy => exact ⟨rfl, rfl⟩

/-- A card that has left the hand and was paid for is in play. -/
theorem Enters.ledger {cost : Int} (h : Enters card cost s t) :
    Ledger s t [] ∧ t.combat.playing = s.combat.playing ++ [card.uid] := by
  cases h with
  | mk htake hpaid =>
      obtain ⟨htable, hchronicle⟩ := hpaid.aside
      obtain ⟨hpiles, htable⟩ := Prod.mk.inj htable
      obtain ⟨hplay, htable⟩ := Prod.mk.inj htable
      obtain ⟨hnext, hpending⟩ := Prod.mk.inj htable
      refine enter_ledger hpiles ?_ hnext hpending hchronicle fun u => ?_
      · exact congrArg (· ++ [({ card } : ActiveCard)]) hplay
      · exact (Piles.count_of_takeFrom? htake).2

/-- **The ledger is kept in turns and plays.** -/
theorem keeps_governs : Governs rules Effect.Any Keeps where
  flow := Keeps.flow
  step := Step.keeps
  upkeep := Upkeep.keeps
  buried _ := .of_bury
  carryOut {_} _ {ctx} _ := Resolution.carryOut_keeps _ ctx
  happen _ _ _ _ := Resolution.happen_keeps
  act _ _ _ h := Keeps.flow.trans (Keeps.flow.refl _).report ((Resolution.carryOut_keeps _ _).rel h)
  played henter hin hclose :=
    Keeps.flow.trans (.of_play henter.ledger hin hclose) (.of_aside ⟨rfl, rfl⟩)

namespace Resolution

/-! ## What calls set going -/

theorem openCombat_keeps : Ensures Keeps (openCombat rules) :=
  keeps_governs.openCombat fun _ => .of_aside ⟨rfl, rfl⟩

theorem passTurn_keeps : Ensures Keeps (passTurn rules) :=
  keeps_governs.passTurn (fun _ => .of_aside ⟨rfl, rfl⟩) fun _ => .of_aside ⟨rfl, rfl⟩

theorem play_keeps (play : Play) (target : Option CombatantId) :
    Ensures Keeps (Resolution.play rules play target) :=
  keeps_governs.play (fun _ _ _ => trivial) target

theorem useAbility_keeps (ability : HeroAbility) : Ensures Keeps (useAbility rules ability) :=
  keeps_governs.useAbility fun _ _ => trivial

/-! ## Answers to selections -/

/-- A selection that is being answered waits no longer. -/
theorem answered_keeps : Keeps s s.forget := by
  have hledger : Ledger s s [] := .refl s
  refine ⟨⟨[], hledger.next, hledger.chronicle, hledger.entry, fun selection h => ?_⟩, rfl⟩
  exact absurd h (by simp [Scene.forget])

theorem settleSelection_keeps {selection : Selection} (hk : ∀ pile, selection.kind ≠ .discover pile)
    (chosen : List CardUid) : Ensures Keeps (settleSelection rules selection chosen) :=
  keeps_governs.settleSelection (fun _ => answered_keeps) (fun pile hkind => absurd hkind (hk pile))
    chosen

/-- **Cards that were discovered come into the piles**, each as often as it was chosen, and nothing
else happens to cards. -/
theorem discovered_of_run {pile : Pile} {cards : List Card} {a : Unit}
    (h : (cards.forM (settleChoice rules (.discover pile))).run s = .ok (a, t)) :
    t.combat.inPlay = s.combat.inPlay ∧ t.combat.nextCardUid = s.combat.nextCardUid ∧
      t.combat.pending = s.combat.pending ∧
        (∃ deeds, Ledger.Idle deeds ∧ t.chronicle.toList = s.chronicle.toList ++ deeds) ∧
          ∀ u, t.combat.piles.count u = s.combat.piles.count u + Piles.countIn u cards := by
  induction cards generalizing s with
  | nil =>
      obtain ⟨-, rfl⟩ := run_pure_iff.mp h
      exact ⟨rfl, rfl, rfl, ⟨[], Ledger.idle_nil, (List.append_nil _).symm⟩, fun u => rfl⟩
  | cons card cards ih =>
      obtain ⟨_, v, hplace, h⟩ := run_bind_iff.mp h
      obtain rfl := run_placeNew_iff.mp hplace
      obtain ⟨hplay, hnext, hpending, ⟨deeds, hidle, hchronicle⟩, hcount⟩ := ih h
      have hlanded := Ledger.idle_landed card.uid (s.landing rules pile)
      refine ⟨hplay, hnext, hpending, ⟨_, hlanded.append hidle, ?_⟩, fun u => ?_⟩
      · rw [hchronicle, ← List.append_assoc]
        exact congrArg (· ++ deeds) Array.toList_push
      have hput := @Piles.count_put s.combat.piles (s.landing rules pile) card u s.rng .bottom
      rw [hcount, Piles.countIn_cons]
      show ((s.combat.piles.put _ card .bottom).run s.rng).1.count u + _ = _
      omega

end Resolution

end CardCombat
