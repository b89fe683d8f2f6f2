import CardCombat.Proofs.Resolution.Cards
import CardCombat.Resolve.Replay

/-!
# Plays off the deck

A card that is played off the deck comes into play, its effects are carried out, and the play is
closed. Everything else about it is a course of plain steps.

## Main results

* `Resolution.run_endPlay` -- a play that is over is closed.
* `Resolution.playTop_of_run` -- what comes of the top card of the draw pile.
-/

namespace CardCombat.Resolution

variable {rules : Rules} {may : Effect → Prop} {nested : List Effect → Context → Resolution Unit}
  {R : Scene → Scene → Prop} {s t : Scene} {u : Unit}

theorem run_putAwayPlayed {played : ActiveCard}
    (h : (putAwayPlayed rules played).run s = .ok (u, t)) :
    s.putAway played.card (routeOf rules played) = t := by
  unfold putAwayPlayed at h
  obtain ⟨_, _, hcombat, h⟩ := run_bind_iff.mp h
  obtain ⟨rfl, rfl⟩ := run_combat_iff.mp hcombat
  generalize routeOf rules played = route at h ⊢
  cases route with
  | discard =>
      simp only [run_bind_iff, run_setPiles_iff, run_record_iff] at h
      obtain ⟨_, _, rfl, h⟩ := h
      exact h
  | exhaust =>
      simp only [run_bind_iff, run_setPiles_iff, run_record_iff, run_report_iff] at h
      obtain ⟨_, _, rfl, _, _, rfl, h⟩ := h
      exact h
  | banished | elsewhere => exact (run_pure_iff.mp h).2

/-- When a play is over it is closed. -/
theorem run_endPlay {uid : CardUid} (h : (endPlay rules uid).run s = .ok (u, t)) :
    Closes rules uid s t := by
  unfold endPlay at h
  obtain ⟨_, _, hcombat, h⟩ := run_bind_iff.mp h
  obtain ⟨rfl, rfl⟩ := run_combat_iff.mp hcombat
  split at h
  case h_1 hnone =>
    obtain ⟨-, rfl⟩ := run_pure_iff.mp h
    exact .nothing hnone
  case h_2 played combat htake =>
    obtain ⟨_, _, hset, h⟩ := run_bind_iff.mp h
    obtain rfl := run_modifyCombat_iff.mp hset
    exact run_putAwayPlayed h ▸ .mk htake

/-- The play of a card off the deck: it is shown and comes into play, its effects are carried out,
and it is over. -/
theorem run_playOffDeck {card : Card} {definition : CardDefinition} {ctx : Context}
    (h : (playOffDeck rules nested card definition ctx).run s = .ok (u, t)) :
    ∃ rng inner w,
      (let shown : Scene := ({ s with rng } : Scene).report (.replay card.uid)
       (nested (definition.effectsWhen card.upgraded) inner).run
         { shown with combat := shown.combat.pushInPlay card } = .ok ((), w)) ∧
        (endPlay rules card.uid).run w = .ok ((), t) := by
  unfold playOffDeck at h
  simp only [run_bind_iff, run_combat_iff, run_draw_iff, run_report_iff, run_modifyCombat_iff,
    run_lift_iff] at h
  obtain ⟨_, _, ⟨rfl, rfl⟩, target, _, ⟨-, rfl⟩, _, _, rfl, _, _, rfl, inner, _, ⟨-, rfl⟩, _, w,
    hin, hend⟩ := h
  exact ⟨_, _, w, hin, hend⟩

/-- The play of a card off the deck: it is opened, its effects are carried out, and it is closed. -/
theorem playOffDeck_of_run (hnested : ∀ effects ctx, Ensures R (nested effects ctx)) {card : Card}
    {piles : Piles} (hpop : s.combat.piles.popDraw? = some (card, piles))
    {definition : CardDefinition} {ctx : Context}
    (h : (playOffDeck rules nested card definition ctx).run (s.withPiles piles) = .ok (u, t)) :
    ∃ v w, Opens card s v ∧ R v w ∧ Closes rules card.uid w t := by
  obtain ⟨_, _, w, hin, hend⟩ := run_playOffDeck h
  exact ⟨_, w, .mk hpop, hnested _ _ hin, run_endPlay hend⟩

/-- **What comes of the top card of the draw pile**: nothing but plain steps, or a play. -/
theorem playTop_of_run (hnested : ∀ effects ctx, Ensures R (nested effects ctx)) {ctx : Context}
    {played : Bool} (h : (playTop rules nested ctx).run s = .ok (played, t)) :
    Course rules may s t ∨
      ∃ card u v w, Course rules may s u ∧ Opens card u v ∧ R v w ∧ Closes rules card.uid w t := by
  unfold playTop at h
  obtain ⟨_, _, hcombat, h⟩ := run_bind_iff.mp h
  obtain ⟨rfl, rfl⟩ := run_combat_iff.mp hcombat
  obtain ⟨_, u, hrefill, h⟩ := run_bind_iff.mp h
  have hcourse : Course rules may s u :=
    Ensures.onlyIf Course.flow (Ensures.discard reshuffle_course) hrefill
  obtain ⟨found, _, hfound, h⟩ := run_bind_iff.mp h
  cases found with
  | none =>
      obtain ⟨-, rfl⟩ := run_popDraw?_none hfound
      obtain ⟨-, rfl⟩ := run_pure_iff.mp h
      exact .inl hcourse
  | some card =>
      obtain ⟨piles, hpop, rfl⟩ := run_popDraw?_some hfound
      dsimp only at h
      split at h
      case h_1 definition _ =>
        obtain ⟨_, _, hplay, h⟩ := run_bind_iff.mp h
        obtain ⟨-, rfl⟩ := run_pure_iff.mp h
        obtain ⟨v, w, hopen, hin, hclose⟩ := playOffDeck_of_run hnested hpop hplay
        exact .inr ⟨card, u, v, w, hcourse, hopen, hin, hclose⟩
      case h_2 =>
        simp only [run_bind_iff, run_ontoDiscard_iff, run_report_iff, run_pure_iff] at h
        obtain ⟨_, _, rfl, _, _, rfl, -, rfl⟩ := h
        exact .inl (hcourse.tail (.milled hpop (.inr rfl)))

end CardCombat.Resolution
