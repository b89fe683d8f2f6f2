import CardCombat.Proofs.Random.Draws
import CardCombat.Proofs.Resolution.Prevails

/-!
# Nothing changes in silence

Effects report what they do. If no event has come of effects, at any depth, then nothing has come of
them but random numbers that were drawn and numbers of cards that were given out, provided that
nobody in the combat can be taken anything from in silence.

A hit is told of as soon as it lands, and so is a death; whatever they bring about comes after that.
With the draw pile it is the other way round: cards are shuffled and drawn first and told of when
that is done, so only a whole draw is candid, and none of its parts.

## Main definitions

* `Grows` -- no event is taken back.

## Main results

* `Resolution.candid_carries` -- effects of every kind are candid, if nested ones are.
* `Resolution.carryOut_candid` -- effects at any depth are candid.
-/

namespace CardCombat

/-! ## Events that stay -/

/-- No event was taken back. -/
def Grows (s t : Scene) : Prop := s.combat.events.size ≤ t.combat.events.size

namespace Grows

variable {rules : Rules} {s t : Scene}

theorem flow : Resolution.Flow Grows :=
  ⟨fun _ => Nat.le_refl _, fun h h' => Nat.le_trans h h'⟩

theorem of_spares (h : Spares s t) : Grows s t := by
  obtain ⟨told, htold, -⟩ := h.events
  have hlength := congrArg List.length htold
  rw [List.length_append, Array.length_toList, Array.length_toList] at hlength
  unfold Grows
  omega

theorem report (h : Grows s t) (event : Event) : Grows s (t.report event) :=
  (Candid.of_report h).grows

theorem of_setCombatant (id : CombatantId) (combatant : Combatant) :
    Grows s (s.setCombatant id combatant) :=
  Nat.le_of_eq (congrArg Array.size (s.events_setCombatant id combatant).symm)

theorem of_blow (h : Blow rules s t) : Grows s t := by
  cases h with
  | damaged h =>
      cases h with
      | mk => exact (of_setCombatant _ _).report _
  | setHealth | executed => exact (of_setCombatant _ _).report _
  | died => exact (flow.refl s).report _
  | counted | acted | buried => exact flow.refl s

theorem prevails : Prevails rules Effect.Any Grows where
  flow := flow
  step h := of_spares h.spares
  blow := of_blow
  opens h := of_spares h.spares
  closes h := of_spares h.spares

end Grows

namespace Resolution

variable {rules : Rules} {nested : List Effect → Context → Resolution Unit} {s t : Scene}
  {ctx : Context}

/-! ## The draw pile -/

/-- A draw pile that is empty after it was shuffled was empty before. -/
theorem eq_of_shuffle {piles shuffled : Piles} {rng rng' : Rng}
    (h : (piles.shuffle .drawPile).run rng = (shuffled, rng')) (hn : shuffled.drawPile = []) :
    shuffled = piles := by
  obtain ⟨rfl, -⟩ := Prod.mk.inj h
  have hnone : ((Draw.shuffle piles.drawPile).run rng).1 = [] := hn
  have hempty : piles.drawPile = [] := by
    have hperm : ((Draw.shuffle piles.drawPile).run rng).1.Perm piles.drawPile :=
      Draw.shuffle_perm _
    exact List.nil_perm.mp (hnone ▸ hperm)
  show { piles with drawPile := ((Draw.shuffle piles.drawPile).run rng).1 } = piles
  rw [hnone, ← hempty]

/-- What comes of the discard pile when it is shuffled into the draw pile: nothing, or cards to
draw. -/
theorem reshuffled_of_run {moved : Nat} (h : reshuffle.run s = .ok (moved, t)) :
    moved = 0 ∧ Unmoved s t ∨
      moved ≠ 0 ∧ t.combat.piles.drawPile ≠ [] ∧ t.combat.events = s.combat.events := by
  obtain ⟨piles, rng, hrun, rfl⟩ := run_reshuffle h
  unfold Piles.reshuffle at hrun
  split at hrun
  case isTrue hempty =>
    obtain ⟨hsame, rfl⟩ := Prod.mk.inj hrun
    obtain ⟨rfl, rfl⟩ := Prod.mk.inj hsame
    exact .inl ⟨rfl, _, _, _, rfl⟩
  case isFalse hcards =>
    obtain ⟨hmerged, -⟩ := Prod.mk.inj hrun
    obtain ⟨rfl, rfl⟩ := Prod.mk.inj hmerged
    have hlength : s.combat.piles.discardPile.length ≠ 0 := by simpa using hcards
    refine .inr ⟨hlength, fun hnone => ?_, rfl⟩
    have hmerged := congrArg Piles.drawPile (eq_of_shuffle rfl hnone)
    have hnone : s.combat.piles.drawPile ++ s.combat.piles.discardPile = [] :=
      hmerged.symm.trans hnone
    exact hlength (List.length_eq_zero_iff.mpr (List.append_eq_nil_iff.mp hnone).2)

theorem refill_candid : Ensures Candid refill := by
  refine Ensures.combat Candid.flow fun combat => Ensures.onlyIf Candid.flow ⟨fun {s u t} h => ?_⟩
  obtain ⟨moved, v, hmoved, h⟩ := run_bind_iff.mp h
  rcases reshuffled_of_run hmoved with ⟨rfl, hunmoved⟩ | ⟨hne, -, hevents⟩
  · obtain ⟨-, rfl⟩ := run_pure_iff.mp h
    exact .of_unmoved hunmoved
  · rw [onlyIf, if_pos (bne_iff_ne.mpr hne)] at h
    obtain rfl := run_report_iff.mp h
    exact .of_report (Nat.le_of_eq (congrArg Array.size hevents.symm))

/-- Where no card is drawn nothing is hidden. -/
theorem candid_of_drawCard (h : (drawCard rules).run s = .ok (false, t)) : Candid s t := by
  obtain ⟨_, _, hcombat, h⟩ := run_bind_iff.mp h
  obtain ⟨rfl, rfl⟩ := run_combat_iff.mp hcombat
  split at h
  · obtain ⟨-, rfl⟩ := run_pure_iff.mp h
    exact .refl s
  · obtain ⟨_, v, hrefill, h⟩ := run_bind_iff.mp h
    obtain ⟨found, w, hfound, h⟩ := run_bind_iff.mp h
    cases found with
    | none =>
        obtain ⟨-, rfl⟩ := run_popDraw?_none hfound
        obtain ⟨-, rfl⟩ := run_pure_iff.mp h
        exact refill_candid hrefill
    | some card =>
        obtain ⟨_, _, _, h⟩ := run_bind_iff.mp h
        exact absurd (run_pure_iff.mp h).1 nofun

theorem drawCards_grows (count : Nat) : Ensures Grows (upTo count (drawCard rules)) :=
  Ensures.upTo Grows.flow (drawCard_course.mono fun _ _ h => .of_spares (@Course.spares rules
    Effect.Any _ _ h)) count

/-- **Cards are drawn with a word.** -/
theorem drawCards_candid (count : Nat) : Ensures Candid (drawCards rules count) := by
  refine ⟨fun {s u t} h => ?_⟩
  obtain ⟨drawn, v, hdrawn, h⟩ := run_bind_iff.mp h
  have hgrows := drawCards_grows count hdrawn
  split at h
  case isTrue =>
    obtain rfl := run_report_iff.mp h
    exact .of_report hgrows
  case isFalse hnone =>
    obtain ⟨-, rfl⟩ := run_pure_iff.mp h
    obtain rfl : drawn = 0 := by simpa using hnone
    -- no card was drawn, so the first draw was the last one and found none
    cases count with
    | zero =>
        obtain ⟨-, rfl⟩ := run_pure_iff.mp hdrawn
        exact .refl s
    | succ count =>
        obtain ⟨again, w, hfirst, hdrawn⟩ := run_bind_iff.mp hdrawn
        cases again with
        | true =>
            obtain ⟨_, _, _, hdrawn⟩ := run_bind_iff.mp hdrawn
            exact absurd (run_pure_iff.mp hdrawn).1 (Nat.succ_ne_zero _)
        | false =>
            obtain ⟨-, rfl⟩ := run_pure_iff.mp hdrawn
            exact candid_of_drawCard hfirst

/-- What rearranging does to the draw pile leaves cards in it, or nothing has changed. -/
theorem rearranged_of_run {includeDiscard : Bool} {u : Unit}
    (h : (rearrange includeDiscard).run s = .ok (u, t)) :
    t.combat.events = s.combat.events ∧ (t.combat.piles.drawPile = [] → Unmoved s t) := by
  unfold rearrange at h
  split at h
  · obtain ⟨moved, h⟩ := run_discard_iff.mp h
    rcases reshuffled_of_run h with ⟨-, hunmoved⟩ | ⟨-, hne, hevents⟩
    · obtain ⟨_, _, _, rfl⟩ := hunmoved
      exact ⟨rfl, fun _ => ⟨_, _, _, rfl⟩⟩
    · exact ⟨hevents, fun hnone => absurd hnone hne⟩
  · simp only [run_bind_iff, run_combat_iff, run_draw_iff, run_setPiles_iff] at h
    obtain ⟨_, _, ⟨rfl, rfl⟩, piles, _, ⟨hrun, rfl⟩, rfl⟩ := h
    refine ⟨rfl, fun hnone => ?_⟩
    obtain rfl := eq_of_shuffle (Prod.ext hrun rfl) hnone
    exact ⟨_, _, _, rfl⟩

/-- **Cards are shuffled with a word.** -/
theorem shuffle_candid (includeDiscard : Bool) : Ensures Candid (shuffle includeDiscard) := by
  refine ⟨fun {s u t} h => ?_⟩
  obtain ⟨_, v, hrearrange, h⟩ := run_bind_iff.mp h
  obtain ⟨hevents, hunmoved⟩ := rearranged_of_run hrearrange
  obtain ⟨_, _, hcombat, h⟩ := run_bind_iff.mp h
  obtain ⟨rfl, rfl⟩ := run_combat_iff.mp hcombat
  rcases run_onlyIf_iff.mp h with ⟨-, h⟩ | ⟨hnone, rfl⟩
  · obtain rfl := run_report_iff.mp h
    exact .of_report (Nat.le_of_eq (congrArg Array.size hevents.symm))
  · refine .of_unmoved (hunmoved ?_)
    exact List.length_eq_zero_iff.mp (by simpa [Piles.size, Piles.get] using hnone)

/-! ## What effects are made of -/

/-- Once an event was reported, whatever comes after it adds to that. -/
theorem candid_of_report {u : Scene} {event : Event} (h : Grows s u)
    (hafter : Grows (u.report event) t) : Candid s t :=
  .of_lt (Nat.lt_of_lt_of_le (Scene.size_events_lt h) hafter)

theorem candid_of_damages {source target : CombatantId} {outcome : DamageReport} {u : Scene}
    (h : Damages source target outcome s u) (hafter : Grows u t) : Candid s t := by
  cases h with
  | mk => exact candid_of_report (.of_setCombatant _ _) hafter

section Nested

variable (hnested : ∀ effects ctx, Ensures Candid (nested effects ctx))

include hnested

theorem bears_grows : Bears rules Effect.Any nested Grows :=
  Grows.prevails.bears fun effects ctx => (hnested effects ctx).mono fun _ _ h => h.grows

/-- **A hit lands with a word.** -/
theorem hit_candid (target : CombatantId) (hit : Hit) :
    Ensures Candid (resolveHit rules nested ctx target hit) := by
  refine ⟨fun {s outcome t} h => ?_⟩
  obtain ⟨_, _, hcombat, h⟩ := run_bind_iff.mp h
  obtain ⟨rfl, rfl⟩ := run_combat_iff.mp hcombat
  split at h
  case h_1 =>
    obtain ⟨-, rfl⟩ := run_pure_iff.mp h
    exact .refl s
  case h_2 defender hdefender =>
    obtain ⟨hc, halive⟩ := Option.filter_eq_some_iff.mp hdefender
    obtain ⟨⟨combo, amount⟩, _, hcombo, h⟩ := run_bind_iff.mp h
    obtain ⟨-, rfl⟩ := run_lift_iff.mp hcombo
    obtain ⟨_, u, hconsume, h⟩ := run_bind_iff.mp h
    have hsu : Candid s u := by
      cases combo with
      | none =>
          obtain ⟨-, rfl⟩ := run_pure_iff.mp hconsume
          exact .refl s
      | some combo => exact (@consume_course rules Effect.Any _ _ _ _ _ _ hc halive hconsume).candid
    obtain ⟨found, v, hdeal, h⟩ := run_bind_iff.mp h
    rcases dealt_of_run hdeal with ⟨rfl, -, rfl⟩ | ⟨landed, rfl, hdamages⟩
    · obtain ⟨-, rfl⟩ := run_pure_iff.mp h
      exact hsu
    · obtain ⟨outcome, _, hafter, h⟩ := run_bind_iff.mp h
      obtain ⟨-, rfl⟩ := run_pure_iff.mp h
      -- the hit was told of as it landed, so all that came after it need only keep the events
      exact Candid.flow.trans hsu
        (candid_of_damages hdamages ((bears_grows hnested).aftermath _ _ _ _ hafter))

theorem hurt_candid (target : CombatantId) (amount : Int) (element : Element) (piercing : Bool) :
    Ensures Candid (hurt rules nested ctx target amount element piercing) := by
  refine ⟨fun {s u t} h => ?_⟩
  obtain ⟨found, v, hdeal, h⟩ := run_bind_iff.mp h
  rcases dealt_of_run hdeal with ⟨rfl, -, rfl⟩ | ⟨outcome, rfl, hdamages⟩
  · obtain ⟨-, rfl⟩ := run_pure_iff.mp h
    exact .refl s
  · exact candid_of_damages hdamages ((bears_grows hnested).afterDamage _ _ h)

theorem setHealth_candid (amount : Value) (aim : Aim) :
    Ensures Candid (setHealth rules nested amount aim ctx) := by
  refine Ensures.amount Candid.flow fun value =>
    Ensures.forTargets Candid.flow Candid.drew fun {id c s a t} hc h => ?_
  obtain ⟨after, _, hlift, h⟩ := run_bind_iff.mp h
  obtain ⟨-, rfl⟩ := run_lift_iff.mp hlift
  obtain ⟨_, _, hput, h⟩ := run_bind_iff.mp h
  obtain rfl := run_setCombatant_iff.mp hput
  obtain ⟨_, _, hreport, h⟩ := run_bind_iff.mp h
  obtain rfl := run_report_iff.mp hreport
  split at h
  · exact candid_of_report (.of_setCombatant _ _) ((bears_grows hnested).die h)
  · obtain ⟨-, rfl⟩ := run_pure_iff.mp h
    exact candid_of_report (.of_setCombatant _ _) (Grows.flow.refl _)

theorem execute_candid (threshold : Int) (aim : Aim) :
    Ensures Candid (execute rules nested threshold aim ctx) := by
  refine Ensures.forTargets Candid.flow Candid.drew fun {id c s a t} hc h => ?_
  obtain ⟨percent, _, hpercent, h⟩ := run_bind_iff.mp h
  obtain ⟨-, rfl⟩ := run_lift_iff.mp hpercent
  split at h
  · obtain ⟨after, _, hlift, h⟩ := run_bind_iff.mp h
    obtain ⟨-, rfl⟩ := run_lift_iff.mp hlift
    obtain ⟨_, _, hput, h⟩ := run_bind_iff.mp h
    obtain rfl := run_setCombatant_iff.mp hput
    obtain ⟨_, _, hreport, h⟩ := run_bind_iff.mp h
    obtain rfl := run_report_iff.mp hreport
    exact candid_of_report (.of_setCombatant _ _) ((bears_grows hnested).die h)
  · obtain ⟨-, rfl⟩ := run_pure_iff.mp h
    exact .refl s

/-- **A card is played off the deck with a word.** -/
theorem playTop_candid : Ensures Candid (playTop rules nested ctx) := by
  refine ⟨fun {s played t} h => ?_⟩
  unfold playTop at h
  obtain ⟨_, _, hcombat, h⟩ := run_bind_iff.mp h
  obtain ⟨rfl, rfl⟩ := run_combat_iff.mp hcombat
  obtain ⟨_, u, hrefill, h⟩ := run_bind_iff.mp h
  have hrefilled : Grows s u ∧ (u.combat.piles.drawPile = [] → Candid s u) := by
    rcases run_onlyIf_iff.mp hrefill with ⟨-, hrefill⟩ | ⟨-, rfl⟩
    · obtain ⟨hevents, hunmoved⟩ := @rearranged_of_run _ _ true _ hrefill
      exact ⟨Nat.le_of_eq (congrArg Array.size hevents.symm),
        fun hnone => .of_unmoved (hunmoved hnone)⟩
    · exact ⟨Grows.flow.refl s, fun _ => .refl s⟩
  obtain ⟨hgrows, hcandid⟩ := hrefilled
  obtain ⟨found, v, hfound, h⟩ := run_bind_iff.mp h
  cases found with
  | none =>
      obtain ⟨hnone, rfl⟩ := run_popDraw?_none hfound
      obtain ⟨-, rfl⟩ := run_pure_iff.mp h
      exact hcandid hnone
  | some card =>
      obtain ⟨piles, hpop, rfl⟩ := run_popDraw?_some hfound
      dsimp only at h
      split at h
      case h_1 definition _ =>
        obtain ⟨_, _, hplay, h⟩ := run_bind_iff.mp h
        obtain ⟨-, rfl⟩ := run_pure_iff.mp h
        obtain ⟨rng, inner, w, hin, hend⟩ := run_playOffDeck hplay
        have hcloses := Grows.of_spares (run_endPlay hend).spares
        exact candid_of_report hgrows (Grows.flow.trans (hnested _ _ hin).grows hcloses)
      case h_2 =>
        simp only [run_bind_iff, run_ontoDiscard_iff, run_report_iff, run_pure_iff] at h
        obtain ⟨_, _, rfl, _, _, rfl, -, rfl⟩ := h
        exact .of_report hgrows

/-- **Effects of every kind are candid**, if those that are nested in them are. -/
theorem candid_carries : Carries rules Effect.Any nested Candid where
  flow := Candid.flow
  step _ h := h
  drawCards := drawCards_candid
  shuffle := shuffle_candid
  inside := hnested
  hit _ target hit := hit_candid hnested target hit
  hurt _ target amount element piercing := hurt_candid hnested target amount element piercing
  setHealth amount aim _ := setHealth_candid hnested amount aim
  execute threshold aim _ := execute_candid hnested threshold aim
  playTop _ := playTop_candid hnested

end Nested

/-- **Effects at any depth are candid.** -/
theorem carryOut_candid (effects : List Effect) (ctx : Context) :
    Ensures Candid (carryOut rules effects ctx) :=
  within_ensures (fun _ _ => Ensures.pure Candid.flow ()) (fun _ => candid_carries) _ effects ctx

end Resolution

end CardCombat
