import CardCombat.Proofs.Resolution.Aim
import CardCombat.Proofs.Resolution.Candid
import CardCombat.Proofs.Resolution.Spares
import CardCombat.Resolve.Attack
import CardCombat.Resolve.Power
import CardCombat.Resolve.Resource
import CardCombat.Resolve.Vitality

/-!
# Effects on combatants that harm nobody

The effects that change combatants and resources without a hit and without another effect nested in
them are courses of plain steps, and every step tells of what it changes. Only the status that a hit
leaves behind can come or go without a word of its own.

## Main results

* `Resolution.forTargets_course` -- an effect on everyone who is aimed at, from what it does to one
  living combatant.
* `Resolution.heal_course` and the like -- the effects.
-/

namespace CardCombat

namespace Course

variable {rules : Rules} {may : Effect → Prop}

theorem flow : Resolution.Flow (Course rules may) :=
  ⟨fun _ => .refl, fun h h' => h.trans h'⟩

theorem of_step {s t : Scene} (h : Step rules may s t) : Course rules may s t := .single h

end Course

namespace Resolution

variable {rules : Rules} {may : Effect → Prop} {s t : Scene}

/-! ## Everyone who is aimed at -/

/-- Something is done to living combatants, one after the other. All of them are still alive when
their turn comes. -/
theorem forM_course {ids : List CombatantId} {f : CombatantId → Resolution Unit}
    (hf : ∀ {id s u t}, (s.combat.Numbered → s.combat.isAlive id) → (f id).run s = .ok (u, t) →
      Telling rules may s t) {u : Unit}
    (halive : s.combat.Numbered → ∀ id ∈ ids, s.combat.isAlive id)
    (h : (ids.forM f).run s = .ok (u, t)) : Telling rules may s t := by
  induction ids generalizing s with
  | nil =>
      obtain ⟨-, rfl⟩ := run_pure_iff.mp h
      exact .refl
  | cons id ids ih =>
      obtain ⟨_, v, hfirst, hrest⟩ := run_bind_iff.mp h
      have hsv : Telling rules may s v := hf (fun hn => halive hn id List.mem_cons_self) hfirst
      have hspares : Spares s v := hsv.course.spares
      refine hsv.trans (ih (fun hn other hmem => ?_) hrest)
      rw [hspares.isAlive]
      exact halive (hspares.numbered_iff.mp hn) other (List.mem_cons_of_mem _ hmem)

/-- Something is done to everyone who is aimed at. -/
theorem targets_course {target : Aim} {ctx : Context} {f : CombatantId → Resolution Unit}
    (hf : ∀ {id s u t}, (s.combat.Numbered → s.combat.isAlive id) → (f id).run s = .ok (u, t) →
      Telling rules may s t) : Ensures (Telling rules may) (do (← targets target ctx).forM f) := by
  refine ⟨fun {s u t} h => ?_⟩
  obtain ⟨ids, v, hids, h⟩ := run_bind_iff.mp h
  obtain ⟨rfl, rfl⟩ := run_targets_iff.mp hids
  refine (Telling.drew _).trans (forM_course hf (fun hn id hmem => ?_) h)
  exact Aim.isAlive_of_mem_find hn hmem

theorem forTargets_course {target : Aim} {ctx : Context}
    {act : CombatantId → Combatant → Resolution Unit}
    (hact : ∀ {id c s u t}, s.combat.combatant? id = some c → (s.combat.Numbered → c.isAlive) →
      (act id c).run s = .ok (u, t) → Telling rules may s t) :
    Ensures (Telling rules may) (forTargets target ctx act) := by
  refine targets_course fun {id s u t} halive h => ?_
  obtain ⟨found, v, hfound, h⟩ := run_bind_iff.mp h
  obtain ⟨rfl, rfl⟩ := run_combatant?_iff.mp hfound
  cases hc : s.combat.combatant? id with
  | none =>
      rw [hc] at h
      obtain ⟨-, rfl⟩ := run_pure_iff.mp h
      exact .refl
  | some c =>
      rw [hc] at h
      exact hact hc (fun hn => Combat.isAlive_of_combatant? hc ▸ halive hn) h

/-! ## Health and guards -/

variable {ctx : Context}

/-- If no event has told of something that one tells of, it has not come to pass. -/
theorem not_of_tellIf {p : Prop} [Decidable p] {event : Event}
    (h : (if p then [event] else []) = []) : ¬p :=
  fun hp => absurd ((if_pos hp).symm.trans h) (List.cons_ne_nil _ _)

/-- A combatant is changed, and events may tell of it. -/
theorem altered_course {id : CombatantId} {before after : Combatant} {events : List Event}
    (hc : s.combat.combatant? id = some before) (halive : s.combat.Numbered → before.isAlive)
    (h : Alteration rules may s.combat.Numbered id before after events)
    (ht : (s.setCombatant id after).tell events = t)
    (hkept : before.Snug → events = [] → after = before) : Telling rules may s t :=
  ht ▸ .of_step (.altered hc h) (.altered hc halive hkept)

/-- The block that is given is not negative, and giving it only looks. -/
theorem blockGained_of_run {base gained : Int}
    (h : (blockGained rules base ctx).run s = .ok (gained, t)) : 0 ≤ gained ∧ s = t := by
  obtain ⟨found, _, hfound, h⟩ := run_bind_iff.mp h
  obtain ⟨rfl, rfl⟩ := run_combatant?_iff.mp hfound
  split at h
  · split at h
    · obtain ⟨rfl, rfl⟩ := run_pure_iff.mp h
      exact ⟨Int.le_max_right base 0, rfl⟩
    · obtain ⟨hgiven, rfl⟩ := run_lift_iff.mp h
      exact ⟨Combatant.underModifiers_nonneg hgiven, rfl⟩
  · obtain ⟨rfl, rfl⟩ := run_pure_iff.mp h
    exact ⟨Int.le_max_right base 0, rfl⟩

theorem barrier_course (amount : Value) (target : Aim) :
    Ensures (Telling rules may) (barrier amount target ctx) := by
  apply Ensures.amount Telling.flow
  intro base
  dsimp only
  split
  case isTrue hg =>
    refine forTargets_course fun hc halive h => ?_
    simp only [run_bind_iff, run_lift_iff, run_setCombatant_iff, run_report_iff] at h
    obtain ⟨block, _, ⟨hadd, rfl⟩, _, _, rfl, h⟩ := h
    have hpos : 0 < max base 0 := by
      have hne : max base 0 ≠ 0 := by simpa using hg
      omega
    exact altered_course hc halive (.barrier hpos hadd) h fun _ => nofun
  case isFalse => exact Ensures.pure Telling.flow ()

theorem heal_course {amount : Value} {target : Aim} {overheal : Bool}
    (hmay : may (.heal amount target overheal)) :
    Ensures (Telling rules may) (heal amount target overheal ctx) := by
  refine Ensures.amount Telling.flow fun _ => forTargets_course fun hc halive h => ?_
  simp only [run_bind_iff, run_lift_iff, run_setCombatant_iff, run_if_report_iff] at h
  obtain ⟨⟨healed, after⟩, _, ⟨hheal, rfl⟩, _, _, rfl, h⟩ := h
  exact altered_course hc halive (.heal (fun ho => ⟨amount, target, ho ▸ hmay⟩) hheal) h
    fun hs hnone => Combatant.eq_of_heal hs hheal (not_of_tellIf hnone)

theorem destroyBlock_course (target : Aim) (includeBarrier : Bool) :
    Ensures (Telling rules may) (destroyBlock target includeBarrier ctx) := by
  refine forTargets_course fun hc halive h => ?_
  cases includeBarrier with
  | true =>
      simp only [if_true, run_bind_iff, run_lift_iff, run_setCombatant_iff,
        run_if_report_iff] at h
      obtain ⟨removed, _, ⟨hadd, rfl⟩, _, _, rfl, h⟩ := h
      exact altered_course hc halive (@Alteration.destroyBlock _ _ _ _ _ true _ hadd) h
        fun hs hnone => @Combatant.eq_of_destroyBlock _ true _ hs hadd (not_of_tellIf hnone)
  | false =>
      simp only [Bool.false_eq_true, if_false, run_bind_iff, run_pure_iff, run_setCombatant_iff,
        run_if_report_iff] at h
      obtain ⟨removed, _, ⟨rfl, rfl⟩, _, _, rfl, h⟩ := h
      exact altered_course hc halive (@Alteration.destroyBlock _ _ _ _ _ false _ rfl) h
        fun hs hnone => @Combatant.eq_of_destroyBlock _ false _ hs rfl (not_of_tellIf hnone)

theorem changeMaxHealth_course (amount : Value) (target : Aim) :
    Ensures (Telling rules may) (changeMaxHealth amount target ctx) := by
  apply Ensures.amount Telling.flow
  intro delta
  split
  case isTrue hd =>
    refine forTargets_course fun hc halive h => ?_
    simp only [run_bind_iff, run_lift_iff, run_setCombatant_iff, run_if_report_iff] at h
    obtain ⟨after, _, ⟨hchange, rfl⟩, _, _, rfl, shown, _, ⟨hshown, rfl⟩, h⟩ := h
    have hne : delta ≠ 0 := bne_iff_ne.mp hd
    refine altered_course hc halive (.maxHealth hne hchange hshown) h fun hs hnone => ?_
    obtain ⟨-, rfl⟩ := Signed.sub_eq_ok_iff.mp hshown
    have hsame : ¬_ ≠ (0 : Int) := fun hne => not_of_tellIf hnone (bne_iff_ne.mpr hne)
    exact Combatant.eq_of_changeMaxHealth hs hne hchange (by omega)
  case isFalse => exact Ensures.pure Telling.flow ()

theorem weakenIntent_course (amount : Value) (target : Aim) :
    Ensures (Telling rules may) (weakenIntent amount target ctx) := by
  apply Ensures.amount Telling.flow
  intro amount
  split
  case isTrue hn =>
    refine forTargets_course fun {id before s u t} hc halive h => ?_
    dsimp only at h
    split at h
    case h_1 enemy intent he hi =>
      simp only [run_bind_iff, run_lift_iff, run_setCombatant_iff, run_report_iff] at h
      obtain ⟨weakened, _, ⟨hadd, rfl⟩, _, _, rfl, h⟩ := h
      have hintent : enemy.intent = some intent := by
        simpa [Combatant.intent, he] using hi
      exact altered_course hc halive (.weaken he hintent hn hadd) h fun _ => nofun
    case h_2 =>
      obtain ⟨-, rfl⟩ := run_pure_iff.mp h
      exact .refl
  case isFalse => exact Ensures.pure Telling.flow ()

/-! ## Powers -/

/-- A power is given to a living combatant, or nothing happens. -/
theorem given_of_run {target : CombatantId} {power : PowerId} {amount : Int}
    {duration : Option Int} {u : Unit}
    (h : (givePower rules target power amount duration).run s = .ok (u, t)) :
    s = t ∨ ∃ before after applied, s.combat.combatant? target = some before ∧
      before.isAlive ∧ rules.content.powers.contains power ∧
        before.applyPower rules.content.powers power amount duration = .ok (applied, after) ∧
          (s.setCombatant target after).tell
            (if applied.isSome then [.powerApplied target power amount]
              else if before.powers.contains power then [.powerRemoved target power]
              else []) = t := by
  obtain ⟨found, _, hfound, h⟩ := run_bind_iff.mp h
  obtain ⟨rfl, rfl⟩ := run_combatant?_iff.mp hfound
  split at h
  case h_1 => exact .inl (run_pure_iff.mp h).2
  case h_2 before hbefore =>
    obtain ⟨hc, hcond⟩ := Option.filter_eq_some_iff.mp hbefore
    obtain ⟨halive, hknown⟩ := Bool.and_eq_true_iff.mp hcond
    simp only [run_bind_iff, run_lift_iff, run_setCombatant_iff] at h
    obtain ⟨⟨applied, after⟩, _, ⟨happly, rfl⟩, _, _, rfl, h⟩ := h
    refine .inr ⟨before, after, applied, hc, halive, hknown, happly, ?_⟩
    dsimp only at h
    split at h
    case isTrue ha =>
      rw [if_pos ha]
      exact run_report_iff.mp h
    case isFalse ha =>
      rw [if_neg ha]
      exact run_if_report_iff.mp h

theorem givePower_course (target : CombatantId) (power : PowerId) (amount : Int)
    (duration : Option Int) :
    Ensures (Telling rules may) (givePower rules target power amount duration) := by
  refine ⟨fun {s u t} h => ?_⟩
  rcases given_of_run h with rfl | ⟨before, after, applied, hc, halive, hknown, happly, ht⟩
  · exact .refl
  · refine altered_course hc (fun _ => halive) (.givePower halive hknown happly) ht
      fun _ hnone => ?_
    cases applied with
    | none => exact Combatant.eq_of_applyPower happly (not_of_tellIf hnone)
    | some applied => exact absurd hnone nofun

/-- A power is taken from a combatant that holds it, or nothing happens. -/
theorem taken_of_run {target : CombatantId} {power : PowerId} {amount : Option Int} {u : Int}
    (h : (takePower rules target power amount).run s = .ok (u, t)) :
    s = t ∨ ∃ before after held left, s.combat.combatant? target = some before ∧
      before.powers.get? power = some held ∧
        (amount.map (min · held.amount)).getD held.amount = u ∧
          before.removePower rules.content.powers power (amount.map fun _ => u) =
            .ok (left, after) ∧
              (s.setCombatant target after).tell (Event.ofTaken target power u left) = t := by
  obtain ⟨found, _, hfound, h⟩ := run_bind_iff.mp h
  obtain ⟨rfl, rfl⟩ := run_combatant?_iff.mp hfound
  split at h
  case h_1 => exact .inl (run_pure_iff.mp h).2
  case h_2 before hc =>
    split at h
    case h_1 => exact .inl (run_pure_iff.mp h).2
    case h_2 held hheld =>
      simp only [run_bind_iff, run_lift_iff, run_setCombatant_iff] at h
      obtain ⟨⟨left, after⟩, _, ⟨hremove, rfl⟩, _, _, rfl, _, _, htold, h⟩ := h
      obtain ⟨rfl, rfl⟩ := run_pure_iff.mp h
      refine .inr ⟨before, after, held, left, hc, hheld, rfl, hremove, ?_⟩
      cases left with
      | none => exact run_report_iff.mp htold
      | some left => exact run_if_report_iff.mp htold

theorem takePower_course {target : CombatantId} {power : PowerId} {amount : Option Int} {u : Int}
    (halive : s.combat.Numbered → s.combat.isAlive target)
    (h : (takePower rules target power amount).run s = .ok (u, t)) : Telling rules may s t := by
  rcases taken_of_run h with rfl | ⟨before, after, held, left, hc, hheld, rfl, hremove, ht⟩
  · exact .refl
  · rw [Combat.isAlive_of_combatant? hc] at halive
    refine altered_course hc halive (.takePower halive hheld rfl hremove) ht fun _ hnone => ?_
    cases left with
    | none => exact absurd hnone nofun
    | some left =>
        have hzero : (amount.map (min · held.amount)).getD held.amount = 0 := by
          by_contra hne
          exact not_of_tellIf hnone (bne_iff_ne.mpr hne)
        rw [hzero] at hremove
        exact Combatant.eq_of_removePower hremove

theorem applyPower_course (power : PowerId) (amount : Value) (target : Aim)
    (duration : Option Int) :
    Ensures (Telling rules may) (applyPower rules power amount target duration ctx) := by
  apply Ensures.amount Telling.flow
  intro amount
  split
  · exact targets_course fun _ h => givePower_course _ power amount duration h
  · exact Ensures.pure Telling.flow ()

theorem looks_amount? (amount : Option Value) : Looks (amount? amount ctx) := by
  cases amount with
  | none => exact ⟨fun h => (run_pure_iff.mp h).2⟩
  | some value =>
      refine ⟨fun {s found t} h => ?_⟩
      obtain ⟨n, v, hn, h⟩ := run_bind_iff.mp h
      exact (run_amount_iff.mp hn).2.trans (run_pure_iff.mp h).2

theorem removePower_course (power : PowerId) (amount : Option Value) (target : Aim) :
    Ensures (Telling rules may) (removePower rules power amount target ctx) := by
  refine Ensures.look Telling.flow (looks_amount? amount) fun amount => targets_course ?_
  intro id s u t halive h
  obtain ⟨taken, h⟩ := run_discard_iff.mp h
  exact takePower_course halive h

/-- Whoever is found first is alive. -/
theorem isAlive_of_targets {target : Aim} {id : CombatantId} {ids : List CombatantId}
    (h : (targets target ctx).run s = .ok (id :: ids, t)) (hn : t.combat.Numbered) :
    t.combat.isAlive id := by
  obtain ⟨hids, rfl⟩ := run_targets_iff.mp h
  exact Aim.isAlive_of_mem_find hn (hids ▸ List.mem_cons_self)

theorem transferPower_course (power : PowerId) (amount : Option Value) (giver receiver : Aim) :
    Ensures (Telling rules may) (transferPower rules power amount giver receiver ctx) := by
  refine Ensures.look Telling.flow (looks_amount? amount) fun amount => ?_
  refine ⟨fun {s u t} h => ?_⟩
  obtain ⟨ids, v, hids, h⟩ := run_bind_iff.mp h
  have hsv : Telling rules may s v := by
    obtain ⟨-, rfl⟩ := run_targets_iff.mp hids
    exact .drew _
  cases ids with
  | nil =>
      obtain ⟨-, rfl⟩ := run_pure_iff.mp h
      exact hsv
  | cons owner others =>
      obtain ⟨found, _, hfound, h⟩ := run_bind_iff.mp h
      obtain ⟨rfl, rfl⟩ := run_combatant?_iff.mp hfound
      dsimp only at h
      split at h
      case h_1 =>
        obtain ⟨-, rfl⟩ := run_pure_iff.mp h
        exact hsv
      case h_2 held hheld =>
        split at h
        case isTrue =>
          obtain ⟨_, w, htake, h⟩ := run_bind_iff.mp h
          obtain ⟨taken, htake⟩ := run_discard_iff.mp htake
          have hvw : Telling rules may v w := takePower_course (isAlive_of_targets hids) htake
          exact (hsv.trans hvw).trans (targets_course (fun _ h => givePower_course _ _ _ _ h) h)
        case isFalse =>
          obtain ⟨-, rfl⟩ := run_pure_iff.mp h
          exact hsv

theorem stealPower_course (power : Option PowerId) (amount : Option Value) (target : Aim) :
    Ensures (Telling rules may) (stealPower rules power amount target ctx) := by
  refine Ensures.look Telling.flow (looks_amount? amount) fun amount => forTargets_course ?_
  intro victim c s u t hc halive h
  obtain ⟨chosen, v, hchosen, h⟩ := run_bind_iff.mp h
  have hsv : Telling rules may s v ∧ v.combat = s.combat := by
    unfold powerToSteal at hchosen
    split at hchosen
    · obtain ⟨-, rfl⟩ := run_pure_iff.mp hchosen
      exact ⟨.refl, rfl⟩
    · obtain ⟨-, rfl⟩ := run_draw_iff.mp hchosen
      exact ⟨.drew _, rfl⟩
  obtain ⟨hsv, hsame⟩ := hsv
  cases chosen with
  | none =>
      obtain ⟨-, rfl⟩ := run_pure_iff.mp h
      exact hsv
  | some power =>
      obtain ⟨taken, w, htake, h⟩ := run_bind_iff.mp h
      have hvw : Telling rules may v w := by
        refine takePower_course (fun hn => ?_) htake
        rw [hsame] at hn ⊢
        exact (Combat.isAlive_of_combatant? hc).trans (halive hn)
      split at h
      · exact (hsv.trans hvw).trans (givePower_course _ _ _ _ h)
      · obtain ⟨-, rfl⟩ := run_pure_iff.mp h
        exact hsv.trans hvw

theorem silencePower_course (power : Option PowerId) (turns : Nat) (target : Aim) :
    Ensures (Telling rules may) (silencePower power turns target ctx) := by
  unfold silencePower
  split
  case isTrue ht =>
    refine forTargets_course fun hc halive h => ?_
    simp only [run_bind_iff, run_setCombatant_iff, run_forM_report_iff] at h
    obtain ⟨_, _, rfl, h⟩ := h
    exact altered_course hc halive (.silence halive (by simpa using ht)) h
      fun _ hnone => Combatant.eq_of_silence (List.map_eq_nil_iff.mp hnone)
  case isFalse => exact Ensures.pure Telling.flow ()

/-- A hit leaves a status behind on a living combatant, or nothing happens. -/
theorem left_of_run {target : CombatantId} {status : PowerId} {stack : Int} {u : Unit}
    (h : (leaveStatus rules target status stack).run s = .ok (u, t)) :
    s = t ∨ ∃ before after applied, s.combat.combatant? target = some before ∧ before.isAlive ∧
      before.applyPower rules.content.powers status stack none = .ok (applied, after) ∧
        (s.setCombatant target after).tell
          (if applied.isSome then [.powerApplied target status stack] else []) = t := by
  obtain ⟨found, _, hfound, h⟩ := run_bind_iff.mp h
  obtain ⟨rfl, rfl⟩ := run_combatant?_iff.mp hfound
  split at h
  case h_1 => exact .inl (run_pure_iff.mp h).2
  case h_2 before hbefore =>
    obtain ⟨hc, halive⟩ := Option.filter_eq_some_iff.mp hbefore
    simp only [run_bind_iff, run_lift_iff, run_setCombatant_iff, run_if_report_iff] at h
    obtain ⟨⟨applied, after⟩, _, ⟨happly, rfl⟩, _, _, rfl, h⟩ := h
    exact .inr ⟨before, after, applied, hc, halive, happly, h⟩

theorem leaveStatus_course (target : CombatantId) (status : PowerId) (stack : Int) :
    Ensures (Course rules may) (leaveStatus rules target status stack) := by
  refine ⟨fun {s u t} h => ?_⟩
  rcases left_of_run h with rfl | ⟨before, after, applied, hc, halive, happly, rfl⟩
  · exact .refl
  · exact .of_step (.altered hc (.leaveStatus halive happly))

/-- A combo uses up a status. -/
theorem consumed_of_run {target : CombatantId} {before : Combatant} {combo : Combo} {u : Unit}
    (h : (consume target before combo).run s = .ok (u, t)) :
    (s.setCombatant target { before with powers := before.powers.remove combo.existing }).tell
      [.combo target combo.name, .powerRemoved target combo.existing] = t := by
  unfold consume at h
  simp only [run_bind_iff, run_setCombatant_iff, run_report_iff] at h
  obtain ⟨_, _, rfl, _, _, rfl, h⟩ := h
  exact h

theorem consume_course {target : CombatantId} {before : Combatant} {combo : Combo} {u : Unit}
    (hc : s.combat.combatant? target = some before) (halive : before.isAlive)
    (h : (consume target before combo).run s = .ok (u, t)) : Telling rules may s t :=
  altered_course hc (fun _ => halive) (.consume halive) (consumed_of_run h) fun _ => nofun

/-! ## Resources -/

theorem energy_course {value : Value} {change : Change} (hmay : may (.energy value change)) :
    Ensures (Telling rules may) (energy value change ctx) := by
  refine ⟨fun {s u t} h => ?_⟩
  obtain ⟨amount, _, hamount, h⟩ := run_bind_iff.mp h
  obtain ⟨hvalue, rfl⟩ := run_amount_iff.mp hamount
  simp only [run_bind_iff, run_combat_iff, run_lift_iff, run_setResources_iff] at h
  obtain ⟨_, _, ⟨rfl, rfl⟩, energy, _, ⟨hchange, rfl⟩, _, _, rfl, h⟩ := h
  split at h
  case isTrue hne =>
    simp only [run_bind_iff, run_lift_iff, run_report_iff] at h
    obtain ⟨delta, _, ⟨hsub, rfl⟩, rfl⟩ := h
    refine Telling.of_report (.energy hchange (.inr ⟨delta, by simpa using hne, hsub, rfl⟩)
      ⟨value, hmay, ctx, hvalue⟩) (Nat.le_refl _)
  case isFalse heq =>
    obtain ⟨-, rfl⟩ := run_pure_iff.mp h
    obtain rfl : energy = s.combat.resources.energy := by simpa using heq
    exact .of_step (.energy hchange (.inl ⟨rfl, rfl⟩) ⟨value, hmay, ctx, hvalue⟩)
      (.of_unmoved ⟨_, _, _, rfl⟩)

theorem energyNextTurn_course {value : Value} (hmay : may (.energyNextTurn value)) :
    Ensures (Telling rules may) (energyNextTurn value ctx) := by
  refine ⟨fun {s u t} h => ?_⟩
  obtain ⟨amount, _, hamount, h⟩ := run_bind_iff.mp h
  obtain ⟨hvalue, rfl⟩ := run_amount_iff.mp hamount
  split at h
  case isTrue hn =>
    simp only [run_bind_iff, run_combat_iff, run_lift_iff, run_setResources_iff,
      run_report_iff] at h
    obtain ⟨_, _, ⟨rfl, rfl⟩, sum, _, ⟨hadd, rfl⟩, _, _, rfl, rfl⟩ := h
    exact .of_report (.energyNextTurn (by simpa using hn) hadd ⟨value, hmay, ctx, hvalue⟩)
      (Nat.le_refl _)
  case isFalse =>
    obtain ⟨-, rfl⟩ := run_pure_iff.mp h
    exact .refl

theorem gold_course (amount : Value) (change : Change) :
    Ensures (Telling rules may) (gold amount change ctx) := by
  apply Ensures.amount Telling.flow
  intro amount
  refine ⟨fun {s u t} h => ?_⟩
  obtain ⟨_, _, hget, h⟩ := run_bind_iff.mp h
  obtain ⟨rfl, rfl⟩ := run_get_iff.mp hget
  obtain ⟨raw, _, hraw, h⟩ := run_bind_iff.mp h
  obtain ⟨hchange, rfl⟩ := run_lift_iff.mp hraw
  obtain ⟨delta, _, hdelta, h⟩ := run_bind_iff.mp h
  obtain ⟨hsub, rfl⟩ := run_lift_iff.mp hdelta
  have key {goldEarned : Nat}
      (he : (if 0 < delta then Unsigned.add 64 s.stats.goldEarned delta.toNat
        else pure s.stats.goldEarned) = .ok goldEarned)
      (h : (do
        set { s with gold := max raw 0, stats := { s.stats with goldEarned } }
        if delta != 0 then report (.gold delta (max raw 0))).run s = .ok (u, t)) :
      Telling rules may s t := by
    simp only [run_bind_iff, run_set_iff, run_if_report_iff] at h
    obtain ⟨_, _, rfl, rfl⟩ := h
    have hstep := @Step.gold rules may s _ _ _ _ _ hchange hsub he
    by_cases hzero : delta = 0
    · subst hzero
      obtain ⟨-, hgold⟩ := Signed.sub_eq_ok_iff.mp hsub
      obtain rfl := Except.ok.inj he
      have hsame : max raw 0 = s.gold := by omega
      rw [hsame] at hstep ⊢
      exact .of_step hstep (.of_unmoved ⟨_, _, _, rfl⟩)
    · rw [if_pos (bne_iff_ne.mpr hzero)] at hstep ⊢
      exact .of_report hstep (Nat.le_refl _)
  dsimp only at h
  split at h
  case isTrue hgain =>
    obtain ⟨goldEarned, _, hearned, h⟩ := run_bind_iff.mp h
    obtain ⟨hadd, rfl⟩ := run_lift_iff.mp hearned
    exact key ((if_pos hgain).trans hadd) h
  case isFalse hgain =>
    obtain ⟨goldEarned, _, hearned, h⟩ := run_bind_iff.mp h
    obtain ⟨rfl, rfl⟩ := run_pure_iff.mp hearned
    exact key (if_neg hgain) h

end Resolution

end CardCombat
