import CardCombat.Proofs.Death.Accounting
import CardCombat.Proofs.Frame.Effects
import CardCombat.Proofs.Vitality.Touches

/-!
# The quiet parts of turns

Three kinds of events mark the course of turns: that a turn of the player begins, that the ability
is used, and that an enemy acts or declares what it will do. Effects report none of them, and no
trigger does. So the marks of a call are those of the few places that report them, and everything in
between is quiet: what the turns keep stays the same, everybody is who they were, and nobody comes
back.

## Main definitions

* `Event.isMark` -- the events that mark the course of turns.
* `Marks` -- the marks that were reported between two scenes.
* `Quiet` -- nothing happened that belongs to the course of turns.

## Main results

* `unmarked_prevails` -- effects report no marks.
* `Resolution.carryOut_quiet`, `Resolution.happen_quiet` -- effects and triggers are quiet.
* `Resolution.closeTurn_quiet` -- and so is the end of the player's turn.
-/

namespace CardCombat

open Resolution

variable {rules : Rules} {may : Effect → Prop} {s t u : Scene} {id : CombatantId}
  {before after : Combatant} {event : Event} {marks marks' : List Event}

/-! ## Marks -/

namespace Event

/-- The events that mark the course of turns. -/
def isMark : Event → Bool
  | .intent .. | .heroAbility | .turnStart _ => true
  | _ => false

theorem IsNotice.isMark_eq (h : event.IsNotice) : event.isMark = false := by
  cases event with
  | intent | heroAbility | turnStart => exact h.elim
  | _ => rfl

theorem IsOfCombatant.isMark_eq (h : event.IsOfCombatant) : event.isMark = false := by
  cases event with
  | intent | heroAbility | turnStart => exact h.elim
  | _ => rfl

end Event

/-- These marks were reported between two scenes, among other events. -/
def Marks (marks : List Event) (s t : Scene) : Prop :=
  ∃ told : List Event, t.combat.events.toList = s.combat.events.toList ++ told ∧
    told.filter (·.isMark) = marks

namespace Marks

theorem of_same (h : t.combat.events = s.combat.events) : Marks [] s t :=
  ⟨[], by rw [h, List.append_nil], rfl⟩

theorem trans (h : Marks marks s t) (h' : Marks marks' t u) : Marks (marks ++ marks') s u := by
  obtain ⟨told, htold, rfl⟩ := h
  obtain ⟨told', htold', rfl⟩ := h'
  exact ⟨told ++ told', by rw [htold', htold, List.append_assoc], List.filter_append _ _⟩

/-- One event is reported, which is a mark. -/
theorem mark (s : Scene) (h : event.isMark = true) : Marks [event] s (s.report event) := by
  refine ⟨[event], by simp [Scene.report, Combat.report], ?_⟩
  rw [List.filter_cons_of_pos h, List.filter_nil]

theorem flow : Flow (Marks []) where
  refl _ := of_same rfl
  trans h h' := h.trans h'

theorem tell {events : List Event} (h : Marks [] s t)
    (he : ∀ event ∈ events, event.isMark = false) : Marks [] s (t.tell events) := by
  refine flow.trans h ⟨events, by simp [Scene.tell_eq], ?_⟩
  exact List.filter_eq_nil_iff.mpr fun event hmem => by simp [he event hmem]

theorem report (h : Marks [] s t) (he : event.isMark = false) : Marks [] s (t.report event) := by
  show Marks [] s (t.tell [event])
  exact h.tell fun _ hmem => List.mem_singleton.mp hmem ▸ he

theorem of_setCombatant (id : CombatantId) (combatant : Combatant) :
    Marks [] s (s.setCombatant id combatant) := by
  refine of_same ?_
  unfold Scene.setCombatant Scene.putCombatant Combat.setCombatant
  split <;> split <;> rfl

theorem of_damages {source target : CombatantId} {outcome : DamageReport}
    (h : Damages source target outcome s t) : Marks [] s t := by
  cases h with
  | @mk before after amount element piercing stats =>
      have htold : Marks [] s ((s.setCombatant target after).report
          (.damage target amount outcome.blocked element)) := (of_setCombatant _ _).report rfl
      exact flow.trans htold (of_same rfl)

/-- **A step reports no mark.** -/
theorem of_step (h : Step rules may s t) : Marks [] s t := by
  cases h with
  | told h => exact (flow.refl s).report h.isMark_eq
  | altered hc h => exact (of_setCombatant _ _).tell fun event hmem =>
      (h.isOfCombatant event hmem).isMark_eq
  | damaged h => exact of_damages h
  | energy h he =>
      refine tell (of_same rfl) fun event hmem => ?_
      rcases he with ⟨-, rfl⟩ | ⟨delta, -, -, rfl⟩
      · exact absurd hmem List.not_mem_nil
      · exact List.mem_singleton.mp hmem ▸ rfl
  | gold =>
      refine tell (of_same rfl) fun event hmem => ?_
      split at hmem
      · exact List.mem_singleton.mp hmem ▸ rfl
      · exact absurd hmem List.not_mem_nil
  | milled h he =>
      refine report (of_same rfl) ?_
      rcases he with rfl | rfl <;> rfl
  | moved h he =>
      refine report (of_same rfl) ?_
      rcases he with ⟨-, rfl⟩ | ⟨-, rfl⟩ <;> rfl
  | brought h he =>
      refine report (of_same rfl) ?_
      rcases he with rfl | ⟨definition, rfl⟩ <;> rfl
  | sent h he =>
      refine report (of_same rfl) ?_
      rcases he with ⟨-, rfl⟩ | ⟨-, rfl⟩ | ⟨-, rfl⟩ <;> rfl
  | recalled h he =>
      refine report (of_same rfl) ?_
      rcases he with rfl | ⟨definition, rfl⟩ <;> rfl
  | changed hf hu he =>
      refine report (of_same (Combat.same_modifyCard Combat.events fun _ _ => rfl)) ?_
      rcases he with rfl | rfl | ⟨delta, rfl⟩ | ⟨flag, value, rfl⟩ | rfl <;> rfl
  | energyNextTurn | removed | created | asked | offered => exact report (of_same rfl) rfl
  | drew | acted | shuffled | reshuffled | drawn | issued => exact of_same rfl

theorem of_blow (h : Blow rules s t) : Marks [] s t := by
  cases h with
  | damaged h => exact of_damages h
  | setHealth | executed => exact (of_setCombatant _ _).report rfl
  | died => exact flow.trans ((flow.refl s).report rfl) (of_same rfl)
  | counted | acted | buried => exact of_same rfl

theorem of_opens {card : Card} (h : Opens card s t) : Marks [] s t := by
  cases h with
  | @mk piles rng h =>
      have hpopped : Marks [] s { s.withPiles piles with rng } := of_same rfl
      have hreplay : (Event.replay card.uid).isMark = false := rfl
      exact flow.trans (hpopped.report hreplay) (of_same rfl)

theorem of_closes {uid : CardUid} (h : Closes rules uid s t) : Marks [] s t := by
  cases h with
  | nothing => exact flow.refl s
  | @mk played combat h =>
      obtain ⟨entry, -, h⟩ := Option.bind_eq_some_iff.mp h
      obtain ⟨rfl, rfl⟩ := Prod.mk.inj (Option.some.inj h)
      generalize Resolution.routeOf rules entry = route
      cases route with
      | discard | banished | elsewhere => exact of_same rfl
      | exhaust => exact report (of_same rfl) rfl

end Marks

/-- **Effects report no marks.** -/
theorem unmarked_prevails : Prevails rules may (Marks []) :=
  ⟨Marks.flow, Marks.of_step, Marks.of_blow, Marks.of_opens, Marks.of_closes⟩

/-! ## Lives -/

/-- Where a combatant was set, the combat is the one with that combatant. -/
theorem Scene.setCombatant_combat (scene : Scene) (id : CombatantId) (combatant : Combatant) :
    (scene.setCombatant id combatant).combat = scene.combat.setCombatant id combatant := by
  unfold setCombatant
  split <;> rfl

/-- Combatants with different numbers keep them, and nobody comes back to life. -/
def Wanes (s t : Scene) : Prop :=
  s.combat.Numbered → t.combat.Numbered ∧
    ∀ id, t.combat.isAlive id = true → s.combat.isAlive id = true

namespace Wanes

theorem flow : Flow Wanes where
  refl _ hn := ⟨hn, fun _ h => h⟩
  trans h h' hn := by
    obtain ⟨hn', halive⟩ := h hn
    obtain ⟨hn'', halive'⟩ := h' hn'
    exact ⟨hn'', fun id hid => halive id (halive' id hid)⟩

/-- Where every death is accounted for, nobody comes back. -/
theorem of_settled (h : Settled rules s t) : Wanes s t := by
  intro hn
  have haccounted : Accounted rules s t := h hn
  refine ⟨haccounted.numbered hn, fun id halive => ?_⟩
  cases hdead : s.combat.isAlive id with
  | true => rfl
  | false => exact absurd (halive.symm.trans (haccounted.isAlive_eq_false hdead)) (by decide)

theorem of_same (hp : t.combat.player = s.combat.player)
    (he : t.combat.enemies = s.combat.enemies) : Wanes s t := by
  intro hn
  unfold Combat.Numbered Combat.isAlive Combat.combatant? at *
  rw [hp, he]
  exact ⟨hn, fun _ h => h⟩

theorem of_setCombatant (hc : s.combat.combatant? id = some before) (hid : after.id = before.id)
    (hlife : after.isAlive = before.isAlive) : Wanes s (s.setCombatant id after) := by
  intro hn
  unfold Combat.Numbered Combat.isAlive
  rw [Scene.setCombatant_combat, Combat.map_id_enemies_setCombatant hc hid]
  refine ⟨hn, fun other => ?_⟩
  rw [Combat.combatant?_setCombatant hc hid]
  by_cases ho : other = id
  · rw [if_pos ho, ho, hc, Option.any_some, Option.any_some, hlife]
    exact fun h => h
  · rw [if_neg ho]
    exact fun h => h

end Wanes

/-- Every member of a list that stands below another one in order has its counterpart there. -/
theorem exists_mem_of_sublistForall₂ {α : Type} {R : α → α → Prop} {xs ys : List α} {x : α}
    (h : List.SublistForall₂ R xs ys) (hmem : x ∈ xs) : ∃ y ∈ ys, R x y := by
  induction h with
  | nil => exact absurd hmem List.not_mem_nil
  | cons hxy _ ih =>
      rcases List.mem_cons.mp hmem with rfl | hmem
      · exact ⟨_, List.mem_cons_self, hxy⟩
      · obtain ⟨y, hy, hxy⟩ := ih hmem
        exact ⟨y, List.mem_cons_of_mem _ hy, hxy⟩
  | cons_right _ ih =>
      obtain ⟨y, hy, hxy⟩ := ih hmem
      exact ⟨y, List.mem_cons_of_mem _ hy, hxy⟩

/-! ## Quiet parts -/

/-- Nothing happened that belongs to the course of turns: what the turns keep is the same, everybody
is who they were, no mark was reported, and nobody has come back. -/
structure Quiet (s t : Scene) : Prop where
  framed : Framed s t
  marks : Marks [] s t
  wanes : Wanes s t

namespace Quiet

theorem flow : Flow Quiet where
  refl s := ⟨Framed.flow.refl s, Marks.flow.refl s, Wanes.flow.refl s⟩
  trans h h' := ⟨Framed.flow.trans h.framed h'.framed, Marks.flow.trans h.marks h'.marks,
    Wanes.flow.trans h.wanes h'.wanes⟩

theorem of_step (h : Step rules Effect.Any s t) : Quiet s t :=
  ⟨.of_step h, .of_step h, .of_settled h.settled⟩

theorem of_course (h : Course rules Effect.Any s t) : Quiet s t := by
  induction h with
  | refl => exact flow.refl s
  | tail _ hstep ih => exact flow.trans ih (of_step hstep)

/-- Nothing is changed that a quiet part leaves alone. -/
theorem of_same (hb : t.bookkeeping = s.bookkeeping) (hp : t.combat.player = s.combat.player)
    (he : t.combat.enemies = s.combat.enemies) (hevents : t.combat.events = s.combat.events) :
    Quiet s t :=
  ⟨.of_same hb hp he, .of_same hevents, .of_same hp he⟩

theorem report (h : Quiet s t) (he : event.isMark = false) : Quiet s (t.report event) :=
  ⟨h.framed.report event, h.marks.report he, Wanes.flow.trans h.wanes (.of_same rfl rfl)⟩

/-- A combatant is set to what it was, alive if it was alive. -/
theorem of_setCombatant (hc : s.combat.combatant? id = some before) (hstill : after.IsStill before)
    (hlife : after.isAlive = before.isAlive) : Quiet s (s.setCombatant id after) :=
  ⟨.of_setCombatant hc hstill, .of_setCombatant _ _, .of_setCombatant hc hstill.id hlife⟩

/-- The dead are taken away. -/
theorem bury (rules : Rules) (s : Scene) : Quiet s s.bury := by
  have hblow : Blow rules s s.bury := .buried
  have hsettled : Settled rules s s.bury := fun hn => ⟨⟨_, _, bury_account hn⟩, tally_bury⟩
  exact ⟨.of_blow hblow, .of_blow hblow, .of_settled hsettled⟩

/-- Whoever is left is who it was. -/
theorem combatant? (h : Quiet s t) (hn : s.combat.Numbered) (hid : id ≠ .player)
    (hafter : t.combat.combatant? id = some after) :
    ∃ before, s.combat.combatant? id = some before ∧ after.IsStill before := by
  obtain ⟨hmem, rfl⟩ := (Combat.combatant?_eq_some_iff (h.wanes hn).1 hid).mp hafter
  obtain ⟨before, hbefore, hstill⟩ := exists_mem_of_sublistForall₂ h.framed.enemies hmem
  exact ⟨before, (Combat.combatant?_eq_some_iff hn hid).mpr ⟨hbefore, hstill.id.symm⟩, hstill⟩

end Quiet

/-! ## Effects, triggers, and the end of a turn -/

namespace Resolution

/-- **Effects are quiet.** -/
theorem carryOut_quiet (effects : List Effect) (ctx : Context) :
    Ensures Quiet (carryOut rules effects ctx) := by
  refine ⟨fun {s a t} h => ⟨?_, ?_, ?_⟩⟩
  · exact (framed_prevails.carryOut rules.content.permits_any (fun _ _ => trivial) ctx).rel h
  · exact (unmarked_prevails.carryOut rules.content.permits_any (fun _ _ => trivial) ctx).rel h
  · exact .of_settled fun hn => account_of_carryOut hn h

/-- **Triggers are quiet**, unless they belong to a death. -/
theorem happen_quiet (owner : CombatantId) {occasion : Occasion} (ho : occasion ≠ .death)
    (cause : Option CombatantId) (ctx : Context) :
    Ensures Quiet (happen rules owner occasion cause ctx) := by
  have hnested (effects : List Effect) (ctx : Context) :
      Ensures (Settled rules) (carryOut rules effects ctx) :=
    ⟨fun h hn => account_of_carryOut hn h⟩
  refine ⟨fun {s a t} h => ⟨?_, ?_, ?_⟩⟩
  · exact (framed_prevails.happen rules.content.permits_any _ _ _ _).rel h
  · exact (unmarked_prevails.happen rules.content.permits_any _ _ _ _).rel h
  · exact .of_settled ((react_settled hnested ho).rel h)

/-- Powers decay, which is no mark either. -/
theorem decay_quiet (id : CombatantId) (boundary : Boundary) :
    Ensures Quiet (decay rules id boundary) := by
  refine ensures_combatant? (Ensures.pure Quiet.flow ()) fun {s before b t} hc h => ?_
  simp only [run_bind_iff, run_lift_iff, run_setCombatant_iff] at h
  obtain ⟨⟨ticks, after⟩, _, ⟨hdecay, rfl⟩, _, _, rfl, h⟩ := h
  have hsame : before.SameButPowers after := Combatant.decay_sameButPowers hdecay
  have hset : Quiet s (s.setCombatant id after) :=
    .of_setCombatant hc (.of_sameButPowers hsame) hsame.isAlive
  have htold (tick : Decayed) : Ensures Quiet (report (.powerRemoved id tick.power)) :=
    ⟨fun hrun => run_report_iff.mp hrun ▸ (Quiet.flow.refl _).report rfl⟩
  exact Quiet.flow.trans hset ((Ensures.forM Quiet.flow fun tick _ => htold tick).rel h)

theorem passSilence_quiet (id : CombatantId) : Ensures Quiet (passSilence id) :=
  ensures_combatant? (Ensures.pure Quiet.flow ()) fun hc h =>
    run_setCombatant_iff.mp h ▸ .of_setCombatant hc (.of_same rfl rfl rfl) rfl

theorem course_quiet (rules : Rules) {α : Type} {m : Resolution α}
    (h : Ensures (Course rules Effect.Any) m) : Ensures Quiet m := h.mono fun _ _ => .of_course

theorem putAway_quiet (card : Card) : Ensures Quiet (putAway rules card) := by
  unfold Resolution.putAway
  dsimp only
  by_cases hstays : staysInHand rules card = true
  · rw [if_pos hstays]
    refine ⟨fun {s a t} h => ?_⟩
    obtain ⟨_, _, hcombat, h⟩ := run_bind_iff.mp h
    obtain ⟨rfl, rfl⟩ := run_combat_iff.mp hcombat
    obtain rfl := run_setPiles_iff.mp h
    exact .of_same rfl rfl rfl rfl
  · rw [if_neg hstays]
    split
    · exact course_quiet rules (moveTo_course (.inr ⟨rfl, rfl⟩)).course
    · exact course_quiet rules (moveTo_course (.inl ⟨rfl, rfl⟩)).course

/-- **The end of the player's turn is quiet.** -/
theorem closeTurn_quiet : Ensures Quiet (closeTurn rules) :=
  Ensures.bind Quiet.flow (happen_quiet _ (by decide) _ _) fun _ =>
    Ensures.bind Quiet.flow (decay_quiet _ _) fun _ =>
      Ensures.bind Quiet.flow (passSilence_quiet _) fun _ => Ensures.combat Quiet.flow fun _ =>
        Ensures.forM Quiet.flow fun card _ => putAway_quiet card

end Resolution

end CardCombat
