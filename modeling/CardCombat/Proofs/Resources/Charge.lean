import CardCombat.Proofs.Outcome.Phases
import CardCombat.Proofs.Outcome.Rejections
import CardCombat.Proofs.Turns.Intents

/-!
# The charge of the ability

Plays charge the hero's ability up to what it requires, its use takes the whole charge, and the
beginning of a turn allows the next use. Nothing else has to do with it, whatever effects, triggers
and enemies do meanwhile. What happens to the ability is in the events: one is reported when it is
used, and one when a turn begins.

## Main definitions

* `Idle` -- nothing happened that has to do with the ability.
* `Tends` -- what happened to the ability is what was reported.

## Main results

* `Resolution.enemiesTurn_idle`, `Resolution.play_tends` and the like -- the parts of calls.
* `Undertakes.tends` -- what a call does to the ability.
-/

namespace CardCombat

open Resolution

variable {rules : Rules} {s t u : Scene} {id : CombatantId} {event : Event}
  {told told' : List Event} {a : Unit}

/-! ## Nothing about the ability -/

namespace Event

/-- The ability is used. -/
def isUse : Event → Bool
  | .heroAbility => true
  | _ => false

/-- A turn of the player begins. -/
def isTurn : Event → Bool
  | .turnStart _ => true
  | _ => false

/-- The event has nothing to do with the ability. -/
def IsOther (event : Event) : Prop := event.isUse = false ∧ event.isTurn = false

theorem isOther_of_isMark_eq (h : event.isMark = false) : event.IsOther := by
  cases event with
  | intent | heroAbility | turnStart => exact absurd h nofun
  | _ => exact ⟨rfl, rfl⟩

/-- Whether the ability was used in this turn, after an event. -/
def spends (used : Bool) : Event → Bool
  | .heroAbility => true
  | .turnStart _ => false
  | _ => used

theorem IsOther.spends (h : event.IsOther) (used : Bool) : event.spends used = used := by
  cases event with
  | heroAbility => exact absurd h.1 nofun
  | turnStart => exact absurd h.2 nofun
  | _ => rfl

end Event

/-- The charge of the ability, what it requires, and whether it was used in this turn. -/
def Scene.ability (scene : Scene) : Nat × Nat × Bool :=
  (scene.combat.resources.abilityCharge, scene.combat.resources.abilityChargeRequired,
    scene.combat.resources.abilityUsedThisTurn)

/-- Nothing happened that has to do with the ability. -/
structure Idle (s t : Scene) : Prop where
  ability : t.ability = s.ability
  told : ∃ told, t.combat.events.toList = s.combat.events.toList ++ told ∧
    ∀ event ∈ told, event.IsOther

namespace Idle

theorem flow : Flow Idle where
  refl s := ⟨rfl, [], (List.append_nil _).symm, fun _ h => absurd h List.not_mem_nil⟩
  trans h h' := by
    obtain ⟨told, htold, hother⟩ := h.told
    obtain ⟨told', htold', hother'⟩ := h'.told
    refine ⟨h'.ability.trans h.ability, told ++ told', by rw [htold', htold, List.append_assoc],
      fun event hmem => ?_⟩
    exact (List.mem_append.mp hmem).elim (hother event) (hother' event)

/-- Whoever reports no other marks than those of enemies leaves the ability alone. -/
theorem of_marks {marks : List Event} (h : Marks marks s t)
    (hmarks : ∀ event ∈ marks, event.IsOther) (hability : t.ability = s.ability) : Idle s t := by
  obtain ⟨told, htold, rfl⟩ := h
  refine ⟨hability, told, htold, fun event hmem => ?_⟩
  cases hmark : event.isMark with
  | true => exact hmarks event (List.mem_filter.mpr ⟨hmem, hmark⟩)
  | false => exact Event.isOther_of_isMark_eq hmark

theorem of_unmarked (h : Marks [] s t) (hability : t.ability = s.ability) : Idle s t :=
  of_marks h (fun _ hmem => absurd hmem List.not_mem_nil) hability

theorem of_bookkeeping (h : Marks [] s t) (hb : t.bookkeeping = s.bookkeeping) : Idle s t := by
  refine of_unmarked h ?_
  have hkept := congrArg (fun kept : Bookkeeping =>
    (kept.abilityCharge, kept.abilityChargeRequired, kept.abilityUsedThisTurn)) hb
  exact hkept

/-- Effects, triggers and the end of a turn leave the ability alone. -/
theorem of_quiet (h : Quiet s t) : Idle s t := of_bookkeeping h.marks h.framed.bookkeeping

theorem of_same (hevents : t.combat.events = s.combat.events) (hability : t.ability = s.ability) :
    Idle s t := of_unmarked (.of_same hevents) hability

theorem of_setCombatant (id : CombatantId) (combatant : Combatant) :
    Idle s (s.setCombatant id combatant) :=
  of_bookkeeping (.of_setCombatant _ _) (Scene.bookkeeping_setCombatant _ _)

theorem of_intent (s : Scene) (id : CombatantId) (name : String) :
    Idle s (s.report (.intent id name)) := by
  refine of_marks (.mark s rfl) (fun event hmem => ?_) rfl
  obtain rfl := List.mem_singleton.mp hmem
  exact ⟨rfl, rfl⟩

/-- A card comes into play: only energy is spent. -/
theorem of_enters {card : Card} {cost : Int} (h : Enters card cost s t) : Idle s t := by
  cases h with
  | @mk piles paid cardsPlayedThisTurn cardsPlayed h hp =>
      have hpaid : Idle s paid := by
        cases hp with
        | nothing => exact of_same rfl rfl
        | energy => exact of_unmarked (.report (.of_same rfl) rfl) rfl
      exact flow.trans hpaid (of_same rfl rfl)

theorem of_closes {uid : CardUid} (h : Closes rules uid s t) : Idle s t :=
  of_bookkeeping (.of_closes h) (Framed.of_closes h).bookkeeping

theorem of_deal (s : Scene) (card : Card) (pile : Pile) : Idle s (s.deal rules card pile) := by
  refine of_unmarked (.report ?_ rfl) rfl
  exact Marks.of_same rfl

end Idle

namespace Resolution

/-- A move of an enemy leaves the ability alone. -/
theorem makesMove_idle (h : MakesMove id s t) : Idle s t := by
  cases h with
  | nothing => exact Idle.flow.refl s
  | @declared before intent u hc hi h =>
      refine Idle.flow.trans (Idle.of_intent s id intent.name)
        (Idle.flow.trans (.of_quiet h) ?_)
      unfold Scene.remembers
      split
      · exact Idle.flow.refl u
      · exact .of_setCombatant _ _

/-- **The enemies' turn** leaves the ability alone. -/
theorem enemiesTurn_idle : Ensures Idle (enemiesTurn rules) := by
  have hturn (id : CombatantId) : Ensures Idle (enemyTurn rules id) := by
    refine ⟨fun {s a t} h => ?_⟩
    obtain ⟨u, v, hbefore, hafter, hmove⟩ := enemyTurn_of_run h
    have hmoved : Idle u v := by
      split at hmove
      · exact makesMove_idle hmove
      · exact hmove ▸ Idle.flow.refl u
    exact Idle.flow.trans (.of_quiet hbefore) (Idle.flow.trans hmoved (.of_quiet hafter))
  refine Ensures.bind Idle.flow ⟨fun h => run_modifyCombat_iff.mp h ▸ .of_same rfl rfl⟩ fun _ =>
    Ensures.combat Idle.flow fun _ => Ensures.bind Idle.flow (Ensures.forM Idle.flow fun id _ =>
      Ensures.combat Idle.flow fun combat => ?_) fun _ => ⟨fun {s a t} h => ?_⟩
  · split
    · exact hturn id
    · exact Ensures.pure Idle.flow ()
  · exact run_bury_iff.mp h ▸ .of_quiet (Quiet.bury rules s)

theorem chooseIntent_idle (id : CombatantId) : Ensures Idle (chooseIntent rules id) := by
  refine ⟨fun {s a t} h => ?_⟩
  rcases chooseIntent_of_run h with ⟨rfl, -⟩ | ⟨before, after, rng, declared, -, -, rfl⟩
  · exact Idle.flow.refl s
  · have hdrawn : Idle s { s with rng } := .of_same rfl rfl
    have hset : Idle s (({ s with rng } : Scene).setCombatant id after) :=
      Idle.flow.trans hdrawn (.of_setCombatant _ _)
    cases declared with
    | none => exact hset
    | some intent => exact Idle.flow.trans hset (.of_intent _ id intent.name)

end Resolution

/-! ## What happens to the ability -/

/-- What happened to the ability is what was reported: it was used, or a turn began in which it may
be used again. What it requires is the same. -/
structure Tends (told : List Event) (before after : Combat) : Prop where
  events : after.events.toList = before.events.toList ++ told
  required : after.resources.abilityChargeRequired = before.resources.abilityChargeRequired
  used : after.resources.abilityUsedThisTurn =
    told.foldl Event.spends before.resources.abilityUsedThisTurn

theorem Tends.trans {before middle after : Combat} (h : Tends told before middle)
    (h' : Tends told' middle after) : Tends (told ++ told') before after where
  events := by rw [h'.events, h.events, List.append_assoc]
  required := h'.required.trans h.required
  used := by rw [h'.used, h.used, List.foldl_append]

theorem Event.foldl_spends_of_isOther (h : ∀ event ∈ told, event.IsOther) (used : Bool) :
    told.foldl Event.spends used = used := by
  induction told with
  | nil => rfl
  | cons event told ih =>
      obtain ⟨hfirst, hrest⟩ := List.forall_mem_cons.mp h
      rw [List.foldl_cons, hfirst.spends, ih hrest]

/-- Nothing happened to the ability, and nothing of that kind was reported. -/
theorem Idle.tends (h : Idle s t) : ∃ told, Tends told s.combat t.combat ∧
    (∀ event ∈ told, event.IsOther) ∧
      t.combat.resources.abilityCharge = s.combat.resources.abilityCharge := by
  obtain ⟨told, htold, hother⟩ := h.told
  obtain ⟨hcharge, hrest⟩ := Prod.mk.inj h.ability
  obtain ⟨hrequired, hused⟩ := Prod.mk.inj hrest
  refine ⟨told, ⟨htold, hrequired, ?_⟩, hother, hcharge⟩
  rw [Event.foldl_spends_of_isOther hother, hused]

namespace Resolution

/-- **A turn of the player begins**, which is reported, and the ability may be used again. -/
theorem openTurn_tends {first : Bool} (h : (openTurn rules first).run s = .ok (a, t)) :
    ∃ told, Tends told s.combat t.combat ∧ (∀ event ∈ told, event.isUse = false) ∧
      (∃ event ∈ told, event.isTurn) ∧
        t.combat.resources.abilityCharge = s.combat.resources.abilityCharge := by
  obtain ⟨opened, energy, u, hopened, hchoose, hgreet⟩ := openTurn_of_run h
  have hsame : opened.combat.resources = s.combat.resources ∧
      opened.combat.events = s.combat.events := by
    rcases hopened with ⟨-, rfl⟩ | ⟨turn, rfl⟩ <;> exact ⟨rfl, rfl⟩
  have hlater : Idle (opened.begins energy) t := Idle.flow.trans
    ((Ensures.forM Idle.flow fun id _ => chooseIntent_idle id).rel hchoose)
    (.of_quiet (greet_quiet.rel hgreet))
  have hbegun : Tends [.turnStart opened.combat.turn] s.combat
      (opened.begins energy).combat := by
    refine ⟨?_, congrArg (·.abilityChargeRequired) hsame.1, rfl⟩
    show (opened.combat.events.push _).toList = _
    rw [hsame.2, Array.toList_push]
  obtain ⟨told, htold, hother, hcharge⟩ := hlater.tends
  refine ⟨_, hbegun.trans htold, fun event hmem => ?_, ⟨_, List.mem_cons_self, rfl⟩, ?_⟩
  · rcases List.mem_cons.mp hmem with rfl | hmem
    · rfl
    · exact (hother event hmem).1
  · rw [hcharge, ← hsame.1]
    rfl

/-! ## Calls -/

/-- What goes on while a card is in play is quiet. -/
theorem whileInPlay_quiet (play : Play) (card : Card) (target : Option CombatantId) :
    Ensures Quiet (whileInPlay rules play card target) := by
  refine Ensures.bind Quiet.flow (carryOut_quiet _ _) fun _ =>
    Ensures.bind Quiet.flow (happen_quiet _ (by decide) _ _) fun _ => ?_
  cases play.definition.theme with
  | attack | skill | power => exact happen_quiet _ (by decide) _ _
  | status | curse => exact Ensures.pure Quiet.flow ()

/-- **A play charges the ability**, up to what it requires. -/
theorem play_tends {play : Play} {target : Option CombatantId}
    (hhand : (s.combat.piles.takeFrom? .hand play.card.uid).isSome)
    (h : (Resolution.play rules play target).run s = .ok (a, t)) :
    ∃ told, Tends told s.combat t.combat ∧ (∀ event ∈ told, event.IsOther) ∧
      t.combat.resources.abilityCharge = min s.combat.resources.abilityChargeRequired
        (s.combat.resources.abilityCharge + rules.config.chargePerCard) := by
  rcases run_play h with ⟨hnone, -⟩ | ⟨card, piles, v, w, x, -, henters, hin, hend, hlast⟩
  · rw [hnone] at hhand
    exact absurd hhand nofun
  · have hplayed : Idle s (x.remember card) := Idle.flow.trans (.of_enters henters) <|
      Idle.flow.trans (.of_quiet ((whileInPlay_quiet _ _ _).rel hin)) <|
        Idle.flow.trans (.of_closes (run_endPlay hend)) (.of_same rfl rfl)
    obtain ⟨_, _, hremember, hcharge⟩ := run_bind_iff.mp hlast
    obtain rfl := run_modifyCombat_iff.mp hremember
    unfold charge at hcharge
    simp only [run_bind_iff, run_combat_iff, run_lift_iff, run_setResources_iff] at hcharge
    obtain ⟨_, _, ⟨rfl, rfl⟩, charged, _, ⟨hadd, rfl⟩, rfl⟩ := hcharge
    obtain ⟨-, rfl⟩ := Unsigned.add_eq_ok_iff.mp hadd
    obtain ⟨told, htold, hother, hkept⟩ := hplayed.tends
    refine ⟨told, ⟨htold.events, htold.required, htold.used⟩, hother, ?_⟩
    rw [← htold.required, ← hkept]
    exact Nat.min_comm _ _

/-- **The use of the ability** takes the whole charge and is reported. -/
theorem useAbility_tends {ability : HeroAbility}
    (h : (Resolution.useAbility rules ability).run s = .ok (a, t)) :
    ∃ told, Tends (.heroAbility :: told) s.combat t.combat ∧ (∀ event ∈ told, event.IsOther) ∧
      t.combat.resources.abilityCharge = 0 := by
  obtain ⟨_, _, hcombat, h⟩ := run_bind_iff.mp h
  obtain ⟨rfl, rfl⟩ := run_combat_iff.mp hcombat
  obtain ⟨_, _, hset, h⟩ := run_bind_iff.mp h
  obtain rfl := run_setResources_iff.mp hset
  obtain ⟨_, _, hreport, hcarry⟩ := run_bind_iff.mp h
  obtain rfl := run_report_iff.mp hreport
  obtain ⟨told, htold, hother, hcharge⟩ := (Idle.of_quiet ((carryOut_quiet _ _).rel hcarry)).tends
  refine ⟨told, ⟨?_, htold.required, htold.used⟩, hother, hcharge⟩
  rw [htold.events]
  exact congrArg (· ++ told) Array.toList_push |>.trans (List.append_assoc _ _ _)

/-- The answer to a selection leaves the ability alone. -/
theorem settleSelection_idle {selection : Selection} (chosen : List CardUid) :
    Ensures Idle (settleSelection rules selection chosen) := by
  refine settleSelection_ensures Idle.flow (fun h => .of_quiet (.of_course h))
    (fun s => .of_same rfl rfl) (fun pile _ s card _ => .of_deal s card pile) chosen

theorem unlessDecided_idle {m : Resolution Unit} (h : Ensures Idle m) :
    Ensures Idle (unlessDecided m) := by
  refine ⟨fun {s a t} hrun => ?_⟩
  rcases run_unlessDecided_iff.mp hrun with ⟨-, rfl⟩ | ⟨-, hrun⟩
  · exact Idle.flow.refl s
  · exact h.rel hrun

/-- **Where a turn of the player is to begin**, it does unless the combat is decided. -/
theorem tends_of_openTurn {first : Bool} (hidle : Idle s u)
    (h : (unlessDecided (openTurn rules first)).run u = .ok (a, t)) :
    ∃ told, Tends told s.combat t.combat ∧ (∀ event ∈ told, event.isUse = false) ∧
      (t.combat.isDecided = false → ∃ event ∈ told, event.isTurn) ∧
        t.combat.resources.abilityCharge = s.combat.resources.abilityCharge := by
  obtain ⟨told, htold, hother, hcharge⟩ := hidle.tends
  rcases run_unlessDecided_iff.mp h with ⟨hdecided, rfl⟩ | ⟨-, h⟩
  · refine ⟨told, htold, fun event hmem => (hother event hmem).1, fun hgoing => ?_, hcharge⟩
    exact absurd (hdecided.symm.trans hgoing) nofun
  · obtain ⟨told', htold', hunused, ⟨event, hmem, hturn⟩, hcharge'⟩ := openTurn_tends h
    refine ⟨told ++ told', htold.trans htold', fun event hmem => ?_,
      fun _ => ⟨event, List.mem_append_right _ hmem, hturn⟩, hcharge'.trans hcharge⟩
    exact (List.mem_append.mp hmem).elim (fun hmem => (hother event hmem).1) (hunused event)

/-- **The end of a turn** leaves the ability alone, until the next turn begins. -/
theorem passTurn_tends (h : (passTurn rules).run s = .ok (a, t)) :
    ∃ told, Tends told s.combat t.combat ∧ (∀ event ∈ told, event.isUse = false) ∧
      (t.combat.isDecided = false → ∃ event ∈ told, event.isTurn) ∧
        t.combat.resources.abilityCharge = s.combat.resources.abilityCharge := by
  obtain ⟨_, u, hclose, h⟩ := run_bind_iff.mp h
  obtain ⟨_, v, henemies, hopen⟩ := run_bind_iff.mp h
  have hclosed : Idle s u := .of_quiet (closeTurn_quiet.rel hclose)
  exact tends_of_openTurn (Idle.flow.trans hclosed
    ((unlessDecided_idle enemiesTurn_idle).rel henemies)) hopen

/-- **The first moments of a combat** leave the ability alone, until the first turn begins. -/
theorem openCombat_tends (h : (openCombat rules).run s = .ok (a, t)) :
    ∃ told, Tends told s.combat t.combat ∧ (∀ event ∈ told, event.isUse = false) ∧
      (t.combat.isDecided = false → ∃ event ∈ told, event.isTurn) ∧
        t.combat.resources.abilityCharge = s.combat.resources.abilityCharge := by
  obtain ⟨_, u, hhappen, hopen⟩ := run_bind_iff.mp h
  exact tends_of_openTurn (.of_quiet ((happen_quiet _ (by decide) _ _).rel hhappen)) hopen

end Resolution

end CardCombat
