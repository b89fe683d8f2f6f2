import CardCombat.Proofs.Action.Calls
import CardCombat.Proofs.Turns.Quiet

/-!
# The numbers of combatants

Enemies get their numbers when they gather for a combat, one after the other from one on, so they
are different from each other and from the player. No enemy joins a combat later, so the numbers
stay different as long as the combat goes on.

## Main definitions

* `Fewer` -- the enemies that are left are among those that were there, in the same order.

## Main results

* `fewer_governs` -- no enemy joins a combat.
* `Rules.numbered_of_gather` -- different numbers for those who gather.
* `Rules.numbered_of_reaches` -- different numbers in every combat.
-/

namespace CardCombat

open Resolution

variable {rules : Rules} {s t : Scene} {id : CombatantId} {before after : Combatant}

/-! ## Nobody joins -/

/-- The enemies that are left are among those that were there, in the same order. -/
def Fewer (s t : Scene) : Prop :=
  (t.combat.enemies.map (·.id)).Sublist (s.combat.enemies.map (·.id))

namespace Fewer

theorem flow : Flow Fewer where
  refl _ := List.Sublist.refl _
  trans h h' := List.Sublist.trans h' h

theorem of_same (h : t.combat.enemies = s.combat.enemies) : Fewer s t := by
  unfold Fewer
  rw [h]

/-- Where everybody is one of those who were there, nobody has joined. -/
theorem of_framed (h : Framed s t) : Fewer s t := by
  have henemies := h.enemies
  unfold Fewer
  generalize t.combat.enemies = now, s.combat.enemies = old at henemies ⊢
  induction henemies with
  | nil => exact List.nil_sublist _
  | cons hstill _ ih =>
      rw [List.map_cons, List.map_cons, hstill.id]
      exact ih.cons_cons _
  | cons_right _ ih =>
      rw [List.map_cons]
      exact ih.cons _

theorem of_setCombatant (hc : s.combat.combatant? id = some before) (hid : after.id = before.id) :
    Fewer s (s.setCombatant id after) := by
  unfold Fewer
  rw [Scene.setCombatant_combat, Combat.map_id_enemies_setCombatant hc hid]

/-- At the boundaries of turns nobody joins either. -/
theorem of_upkeep (h : Upkeep rules s t) : Fewer s t := by
  cases h with
  | decayed hc h =>
      obtain ⟨powers, rfl⟩ := Combatant.decay_sameButPowers h
      exact of_setCombatant hc rfl
  | eased hc | bared hc | moved hc => exact of_setCombatant hc rfl
  | @declared _ _ _ _ _ rng hc =>
      have hdrawn : Fewer s { s with rng } := of_same rfl
      exact flow.trans hdrawn (of_setCombatant hc rfl)
  | told | released | turned | charged | discharged => exact of_same rfl

theorem of_enters {card : Card} {cost : Int} (h : Enters card cost s t) : Fewer s t := by
  cases h with
  | mk h hp =>
      cases hp with
      | nothing | energy => exact of_same rfl

theorem numbered (h : Fewer s t) (hn : s.combat.Numbered) : t.combat.Numbered :=
  ⟨hn.1.sublist h, fun hmem => hn.2 (h.subset hmem)⟩

end Fewer

/-- **No enemy joins a combat**, in turns and plays. -/
theorem fewer_governs : Governs rules Effect.Any Fewer := by
  have hprevails : Prevails rules Effect.Any Fewer :=
    ⟨Fewer.flow, fun h => .of_framed (.of_step h), fun h => .of_framed (.of_blow h),
      fun h => .of_framed (.of_opens h), fun h => .of_framed (.of_closes h)⟩
  refine hprevails.governs rules.content.permits_any .of_upkeep .of_enters
    (fun _ _ => .of_same rfl) ?_
  intro s id combatant intent ctx a t _ _ h
  have htold : Fewer s (s.report (.intent id intent.name)) := .of_same rfl
  exact Fewer.flow.trans htold
    ((hprevails.carryOut rules.content.permits_any (fun _ _ => trivial) ctx).rel h)

/-! ## Those who gather -/

namespace Rules

variable {run run' : Run} {combat : Combat}

/-- An enemy of a template has the number that it was given. -/
theorem id_of_spawn {template : EnemyTemplate} {catalog : Catalog PowerDefinition}
    (h : template.spawn id catalog = .ok after) : after.id = id := by
  refine foldlM_preserves (P := fun combatant : Combatant => combatant.id = id)
    (fun {combatant start given} hgiven hid => ?_) h rfl
  obtain ⟨⟨applied, changed⟩, happly, hgiven⟩ := bind_eq_ok.mp hgiven
  obtain rfl := Except.ok.inj hgiven
  obtain ⟨powers, rfl⟩ := Combatant.applyPower_sameButPowers happly
  exact hid

/-- The enemies so far have different numbers, which were given out from one on. -/
structure GivenOut (combat : Combat) : Prop where
  nodup : (combat.enemies.map (·.id)).Nodup
  bounds : ∀ enemy ∈ combat.enemies, 0 < enemy.id.number ∧ enemy.id.number < combat.nextEnemyId
  next : 0 < combat.nextEnemyId

theorem GivenOut.numbered (h : GivenOut combat) : combat.Numbered := by
  refine ⟨h.nodup, fun hmem => ?_⟩
  obtain ⟨enemy, hmem, hid⟩ := List.mem_map.mp hmem
  have hpos := (h.bounds enemy hmem).1
  rw [hid] at hpos
  exact absurd hpos (by decide)

/-- **Those who gather** have different numbers. -/
theorem numbered_of_gather {templates : List EnemyTemplate}
    (h : rules.gather run templates = .ok combat) : combat.Numbered := by
  obtain ⟨nextCardUid, -, h⟩ := bind_eq_ok.mp h
  refine GivenOut.numbered (foldlM_preserves (P := GivenOut)
    (fun {combat template joined} hadd hgiven => ?_) h ⟨List.nodup_nil, by simp, Nat.one_pos⟩)
  obtain ⟨⟨id, issued⟩, hissue, hadd⟩ := bind_eq_ok.mp hadd
  obtain ⟨enemy, hspawn, hadd⟩ := bind_eq_ok.mp hadd
  obtain ⟨next, hnext, hissue⟩ := bind_eq_ok.mp hissue
  obtain ⟨-, rfl⟩ := Unsigned.add_eq_ok_iff.mp hnext
  obtain ⟨hnumber, rfl⟩ := Prod.mk.inj (Except.ok.inj hissue)
  obtain rfl := Except.ok.inj hadd
  have hid : enemy.id.number = combat.nextEnemyId := by rw [id_of_spawn hspawn, ← hnumber]
  have hpos := hgiven.next
  refine ⟨?nodup, fun other hmem => ?bounds, Nat.succ_pos _⟩
  case nodup =>
    show ((combat.enemies ++ [enemy]).map (·.id)).Nodup
    rw [List.map_append, List.nodup_append]
    refine ⟨hgiven.nodup, List.nodup_singleton _, fun x hx y hy heq => ?_⟩
    obtain ⟨other, hmem, rfl⟩ := List.mem_map.mp hx
    have hlt := (hgiven.bounds other hmem).2
    rw [heq, List.mem_singleton.mp hy, hid] at hlt
    exact Nat.lt_irrefl _ hlt
  case bounds =>
    show 0 < other.id.number ∧ other.id.number < combat.nextEnemyId + 1
    rcases List.mem_append.mp hmem with hmem | hmem
    · have := hgiven.bounds other hmem
      omega
    · rw [List.mem_singleton.mp hmem, hid]
      omega

/-! ## Calls -/

theorem numbered_of_accepted {call : Call}
    (hbefore : (∀ enemies, call ≠ .start enemies) → run.InCombat Combat.Numbered)
    (hcall : rules.perform run call = .ok (none, run')) : run'.InCombat Combat.Numbered := by
  obtain ⟨s, t, m, hm, -, hresolve, -, -, hcombat⟩ := undertakes_of_accepted hcall
  have hs : s.combat.Numbered := by
    by_cases hstart : ∃ enemies, call = .start enemies
    · obtain ⟨enemies, rfl⟩ := hstart
      generalize s.combat = combat at hm
      cases hm with
      | start _ hgather =>
          have hnumbered := numbered_of_gather hgather
          exact hnumbered
    · have hother : ∀ enemies, call ≠ .start enemies := fun enemies heq => hstart ⟨enemies, heq⟩
      exact hbefore hother _ (hm.combat_eq hother)
  have hfewer : Fewer s t := (fewer_governs.undertakes rules.content.permits_any
    (fun _ => .of_same rfl) (fun _ => .of_same rfl) (fun _ => .of_same rfl)
    (fun _ _ _ => .of_same rfl) hm).rel hresolve
  intro combat hc
  obtain rfl := Option.some.inj (hcombat.symm.trans hc)
  rw [Combat.endIfDecided_eq]
  exact hfewer.numbered hs

/-- **Combatants have different numbers** as long as a combat goes on, and in every new one. -/
theorem numbered_of_reaches (h : rules.Reaches run run') (hrun : run.InCombat Combat.Numbered) :
    run'.InCombat Combat.Numbered :=
  h.inCombat (fun hbefore hcall => numbered_of_accepted (fun _ => hbefore) hcall)
    (fun _ _ hn => hn) hrun

end Rules

end CardCombat
