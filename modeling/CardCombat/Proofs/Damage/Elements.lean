import CardCombat.Proofs.Damage.Unanswered
import CardCombat.Proofs.Powers.Stacking
import CardCombat.Proofs.Turns.Calm

/-!
# What the element of a hit does

A hit of an element may set off a combo with a status of the target: the first row of the table that
fits. The status is used up before the damage lands, the combo leaves a status of its own or none,
and the status of the element is left only where there is no combo. A status that is left is joined
to the one that is there like any other power, and it is left on the living only. So of all the
powers of a target that survives, none but these has changed, in size or in place; and one combo is
reported, or none, whatever else comes of the hit.

## Main definitions

* `Combo.IsSetOff` -- the combo that an element sets off.
* `PowerSet.spent`, `PowerSet.marked` -- powers without the status that a combo uses up, and with a
  status that is left.
* `Combo.Marks` -- what has become of the powers of a target that survives.

## Main results

* `Combo.isSetOff_iff` -- the first row that fits is the one that is found.
* `Combo.marks_of_spent` -- what the use of one status and the coming of another come to.
* `Resolution.landed_of_run`, `.settled_of_run`, `.followed_of_run` -- the stages of a hit.
* `Resolution.resolveHit_elements` -- a whole hit.
-/

namespace CardCombat

open Resolution

variable {rules : Rules} {catalog : Catalog PowerDefinition} {element : Element}
  {combo : Option Combo} {powers : PowerSet} {status id : PowerId} {stack : Int}

/-! ## Combos -/

/-- The status that a hit leaves: the one of its combo, or else the one of its element. -/
def Element.leaves (element : Element) (combo : Option Combo) : Option (PowerId × Int) :=
  combo.elim element.signature (·.apply)

namespace Combo

/-- A row of the table fits: it is of the element, and its status is there. -/
def Reacts (row : Combo) (element : Element) (powers : PowerSet) : Prop :=
  row.element = element ∧ powers.contains row.existing = true

/-- The combo that an element sets off: the first row of the table that fits, or none if none
does. -/
def IsSetOff (element : Element) (powers : PowerSet) : Option Combo → Prop
  | some row => ∃ front back, table = front ++ row :: back ∧ row.Reacts element powers ∧
      ∀ other ∈ front, ¬other.Reacts element powers
  | none => ∀ row ∈ table, ¬row.Reacts element powers

/-- **The first row that fits** is the one that is found. -/
theorem isSetOff_iff : IsSetOff element powers combo ↔ find? element powers.contains = combo := by
  have hfits (row : Combo) : row.Reacts element powers ↔
      (row.element == element && powers.contains row.existing) = true := by
    rw [Bool.and_eq_true, beq_iff_eq]
    rfl
  cases combo with
  | none =>
      unfold IsSetOff find?
      rw [List.find?_eq_none]
      exact forall_congr' fun row => forall_congr' fun _ => not_congr (hfits row)
  | some row =>
      unfold IsSetOff find?
      rw [List.find?_eq_some_iff_append]
      constructor
      · rintro ⟨front, back, htable, hrow, hfront⟩
        refine ⟨(hfits row).mp hrow, front, back, htable, fun other hmem => ?_⟩
        rw [Bool.not_eq_true', ← Bool.not_eq_true, ← hfits]
        exact hfront other hmem
      · rintro ⟨hrow, front, back, htable, hfront⟩
        refine ⟨front, back, htable, (hfits row).mpr hrow, fun other hmem => ?_⟩
        rw [hfits, Bool.not_eq_true, ← Bool.not_eq_true']
        exact hfront other hmem

theorem mem_table_of_isSetOff {row : Combo} (h : IsSetOff element powers (some row)) :
    row ∈ table ∧ row.element = element := by
  obtain ⟨front, back, htable, ⟨helement, -⟩, -⟩ := h
  exact ⟨htable ▸ List.mem_append_right front List.mem_cons_self, helement⟩

/-- The table: a combo leaves neither the status that it uses up nor that of its element, and what
it leaves is a status of an element. -/
theorem of_mem_table {row : Combo} (h : row ∈ table) : ∀ left ∈ row.apply,
    left.1 ≠ row.existing ∧ left.1 ∈ Element.statuses ∧
      ∀ sign ∈ row.element.signature, left.1 ≠ sign.1 := by
  have hall : ∀ row ∈ table, ∀ left ∈ row.apply, left.1 ≠ row.existing ∧
      left.1 ∈ Element.statuses ∧ ∀ sign ∈ row.element.signature, left.1 ≠ sign.1 := by decide
  exact hall row h

end Combo

theorem Element.mem_statuses_of_signature :
    ∀ status stack, element.signature = some (status, stack) → status ∈ Element.statuses := by
  have hall : ∀ sign ∈ element.signature, sign.1 ∈ Element.statuses := by
    cases element <;> decide
  exact fun _ _ hsign => hall _ hsign

/-! ## Powers that come and go -/

namespace PowerSet

/-- The powers without the status that a combo uses up. -/
def spent (powers : PowerSet) (combo : Option Combo) : PowerSet :=
  combo.elim powers fun row => powers.remove row.existing

/-- The power that a status is joined to, if the status is known. It goes if its stack is not
positive then and it is meant to. -/
def joinedStatus (definition : PowerDefinition) (powers : PowerSet) (status : PowerId)
    (stack : Int) : Option Power :=
  (some (Power.joined definition.stacking status (powers.get? status) { amount := stack })).filter
    fun pile => !(decide (pile.amount ≤ 0) && definition.removeAtZero)

/-- The powers with a status that is left. -/
def marked (catalog : Catalog PowerDefinition) (powers : PowerSet) (status : PowerId)
    (stack : Int) : PowerSet :=
  (catalog.find? status).elim powers fun definition =>
    (powers.joinedStatus definition status stack).elim (powers.remove status) powers.insert

/-- The powers with the status that is left, if there is one. -/
def markedBy (catalog : Catalog PowerDefinition) (powers : PowerSet)
    (left : Option (PowerId × Int)) : PowerSet :=
  left.elim powers fun left => powers.marked catalog left.1 left.2

variable {keep : PowerId → Bool} {power : Power}

theorem id_of_joinedStatus {definition : PowerDefinition} {pile : Power}
    (h : powers.joinedStatus definition status stack = some pile) : pile.id = status := by
  obtain ⟨heq, -⟩ := Option.filter_eq_some_iff.mp h
  obtain rfl := Option.some.inj heq
  cases hheld : powers.get? status with
  | none => rfl
  | some held =>
      show held.id = status
      exact id_of_get? hheld

/-- What does not look at a power does not see it go. -/
theorem filter_remove (h : keep id = false) :
    (powers.remove id).filter (keep ·.id) = powers.filter (keep ·.id) := by
  induction powers with
  | nil => rfl
  | cons first powers ih =>
      unfold remove at ih ⊢
      by_cases hid : first.id = id
      · simp [hid, h]
      · simp [hid, List.filter_cons, ih]

/-- What does not look at a power does not see it come. -/
theorem filter_insert (h : keep power.id = false) :
    (insert power powers).filter (keep ·.id) = powers.filter (keep ·.id) := by
  induction powers with
  | nil => simp [insert, h]
  | cons first powers ih =>
      unfold insert
      by_cases hid : first.id = power.id
      · simp [hid, h]
      · simp [hid, List.filter_cons, ih]

/-- A status that is left is joined to the one that is there, and no other power changes. -/
theorem get?_marked {definition : PowerDefinition} (hfind : catalog.find? status = some definition)
    (hnodup : (powers.map (·.id)).Nodup) :
    (powers.marked catalog status stack).get? status =
      powers.joinedStatus definition status stack := by
  unfold marked
  rw [hfind]
  show ((powers.joinedStatus definition status stack).elim _ _ : PowerSet).get? status = _
  cases hjoined : powers.joinedStatus definition status stack with
  | none => exact get?_remove_self hnodup
  | some pile =>
      have hpile : pile.id = status := id_of_joinedStatus hjoined
      rw [Option.elim_some, ← hpile]
      exact get?_insert_self powers pile

theorem get?_marked_ne (h : id ≠ status) :
    (powers.marked catalog status stack).get? id = powers.get? id := by
  unfold marked
  cases catalog.find? status with
  | none => rfl
  | some definition =>
      show ((powers.joinedStatus definition status stack).elim _ _ : PowerSet).get? id = _
      cases hjoined : powers.joinedStatus definition status stack with
      | none => exact get?_remove_ne h
      | some pile => exact get?_insert_ne powers pile (id_of_joinedStatus hjoined ▸ h)

theorem filter_marked (h : catalog.contains status = true → keep status = false) :
    (powers.marked catalog status stack).filter (keep ·.id) = powers.filter (keep ·.id) := by
  unfold marked
  cases hfind : catalog.find? status with
  | none => rfl
  | some definition =>
      have hkeep := h (by unfold Catalog.contains; rw [hfind]; rfl)
      show List.filter _ ((powers.joinedStatus definition status stack).elim _ _ : PowerSet) = _
      cases hjoined : powers.joinedStatus definition status stack with
      | none => exact filter_remove hkeep
      | some pile => exact filter_insert (id_of_joinedStatus hjoined ▸ hkeep)

theorem nodup_spent (h : (powers.map (·.id)).Nodup) :
    ((powers.spent combo).map (·.id)).Nodup := by
  cases combo with
  | none => exact h
  | some row => exact h.sublist (List.eraseP_sublist.map _)

theorem get?_spent_ne (h : ∀ row, combo = some row → id ≠ row.existing) :
    (powers.spent combo).get? id = powers.get? id := by
  cases combo with
  | none => rfl
  | some row => exact get?_remove_ne (h row rfl)

theorem get?_markedBy_ne {left : Option (PowerId × Int)}
    (h : ∀ status stack, left = some (status, stack) → id ≠ status) :
    (powers.markedBy catalog left).get? id = powers.get? id := by
  cases left with
  | none => rfl
  | some left => exact get?_marked_ne (h left.1 left.2 rfl)

theorem filter_spent (h : ∀ row, combo = some row → keep row.existing = false) :
    (powers.spent combo).filter (keep ·.id) = powers.filter (keep ·.id) := by
  cases combo with
  | none => rfl
  | some row => exact filter_remove (h row rfl)

theorem filter_markedBy {left : Option (PowerId × Int)}
    (h : ∀ status stack, left = some (status, stack) → catalog.contains status = true →
      keep status = false) :
    (powers.markedBy catalog left).filter (keep ·.id) = powers.filter (keep ·.id) := by
  cases left with
  | none => rfl
  | some left => exact filter_marked (h left.1 left.2 rfl)

end PowerSet

/-- **A status that is left** on someone. -/
theorem Combatant.eq_of_applyStatus {before after : Combatant} {applied : Option Int}
    (h : before.applyPower catalog status stack none = .ok (applied, after)) :
    after = { before with powers := before.powers.marked catalog status stack } := by
  unfold PowerSet.marked
  cases hfind : catalog.find? status with
  | none =>
      unfold applyPower at h
      rw [hfind] at h
      obtain ⟨-, rfl⟩ := Prod.mk.inj (Except.ok.inj h)
      rfl
  | some definition =>
      have hfits := applyPower_succeeds_iff.mp ⟨_, h⟩
      have heq := @applyPower_eq catalog before status definition { amount := stack } hfind
        fun power hheld => hfits definition power hfind hheld
      have h := heq.symm.trans h
      unfold PowerSet.joinedStatus
      rw [Option.elim_some, Option.filter_some]
      dsimp only at h
      split at h
      case isTrue hgone =>
        obtain ⟨-, rfl⟩ := Prod.mk.inj (Except.ok.inj h)
        rw [hgone]
        rfl
      case isFalse hstays =>
        obtain ⟨-, rfl⟩ := Prod.mk.inj (Except.ok.inj h)
        rw [Bool.not_eq_true] at hstays
        rw [hstays]
        rfl

/-- What has become of the powers of a target that survives a hit. That one status is gone and
another one came is said of powers with different names, as they are held in every combat. -/
structure Combo.Marks (catalog : Catalog PowerDefinition) (element : Element)
    (combo : Option Combo) (before after : PowerSet) : Prop where
  /-- The status that the combo has reacted with is gone. -/
  lost : (before.map (·.id)).Nodup → ∀ row, combo = some row → after.get? row.existing = none
  /-- The status that is left, if it is known, is joined to the one that was there. -/
  gained : (before.map (·.id)).Nodup →
    ∀ status stack definition, element.leaves combo = some (status, stack) →
      catalog.find? status = some definition →
        after.get? status = before.joinedStatus definition status stack
  /-- Where there is a combo, the status of the element is not gained: it is as it was, or gone if
  the combo has used it up. -/
  unsigned : (before.map (·.id)).Nodup →
    ∀ row status stack, combo = some row → element.signature = some (status, stack) →
      after.get? status = if status = row.existing then none else before.get? status
  /-- All powers but the status that was used up and the one that was left, if it is known, are as
  they were and in their order. -/
  others : ∀ keep : PowerId → Bool,
    (∀ row, combo = some row → keep row.existing = false) →
    (∀ status stack, element.leaves combo = some (status, stack) →
      catalog.contains status = true → keep status = false) →
    after.filter (keep ·.id) = before.filter (keep ·.id)

namespace Combo

variable {before : PowerSet}

/-- **What is used up and what is left** come to this. -/
theorem marks_of_spent (hcombo : ∀ row, combo = some row → row ∈ table ∧ row.element = element) :
    Marks catalog element combo before
      ((before.spent combo).markedBy catalog (element.leaves combo)) where
  lost := by
    rintro hnodup row rfl
    have hleft : ∀ status stack, element.leaves (some row) = some (status, stack) →
        row.existing ≠ status :=
      fun status stack hleaves => (of_mem_table (hcombo row rfl).1 (status, stack) hleaves).1.symm
    rw [PowerSet.get?_markedBy_ne hleft]
    exact PowerSet.get?_remove_self hnodup
  gained := by
    intro hnodup status stack definition hleaves hfind
    have hother : ∀ row, combo = some row → status ≠ row.existing := by
      rintro row rfl
      exact (of_mem_table (hcombo row rfl).1 (status, stack) hleaves).1
    rw [hleaves]
    refine (PowerSet.get?_marked hfind (PowerSet.nodup_spent hnodup)).trans ?_
    unfold PowerSet.joinedStatus
    rw [PowerSet.get?_spent_ne hother]
  unsigned := by
    rintro hnodup row status stack rfl hsignature
    obtain ⟨htable, helement⟩ := hcombo row rfl
    have hsign : (status, stack) ∈ row.element.signature := helement ▸ hsignature
    have hleft : ∀ left leftStack, element.leaves (some row) = some (left, leftStack) →
        status ≠ left :=
      fun left leftStack hleaves =>
        ((of_mem_table htable (left, leftStack) hleaves).2.2 (status, stack) hsign).symm
    rw [PowerSet.get?_markedBy_ne hleft]
    split
    case isTrue hspent =>
      rw [hspent]
      exact PowerSet.get?_remove_self hnodup
    case isFalse hkept => exact PowerSet.get?_remove_ne hkept
  others keep hspent hleft := by
    rw [PowerSet.filter_markedBy hleft, PowerSet.filter_spent hspent]

end Combo

/-! ## The stages of a hit -/

namespace Resolution

variable {nested : List Effect → Context → Resolution Unit} {ctx : Context} {target : CombatantId}
  {hit : Hit} {s t u : Scene} {defender struck : Combatant}

/-- The defender with other powers, and with what damage has left of block, barrier and health. -/
def Struck (powers : PowerSet) (defender struck : Combatant) : Prop :=
  ∃ block barrier health, struck = { defender with block, barrier, health, powers }

/-- What is told of the combos of a hit from one scene to the next. -/
def TellsCombos (combos : List Event) (s t : Scene) : Prop :=
  ∃ events : List Event, t.combat.events = s.combat.events ++ events.toArray ∧
    events.filter (·.isCombo) = combos

/-- What passes others by tells of no combo. -/
theorem TellsCombos.passesBy {combos : List Event} {spared : CombatantId → Prop}
    (h : TellsCombos combos s t) (h' : PassesBy rules spared t u) : TellsCombos combos s u := by
  obtain ⟨events, htold, rfl⟩ := h
  obtain ⟨events', htold', hplain⟩ := h'.told
  refine ⟨events ++ events', by simp [htold', htold, Array.append_assoc], ?_⟩
  rw [List.filter_append, Event.filter_isCombo_eq_nil hplain, List.append_nil]

/-- The combo that is found for a hit is found by its element. -/
theorem find?_of_withCombo {combat : Combat} {amount : Int}
    (h : hit.withCombo catalog combat ctx defender = .ok (combo, amount)) :
    Combo.find? hit.element defender.powers.contains = combo := by
  obtain ⟨plain, -, h⟩ := bind_eq_ok.mp h
  split at h
  case h_1 row hfound =>
    obtain ⟨scaled, -, h⟩ := bind_eq_ok.mp h
    exact hfound.trans (Prod.mk.inj (Except.ok.inj h)).1
  case h_2 hnone => exact hnone.trans (Prod.mk.inj (Except.ok.inj h)).1

/-- **A combo** uses up its status and is told of. -/
theorem spent_of_run {a : Unit} (hs : s.Unanswered rules)
    (hc : s.combat.combatant? target = some defender)
    (h : (combo.forM (consume target defender)).run s = .ok (a, t)) :
    t.Unanswered rules ∧
      TellsCombos (combo.map fun row => .combo target row.name).toList s t ∧
      t.combat.combatant? target =
        some { defender with powers := defender.powers.spent combo } := by
  cases combo with
  | none =>
      obtain ⟨-, rfl⟩ := run_pure_iff.mp h
      exact ⟨hs, ⟨[], Array.append_empty.symm, rfl⟩, hc⟩
  | some row =>
      obtain rfl := consumed_of_run h
      have hmute : defender.Mute rules.content.powers → Combatant.Mute rules.content.powers
          { defender with powers := defender.powers.remove row.existing } :=
        fun hm => hm.of_subset List.eraseP_subset
      have hset : PassesBy rules (· ≠ target) s (s.setCombatant target
          { defender with powers := defender.powers.remove row.existing }) :=
        .of_setCombatant (fun hne => hne rfl) hc rfl hmute
      refine ⟨(hset.unanswered hs).tell _, ⟨comboEvents target (some row), ?_, rfl⟩, ?_⟩
      · rw [Scene.tell_eq, Scene.events_setCombatant]
        rfl
      · have hid : Combatant.id { defender with powers := defender.powers.remove row.existing } =
            defender.id := rfl
        rw [Scene.tell_eq]
        exact (Scene.combatant?_setCombatant hc hid).trans (if_pos rfl)

/-- **The landing**: a combo has been told of and has used up its status, and what damage has left
of the defender is there. -/
theorem landed_of_run {found : Option (Option Combo × Int × DamageReport)}
    (hs : s.Unanswered rules) (hc : s.combat.combatant? target = some defender)
    (halive : defender.isAlive = true)
    (h : (landHit rules ctx target hit).run s = .ok (found, t)) :
    ∃ combo amount outcome struck, found = some (combo, amount, outcome) ∧
      Combo.find? hit.element defender.powers.contains = combo ∧ t.Unanswered rules ∧
      TellsCombos (combo.map fun row => .combo target row.name).toList s t ∧
      t.combat.combatant? target = some struck ∧
        Struck (defender.powers.spent combo) defender struck ∧
        outcome.killed = !struck.isAlive := by
  obtain ⟨_, _, hcombat, h⟩ := run_bind_iff.mp h
  obtain ⟨rfl, rfl⟩ := run_combat_iff.mp hcombat
  rw [hc, Option.filter_some_pos halive] at h
  obtain ⟨⟨combo, amount⟩, _, hlift, h⟩ := run_bind_iff.mp h
  obtain ⟨hcombo, rfl⟩ := run_lift_iff.mp hlift
  obtain ⟨_, u, hconsume, h⟩ := run_bind_iff.mp h
  obtain ⟨hu, hcombos, hthere⟩ := spent_of_run hs hc hconsume
  obtain ⟨found, v, hdeal, h⟩ := run_bind_iff.mp h
  have hdealt : PassesBy rules (· ≠ target) u v :=
    (Passing.dealDamage (fun hne => hne rfl) _ _ _ _).lasts hu hdeal
  obtain ⟨outcome, after, stats, rfl, htake, -, rfl⟩ := reached_of_run hthere hdeal
  obtain ⟨rfl, rfl⟩ := run_pure_iff.mp h
  obtain ⟨block, barrier, health, hafter, hkilled, -⟩ := Combatant.takeDamage_parts htake
  have hid : after.id = defender.id := by rw [hafter]
  have hliving : Combatant.isAlive
      { defender with powers := defender.powers.spent combo } = true := halive
  refine ⟨combo, amount, outcome, _, rfl, find?_of_withCombo hcombo, hdealt.unanswered hu,
    hcombos.passesBy hdealt, ?_, ⟨block, barrier, health, hafter⟩, ?_⟩
  · show (u.setCombatant target after).combat.combatant? target = some after
    rw [Scene.combatant?_setCombatant hthere hid, if_pos rfl]
  · rw [hkilled, hliving, Bool.true_and]

/-- A status that is left on the living is joined to their powers. -/
theorem marked_of_run {a : Unit} (hc : s.combat.combatant? target = some struck)
    (halive : struck.isAlive = true)
    (h : (leaveStatus rules target status stack).run s = .ok (a, t)) :
    t.combat.combatant? target =
      some { struck with powers := struck.powers.marked rules.content.powers status stack } := by
  obtain ⟨found, _, hfound, h⟩ := run_bind_iff.mp h
  obtain ⟨rfl, rfl⟩ := run_combatant?_iff.mp hfound
  rw [hc, Option.filter_some_pos halive] at h
  simp only [run_bind_iff, run_lift_iff, run_setCombatant_iff, run_if_report_iff] at h
  obtain ⟨⟨applied, after⟩, _, ⟨happly, rfl⟩, _, _, rfl, rfl⟩ := h
  have hafter := Combatant.eq_of_applyStatus happly
  have hid : after.id = struck.id := by rw [hafter]
  rw [Scene.tell_eq, ← hafter]
  exact (Scene.combatant?_setCombatant hc hid).trans (if_pos rfl)

/-- If there is a status to be left, it is left on the living. -/
theorem markedBy_of_run {left : Option (PowerId × Int)} {a : Unit}
    (hc : s.combat.combatant? target = some struck) (halive : struck.isAlive = true)
    (h : (left.forM fun left => leaveStatus rules target left.1 left.2).run s = .ok (a, t)) :
    t.combat.combatant? target =
      some { struck with powers := struck.powers.markedBy rules.content.powers left } := by
  cases left with
  | none =>
      obtain ⟨-, rfl⟩ := run_pure_iff.mp h
      exact hc
  | some left => exact marked_of_run hc halive h

/-- A status of an element that is left concerns the target only. -/
theorem passing_forSome_leaveStatus {left : Option (PowerId × Int)}
    (hs : s.Unanswered rules) (hleft : ∀ status stack, left = some (status, stack) →
      status ∈ Element.statuses) :
    Passing rules (· ≠ target) (left.forM fun left => leaveStatus rules target left.1 left.2) :=
  .forSome fun left heq => .leaveStatus (fun hne => hne rfl) left.2
    (hs.statuses left.1 (hleft left.1 left.2 heq))

/-- What a combo leaves concerns the target only. -/
theorem passing_apply {row : Combo} (hs : s.Unanswered rules) (hrow : row ∈ Combo.table) :
    Passing rules (· ≠ target)
      (row.apply.forM fun left => leaveStatus rules target left.1 left.2) :=
  passing_forSome_leaveStatus hs fun status stack heq =>
    (Combo.of_mem_table hrow (status, stack) heq).2.1

/-- What leaps from the target does not concern it. -/
theorem passing_chain (row : Combo) (dealt : Int) :
    Passing rules (· = target) (row.chainPercent.forM fun percent => do
      leap rules nested ctx target row.element (← Signed.percentOf dealt percent)) :=
  .forSome fun _ _ => .bind (.lift (.percentOf _ _)) fun _ => .leap _ _

/-- **What the combo brings about** leaves its status on the target and else concerns others, unless
the target is executed. -/
theorem settled_of_run {dealt : Int} {executed : Bool} (hs : s.Unanswered rules)
    (hcombo : ∀ row, combo = some row → row ∈ Combo.table)
    (hc : s.combat.combatant? target = some struck)
    (h : (settleCombo rules nested ctx target combo dealt).run s = .ok (executed, t)) :
    PassesBy rules (fun _ => False) s t ∧
      (executed = false → struck.isAlive = true → t.combat.combatant? target =
        some { struck with
          powers := struck.powers.markedBy rules.content.powers (combo.bind (·.apply)) }) := by
  cases combo with
  | none =>
      obtain ⟨-, rfl⟩ := run_pure_iff.mp h
      exact ⟨PassesBy.flow.refl s, fun _ _ => hc⟩
  | some row =>
      obtain ⟨_, u, hleave, h⟩ := run_bind_iff.mp h
      have hleft : PassesBy rules (· ≠ target) s u :=
        (passing_apply hs (hcombo row rfl)).lasts hs hleave
      obtain ⟨_, v, hleap, h⟩ := run_bind_iff.mp h
      have hleapt : PassesBy rules (· = target) u v :=
        (passing_chain row dealt).lasts (hleft.unanswered hs) hleap
      have hsv : PassesBy rules (fun _ => False) s v :=
        PassesBy.flow.trans (hleft.mono nofun) (hleapt.mono nofun)
      have hthere : struck.isAlive = true → v.combat.combatant? target =
          some { struck with powers := struck.powers.markedBy rules.content.powers row.apply } :=
        fun halive => hleapt.spared target _ rfl (markedBy_of_run hc halive hleave) halive
      split at h
      case h_1 percent hpercent =>
        refine ⟨PassesBy.flow.trans hsv (.of_executeBelow id h), ?_⟩
        rintro rfl
        rcases executed_of_run h with ⟨-, rfl⟩ | ⟨hexecuted, -⟩
        · exact hthere
        · exact absurd hexecuted Bool.false_ne_true
      case h_2 =>
        obtain ⟨-, rfl⟩ := run_pure_iff.mp h
        exact ⟨hsv, fun _ => hthere⟩

/-- What comes of damage where nobody answers: a death, or nothing. -/
theorem run_afterDamage_of_unanswered (hs : s.Unanswered rules) (outcome : DamageReport)
    (attack : Bool) : (afterDamage rules nested ctx target outcome attack).run s =
      (onlyIf outcome.killed (die rules nested ctx target ctx.source)).run s := by
  have hpass {called : Bool} {m : Resolution Unit} (hm : m.run s = .ok ((), s)) :
      (onlyIf called m).run s = .ok ((), s) := by
    cases called with
    | true => exact hm
    | false => rfl
  have hattack : (do
      react rules nested ctx.source .attack (some target) ctx
      react rules nested target .attacked (some ctx.source) ctx).run s = .ok ((), s) := by
    rw [run_bind_of_ok (run_react_of_unanswered hs (by decide) _ _ _)]
    exact run_react_of_unanswered hs (by decide) _ _ _
  unfold afterDamage
  rw [run_bind_of_ok (hpass hattack)]
  exact run_bind_of_ok (hpass (run_react_of_unanswered hs (by decide) _ _ _))

/-- **A death** where nobody answers is told of, and nothing else is. -/
theorem events_of_die {killer : CombatantId} {a : Unit} (hs : s.Unanswered rules)
    (h : (die rules nested ctx target killer).run s = .ok (a, t)) :
    t.combat.events = s.combat.events.push (.death target) := by
  obtain ⟨counted, heard, hcount, hreact, hkill⟩ := death_of_run h
  have hcounted : counted.Unanswered rules ∧
      counted.combat.events = s.combat.events.push (.death target) := by
    have hreported : ((s.report (.death target)).record (.died target)).Unanswered rules :=
      ⟨hs.held, hs.relics, hs.statuses⟩
    rcases hcount with ⟨-, rfl⟩ | ⟨-, enemiesKilled, -, rfl⟩
    · exact ⟨hreported, rfl⟩
    · exact ⟨⟨hs.held, hs.relics, hs.statuses⟩, rfl⟩
  obtain ⟨hcounted, hevents⟩ := hcounted
  rw [run_react_of_unanswered hcounted (by decide)] at hreact
  obtain ⟨-, rfl⟩ := Prod.mk.inj (Except.ok.inj hreact)
  have hburied : PassesBy rules (fun _ => False) counted counted.bury := .of_bury
  rcases run_onlyIf_iff.mp hkill with ⟨-, hkill⟩ | ⟨-, rfl⟩
  · rw [run_react_of_unanswered (hburied.unanswered hcounted) (by decide)] at hkill
    obtain ⟨-, rfl⟩ := Prod.mk.inj (Except.ok.inj hkill)
    exact hevents
  · exact hevents

/-- The status of the element is left only where there is no combo; then, on the living, all that is
to be left was left. -/
theorem signed_of_run {a : Unit} (halive : struck.isAlive = true)
    (hc : s.combat.combatant? target = some { struck with
      powers := struck.powers.markedBy rules.content.powers (combo.bind (·.apply)) })
    (h : (onlyIf combo.isNone do
      element.signature.forM fun left => leaveStatus rules target left.1 left.2).run s =
        .ok (a, t)) :
    t.combat.combatant? target = some { struck with
      powers := struck.powers.markedBy rules.content.powers (element.leaves combo) } := by
  cases combo with
  | none => exact markedBy_of_run hc halive h
  | some row =>
      obtain ⟨-, rfl⟩ := run_pure_iff.mp h
      exact hc

/-- **What follows of a hit that has landed**: no further combo is told of; if the target is killed
that is told of, and else the status that is to be left was left on it. -/
theorem followed_of_run {amount : Int} {landed outcome : DamageReport} (hs : s.Unanswered rules)
    (hcombo : ∀ row, combo = some row → row ∈ Combo.table) (honHit : hit.onHit = [])
    (hc : s.combat.combatant? target = some struck) (hkilled : landed.killed = !struck.isAlive)
    (h : (aftermath rules nested ctx target hit combo amount landed).run s = .ok (outcome, t)) :
    ∃ events : List Event, t.combat.events = s.combat.events ++ events.toArray ∧
      (∀ event ∈ events, event.isCombo = false) ∧
      (outcome.killed = true → .death target ∈ events) ∧
      (outcome.killed = false → struck.isAlive = true ∧ t.combat.combatant? target =
        some { struck with
          powers := struck.powers.markedBy rules.content.powers (hit.element.leaves combo) }) := by
  obtain ⟨executed, u, hsettle, h⟩ := run_bind_iff.mp h
  obtain ⟨hsu, hsettled⟩ := settled_of_run hs hcombo hc hsettle
  obtain ⟨_, _, hskip, h⟩ := run_bind_iff.mp h
  rw [honHit] at hskip
  obtain ⟨-, rfl⟩ := run_pure_iff.mp hskip
  obtain ⟨_, v, hsign, h⟩ := run_bind_iff.mp h
  obtain ⟨_, w, hafter, h⟩ := run_bind_iff.mp h
  obtain ⟨rfl, rfl⟩ := run_pure_iff.mp h
  have huv : PassesBy rules (· ≠ target) u v :=
    (Passing.onlyIf (passing_forSome_leaveStatus (hsu.unanswered hs)
      Element.mem_statuses_of_signature)).lasts (hsu.unanswered hs) hsign
  have hsv : PassesBy rules (fun _ => False) s v := PassesBy.flow.trans hsu (huv.mono nofun)
  obtain ⟨events, htold, hplain⟩ := hsv.told
  have hv := hsv.unanswered hs
  rw [run_afterDamage_of_unanswered hv] at hafter
  dsimp only
  rcases run_onlyIf_iff.mp hafter with ⟨hdead, hdie⟩ | ⟨hlives, rfl⟩
  · refine ⟨events ++ [.death target], ?_, ?_, ?_, ?_⟩
    · rw [events_of_die hv hdie, htold]
      simp
    · intro event hmem
      rcases List.mem_append.mp hmem with hmem | hmem
      · exact hplain event hmem
      · obtain rfl := List.mem_singleton.mp hmem
        rfl
    · exact fun _ => List.mem_append_right events (List.mem_singleton_self _)
    · exact fun hlives => absurd (hdead.symm.trans hlives) nofun
  · refine ⟨events, htold, hplain, fun hdead => absurd (hdead.symm.trans hlives) nofun, fun _ => ?_⟩
    obtain ⟨hlanded, hexecuted⟩ := Bool.or_eq_false_iff.mp hlives
    have halive : struck.isAlive = true := by simpa [hkilled] using hlanded
    exact ⟨halive, signed_of_run halive (hsettled hexecuted halive) hsign⟩

/-! ## What may fail -/

/-- An execution fails by overflow only, unless the greatest health of the target is negative. -/
theorem onlyOverflows_executeBelow (percent : Int)
    (hmax : ∀ combatant, s.combat.combatant? target = some combatant → 0 ≤ combatant.maxHealth) :
    OnlyOverflows ((executeBelow target percent).run s) := by
  refine onlyOverflows_bind (.pure _) fun found t hfound => ?_
  obtain ⟨rfl, rfl⟩ := run_combatant?_iff.mp hfound
  split
  case h_1 => exact .pure _
  case h_2 combatant hcombatant =>
    have hpositive := hmax combatant (Option.filter_eq_some_iff.mp hcombatant).1
    refine onlyOverflows_bind (.bind .healthPercent fun _ => .pure _) fun _ _ _ => ?_
    split
    · refine onlyOverflows_bind (.bind (.setHealth 0 hpositive) fun _ => .pure _)
        fun after _ _ => ?_
      exact (Secure.bind (.setCombatant target after) fun _ =>
        .bind (.report (.execute target)) fun _ => .pure true).fails trivial
    · exact .pure _

/-- Combos that execute do nothing before that. -/
theorem executes_only_of_mem_table {row : Combo} (h : row ∈ Combo.table)
    (hexecutes : row.executeBelowPercent.isSome = true) :
    row.apply = none ∧ row.chainPercent = none := by
  have hall : ∀ row ∈ Combo.table, row.executeBelowPercent.isSome = true →
      row.apply = none ∧ row.chainPercent = none := by decide
  exact hall row h hexecutes

theorem onlyOverflows_settleCombo (dealt : Int) (hs : s.Unanswered rules)
    (hcombo : ∀ row, combo = some row → row ∈ Combo.table)
    (hmax : ∀ combatant, s.combat.combatant? target = some combatant → 0 ≤ combatant.maxHealth) :
    OnlyOverflows ((settleCombo rules nested ctx target combo dealt).run s) := by
  cases combo with
  | none => exact .pure _
  | some row =>
      show OnlyOverflows ((comboConsequences rules nested ctx target row dealt).run s)
      unfold comboConsequences
      cases hexecutes : row.executeBelowPercent with
      | some percent =>
          obtain ⟨happly, hchain⟩ :=
            executes_only_of_mem_table (hcombo row rfl) (by rw [hexecutes]; rfl)
          rw [happly, hchain]
          exact onlyOverflows_executeBelow percent hmax
      | none =>
          refine onlyOverflows_bind ((passing_apply hs (hcombo row rfl)).fails hs)
            fun _ u hleave => ?_
          have hleft : PassesBy rules (· ≠ target) s u :=
            (passing_apply hs (hcombo row rfl)).lasts hs hleave
          refine onlyOverflows_bind ((passing_chain row dealt).fails (hleft.unanswered hs)) ?_
          exact fun _ _ _ => .pure _

/-- **A hit fails by overflow only** where nobody answers, unless the greatest health of the target
is negative. -/
theorem onlyOverflows_resolveHit (hs : s.Unanswered rules)
    (hc : s.combat.combatant? target = some defender) (halive : defender.isAlive = true)
    (honHit : hit.onHit = []) (hmax : 0 ≤ defender.maxHealth) :
    OnlyOverflows ((resolveHit rules nested ctx target hit).run s) := by
  rw [resolveHit_eq]
  refine onlyOverflows_bind (landHit_secure.fails trivial) fun found t hland => ?_
  obtain ⟨combo, amount, landed, struck, rfl, hcombo, ht, -, hthere, ⟨_, _, _, rfl⟩, -⟩ :=
    landed_of_run hs hc halive hland
  have htable : ∀ row, combo = some row → row ∈ Combo.table := by
    rintro row rfl
    exact List.mem_of_find?_eq_some hcombo
  have hmax' : ∀ combatant, t.combat.combatant? target = some combatant →
      0 ≤ combatant.maxHealth := fun combatant hfound =>
    Option.some.inj (hthere.symm.trans hfound) ▸ hmax
  have hsigned : Passing rules (· ≠ target) (onlyIf combo.isNone do
      hit.element.signature.forM fun left => leaveStatus rules target left.1 left.2) :=
    .onlyIf (passing_forSome_leaveStatus ht Element.mem_statuses_of_signature)
  refine onlyOverflows_bind ?_ fun outcome _ _ => .pure _
  refine onlyOverflows_bind (onlyOverflows_settleCombo amount ht htable hmax')
    fun executed u hsettle => ?_
  rw [honHit]
  exact (Passing.bind (.pure ()) fun _ => hsigned.bind fun _ => .bind
    (Passing.afterDamage _ true) fun _ => .pure _).fails
      ((settled_of_run ht htable hthere hsettle).1.unanswered ht)

/-- **What the element of a hit does** where nobody answers it, to a living target, without effects
of the hit. It fails by overflow only, unless the greatest health of the target is negative. If it
succeeds, exactly one combo is told of if the element sets one off, namely that one, and else none;
and if the target is not killed, its powers are those of before but for the status that the combo
has used up and the status that was left. -/
theorem resolveHit_elements (hs : s.Unanswered rules)
    (hc : s.combat.combatant? target = some defender) (halive : defender.isAlive = true)
    (honHit : hit.onHit = []) (hcombo : Combo.IsSetOff hit.element defender.powers combo) :
    (0 ≤ defender.maxHealth → OnlyOverflows ((resolveHit rules nested ctx target hit).run s)) ∧
    ∀ found t, (resolveHit rules nested ctx target hit).run s = .ok (found, t) →
      ∃ outcome events, found = some outcome ∧
        t.combat.events = s.combat.events ++ (events : List Event).toArray ∧
        events.filter (·.isCombo) = (combo.map fun row => .combo target row.name).toList ∧
        (outcome.killed = true → .death target ∈ events) ∧
        (outcome.killed = false → ∃ survivor, t.combat.combatant? target = some survivor ∧
          survivor.isAlive = true ∧ Combo.Marks rules.content.powers hit.element combo
            defender.powers survivor.powers) := by
  refine ⟨onlyOverflows_resolveHit hs hc halive honHit, fun found t h => ?_⟩
  rw [resolveHit_eq] at h
  obtain ⟨_, u, hland, h⟩ := run_bind_iff.mp h
  obtain ⟨combo', amount, landed, struck, rfl, hfind, hu, ⟨events, htold, hcombos⟩, hthere,
    ⟨block, barrier, health, rfl⟩, hkilled⟩ := landed_of_run hs hc halive hland
  obtain rfl : combo' = combo := hfind.symm.trans (Combo.isSetOff_iff.mp hcombo)
  obtain ⟨outcome, _, hafter, h⟩ := run_bind_iff.mp h
  obtain ⟨rfl, rfl⟩ := run_pure_iff.mp h
  have hrows : ∀ row, combo' = some row → row ∈ Combo.table ∧ row.element = hit.element := by
    rintro row rfl
    exact Combo.mem_table_of_isSetOff hcombo
  obtain ⟨events', htold', hplain', hdead, hlives⟩ :=
    followed_of_run hu (fun row heq => (hrows row heq).1) honHit hthere hkilled hafter
  refine ⟨outcome, events ++ events', rfl, ?_, ?_, ?_, fun hlanded => ?_⟩
  · simp [htold', htold, Array.append_assoc]
  · rw [List.filter_append, hcombos, Event.filter_isCombo_eq_nil hplain', List.append_nil]
  · exact fun hkilled => List.mem_append_right events (hdead hkilled)
  · obtain ⟨halive, hsurvivor⟩ := hlives hlanded
    exact ⟨_, hsurvivor, halive, Combo.marks_of_spent hrows⟩

end Resolution

/-! ## A hit of ice -/

/-- Someone is wet, burning and strong. -/
def burningPowers : PowerSet :=
  [{ id := "wet", amount := 1 }, { id := "burning", amount := 3 },
    { id := "strength", amount := 2 }]

/-- The enemy is. -/
def burningScene : Scene := brawlScene [] burningPowers

/-- The combo of ice with fire. -/
def extinguish : Combo :=
  { name := "Extinguish", existing := "burning", element := .ice, apply := some ("wet", 2) }

theorem unanswered_burningScene : burningScene.Unanswered brawlRules where
  held := ⟨by decide +kernel, by decide +kernel⟩
  relics := by decide +kernel
  statuses := by decide +kernel

namespace Resolution

/-- Frost puts the fire out: what was wet is wetter, and nothing is frozen. -/
theorem resolveHit_elements_frost :
    ∃ outcome t events survivor,
      (resolveHit brawlRules skip {} ⟨1⟩ { base := 2, element := .ice }).run burningScene =
          .ok (some outcome, t) ∧
        t.combat.events = burningScene.combat.events ++ (events : List Event).toArray ∧
        events.filter (·.isCombo) = [.combo ⟨1⟩ "Extinguish"] ∧
        t.combat.combatant? ⟨1⟩ = some survivor ∧ survivor.powers.get? "burning" = none ∧
        survivor.powers.get? "wet" = some { id := "wet", amount := 2 } ∧
        survivor.powers.get? "frozen" = none := by
  have hlives : ((resolveHit brawlRules skip {} ⟨1⟩ { base := 2, element := .ice }).run
      burningScene).map (fun hit => hit.1.map (·.killed)) = .ok (some false) := by decide +kernel
  have hwet : (brawlRules.content.powers.find? "wet").map
      (PowerSet.joinedStatus · burningPowers "wet" 2) =
        some (some { id := "wet", amount := 2 }) := by decide +kernel
  obtain ⟨definition, hfind, hjoined⟩ := Option.map_eq_some_iff.mp hwet
  obtain ⟨enemy, hc⟩ : ∃ enemy, burningScene.combat.combatant? ⟨1⟩ = some enemy := ⟨_, rfl⟩
  have hcombo : Combo.IsSetOff .ice enemy.powers (some extinguish) := by
    obtain rfl := Option.some.inj hc
    exact Combo.isSetOff_iff.mpr (by decide +kernel)
  have halive : enemy.isAlive = true := by
    obtain rfl := Option.some.inj hc
    rfl
  obtain ⟨-, hhit⟩ := @resolveHit_elements brawlRules _ skip {} ⟨1⟩
    { base := 2, element := .ice } burningScene enemy unanswered_burningScene hc halive rfl hcombo
  cases hrun : (resolveHit brawlRules skip {} ⟨1⟩ { base := 2, element := .ice }).run
      burningScene with
  | error cause =>
      rw [hrun] at hlives
      exact absurd hlives nofun
  | ok result =>
      obtain ⟨found, t⟩ := result
      obtain ⟨outcome, events, rfl, htold, hcombos, -, hsurvives⟩ := hhit found t hrun
      rw [hrun] at hlives
      have hlives : outcome.killed = false := Option.some.inj (Except.ok.inj hlives)
      obtain ⟨survivor, hthere, -, hmarks⟩ := hsurvives hlives
      obtain rfl := Option.some.inj hc
      have hnodup : (burningPowers.map (·.id)).Nodup := by decide
      refine ⟨outcome, t, events, survivor, rfl, htold, hcombos, hthere, ?_, ?_, ?_⟩
      · exact hmarks.lost hnodup _ rfl
      · exact (hmarks.gained hnodup "wet" 2 definition rfl hfind).trans hjoined
      · exact hmarks.unsigned hnodup _ "frozen" 1 rfl rfl

end Resolution

end CardCombat
