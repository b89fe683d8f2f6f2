import CardCombat.Proofs.Combat.Combatants
import CardCombat.Proofs.Overflow.Arithmetic

/-!
# Healing and growing

Healing and a rise of the greatest health are both meant for the good of a combatant, and as long as
health stays within the greatest health they are: healing lowers nothing, and a rise is a rise of
both by the same amount. But healing may go beyond the greatest health, and a rise brings health
back to it: whoever is healed beyond its greatest health loses by the next rise. So a sequence of
both does what it is meant to do exactly if every rise finds health within the greatest health, and
it does if nobody is healed beyond it.

## Main definitions

* `Boon` -- healing, or a rise of the greatest health.
* `Combatant.receiveAll` -- boons, one after another.
* `Combatant.EachStep` -- what holds of each of their steps.
* `Boon.Does`, `Boon.Helps` -- what a boon does, and what it is meant to do.

## Main results

* `Combatant.receive_spec` -- one boon.
* `Combatant.EachStep.congr` -- a sequence of them.
* `Combatant.helps_iff_within` -- when every boon of a sequence helps.
* `Combatant.helps_of_not_overheals` -- they do if nobody is healed beyond the greatest health.
-/

namespace CardCombat

/-- What is done for the good of a combatant: healing, or a change of its greatest health. -/
inductive Boon where
  | heal (amount : Int) (overheal : Bool)
  | maxHealth (delta : Int)

namespace Boon

/-- If the boon changes the greatest health, it raises it. -/
def Raises : Boon → Prop
  | heal _ _ => True
  | maxHealth delta => 0 < delta

/-- The boon is healing that may go beyond the greatest health. -/
def Overheals : Boon → Prop
  | heal _ overheal => overheal = true
  | maxHealth _ => False

/-- What a boon does. Healing raises health and nothing else; a rise raises the greatest health, and
health with it, but not beyond the greatest health. -/
def Does : Boon → Combatant → Combatant → Prop
  | heal _ _, before, after =>
      before.health ≤ after.health ∧ after = { before with health := after.health }
  | maxHealth delta, before, after =>
      after.maxHealth = max (before.maxHealth + delta) 1 ∧
        after.health = min (before.health + delta) after.maxHealth ∧
          after = { before with health := after.health, maxHealth := after.maxHealth }

/-- What a boon is meant to do: health does not sink, and where the greatest health rises, both rise
by the same amount. -/
def Helps (boon : Boon) (before after : Combatant) : Prop :=
  before.health ≤ after.health ∧
    ∀ delta, boon = maxHealth delta →
      after.maxHealth = before.maxHealth + delta ∧ after.health = before.health + delta

/-- If the boon changes the greatest health, it finds health within it. -/
def FindsWithin (boon : Boon) (before : Combatant) : Prop :=
  ∀ delta, boon = maxHealth delta → before.health ≤ before.maxHealth

end Boon

namespace Combatant

variable {before after combatant : Combatant} {boon : Boon} {boons : List Boon}

/-- A combatant receives a boon. -/
def receive (combatant : Combatant) : Boon → Except Fault Combatant
  | .heal amount overheal => do return (← combatant.heal amount overheal).2
  | .maxHealth delta => combatant.changeMaxHealth delta

/-- Boons, one after another. -/
def receiveAll (combatant : Combatant) (boons : List Boon) : Except Fault Combatant :=
  boons.foldlM receive combatant

/-- The boons are received one after another, and `P` holds of each of the steps. -/
def EachStep (P : Boon → Combatant → Combatant → Prop) : Combatant → List Boon → Prop
  | _, [] => True
  | before, boon :: boons =>
      ∃ after, before.receive boon = .ok after ∧ P boon before after ∧ EachStep P after boons

/-! ## One boon -/

/-- Whoever lives, with health that is in its range. -/
structure Thrives (combatant : Combatant) : Prop where
  isAlive : combatant.isAlive = true
  health : combatant.health ≤ Signed.greatest

/-- Healing lowers nothing, and if it may not go beyond the greatest health it stays within that or
where it was. -/
theorem heal_grows {amount : Int} {overheal : Bool} (hb : before.Thrives)
    (h : before.receive (.heal amount overheal) = .ok after) :
    ∃ health, after = { before with health } ∧ before.health ≤ health ∧
      health ≤ Signed.greatest ∧
        (overheal = false → health ≤ max before.maxHealth before.health) := by
  have hhigh := hb.health
  obtain ⟨⟨healed, healthier⟩, hheal, hafter⟩ := bind_eq_ok.mp h
  obtain rfl : healthier = after := Except.ok.inj hafter
  unfold heal at hheal
  split at hheal
  case isTrue =>
    obtain ⟨-, rfl⟩ := Prod.mk.inj (Except.ok.inj hheal)
    exact ⟨before.health, rfl, Int.le_refl _, hhigh, fun _ => Int.le_max_right _ _⟩
  case isFalse hcond =>
    rw [Bool.or_eq_true, not_or, decide_eq_true_iff] at hcond
    obtain ⟨gained, -, hheal⟩ := bind_eq_ok.mp hheal
    obtain ⟨-, rfl⟩ := Prod.mk.inj (Except.ok.inj hheal)
    have hraised : before.health ≤ Signed.saturate (before.health + amount) := by
      unfold Signed.saturate
      omega
    have hsaturated : Signed.saturate (before.health + amount) ≤ Signed.greatest :=
      (Signed.fits_saturate _).2
    refine ⟨_, rfl, ?_, ?_, fun hbounded => ?_⟩
    · split <;> omega
    · split <;> omega
    · rw [hbounded, if_neg Bool.false_ne_true]
      exact Int.min_le_right _ _

/-- A rise of the greatest health of someone alive raises health too, but not beyond it. -/
theorem changeMaxHealth_grows {delta : Int} (hb : before.Thrives) (hdelta : 0 < delta)
    (h : before.receive (.maxHealth delta) = .ok after) :
    Signed.Fits (before.health + delta) ∧
      after = { before with
        maxHealth := max (before.maxHealth + delta) 1
        health := min (before.health + delta) (max (before.maxHealth + delta) 1) } := by
  have hpos := isAlive_iff.mp hb.isAlive
  unfold receive changeMaxHealth at h
  obtain ⟨raised, hraised, h⟩ := bind_eq_ok.mp h
  obtain ⟨-, rfl⟩ := Signed.add_eq_ok_iff.mp hraised
  dsimp only at h
  rw [if_pos (by simp [hdelta, hb.isAlive])] at h
  obtain ⟨health, hhealth, h⟩ := bind_eq_ok.mp h
  obtain ⟨hfits, rfl⟩ := Signed.add_eq_ok_iff.mp hhealth
  obtain ⟨clamped, hclamp, h⟩ := bind_eq_ok.mp h
  obtain ⟨rfl, -⟩ := clamp_spec hclamp
  refine ⟨hfits, ?_⟩
  rw [← Except.ok.inj h]
  congr 1
  omega

/-- **One boon** does what it does, and whoever lives with health in its range still does. -/
theorem receive_spec (hb : before.Thrives) (hraises : boon.Raises)
    (h : before.receive boon = .ok after) : boon.Does before after ∧ after.Thrives := by
  have hpos := isAlive_iff.mp hb.isAlive
  cases boon with
  | heal amount overheal =>
      obtain ⟨health, rfl, hlow, hhigh, -⟩ := heal_grows hb h
      exact ⟨⟨hlow, rfl⟩, isAlive_iff.mpr (Int.lt_of_lt_of_le hpos hlow), hhigh⟩
  | maxHealth delta =>
      have hdelta : 0 < delta := hraises
      obtain ⟨hfits, rfl⟩ := changeMaxHealth_grows hb hdelta h
      refine ⟨⟨rfl, rfl, rfl⟩, isAlive_iff.mpr ?_, ?_⟩
      · dsimp only
        omega
      · exact Int.le_trans (Int.min_le_left _ _) hfits.2

/-- A boon that does what it does is a help exactly if it finds health within the greatest health
where it raises that. -/
theorem helps_iff_of_does (hb : before.Thrives) (hraises : boon.Raises)
    (h : boon.Does before after) : boon.Helps before after ↔ boon.FindsWithin before := by
  have hpos := isAlive_iff.mp hb.isAlive
  cases boon with
  | heal amount overheal => exact iff_of_true ⟨h.1, nofun⟩ nofun
  | maxHealth delta =>
      have hdelta : 0 < delta := hraises
      obtain ⟨hmax, hhealth, -⟩ := h
      constructor
      · rintro ⟨-, hboth⟩ - -
        obtain ⟨hmax', hhealth'⟩ := hboth delta rfl
        omega
      · intro hwithin
        have hle := hwithin delta rfl
        refine ⟨by omega, fun other heq => ?_⟩
        obtain rfl := Boon.maxHealth.inj heq
        omega

/-! ## Sequences -/

/-- Boons can be received one after another if all of them together can. -/
theorem eachStep_true_iff :
    combatant.EachStep (fun _ _ _ => True) boons ↔
      ∃ final, combatant.receiveAll boons = .ok final := by
  unfold receiveAll
  induction boons generalizing combatant with
  | nil => exact iff_of_true trivial ⟨combatant, rfl⟩
  | cons boon boons ih =>
      rw [List.foldlM_cons]
      constructor
      · rintro ⟨after, hreceive, -, hrest⟩
        obtain ⟨final, hfinal⟩ := ih.mp hrest
        exact ⟨final, bind_eq_ok.mpr ⟨after, hreceive, hfinal⟩⟩
      · rintro ⟨final, hfinal⟩
        obtain ⟨after, hreceive, hrest⟩ := bind_eq_ok.mp hfinal
        exact ⟨after, hreceive, trivial, ih.mpr ⟨final, hrest⟩⟩

/-- **A sequence of boons:** what comes to the same for one boon received by someone alive comes to
the same for each step of a sequence. -/
theorem EachStep.congr {P Q : Boon → Combatant → Combatant → Prop}
    (hstep : ∀ {boon before after}, before.Thrives → boon.Raises →
      before.receive boon = .ok after → (P boon before after ↔ Q boon before after))
    (hc : combatant.Thrives) (hraises : ∀ boon ∈ boons, boon.Raises) :
    combatant.EachStep P boons ↔ combatant.EachStep Q boons := by
  induction boons generalizing combatant with
  | nil => exact Iff.rfl
  | cons boon boons ih =>
      have hfirst : boon.Raises := hraises boon List.mem_cons_self
      refine exists_congr fun after => and_congr_right fun hreceive => ?_
      refine and_congr (hstep hc hfirst hreceive) (ih (receive_spec hc hfirst hreceive).2 ?_)
      exact fun other hmem => hraises other (List.mem_cons_of_mem _ hmem)

/-- Only a quantity that leaves its range stands in the way of a sequence. -/
theorem exists_receiveAll
    (hrange : ∀ operation, combatant.receiveAll boons ≠ .error (.overflow operation)) :
    ∃ final, combatant.receiveAll boons = .ok final := by
  have honly : OnlyOverflows (combatant.receiveAll boons) := by
    refine OnlyOverflows.foldlM (fun combatant boon => ?_) boons combatant
    cases boon with
    | heal amount overheal => exact .bind (.heal amount overheal) fun _ => .pure _
    | maxHealth delta => exact .changeMaxHealth delta
  cases hall : combatant.receiveAll boons with
  | ok final => exact ⟨final, rfl⟩
  | error cause =>
      obtain ⟨operation, rfl⟩ := honly cause hall
      exact absurd hall (hrange operation)

/-- **When growing helps.** Of someone alive, with health within the greatest health or beyond it,
every sequence of healing and rises goes through unless a quantity leaves its range. Each healing
lowers nothing and each rise raises the greatest health, with health going along up to it; and no
step lowers health, and every rise raises both by its whole amount, exactly if every rise finds
health within the greatest health. -/
theorem helps_iff_within (hc : combatant.Thrives) (hraises : ∀ boon ∈ boons, boon.Raises)
    (hrange : ∀ operation, combatant.receiveAll boons ≠ .error (.overflow operation)) :
    (∃ final, combatant.receiveAll boons = .ok final) ∧ combatant.EachStep Boon.Does boons ∧
      (combatant.EachStep Boon.Helps boons ↔
        combatant.EachStep (fun boon before _ => boon.FindsWithin before) boons) := by
  have hfinal := exists_receiveAll hrange
  refine ⟨hfinal, ?_, EachStep.congr (fun hb hboon hreceive => ?_) hc hraises⟩
  · have hdoes : combatant.EachStep Boon.Does boons ↔
        combatant.EachStep (fun _ _ _ => True) boons :=
      EachStep.congr (fun hb hboon hreceive => iff_true_intro (receive_spec hb hboon hreceive).1)
        hc hraises
    exact hdoes.mpr (eachStep_true_iff.mpr hfinal)
  · exact helps_iff_of_does hb hboon (receive_spec hb hboon hreceive).1

/-- A patient in full health. -/
def patient : Combatant where
  id := .player
  name := ""
  health := 10
  maxHealth := 10

theorem thrives_patient : patient.Thrives := ⟨rfl, by decide⟩

/-- The patient is healed beyond the greatest health only after that was raised. -/
theorem helps_patient :
    patient.receiveAll [.heal 3 false, .maxHealth 2, .heal 5 true] =
        .ok { patient with health := 17, maxHealth := 12 } ∧
      patient.EachStep Boon.Helps [.heal 3 false, .maxHealth 2, .heal 5 true] := by
  have hreceive : patient.receiveAll [.heal 3 false, .maxHealth 2, .heal 5 true] =
      .ok { patient with health := 17, maxHealth := 12 } := rfl
  refine ⟨hreceive, (helps_iff_within thrives_patient ?_ ?_).2.2.mpr ?_⟩
  · simp [Boon.Raises]
  · intro operation h
    exact absurd (hreceive.symm.trans h) nofun
  · exact ⟨patient, rfl, nofun, _, rfl, fun _ _ => Int.le_refl 10, _, rfl, nofun, trivial⟩

/-- **Growing hurts** someone healed beyond the greatest health: health sinks from fifteen to eleven
when the greatest health is raised from ten to eleven. -/
theorem patient_hurt :
    patient.receive (.heal 5 true) = .ok { patient with health := 15 } ∧
      Combatant.receive { patient with health := 15 } (.maxHealth 1) =
          .ok { patient with health := 11, maxHealth := 11 } ∧
        ¬patient.EachStep Boon.Helps [.heal 5 true, .maxHealth 1] := by
  refine ⟨rfl, rfl, ?_⟩
  rintro ⟨healed, hhealed, -, raised, hraised, ⟨hle, -⟩, -⟩
  obtain rfl : { patient with health := 15 } = healed := Except.ok.inj hhealed
  obtain rfl : { patient with health := 11, maxHealth := 11 } = raised := Except.ok.inj hraised
  exact absurd hle (by decide)

/-! ## Nobody healed beyond the greatest health -/

/-- Health stays within the greatest health by every boon that does not go beyond it. -/
theorem receive_within (hb : before.Thrives) (hwithin : before.health ≤ before.maxHealth)
    (hraises : boon.Raises) (hplain : ¬boon.Overheals) (h : before.receive boon = .ok after) :
    after.health ≤ after.maxHealth := by
  cases boon with
  | heal amount overheal =>
      obtain ⟨health, rfl, -, -, hbounded⟩ := heal_grows hb h
      have hle := hbounded (Bool.eq_false_iff.mpr hplain)
      dsimp only
      omega
  | maxHealth delta =>
      obtain ⟨-, rfl⟩ := changeMaxHealth_grows hb hraises h
      exact Int.min_le_right _ _

/-- **Growing helps** whoever starts within the greatest health and is never healed beyond it. -/
theorem helps_of_not_overheals (hc : combatant.Thrives)
    (hwithin : combatant.health ≤ combatant.maxHealth) (hraises : ∀ boon ∈ boons, boon.Raises)
    (hplain : ∀ boon ∈ boons, ¬boon.Overheals)
    (hfinal : ∃ final, combatant.receiveAll boons = .ok final) :
    combatant.EachStep Boon.Helps boons := by
  have hsteps := eachStep_true_iff.mpr hfinal
  clear hfinal
  induction boons generalizing combatant with
  | nil => trivial
  | cons boon boons ih =>
      obtain ⟨after, hreceive, -, hrest⟩ := hsteps
      have hfirst := hraises boon List.mem_cons_self
      obtain ⟨hdoes, hafter⟩ := receive_spec hc hfirst hreceive
      refine ⟨after, hreceive, (helps_iff_of_does hc hfirst hdoes).mpr fun _ _ => hwithin, ?_⟩
      have hwithin' := receive_within hc hwithin hfirst (hplain boon List.mem_cons_self) hreceive
      exact ih hafter hwithin' (fun other hmem => hraises other (List.mem_cons_of_mem _ hmem))
        (fun other hmem => hplain other (List.mem_cons_of_mem _ hmem)) hrest

end Combatant

end CardCombat
