import CardCombat.Proofs.Powers.Held

/-!
# The stacks of powers

A power that is taken goes, or its stack is lowered; a power that is given comes, or its stack is
joined to the one that is there. Of all powers only the one of that name changes, and no more is
looked at than its stack, how it stacks and whether it goes when its stack is not positive.

## Main definitions

* `PowerSet.yield` -- how many stacks of a power there are to take if so many are asked for.
* `PowerSet.lessened`, `Combatant.without` -- what remains after stacks of a power were taken.

## Main results

* `PowerSet.lessened_yield_iff` -- when it matters that no more is taken than there is.
* `Combatant.removePower_eq_ok` -- removing a power lessens it.
* `Combatant.applyPower_of_intensity` -- giving a power whose stacks are summed.
-/

namespace CardCombat

namespace PowerSet

variable {powers : PowerSet} {held : Power} {id other : PowerId} {change : Power → Power}

/-! ## The power of a name -/

theorem id_of_get? (h : powers.get? id = some held) : held.id = id := by
  have hid := List.find?_some h
  exact eq_of_beq hid

theorem amount_of_get? (h : powers.get? id = some held) : powers.amount id = held.amount := by
  unfold amount
  rw [h]
  rfl

theorem fits_sub_of_get? {n : Int} (h : powers.get? id = some held)
    (hfits : Signed.Fits (held.amount - n)) :
    ∀ m ∈ some n, Signed.Fits (powers.amount id - m) := by
  intro m hm
  obtain rfl := Option.some.inj hm
  rwa [amount_of_get? h]

theorem amount_of_get?_eq_none (h : powers.get? id = none) : powers.amount id = 0 := by
  unfold amount
  rw [h]
  rfl

theorem amount_congr {powers' : PowerSet} (h : powers.get? id = powers'.get? id) :
    powers.amount id = powers'.amount id := by
  unfold amount
  rw [h]

theorem get?_remove_self (h : (powers.map (·.id)).Nodup) : (powers.remove id).get? id = none := by
  have hgone : id ∉ (powers.remove id).map (·.id) := not_mem_remove h
  refine List.find?_eq_none.mpr fun power hmem hid => hgone ?_
  exact List.mem_map.mpr ⟨power, hmem, eq_of_beq hid⟩

theorem get?_remove_ne (h : other ≠ id) : (powers.remove id).get? other = powers.get? other := by
  induction powers with
  | nil => rfl
  | cons first powers ih =>
      unfold remove get? at ih ⊢
      by_cases hid : first.id = id
      · have hother : ¬id = other := fun h' => h h'.symm
        simp [hid, hother]
      · simp [hid, List.find?_cons, ih]

theorem get?_modify_self (hid : ∀ power, (change power).id = power.id) :
    (modify id change powers).get? id = (powers.get? id).map change := by
  induction powers with
  | nil => rfl
  | cons first powers ih =>
      unfold modify
      unfold get? at ih ⊢
      by_cases hfirst : first.id = id
      · have hchanged : (change first).id = id := (hid first).trans hfirst
        simp [hfirst, hchanged]
      · simpa [hfirst] using ih

theorem get?_modify_ne (hid : ∀ power, (change power).id = power.id) (h : other ≠ id) :
    (modify id change powers).get? other = powers.get? other := by
  induction powers with
  | nil => rfl
  | cons first powers ih =>
      unfold modify
      unfold get? at ih ⊢
      by_cases hfirst : first.id = id
      · have hchanged : (change first).id = id := (hid first).trans hfirst
        have hother : ¬id = other := fun h' => h h'.symm
        simp [hfirst, hchanged, hother]
      · simp [hfirst, List.find?_cons, ih]

/-! ## Another stack -/

/-- What stays of a stack: all of it, or nothing if it is not positive and the power `goes` then. -/
def staying (goes : Bool) (stack : Int) : Int := if stack ≤ 0 && goes then 0 else stack

theorem staying_of_nonneg {goes : Bool} {stack : Int} (h : 0 ≤ stack) :
    staying goes stack = stack := by
  unfold staying
  split
  case isTrue hgone =>
    rw [Bool.and_eq_true, decide_eq_true_iff] at hgone
    omega
  case isFalse => rfl

/-- The powers with another stack of one of them; if it is not positive and the power `goes` then,
it is taken out. -/
def withStack (powers : PowerSet) (id : PowerId) (goes : Bool) (stack : Int) : PowerSet :=
  if stack ≤ 0 && goes then powers.remove id else powers.modify id ({ · with amount := stack })

variable {goes : Bool} {stack : Int}

theorem get?_withStack_ne (h : other ≠ id) :
    (powers.withStack id goes stack).get? other = powers.get? other := by
  unfold withStack
  split
  · exact get?_remove_ne h
  · refine get?_modify_ne (fun power => ?_) h
    rfl

theorem amount_withStack (hnodup : (powers.map (·.id)).Nodup) (hheld : powers.get? id = some held) :
    (powers.withStack id goes stack).amount id = staying goes stack := by
  unfold withStack staying
  split
  · exact amount_of_get?_eq_none (get?_remove_self hnodup)
  · have hstack : (powers.modify id ({ · with amount := stack })).get? id =
        some { held with amount := stack } := by
      rw [get?_modify_self fun power => ?_, hheld]
      · rfl
      · rfl
    exact amount_of_get? hstack

/-- A stack is the one that is there only if nothing is taken out for it. -/
theorem withStack_eq_self_iff (hheld : powers.get? id = some held) :
    powers.withStack id goes stack = powers ↔
      stack = held.amount ∧ (stack ≤ 0 && goes) = false := by
  unfold withStack
  split
  case isTrue hgone =>
    refine iff_of_false (fun heq => ?_) fun h => absurd (hgone.symm.trans h.2) nofun
    have hmem : held ∈ powers := List.mem_of_find?_eq_some hheld
    have hpos : 0 < powers.length := List.length_pos_of_mem hmem
    have hlen : (powers.remove id).length = powers.length - 1 :=
      List.length_eraseP_of_mem hmem (beq_iff_eq.mpr (id_of_get? hheld))
    rw [heq] at hlen
    omega
  case isFalse hstays =>
    rw [Bool.not_eq_true] at hstays
    rw [and_iff_left hstays]
    refine ⟨fun heq => ?_, fun h => modify_eq_self hheld (by rw [h])⟩
    have hstack := congrArg (PowerSet.get? · id) heq
    rw [get?_modify_self fun power => ?_, hheld] at hstack
    · exact congrArg Power.amount (Option.some.inj hstack)
    · rfl

/-- Stacks of a power that stays can be told apart. -/
theorem withStack_inj {stack' : Int} (hheld : powers.get? id = some held)
    (h : powers.withStack id false stack = powers.withStack id false stack') : stack = stack' := by
  have hstack := congrArg (PowerSet.get? · id) h
  unfold withStack at hstack
  simp only [Bool.and_false, Bool.false_eq_true, if_false] at hstack
  rw [get?_modify_self fun power => ?_, get?_modify_self fun power => ?_, hheld] at hstack
  · exact congrArg Power.amount (Option.some.inj hstack)
  · rfl
  · rfl

/-! ## Taking stacks -/

/-- How many stacks there are to take: as many as are asked for but no more than there are, or all
of them. -/
def yield (powers : PowerSet) (id : PowerId) (asked : Option Int) : Int :=
  (asked.map (min · (powers.amount id))).getD (powers.amount id)

/-- The powers after so many stacks of one of them were taken, or after the whole of it was. -/
def lessened (powers : PowerSet) (id : PowerId) (goes : Bool) : Option Int → PowerSet
  | none => powers.remove id
  | some taken => powers.withStack id goes (powers.amount id - taken)

/-- The stack that is left then, if the power is still there. -/
def rest (powers : PowerSet) (id : PowerId) (goes : Bool) (taken : Option Int) : Option Int :=
  (taken.map (powers.amount id - ·)).filter fun stack => !(decide (stack ≤ 0) && goes)

variable {asked : Option Int}

/-- No other power changes. -/
theorem get?_lessened_ne (h : other ≠ id) :
    (powers.lessened id goes asked).get? other = powers.get? other := by
  cases asked with
  | none => exact get?_remove_ne h
  | some taken => exact get?_withStack_ne h

/-- What is left of a stack is in range if what would be left without a bound is. -/
theorem fits_sub_min {n : Int} (h : Signed.Fits (stack - n)) :
    Signed.Fits (stack - min n stack) := by
  unfold Signed.Fits Signed.least Signed.greatest at h ⊢
  omega

theorem fits_sub_yield (h : ∀ n ∈ asked, Signed.Fits (powers.amount id - n)) :
    Signed.Fits (powers.amount id - powers.yield id asked) := by
  cases asked with
  | none =>
      show Signed.Fits (powers.amount id - powers.amount id)
      rw [Int.sub_self]
      decide
  | some n => exact fits_sub_min (h n rfl)

/-- No more is taken than there is. -/
theorem yield_le : powers.yield id asked ≤ powers.amount id := by
  cases asked with
  | none => exact Int.le_refl _
  | some n => exact Int.min_le_right _ _

theorem yield_nonneg_iff (hheld : powers.get? id = some held) :
    0 ≤ powers.yield id asked ↔ (∀ n ∈ asked, 0 ≤ n) ∧ 0 ≤ held.amount := by
  rw [← amount_of_get? hheld]
  cases asked with
  | none => exact (and_iff_right nofun).symm
  | some n =>
      show 0 ≤ min n (powers.amount id) ↔ _
      rw [Int.le_min]
      exact and_congr_left' ⟨fun h m hm => Option.some.inj hm ▸ h, fun h => h n rfl⟩

/-- What is left of a stack after the taking is the stack without what was taken. -/
theorem amount_lessened_yield (hnodup : (powers.map (·.id)).Nodup)
    (hheld : powers.get? id = some held) :
    (powers.lessened id goes (asked.map fun _ => powers.yield id asked)).amount id =
      powers.amount id - powers.yield id asked := by
  have hle : powers.yield id asked ≤ powers.amount id := yield_le
  cases asked with
  | none =>
      show (powers.remove id).amount id = powers.amount id - powers.amount id
      rw [amount_of_get?_eq_none (get?_remove_self hnodup), Int.sub_self]
  | some n =>
      exact (amount_withStack hnodup hheld).trans (staying_of_nonneg (Int.sub_nonneg_of_le hle))

/-- **Taking no more than there is** comes to the same as taking all that is asked for exactly if
there is as much, or if the power goes anyway when its stack is not positive. -/
theorem lessened_yield_iff (hheld : powers.get? id = some held) :
    powers.lessened id goes (asked.map fun _ => powers.yield id asked) =
        powers.lessened id goes asked ↔
      (∀ n ∈ asked, n ≤ powers.amount id) ∨ goes = true := by
  cases asked with
  | none => exact iff_of_true rfl (.inl fun n hn => absurd hn (Option.not_mem_none n))
  | some n =>
      show powers.withStack id goes (powers.amount id - min n (powers.amount id)) =
        powers.withStack id goes (powers.amount id - n) ↔ _
      by_cases hle : n ≤ powers.amount id
      · rw [Int.min_eq_left hle]
        exact iff_of_true rfl (.inl fun m hm => Option.mem_some.mp hm ▸ hle)
      · rw [Int.min_eq_right (by omega)]
        cases goes with
        | true =>
            unfold withStack
            rw [if_pos (by simp), if_pos (by simp; omega)]
            exact iff_of_true rfl (.inr rfl)
        | false =>
            refine iff_of_false (fun heq => ?_) fun h => ?_
            · have hstack := withStack_inj hheld heq
              omega
            · exact h.elim (fun hall => hle (hall n rfl)) Bool.false_ne_true

end PowerSet

/-- Whether a power goes when its stack is not positive. -/
def Catalog.goesAtZero (catalog : Catalog PowerDefinition) (id : PowerId) : Bool :=
  (catalog.find? id).any (·.removeAtZero)

namespace Combatant

variable {catalog : Catalog PowerDefinition} {combatant : Combatant} {id : PowerId}
  {held : Power} {definition : PowerDefinition}

/-- What remains of a combatant without so many stacks of a power, or without the whole of it. -/
def without (catalog : Catalog PowerDefinition) (combatant : Combatant) (id : PowerId)
    (taken : Option Int) : Combatant :=
  { combatant with powers := combatant.powers.lessened id (catalog.goesAtZero id) taken }

theorem sameButPowers_without {taken : Option Int} :
    combatant.SameButPowers (combatant.without catalog id taken) := ⟨_, rfl⟩

/-- **A power is removed** as the rule says, unless its stack leaves its range. -/
theorem removePower_eq_ok {asked : Option Int} (hheld : combatant.powers.get? id = some held)
    (hfits : ∀ n ∈ asked, Signed.Fits (combatant.powers.amount id - n)) :
    combatant.removePower catalog id asked =
      .ok (combatant.powers.rest id (catalog.goesAtZero id) asked,
        combatant.without catalog id asked) := by
  cases asked with
  | none => rfl
  | some n =>
      have hamount := PowerSet.amount_of_get? hheld
      have hsub : Signed.sub held.amount n = .ok (held.amount - n) :=
        Signed.sub_eq_ok_iff.mpr ⟨hamount ▸ hfits n rfl, rfl⟩
      unfold removePower without PowerSet.lessened PowerSet.withStack PowerSet.rest
        Catalog.goesAtZero
      dsimp only
      rw [hheld, hamount]
      dsimp only
      rw [hsub]
      show (if (decide (held.amount - n ≤ 0) &&
        (catalog.find? id).any (·.removeAtZero)) = true then _ else _) = _
      rw [Option.map_some, Option.filter_some]
      split
      case isTrue hgone => rw [hgone]; rfl
      case isFalse hstays => rw [Bool.not_eq_true] at hstays; rw [hstays]; rfl

/-- Stacks that are summed. -/
theorem join_intensity {amount : Int} (duration : Option Int)
    (hfits : Signed.Fits (combatant.powers.amount id + amount)) :
    ∃ lasting, Stacking.intensity.join (combatant.powers.get? id) amount duration =
      .ok (combatant.powers.amount id + amount, lasting) := by
  cases hheld : combatant.powers.get? id with
  | none =>
      rw [PowerSet.amount_of_get?_eq_none hheld, Int.zero_add]
      exact ⟨duration, rfl⟩
  | some held =>
      rw [PowerSet.amount_of_get? hheld] at hfits ⊢
      exact ⟨held.duration, bind_eq_ok.mpr ⟨_, Signed.add_eq_ok_iff.mpr ⟨hfits, rfl⟩, rfl⟩⟩

/-- **A power that is given** and whose stacks are summed: its stack is the sum, or nothing if that
is not positive and the power goes then; no other power changes. -/
theorem applyPower_of_intensity {amount : Int} (duration : Option Int)
    (hfind : catalog.find? id = some definition) (hstacking : definition.stacking = .intensity)
    (hnodup : (combatant.powers.map (·.id)).Nodup)
    (hfits : Signed.Fits (combatant.powers.amount id + amount)) :
    ∃ applied powers,
      combatant.applyPower catalog id amount duration = .ok (applied, { combatant with powers }) ∧
        powers.amount id =
          PowerSet.staying definition.removeAtZero (combatant.powers.amount id + amount) ∧
        ∀ other, other ≠ id → powers.get? other = combatant.powers.get? other := by
  obtain ⟨lasting, hjoin⟩ := join_intensity duration hfits
  unfold applyPower PowerSet.staying
  rw [hfind]
  dsimp only
  rw [hstacking, hjoin]
  show ∃ applied powers, (if (decide (combatant.powers.amount id + amount ≤ 0) &&
    definition.removeAtZero) = true then _ else _) = _ ∧ _
  split
  case isTrue hgone =>
    refine ⟨none, combatant.powers.remove id, rfl, ?_, fun other hne => ?_⟩
    · exact PowerSet.amount_of_get?_eq_none (PowerSet.get?_remove_self hnodup)
    · exact PowerSet.get?_remove_ne hne
  case isFalse hstays =>
    refine ⟨_, _, rfl, ?_, fun other hne => ?_⟩
    · exact PowerSet.amount_of_get? (PowerSet.get?_insert_self _ _)
    · exact PowerSet.get?_insert_ne _ _ hne

end Combatant

end CardCombat
