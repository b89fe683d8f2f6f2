import CardCombat.Action.Selection
import CardCombat.Proofs.Resolution.Ensures

/-!
# Resolutions that cannot fail

Moving cards needs no arithmetic that could leave its range, so it always comes to an end with some
scene. In particular there is no way in which the answer to a selection could fail.

## Main results

* `Resolution.drawCard_total` -- drawing a card cannot fail.
* `Resolution.settleSelection_total` -- the answer to a selection cannot fail.
-/

namespace CardCombat.Resolution

variable {α β : Type} {rules : Rules}

/-- The resolution succeeds in every scene. -/
def Total (m : Resolution α) : Prop := ∀ s, ∃ a t, m.run s = .ok (a, t)

namespace Total

theorem pure (a : α) : Total (pure a : Resolution α) := fun s => ⟨a, s, rfl⟩

theorem bind {x : Resolution α} {f : α → Resolution β} (hx : Total x) (hf : ∀ a, Total (f a)) :
    Total (x >>= f) := by
  intro s
  obtain ⟨a, u, hrun⟩ := hx s
  obtain ⟨b, t, hrest⟩ := hf a u
  exact ⟨b, t, run_bind_iff.mpr ⟨a, u, hrun, hrest⟩⟩

theorem forM {xs : List α} {f : α → Resolution Unit} (hf : ∀ x, Total (f x)) :
    Total (xs.forM f) := by
  induction xs with
  | nil => exact pure ()
  | cons x xs ih => exact bind (hf x) fun _ => ih

theorem combat : Total combat := fun s => ⟨s.combat, s, rfl⟩

theorem modify (change : Scene → Scene) : Total (modify change : Resolution Unit) :=
  fun s => ⟨(), change s, rfl⟩

theorem draw (x : Draw α) : Total (draw x) :=
  fun s => ⟨(x.run s.rng).1, { s with rng := (x.run s.rng).2 }, rfl⟩

theorem onlyIf {called : Bool} {m : Resolution Unit} (hm : Total m) : Total (onlyIf called m) := by
  cases called with
  | true => exact hm
  | false => exact pure ()

/-- What is done again as long as it can be done, and at most so many times. -/
theorem upTo {m : Resolution Bool} (hm : Total m) (n : Nat) : Total (upTo n m) := by
  induction n with
  | zero => exact pure 0
  | succ n ih =>
      refine bind hm fun again => ?_
      cases again with
      | true => exact bind ih fun k => pure (k + 1)
      | false => exact pure 0

/-- An event is reported if there is something to report. -/
theorem reportIf {x : Resolution Bool} (hx : Total x) (event : Event) :
    Total (do if ← x then report event) := by
  refine bind hx fun told => ?_
  cases told with
  | true => exact modify _
  | false => exact pure ()

end Total

/-! ## Drawing cards -/

theorem refill_total : Total refill :=
  .bind .combat fun _ => .onlyIf <| .bind
    (.bind .combat fun _ => .bind (.draw _) fun _ => .bind (.modify _) fun _ =>
      .bind (.modify _) fun _ => .pure _)
    fun _ => .onlyIf (.modify _)

theorem popDraw?_total : Total popDraw? := by
  refine .bind .combat fun combat => ?_
  split
  · exact .pure _
  · exact .bind (.modify _) fun _ => .pure _

theorem drawCard_total : Total (drawCard rules) := by
  refine .bind .combat fun combat => ?_
  split
  · exact .pure _
  · refine .bind refill_total fun _ => .bind popDraw?_total fun found => ?_
    cases found with
    | none => exact .pure _
    | some card => exact .bind (.bind .combat fun _ => .modify _) fun _ => .pure _

/-! ## Moving cards -/

theorem setRoute_total (uid : CardUid) (route : Route) : Total (setRoute uid route) := by
  refine .bind .combat fun combat => ?_
  split
  · exact .pure _
  · exact .bind (.modify _) fun _ => .bind (.modify _) fun _ => .pure _

theorem moveTo_total (uid : CardUid) (pile : Pile) : Total (moveTo uid pile) :=
  .bind .combat fun _ => .bind (.draw _) fun _ => .bind (.modify _) fun _ =>
    .bind (.onlyIf (.modify _)) fun _ => .pure _

theorem retireTo_total (uid : CardUid) (pile : Pile) : Total (retireTo uid pile) := by
  refine .bind .combat fun combat => ?_
  split
  · exact .pure _
  · exact .bind (moveTo_total uid pile) fun _ => .pure _

theorem remove_total (uid : CardUid) : Total (remove uid) := by
  refine .bind .combat fun combat => ?_
  split
  · exact .pure _
  · exact .bind (.modify _) fun _ => .bind (.modify _) fun _ => .pure _

theorem sendAway_total (uid : CardUid) (route : Route) {ofPile : Resolution Bool}
    (h : Total ofPile) : Total (sendAway uid route ofPile) := by
  refine .bind (setRoute_total uid route) fun found => ?_
  cases found with
  | none => exact h
  | some card => exact .pure _

theorem place_total (card : Card) (pile : Pile) (placement : Placement) :
    Total (place rules card pile placement) :=
  .bind .combat fun _ => .bind (.draw _) fun _ => .bind (.modify _) fun _ =>
    .bind (.modify _) fun _ => .pure _

theorem bring_total (uid : CardUid) (pile : Pile) (placement : Placement) :
    Total (bring rules uid pile placement) := by
  refine .bind (setRoute_total uid .elsewhere) fun found => ?_
  cases found with
  | some card => exact .bind (place_total card pile placement) fun _ => .pure _
  | none =>
      refine .bind .combat fun combat => ?_
      split
      · exact .pure _
      · exact .bind (.modify _) fun _ => .bind (place_total _ pile placement) fun _ => .pure _

/-- What is done with a chosen card cannot fail. -/
theorem settleChoice_total (kind : SelectionKind) (card : Card) :
    Total (settleChoice rules kind card) := by
  cases kind with
  | banish => exact .reportIf (sendAway_total _ _ (remove_total _)) _
  | discard => exact .reportIf (sendAway_total _ _ (retireTo_total _ _)) _
  | scry =>
      refine .bind (moveTo_total _ _) fun source => ?_
      split
      · exact .modify _
      · exact .pure _
  | discover pile => exact .bind (place_total card pile .bottom) fun _ => .modify _
  | tutor pile =>
      refine .bind (bring_total card.uid pile .bottom) fun landed => ?_
      cases landed with
      | some pile => exact .modify _
      | none => exact .pure _

/-- **The answer to a selection cannot fail.** -/
theorem settleSelection_total (selection : Selection) (chosen : List CardUid) :
    Total (settleSelection rules selection chosen) :=
  .bind (.modify _) fun _ => .forM fun card => settleChoice_total selection.kind card

end CardCombat.Resolution
