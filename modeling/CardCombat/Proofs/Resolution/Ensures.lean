import CardCombat.Proofs.Success
import CardCombat.Resolve.Trigger

/-!
# What a resolution ensures

A resolution that succeeds leads from one scene to another. `Ensures R m` says that the two always
stand in the relation `R`. For a relation that adds up, a `Flow`, this passes from the parts of a
resolution to the whole, and it is enough to look at the parts that change something.

The lemmas `run_..._iff` peel a resolution apart at its success: the run of the whole is said by the
runs of its parts.

## Main results

* `Resolution.run_bind_iff` -- the run of two parts.
* `Resolution.Ensures.bind`, `.forM`, `.times`, `.upTo` -- from the parts to the whole.
-/

namespace CardCombat

namespace Scene

/-- The scene after an event was reported. -/
def report (scene : Scene) (event : Event) : Scene :=
  { scene with combat := scene.combat.report event }

/-- The scene after events were reported. -/
def tell (scene : Scene) (events : List Event) : Scene := events.foldl report scene

/-- Reporting changes nothing but the events. -/
theorem tell_eq (scene : Scene) (events : List Event) :
    scene.tell events = { scene with combat :=
      { scene.combat with events := scene.combat.events ++ events.toArray } } := by
  induction events generalizing scene with
  | nil => simp [tell]
  | cons event events ih =>
      show (scene.report event).tell events = _
      rw [ih]
      simp [report, Combat.report]

/-- The scene with another deed in its chronicle. -/
def record (scene : Scene) (deed : Deed) : Scene :=
  { scene with chronicle := scene.chronicle.push deed }

/-- The scene with other piles. -/
def withPiles (scene : Scene) (piles : Piles) : Scene :=
  { scene with combat := { scene.combat with piles } }

/-- The scene with other resources. -/
def withResources (scene : Scene) (resources : Resources) : Scene :=
  { scene with combat := { scene.combat with resources } }

/-- The scene with a combatant in the place of the one with a number. -/
def putCombatant (scene : Scene) (id : CombatantId) (combatant : Combatant) : Scene :=
  { scene with combat := scene.combat.setCombatant id combatant }

/-- The scene after a combatant was set: it is in its place, and if it has lost the last of its
health that was written down. -/
def setCombatant (scene : Scene) (id : CombatantId) (combatant : Combatant) : Scene :=
  if scene.combat.isAlive id && !combatant.isAlive then
    (scene.putCombatant id combatant).record (.fell id combatant)
  else scene.putCombatant id combatant

/-- Nothing has changed in the combat but who is there. -/
theorem combat_setCombatant (scene : Scene) (id : CombatantId) (combatant : Combatant) :
    ∃ player enemies,
      (scene.setCombatant id combatant).combat = { scene.combat with player, enemies } := by
  unfold setCombatant putCombatant Combat.setCombatant
  split <;> split <;> exact ⟨_, _, rfl⟩

end Scene

namespace Resolution

variable {α β : Type} {s t : Scene}

/-! ## Runs -/

theorem run_pure_iff {a b : α} : (pure a : Resolution α).run s = .ok (b, t) ↔ a = b ∧ s = t := by
  show Except.ok (a, s) = Except.ok (b, t) ↔ _
  rw [Except.ok.injEq, Prod.mk.injEq]

theorem run_bind_iff {x : Resolution α} {f : α → Resolution β} {b : β} :
    (x >>= f).run s = .ok (b, t) ↔
      ∃ a u, x.run s = .ok (a, u) ∧ (f a).run u = .ok (b, t) := by
  show (x.run s >>= fun p => (f p.1).run p.2) = .ok (b, t) ↔ _
  rw [bind_eq_ok, Prod.exists]

theorem run_lift_iff {x : Except Fault α} {a : α} :
    (liftM x : Resolution α).run s = .ok (a, t) ↔ x = .ok a ∧ s = t := by
  show (x >>= fun a => pure (a, s)) = .ok (a, t) ↔ _
  rw [bind_eq_ok]
  constructor
  · rintro ⟨b, hb, h⟩
    obtain ⟨rfl, rfl⟩ := Prod.mk.inj (Except.ok.inj h)
    exact ⟨hb, rfl⟩
  · rintro ⟨ha, rfl⟩
    exact ⟨a, ha, rfl⟩

theorem run_discard_iff {x : Resolution α} {u : Unit} :
    (discard x).run s = .ok (u, t) ↔ ∃ a, x.run s = .ok (a, t) := by
  show (x >>= fun _ => pure ()).run s = .ok (u, t) ↔ _
  rw [run_bind_iff]
  constructor
  · rintro ⟨a, v, hx, h⟩
    obtain ⟨-, rfl⟩ := run_pure_iff.mp h
    exact ⟨a, hx⟩
  · rintro ⟨a, hx⟩
    exact ⟨a, t, hx, rfl⟩

/-! ## Looking and changing -/

theorem run_get_iff {u : Scene} : (get : Resolution Scene).run s = .ok (u, t) ↔ s = u ∧ s = t := by
  show Except.ok (s, s) = Except.ok (u, t) ↔ _
  rw [Except.ok.injEq, Prod.mk.injEq]

theorem run_combat_iff {c : Combat} : combat.run s = .ok (c, t) ↔ s.combat = c ∧ s = t := by
  show Except.ok (s.combat, s) = Except.ok (c, t) ↔ _
  rw [Except.ok.injEq, Prod.mk.injEq]

theorem run_combatant?_iff {id : CombatantId} {c : Option Combatant} :
    (combatant? id).run s = .ok (c, t) ↔ s.combat.combatant? id = c ∧ s = t := by
  show Except.ok (s.combat.combatant? id, s) = Except.ok (c, t) ↔ _
  rw [Except.ok.injEq, Prod.mk.injEq]

theorem run_set_iff {u : Scene} {a : Unit} :
    (set u : Resolution Unit).run s = .ok (a, t) ↔ u = t := by
  show Except.ok ((), u) = Except.ok (a, t) ↔ _
  rw [Except.ok.injEq, Prod.mk.injEq]
  exact and_iff_right rfl

theorem run_modify_iff {f : Scene → Scene} {a : Unit} :
    (modify f : Resolution Unit).run s = .ok (a, t) ↔ f s = t := by
  show Except.ok ((), f s) = Except.ok (a, t) ↔ _
  rw [Except.ok.injEq, Prod.mk.injEq]
  exact and_iff_right rfl

theorem run_modifyCombat_iff {change : Combat → Combat} {a : Unit} :
    (modifyCombat change).run s = .ok (a, t) ↔ { s with combat := change s.combat } = t :=
  run_modify_iff

theorem run_report_iff {event : Event} {a : Unit} :
    (report event).run s = .ok (a, t) ↔ s.report event = t := run_modify_iff

/-- An event that is reported only in some cases. -/
theorem run_if_report_iff {p : Prop} [Decidable p] {event : Event} {a b : Unit} :
    (if p then report event else pure a).run s = .ok (b, t) ↔
      s.tell (if p then [event] else []) = t := by
  split
  · exact run_report_iff
  · exact run_pure_iff.trans (and_iff_right rfl)

/-- Events reported one after the other. -/
theorem run_forM_report_iff {α : Type} {xs : List α} {event : α → Event} {u : Unit} :
    (xs.forM fun x => report (event x)).run s = .ok (u, t) ↔ s.tell (xs.map event) = t := by
  induction xs generalizing s with
  | nil => exact run_pure_iff.trans (and_iff_right rfl)
  | cons x xs ih =>
      show (report (event x) >>= fun _ => xs.forM fun x => report (event x)).run s = _ ↔ _
      simp only [run_bind_iff, run_report_iff]
      constructor
      · rintro ⟨_, _, rfl, h⟩
        exact ih.mp h
      · exact fun h => ⟨(), _, rfl, ih.mpr h⟩

theorem run_record_iff {deed : Deed} {a : Unit} :
    (record deed).run s = .ok (a, t) ↔ s.record deed = t := run_modify_iff

theorem run_setPiles_iff {piles : Piles} {a : Unit} :
    (setPiles piles).run s = .ok (a, t) ↔ s.withPiles piles = t := run_modify_iff

theorem run_setResources_iff {resources : Resources} {a : Unit} :
    (setResources resources).run s = .ok (a, t) ↔ s.withResources resources = t := run_modify_iff

theorem run_draw_iff {x : Draw α} {a : α} :
    (draw x).run s = .ok (a, t) ↔ (x.run s.rng).1 = a ∧ { s with rng := (x.run s.rng).2 } = t := by
  show Except.ok ((x.run s.rng).1, ({ s with rng := (x.run s.rng).2 } : Scene)) =
    Except.ok (a, t) ↔ _
  rw [Except.ok.injEq, Prod.mk.injEq]

theorem run_setCombatant_iff {id : CombatantId} {combatant : Combatant} {a : Unit} :
    (setCombatant id combatant).run s = .ok (a, t) ↔ s.setCombatant id combatant = t := by
  unfold setCombatant Scene.setCombatant
  simp only [run_bind_iff, run_combat_iff, run_modifyCombat_iff]
  constructor
  · rintro ⟨c, u, ⟨rfl, rfl⟩, ⟨⟩, v, rfl, h⟩
    split at h
    · exact (if_pos ‹_›).trans (run_record_iff.mp h)
    · exact (if_neg ‹_›).trans (run_pure_iff.mp h).2
  · intro h
    refine ⟨_, _, ⟨rfl, rfl⟩, (), _, rfl, ?_⟩
    split
    · exact run_record_iff.mpr ((if_pos ‹_›).symm.trans h)
    · exact run_pure_iff.mpr ⟨rfl, (if_neg ‹_›).symm.trans h⟩

theorem run_amount_iff {value : Value} {ctx : Context} {n : Int} :
    (amount value ctx).run s = .ok (n, t) ↔ value.resolve s.combat ctx = .ok n ∧ s = t := by
  unfold amount
  simp only [run_bind_iff, run_combat_iff, run_lift_iff]
  constructor
  · rintro ⟨c, u, ⟨rfl, rfl⟩, h⟩
    exact h
  · exact fun h => ⟨_, _, ⟨rfl, rfl⟩, h⟩

theorem run_count_iff {value : Value} {ctx : Context} {n : Nat} :
    (count value ctx).run s = .ok (n, t) ↔ value.count s.combat ctx = .ok n ∧ s = t := by
  unfold count
  simp only [run_bind_iff, run_combat_iff, run_lift_iff]
  constructor
  · rintro ⟨c, u, ⟨rfl, rfl⟩, h⟩
    exact h
  · exact fun h => ⟨_, _, ⟨rfl, rfl⟩, h⟩

theorem run_targets_iff {target : Aim} {ctx : Context} {ids : List CombatantId} :
    (targets target ctx).run s = .ok (ids, t) ↔
      ((target.find s.combat ctx).run s.rng).1 = ids ∧
        { s with rng := ((target.find s.combat ctx).run s.rng).2 } = t := by
  unfold targets
  simp only [run_bind_iff, run_combat_iff, run_draw_iff]
  constructor
  · rintro ⟨c, u, ⟨rfl, rfl⟩, h⟩
    exact h
  · exact fun h => ⟨_, _, ⟨rfl, rfl⟩, h⟩

theorem run_cards_iff {rules : Rules} {target : CardAim} {limit : Option Nat} {ctx : Context}
    {found : List Card} :
    (cards rules target limit ctx).run s = .ok (found, t) ↔
      ∃ rng, (target.find rules.content.cards s.combat ctx limit).run s.rng = .ok (found, rng) ∧
        { s with rng } = t := by
  unfold cards
  simp only [run_bind_iff, run_get_iff, run_lift_iff, run_set_iff, run_pure_iff, Prod.exists]
  constructor
  · rintro ⟨_, _, ⟨rfl, rfl⟩, found', rng, _, ⟨hfind, rfl⟩, _, _, rfl, rfl, rfl⟩
    exact ⟨rng, hfind, rfl⟩
  · rintro ⟨rng, hfind, rfl⟩
    exact ⟨_, _, ⟨rfl, rfl⟩, found, rng, _, ⟨hfind, rfl⟩, (), _, rfl, rfl, rfl⟩

theorem run_onlyIf_iff {called : Bool} {m : Resolution Unit} {a : Unit} :
    (onlyIf called m).run s = .ok (a, t) ↔
      (called = true ∧ m.run s = .ok ((), t)) ∨ (called = false ∧ s = t) := by
  cases called with
  | true => exact ⟨fun h => .inl ⟨rfl, h⟩, fun h => h.elim (·.2) fun h => absurd h.1 (by decide)⟩
  | false =>
      refine ⟨fun h => .inr ⟨rfl, (run_pure_iff.mp h).2⟩, fun h => ?_⟩
      rcases h with ⟨h, -⟩ | ⟨-, rfl⟩
      · exact absurd h (by decide)
      · exact run_pure_iff.mpr ⟨rfl, rfl⟩

/-- The scene after a resolution, or the one before it if it fails. -/
def sceneAfter (m : Resolution Unit) (s : Scene) : Scene := ((m.run s).toOption.map (·.2)).getD s

theorem run_eq_of_isSome {m : Resolution Unit} (h : (m.run s).toOption.isSome = true) :
    m.run s = .ok ((), sceneAfter m s) := by
  unfold sceneAfter
  cases hrun : m.run s with
  | error fault =>
      rw [hrun] at h
      exact absurd h Bool.false_ne_true
  | ok p => rfl

theorem eq_sceneAfter {m : Resolution Unit} (h : m.run s = .ok ((), t)) : t = sceneAfter m s := by
  unfold sceneAfter
  rw [h]
  rfl

/-! ## Flows -/

/-- A relation between scenes that adds up. -/
structure Flow (R : Scene → Scene → Prop) : Prop where
  refl : ∀ s, R s s
  trans : ∀ {s t u}, R s t → R t u → R s u

/-- Whenever the resolution succeeds, the scenes before and after it are related. -/
structure Ensures (R : Scene → Scene → Prop) (m : Resolution α) : Prop where
  rel : ∀ {s a t}, m.run s = .ok (a, t) → R s t

instance {R : Scene → Scene → Prop} {m : Resolution α} :
    CoeFun (Ensures R m) fun _ => ∀ {s a t}, m.run s = .ok (a, t) → R s t := ⟨Ensures.rel⟩

/-- The resolution only looks. -/
abbrev Looks (m : Resolution α) : Prop := Ensures Eq m

theorem looks_amount {ctx : Context} (value : Value) : Looks (Resolution.amount value ctx) :=
  ⟨fun h => (run_amount_iff.mp h).2⟩

namespace Ensures

variable {R R' : Scene → Scene → Prop}

theorem mono {m : Resolution α} (h : Ensures R m) (hR : ∀ s t, R s t → R' s t) :
    Ensures R' m := ⟨fun hm => hR _ _ (h hm)⟩

theorem of_looks (hR : Flow R) {m : Resolution α} (h : Looks m) : Ensures R m :=
  h.mono fun s _ heq => heq ▸ hR.refl s

theorem pure (hR : Flow R) (a : α) : Ensures R (pure a : Resolution α) := by
  refine ⟨fun {s b t} h => ?_⟩
  obtain ⟨-, rfl⟩ := run_pure_iff.mp h
  exact hR.refl s

theorem lift (hR : Flow R) (x : Except Fault α) : Ensures R (liftM x : Resolution α) := by
  refine ⟨fun {s b t} h => ?_⟩
  obtain ⟨-, rfl⟩ := run_lift_iff.mp h
  exact hR.refl s

theorem bind (hR : Flow R) {x : Resolution α} {f : α → Resolution β} (hx : Ensures R x)
    (hf : ∀ a, Ensures R (f a)) : Ensures R (x >>= f) := by
  refine ⟨fun {s b t} h => ?_⟩
  obtain ⟨a, u, h₁, h₂⟩ := run_bind_iff.mp h
  exact hR.trans (hx h₁) (hf a h₂)

/-- What is only looked at first changes nothing. -/
theorem look (hR : Flow R) {x : Resolution α} {f : α → Resolution β} (hx : Looks x)
    (hf : ∀ a, Ensures R (f a)) : Ensures R (x >>= f) := bind hR (of_looks hR hx) hf

theorem amount (hR : Flow R) {value : Value} {ctx : Context} {f : Int → Resolution β}
    (hf : ∀ n, Ensures R (f n)) : Ensures R (Resolution.amount value ctx >>= f) :=
  look hR (looks_amount value) hf

theorem count (hR : Flow R) {value : Value} {ctx : Context} {f : Nat → Resolution β}
    (hf : ∀ n, Ensures R (f n)) : Ensures R (Resolution.count value ctx >>= f) :=
  look hR ⟨fun h => (run_count_iff.mp h).2⟩ hf

theorem combat (hR : Flow R) {f : Combat → Resolution β} (hf : ∀ c, Ensures R (f c)) :
    Ensures R (Resolution.combat >>= f) := look hR ⟨fun h => (run_combat_iff.mp h).2⟩ hf

theorem discard {x : Resolution α} (hx : Ensures R x) : Ensures R (discard x) := by
  refine ⟨fun {s b t} h => ?_⟩
  obtain ⟨a, h⟩ := run_discard_iff.mp h
  exact hx h

theorem onlyIf (hR : Flow R) {called : Bool} {m : Resolution Unit} (hm : Ensures R m) :
    Ensures R (onlyIf called m) := by
  refine ⟨fun {s b t} h => ?_⟩
  rcases run_onlyIf_iff.mp h with ⟨-, h⟩ | ⟨-, rfl⟩
  · exact hm h
  · exact hR.refl s

/-- Something is done for each element of a list. -/
theorem forM (hR : Flow R) {xs : List α} {f : α → Resolution Unit}
    (hf : ∀ x ∈ xs, Ensures R (f x)) :
    Ensures R (xs.forM f) := by
  induction xs with
  | nil => exact pure hR ()
  | cons x xs ih =>
      exact bind hR (hf x List.mem_cons_self) fun _ =>
        ih fun y hy => hf y (List.mem_cons_of_mem _ hy)

/-- Something is done for an element if there is one. -/
theorem forSome (hR : Flow R) {found : Option α} {f : α → Resolution Unit}
    (hf : ∀ x, Ensures R (f x)) : Ensures R (found.forM f) := by
  cases found with
  | none => exact pure hR ()
  | some x => exact hf x

/-- Something is done to everyone who is aimed at. -/
theorem forTargets (hR : Flow R) (hdrew : ∀ (s : Scene) (rng : Rng), R s { s with rng }) {aim : Aim}
    {ctx : Context} {act : CombatantId → Combatant → Resolution Unit}
    (hact : ∀ {id c s a t}, s.combat.combatant? id = some c →
      (act id c).run s = .ok (a, t) → R s t) :
    Ensures R (forTargets aim ctx act) := by
  refine bind hR ⟨fun h => ?_⟩ fun ids => forM hR fun id _ => ⟨fun h => ?_⟩
  · obtain ⟨-, rfl⟩ := run_targets_iff.mp h
    exact hdrew _ _
  · obtain ⟨_, _, hfound, h⟩ := run_bind_iff.mp h
    obtain ⟨rfl, rfl⟩ := run_combatant?_iff.mp hfound
    split at h
    case h_1 c hc => exact hact hc h
    case h_2 =>
      obtain ⟨-, rfl⟩ := run_pure_iff.mp h
      exact hR.refl _

theorem times (hR : Flow R) {m : Resolution Unit} (hm : Ensures R m) (n : Nat) :
    Ensures R (times n m) := by
  induction n with
  | zero => exact pure hR ()
  | succ n ih => exact bind hR hm fun _ => ih

theorem upTo (hR : Flow R) {m : Resolution Bool} (hm : Ensures R m) (n : Nat) :
    Ensures R (upTo n m) := by
  induction n with
  | zero => exact pure hR 0
  | succ n ih =>
      apply bind hR hm
      intro again
      cases again with
      | true => exact bind hR ih fun k => pure hR (k + 1)
      | false => exact pure hR 0

end Ensures

end Resolution

end CardCombat
