import CardCombat.Proofs.Overflow.Arithmetic
import CardCombat.Proofs.Resolution.Total

/-!
# Resolutions that fail by overflow only

A resolution is secure for a property of combats if, from a combat that has the property, it can
fail with nothing but an overflow, and the property is kept if it succeeds. Being secure passes from
the parts of a resolution to the whole. Most effects need no property for it: they are secure
anywhere.

## Main definitions

* `Resolution.Secure` -- fails by overflow only, and keeps a property.
* `Anywhere` -- the property that every combat has.

## Main results

* `Secure.bind`, `.forM`, `.forTargets`, `.forCards` -- from the parts to the whole.
-/

namespace CardCombat

/-- The property that every combat has. -/
def Anywhere (_ : Combat) : Prop := True

namespace Resolution

variable {α β : Type} {Q : Combat → Prop} {rules : Rules} {ctx : Context}

/-- Where a part and what follows it fail by overflow only, so does the whole. -/
theorem onlyOverflows_bind {x : Resolution α} {f : α → Resolution β} {s : Scene}
    (hx : OnlyOverflows (x.run s))
    (hf : ∀ a t, x.run s = .ok (a, t) → OnlyOverflows ((f a).run t)) :
    OnlyOverflows ((x >>= f).run s) := by
  intro cause h
  rw [StateT.run_bind] at h
  cases hrun : x.run s with
  | error cause' =>
      rw [hrun] at h
      obtain rfl : cause' = cause := Except.error.inj h
      exact hx _ hrun
  | ok found =>
      rw [hrun] at h
      exact hf found.1 found.2 hrun cause h

/-- From a combat with the property the resolution fails, if at all, by an overflow, and it keeps
the property. -/
structure Secure (Q : Combat → Prop) (m : Resolution α) : Prop where
  fails : ∀ {s}, Q s.combat → OnlyOverflows (m.run s)
  lasts : ∀ {s a t}, Q s.combat → m.run s = .ok (a, t) → Q t.combat

namespace Secure

/-! ## Parts and wholes -/

theorem pure (a : α) : Secure Q (pure a : Resolution α) where
  fails _ := .pure _
  lasts hs h := (run_pure_iff.mp h).2 ▸ hs

/-- What follows a part may rely on what the part has given. -/
theorem bindRun {x : Resolution α} {f : α → Resolution β} (hx : Secure Q x)
    (hf : ∀ {s a t}, x.run s = .ok (a, t) → Secure Q (f a)) : Secure Q (x >>= f) where
  fails hs := onlyOverflows_bind (hx.fails hs) fun _ _ hrun =>
    (hf hrun).fails (hx.lasts hs hrun)
  lasts hs h := by
    obtain ⟨a, u, hrun, hrest⟩ := run_bind_iff.mp h
    exact (hf hrun).lasts (hx.lasts hs hrun) hrest

theorem bind {x : Resolution α} {f : α → Resolution β} (hx : Secure Q x)
    (hf : ∀ a, Secure Q (f a)) : Secure Q (x >>= f) := bindRun hx fun _ => hf _

theorem lift {x : Except Fault α} (hx : OnlyOverflows x) : Secure Q (liftM x : Resolution α) where
  fails _ := .bind hx fun _ => .pure _
  lasts hs h := (run_lift_iff.mp h).2 ▸ hs

theorem liftBind {x : Except Fault α} {f : α → Resolution β} (hx : OnlyOverflows x)
    (hf : ∀ a, x = .ok a → Secure Q (f a)) : Secure Q (liftM x >>= f) :=
  bindRun (lift hx) fun h => hf _ (run_lift_iff.mp h).1

/-- What is done with the combat as it is now may rely on the property. -/
theorem combat {f : Combat → Resolution β} (hf : ∀ c, Q c → Secure Q (f c)) :
    Secure Q (combat >>= f) where
  fails {s} hs := (hf s.combat hs).fails hs
  lasts {s} _ _ hs h := (hf s.combat hs).lasts hs h

theorem get {f : Scene → Resolution β} (hf : ∀ s : Scene, Q s.combat → Secure Q (f s)) :
    Secure Q (get >>= f) where
  fails {s} hs := (hf s hs).fails hs
  lasts {s} _ _ hs h := (hf s hs).lasts hs h

theorem combatant? {id : CombatantId} {f : Option Combatant → Resolution β}
    (hf : ∀ c, Q c → Secure Q (f (c.combatant? id))) : Secure Q (combatant? id >>= f) where
  fails {s} hs := (hf s.combat hs).fails hs
  lasts {s} _ _ hs h := (hf s.combat hs).lasts hs h

theorem draw (x : Draw α) : Secure Q (draw x) where
  fails _ := .pure _
  lasts hs h := by
    obtain ⟨-, rfl⟩ := run_draw_iff.mp h
    exact hs

theorem record (deed : Deed) : Secure Q (record deed) where
  fails _ := .pure _
  lasts hs h := run_record_iff.mp h ▸ hs

/-- A change of anything but the combat. -/
theorem modifyAside (change : Scene → Scene) (h : ∀ s, (change s).combat = s.combat) :
    Secure Q (modify change : Resolution Unit) where
  fails _ := .pure _
  lasts hs hrun := by
    obtain rfl := run_modify_iff.mp hrun
    rw [h]
    exact hs

theorem discard {x : Resolution α} (hx : Secure Q x) : Secure Q (discard x) where
  fails hs := .bind (hx.fails hs) fun _ => .pure _
  lasts hs h := by
    obtain ⟨a, h⟩ := run_discard_iff.mp h
    exact hx.lasts hs h

theorem onlyIf {called : Bool} {m : Resolution Unit} (hm : Secure Q m) :
    Secure Q (onlyIf called m) := by
  cases called with
  | true => exact hm
  | false => exact pure ()

theorem forM {xs : List α} {f : α → Resolution Unit} (hf : ∀ x, Secure Q (f x)) :
    Secure Q (xs.forM f) := by
  induction xs with
  | nil => exact pure ()
  | cons x xs ih => exact bind (hf x) fun _ => ih

theorem forSome {found : Option α} {f : α → Resolution Unit} (hf : ∀ x, Secure Q (f x)) :
    Secure Q (found.forM f) := by
  cases found with
  | none => exact pure ()
  | some x => exact hf x

theorem mapM {f : α → Resolution β} (hf : ∀ x, Secure Q (f x)) (xs : List α) :
    Secure Q (xs.mapM f) := by
  induction xs with
  | nil => exact pure []
  | cons x xs ih =>
      rw [List.mapM_cons]
      exact bind (hf x) fun _ => bind ih fun _ => pure _

theorem times {m : Resolution Unit} (hm : Secure Q m) (n : Nat) : Secure Q (times n m) := by
  induction n with
  | zero => exact pure ()
  | succ n ih => exact bind hm fun _ => ih

theorem upTo {m : Resolution Bool} (hm : Secure Q m) (n : Nat) : Secure Q (upTo n m) := by
  induction n with
  | zero => exact pure 0
  | succ n ih =>
      refine bind hm fun done => ?_
      cases done with
      | true => exact bind ih fun _ => pure _
      | false => exact pure 0

/-! ## Amounts and targets -/

theorem amount (value : Value) : Secure Q (amount value ctx) :=
  combat fun _ _ => lift (.resolve value)

theorem count (value : Value) : Secure Q (count value ctx) :=
  combat fun _ _ => lift (.count value)

theorem targets (target : Aim) : Secure Q (targets target ctx) :=
  combat fun _ _ => draw _

end Secure

/-! ## Finding cards -/

variable {content : Catalog CardDefinition} {c : Combat}

/-- A filter looks at the cards one after another without drawing. -/
theorem filterM_onlyOverflows {f : Card → Except Fault Bool} (hf : ∀ card, OnlyOverflows (f card))
    (found : List Card) (rng : Rng) :
    OnlyOverflows ((found.filterM fun card =>
      (liftM (f card) : StateT Rng (Except Fault) Bool)).run rng) := by
  rw [run_filterM]
  exact .bind (.filterM hf found) fun _ => .pure _

mutual

/-- Cards are found without arithmetic, but for the cost that a filter asks for. -/
theorem find_onlyOverflows (target : CardAim) (limit : Option Nat) (rng : Rng) :
    OnlyOverflows ((target.find content c ctx limit).run rng) := by
  cases target with
  | filtered filter =>
      unfold CardAim.find
      exact findFiltered_onlyOverflows filter limit rng
  | _ =>
      unfold CardAim.find
      exact .pure _

theorem findFiltered_onlyOverflows (filter : CardFilter) (limit : Option Nat) (rng : Rng) :
    OnlyOverflows ((filter.find content c ctx limit).run rng) := by
  cases filter with
  | mk base count random theme maxCost =>
      unfold CardFilter.find
      refine .bind (find_onlyOverflows base none rng) fun found => ?_
      refine .bind (filterM_onlyOverflows (fun card => .accepts _ card) _ _) fun accepted => ?_
      dsimp only
      split <;> exact .pure _

end

namespace Secure

theorem cards (target : CardAim) (limit : Option Nat) : Secure Q (cards rules target limit ctx) where
  fails _ := .bind (.bind (find_onlyOverflows target limit _) fun _ => .pure _) fun _ => .pure _
  lasts hs h := by
    obtain ⟨rng, -, rfl⟩ := run_cards_iff.mp h
    exact hs

theorem forTargets {target : Aim} {act : CombatantId → Combatant → Resolution Unit}
    (hact : ∀ {id combatant c}, Q c → c.combatant? id = some combatant →
      Secure Q (act id combatant)) : Secure Q (forTargets target ctx act) := by
  refine bind (targets target) fun ids => forM fun id => combatant? fun c hc => ?_
  split
  · exact hact hc ‹_›
  · exact pure ()

theorem forCards {target : CardAim} {limit : Option Nat} {act : Card → Resolution Unit}
    (hact : ∀ card, Secure Q (act card)) : Secure Q (forCards rules target limit ctx act) :=
  bind (cards target limit) fun _ => forM hact

/-! ## Anywhere -/

/-- What cannot fail is secure anywhere. -/
theorem of_total {m : Resolution α} (h : Total m) : Secure Anywhere m where
  fails {s} _ := by
    obtain ⟨a, t, hrun⟩ := h s
    rw [hrun]
    exact .pure _
  lasts _ _ := trivial

theorem modifyCombat (change : Combat → Combat) : Secure Anywhere (modifyCombat change) :=
  of_total (.modify _)

theorem report (event : Event) : Secure Anywhere (report event) := modifyCombat _

theorem setPiles (piles : Piles) : Secure Anywhere (setPiles piles) := modifyCombat _

theorem setResources (resources : Resources) : Secure Anywhere (setResources resources) :=
  modifyCombat _

theorem reportIf {p : Prop} [Decidable p] (event : Event) :
    Secure Anywhere (if p then Resolution.report event else Pure.pure ()) := by
  split
  · exact report event
  · exact pure ()

theorem setCombatant (id : CombatantId) (combatant : Combatant) :
    Secure Anywhere (setCombatant id combatant) := by
  refine combat fun _ _ => bind (modifyCombat _) fun _ => ?_
  split
  · exact record _
  · exact pure ()

end Secure

end Resolution

end CardCombat
