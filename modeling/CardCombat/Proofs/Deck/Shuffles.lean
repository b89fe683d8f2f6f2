import CardCombat.Proofs.Action.Upkeep
import CardCombat.Proofs.Card.Places

/-!
# Whether shuffles are told

Three effects put the discard pile into the draw pile: drawing cards, shuffling the discard pile in,
and playing cards off the deck. A shuffle is told truthfully if no discard pile becomes part of the
draw pile without a report, and if a report says what was done: that the order of the draw pile was
drawn anew. Drawing is always truthful. Shuffling the discard pile in reports a shuffle even if
there is no discard pile, and then leaves the draw pile as it is. Playing cards off the deck never
reports a shuffle, so it is truthful exactly if it does not come to the end of the draw pile, or if
there is nothing to begin again with.

## Main definitions

* `Scene.merges`, `Scene.shuffles` -- how often discard piles were put into the draw pile, and how
  often a shuffle was reported.
* `Truthful` -- what an effect has told of its shuffles is true, and all of it was told.
* `Resolution.LeadsPlainly` -- an effect is carried out without any effects of played cards.

## Main results

* `Resolution.truthful_iff` -- which of the three effects are truthful, and when.
-/

namespace CardCombat

open Resolution

variable {rules : Rules} {s t u v : Scene} {card : Card} {ctx : Context}

/-! ## What was written down and reported -/

/-- Cards of the discard pile were put into the draw pile. -/
def Deed.merges : Deed → Bool
  | .merged count => count != 0
  | _ => false

def Event.isShuffle : Event → Bool
  | .shuffle _ => true
  | _ => false

namespace Scene

/-- How often the discard pile was put into the draw pile. -/
def merges (scene : Scene) : Nat := scene.chronicle.countP (·.merges)

/-- How often a shuffle was reported. -/
def shuffles (scene : Scene) : Nat := scene.combat.events.countP (·.isShuffle)

theorem merges_record (scene : Scene) (deed : Deed) :
    (scene.record deed).merges = scene.merges + if deed.merges then 1 else 0 :=
  Array.countP_push

theorem shuffles_report (scene : Scene) (event : Event) :
    (scene.report event).shuffles = scene.shuffles + if event.isShuffle then 1 else 0 :=
  Array.countP_push

@[simp] theorem merges_report (scene : Scene) (event : Event) :
    (scene.report event).merges = scene.merges := rfl

end Scene

/-! ## Putting the discard pile into the draw pile -/

/-- What becomes of the piles: nothing if the discard pile is empty. Otherwise it becomes part of
the draw pile, whose order is drawn anew. -/
theorem Resolution.run_reshuffle_cases {moved : Nat} (h : reshuffle.run s = .ok (moved, t)) :
    s.combat.piles.discardPile = [] ∧ moved = 0 ∧ t = s.record (.merged 0) ∨
      s.combat.piles.discardPile ≠ [] ∧ moved = s.combat.piles.discardPile.length ∧
        ∃ order rng,
          (Draw.shuffle (s.combat.piles.drawPile ++ s.combat.piles.discardPile)).run s.rng =
            (order, rng) ∧
          t = ({ s.withPiles { s.combat.piles with drawPile := order, discardPile := [] } with
            rng } : Scene).record (.merged moved) := by
  obtain ⟨piles, rng, hrun, rfl⟩ := run_reshuffle h
  unfold Piles.reshuffle at hrun
  split at hrun
  case isTrue hempty =>
    obtain ⟨heq, rfl⟩ := Prod.mk.inj hrun
    obtain ⟨rfl, rfl⟩ := Prod.mk.inj heq
    exact .inl ⟨List.isEmpty_iff.mp hempty, rfl, rfl⟩
  case isFalse hfull =>
    obtain ⟨heq, rfl⟩ := Prod.mk.inj hrun
    obtain ⟨rfl, rfl⟩ := Prod.mk.inj heq
    exact .inr ⟨fun hnil => hfull (List.isEmpty_iff.mpr hnil), rfl, _, _, rfl, rfl⟩

/-! ## Drawing -/

/-- What drawing cards does to the piles: cards go from the draw pile to the hand, and if there are
not enough of them the discard pile is shuffled and goes on where the draw pile has ended. That is
told. -/
inductive Deals (s t : Scene) : Prop
  | straight (hdiscard : t.combat.piles.discardPile = s.combat.piles.discardPile)
      (hrng : t.rng = s.rng)
      (hcards : t.combat.piles.hand ++ t.combat.piles.drawPile =
        s.combat.piles.hand ++ s.combat.piles.drawPile)
      (hmerges : t.merges = s.merges) (hshuffles : t.shuffles = s.shuffles)
  | anew {order : List Card} (hfull : s.combat.piles.discardPile ≠ [])
      (hrun : (Draw.shuffle s.combat.piles.discardPile).run s.rng = (order, t.rng))
      (hcards : t.combat.piles.hand ++ t.combat.piles.drawPile =
        s.combat.piles.hand ++ s.combat.piles.drawPile ++ order)
      (hempty : t.combat.piles.discardPile = [])
      (hmerges : t.merges = s.merges + 1) (hshuffles : t.shuffles = s.shuffles + 1)

namespace Deals

theorem flow : Flow Deals where
  refl _ := .straight rfl rfl rfl rfl rfl
  trans h h' := by
    cases h with
    | straight hdiscard hrng hcards hmerges hshuffles =>
        cases h' with
        | straight hdiscard' hrng' hcards' hmerges' hshuffles' =>
            exact .straight (hdiscard'.trans hdiscard) (hrng'.trans hrng) (hcards'.trans hcards)
              (hmerges'.trans hmerges) (hshuffles'.trans hshuffles)
        | anew hfull hrun hcards' hempty hmerges' hshuffles' =>
            rw [hdiscard] at hfull hrun
            rw [hrng] at hrun
            rw [hcards] at hcards'
            exact .anew hfull hrun hcards' hempty (by omega) (by omega)
    | anew hfull hrun hcards hempty hmerges hshuffles =>
        cases h' with
        | straight hdiscard' hrng' hcards' hmerges' hshuffles' =>
            exact .anew hfull (hrng' ▸ hrun) (hcards'.trans hcards) (hdiscard'.trans hempty)
              (by omega) (by omega)
        -- the discard pile was used up, so it is not shuffled a second time
        | anew hfull' => exact absurd hempty hfull'

/-- The draw pile is filled when it is empty. -/
theorem refill : Ensures Deals refill := by
  refine ⟨fun {s a t} h => ?_⟩
  unfold Resolution.refill at h
  obtain ⟨_, _, hcombat, h⟩ := run_bind_iff.mp h
  obtain ⟨rfl, rfl⟩ := run_combat_iff.mp hcombat
  rcases run_onlyIf_iff.mp h with ⟨hnone, h⟩ | ⟨-, rfl⟩
  case inr => exact flow.refl s
  case inl =>
    have hdraw : s.combat.piles.drawPile = [] := List.isEmpty_iff.mp hnone
    obtain ⟨moved, v, hmoved, h⟩ := run_bind_iff.mp h
    rcases run_reshuffle_cases hmoved with ⟨-, rfl, rfl⟩ | ⟨hfull, rfl, order, rng, hrun, rfl⟩
    · obtain ⟨-, rfl⟩ := run_pure_iff.mp h
      exact .straight rfl rfl rfl (Scene.merges_record _ _) rfl
    · have hcount : (s.combat.piles.discardPile.length != 0) = true := by
        simpa using hfull
      rw [hcount] at h
      obtain rfl := run_report_iff.mp h
      rw [hdraw, List.nil_append] at hrun
      refine .anew hfull hrun ?_ rfl ?_ (Scene.shuffles_report _ _)
      · show s.combat.piles.hand ++ order = _
        rw [hdraw, List.append_nil]
      · rw [Scene.merges_report, Scene.merges_record, Deed.merges, if_pos hcount]
        rfl

/-- A card is drawn, if there is room for it. -/
theorem drawCard : Ensures Deals (drawCard rules) := by
  refine ⟨fun {s drawn t} h => ?_⟩
  unfold Resolution.drawCard at h
  obtain ⟨_, _, hcombat, h⟩ := run_bind_iff.mp h
  obtain ⟨rfl, rfl⟩ := run_combat_iff.mp hcombat
  split at h
  case isTrue =>
    obtain ⟨-, rfl⟩ := run_pure_iff.mp h
    exact flow.refl s
  case isFalse =>
    obtain ⟨_, v, hrefill, h⟩ := run_bind_iff.mp h
    refine flow.trans (refill.rel hrefill) ?_
    obtain ⟨found, w, hfound, h⟩ := run_bind_iff.mp h
    cases found with
    | none =>
        obtain ⟨-, rfl⟩ := run_popDraw?_none hfound
        obtain ⟨-, rfl⟩ := run_pure_iff.mp h
        exact flow.refl v
    | some card =>
        obtain ⟨piles, hpop, rfl⟩ := run_popDraw?_some hfound
        simp only [run_bind_iff, run_intoHand_iff, run_pure_iff] at h
        obtain ⟨_, _, rfl, -, rfl⟩ := h
        obtain ⟨rest, hdraw, rfl⟩ := Piles.popDraw?_eq_some_iff.mp hpop
        refine .straight rfl rfl ?_ rfl rfl
        show v.combat.piles.hand ++ [card] ++ rest = v.combat.piles.hand ++ v.combat.piles.drawPile
        rw [hdraw, List.append_assoc]
        rfl

theorem drawCards (count : Nat) : Ensures Deals (drawCards rules count) := by
  refine Ensures.bind flow (Ensures.upTo flow drawCard count) fun drawn => ?_
  split
  · refine ⟨fun h => ?_⟩
    obtain rfl := run_report_iff.mp h
    exact .straight rfl rfl rfl rfl (Scene.shuffles_report _ _)
  · exact Ensures.pure flow ()

end Deals

/-! ## Playing cards off the deck -/

/-- The card goes to the exhaust pile when it is played off the deck, and not to the discard
pile. -/
def Rules.expends (rules : Rules) (card : Card) : Bool :=
  (playableDefinition? rules card).any (·.exhaustsWhenPlayed)

/-- The top card of the draw pile was played, or put away if it cannot be played, and nothing of
that has to do with shuffles. -/
structure TurnsOver (rules : Rules) (card : Card) (rest : List Card) (s t : Scene) : Prop where
  drawPile : t.combat.piles.drawPile = rest
  discardPile : t.combat.piles.discardPile =
    s.combat.piles.discardPile ++ if rules.expends card then [] else [card]
  merges : t.merges = s.merges
  shuffles : t.shuffles = s.shuffles

namespace Resolution

/-- Carries out no effects where there are none, and fails where there are some. -/
def refuse (effects : List Effect) (_ : Context) : Resolution Unit :=
  if effects.isEmpty then return else throw .emptyRange

theorem run_refuse {effects : List Effect} {inner : Context} {a : Unit}
    (h : (refuse effects inner).run s = .ok (a, t)) : s = t := by
  unfold refuse at h
  split at h
  · exact (run_pure_iff.mp h).2
  · exact absurd h nofun

/-- The entry with which a card comes into play is the one that is taken out first. -/
theorem takeInPlay?_pushInPlay (combat : Combat) (card : Card) :
    (combat.pushInPlay card).takeInPlay? card.uid = some ({ card }, combat) := by
  unfold Combat.takeInPlay? Combat.findInPlay? Combat.pushInPlay
  simp [List.reverse_append]

/-- A card that is played off the deck and has no effects goes where cards of its kind go. -/
theorem turnsOver_of_playOffDeck {definition : CardDefinition} {rest : List Card} {a : Unit}
    (hplayable : playableDefinition? rules card = some definition)
    (h : (playOffDeck rules refuse card definition ctx).run
      (s.withPiles { s.combat.piles with drawPile := rest }) = .ok (a, t)) :
    TurnsOver rules card rest s t := by
  obtain ⟨rng, inner, w, hin, hend⟩ := run_playOffDeck h
  obtain rfl := run_refuse hin
  have hfound : rules.content.cards.find? card.definition = some definition :=
    (Option.filter_eq_some_iff.mp hplayable).1
  have hexpends : rules.expends card = definition.exhaustsWhenPlayed := by
    rw [Rules.expends, hplayable, Option.any_some]
  have hroute : routeOf rules { card } = if rules.expends card then .exhaust else .discard := by
    rw [hexpends]
    unfold routeOf
    rw [hfound, Option.getD_none, Option.any_some]
  have hcloses := run_endPlay hend
  generalize hw : ({ s.withPiles { s.combat.piles with drawPile := rest } with rng } : Scene).report
    (.replay card.uid) = shown at hcloses
  cases hcloses with
  | nothing hnone =>
      rw [takeInPlay?_pushInPlay] at hnone
      exact absurd hnone nofun
  | mk htake =>
      rw [takeInPlay?_pushInPlay] at htake
      obtain ⟨rfl, rfl⟩ := Prod.mk.inj (Option.some.inj htake)
      subst hw
      rw [hroute]
      cases hexpended : rules.expends card with
      | true =>
          refine ⟨rfl, ?_, Scene.merges_record _ _, ?_⟩
          · rw [hexpended]
            exact (List.append_nil _).symm
          · exact (Scene.shuffles_report _ _).trans (Scene.shuffles_report _ _)
      | false =>
          refine ⟨rfl, ?_, Scene.merges_record _ _, Scene.shuffles_report _ _⟩
          rw [hexpended]
          rfl

/-- **The top card of the draw pile** is turned over, after the discard pile was put into an empty
draw pile. -/
theorem run_playTop {played : Bool} (h : (playTop rules refuse ctx).run s = .ok (played, t)) :
    ∃ u, (onlyIf s.combat.piles.drawPile.isEmpty (discard reshuffle)).run s = .ok ((), u) ∧
      (u.combat.piles.drawPile = [] ∧ played = false ∧ u = t ∨
        ∃ card rest, u.combat.piles.drawPile = card :: rest ∧ played = true ∧
          TurnsOver rules card rest u t) := by
  unfold playTop at h
  obtain ⟨_, _, hcombat, h⟩ := run_bind_iff.mp h
  obtain ⟨rfl, rfl⟩ := run_combat_iff.mp hcombat
  obtain ⟨_, u, hrefill, h⟩ := run_bind_iff.mp h
  refine ⟨u, hrefill, ?_⟩
  obtain ⟨found, _, hfound, h⟩ := run_bind_iff.mp h
  cases found with
  | none =>
      obtain ⟨hdraw, rfl⟩ := run_popDraw?_none hfound
      obtain ⟨rfl, rfl⟩ := run_pure_iff.mp h
      exact .inl ⟨hdraw, rfl, rfl⟩
  | some card =>
      obtain ⟨piles, hpop, rfl⟩ := run_popDraw?_some hfound
      obtain ⟨rest, hdraw, rfl⟩ := Piles.popDraw?_eq_some_iff.mp hpop
      refine .inr ⟨card, rest, hdraw, ?_⟩
      dsimp only at h
      split at h
      case h_1 definition hplayable =>
        obtain ⟨_, _, hplay, h⟩ := run_bind_iff.mp h
        obtain ⟨rfl, rfl⟩ := run_pure_iff.mp h
        exact ⟨rfl, turnsOver_of_playOffDeck hplayable hplay⟩
      case h_2 hunplayable =>
        simp only [run_bind_iff, run_ontoDiscard_iff, run_report_iff, run_pure_iff] at h
        obtain ⟨_, _, rfl, _, _, rfl, rfl, rfl⟩ := h
        have hexpended : rules.expends card = false := by
          rw [Rules.expends, hunplayable, Option.any_none]
        refine ⟨rfl, rfl, ?_, rfl, Scene.shuffles_report _ _⟩
        rw [hexpended]
        rfl

/-- **Playing cards off the deck** tells of no shuffle. It puts the discard pile into the draw pile
unless the draw pile lasts, or nothing comes into the discard pile. -/
theorem merges_of_playTop {count played : Nat}
    (h : (upTo count (playTop rules refuse ctx)).run s = .ok (played, t)) :
    t.shuffles = s.shuffles ∧ s.merges ≤ t.merges ∧
      (t.merges = s.merges ↔ count ≤ s.combat.piles.drawPile.length ∨
        s.combat.piles.discardPile = [] ∧
          ∀ card ∈ s.combat.piles.drawPile, rules.expends card = true) := by
  induction count generalizing s played with
  | zero =>
      obtain ⟨-, rfl⟩ := run_pure_iff.mp h
      exact ⟨rfl, Nat.le_refl _, iff_of_true rfl (.inl (Nat.zero_le _))⟩
  | succ count ih =>
      obtain ⟨again, v, hfirst, h⟩ := run_bind_iff.mp h
      obtain ⟨u, hrefill, hturn⟩ := run_playTop hfirst
      have hrest (hagain : again = true) : t.shuffles = v.shuffles ∧ v.merges ≤ t.merges ∧
          (t.merges = v.merges ↔ count ≤ v.combat.piles.drawPile.length ∨
            v.combat.piles.discardPile = [] ∧
              ∀ card ∈ v.combat.piles.drawPile, rules.expends card = true) := by
        rw [if_pos hagain] at h
        obtain ⟨more, w, hmore, h⟩ := run_bind_iff.mp h
        obtain ⟨-, rfl⟩ := run_pure_iff.mp h
        exact ih hmore
      cases hdraw : s.combat.piles.drawPile with
      | cons card rest =>
          rw [hdraw] at hrefill
          obtain ⟨-, rfl⟩ := run_pure_iff.mp hrefill
          rcases hturn with ⟨hnil, -⟩ | ⟨_, _, htop, hagain, hturn⟩
          · exact absurd (hdraw.symm.trans hnil) nofun
          obtain ⟨rfl, rfl⟩ := List.cons.inj (hdraw.symm.trans htop)
          obtain ⟨hshuffles, hle, hiff⟩ := hrest hagain
          rw [hturn.merges, hturn.drawPile, hturn.discardPile, List.append_eq_nil_iff] at hiff
          rw [hturn.shuffles] at hshuffles
          have hgone : (if rules.expends card then [] else [card]) = [] ↔
              rules.expends card = true := by
            cases rules.expends card <;> simp
          refine ⟨hshuffles, hturn.merges ▸ hle, hiff.trans ?_⟩
          rw [hgone, List.length_cons, Nat.succ_le_succ_iff, List.forall_mem_cons, and_assoc]
      | nil =>
          rw [hdraw] at hrefill
          obtain ⟨moved, hmoved⟩ := run_discard_iff.mp hrefill
          rcases run_reshuffle_cases hmoved with
            ⟨hempty, -, rfl⟩ | ⟨hfull, rfl, order, rng, hrun, rfl⟩
          · -- there is nothing to begin again with, and no card is turned over
            rcases hturn with ⟨-, hagain, rfl⟩ | ⟨_, _, htop, -⟩
            · rw [if_neg (by rw [hagain]; decide)] at h
              obtain ⟨-, rfl⟩ := run_pure_iff.mp h
              have hmerges : (s.record (.merged 0)).merges = s.merges := Scene.merges_record _ _
              exact ⟨rfl, Nat.le_of_eq hmerges.symm, iff_of_true hmerges
                (.inr ⟨hempty, fun _ hmem => absurd hmem List.not_mem_nil⟩)⟩
            · exact absurd (hdraw.symm.trans htop) nofun
          · -- the discard pile was put into the draw pile, and that is not undone
            have hmerged : v.merges = s.merges + 1 ∧ v.shuffles = s.shuffles := by
              have hcount : (s.combat.piles.discardPile.length != 0) = true := by simpa using hfull
              have hone := Scene.merges_record ({ s.withPiles { s.combat.piles with
                drawPile := order, discardPile := [] } with rng } : Scene)
                (.merged s.combat.piles.discardPile.length)
              rw [Deed.merges, if_pos hcount] at hone
              rcases hturn with ⟨-, -, rfl⟩ | ⟨_, _, -, -, hturn⟩
              · exact ⟨hone, rfl⟩
              · exact ⟨hturn.merges.trans hone, hturn.shuffles⟩
            have hlater : t.shuffles = v.shuffles ∧ v.merges ≤ t.merges := by
              cases hagain : again with
              | true => exact ⟨(hrest hagain).1, (hrest hagain).2.1⟩
              | false =>
                  rw [if_neg (by rw [hagain]; decide)] at h
                  obtain ⟨-, rfl⟩ := run_pure_iff.mp h
                  exact ⟨rfl, Nat.le_refl _⟩
            refine ⟨hlater.1.trans hmerged.2, by omega, iff_of_false (by omega) ?_⟩
            rintro (hle | ⟨hnil, -⟩)
            · exact absurd hle (Nat.not_succ_le_zero _)
            · exact hfull hnil

end Resolution

/-! ## Shuffling -/

/-- What shuffling does to the draw pile: its order is drawn anew, together with the discard pile if
that is to be put into it; but an empty discard pile leaves the draw pile as it is. -/
inductive Rearranges (includeDiscard : Bool) (s t : Scene) : Prop
  | idle (hinclude : includeDiscard = true) (hempty : s.combat.piles.discardPile = [])
      (hdraw : t.combat.piles.drawPile = s.combat.piles.drawPile) (hrng : t.rng = s.rng)
      (hmerges : t.merges = s.merges)
  | anew (hfull : includeDiscard = true → s.combat.piles.discardPile ≠ [])
      (hrun : (Draw.shuffle (s.combat.piles.drawPile ++
        if includeDiscard then s.combat.piles.discardPile else [])).run s.rng =
          (t.combat.piles.drawPile, t.rng))
      (hmerges : t.merges = s.merges + if includeDiscard then 1 else 0)

namespace Resolution

theorem rearranges_of_run {includeDiscard : Bool} {a : Unit}
    (h : (rearrange includeDiscard).run s = .ok (a, t)) :
    Rearranges includeDiscard s t ∧ t.shuffles = s.shuffles := by
  unfold rearrange at h
  cases includeDiscard with
  | false =>
      simp only [Bool.false_eq_true, if_false, run_bind_iff, run_combat_iff, run_draw_iff,
        run_setPiles_iff] at h
      obtain ⟨_, _, ⟨rfl, rfl⟩, piles, _, ⟨rfl, rfl⟩, rfl⟩ := h
      refine ⟨.anew nofun ?_ rfl, rfl⟩
      rw [if_neg Bool.false_ne_true, List.append_nil]
      rfl
  | true =>
      obtain ⟨moved, hmoved⟩ := run_discard_iff.mp h
      rcases run_reshuffle_cases hmoved with ⟨hempty, -, rfl⟩ | ⟨hfull, rfl, order, rng, hrun, rfl⟩
      · exact ⟨.idle rfl hempty rfl rfl (Scene.merges_record _ _), rfl⟩
      · refine ⟨.anew (fun _ => hfull) hrun ?_, rfl⟩
        have hcount : (s.combat.piles.discardPile.length != 0) = true := by simpa using hfull
        rw [Scene.merges_record, Deed.merges, if_pos hcount]
        rfl

/-- A shuffle is reported unless the draw pile is empty. -/
theorem run_shuffle {includeDiscard : Bool} {a : Unit}
    (h : (shuffle includeDiscard).run s = .ok (a, t)) :
    Rearranges includeDiscard s t ∧
      t.shuffles = s.shuffles + if t.combat.piles.drawPile = [] then 0 else 1 := by
  obtain ⟨_, v, hrearrange, h⟩ := run_bind_iff.mp h
  obtain ⟨hdone, hshuffles⟩ := rearranges_of_run hrearrange
  obtain ⟨_, _, hcombat, h⟩ := run_bind_iff.mp h
  obtain ⟨rfl, rfl⟩ := run_combat_iff.mp hcombat
  rcases run_onlyIf_iff.mp h with ⟨hsome, h⟩ | ⟨hnone, rfl⟩
  · obtain rfl := run_report_iff.mp h
    have hdraw : v.combat.piles.drawPile ≠ [] := fun hnil => by
      simp [Piles.size, Piles.get, hnil] at hsome
    refine ⟨?_, ?_⟩
    · cases hdone with
      | idle hinclude hempty hdraw hrng hmerges => exact .idle hinclude hempty hdraw hrng hmerges
      | anew hfull hrun hmerges => exact .anew hfull hrun hmerges
    · rw [Scene.shuffles_report, hshuffles]
      exact congrArg _ (if_neg hdraw).symm
  · have hdraw : v.combat.piles.drawPile = [] := by simpa [Piles.size, Piles.get] using hnone
    exact ⟨hdone, by rw [hshuffles, if_pos hdraw, Nat.add_zero]⟩

end Resolution

/-! ## Three effects -/

/-- The effects that can put the discard pile into the draw pile, or rearrange the draw pile. -/
inductive Effect.Reshuffles : Effect → Prop
  | draw (amount : Value) : Reshuffles (.draw amount)
  | shuffle (includeDiscard : Bool) : Reshuffles (.shuffle includeDiscard)
  | playTopCard (number : Value) : Reshuffles (.playTopCard number)

/-- The order of the draw pile was drawn anew. By a shuffle that is the order of the whole draw
pile, and of the discard pile if that is to be put into it. When cards are drawn it is the order of
the discard pile, which goes on where the old draw pile has ended. -/
def Effect.Redraws (s t : Scene) : Effect → Prop
  | .shuffle includeDiscard =>
    (Draw.shuffle (s.combat.piles.drawPile ++
      if includeDiscard then s.combat.piles.discardPile else [])).run s.rng =
        (t.combat.piles.drawPile, t.rng)
  | .draw _ => ∃ order, (Draw.shuffle s.combat.piles.discardPile).run s.rng = (order, t.rng) ∧
      t.combat.piles.hand ++ t.combat.piles.drawPile =
        s.combat.piles.hand ++ s.combat.piles.drawPile ++ order
  | _ => s.merges < t.merges

/-- What an effect has told of its shuffles is true, and all of it was told. -/
structure Truthful (effect : Effect) (s t : Scene) : Prop where
  /-- Each time that a discard pile was put into the draw pile there is a report of its own. -/
  told : t.merges + s.shuffles ≤ s.merges + t.shuffles
  /-- Where there is a report the order was drawn anew. -/
  redrawn : s.shuffles < t.shuffles → effect.Redraws s t

/-- Nothing stands in the way of a truthful report: shuffling is not asked to put an empty discard
pile into a draw pile that would change by a shuffle; and when cards are played off the deck the
draw pile lasts, or nothing comes into the discard pile. -/
def Effect.ShufflesOpenly (rules : Rules) (ctx : Context) (s : Scene) : Effect → Prop
  | .shuffle includeDiscard => includeDiscard = true → s.combat.piles.discardPile = [] →
      (Draw.shuffle s.combat.piles.drawPile).run s.rng = (s.combat.piles.drawPile, s.rng)
  | .playTopCard number => ∀ count, number.count s.combat ctx = .ok count →
      count ≤ s.combat.piles.drawPile.length ∨ s.combat.piles.discardPile = [] ∧
        ∀ card ∈ s.combat.piles.drawPile, rules.expends card = true
  | _ => True

namespace Resolution

/-- An effect leads from one scene to another, and on the way no effects of cards are carried out:
it leads there whatever would be done with effects, if only nothing is done where there are
none. -/
def LeadsPlainly (rules : Rules) (ctx : Context) (effect : Effect) (s t : Scene) : Prop :=
  ∀ nested : List Effect → Context → Resolution Unit, (∀ inner, nested [] inner = pure ()) →
    (dispatch rules nested ctx effect).run s = .ok ((), t)

/-- No card of the draw pile or of the discard pile that can be played has effects. -/
def Effectless (rules : Rules) (scene : Scene) : Prop :=
  ∀ card ∈ scene.combat.piles.drawPile ++ scene.combat.piles.discardPile,
    (playableDefinition? rules card).all fun definition =>
      (definition.effectsWhen card.upgraded).isEmpty

instance (rules : Rules) (scene : Scene) : Decidable (Effectless rules scene) :=
  inferInstanceAs (Decidable (∀ card ∈ scene.combat.piles.drawPile ++
    scene.combat.piles.discardPile, (playableDefinition? rules card).all fun definition =>
      (definition.effectsWhen card.upgraded).isEmpty))

variable {nested nested' : List Effect → Context → Resolution Unit}

/-- Cards without effects are still there, and no others, when the discard pile was put into the
draw pile. -/
theorem effectless_of_refill {a : Unit} (hs : Effectless rules s)
    (h : (onlyIf s.combat.piles.drawPile.isEmpty (discard reshuffle)).run s = .ok (a, u)) :
    Effectless rules u := by
  rcases run_onlyIf_iff.mp h with ⟨-, h⟩ | ⟨-, rfl⟩
  case inr => exact hs
  case inl =>
    obtain ⟨moved, h⟩ := run_discard_iff.mp h
    rcases run_reshuffle_cases h with ⟨-, -, rfl⟩ | ⟨-, -, order, rng, hrun, rfl⟩
    · exact hs
    · intro card hmem
      exact hs card ((Draw.perm_of_shuffle hrun).mem_iff.mp ((List.append_nil order) ▸ hmem))

/-- Playing a card without effects comes to the same whatever would be done with effects. -/
theorem playOffDeck_effectless (hnil : ∀ inner, nested [] inner = pure ())
    (hnil' : ∀ inner, nested' [] inner = pure ()) {definition : CardDefinition}
    (heffects : definition.effectsWhen card.upgraded = []) :
    playOffDeck rules nested card definition ctx =
      playOffDeck rules nested' card definition ctx := by
  unfold playOffDeck
  simp only [heffects, hnil, hnil']

theorem run_playTop_effectless (hnil : ∀ inner, nested [] inner = pure ())
    (hnil' : ∀ inner, nested' [] inner = pure ()) (hs : Effectless rules s) {played : Bool}
    (h : (playTop rules nested ctx).run s = .ok (played, t)) :
    (playTop rules nested' ctx).run s = .ok (played, t) := by
  unfold playTop at h ⊢
  obtain ⟨_, _, hcombat, h⟩ := run_bind_iff.mp h
  refine run_bind_iff.mpr ⟨_, _, hcombat, ?_⟩
  obtain ⟨rfl, rfl⟩ := run_combat_iff.mp hcombat
  obtain ⟨_, u, hrefill, h⟩ := run_bind_iff.mp h
  refine run_bind_iff.mpr ⟨_, u, hrefill, ?_⟩
  obtain ⟨found, v, hfound, h⟩ := run_bind_iff.mp h
  refine run_bind_iff.mpr ⟨found, v, hfound, ?_⟩
  cases found with
  | none => exact h
  | some card =>
      obtain ⟨piles, hpop, -⟩ := run_popDraw?_some hfound
      obtain ⟨rest, hdraw, -⟩ := Piles.popDraw?_eq_some_iff.mp hpop
      have hmem : card ∈ u.combat.piles.drawPile ++ u.combat.piles.discardPile :=
        List.mem_append_left _ (hdraw ▸ List.mem_cons_self)
      dsimp only at h ⊢
      cases hplayable : playableDefinition? rules card with
      | none =>
          rw [hplayable] at h
          exact h
      | some definition =>
          rw [hplayable] at h
          have hnone := effectless_of_refill hs hrefill card hmem
          rw [hplayable, Option.all_some] at hnone
          have heffects := List.isEmpty_iff.mp hnone
          dsimp only at h ⊢
          rw [← playOffDeck_effectless hnil hnil' heffects]
          exact h

/-- What is turned over of a draw pile without effects leaves piles without effects. -/
theorem effectless_of_playTop (hs : Effectless rules s) {played : Bool}
    (h : (playTop rules refuse ctx).run s = .ok (played, t)) : Effectless rules t := by
  obtain ⟨u, hrefill, hturn⟩ := run_playTop h
  have hu := effectless_of_refill hs hrefill
  rcases hturn with ⟨-, -, rfl⟩ | ⟨card, rest, htop, -, hturn⟩
  · exact hu
  · intro other hmem
    refine hu other ?_
    rw [hturn.drawPile, hturn.discardPile] at hmem
    rw [htop]
    cases rules.expends card <;> simp at hmem ⊢ <;> tauto

/-- As long as no card of the two piles has effects it comes to the same. -/
theorem run_playTops_effectless (hnil : ∀ inner, nested [] inner = pure ())
    (hnil' : ∀ inner, nested' [] inner = pure ()) (hs : Effectless rules s) {count played : Nat}
    (h : (upTo count (playTop rules nested ctx)).run s = .ok (played, t)) :
    (upTo count (playTop rules nested' ctx)).run s = .ok (played, t) := by
  induction count generalizing s t played with
  | zero =>
      unfold upTo at h ⊢
      exact h
  | succ count ih =>
      obtain ⟨again, v, hfirst, h⟩ := run_bind_iff.mp h
      have hrefuse (inner : Context) : refuse [] inner = pure () := rfl
      have hplain := run_playTop_effectless hnil hrefuse hs hfirst
      have hv := effectless_of_playTop hs hplain
      refine run_bind_iff.mpr ⟨again, v, run_playTop_effectless hnil hnil' hs hfirst, ?_⟩
      cases again with
      | false =>
          rw [if_neg Bool.false_ne_true] at h ⊢
          exact h
      | true =>
          rw [if_pos rfl] at h ⊢
          obtain ⟨more, w, hmore, h⟩ := run_bind_iff.mp h
          exact run_bind_iff.mpr ⟨more, w, ih hv hmore, h⟩

/-- **Where no card has effects** no effects of cards are carried out. -/
theorem leadsPlainly_of_effectless {effect : Effect} (heffect : effect.Reshuffles)
    (hs : Effectless rules s) {levels : Nat}
    (h : (dispatch rules (within rules skip levels) ctx effect).run s = .ok ((), t)) :
    LeadsPlainly rules ctx effect s t := by
  intro nested hnil
  have hwithin (inner : Context) : within rules skip levels [] inner = pure () := by
    cases levels <;> rfl
  cases heffect with
  | draw | shuffle =>
      simp only [dispatch] at h ⊢
      exact h
  | playTopCard number =>
      obtain ⟨count, _, hcount, h⟩ := run_bind_iff.mp h
      refine run_bind_iff.mpr ⟨count, _, hcount, ?_⟩
      obtain ⟨-, rfl⟩ := run_count_iff.mp hcount
      obtain ⟨played, h⟩ := run_discard_iff.mp h
      exact run_discard_iff.mpr ⟨played, run_playTops_effectless hwithin hnil hs h⟩

/-- Shuffling is truthful unless it is asked to put an empty discard pile into a draw pile that
would change by a shuffle. -/
theorem truthful_shuffle_iff {includeDiscard : Bool} {a : Unit}
    (h : (shuffle includeDiscard).run s = .ok (a, t)) :
    Truthful (.shuffle includeDiscard) s t ↔
      Effect.ShufflesOpenly rules ctx s (.shuffle includeDiscard) := by
  obtain ⟨hdone, hshuffles⟩ := run_shuffle h
  cases hdone with
  | idle hinclude hempty hdraw hrng hmerges =>
      rw [hdraw] at hshuffles
      have hredraws : Effect.Redraws s t (.shuffle includeDiscard) ↔
          (Draw.shuffle s.combat.piles.drawPile).run s.rng =
            (s.combat.piles.drawPile, s.rng) := by
        show (Draw.shuffle (_ ++ if includeDiscard then _ else [])).run _ = (_, _) ↔ _
        rw [hempty, ite_self, List.append_nil, hdraw, hrng]
      constructor
      · intro htruthful _ _
        by_cases hnil : s.combat.piles.drawPile = []
        · rw [hnil]
          rfl
        · rw [if_neg hnil] at hshuffles
          exact hredraws.mp (htruthful.redrawn (by omega))
      · intro hopen
        exact ⟨by omega, fun _ => hredraws.mpr (hopen hinclude hempty)⟩
  | anew hfull hrun hmerges =>
      refine iff_of_true ⟨?_, fun _ => hrun⟩ fun hinclude hempty => absurd hempty (hfull hinclude)
      cases includeDiscard with
      | false =>
          rw [if_neg Bool.false_ne_true] at hmerges
          omega
      | true =>
          rw [if_pos rfl] at hrun hmerges
          have hperm := Draw.perm_of_shuffle hrun
          have hdraw : t.combat.piles.drawPile ≠ [] := fun hnil => by
            rw [hnil] at hperm
            exact hfull rfl (List.append_eq_nil_iff.mp hperm.symm.eq_nil).2
          rw [if_neg hdraw] at hshuffles
          omega

/-- **Drawing cards, shuffling, and playing cards off the deck** are truthful about shuffles exactly
where nothing stands in the way of that. Drawing cards always is. -/
theorem truthful_iff {effect : Effect} (heffect : effect.Reshuffles)
    (h : LeadsPlainly rules ctx effect s t) :
    Truthful effect s t ↔ effect.ShufflesOpenly rules ctx s := by
  have hrun := h refuse fun _ => rfl
  cases heffect with
  | draw amount =>
      obtain ⟨count, _, hcount, hrun⟩ := run_bind_iff.mp hrun
      obtain ⟨-, rfl⟩ := run_count_iff.mp hcount
      refine iff_of_true ?_ trivial
      cases (Deals.drawCards count).rel hrun with
      | straight hdiscard hrng hcards hmerges hshuffles =>
          exact ⟨by omega, fun hlt => absurd hlt (by omega)⟩
      | anew hfull hshuffle hcards hempty hmerges hshuffles =>
          exact ⟨by omega, fun _ => ⟨_, hshuffle, hcards⟩⟩
  | shuffle includeDiscard => exact truthful_shuffle_iff hrun
  | playTopCard number =>
      obtain ⟨count, _, hcounted, hrun⟩ := run_bind_iff.mp hrun
      obtain ⟨hcount, rfl⟩ := run_count_iff.mp hcounted
      obtain ⟨played, hrun⟩ := run_discard_iff.mp hrun
      obtain ⟨hshuffles, hle, hiff⟩ := merges_of_playTop hrun
      have htruthful : Truthful (.playTopCard number) s t ↔ t.merges = s.merges := by
        refine ⟨fun h => ?_, fun h => ⟨by omega, fun hlt => absurd hlt (by omega)⟩⟩
        have := h.told
        omega
      rw [htruthful, hiff]
      refine ⟨fun h other hother => ?_, fun h => h count hcount⟩
      obtain rfl := Except.ok.inj (hcount.symm.trans hother)
      exact h

end Resolution

/-! ## Pebbles -/

/-- A card without effects. -/
def pebblePack : Pack where
  cards := [{ id := "pebble", name := "Pebble", theme := .skill, cost := .fixed 0 }]

def pebbleRules : Rules where
  content := (Content.ofPack pebblePack).toOption.getD {}

def pebble (number : Nat) : Card := { uid := ⟨number⟩, definition := "pebble" }

/-- A scene with pebbles in the two piles. -/
def pebbleScene (drawPile discardPile : List Nat) : Scene where
  combat :=
    { player := .ofPlayer "" 10 10, resources := {}, nextCardUid := 4
      piles := { drawPile := drawPile.map pebble, discardPile := discardPile.map pebble } }
  gold := 0
  stats := {}
  relics := []
  rng := .ofSeed 0

namespace Resolution

/-- What an effect does in a scene with pebbles: it is carried out without any effects of cards, and
what can be seen of it is as it was computed. -/
theorem pebbles_lead {α : Type} {effect : Effect} (heffect : effect.Reshuffles)
    (drawPile discardPile : List Nat) (view : Scene → α) (seen : α)
    (hs : Effectless pebbleRules (pebbleScene drawPile discardPile))
    (h : ((dispatch pebbleRules skip {} effect).run
      (pebbleScene drawPile discardPile)).toOption.map (view ·.2) = some seen) :
    ∃ t, LeadsPlainly pebbleRules {} effect (pebbleScene drawPile discardPile) t ∧
      view t = seen := by
  obtain ⟨⟨a, t⟩, hrun, hview⟩ := Option.map_eq_some_iff.mp h
  have hwithin : (dispatch pebbleRules (within pebbleRules skip 0) {} effect).run
      (pebbleScene drawPile discardPile) = .ok ((), t) := by
    show (dispatch pebbleRules skip {} effect).run (pebbleScene drawPile discardPile) = _
    cases hresult :
        (dispatch pebbleRules skip {} effect).run (pebbleScene drawPile discardPile) with
    | error cause =>
        rw [hresult] at hrun
        exact absurd hrun nofun
    | ok result =>
        rw [hresult] at hrun
        exact congrArg Except.ok (Option.some.inj hrun)
  exact ⟨t, leadsPlainly_of_effectless heffect hs hwithin, hview⟩

/-- Each of the three effects on pebbles: two are drawn of which one lies in the discard pile, the
discard pile is shuffled in, and as many are played as lie in the draw pile. All is told. -/
theorem truthful_pebbles :
    (∃ t, (t.merges, t.shuffles) = (1, 1) ∧
      Truthful (.draw (.fixed 2)) (pebbleScene [1] [2]) t) ∧
    (∃ t, (t.merges, t.shuffles) = (1, 1) ∧
      Truthful (.shuffle true) (pebbleScene [1] [2, 3]) t) ∧
    ∃ t, (t.merges, t.shuffles) = (0, 0) ∧
      Truthful (.playTopCard (.fixed 1)) (pebbleScene [1] [2]) t := by
  refine ⟨?_, ?_, ?_⟩
  · obtain ⟨t, hplain, hseen⟩ := pebbles_lead (.draw (.fixed 2)) [1] [2]
      (fun scene => (scene.merges, scene.shuffles)) (1, 1) (by decide +kernel) (by decide +kernel)
    exact ⟨t, hseen, (truthful_iff (.draw _) hplain).mpr trivial⟩
  · obtain ⟨t, hplain, hseen⟩ := pebbles_lead (.shuffle true) [1] [2, 3]
      (fun scene => (scene.merges, scene.shuffles)) (1, 1) (by decide +kernel) (by decide +kernel)
    exact ⟨t, hseen, (truthful_iff (.shuffle _) hplain).mpr fun _ hempty => absurd hempty nofun⟩
  · obtain ⟨t, hplain, hseen⟩ := pebbles_lead (.playTopCard (.fixed 1)) [1] [2]
      (fun scene => (scene.merges, scene.shuffles)) (0, 0) (by decide +kernel) (by decide +kernel)
    refine ⟨t, hseen, (truthful_iff (.playTopCard _) hplain).mpr fun count hcount => ?_⟩
    obtain rfl := Except.ok.inj hcount
    exact .inl (by decide)

/-- When more pebbles are played than lie in the draw pile, the discard pile is put into the draw
pile and nothing is said of it; and a draw pile that is to be shuffled together with an empty
discard pile is reported to be shuffled and stays as it is. -/
theorem pebbles_mislead :
    (¬∀ rules ctx number s t, LeadsPlainly rules ctx (.playTopCard number) s t →
      Truthful (.playTopCard number) s t) ∧
    ¬∀ rules ctx includeDiscard s t, LeadsPlainly rules ctx (.shuffle includeDiscard) s t →
      Truthful (.shuffle includeDiscard) s t := by
  constructor
  · intro hclaim
    obtain ⟨t, hplain, hseen⟩ := pebbles_lead (.playTopCard (.fixed 2)) [1] [2]
      (fun scene => (scene.merges, scene.shuffles)) (1, 0) (by decide +kernel) (by decide +kernel)
    obtain ⟨hmerges, hshuffles⟩ := Prod.mk.inj hseen
    have htold := (hclaim _ _ _ _ _ hplain).told
    rw [hmerges, hshuffles] at htold
    exact absurd htold (by decide +kernel)
  · intro hclaim
    obtain ⟨t, hplain, hseen⟩ := pebbles_lead (.shuffle true) [1, 2] []
      (fun scene => (scene.shuffles, scene.rng)) (1, .ofSeed 0) (by decide +kernel)
      (by decide +kernel)
    obtain ⟨hshuffles, hrng⟩ := Prod.mk.inj hseen
    have hredraws := (hclaim _ _ _ _ _ hplain).redrawn (by rw [hshuffles]; decide +kernel)
    -- two cards cannot be shuffled without a draw
    have hdrawn : ((Draw.shuffle [pebble 1, pebble 2]).run (.ofSeed 0)).2 = t.rng :=
      congrArg Prod.snd hredraws
    rw [hrng] at hdrawn
    exact absurd hdrawn (by decide +kernel)

end Resolution

end CardCombat
