import CardCombat.Proofs.Action.Calls
import CardCombat.Proofs.Origin.Descent
import CardCombat.Proofs.Targeting.Cards

/-!
# Where effects, turns and calls take cards from

An effect finds cards that are shown, or the card for which it is carried out. Most effects only
name what they find by its number. Those that make something of a card as it was found cite it: what
they cite was known when they found it, so afterwards it can be left out again. An iteration hands
on the card that it has reached; all other effects hand on no card but the one they were given, and
triggers and replays are carried out for no card at all.

So every card that is shown after effects has an origin before them, at any depth, and the same
holds of turns and of whatever a call sets going.

## Main definitions

* `Context.Cites` -- the card for which effects are carried out.
* `Effect.CitesNone` -- the effects that name cards by their numbers only.
* `Uncited` -- no card is cited.

## Main results

* `Resolution.knows_of_cards` -- aims find cards that are known.
* `Resolution.descends_of_carryOut` -- effects at any depth.
* `descends_governs` -- turns and plays.
* `descends_of_undertakes` -- what calls set going.
-/

namespace CardCombat

/-- Effects are carried out for the card. -/
def Context.Cites (ctx : Context) (card : Card) : Prop := ctx.currentCard = some card

/-- The effect names cards by their numbers only: it makes nothing of them as they were found. -/
def Effect.CitesNone (effect : Effect) : Prop := effect.shows = false

namespace Resolution

variable {rules : Rules} {cited : Card → Prop} {ctx inner : Context} {s t : Scene} {card : Card}
  {nested : List Effect → Context → Resolution Unit}

/-! ## What aims find -/

section Find

variable {catalog : Catalog CardDefinition} {limit : Option Nat} {found : List Card}
  {rng rng' : Rng}

/-- **Cards that an aim finds** are shown, or effects are carried out for them. -/
theorem knows_of_find (aim : CardAim)
    (h : (aim.find catalog s.combat ctx limit).run rng = .ok (found, rng')) (hmem : card ∈ found) :
    s.Knows ctx.Cites card := by
  have ofPile (pile : Pile) (hmem : card ∈ s.combat.piles.get pile) : s.Knows ctx.Cites card :=
    .inl (.pile ⟨pile, hmem⟩)
  have hpool : card ∈ aim.pool s.combat ctx := (CardAim.finds_of_find h).chosen.subset hmem
  unfold CardAim.pool at hpool
  split at hpool
  case h_1 => exact ofPile .hand hpool
  case h_2 => exact ofPile .drawPile hpool
  case h_3 => exact ofPile .discardPile hpool
  case h_4 => exact ofPile .exhaustPile hpool
  case h_5 => exact ofPile .hand (List.mem_of_mem_head? (Option.mem_toList.mp hpool))
  case h_6 => exact ofPile .hand (List.mem_of_mem_getLast? (Option.mem_toList.mp hpool))
  case h_7 => exact ofPile .drawPile (List.mem_of_mem_head? (Option.mem_toList.mp hpool))
  case h_8 pile _ => exact ofPile pile hpool
  case h_9 =>
    obtain ⟨uid, -, hcard⟩ := Option.bind_eq_some_iff.mp (Option.mem_toList.mp hpool)
    exact .inl (Combat.shows_of_card? hcard)
  case h_10 => exact .inl (.lastPlayed (Option.mem_toList.mp hpool))
  case h_11 => exact .inr (Option.mem_toList.mp hpool)
  case h_12 => exact absurd hpool List.not_mem_nil

/-- **Cards that are found are known**, and finding them draws at most. -/
theorem knows_of_cards {target : CardAim}
    (h : (cards rules target limit ctx).run s = .ok (found, t)) :
    ∃ rng, t = { s with rng } ∧ ∀ card ∈ found, s.Knows ctx.Cites card := by
  obtain ⟨rng, hfind, rfl⟩ := run_cards_iff.mp h
  exact ⟨rng, rfl, fun _ hmem => knows_of_find target hfind hmem⟩

end Find

/-! ## Effects that cite cards -/

theorem descends_drew (s : Scene) (rng : Rng) : Descends rules cited s { s with rng } :=
  .of_same rfl rfl rfl rfl rfl

/-- What effects do that name cards by their numbers only. -/
theorem descends_of_telling {α : Type} {m : Resolution α}
    (h : Ensures (Telling rules Effect.CitesNone) m) :
    Ensures (Descends rules cited) m :=
  h.mono fun _ _ htold => htold.lift Descends.flow fun hstep _ => .of_step (fun _ => id) hstep

/-- Something is done with every card that is found, and it may cite that card. -/
theorem descends_forCards {target : CardAim} {limit : Option Nat} {act : Card → Resolution Unit}
    (hact : ∀ card,
      Ensures (Descends rules fun other => ctx.Cites other ∨ other = card) (act card)) :
    Ensures (Descends rules ctx.Cites) (forCards rules target limit ctx act) := by
  refine ⟨fun {s u t} h => ?_⟩
  obtain ⟨found, _, hfound, h⟩ := run_bind_iff.mp h
  obtain ⟨rng, rfl, hknown⟩ := knows_of_cards hfound
  refine Descends.flow.trans (descends_drew s rng) ?_
  have hall : Ensures (Descends rules fun other => ctx.Cites other ∨ other ∈ found)
      (found.forM act) := by
    refine Ensures.forM Descends.flow fun card hmem => (hact card).mono fun _ _ h => h.mono ?_
    rintro other (hcited | rfl)
    · exact .inl hcited
    · exact .inr hmem
  exact (hall.rel h).close fun card hcited => hcited.elim .inr (hknown card)

/-- A choice among cards that are known. -/
theorem descends_of_ask {kind : SelectionKind} {candidates : List Card} {min max : Nat} {u : Unit}
    (hknown : ∀ card ∈ candidates, s.Knows cited card)
    (h : (ask kind candidates min max).run s = .ok (u, t)) : Descends rules cited s t := by
  obtain ⟨_, _, hcombat, h⟩ := run_bind_iff.mp h
  obtain ⟨rfl, rfl⟩ := run_combat_iff.mp hcombat
  split at h
  · simp only [run_bind_iff, run_modifyCombat_iff, run_report_iff] at h
    obtain ⟨_, _, rfl, rfl⟩ := h
    exact (Descends.flow.refl s).ask fun card hmem => .of_knows (hknown card hmem)
  · obtain ⟨-, rfl⟩ := run_pure_iff.mp h
    exact Descends.flow.refl s

theorem descends_copyCards (target : CardAim) (destination : Pile) (number : Value) :
    Ensures (Descends rules ctx.Cites) (copyCards rules target destination number ctx) := by
  refine Ensures.count Descends.flow fun copies => descends_forCards fun card =>
    Ensures.times Descends.flow ⟨fun {s u t} h => ?_⟩ copies
  obtain ⟨uid, _, huid, h⟩ := run_bind_iff.mp h
  obtain ⟨rfl, rfl⟩ := run_newUid huid
  unfold placeNew at h
  simp only [run_bind_iff, run_place_iff, run_report_iff] at h
  obtain ⟨_, _, ⟨rfl, rfl⟩, rfl⟩ := h
  have hcopied : s.Knows (fun other => ctx.Cites other ∨ other = card) card := .inr (.inr rfl)
  have hnew : (card.withUid ⟨s.combat.nextCardUid⟩).uid = ⟨s.combat.nextCardUid⟩ := rfl
  exact (Descends.created hnew (.inr ⟨card, hcopied, rfl⟩) _ _).report _

theorem descends_banishCards (amount : Value) (target : CardAim) (playerChoice : Bool) :
    Ensures (Descends rules ctx.Cites) (banishCards rules amount target playerChoice ctx) := by
  apply Ensures.count Descends.flow
  intro count
  split
  · split
    · refine ⟨fun {s u t} h => ?_⟩
      obtain ⟨found, _, hfound, h⟩ := run_bind_iff.mp h
      obtain ⟨rng, rfl, hknown⟩ := knows_of_cards hfound
      exact Descends.flow.trans (descends_drew s rng) (descends_of_ask hknown h)
    · exact descends_forCards fun card => descends_of_telling (banishCard_course card.uid)
  · exact Ensures.pure Descends.flow ()

theorem descends_tutor (filter : Option CardFilter) (destination : Pile) (playerChoice : Bool) :
    Ensures (Descends rules ctx.Cites) (tutor rules filter destination playerChoice ctx) := by
  refine ⟨fun {s u t} h => ?_⟩
  obtain ⟨found, _, hfound, h⟩ := run_bind_iff.mp h
  obtain ⟨rng, rfl, hknown⟩ := knows_of_cards hfound
  refine Descends.flow.trans (descends_drew s rng) ?_
  split at h
  · exact (Ensures.pure Descends.flow ()).rel h
  · split at h
    · exact descends_of_ask hknown h
    · exact (descends_of_telling (fetch_course _ _)).rel h

/-- What is carried out in an iteration cites the card that it has reached. -/
theorem descends_forEach
    (hnested : ∀ effects ctx, Ensures (Descends rules ctx.Cites) (nested effects ctx))
    (target : CardAim) (effects : List Effect) :
    Ensures (Descends rules ctx.Cites) (forEach rules nested (.card target) effects ctx) := by
  refine descends_forCards fun card => ⟨fun {s u t} h => ?_⟩
  obtain ⟨inner, _, hinner, h⟩ := run_bind_iff.mp h
  obtain ⟨hok, rfl⟩ := run_lift_iff.mp hinner
  have hcard : inner.currentCard = some card := by
    obtain ⟨_, -, hok⟩ := bind_eq_ok.mp hok
    obtain rfl := Except.ok.inj hok
    rfl
  refine ((hnested effects inner).rel h).mono fun other hcited => .inr ?_
  exact Option.some.inj (hcited.symm.trans hcard)

/-! ## Effects at any depth -/

/-- Carries out effects only for no card or for the card for which others are carried out. -/
def confined (ctx : Context) (nested : List Effect → Context → Resolution Unit)
    (effects : List Effect) (inner : Context) : Resolution Unit :=
  if inner.currentCard = none ∨ inner.currentCard = ctx.currentCard then nested effects inner
  else skip effects inner

theorem confined_eq (h : inner.currentCard = none ∨ inner.currentCard = ctx.currentCard)
    (effects : List Effect) : confined ctx nested effects inner = nested effects inner := if_pos h

theorem confined_descends
    (hnested : ∀ effects ctx, Ensures (Descends rules ctx.Cites) (nested effects ctx))
    (effects : List Effect) (inner : Context) :
    Ensures (Descends rules ctx.Cites) (confined ctx nested effects inner) := by
  unfold confined
  split
  case isTrue hcard =>
    refine (hnested effects inner).mono fun _ _ h => h.mono fun card hcited => ?_
    rcases hcard with hnone | hsame
    · exact absurd (hnone.symm.trans hcited) nofun
    · exact hsame.symm.trans hcited
  case isFalse => exact Ensures.pure Descends.flow ()

/-- An occasion hands on effects for no card at all. -/
theorem react_confined_eq (owner : CombatantId) (occasion : Occasion) (cause : Option CombatantId) :
    react rules (confined ctx nested) owner occasion cause ctx =
      react rules nested owner occasion cause ctx :=
  react_congr (C := .same) (fun _ => rfl) (fun _ => rfl)
    (fun _ _ _ _ hinner => confined_eq hinner.card _)
    (fun _ _ _ _ hinner => confined_eq hinner.card _)

/-- Unless it iterates over cards, an effect hands on no card but the one it was given. -/
theorem dispatch_confined {effect : Effect} (h : effect.iterates = false) :
    dispatch rules (confined ctx nested) ctx effect = dispatch rules nested ctx effect := by
  have hagrees : Agrees .same rules rules.content.powers rules.content.relics nested
      (confined ctx nested) ctx :=
    ⟨.refl _, fun owner occasion cause _ => react_confined_eq owner occasion cause⟩
  exact dispatch_congr hagrees (fun _ _ hinner => confined_eq hinner.card _)
    (fun _ _ _ _ _ _ hinner => confined_eq hinner.card _)
    fun hiterates => absurd (h.symm.trans hiterates) nofun

/-- **What an effect leaves has an origin** if all that it hands on leaves what has one. -/
theorem descends_of_dispatch
    (hnested : ∀ effects ctx, Ensures (Descends rules ctx.Cites) (nested effects ctx))
    (effect : Effect) : Ensures (Descends rules ctx.Cites) (dispatch rules nested ctx effect) := by
  have hprevails : Prevails rules Effect.CitesNone (Descends rules ctx.Cites) :=
    descends_prevails fun _ => id
  have ofQuiet {effect : Effect} (hnone : effect.CitesNone) (hiterates : effect.iterates = false) :
      Ensures (Descends rules ctx.Cites) (dispatch rules nested ctx effect) := by
    rw [← dispatch_confined hiterates]
    exact (hprevails.carries _ (confined_descends hnested)).dispatch hnone
  cases effect with
  | copyCard target destination number => exact descends_copyCards _ _ _
  | banish amount target playerChoice => exact descends_banishCards _ _ _
  | tutor filter destination playerChoice => exact descends_tutor _ _ _
  | forEach target effects =>
      cases target with
      | card target => exact descends_forEach hnested target effects
      | combatant target => exact ofQuiet rfl rfl
  | _ => exact ofQuiet rfl rfl

theorem descends_of_within (levels : Nat) (effects : List Effect) (ctx : Context) :
    Ensures (Descends rules ctx.Cites) (within rules skip levels effects ctx) := by
  induction levels generalizing effects ctx with
  | zero => exact Ensures.pure Descends.flow ()
  | succ levels ih =>
      exact Ensures.forM Descends.flow fun effect _ => descends_of_dispatch ih effect

/-- **Whatever is shown after effects has an origin** before them, or in the card for which they are
carried out. -/
theorem descends_of_carryOut (effects : List Effect) (ctx : Context) :
    Ensures (Descends rules ctx.Cites) (carryOut rules effects ctx) :=
  descends_of_within _ effects ctx

/-- Effects that are carried out for no card in particular. -/
theorem descends_of_carryOut_none (h : ctx.currentCard = none) (effects : List Effect) :
    Ensures (Descends rules cited) (carryOut rules effects ctx) :=
  (descends_of_carryOut effects ctx).mono fun _ _ hrel => hrel.mono fun _ hcited =>
    absurd (h.symm.trans hcited) nofun

/-- For which card an occasion has come is not known to the triggers. -/
theorem react_forget (owner : CombatantId) (occasion : Occasion) (cause : Option CombatantId) :
    react rules nested owner occasion cause { ctx with currentCard := none } =
      react rules nested owner occasion cause ctx := by
  have hsame : ({ ctx with currentCard := none } : Context).ofTrigger owner cause =
      ctx.ofTrigger owner cause := by
    unfold Context.ofTrigger Context.deeper
    cases Unsigned.add 32 ctx.depth 1 <;> rfl
  unfold react
  simp only [hsame]

/-- **Triggers** are carried out for no card. -/
theorem descends_of_happen (owner : CombatantId) (occasion : Occasion)
    (cause : Option CombatantId) (ctx : Context) :
    Ensures (Descends rules cited) (happen rules owner occasion cause ctx) := by
  let forgotten : Context := { ctx with currentCard := none }
  have hprevails : Prevails rules Effect.CitesNone (Descends rules forgotten.Cites) :=
    descends_prevails fun _ => id
  have hreact : Ensures (Descends rules forgotten.Cites)
      (react rules (confined forgotten (carryOut rules)) owner occasion cause forgotten) :=
    (hprevails.bears (confined_descends descends_of_carryOut)).react
  unfold happen
  rw [← react_forget, ← react_confined_eq]
  exact hreact.mono fun _ _ h => h.mono fun _ hcited => absurd hcited nofun

end Resolution

/-! ## Turns and plays -/

open Resolution

namespace Descends

variable {rules : Rules} {cited : Card → Prop} {s t : Scene} {card : Card}

theorem of_upkeep (h : Upkeep rules s t) : Descends rules cited s t := by
  cases h with
  | told => exact (flow.refl s).report _
  | decayed | eased | bared | moved => exact of_setCombatant _ _
  | @declared id before enemy template chosen rng hc =>
      exact flow.trans (descends_drew s rng) (of_setCombatant _ _)
  | released uid =>
      refine of_origin rfl fun other hshown => ?_
      cases hshown with
      | pile hhas =>
          rcases Piles.has_modify hhas with hhas | ⟨found, hfind, rfl⟩
          · exact .of_knows (.inl (.pile hhas))
          · exact .known (.inl (.pile (Piles.has_of_find? hfind))) rfl (.inl rfl)
      | inPlay hmem hc => exact .of_knows (.inl (.inPlay hmem hc))
      | lastPlayed hlast => exact .of_knows (.inl (.lastPlayed hlast))
      | candidate hpending hmem => exact .of_knows (.inl (.candidate hpending hmem))
  | turned | charged | discharged => exact of_same rfl rfl rfl rfl rfl

/-- A card that comes into play was in the hand, and nothing else is shown. -/
theorem of_enters {cost : Int} (h : Enters card cost s t) :
    Descends rules cited s t ∧ s.combat.Shows card := by
  cases h with
  | @mk piles paid cardsPlayedThisTurn cardsPlayed htake hpays =>
      obtain ⟨hcard, hrest⟩ := Piles.has_of_takeFrom? htake
      refine ⟨?_, .pile hcard⟩
      have hplay (entry : ActiveCard)
          (hmem : entry ∈ s.combat.inPlay ++ [({ card } : ActiveCard)]) :
          s.combat.Shows entry.card := by
        rcases List.mem_append.mp hmem with hmem | hmem
        · exact .inPlay hmem rfl
        · exact List.mem_singleton.mp hmem ▸ .pile hcard
      cases hpays with
      | nothing | energy =>
          exact of_parts rfl (fun other hhas => .pile (hrest other hhas)) hplay rfl rfl

/-- A card that has an origin is remembered. -/
theorem remember (h : Descends rules cited s t)
    (hcard : Origin rules cited s t.combat.nextCardUid card) :
    Descends rules cited s (t.remember card) := by
  refine ⟨h.next, fun other hshown => ?_⟩
  cases hshown with
  | pile hhas => exact h.origin other (.pile hhas)
  | inPlay hmem hc => exact h.origin other (.inPlay hmem hc)
  | lastPlayed hlast => exact Option.some.inj hlast ▸ hcard
  | candidate hpending hmem => exact h.origin other (.candidate hpending hmem)

end Descends

/-- **Whatever is shown after turns and plays has an origin before them.** -/
theorem descends_governs {rules : Rules} {cited : Card → Prop} :
    Governs rules Effect.Any (Descends rules cited) where
  flow := Descends.flow
  step := Descends.of_step fun _ => False.elim
  upkeep := Descends.of_upkeep
  buried _ := Descends.of_blow .buried
  carryOut {_} _ {_} hnone := descends_of_carryOut_none hnone _
  happen := descends_of_happen
  act hnone _ _ hrun := Descends.flow.trans ((Descends.flow.refl _).report _)
    ((descends_of_carryOut_none hnone _).rel hrun)
  played henters hin hcloses := by
    obtain ⟨hentered, hcard⟩ := Descends.of_enters henters
    have hplayed := Descends.flow.trans hentered
      (Descends.flow.trans hin (Descends.of_closes hcloses))
    exact hplayed.remember (.of_knows (.inl hcard))

/-! ## Calls -/

/-- No card is cited. -/
def Uncited (_ : Card) : Prop := False

section Calls

variable {rules : Rules} {run : Run} {call : Call} {m : Resolution Unit} {s t : Scene}
  {cited : Card → Prop}

/-- A card that is cited comes into a pile. -/
theorem Descends.deal {card : Card} (h : cited card) (pile : Pile) :
    Descends rules cited s (s.deal rules card pile) :=
  ((Descends.flow.refl s).arrive (.of_knows (.inr h)) _ _).report _

/-- A selection that is forgotten shows nothing any more. -/
theorem Descends.forget : Descends rules cited s s.forget := by
  refine .of_origin rfl fun card hshown => .of_knows (.inl ?_)
  cases hshown with
  | pile hhas => exact .pile hhas
  | inPlay hmem hc => exact .inPlay hmem hc
  | lastPlayed hlast => exact .lastPlayed hlast
  | candidate hpending => exact absurd hpending nofun

/-- **Whatever is shown after a call has an origin** when it begins. New cards that are chosen were
shown as candidates. -/
theorem descends_of_undertakes (hm : Undertakes rules run call s.combat m)
    (h : m.run s = .ok ((), t)) : Descends rules Uncited s t := by
  have henemies (s : Scene) : Descends rules Uncited s s.enemiesBegin :=
    .of_same rfl rfl rfl rfl rfl
  have hplayer {s : Scene} {energy : Int} (_ : s.Refills energy) :
      Descends rules Uncited s (s.playerBegins energy) := .of_same rfl rfl rfl rfl rfl
  generalize hcombat : s.combat = combat at hm
  cases hm with
  | start => exact (descends_governs.openCombat hplayer).rel h
  | play => exact (descends_governs.play (fun _ _ _ => trivial) _).rel h
  | ability => exact (descends_governs.useAbility fun _ _ => trivial).rel h
  | @select chosen _ selection hc ht hpending hcheck =>
      have hsettled : Descends rules (· ∈ selection.candidates) s t :=
        (descends_governs.settleSelection (fun _ => .forget)
          (fun pile _ _ card hmem => .deal hmem pile) chosen).rel h
      exact hsettled.close fun card hmem => .inl (.candidate (hcombat ▸ hpending) hmem)
  | endTurn => exact (descends_governs.passTurn henemies hplayer).rel h

namespace Rules

/-- When a combat starts it shows only cards of the deck. -/
theorem mem_deck_of_start {enemies : List String} {combat : Combat} {card : Card}
    (h : Undertakes rules run (.start enemies) combat m) (hshown : combat.Shows card) :
    card ∈ run.deck := by
  cases h with
  | start _ hgather =>
      obtain ⟨nextCardUid, -, enemies, nextEnemyId, rfl, -⟩ := gather_spec hgather
      cases hshown with
      | pile hhas =>
          obtain ⟨pile, hmem⟩ := hhas
          cases pile with
          | drawPile => exact (shuffledDeck_perm _ _).mem_iff.mp hmem
          | hand | discardPile | exhaustPile => exact absurd hmem List.not_mem_nil
      | inPlay hmem => exact absurd hmem List.not_mem_nil
      | lastPlayed hlast => exact absurd hlast nofun
      | candidate hpending => exact absurd hpending nofun

/-- The end of a combat shows no more than there was. -/
theorem shows_of_endIfDecided {combat : Combat} {card : Card}
    (h : combat.endIfDecided.2.Shows card) : combat.Shows card := by
  rw [Combat.endIfDecided_eq] at h
  exact h.of_parts (fun hhas => .pile hhas) (fun _ hmem hc => .inPlay hmem hc) rfl rfl

end Rules

end Calls

end CardCombat
