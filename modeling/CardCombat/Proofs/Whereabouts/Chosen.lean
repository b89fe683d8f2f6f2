import CardCombat.Proofs.Outcome.Answers
import CardCombat.Proofs.Whereabouts.Hand

/-!
# Where chosen cards go

The player chooses among cards as they lay when the choice came up. Until the choice is made they
may be moved: whatever else the card does that asks is done before the answer arrives. The answer
then moves a chosen card from wherever it lies. So a card that was to go from the draw pile to the
discard pile goes there from the hand if it has been drawn in between.

## Main definitions

* `SelectionKind.way?` -- from where to where a selection moves the chosen cards.
* `Piles.offered?` -- where a chosen card is to lie if it is moved from there alone.
* `Brings` -- a card is moved to a pile from wherever it lies.

## Main results

* `brings_of_settleChoice` -- what becomes of one chosen card.
* `Moved.of_settleChoices` -- what becomes of all of them.
* `Rules.moved_as_offered_iff` -- which of them go the way that was offered.
-/

namespace CardCombat

open Resolution

variable {rules : Rules} {s t : Scene} {piles piles' : Piles} {destination source pile : Pile}
  {uid u : CardUid} {kind : SelectionKind}

/-- From where to where a selection moves the chosen cards, if it moves cards. -/
def SelectionKind.way? : SelectionKind → Option (Pile × Pile)
  | .scry => some (.drawPile, .discardPile)
  | .discard => some (.hand, .discardPile)
  | .tutor destination => some (.drawPile, destination)
  | .banish | .discover _ => none

/-! ## Ways -/

namespace Piles

/-- The pile into which a card comes that is moved: in the hand it makes room for itself. -/
def landingFrom (rules : Rules) (piles : Piles) (destination source : Pile) : Pile :=
  if source = .hand then destination else piles.landing rules destination

/-- Where a card is to lie after it was chosen: if it lay in the source it is moved. -/
def offered? (rules : Rules) (piles : Piles) (source destination : Pile) (uid : CardUid) :
    Option Pile :=
  if piles.locate? uid = some source then some (piles.landing rules destination)
  else piles.locate? uid

/-- A card that is moved to a pile other than the hand comes there. -/
theorem landingFrom_of_ne (h : destination ≠ .hand) :
    piles.landingFrom rules destination pile = destination := by
  unfold landingFrom
  split
  · rfl
  · exact landing_of_ne h

/-- **A card that is moved from wherever it lies** goes the way that was offered exactly if it lies
in the source, or where it would come anyway. -/
theorem landingFrom_eq_offered_iff (hsource : source = .hand → destination ≠ .hand) :
    (piles.locate? uid).map (piles.landingFrom rules destination) =
        piles.offered? rules source destination uid ↔
      ∀ pile, piles.locate? uid = some pile →
        pile = source ∨ pile = destination ∨ pile = piles.landing rules destination := by
  unfold offered?
  cases hlocate : piles.locate? uid with
  | none => exact iff_of_true rfl nofun
  | some found =>
      simp only [Option.map_some, Option.some.injEq, forall_eq']
      by_cases hfound : found = source
      · subst hfound
        refine iff_of_true ?_ (.inl rfl)
        rw [if_pos rfl]
        unfold landingFrom
        split
        case isTrue hhand => exact congrArg some (landing_of_ne (hsource hhand)).symm
        case isFalse => rfl
      · rw [if_neg hfound, Option.some.injEq, or_iff_right hfound]
        unfold landingFrom
        split
        case isTrue hhand =>
          subst hhand
          refine ⟨fun h => .inl h.symm, fun h => ?_⟩
          rcases h with h | h
          · exact h.symm
          · by_contra hne
            exact hne (h.trans (landing_of_ne hne)).symm
        case isFalse hhand =>
          refine ⟨fun h => .inr h.symm, fun h => ?_⟩
          rcases h with rfl | h
          · exact landing_of_ne hhand
          · exact h.symm

end Piles

/-! ## One chosen card -/

/-- A card is moved to a pile from wherever it lies. Nothing happens if it lies nowhere; it may stay
where it is if it lies there already. -/
inductive Brings (rules : Rules) (uid : CardUid) (destination : Pile) (piles : Piles) :
    Piles → Prop
  | nowhere (h : piles.locate? uid = none) : Brings rules uid destination piles piles
  | there (hhand : destination ≠ .hand) (h : piles.contains destination uid = true) :
      Brings rules uid destination piles piles
  | brought {source card rest} (h : piles.take? uid = some (source, card, rest)) :
      Brings rules uid destination piles
        (rest.set (rest.landing rules destination)
          (rest.get (rest.landing rules destination) ++ [card]))

namespace Brings

/-- No card is lost, and none is doubled. -/
theorem count_eq (h : Brings rules uid destination piles piles') (u : CardUid) :
    piles'.count u = piles.count u := by
  cases h with
  | nowhere | there => rfl
  | @brought source card rest h =>
      obtain ⟨hid, hcount⟩ := @Piles.count_of_take? _ _ _ _ u _ h
      rw [Piles.count_add, hid, hcount]

/-- Every other card lies where it lay. -/
theorem countIn_eq (h : Brings rules uid destination piles piles') (hu : u ≠ uid) (pile : Pile) :
    Piles.countIn u (piles'.get pile) = Piles.countIn u (piles.get pile) := by
  cases h with
  | nowhere | there => rfl
  | @brought source card rest h =>
      have hid := (@Piles.count_of_take? _ _ _ _ u _ h).1
      have htaken := @Piles.countIn_of_takeFrom? _ _ _ _ _ u (Piles.takeFrom?_of_take? h) pile
      rw [if_neg fun h => hu h.2.symm, Nat.add_zero] at htaken
      rw [Piles.countIn_add, hid, if_neg fun h => hu h.2.symm, Nat.add_zero, htaken]

/-- The hand of what is left when a card was taken. -/
theorem size_of_take? {card : Card} {rest : Piles}
    (h : piles.take? uid = some (source, card, rest)) :
    piles.size .hand = rest.size .hand + if .hand = source then 1 else 0 :=
  Piles.size_of_takeFrom? (Piles.takeFrom?_of_take? h) .hand

/-- A hand that held no more cards than it may still does. -/
theorem fits (h : Brings rules uid destination piles piles')
    (hfit : piles.size .hand ≤ rules.config.handLimit) :
    piles'.size .hand ≤ rules.config.handLimit := by
  cases h with
  | nowhere | there => exact hfit
  | @brought source card rest h =>
      have hsize := size_of_take? h
      rw [Piles.size_add]
      split
      case isTrue hhand => exact Piles.size_lt_of_landing hhand.symm
      case isFalse => omega

/-- What is left when a card was taken decides where it comes. -/
theorem landing_rest {card : Card} {rest : Piles}
    (h : piles.take? uid = some (source, card, rest))
    (hfit : piles.size .hand ≤ rules.config.handLimit) :
    rest.landing rules destination = piles.landingFrom rules destination source := by
  have hsize := size_of_take? h
  unfold Piles.landingFrom
  split
  case isTrue hhand =>
    rw [if_pos hhand.symm] at hsize
    exact Piles.landing_of_lt (by omega)
  case isFalse hhand =>
    rw [if_neg (Ne.symm hhand), Nat.add_zero] at hsize
    exact Piles.landing_congr hsize.symm

/-- **The card lies where it was brought.** -/
theorem locate?_eq (h : Brings rules uid destination piles piles')
    (hone : piles.count uid ≤ 1) (hfit : piles.size .hand ≤ rules.config.handLimit) :
    piles'.locate? uid = (piles.locate? uid).map (piles.landingFrom rules destination) := by
  have hone' : piles'.count uid ≤ 1 := (h.count_eq uid).symm ▸ hone
  cases h with
  | nowhere h => rw [h, Option.map_none]
  | there hhand h =>
      rw [(Piles.locate?_eq_some_iff hone).mpr (Piles.contains_iff.mp h), Option.map_some,
        Piles.landingFrom_of_ne hhand]
  | @brought source card rest h =>
      have hid := (@Piles.count_of_take? _ _ _ _ uid _ h).1
      rw [Piles.locate?_of_take? h, Option.map_some, ← landing_rest h hfit,
        Piles.locate?_eq_some_iff hone', Piles.countIn_add, if_pos ⟨rfl, hid⟩]
      exact Nat.succ_pos _

/-- A card that was brought and is brought once more stays there. -/
theorem landingFrom_landingFrom (h : Brings rules uid destination piles piles')
    (hlocate : piles.locate? uid = some source) :
    piles'.landingFrom rules destination (piles.landingFrom rules destination source) =
      piles.landingFrom rules destination source := by
  by_cases hdestination : destination = .hand
  case neg => rw [Piles.landingFrom_of_ne hdestination, Piles.landingFrom_of_ne hdestination]
  case pos =>
    subst hdestination
    by_cases hlanding : piles.landingFrom rules .hand source = .hand
    · rw [hlanding]
      rfl
    · -- The hand was full and the card did not lie there, so the hand is as it was.
      have hsource : source ≠ .hand := fun hhand => hlanding (by rw [hhand]; rfl)
      have hfrom : piles.landingFrom rules .hand source = piles.landing rules .hand :=
        if_neg hsource
      have hsize : piles'.size .hand = piles.size .hand := by
        cases h with
        | nowhere | there => rfl
        | @brought found card rest htake =>
            obtain rfl : source = found :=
              Option.some.inj (hlocate.symm.trans (Piles.locate?_of_take? htake))
            have hrest := size_of_take? htake
            rw [if_neg (Ne.symm hsource), Nat.add_zero] at hrest
            rw [Piles.size_add, if_neg, Nat.add_zero, hrest]
            rw [Piles.landing_congr hrest.symm, ← hfrom]
            exact Ne.symm hlanding
      rw [hfrom, Piles.landingFrom, if_neg (hfrom ▸ hlanding), Piles.landing_congr hsize]

end Brings

/-! ### What is done with it -/

/-- While nothing is in play, no card is told where to go when its play is over. -/
theorem run_setRoute_idle {route : Route} {found : Option Card} (hplay : s.combat.inPlay = [])
    (h : (setRoute uid route).run s = .ok (found, t)) : found = none ∧ s = t := by
  cases found with
  | none => exact ⟨rfl, (run_setRoute_none h).2⟩
  | some card =>
      obtain ⟨entry, hentry, -⟩ := run_setRoute_some h
      unfold Combat.findInPlay? at hentry
      rw [hplay] at hentry
      exact absurd hentry nofun

/-- A card that is moved to the discard pile is brought there. -/
theorem brings_of_moveTo {event : Event} (hplay : s.combat.inPlay = [])
    (h : (do if (← moveTo uid .discardPile).isSome then report event).run s = .ok ((), t)) :
    Brings rules uid .discardPile s.combat.piles t.combat.piles ∧ t.combat.inPlay = [] := by
  obtain ⟨found, v, hmove, h⟩ := run_bind_iff.mp h
  cases found with
  | none =>
      obtain ⟨hnone, rfl⟩ := run_moveTo_none hmove
      obtain ⟨-, rfl⟩ := run_pure_iff.mp h
      exact ⟨.nowhere (Piles.take?_eq_none_iff.mp hnone), hplay⟩
  | some found =>
      obtain ⟨piles, rng, hrun, rfl⟩ := run_moveTo_some hmove
      obtain rfl := run_report_iff.mp h
      obtain ⟨taken, rest, htake, rfl⟩ := Piles.move_bottom_eq hrun
      exact ⟨.brought htake, hplay⟩

/-- A card that is discarded is brought to the discard pile. -/
theorem brings_of_discardCard (hplay : s.combat.inPlay = [])
    (h : (discardCard uid).run s = .ok ((), t)) :
    Brings rules uid .discardPile s.combat.piles t.combat.piles ∧ t.combat.inPlay = [] := by
  obtain ⟨sent, v, hsent, h⟩ := run_bind_iff.mp h
  obtain ⟨found, w, hfound, hsent⟩ := run_bind_iff.mp hsent
  obtain ⟨rfl, rfl⟩ := run_setRoute_idle hplay hfound
  obtain ⟨_, _, hcombat, hretired⟩ := run_bind_iff.mp hsent
  obtain ⟨rfl, rfl⟩ := run_combat_iff.mp hcombat
  split at hretired
  case isTrue hthere =>
    obtain ⟨rfl, rfl⟩ := run_pure_iff.mp hretired
    obtain ⟨-, rfl⟩ := run_pure_iff.mp h
    exact ⟨.there nofun hthere, hplay⟩
  case isFalse =>
    obtain ⟨source, w, hmove, hretired⟩ := run_bind_iff.mp hretired
    obtain ⟨rfl, rfl⟩ := run_pure_iff.mp hretired
    exact brings_of_moveTo hplay (run_bind_iff.mpr ⟨source, w, hmove, h⟩)

/-- A card that is fetched is brought into the pile. -/
theorem brings_of_fetch {card : Card} (hplay : s.combat.inPlay = [])
    (h : (fetch rules card pile).run s = .ok ((), t)) :
    Brings rules card.uid pile s.combat.piles t.combat.piles ∧ t.combat.inPlay = [] := by
  obtain ⟨landed, v, hbring, h⟩ := run_bind_iff.mp h
  obtain ⟨found, w, hfound, hbring⟩ := run_bind_iff.mp hbring
  obtain ⟨rfl, rfl⟩ := run_setRoute_idle hplay hfound
  obtain ⟨_, _, hcombat, hbring⟩ := run_bind_iff.mp hbring
  obtain ⟨rfl, rfl⟩ := run_combat_iff.mp hcombat
  split at hbring
  case h_1 hnone =>
    obtain ⟨rfl, rfl⟩ := run_pure_iff.mp hbring
    obtain ⟨-, rfl⟩ := run_pure_iff.mp h
    exact ⟨.nowhere (Piles.take?_eq_none_iff.mp hnone), hplay⟩
  case h_2 source taken piles htake =>
    simp only [run_bind_iff, run_setPiles_iff, run_place_iff, run_pure_iff] at hbring
    obtain ⟨_, _, rfl, _, _, ⟨rfl, rfl⟩, rfl, rfl⟩ := hbring
    obtain rfl := run_report_iff.mp h
    exact ⟨.brought htake, hplay⟩

/-- **What becomes of a chosen card** while nothing is in play: it is moved from wherever it
lies. -/
theorem brings_of_settleChoice {card : Card} (hway : kind.way? = some (source, destination))
    (hplay : s.combat.inPlay = []) (h : (settleChoice rules kind card).run s = .ok ((), t)) :
    Brings rules card.uid destination s.combat.piles t.combat.piles ∧ t.combat.inPlay = [] := by
  cases kind with
  | banish | discover => exact absurd hway nofun
  | scry =>
      obtain ⟨-, rfl⟩ := Prod.mk.inj (Option.some.inj hway)
      exact brings_of_moveTo hplay h
  | discard =>
      obtain ⟨-, rfl⟩ := Prod.mk.inj (Option.some.inj hway)
      exact brings_of_discardCard hplay h
  | tutor =>
      obtain ⟨-, rfl⟩ := Prod.mk.inj (Option.some.inj hway)
      exact brings_of_fetch hplay h

/-! ## All chosen cards -/

/-- The chosen cards, and no others, have been moved to a pile from wherever they lay. -/
structure Moved (rules : Rules) (destination : Pile) (chosen : List CardUid)
    (piles piles' : Piles) : Prop where
  count : ∀ uid, piles'.count uid = piles.count uid
  countIn : ∀ uid ∉ chosen, ∀ pile,
    Piles.countIn uid (piles'.get pile) = Piles.countIn uid (piles.get pile)
  locate? : ∀ uid ∈ chosen, piles.count uid ≤ 1 →
    piles'.locate? uid = (piles.locate? uid).map (piles.landingFrom rules destination)

/-- **The first chosen card is moved, and then the others.** If cards are moved to the hand, they
have to be one and the same card, since each takes room from the next. -/
theorem Moved.cons {between : Piles} {chosen : List CardUid}
    (hone : destination = .hand → ∀ u ∈ chosen, u = uid)
    (hfit : piles.size .hand ≤ rules.config.handLimit)
    (hfirst : Brings rules uid destination piles between)
    (h : Moved rules destination chosen between piles') :
    Moved rules destination (uid :: chosen) piles piles' where
  count u := (h.count u).trans (hfirst.count_eq u)
  countIn u hu pile := by
    have hlater := h.countIn u (List.not_mem_of_not_mem_cons hu) pile
    exact hlater.trans (hfirst.countIn_eq (List.ne_of_not_mem_cons hu) pile)
  locate? u hu hsingle := by
    have hsingle' : between.count u ≤ 1 := (hfirst.count_eq u).symm ▸ hsingle
    by_cases hsame : u = uid
    case pos =>
      subst hsame
      have hbrought := hfirst.locate?_eq hsingle hfit
      by_cases hmem : u ∈ chosen
      case neg => rw [Piles.locate?_congr (h.countIn u hmem), hbrought]
      case pos =>
        rw [h.locate? u hmem hsingle', hbrought]
        cases hlocate : piles.locate? u with
        | none => rfl
        | some source => exact congrArg some (hfirst.landingFrom_landingFrom hlocate)
    case neg =>
      have hmem : u ∈ chosen := (List.mem_cons.mp hu).resolve_left hsame
      have hhand : destination ≠ .hand := fun hhand => hsame (hone hhand u hmem)
      have hlanding (piles : Piles) : piles.landingFrom rules destination = fun _ => destination :=
        funext fun _ => Piles.landingFrom_of_ne hhand
      rw [h.locate? u hmem hsingle', Piles.locate?_congr (hfirst.countIn_eq hsame), hlanding,
        hlanding]

/-- **What becomes of all chosen cards**, one after another. -/
theorem Moved.of_settleChoices (hway : kind.way? = some (source, destination)) {cards : List Card}
    (hone : destination = .hand → ∀ card ∈ cards, ∀ other ∈ cards, card.uid = other.uid)
    (hplay : s.combat.inPlay = []) (hfit : s.combat.HandFits rules)
    (h : (cards.forM (settleChoice rules kind)).run s = .ok ((), t)) :
    Moved rules destination (cards.map (·.uid)) s.combat.piles t.combat.piles := by
  induction cards generalizing s with
  | nil =>
      obtain ⟨-, rfl⟩ := run_pure_iff.mp h
      exact ⟨fun _ => rfl, fun _ _ _ => rfl, fun _ hmem => absurd hmem List.not_mem_nil⟩
  | cons card cards ih =>
      obtain ⟨⟨⟩, v, hcard, hcards⟩ := run_bind_iff.mp h
      obtain ⟨hbrings, hplay'⟩ := brings_of_settleChoice hway hplay hcard
      have hone' (hhand : destination = .hand) :
          ∀ first ∈ cards, ∀ other ∈ cards, first.uid = other.uid :=
        fun first hfirst other hother => hone hhand first (List.mem_cons_of_mem _ hfirst) other
          (List.mem_cons_of_mem _ hother)
      have hrest := ih hone' hplay' (hbrings.fits hfit) hcards
      refine .cons (fun hhand u hmem => ?_) hfit hbrings hrest
      obtain ⟨other, hother, rfl⟩ := List.mem_map.mp hmem
      exact hone hhand other (List.mem_cons_of_mem _ hother) card List.mem_cons_self

/-! ## Between calls -/

namespace Selection

variable {selection : Selection} {chosen : List CardUid}

/-- The candidates that were chosen. -/
def picked (selection : Selection) (chosen : List CardUid) : List Card :=
  selection.candidates.filter (chosen.contains ·.uid)

/-- If only candidates were named, the candidates that were chosen are those that were named. -/
theorem mem_picked_iff (hcheck : selection.check chosen = .ok ()) :
    uid ∈ (selection.picked chosen).map (·.uid) ↔ uid ∈ chosen := by
  constructor
  · intro hmem
    obtain ⟨card, hcard, rfl⟩ := List.mem_map.mp hmem
    exact List.contains_iff_mem.mp (List.mem_filter.mp hcard).2
  · intro hmem
    obtain ⟨-, -, hcandidates, -⟩ := check_eq_ok_iff.mp hcheck
    obtain ⟨card, hcard, rfl⟩ := List.mem_map.mp (hcandidates uid hmem)
    exact List.mem_map.mpr ⟨card, List.mem_filter.mpr ⟨hcard, List.contains_iff_mem.mpr hmem⟩, rfl⟩

/-- A card that comes into the hand is looked for, and it is a single one. -/
theorem Proper.picked_eq (hproper : selection.Proper)
    (hway : selection.kind.way? = some (source, .hand)) (hcheck : selection.check chosen = .ok ()) :
    ∀ card ∈ selection.picked chosen, ∀ other ∈ selection.picked chosen, card.uid = other.uid := by
  have hmax : selection.max = 1 := by
    refine hproper.single .hand ?_
    generalize selection.kind = kind at hway
    cases kind with
    | tutor => rw [(Prod.mk.inj (Option.some.inj hway)).2]
    | scry | discard | banish | discover => exact absurd hway nofun
  obtain ⟨-, hlength, -, -⟩ := check_eq_ok_iff.mp hcheck
  intro card hcard other hother
  have hcard := (mem_picked_iff hcheck).mp (List.mem_map_of_mem hcard)
  have hother := (mem_picked_iff hcheck).mp (List.mem_map_of_mem hother)
  cases chosen with
  | nil => exact absurd hcard List.not_mem_nil
  | cons first rest =>
      obtain rfl : rest = [] := by
        rw [hmax, List.length_cons] at hlength
        exact List.length_eq_zero_iff.mp (by omega)
      rw [List.mem_singleton.mp hcard, List.mem_singleton.mp hother]

end Selection

namespace Rules

variable {run started before after : Run} {enemies : List String} {combat : Combat}
  {selection : Selection} {chosen : List CardUid}

/-- **An answer moves the chosen cards**, and no others, from wherever they lie. -/
theorem moved_of_accepted (hstart : rules.perform run (.start enemies) = .ok (none, started))
    (h : rules.Reaches started before) (hc : before.combat = some combat)
    (hp : combat.pending = some selection)
    (hway : selection.kind.way? = some (source, destination))
    (hcall : rules.perform before (.select chosen) = .ok (none, after)) :
    ∃ combat', after.combat = some combat' ∧
      Moved rules destination chosen combat.piles combat'.piles := by
  obtain ⟨s, t, m, hm, -, hrun, -, -, hafter⟩ := undertakes_of_accepted hcall
  obtain rfl : s.combat = combat :=
    Option.some.inj ((hm.combat_eq nofun).symm.trans hc)
  have hplay := inPlay_of_reaches hstart h _ hc
  have hfit := handFits_of_reaches hstart h _ hc
  have hproper := proper_of_reaches hstart h _ hc selection hp
  generalize hcombat : s.combat = undertaken at hm
  cases hm with
  | @select _ _ asked _ _ hasked hcheck =>
      subst hcombat
      obtain rfl : selection = asked := Option.some.inj (hp.symm.trans hasked)
      obtain ⟨⟨⟩, v, hforget, hcards⟩ := run_bind_iff.mp hrun
      obtain rfl := run_modifyCombat_iff.mp hforget
      have hone (hhand : destination = .hand) : ∀ card ∈ selection.picked chosen,
          ∀ other ∈ selection.picked chosen, card.uid = other.uid :=
        hproper.picked_eq (hhand ▸ hway) hcheck
      change ((selection.picked chosen).forM (settleChoice rules selection.kind)).run s.forget =
        .ok ((), t) at hcards
      have hidle : s.forget.combat.inPlay = [] := hplay
      have hmoved := Moved.of_settleChoices hway hone hidle hfit hcards
      refine ⟨_, hafter, ?_⟩
      rw [Combat.endIfDecided_eq]
      exact {
        count := hmoved.count
        countIn := fun uid hnot =>
          hmoved.countIn uid fun hmem => hnot ((Selection.mem_picked_iff hcheck).mp hmem)
        locate? := fun uid hmem => hmoved.locate? uid ((Selection.mem_picked_iff hcheck).mpr hmem) }

/-- The card that was seen, and may be discarded, has been drawn since. -/
theorem peek_offers :
    ∃ combat selection, peekPlayed.combat = some combat ∧ combat.pending = some selection ∧
      selection.kind.way? = some (.drawPile, .discardPile) ∧ combat.piles.count ⟨2⟩ ≤ 1 ∧
        combat.piles.locate? ⟨2⟩ = some .hand := by
  have hstate : peekPlayed.combat.map (fun combat =>
      (combat.pending.map (·.kind), combat.piles.count ⟨2⟩, combat.piles.locate? ⟨2⟩)) =
        some (some .scry, 1, some .hand) := by
    decide +kernel
  obtain ⟨combat, hc, hstate⟩ := Option.map_eq_some_iff.mp hstate
  obtain ⟨hpending, hstate⟩ := Prod.mk.inj hstate
  obtain ⟨hcount, hhand⟩ := Prod.mk.inj hstate
  obtain ⟨selection, hpending, hkind⟩ := Option.map_eq_some_iff.mp hpending
  exact ⟨combat, selection, hc, hpending, by rw [hkind]; rfl, Nat.le_of_eq hcount, hhand⟩

/-- The card that was seen is chosen. -/
theorem peek_selected : peekRules.perform peekPlayed (.select [⟨2⟩]) =
    .ok (none, peekRules.after peekPlayed (.select [⟨2⟩])) :=
  Rules.perform_eq_of_answer (by decide +kernel)

/-- **Which chosen cards go the way that was offered.** When a selection that moves cards is
answered, no card is lost or doubled, and every card that was not chosen stays in its pile. A chosen
card that lies in the piles at most once is moved if it still lies in the source, and else stays in
its pile, exactly if it lies nowhere else than in the source or where it would come anyway. -/
theorem moved_as_offered_iff (hstart : rules.perform run (.start enemies) = .ok (none, started))
    (h : rules.Reaches started before) (hc : before.combat = some combat)
    (hp : combat.pending = some selection)
    (hway : selection.kind.way? = some (source, destination))
    (hcall : rules.perform before (.select chosen) = .ok (none, after)) :
    ∃ combat', after.combat = some combat' ∧
      (∀ uid, combat'.piles.count uid = combat.piles.count uid) ∧
        (∀ uid ∉ chosen, ∀ pile, Piles.countIn uid (combat'.piles.get pile) =
          Piles.countIn uid (combat.piles.get pile)) ∧
          ∀ uid ∈ chosen, combat.piles.count uid ≤ 1 →
            (combat'.piles.locate? uid = combat.piles.offered? rules source destination uid ↔
              ∀ pile, combat.piles.locate? uid = some pile →
                pile = source ∨ pile = destination ∨
                  pile = combat.piles.landing rules destination) := by
  obtain ⟨combat', hafter, hcount, hothers, hchosen⟩ :=
    moved_of_accepted hstart h hc hp hway hcall
  refine ⟨combat', hafter, hcount, hothers, fun uid hmem hsingle => ?_⟩
  rw [hchosen uid hmem hsingle]
  refine Piles.landingFrom_eq_offered_iff fun hsource hhand => ?_
  subst hsource hhand
  generalize selection.kind = kind at hway
  cases kind with
  | scry | discard | tutor | banish | discover => exact absurd hway nofun

/-- The card that was seen has been drawn since, so it does not go the way that was offered. -/
theorem moved_as_offered_iff_peek :
    ∃ combat combat', peekPlayed.combat = some combat ∧
      (peekRules.after peekPlayed (.select [⟨2⟩])).combat = some combat' ∧
        combat.piles.count ⟨2⟩ ≤ 1 ∧
          (combat'.piles.locate? ⟨2⟩ =
              combat.piles.offered? peekRules .drawPile .discardPile ⟨2⟩ ↔
            ∀ pile, combat.piles.locate? ⟨2⟩ = some pile → pile = .drawPile ∨ pile = .discardPile ∨
              pile = combat.piles.landing peekRules .discardPile) := by
  obtain ⟨combat, selection, hc, hpending, hway, hsingle, -⟩ := peek_offers
  obtain ⟨combat', hafter, -, -, hchosen⟩ :=
    moved_as_offered_iff peek_starts (.call .refl peek_played) hc hpending hway peek_selected
  exact ⟨combat, combat', hc, hafter, hsingle, hchosen ⟨2⟩ List.mem_cons_self hsingle⟩

/-- A card is discarded from the hand although it was to go from the draw pile to the discard
pile. -/
theorem peek_discards_from_hand :
    ¬∀ pack config content run enemies started before after combat selection source destination
        chosen, Content.ofPack pack = .ok content → (run.deck.map (·.uid)).Nodup →
      Rules.perform { content, config } run (.start enemies) = .ok (none, started) →
        Rules.Reaches { content, config } started before → before.combat = some combat →
          combat.pending = some selection →
            selection.kind.way? = some (source, destination) →
              Rules.perform { content, config } before (.select chosen) = .ok (none, after) →
                (∀ uid ∈ chosen, combat.piles.count uid ≤ 1) →
                  ∃ combat', after.combat = some combat' ∧ ∀ uid ∈ chosen,
                    combat'.piles.locate? uid =
                      combat.piles.offered? { content, config } source destination uid := by
  intro hclaim
  have hdiscarded : (peekRules.after peekPlayed (.select [⟨2⟩])).combat.map
      (·.piles.locate? ⟨2⟩) = some (some .discardPile) := by
    decide +kernel
  obtain ⟨combat, selection, hc, hpending, hway, hsingle, hhand⟩ := peek_offers
  obtain ⟨combat', hafter, hoffered⟩ :=
    hclaim peekPack peekRules.config peekRules.content peekRun ["dummy"] peekStarted peekPlayed _
      combat selection _ _ [⟨2⟩] rfl (by decide) peek_starts (.call .refl peek_played) hc hpending
      hway peek_selected fun uid hmem => List.mem_singleton.mp hmem ▸ hsingle
  have hkept : combat'.piles.locate? ⟨2⟩ = some .hand := by
    rw [hoffered _ List.mem_cons_self, Piles.offered?, hhand]
    rfl
  rw [hafter, Option.map_some, hkept] at hdiscarded
  exact absurd hdiscarded nofun

end Rules

end CardCombat
