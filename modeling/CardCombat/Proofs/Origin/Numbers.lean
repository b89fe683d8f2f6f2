import CardCombat.Proofs.Banishment.Permanence
import CardCombat.Proofs.Origin.Creation

/-!
# No number is given out twice

The number of every card that a combat shows has been given out: it is below the number that is
next. This holds when the deck is dealt, and everything that happens keeps it, since a card that is
shown comes from one that was known or was made with a number given out meanwhile. The next number
never becomes smaller. So the numbers that an effect gives out are those of no card that there ever
was in the combat, whether it is still there or was banished or passed over.

## Main definitions

* `Combat.Issued` -- all numbers have been given out.
* `Combat.Continues` -- the cards of a later combat have old numbers or new ones.
* `Effect.creates` -- the effects that make cards.

## Main results

* `Rules.numbers_fresh` -- along calls, through effects at any depth, and where cards are made.
-/

namespace CardCombat

open Resolution

variable {rules : Rules} {run run' started : Run} {s t : Scene} {cited : Card → Prop}

namespace Combat

variable {before after later : Combat}

/-- The numbers of all cards that the combat shows have been given out. -/
def Issued (combat : Combat) : Prop :=
  ∀ card, combat.Shows card → card.uid.number < combat.nextCardUid

/-- Every card that the later combat shows has the number of a card that was shown or cited, or one
that was not given out before. -/
structure Continues (cited : Card → Prop) (before after : Combat) : Prop where
  next : before.nextCardUid ≤ after.nextCardUid
  numbers : ∀ card, after.Shows card →
    (∃ found, (before.Shows found ∨ cited found) ∧ card.uid = found.uid) ∨
      before.nextCardUid ≤ card.uid.number

theorem Continues.of_descends (h : Descends rules cited s t) :
    Continues cited s.combat t.combat := by
  refine ⟨h.next, fun card hshown => ?_⟩
  cases h.origin card hshown with
  | known hk hu => exact .inl ⟨_, hk, hu⟩
  | made hlow => exact .inr hlow

theorem Continues.refl (combat : Combat) : Continues Uncited combat combat :=
  ⟨Nat.le_refl _, fun card hshown => .inl ⟨card, .inl hshown, rfl⟩⟩

theorem Continues.trans (h : Continues Uncited before after) (h' : Continues Uncited after later) :
    Continues Uncited before later := by
  refine ⟨Nat.le_trans h.next h'.next, fun card hshown => ?_⟩
  rcases h'.numbers card hshown with ⟨found, hfound | hcited, hu⟩ | hnew
  · rw [hu]
    exact h.numbers found hfound
  · exact hcited.elim
  · exact .inr (Nat.le_trans h.next hnew)

/-- The end of a combat, its events and whether it is locked have nothing to do with its cards. -/
theorem Continues.of_shown (hnext : after.nextCardUid = before.nextCardUid)
    (hshown : ∀ card, after.Shows card → before.Shows card) : Continues Uncited before after :=
  ⟨Nat.le_of_eq hnext.symm, fun card h => .inl ⟨card, .inl (hshown card h), rfl⟩⟩

end Combat

/-- Numbers are given out before cards are shown that have them. -/
theorem Descends.issued (h : Descends rules cited s t)
    (hs : ∀ card, s.Knows cited card → card.uid.number < s.combat.nextCardUid) :
    t.combat.Issued := by
  intro card hshown
  cases h.origin card hshown with
  | known hk hu => exact hu ▸ Nat.lt_of_lt_of_le (hs _ hk) h.next
  | made _ hhigh => exact hhigh

/-! ## Calls -/

namespace Rules

variable {call : Call} {enemies : List String} {deeds : List Deed} {news : List Event}

/-- When the deck is dealt the numbers of its cards have been given out. -/
theorem issued_of_start {combat : Combat} {m : Resolution Unit}
    (h : Undertakes rules run (.start enemies) combat m) : combat.Issued := by
  intro card hshown
  have hmem := mem_deck_of_start h hshown
  cases h with
  | start _ hgather =>
      obtain ⟨nextCardUid, hnext, enemies, nextEnemyId, rfl, -⟩ := gather_spec hgather
      exact lt_nextCardUid hnext card hmem

theorem nextCardUid_endIfDecided (combat : Combat) :
    combat.endIfDecided.2.nextCardUid = combat.nextCardUid := by
  rw [Combat.endIfDecided_eq]

/-- **An accepted call** leaves only numbers that have been given out, if it found no others. -/
theorem issued_of_accepted
    (hbefore : (∀ enemies, call ≠ .start enemies) → run.InCombat Combat.Issued)
    (h : rules.perform run call = .ok (none, run')) : run'.InCombat Combat.Issued := by
  obtain ⟨s, t, m, hm, -, hrun, -, -, hcombat⟩ := undertakes_of_accepted h
  have hs : s.combat.Issued := by
    by_cases hstart : ∃ enemies, call = .start enemies
    · obtain ⟨enemies, rfl⟩ := hstart
      exact issued_of_start hm
    · have hother : ∀ enemies, call ≠ .start enemies := fun enemies heq => hstart ⟨enemies, heq⟩
      exact hbefore hother _ (hm.combat_eq hother)
  have ht : t.combat.Issued := (descends_of_undertakes hm hrun).issued fun card hk =>
    hk.elim (hs card) False.elim
  intro combat hc card hshown
  obtain rfl := Option.some.inj (hcombat.symm.trans hc)
  rw [nextCardUid_endIfDecided]
  exact ht card (shows_of_endIfDecided hshown)

theorem issued_of_reaches (hstart : rules.perform run (.start enemies) = .ok (none, started))
    (h : rules.Reaches started run') : run'.InCombat Combat.Issued := by
  refine inCombat_of_reaches issued_of_accepted (fun {combat} events locked hs card hshown => ?_)
    hstart h
  exact hs card (hshown.of_parts (fun hhas => .pile hhas) (fun _ hmem hc => .inPlay hmem hc)
    rfl rfl)

/-- **Along the calls of one combat** cards have old numbers or new ones. -/
theorem continues_of_proceeds {combat : Combat} (hc : run.combat = some combat)
    (h : rules.Proceeds run deeds news run') :
    run'.InCombat (Combat.Continues Uncited combat) := by
  induction h with
  | refl => exact fun other hother => Option.some.inj (hc.symm.trans hother) ▸ .refl combat
  | accepted _ hcall hongoing ih =>
      obtain ⟨s, t, m, hm, -, hrun, -, -, hcombat⟩ := undertakes_of_accepted hcall
      have hbefore := ih _ (hm.combat_eq hongoing)
      have hresolved := Combat.Continues.of_descends (descends_of_undertakes hm hrun)
      intro other hother
      obtain rfl := Option.some.inj (hcombat.symm.trans hother)
      exact (hbefore.trans hresolved).trans
        (.of_shown (nextCardUid_endIfDecided _) fun _ => shows_of_endIfDecided)
  | rejected _ hcall ih => exact run_of_rejected hcall ▸ ih
  | attended _ hbefore events locked ih =>
      intro other hother
      obtain rfl := Option.some.inj hother
      exact (ih _ hbefore).trans (.of_shown rfl fun _ hshown => hshown.of_parts
        (fun hhas => .pile hhas) (fun _ hmem hc => .inPlay hmem hc) rfl rfl)

end Rules

/-! ## Cards that are made -/

/-- Whether an effect makes cards. -/
def Effect.creates : Effect → Bool
  | .addCard .. | .addStatusCard .. | .copyCard .. | .createRandomCard .. | .discover .. => true
  | _ => false

/-- Cards that were just made have numbers that no card had before. -/
structure Combat.Fresh (made : List Card) (before after : Combat) : Prop where
  creates : Creates made before after
  distinct : (made.map (·.uid)).Nodup
  range : ∀ card ∈ made,
    before.nextCardUid ≤ card.uid.number ∧ card.uid.number < after.nextCardUid
  /-- At no moment since which the next number has not become smaller was there such a card. -/
  new : ∀ {earlier : Combat}, earlier.Issued → earlier.nextCardUid ≤ before.nextCardUid →
    ∀ card ∈ made, ∀ old, earlier.Shows old → card.uid ≠ old.uid

theorem Combat.Creates.fresh {made : List Card} {before after : Combat}
    (h : Creates made before after) : Fresh made before after := by
  have hnumbers := h.givesOut.numbers
  have hrange (card : Card) (hmem : card ∈ made) :
      before.nextCardUid ≤ card.uid.number ∧ card.uid.number < after.nextCardUid := by
    have hnumber : card.uid.number ∈ made.map (·.uid.number) := List.mem_map_of_mem hmem
    rw [hnumbers] at hnumber
    rw [h.givesOut.next]
    exact List.mem_range'_1.mp hnumber
  refine ⟨h, ?_, hrange, fun hissued hnext card hmem old hold heq => ?_⟩
  · have hdistinct : ((made.map (·.uid)).map CardUid.number).Nodup := by
      rw [List.map_map]
      show (made.map (·.uid.number)).Nodup
      rw [hnumbers]
      exact List.nodup_range'
    exact hdistinct.of_map _
  · have hlow := (hrange card hmem).1
    have hhigh := hissued old hold
    rw [← heq] at hhigh
    omega

namespace Resolution

/-- **Whatever makes cards gives them fresh numbers**, whatever is nested in it. -/
theorem fresh_of_dispatch {effect : Effect} (hcreates : effect.creates = true)
    {nested : List Effect → Context → Resolution Unit} {ctx : Context}
    (h : (dispatch rules nested ctx effect).run s = .ok ((), t)) :
    ∃ made, Combat.Fresh made s.combat t.combat := by
  have ofMaking {P : Card → Prop} (h : Making P s t) :
      ∃ made, Combat.Fresh made s.combat t.combat :=
    h.imp fun made h => Combat.Creates.fresh (.delivered h.1)
  cases effect with
  | addCard cardId destination count upgraded position =>
      exact ofMaking ((making_of_addCards _ _).rel h)
  | addStatusCard cardId destination count => exact ofMaking ((making_of_addCards _ _).rel h)
  | copyCard target destination count => exact ofMaking (making_of_copyCards h)
  | createRandomCard theme destination count free upgraded =>
      exact ofMaking (making_of_createRandomCards.rel h)
  | discover theme choices destination upgraded =>
      obtain ⟨made, h, -⟩ := creates_of_discover h
      exact ⟨made, h.fresh⟩
  | _ => exact absurd hcreates nofun

end Resolution

namespace Rules

/-- **Numbers are fresh.** From the start of a combat on, all cards have numbers that were given
out. Along the calls of one combat the next number never becomes smaller, and every card that is
shown later has the number of a card that was shown, or one that was not given out before; so a
number that is gone never comes back. The same holds of effects at any depth, with the card for
which they are carried out. And whatever effect makes cards gives them numbers that no card had at
any earlier moment. -/
theorem numbers_fresh (rules : Rules) :
    (∀ run started enemies run', rules.perform run (.start enemies) = .ok (none, started) →
      rules.Reaches started run' → run'.InCombat Combat.Issued) ∧
    (∀ run deeds news run' combat, run.combat = some combat →
      rules.Proceeds run deeds news run' → run'.InCombat (Combat.Continues Uncited combat)) ∧
    (∀ effects ctx s t, (carryOut rules effects ctx).run s = .ok ((), t) →
      (∀ card, s.Knows ctx.Cites card → card.uid.number < s.combat.nextCardUid) →
        t.combat.Issued ∧ Combat.Continues ctx.Cites s.combat t.combat) ∧
    ∀ effect nested ctx s t, effect.creates = true →
      (dispatch rules nested ctx effect).run s = .ok ((), t) →
        ∃ made, Combat.Fresh made s.combat t.combat := by
  refine ⟨fun _ _ _ _ hstart h => issued_of_reaches hstart h,
    fun _ _ _ _ _ hc h => continues_of_proceeds hc h, fun effects ctx s t h hs => ?_,
    fun _ _ _ _ _ hcreates h => fresh_of_dispatch hcreates h⟩
  have hdescends := (descends_of_carryOut effects ctx).rel h
  exact ⟨hdescends.issued hs, .of_descends hdescends⟩

end Rules

/-! ## A card that makes cards -/

/-- A card that makes a known card and offers new ones. -/
def tinkerPack : Pack where
  cards :=
    [{ id := "tinker", name := "Tinker", theme := .skill, cost := .fixed 0
       effects := [.addCard "spark" .hand (.fixed 1) false .bottom,
         .discover none none .hand false] },
     { id := "spark", name := "Spark", theme := .attack, cost := .fixed 0 }]
  enemies := [{ id := "dummy", name := "Dummy", maxHealth := 8, moves := [] }]

def tinkerRules : Rules where
  content := (Content.ofPack tinkerPack).toOption.getD {}

/-- A run with that card. -/
def tinkerRun : Run where
  hero := ""
  health := 10
  maxHealth := 10
  deck := [{ uid := ⟨4⟩, definition := "tinker" }]
  rng := .ofSeed 0

/-- The run after a combat has begun. -/
def tinkerStarted : Run := tinkerRules.after tinkerRun (.start ["dummy"])

/-- The run after the card was played. -/
def tinkerPlayed : Run := tinkerRules.after tinkerStarted (.play ⟨4⟩ none)

/-- A scene in which the card is in the hand. -/
def tinkerScene : Scene where
  combat :=
    { player := .ofPlayer "" 10 10, resources := {}, nextCardUid := 5
      piles := { hand := [{ uid := ⟨4⟩, definition := "tinker" }] } }
  gold := 0
  stats := {}
  relics := []
  rng := .ofSeed 0

theorem tinker_starts :
    tinkerRules.perform tinkerRun (.start ["dummy"]) = .ok (none, tinkerStarted) :=
  Rules.perform_eq_of_answer (by decide +kernel)

theorem tinker_played :
    tinkerRules.perform tinkerStarted (.play ⟨4⟩ none) = .ok (none, tinkerPlayed) :=
  Rules.perform_eq_of_answer (by decide +kernel)

/-- When the card was played there is a new card in the hand, and others are offered. -/
theorem Rules.numbers_fresh_of_tinker :
    (tinkerPlayed.InCombat Combat.Issued ∧ ∃ combat, tinkerStarted.combat = some combat ∧
      tinkerPlayed.InCombat (Combat.Continues Uncited combat)) ∧
    (∃ t, (carryOut tinkerRules [.discover none none .hand false] {}).run tinkerScene =
      .ok ((), t) ∧ t.combat.Issued) ∧
    ∃ t made, (dispatch tinkerRules skip {} (.discover none none .hand false)).run tinkerScene =
      .ok ((), t) ∧ Combat.Fresh made tinkerScene.combat t.combat := by
  obtain ⟨hissued, hcontinues, heffects, hmade⟩ := Rules.numbers_fresh tinkerRules
  have hproceeds := Rules.Proceeds.accepted .refl tinker_played fun _ => nofun
  have hcombat : tinkerStarted.combat.isSome := by decide +kernel
  obtain ⟨combat, hcombat⟩ := Option.isSome_iff_exists.mp hcombat
  refine ⟨⟨hissued _ _ _ _ tinker_starts (.call .refl tinker_played), combat, hcombat,
    hcontinues _ _ _ _ _ hcombat hproceeds⟩, ?_, ?_⟩
  · have hrun := run_eq_of_isSome (s := tinkerScene)
      (m := carryOut tinkerRules [.discover none none .hand false] {}) (by decide +kernel)
    refine ⟨_, hrun, (heffects _ _ _ _ hrun fun card hknown => ?_).1⟩
    rcases hknown with hshown | hcited
    · cases hshown with
      | pile hhas =>
          obtain ⟨pile, hmem⟩ := hhas
          cases pile with
          | hand => exact List.mem_singleton.mp hmem ▸ Nat.lt_succ_self 4
          | drawPile | discardPile | exhaustPile => exact absurd hmem List.not_mem_nil
      | inPlay hmem => exact absurd hmem List.not_mem_nil
      | lastPlayed hlast => exact absurd hlast nofun
      | candidate hpending => exact absurd hpending nofun
    · exact absurd hcited nofun
  · have hrun := run_eq_of_isSome (s := tinkerScene)
      (m := dispatch tinkerRules skip {} (.discover none none .hand false)) (by decide +kernel)
    obtain ⟨made, hfresh⟩ := hmade _ _ _ _ _ rfl hrun
    exact ⟨_, made, hrun, hfresh⟩

end CardCombat
