import CardCombat.Proofs.Overlays.Traces
import CardCombat.Proofs.Uniqueness.Calls

/-!
# Whether announced changes stay with a card

Once a card was brought from play into a pile it has left its play, but until that is over its
number means the instance in play. What is changed about that instance is given up with it, so a
change that was announced may be lost. It is the same with what the card is told to do in a play
that it has left. As long as no effect finds the card there, all that was announced stays with it.

## Main results

* `Rules.instances_traced` -- all that a play makes of a card was announced.
* `Rules.changes_stick` -- when all that was announced stays with the card.
-/

namespace CardCombat

open Resolution

/-! ## Calls -/

namespace Rules

variable {rules : Rules} {run started before after : Run} {combat left : Combat}
  {enemies : List String} {uid : CardUid} {target : Option CombatantId} {card found : Card}

/-- The play of a card keeps track of the instances of every card. -/
theorem sticking_of_played (u : CardUid)
    (hplay : rules.perform before (.play uid target) = .ok (none, after)) :
    ∃ s t phase, before.combat = some s.combat ∧ after.combat = some { t.combat with phase } ∧
      Sticking u s t after.chronicle.toList (after.eventsSince before) := by
  obtain ⟨s, t, m, hm, hstart, hrun, -, hchronicle, hcombat⟩ := undertakes_of_accepted hplay
  have hbefore : before.combat = some s.combat := hm.combat_eq fun _ => by simp
  rw [Combat.endIfDecided_eq] at hcombat
  obtain ⟨deeds, news, h⟩ : Sticks u s t := by
    cases hm with
    | play => exact (play_sticks _ _).rel hrun
  have hdeeds : after.chronicle.toList = deeds := by
    rw [hchronicle, h.chronicle, hstart]
    rfl
  have hnews : after.eventsSince before = news :=
    Run.eventsSince_eq hbefore ((Run.events_eq hcombat).trans h.events)
  exact ⟨s, t, _, hbefore, hcombat, hdeeds ▸ hnews ▸ h⟩

/-- **Every instance has come about by announced changes**: a card that lies in the piles after the
play of a card, and has had its number before, lay there before, and some of the changes that were
announced have made it what it is. -/
theorem instances_traced (hdeck : (run.deck.map (·.uid)).Nodup)
    (hstart : rules.perform run (.start enemies) = .ok (none, started))
    (hreach : rules.Reaches started before)
    (hplay : rules.perform before (.play uid target) = .ok (none, after))
    (hbefore : before.combat = some combat) (hafter : after.combat = some left)
    (hfound : left.piles.Has found) (hlt : found.uid.number < combat.nextCardUid) :
    ∃ card, combat.piles.Has card ∧ card.uid = found.uid ∧
      ∃ part, part.Sublist (after.eventsSince before) ∧ card.changedBy found.uid part = found := by
  have hrests :=
    ((started_orderly hdeck (accepted_of_reply hstart)).1.of_reaches hreach).rests _ hbefore
  obtain ⟨s, t, phase, hs, ht, h⟩ := sticking_of_played found.uid hplay
  obtain rfl := Option.some.inj (hs.symm.trans hbefore)
  obtain rfl := Option.some.inj (ht.symm.trans hafter)
  obtain ⟨card, hinstance, part, hpart, hmade⟩ := h.traced hlt found
    (Combat.isInstance_of_mem_copiesOf (Combat.mem_copiesOf_of_has hfound))
  obtain ⟨hid, hhas⟩ := (Combat.isInstance_iff_of_inPlay hrests.inPlay).mp hinstance
  exact ⟨card, hhas, hid, part, hpart, hmade⟩

/-- **Announced changes stick**: a card that has lain once in the piles before the play of a card is
afterwards, wherever it lies, what all the changes that were announced have made of it, one after
another, if no effect has found it in a play that it had left. -/
theorem changes_stick (hdeck : (run.deck.map (·.uid)).Nodup)
    (hstart : rules.perform run (.start enemies) = .ok (none, started))
    (hreach : rules.Reaches started before)
    (hplay : rules.perform before (.play uid target) = .ok (none, after))
    (hbefore : before.combat = some combat) (hcard : combat.piles.Has card)
    (hone : combat.piles.count card.uid = 1)
    (hleft : ∀ deed ∈ after.chronicle.toList, ¬deed.strays card.uid) :
    ∃ left, after.combat = some left ∧ ∀ found, left.piles.Has found → found.uid = card.uid →
      found = card.changedBy card.uid (after.eventsSince before) := by
  have hrests :=
    ((started_orderly hdeck (accepted_of_reply hstart)).1.of_reaches hreach).rests _ hbefore
  obtain ⟨s, t, phase, hs, ht, h⟩ := sticking_of_played card.uid hplay
  obtain rfl := Option.some.inj (hs.symm.trans hbefore)
  have hcopy : s.combat.copiesOf card.uid = [card] := by
    rw [Combat.copiesOf_of_inPlay hrests.inPlay]
    exact Piles.filter_uid_eq (Piles.has_iff.mp hcard) hone
  have hlt : card.uid.number < s.combat.nextCardUid :=
    hrests.bounded _ (.inl (hone ▸ Nat.one_pos))
  refine ⟨_, ht, fun found hfound hid => ?_⟩
  have hmem : found ∈ t.combat.copiesOf card.uid := hid ▸ Combat.mem_copiesOf_of_has hfound
  have hkept := h.kept hlt hleft card (hcopy ▸ List.Subperm.refl _)
  exact List.mem_singleton.mp (hkept.subset hmem)

end Rules

/-! ## A card that is upgraded and put on the deck -/

/-- A card that is upgraded before it puts itself on the deck, and one that is upgraded after it. -/
def temperPack : Pack where
  cards :=
    [{ id := "temper", name := "Temper", theme := .skill, cost := .fixed 0
       effects := [.upgrade .thisCard, .putOnDeck .thisCard .top] },
     { id := "quench", name := "Quench", theme := .skill, cost := .fixed 0
       effects := [.putOnDeck .thisCard .top, .upgrade .thisCard] }]
  enemies := [{ id := "dummy", name := "Dummy", maxHealth := 8, moves := [] }]

def temperRules : Rules where
  content := (Content.ofPack temperPack).toOption.getD {}

/-- A run with those cards. -/
def temperRun : Run where
  hero := ""
  health := 10
  maxHealth := 10
  deck := [{ uid := ⟨1⟩, definition := "temper" }, { uid := ⟨2⟩, definition := "quench" }]
  rng := .ofSeed 0

/-- The run after a combat has begun. -/
def temperStarted : Run := temperRules.after temperRun (.start ["dummy"])

/-- The run after a card was played. -/
def temperPlayed (u : CardUid) : Run := temperRules.after temperStarted (.play u none)

theorem temperRun_deck : (temperRun.deck.map (·.uid)).Nodup := by decide

theorem temper_starts :
    temperRules.perform temperRun (.start ["dummy"]) = .ok (none, temperStarted) :=
  Rules.perform_eq_of_answer (by decide +kernel)

theorem temper_played :
    temperRules.perform temperStarted (.play ⟨1⟩ none) = .ok (none, temperPlayed ⟨1⟩) :=
  Rules.perform_eq_of_answer (by decide +kernel)

theorem quench_played :
    temperRules.perform temperStarted (.play ⟨2⟩ none) = .ok (none, temperPlayed ⟨2⟩) :=
  Rules.perform_eq_of_answer (by decide +kernel)

/-- A card as it is dealt. -/
def dealt (u : CardUid) (definition : CardId) : Card := { uid := u, definition }

/-- The card lies once in the piles of the run. -/
def Run.hasOnce (run : Run) (card : Card) : Bool :=
  run.combat.any fun combat =>
    decide (card ∈ combat.piles.cards) && combat.piles.count card.uid == 1

theorem Run.exists_of_hasOnce {run : Run} {card : Card} (h : run.hasOnce card = true) :
    ∃ combat, run.combat = some combat ∧ combat.piles.Has card ∧
      combat.piles.count card.uid = 1 := by
  obtain ⟨combat, hcombat, h⟩ := (Option.any_eq_true _ _).mp h
  rw [Bool.and_eq_true, decide_eq_true_eq, beq_iff_eq] at h
  exact ⟨combat, hcombat, Piles.has_iff.mpr h.1, h.2⟩

namespace Rules

/-- The card that is upgraded before it puts itself on the deck is upgraded there. -/
theorem changes_stick_temper :
    ∃ left, (temperPlayed ⟨1⟩).combat = some left ∧ ∀ found, left.piles.Has found →
      found.uid = ⟨1⟩ → found = { dealt ⟨1⟩ "temper" with upgraded := true } := by
  obtain ⟨combat, hcombat, hhas, hone⟩ :=
    @Run.exists_of_hasOnce temperStarted (dealt ⟨1⟩ "temper") (by decide +kernel)
  have hnews : (temperPlayed ⟨1⟩).eventsSince temperStarted = [.upgrade ⟨1⟩, .putOnDeck ⟨1⟩] := by
    decide +kernel
  have hstick := changes_stick temperRun_deck temper_starts .refl temper_played hcombat hhas hone
    (by decide +kernel)
  rwa [hnews] at hstick

/-- The card that is upgraded after it has put itself on the deck is not upgraded there, though that
is announced. -/
theorem quench_loses_change :
    ¬∀ pack config content run enemies started before uid target after combat left card found,
      Content.ofPack pack = .ok content → (run.deck.map (·.uid)).Nodup →
        Rules.perform { content, config } run (.start enemies) = .ok (none, started) →
          Rules.Reaches { content, config } started before →
            Rules.perform { content, config } before (.play uid target) = .ok (none, after) →
              before.combat = some combat → after.combat = some left →
                combat.piles.Has card → combat.piles.count card.uid = 1 →
                  left.piles.Has found → found.uid = card.uid →
                    found = card.changedBy card.uid (after.eventsSince before) := by
  intro hclaim
  obtain ⟨combat, hcombat, hhas, hone⟩ :=
    @Run.exists_of_hasOnce temperStarted (dealt ⟨2⟩ "quench") (by decide +kernel)
  obtain ⟨left, hleft, hfound, -⟩ :=
    @Run.exists_of_hasOnce (temperPlayed ⟨2⟩) (dealt ⟨2⟩ "quench") (by decide +kernel)
  have hsame := hclaim temperPack {} temperRules.content temperRun ["dummy"] temperStarted
    temperStarted ⟨2⟩ none (temperPlayed ⟨2⟩) combat left _ _ rfl temperRun_deck temper_starts .refl
    quench_played hcombat hleft hhas hone hfound rfl
  have hnews : (temperPlayed ⟨2⟩).eventsSince temperStarted = [.putOnDeck ⟨2⟩, .upgrade ⟨2⟩] := by
    decide +kernel
  rw [hnews] at hsame
  exact absurd hsame (by decide)

end Rules

end CardCombat
