import CardCombat.Proofs.Action.Calls
import CardCombat.Proofs.Overflow.Ranges

/-!
# The cards that can be played

Whoever shows a run asks which cards can be played now, and a call that plays a card asks once more.
The two questions are asked by different functions: one looks at every card of the hand and tells
whether it can be played, the other looks for one card and tells what is wrong with it. They agree
where the hand holds no number twice, since then the card that is found under a number is the only
one that can be listed under it.

The cost of a card is an addition, which may overflow. The list needs the costs of all cards of the
hand, so it is there exactly if all of them are in range.

## Main definitions

* `Rules.PricesInRange` -- the costs of the cards in the hand can be computed.

## Main results

* `Rules.isPlayable_iff_checkPlay` -- both questions have the same answer for a card of the hand.
* `Rules.playableCards_complete` -- a card is listed exactly if its play is not rejected.
-/

namespace CardCombat

variable {rules : Rules} {run run' : Run} {combat : Combat} {card : Card} {uid : CardUid}
  {uids : List CardUid} {target : Option CombatantId}

/-- Among cards with different numbers each is found under its own. -/
theorem find?_uid_eq_some {cards : List Card} (hdistinct : (cards.map (·.uid)).Nodup)
    (hmem : card ∈ cards) : cards.find? (·.uid == card.uid) = some card :=
  (find?_key_eq_some_iff hdistinct).mpr ⟨hmem, rfl⟩

namespace Rules

/-- The costs of the cards in the hand are in range, as far as these cards can be played at all. -/
def PricesInRange (rules : Rules) (combat : Combat) : Prop :=
  ∀ card ∈ combat.piles.hand, ∀ definition,
    rules.content.cards.find? card.definition = some definition →
      card.cannotBePlayed definition = false → card.CostInRange definition

/-- A call is rejected. -/
def Rejects (rules : Rules) (run : Run) (call : Call) : Prop :=
  ∃ rejection run', rules.perform run call = .ok (some rejection, run')

/-! ## The list -/

/-- What is listed is in the hand and can be played. -/
theorem mem_playableCards_iff (hready : run.readyCombat = .ok combat)
    (h : rules.playableCards run = .ok uids) :
    uid ∈ uids ↔
      ∃ card ∈ combat.piles.hand, rules.isPlayable combat card = .ok true ∧ card.uid = uid := by
  unfold playableCards at h
  rw [hready] at h
  obtain ⟨kept, hkept, h⟩ := bind_eq_ok.mp h
  obtain rfl := Except.ok.inj h
  simp only [List.mem_map, mem_filterM_iff hkept, and_assoc]

/-- Nothing can be played while the combat is not ready for it. -/
theorem playableCards_of_unready {reason : ActionError}
    (hunready : run.readyCombat = .error reason) :
    rules.playableCards run = .ok [] := by
  unfold playableCards
  rw [hunready]
  rfl

/-! ## The play -/

/-- **Both questions have the same answer** for a card that is found under its number. -/
theorem isPlayable_iff_checkPlay
    (hfind : combat.piles.hand.find? (·.uid == uid) = some card) :
    rules.isPlayable combat card = .ok true ↔ ∃ play, rules.checkPlay combat uid = .ok play := by
  unfold isPlayable checkPlay
  rw [hfind]
  dsimp only
  cases rules.content.cards.find? card.definition with
  | none => exact iff_of_false nofun (fun ⟨_, h⟩ => absurd h nofun)
  | some definition =>
      dsimp only
      by_cases hcannot : card.cannotBePlayed definition = true
      · rw [if_pos hcannot, if_pos hcannot]
        exact iff_of_false nofun (fun ⟨_, h⟩ => absurd h nofun)
      · rw [if_neg hcannot, if_neg hcannot]
        cases card.costToPlay definition combat.resources.energy with
        | error cause => exact iff_of_false nofun (fun ⟨_, h⟩ => absurd h nofun)
        | ok cost =>
            show Except.ok (decide (cost ≤ combat.resources.energy)) = _ ↔ ∃ play,
              (if combat.resources.energy < cost then
                  throw (.rejected (.insufficientEnergy cost combat.resources.energy))
                else return { card, definition, cost } : Except (Failure ActionError) Play) =
                .ok play
            by_cases hcost : combat.resources.energy < cost
            · have hnot : ¬cost ≤ combat.resources.energy := by omega
              rw [if_pos hcost, decide_eq_false hnot]
              exact iff_of_false nofun (fun ⟨_, h⟩ => absurd h nofun)
            · have hle : cost ≤ combat.resources.energy := by omega
              rw [if_neg hcost, decide_eq_true hle]
              exact iff_of_true rfl ⟨_, rfl⟩

/-- Where the costs are in range the check of a play tells whether it is possible or what is wrong
with it. -/
theorem checkPlay_answers_of_prices (hprices : rules.PricesInRange combat) (uid : CardUid) :
    (∃ play, rules.checkPlay combat uid = .ok play) ∨
      ∃ reason, rules.checkPlay combat uid = .error (.rejected reason) := by
  unfold checkPlay
  cases hfind : combat.piles.hand.find? (·.uid == uid) with
  | none => exact .inr ⟨_, rfl⟩
  | some card =>
      dsimp only
      cases hknown : rules.content.cards.find? card.definition with
      | none => exact .inr ⟨_, rfl⟩
      | some definition =>
          dsimp only
          by_cases hcannot : card.cannotBePlayed definition = true
          · rw [if_pos hcannot]
            exact .inr ⟨_, rfl⟩
          · rw [if_neg hcannot]
            have hrange : card.CostInRange definition :=
              hprices card (List.mem_of_find?_eq_some hfind) definition hknown
                (by simpa using hcannot)
            obtain ⟨cost, hcost⟩ := Card.costToPlay_succeeds_iff.mpr hrange
            rw [hcost]
            by_cases henergy : combat.resources.energy < cost
            · exact .inr ⟨_, if_pos henergy⟩
            · exact .inl ⟨_, if_neg henergy⟩

/-- Without a combat that is ready every play is rejected. -/
theorem rejects_play_of_unready {reason : ActionError} (hunready : run.readyCombat = .error reason)
    (uid : CardUid) (target : Option CombatantId) : rules.Rejects run (.play uid target) := by
  refine ⟨.action reason, run, ?_⟩
  have hplay : rules.playCard run uid target = .error (.rejected reason) := by
    unfold playCard
    rw [hunready]
    rfl
  show Failure.reply .action run (rules.playCard run uid target) = _
  rw [hplay]
  rfl

/-- **A play is rejected exactly if its check rejects it.** -/
theorem rejects_play_iff (hready : run.readyCombat = .ok combat) :
    rules.Rejects run (.play uid target) ↔
      ∃ reason, rules.checkPlay combat uid = .error (.rejected reason) := by
  have hplay : rules.playCard run uid target = rules.checkPlay combat uid >>= fun play =>
      (run.advance (Resolution.play rules play target) : Except (Failure ActionError) Run) := by
    unfold playCard
    rw [hready]
    rfl
  constructor
  · rintro ⟨rejection, run', h⟩
    obtain ⟨reason, hrejected, -⟩ := rejected_of_reply h
    rw [hplay] at hrejected
    rcases bind_eq_error.mp hrejected with hcheck | ⟨play, -, hadvance⟩
    · exact ⟨reason, hcheck⟩
    · obtain ⟨cause, -, hcause⟩ := mapError_eq_error.mp hadvance
      exact absurd hcause nofun
  · rintro ⟨reason, hcheck⟩
    refine ⟨.action reason, run, ?_⟩
    show Failure.reply .action run (rules.playCard run uid target) = _
    rw [hplay, hcheck]
    rfl

/-- **The list of playable cards agrees with playing.** In a run whose hand holds no number twice
and whose costs are in range the list is there, and a card is in it exactly if the call that plays
it is not rejected, whatever it is aimed at. -/
theorem playableCards_complete (rules : Rules) (run : Run)
    (hdistinct : run.InCombat fun combat => (combat.piles.hand.map (·.uid)).Nodup)
    (hprices : ∀ combat, run.readyCombat = .ok combat → rules.PricesInRange combat) :
    ∃ uids, rules.playableCards run = .ok uids ∧
      ∀ uid target, uid ∈ uids ↔ ¬rules.Rejects run (.play uid target) := by
  cases hready : run.readyCombat with
  | error reason =>
      refine ⟨[], playableCards_of_unready hready, fun uid target => ?_⟩
      exact iff_of_false List.not_mem_nil
        (not_not_intro (rejects_play_of_unready hready uid target))
  | ok combat =>
      have hcombat : run.combat = some combat := (Run.readyCombat_eq_ok_iff.mp hready).1
      obtain ⟨uids, huids⟩ := playableCards_succeeds_iff.mpr hprices
      refine ⟨uids, huids, fun uid target => ?_⟩
      rw [mem_playableCards_iff hready huids, rejects_play_iff hready]
      constructor
      · rintro ⟨card, hmem, hplayable, rfl⟩ ⟨reason, hrejected⟩
        have hfind := find?_uid_eq_some (hdistinct combat hcombat) hmem
        obtain ⟨play, hcheck⟩ := (isPlayable_iff_checkPlay hfind).mp hplayable
        exact absurd (hcheck.symm.trans hrejected) nofun
      · intro hnot
        obtain ⟨play, hcheck⟩ :=
          (checkPlay_answers_of_prices (hprices combat hready) uid).resolve_right hnot
        have hfind := (Undertakes.checkPlay_spec hcheck).1
        have huid : play.card.uid = uid := by simpa using List.find?_some hfind
        exact ⟨play.card, List.mem_of_find?_eq_some hfind,
          (isPlayable_iff_checkPlay hfind).mpr ⟨play, hcheck⟩, huid⟩

end Rules

/-! ## A hand of all kinds -/

/-- A card for a little energy, one for more than there is, one that takes all of it, and one that
cannot be played. -/
def assortedPack : Pack where
  cards :=
    [{ id := "spark", name := "Spark", theme := .attack, cost := .fixed 1, effects := [] },
     { id := "comet", name := "Comet", theme := .attack, cost := .fixed 9, effects := [] },
     { id := "surge", name := "Surge", theme := .skill, cost := .x, effects := [] },
     { id := "burden", name := "Burden", theme := .curse, cost := .fixed 0
       keywords := { unplayable := true }, effects := [] }]
  enemies := [{ id := "dummy", name := "Dummy", maxHealth := 8, moves := [] }]

def assortedRules : Rules where
  content := (Content.ofPack assortedPack).toOption.getD {}

/-- A run with those cards, and with one that the content does not know. -/
def assortedRun : Run where
  hero := ""
  health := 10
  maxHealth := 10
  deck :=
    [{ uid := ⟨1⟩, definition := "spark" }, { uid := ⟨2⟩, definition := "comet" },
     { uid := ⟨3⟩, definition := "surge" }, { uid := ⟨4⟩, definition := "burden" },
     { uid := ⟨5⟩, definition := "relic of old" }]
  rng := .ofSeed 0

/-- The run when all of them are in the hand. -/
def assortedStarted : Run := assortedRules.after assortedRun (.start ["dummy"])

namespace Rules

/-- Two of the five cards are listed, and these are the two whose play is not rejected. -/
theorem playableCards_complete_assorted :
    assortedRules.playableCards assortedStarted = .ok [⟨1⟩, ⟨3⟩] ∧
      ∀ uid target, uid ∈ [⟨1⟩, ⟨3⟩] ↔
        ¬assortedRules.Rejects assortedStarted (.play uid target) := by
  have hlist : assortedRules.playableCards assortedStarted = .ok [⟨1⟩, ⟨3⟩] := by decide +kernel
  have hdistinct : assortedStarted.InCombat fun combat =>
    (combat.piles.hand.map (·.uid)).Nodup := by
    have hall : assortedStarted.combat.all fun combat =>
        decide (combat.piles.hand.map (·.uid)).Nodup := by decide +kernel
    intro combat hcombat
    rw [hcombat] at hall
    exact of_decide_eq_true hall
  obtain ⟨uids, huids, hagrees⟩ := playableCards_complete assortedRules assortedStarted hdistinct
    (playableCards_succeeds_iff.mp ⟨_, hlist⟩)
  obtain rfl := Except.ok.inj (huids.symm.trans hlist)
  exact ⟨hlist, hagrees⟩

end Rules

end CardCombat
