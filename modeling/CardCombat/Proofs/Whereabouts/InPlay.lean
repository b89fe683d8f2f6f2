import CardCombat.Proofs.Whereabouts.Hand

/-!
# Plays nest

While a card is played other cards may come into play, off the deck or, if one of these is played
off the deck again, any number of times the same card. All of them are found by their numbers when
their plays are over. That the right one is found each time is a matter of nesting: whatever goes on
while a card is in play leaves the numbers of the cards in play as they were, so the entry that lies
behind all others when the play is over lies where the card came into play.

Only the numbers stay. Where a card in play is to go, and what is changed about the card, is kept
in its entry and may be another thing afterwards.

## Main definitions

* `Combat.ClosesAt` -- the entry at a place is the one with which the play of a card is over.
* `Resolution.Encloses` -- the play of a card from its beginning to its end.

## Main results

* `Combat.closesAt_of_playing` -- the play that has begun last is over first.
* `Rules.plays_nest` -- effects leave the cards in play as they are, and every play takes out the
  entry that it has put in.
-/

namespace CardCombat

open Resolution

variable {rules : Rules} {s t : Scene} {uid : CardUid} {card : Card}

/-! ## The end of a play -/

/-- The play of a card takes the entry at a place out when it is over. -/
def Combat.ClosesAt (combat : Combat) (place : Nat) (uid : CardUid) : Prop :=
  ∃ played, combat.inPlay[place]? = some played ∧ played.card.uid = uid ∧
    combat.takeInPlay? uid = some (played, { combat with inPlay := combat.inPlay.eraseIdx place })

/-- **The play that has begun last is over first**, even if the same card is in play further in
front. -/
theorem Combat.closesAt_of_playing {combat : Combat} {others : List CardUid}
    (h : combat.playing = others ++ [uid]) : combat.ClosesAt others.length uid := by
  obtain ⟨front, ends, hsplit, hfront, hends⟩ := List.map_eq_append_iff.mp h
  obtain ⟨last, rfl, hid⟩ := List.map_eq_singleton_iff.mp hends
  have hlength : others.length = front.length := by rw [← hfront, List.length_map]
  have hfound : combat.findInPlay? uid = some last := by
    unfold findInPlay?
    rw [hsplit, List.reverse_append, List.reverse_singleton, List.singleton_append,
      List.find?_cons_of_pos (by simp [hid])]
  have herased : (combat.inPlay.reverse.eraseP (·.card.uid == uid)).reverse =
      combat.inPlay.eraseIdx others.length := by
    rw [hsplit, List.reverse_append, List.reverse_singleton, List.singleton_append,
      List.eraseP_cons_of_pos (by simp [hid]), List.reverse_reverse, hlength,
      List.eraseIdx_append_of_length_le (Nat.le_refl _)]
    simp
  refine ⟨last, ?_, hid, ?_⟩
  · rw [hsplit, hlength, List.getElem?_concat_length]
  · unfold takeInPlay?
    rw [hfound, ← herased]
    rfl

namespace Resolution

/-- The play of a card around `acts`: the card comes into play behind all others, `acts` are carried
out, which leaves the same cards in play, and the entry that is taken out is the one at the place
where the card has come in. -/
def Encloses (rules : Rules) (card : Card) (acts : Resolution Unit) (s t : Scene) : Prop :=
  ∃ v w, v.combat.inPlay = s.combat.inPlay ++ [({ card } : ActiveCard)] ∧ acts.run v = .ok ((), w) ∧
    w.combat.playing = v.combat.playing ∧ w.combat.ClosesAt s.combat.inPlay.length card.uid ∧
      (endPlay rules card.uid).run w = .ok ((), t)

/-- A play encloses what leaves the same cards in play. -/
theorem encloses_of_run {acts : Resolution Unit} {v w : Scene}
    (hopen : v.combat.inPlay = s.combat.inPlay ++ [({ card } : ActiveCard)])
    (hacts : acts.run v = .ok ((), w)) (hsame : w.combat.playing = v.combat.playing)
    (hend : (endPlay rules card.uid).run w = .ok ((), t)) : Encloses rules card acts s t := by
  have hplaying : w.combat.playing = s.combat.playing ++ [card.uid] := by
    unfold Combat.playing at hsame ⊢
    rw [hsame, hopen, List.map_append, List.map_singleton]
  have hplace : s.combat.playing.length = s.combat.inPlay.length := List.length_map _
  exact ⟨v, w, hopen, hacts, hsame, hplace ▸ Combat.closesAt_of_playing hplaying, hend⟩

/-! ## Plays off the deck and out of the hand -/

/-- Effects leave the same cards in play with so many levels left. -/
theorem within_keeps (levels : Nat) (effects : List Effect) (ctx : Context) :
    Ensures Keeps (within rules skip levels effects ctx) :=
  within_ensures (fun _ _ => Ensures.pure Keeps.flow ()) (fun _ => keeps_carries) levels effects ctx

/-- **A play off the deck** encloses the effects of the card, with the levels that are left. -/
theorem playOffDeck_encloses {levels : Nat} {definition : CardDefinition} {ctx : Context}
    (h : (playOffDeck rules (within rules skip levels) card definition ctx).run s = .ok ((), t)) :
    ∃ inner, Encloses rules card
      (within rules skip levels (definition.effectsWhen card.upgraded) inner) s t := by
  obtain ⟨rng, inner, w, hin, hend⟩ := run_playOffDeck h
  have hsame := ((within_keeps levels _ inner).rel hin).2
  exact ⟨inner, encloses_of_run rfl hin hsame hend⟩

/-- **A play out of the hand** encloses the effects of the card and the triggers of the play. -/
theorem play_encloses {play : Play} {target : Option CombatantId} {piles : Piles}
    (htake : s.combat.piles.takeFrom? .hand play.card.uid = some (card, piles))
    (h : (Resolution.play rules play target).run s = .ok ((), t)) :
    ∃ x, Encloses rules card (whileInPlay rules play card target) s x ∧
      (do modifyCombat ({ · with lastPlayed := some card })
          charge rules : Resolution Unit).run x = .ok ((), t) := by
  rcases run_play h with ⟨hnone, -⟩ | ⟨taken, piles', v, w, x, hsome, henters, hin, hend, hafter⟩
  · rw [htake] at hnone
    exact absurd hnone nofun
  · rw [htake] at hsome
    obtain ⟨rfl, rfl⟩ := Prod.mk.inj (Option.some.inj hsome)
    have hopen : v.combat.inPlay = s.combat.inPlay ++ [({ card } : ActiveCard)] := by
      cases henters with
      | mk _ hpays => cases hpays with
        | nothing | energy => rfl
    have hsame : Ensures Keeps (whileInPlay rules play card target) :=
      Ensures.bind Keeps.flow (carryOut_keeps _ _) fun _ =>
        Ensures.bind Keeps.flow happen_keeps fun _ =>
          Ensures.forSome Keeps.flow fun _ => happen_keeps
    exact ⟨x, encloses_of_run hopen hin (hsame.rel hin).2 hend, hafter⟩

end Resolution

/-! ## Calls -/

namespace Rules

/-- A call that finds nothing in play leaves nothing in play. -/
theorem inPlay_of_performed {run run' : Run} {call : Call} {answer : Option Rejection}
    (h : rules.perform run call = .ok (answer, run')) (hrun : run.InCombat (·.inPlay = [])) :
    run'.InCombat (·.inPlay = []) := by
  cases answer with
  | some rejection =>
      obtain rfl := run_of_rejected h
      exact hrun
  | none => exact inPlay_of_accepted (fun _ => hrun) h

/-- **Plays nest.** Effects leave the numbers of the cards in play as they were. A call that finds
nothing in play leaves nothing in play. And every play, off the deck at any depth or out of the
hand, takes out the entry that it has put in. -/
theorem plays_nest (rules : Rules) :
    (∀ effects ctx s t, (carryOut rules effects ctx).run s = .ok ((), t) →
      t.combat.playing = s.combat.playing) ∧
    (∀ run call answer run', rules.perform run call = .ok (answer, run') →
      run.InCombat (·.inPlay = []) → run'.InCombat (·.inPlay = [])) ∧
    (∀ levels card definition ctx s t,
      (playOffDeck rules (within rules skip levels) card definition ctx).run s = .ok ((), t) →
        ∃ inner, Encloses rules card
          (within rules skip levels (definition.effectsWhen card.upgraded) inner) s t) ∧
    ∀ (play : Play) target card piles s t,
      s.combat.piles.takeFrom? .hand play.card.uid = some (card, piles) →
        (Resolution.play rules play target).run s = .ok ((), t) →
          ∃ x, Encloses rules card (whileInPlay rules play card target) s x ∧
            (do modifyCombat ({ · with lastPlayed := some card })
                charge rules : Resolution Unit).run x = .ok ((), t) := by
  refine ⟨fun effects ctx s t h => ?_, fun run call answer run' h hrun => ?_,
    fun levels card definition ctx s t h => ?_, fun play target card piles s t htake h => ?_⟩
  · exact ((carryOut_keeps effects ctx).rel h).2
  · exact inPlay_of_performed h hrun
  · exact playOffDeck_encloses h
  · exact play_encloses htake h

end Rules

/-! ## An encore -/

/-- A card that plays the top card of the draw pile, and one that does nothing of the kind. -/
def encorePack : Pack where
  cards :=
    [{ id := "encore", name := "Encore", theme := .skill, cost := .fixed 0
       keywords := { innate := true }, effects := [.playTopCard (.fixed 1)] },
     { id := "ward", name := "Ward", theme := .skill, cost := .fixed 1
       effects := [.block (.fixed 5) .self] }]
  enemies := [{ id := "dummy", name := "Dummy", maxHealth := 8, moves := [] }]

/-- One card is drawn in a turn, besides the innate ones. -/
def encoreRules : Rules where
  content := (Content.ofPack encorePack).toOption.getD {}
  config := { drawPerTurn := 1 }

/-- A run with these two cards. -/
def encoreRun : Run where
  hero := ""
  health := 10
  maxHealth := 10
  deck := [{ uid := ⟨1⟩, definition := "encore" }, { uid := ⟨2⟩, definition := "ward" }]
  rng := .ofSeed 0

/-- The card and its play. -/
def encore : Play where
  card := { uid := ⟨1⟩, definition := "encore" }
  definition := (encoreRules.content.cards.find? "encore").getD
    { id := "", name := "", theme := .skill, cost := .fixed 0 }
  cost := 0

/-- A scene in which the card is in play, in the hand and on the deck. -/
def encoreScene : Scene where
  combat :=
    { player := .ofPlayer "" 10 10, resources := {}, nextCardUid := 3
      piles := { hand := [encore.card]
                 drawPile := [encore.card, { uid := ⟨2⟩, definition := "ward" }] }
      inPlay := [{ card := encore.card }] }
  gold := 0
  stats := {}
  relics := []
  rng := .ofSeed 0

/-- The run after a combat has begun. -/
def encoreStarted : Run := encoreRules.after encoreRun (.start ["dummy"])

/-- The run after the card was played. -/
def encorePlayed : Run := encoreRules.after encoreStarted (.play ⟨1⟩ none)

theorem encore_starts :
    encoreRules.perform encoreRun (.start ["dummy"]) = .ok (none, encoreStarted) :=
  Rules.perform_eq_of_answer (by decide +kernel)

theorem encore_played :
    encoreRules.perform encoreStarted (.play ⟨1⟩ none) = .ok (none, encorePlayed) :=
  Rules.perform_eq_of_answer (by decide +kernel)

/-- A resolution that succeeds has a scene to which it leads. -/
theorem Resolution.exists_run {m : Resolution Unit} (h : (m.run s).toOption.isSome = true) :
    ∃ t, m.run s = .ok ((), t) := by
  cases hrun : m.run s with
  | error cause =>
      rw [hrun] at h
      exact absurd h nofun
  | ok result => exact ⟨result.2, rfl⟩

/-- However often the card is in play, each play takes its own entry out. -/
theorem Rules.plays_nest_of_encore :
    (∃ t, (carryOut encoreRules [.playTopCard (.fixed 1)] {}).run encoreScene = .ok ((), t) ∧
      t.combat.playing = [⟨1⟩]) ∧
    (encoreStarted.InCombat (·.inPlay = []) ∧ encorePlayed.InCombat (·.inPlay = [])) ∧
    (∃ inner t, Encloses encoreRules encore.card
      (within encoreRules skip 9 (encore.definition.effectsWhen false) inner) encoreScene t) ∧
    ∃ x, Encloses encoreRules encore.card (whileInPlay encoreRules encore encore.card none)
      encoreScene x := by
  obtain ⟨hsame, hcalls, hdeck, hhand⟩ := Rules.plays_nest encoreRules
  refine ⟨?_, ?_, ?_, ?_⟩
  · obtain ⟨t, hrun⟩ := Resolution.exists_run (s := encoreScene)
      (m := carryOut encoreRules [.playTopCard (.fixed 1)] {}) (by decide +kernel)
    exact ⟨t, hrun, hsame _ _ _ _ hrun⟩
  · have hstarted : encoreStarted.InCombat (·.inPlay = []) :=
      hcalls _ _ _ _ encore_starts fun combat hcombat => absurd hcombat nofun
    exact ⟨hstarted, hcalls _ _ _ _ encore_played hstarted⟩
  · obtain ⟨t, hrun⟩ := Resolution.exists_run (s := encoreScene)
      (m := playOffDeck encoreRules (within encoreRules skip 9) encore.card encore.definition {})
      (by decide +kernel)
    obtain ⟨inner, hencloses⟩ := hdeck _ _ _ _ _ _ hrun
    exact ⟨inner, t, hencloses⟩
  · obtain ⟨t, hrun⟩ := Resolution.exists_run (s := encoreScene)
      (m := Resolution.play encoreRules encore none) (by decide +kernel)
    obtain ⟨x, hencloses, -⟩ := hhand encore none encore.card _ _ _ rfl hrun
    exact ⟨x, hencloses⟩

end CardCombat
