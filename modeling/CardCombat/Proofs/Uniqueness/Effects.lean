import CardCombat.Proofs.Resolution.Blows
import CardCombat.Proofs.Resolution.Plays
import CardCombat.Proofs.Uniqueness.Ledger

/-!
# Effects keep the ledger

A play that is opened takes its card out of a pile, and when it is closed the card comes into a pile
again if the play still leads there. In between the plays that are opened inside are closed inside,
so the play that is closed is the one that was opened.

## Main results

* `enter_ledger`, `Closes.ledger` -- a play is opened and closed.
* `Resolution.carryOut_keeps`, `Resolution.happen_keeps` -- effects and triggers keep the ledger.
-/

namespace CardCombat

variable {rules : Rules} {s t v w : Scene} {uid u : CardUid} {card : Card}

/-! ## Opening -/

/-- A card comes into play out of a pile. -/
theorem enter_ledger {piles : Piles} (hpiles : t.combat.piles = piles)
    (hplay : t.combat.inPlay = s.combat.inPlay ++ [({ card } : ActiveCard)])
    (hnext : t.combat.nextCardUid = s.combat.nextCardUid)
    (hpending : t.combat.pending = s.combat.pending) (hchronicle : t.chronicle = s.chronicle)
    (h : ∀ u, s.combat.piles.count u = piles.count u + if card.uid = u then 1 else 0) :
    Ledger s t [] ∧ t.combat.playing = s.combat.playing ++ [card.uid] := by
  have hplaying : t.combat.playing = s.combat.playing ++ [card.uid] := by
    rw [Combat.playing, hplay, List.map_append]
    rfl
  refine ⟨.of_copies (Nat.le_of_eq hnext.symm) (by rw [hchronicle, List.append_nil])
    (fun u hu => ?_) (fun u => ?_) hpending, hplaying⟩
  · rcases hu with hu | hu
    · refine .inl ?_
      rw [hpiles] at hu
      rw [h]
      omega
    · rw [hplaying] at hu
      rcases List.mem_append.mp hu with hu | hu
      · exact .inr hu
      · refine .inl ?_
        rw [h, List.mem_singleton.mp hu, if_pos rfl]
        omega
  · have hpush := @Combat.copies_pushInPlay s.combat u card
    unfold Combat.copies Combat.pushInPlay at hpush
    unfold Combat.copies
    rw [hplay, hpiles, h]
    dsimp only at hpush
    rw [List.countP_nil, List.countP_nil]
    omega

theorem Opens.ledger (h : Opens card s t) :
    Ledger s t [] ∧ t.combat.playing = s.combat.playing ++ [card.uid] := by
  cases h with
  | mk h => exact enter_ledger rfl rfl rfl rfl rfl fun u => Piles.count_of_popDraw? h

/-! ## Closing -/

/-- A play leads into a pile if its card goes to the discard pile or is exhausted. -/
theorem leadsToPile_iff (played : ActiveCard) : Route.leadsToPile played.route = true ↔
    Resolution.routeOf rules played = .discard ∨ Resolution.routeOf rules played = .exhaust := by
  unfold Resolution.routeOf
  rcases played.route with _ | route
  · rw [Option.getD_none]
    split <;> simp [Route.leadsToPile]
  · cases route <;> simp [Route.leadsToPile]

theorem returns_eq {played : ActiveCard} {route : Route}
    (hroute : Resolution.routeOf rules played = route) (hid : played.card.uid = uid) :
    (played.returns u).toNat =
      if (route = .discard ∨ route = .exhaust) ∧ uid = u then 1 else 0 := by
  have hlead := @leadsToPile_iff rules played
  rw [hroute] at hlead
  unfold ActiveCard.returns
  rw [hid]
  by_cases hu : uid = u
  · by_cases hr : route = .discard ∨ route = .exhaust
    · simp [hu, hlead.mpr hr, hr]
    · simp [hu, hr, Bool.eq_false_iff.mpr fun h => hr (hlead.mp h)]
  · simp [hu]

/-- A card that is put away comes into a pile if it goes to the discard pile or is exhausted. -/
theorem count_putAway (route : Route) : (s.putAway card route).combat.piles.count u =
    s.combat.piles.count u +
      if (route = .discard ∨ route = .exhaust) ∧ card.uid = u then 1 else 0 := by
  cases route with
  | discard =>
      simp only [true_or, true_and]
      exact @Piles.count_add s.combat.piles .discardPile card u
  | exhaust =>
      simp only [or_true, true_and]
      exact @Piles.count_add s.combat.piles .exhaustPile card u
  | banished | elsewhere => simp [Scene.putAway]

theorem putAway_aside (route : Route) :
    (s.putAway card route).combat.inPlay = s.combat.inPlay ∧
      (s.putAway card route).combat.nextCardUid = s.combat.nextCardUid ∧
        (s.putAway card route).combat.pending = s.combat.pending := by
  cases route <;> exact ⟨rfl, rfl, rfl⟩

/-- Where a played card was put is written down, and nothing else. -/
theorem chronicle_putAway (route : Route) : ∃ deeds, Ledger.Idle deeds ∧
    (s.putAway card route).chronicle.toList = s.chronicle.toList ++ deeds := by
  cases route with
  | discard => exact ⟨_, Ledger.idle_landed card.uid .discardPile, Array.toList_push⟩
  | exhaust => exact ⟨_, Ledger.idle_landed card.uid .exhaustPile, Array.toList_push⟩
  | banished | elsewhere => exact ⟨_, Ledger.idle_nil, (List.append_nil _).symm⟩

/-- Whatever play is over, its card comes into a pile if the play leads there. -/
theorem Closes.ledger_kept (h : Closes rules uid s t) : ∃ deeds, Ledger s t deeds := by
  cases h with
  | nothing => exact ⟨[], .refl s⟩
  | @mk played combat htake =>
      obtain ⟨hpiles, hnext, hpending⟩ := Combat.takeInPlay?_aside htake
      generalize hroute : Resolution.routeOf rules played = route
      obtain ⟨hplay', hnext', hpending'⟩ := @putAway_aside { s with combat } played.card route
      obtain ⟨deeds, hidle, hchronicle'⟩ := @chronicle_putAway { s with combat } played.card route
      have hput (u : CardUid) := @count_putAway { s with combat } u played.card route
      have hid : played.card.uid = uid := (@Combat.copies_takeInPlay? _ _ _ uid _ htake).1
      have hmem : uid ∈ s.combat.playing := by
        obtain ⟨found, hf, -⟩ := Option.bind_eq_some_iff.mp htake
        exact mem_playing_of_findInPlay? hf
      refine ⟨deeds, .of_copies ?_ hchronicle' (fun u hu => ?_) (fun u => ?_) ?_⟩
      · exact Nat.le_of_eq (hnext'.trans hnext).symm
      · rcases hu with hu | hu
        · rw [hput, hid, hpiles] at hu
          by_cases huid : uid = u
          · exact .inr (huid ▸ hmem)
          · rw [if_neg fun h => huid h.2] at hu
            exact .inl hu
        · unfold Combat.playing at hu
          rw [hplay'] at hu
          exact .inr (Combat.mem_playing_of_takeInPlay? htake hu)
      · have hcopies := (@Combat.copies_takeInPlay? _ _ _ u _ htake).2
        rw [hcopies]
        unfold Combat.copies
        rw [hplay', hput, hid]
        rw [returns_eq hroute hid, (hidle.countP_eq u).1, (hidle.countP_eq u).2]
        dsimp only
        omega
      · rw [hpending', hpending]

/-- The play that is over is the one that has begun last. -/
theorem Closes.playing {others : List CardUid} (h : Closes rules uid s t)
    (hplaying : s.combat.playing = others ++ [uid]) : t.combat.playing = others := by
  cases h with
  | nothing hnone =>
      have hmem : uid ∈ s.combat.playing := by
        rw [hplaying]
        exact List.mem_append_right _ (List.mem_singleton_self uid)
      have := Combat.takeInPlay?_isSome hmem
      rw [hnone] at this
      exact absurd this (by decide)
  | @mk played combat htake =>
      obtain ⟨hplay, -⟩ :=
        @putAway_aside { s with combat } played.card (Resolution.routeOf rules played)
      rw [Combat.playing, hplay]
      exact Combat.playing_takeInPlay? hplaying htake

/-- **The play of a card is closed.** -/
theorem Closes.ledger {others : List CardUid} (h : Closes rules uid s t)
    (hplaying : s.combat.playing = others ++ [uid]) :
    (∃ deeds, Ledger s t deeds) ∧ t.combat.playing = others := ⟨h.ledger_kept, h.playing hplaying⟩

/-- **A play that is opened and closed keeps the ledger**, if everything in between does. -/
theorem Keeps.of_play (hopen : Ledger s v [] ∧ v.combat.playing = s.combat.playing ++ [uid])
    (hin : Keeps v w) (hclose : Closes rules uid w t) : Keeps s t := by
  obtain ⟨hopened, hplaying⟩ := hopen
  obtain ⟨⟨deeds, hledger⟩, hsame⟩ := hin
  obtain ⟨⟨written, hclosed⟩, hothers⟩ := hclose.ledger (hsame.trans hplaying)
  exact ⟨⟨_, hopened.trans (hledger.trans hclosed)⟩, hothers⟩

/-! ## Effects -/

namespace Resolution

variable {nested : List Effect → Context → Resolution Unit}

/-- Effects of every kind carry that the ledger is kept. -/
theorem keeps_carries (hnested : ∀ effects ctx, Ensures Keeps (nested effects ctx)) :
    Carries rules Effect.Any nested Keeps := by
  have hbears : Bears rules Effect.Any nested Keeps := ⟨Keeps.flow, Step.keeps, Blow.keeps, hnested⟩
  refine hbears.carries fun ctx => ⟨fun {s played t} h => ?_⟩
  rcases playTop_of_run hnested h with hcourse | ⟨card, u, v, w, hcourse, hopen, hin, hclose⟩
  · exact hbears.course hcourse
  · exact Keeps.flow.trans (hbears.course hcourse) (.of_play hopen.ledger hin hclose)

/-- **Effects at any depth keep the ledger.** -/
theorem carryOut_keeps (effects : List Effect) (ctx : Context) :
    Ensures Keeps (carryOut rules effects ctx) :=
  within_ensures (fun _ _ => Ensures.pure Keeps.flow ()) (fun _ => keeps_carries) _ effects ctx

theorem happen_keeps {owner : CombatantId} {occasion : Occasion} {cause : Option CombatantId}
    {ctx : Context} : Ensures Keeps (happen rules owner occasion cause ctx) := by
  have hbears : Bears rules Effect.Any (carryOut rules) Keeps :=
    ⟨Keeps.flow, Step.keeps, Blow.keeps, carryOut_keeps⟩
  exact hbears.react

end Resolution

end CardCombat
