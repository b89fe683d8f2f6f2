import CardCombat.Proofs.Banishment.Permanence
import CardCombat.Proofs.Whereabouts.Losses

/-!
# How often it is reported that a card is exhausted

A card that comes into the exhaust pile is reported: as exhausted, or, if it is brought or made
there, as a card that was added. There is one report for each of these. But a card in play that is
told to go to the exhaust pile is reported when it is told and once more when it gets there, and if
it is told to go elsewhere after that it never gets there at all.

## Main definitions

* `Deed.exhausts`, `Deed.dooms`, `Event.addsExhausted` -- what has to do with the exhaust pile.
* `Exhausting` -- what was written down and reported of it between two scenes.

## Main results

* `Exhausts.governs` -- effects, turns and plays report what comes into the exhaust pile.
* `Rules.exhausting_of_accepted` -- so do calls.
* `Rules.exhaust_reported_iff` -- when there is one report for each time a card was exhausted.
-/

namespace CardCombat

open Resolution

variable {rules : Rules} {s t v : Scene} {deeds deeds' : List Deed} {news news' : List Event}
  {u uid : CardUid} {card : Card}

namespace Deed

/-- The card was put into the exhaust pile. -/
def exhausts (u : CardUid) : Deed → Bool
  | .landed card .exhaustPile => card == u
  | _ => false

/-- The card is in play and goes to the exhaust pile, unless it is told something else. -/
def dooms (u : CardUid) : Deed → Bool
  | .routed card _ .exhaust => card == u
  | _ => false

end Deed

namespace Event

/-- The card was brought into the exhaust pile, or made there. -/
def addsExhausted (u : CardUid) : Event → Bool
  | .addCard card _ .exhaustPile => card == u
  | _ => false

/-- The event has nothing to do with the exhaust pile. -/
def IsClear (event : Event) : Prop := ∀ u, event ≠ .exhaust u ∧ ¬event.addsExhausted u

/-- Some card was exhausted, or came into the exhaust pile. -/
def fillsExhaust : Event → Bool
  | .exhaust _ | .addCard _ _ .exhaustPile => true
  | _ => false

theorem isClear_of_not_fills {event : Event} (h : event.fillsExhaust = false) : event.IsClear := by
  refine fun u => ⟨?_, fun hadds => ?_⟩
  · rintro rfl
    exact Bool.false_ne_true h.symm
  · unfold addsExhausted at hadds
    split at hadds
    · exact Bool.false_ne_true h.symm
    · exact Bool.false_ne_true hadds

theorem IsOfCombatant.isClear {event : Event} (h : event.IsOfCombatant) : event.IsClear := by
  cases event <;> first | exact h.elim | exact isClear_of_not_fills rfl

theorem IsSign.isClear {event : Event} (h : event.IsSign) : event.IsClear := by
  cases event <;> first | exact h.elim | exact isClear_of_not_fills rfl

theorem IsNotice.isClear {event : Event} (h : event.IsNotice) : event.IsClear := by
  cases event <;> first | exact h.elim | exact isClear_of_not_fills rfl

end Event

/-- What was written down and reported between two scenes, as far as it has to do with the exhaust
pile. -/
structure Exhausting (s t : Scene) (deeds : List Deed) (news : List Event) : Prop where
  chronicle : t.chronicle.toList = s.chronicle.toList ++ deeds
  events : t.combat.events.toList = s.combat.events.toList ++ news
  /-- There is a report for each time that a card came there and for each time that it was told to
  go there. -/
  reported : ∀ u, news.count (.exhaust u) + news.countP (·.addsExhausted u) =
    deeds.countP (·.exhausts u) + deeds.countP (·.dooms u)
  /-- No card has come there unless that was written down. -/
  lying : ∀ u, Piles.countIn u t.combat.piles.exhaustPile ≤
    Piles.countIn u s.combat.piles.exhaustPile + deeds.countP (·.exhausts u)

/-- What comes into the exhaust pile is reported. -/
def Exhausts (s t : Scene) : Prop := ∃ deeds news, Exhausting s t deeds news

namespace Exhausts

theorem flow : Flow Exhausts where
  refl _ := ⟨[], [], (List.append_nil _).symm, (List.append_nil _).symm, fun _ => rfl,
    fun _ => Nat.le_refl _⟩
  trans h h' := by
    obtain ⟨deeds, news, h⟩ := h
    obtain ⟨deeds', news', h'⟩ := h'
    refine ⟨deeds ++ deeds', news ++ news', ?_, ?_, fun u => ?_, fun u => ?_⟩
    · rw [h'.chronicle, h.chronicle, List.append_assoc]
    · rw [h'.events, h.events, List.append_assoc]
    · have := h.reported u
      have := h'.reported u
      simp only [List.count_append, List.countP_append]
      omega
    · have := h.lying u
      have := h'.lying u
      rw [List.countP_append]
      omega

/-! ## What has nothing to do with the exhaust pile -/

/-- Nothing was written down or reported, and no card has come into the exhaust pile. -/
theorem of_silence (hchronicle : t.chronicle = s.chronicle)
    (hevents : t.combat.events = s.combat.events)
    (hpile : ∀ u, Piles.countIn u t.combat.piles.exhaustPile ≤
      Piles.countIn u s.combat.piles.exhaustPile) : Exhausts s t :=
  ⟨[], [], by rw [hchronicle, List.append_nil], by rw [hevents, List.append_nil], fun _ => rfl,
    hpile⟩

/-- Neither cards nor what was written down nor what was reported has changed. -/
theorem of_aside (hchronicle : t.chronicle = s.chronicle)
    (hevents : t.combat.events = s.combat.events)
    (hpile : t.combat.piles.exhaustPile = s.combat.piles.exhaustPile) : Exhausts s t :=
  of_silence hchronicle hevents fun _ => by rw [hpile]

theorem of_tell (s : Scene) {events : List Event} (h : ∀ event ∈ events, event.IsClear) :
    Exhausts s (s.tell events) := by
  rw [Scene.tell_eq]
  refine ⟨[], events, (List.append_nil _).symm, by simp, fun u => ?_, fun _ => Nat.le_refl _⟩
  have hexhaust : events.count (.exhaust u) = 0 :=
    List.count_eq_zero.mpr fun hmem => (h _ hmem u).1 rfl
  have hadd : events.countP (·.addsExhausted u) = 0 :=
    List.countP_eq_zero.mpr fun event hmem => (h event hmem u).2
  rw [hexhaust, hadd]
  rfl

theorem tell (h : Exhausts s t) {events : List Event} (he : ∀ event ∈ events, event.IsClear) :
    Exhausts s (t.tell events) :=
  flow.trans h (of_tell t he)

theorem report (h : Exhausts s t) {event : Event} (he : event.IsClear) :
    Exhausts s (t.report event) :=
  h.tell fun _ hmem => List.mem_singleton.mp hmem ▸ he

/-- Deeds by which no card comes into the exhaust pile. -/
theorem of_deeds (hchronicle : t.chronicle.toList = s.chronicle.toList ++ deeds)
    (hevents : t.combat.events = s.combat.events)
    (hpile : t.combat.piles.exhaustPile = s.combat.piles.exhaustPile)
    (h : ∀ u, ∀ deed ∈ deeds, ¬deed.exhausts u ∧ ¬deed.dooms u) : Exhausts s t := by
  refine ⟨deeds, [], hchronicle, by rw [hevents, List.append_nil], fun u => ?_, fun u => ?_⟩
  · have hexhaust : deeds.countP (·.exhausts u) = 0 :=
      List.countP_eq_zero.mpr fun deed hmem => (h u deed hmem).1
    have hdoom : deeds.countP (·.dooms u) = 0 :=
      List.countP_eq_zero.mpr fun deed hmem => (h u deed hmem).2
    rw [hexhaust, hdoom]
    rfl
  · rw [hpile]
    exact Nat.le_add_right _ _

theorem record (h : Exhausts s t) {deed : Deed} (hd : ∀ u, ¬deed.exhausts u ∧ ¬deed.dooms u) :
    Exhausts s (t.record deed) := by
  refine flow.trans h (@of_deeds t (t.record deed) [deed] (by simp [Scene.record]) rfl rfl ?_)
  intro u other hmem
  exact List.mem_singleton.mp hmem ▸ hd u

theorem of_setCombatant (id : CombatantId) (combatant : Combatant) :
    Exhausts s (s.setCombatant id combatant) := by
  have hput : Exhausts s (s.putCombatant id combatant) := by
    unfold Scene.putCombatant Combat.setCombatant
    split
    · exact of_aside rfl rfl rfl
    · exact of_aside rfl rfl rfl
  unfold Scene.setCombatant
  split
  · exact hput.record fun _ => ⟨Bool.false_ne_true, Bool.false_ne_true⟩
  · exact hput

theorem of_bury : Exhausts s s.bury := by
  have hpile : s.bury.combat.piles.exhaustPile = s.combat.piles.exhaustPile := rfl
  refine @of_deeds s s.bury (s.combat.reap.1.map .buried) (by simp [Scene.bury]) rfl hpile
    fun u deed hmem => ?_
  obtain ⟨id, -, rfl⟩ := List.mem_map.mp hmem
  exact ⟨Bool.false_ne_true, Bool.false_ne_true⟩

theorem of_damages {source target : CombatantId} {outcome : DamageReport}
    (h : Damages source target outcome s t) : Exhausts s t := by
  cases h with
  | mk =>
      refine flow.trans ((of_setCombatant _ _).report ?_) (of_aside rfl rfl rfl)
      exact Event.isClear_of_not_fills rfl

/-! ## What comes into the exhaust pile -/

/-- One deed is written down together with one report. -/
theorem of_told {deed : Deed} {event : Event}
    (hchronicle : t.chronicle.toList = s.chronicle.toList ++ [deed])
    (hevents : t.combat.events = s.combat.events)
    (h : ∀ u, [event].count (.exhaust u) + [event].countP (·.addsExhausted u) =
      [deed].countP (·.exhausts u) + [deed].countP (·.dooms u))
    (hpile : ∀ u, Piles.countIn u t.combat.piles.exhaustPile ≤
      Piles.countIn u s.combat.piles.exhaustPile + [deed].countP (·.exhausts u)) :
    Exhausts s (t.report event) := by
  refine ⟨[deed], [event], hchronicle, ?_, h, hpile⟩
  show (t.combat.events.push event).toList = _
  rw [hevents, Array.toList_push]

/-- A card that is put into a pile is reported as one that was exhausted, or that was added there,
exactly if that is the exhaust pile. -/
theorem of_landing (uid : CardUid) (pile : Pile) {event : Event}
    (hchronicle : t.chronicle.toList = s.chronicle.toList ++ [.landed uid pile])
    (hevents : t.combat.events = s.combat.events)
    (he : pile ≠ .exhaustPile ∧ event.IsClear ∨ pile = .exhaustPile ∧
      (event = .exhaust uid ∨ ∃ definition, event = .addCard uid definition .exhaustPile))
    (hpile : ∀ u, Piles.countIn u t.combat.piles.exhaustPile ≤
      Piles.countIn u s.combat.piles.exhaustPile +
        if Pile.exhaustPile = pile ∧ uid = u then 1 else 0) :
    Exhausts s (t.report event) := by
  have hlanded (u : CardUid) : [Deed.landed uid pile].countP (·.exhausts u) =
      if Pile.exhaustPile = pile ∧ uid = u then 1 else 0 := by
    cases pile <;> simp [Deed.exhausts]
  refine of_told hchronicle hevents (fun u => ?_) fun u => hlanded u ▸ hpile u
  have hdooms : [Deed.landed uid pile].countP (·.dooms u) = 0 := rfl
  rw [hlanded, hdooms]
  rcases he with ⟨hother, hclear⟩ | ⟨rfl, rfl | ⟨definition, rfl⟩⟩
  · obtain ⟨hexhaust, hadd⟩ := hclear u
    simp [hexhaust, hadd, hother.symm]
  · simp [List.count_singleton, Event.addsExhausted]
  · simp [Event.addsExhausted]

/-- A card comes into a pile, and that is reported. -/
theorem of_arrive {pile : Pile} {placement : Placement} {event : Event}
    (he : event = .putOnDeck card.uid ∧ pile = .drawPile ∨
      ∃ definition, event = .addCard card.uid definition pile) :
    Exhausts s ((s.arrive card pile placement).report event) := by
  refine of_landing card.uid pile chronicle_arrive rfl ?_ fun u => ?_
  · rcases he with ⟨rfl, rfl⟩ | ⟨definition, rfl⟩
    · exact .inl ⟨by decide, Event.isClear_of_not_fills rfl⟩
    · by_cases hpile : pile = .exhaustPile
      · exact .inr ⟨hpile, .inr ⟨definition, by rw [hpile]⟩⟩
      · refine .inl ⟨hpile, Event.isClear_of_not_fills ?_⟩
        cases pile <;> first | rfl | exact absurd rfl hpile
  · have hput := @Piles.countIn_put s.combat.piles pile card u placement s.rng .exhaustPile
    exact Nat.le_of_eq hput

/-- No card comes into the exhaust pile when one is taken out of the piles. -/
theorem countIn_of_take? {source : Pile} {piles : Piles}
    (h : s.combat.piles.take? uid = some (source, card, piles)) (u : CardUid) :
    Piles.countIn u piles.exhaustPile ≤ Piles.countIn u s.combat.piles.exhaustPile := by
  have hcount := @Piles.countIn_of_takeFrom? _ _ _ _ _ u (Piles.takeFrom?_of_take? h) .exhaustPile
  exact Nat.le_of_add_right_le (Nat.le_of_eq hcount.symm)

/-! ## The steps -/

theorem of_step (h : Step rules Effect.Any s t) : Exhausts s t := by
  cases h with
  | drew | issued => exact of_aside rfl rfl rfl
  | told h => exact (flow.refl s).report h.isClear
  | acted => exact (flow.refl s).record fun _ => ⟨Bool.false_ne_true, Bool.false_ne_true⟩
  | altered hc h =>
      exact (of_setCombatant _ _).tell fun event hmem => (h.isOfCombatant event hmem).isClear
  | damaged h => exact of_damages h
  | @energy change amount energy events h he =>
      have hset : Exhausts s (s.withResources { s.combat.resources with energy }) :=
        of_aside rfl rfl rfl
      refine hset.tell fun event hmem => ?_
      rcases he with ⟨-, rfl⟩ | ⟨delta, -, -, rfl⟩
      · exact absurd hmem List.not_mem_nil
      · obtain rfl := List.mem_singleton.mp hmem
        exact Event.isClear_of_not_fills rfl
  | energyNextTurn =>
      refine report ?_ (Event.isClear_of_not_fills rfl)
      exact of_aside rfl rfl rfl
  | @gold change amount raw delta goldEarned =>
      have hset : Exhausts s { s with gold := max raw 0, stats := { s.stats with goldEarned } } :=
        of_aside rfl rfl rfl
      refine hset.tell fun event hmem => ?_
      split at hmem
      · obtain rfl := List.mem_singleton.mp hmem
        exact Event.isClear_of_not_fills rfl
      · exact absurd hmem List.not_mem_nil
  | shuffled h =>
      exact of_aside rfl rfl (Piles.get_of_shuffle h .exhaustPile (by decide))
  | @reshuffled moved piles rng h =>
      have hmerged : Exhausts s { s.withPiles piles with rng } :=
        of_aside rfl rfl (Piles.get_of_reshuffle h .exhaustPile (by decide) (by decide))
      exact hmerged.record fun _ => ⟨Bool.false_ne_true, Bool.false_ne_true⟩
  | @drawn card piles hroom h =>
      have hpile : piles.exhaustPile = s.combat.piles.exhaustPile :=
        Piles.get_of_popDraw? h .exhaustPile (by decide)
      exact of_aside rfl rfl hpile
  | @milled card piles event h he =>
      have hpile : piles.exhaustPile = s.combat.piles.exhaustPile :=
        Piles.get_of_popDraw? h .exhaustPile (by decide)
      have hmilled : Exhausts s
          (s.withPiles { piles with discardPile := piles.discardPile ++ [card] }) :=
        of_aside rfl rfl hpile
      refine hmilled.report ?_
      rcases he with rfl | rfl <;> exact Event.isClear_of_not_fills rfl
  | @moved uid source pile piles rng event h he =>
      obtain ⟨card, rest, htake, rfl⟩ := Piles.move_bottom_eq h
      refine of_landing uid pile (by simp [Scene.record, Scene.withPiles]) rfl ?_
        fun u => ?_
      · rcases he with ⟨rfl, rfl⟩ | ⟨rfl, rfl⟩
        · exact .inl ⟨by decide, Event.isClear_of_not_fills rfl⟩
        · exact .inr ⟨rfl, .inl rfl⟩
      · have hadd := @Piles.countIn_add rest pile card u .exhaustPile
        have htaken := @Piles.countIn_of_takeFrom? _ _ _ _ _ u (Piles.takeFrom?_of_take? htake)
          .exhaustPile
        have huid : card.uid = uid := (@Piles.count_of_take? _ _ _ _ u _ htake).1
        rw [huid] at hadd
        show Piles.countIn u ((rest.set pile (rest.get pile ++ [card])).get .exhaustPile) ≤
          Piles.countIn u (s.combat.piles.get .exhaustPile) + _
        omega
  | @brought uid source card piles pile placement event h he hp =>
      have huid : card.uid = uid := (@Piles.count_of_take? _ _ _ _ uid _ h).1
      have htaken : Exhausts s (s.withPiles piles) := of_silence rfl rfl (countIn_of_take? h)
      subst huid
      refine flow.trans htaken (of_arrive ?_)
      rcases he with rfl | hadd
      · exact .inl ⟨rfl, by rw [hp rfl]; rfl⟩
      · exact .inr hadd
  | @removed uid source card piles h =>
      have hchronicle : ((s.withPiles piles).record (.removed uid)).chronicle.toList =
          s.chronicle.toList ++ [.removed uid] := by
        simp [Scene.record, Scene.withPiles]
      exact of_told hchronicle rfl (fun _ => rfl) (countIn_of_take? h)
  | @sent uid entry route event h he =>
      refine of_told (chronicle_route _ _) rfl (fun u => ?_) fun u => Nat.le_add_right _ _
      rcases he with ⟨rfl, rfl⟩ | ⟨rfl, rfl⟩ | ⟨rfl, rfl⟩
      · rfl
      · simp [List.count_singleton, List.countP_singleton, Event.addsExhausted, Deed.exhausts,
          Deed.dooms]
      · rfl
  | @recalled uid entry pile placement event h he hp =>
      have huid : entry.card.uid = uid := by simpa using List.find?_some h
      have hroute : Exhausts s (s.route uid entry.route .elsewhere) :=
        of_deeds (chronicle_route _ _) rfl rfl fun u deed hmem => by
          obtain rfl := List.mem_singleton.mp hmem
          exact ⟨Bool.false_ne_true, Bool.false_ne_true⟩
      refine flow.trans hroute (of_arrive ?_)
      rw [huid]
      rcases he with rfl | hadd
      · exact .inl ⟨rfl, by rw [hp rfl]; rfl⟩
      · exact .inr hadd
  | @changed found card event hf hu he =>
      have hchanged : Exhausts s (s.alter found.uid card) := by
        refine record ?_ fun _ => ⟨Bool.false_ne_true, Bool.false_ne_true⟩
        refine of_silence rfl (Combat.same_modifyCard Combat.events fun _ _ => rfl) fun u => ?_
        show Piles.countIn u (Combat.modifyCard _ _ _).piles.exhaustPile ≤ _
        unfold Combat.modifyCard
        split
        · exact Nat.le_refl _
        · exact Nat.le_of_eq (Piles.countIn_modify (fun _ _ => hu) .exhaustPile)
      refine hchanged.report ?_
      rcases he with rfl | rfl | ⟨delta, rfl⟩ | ⟨flag, value, rfl⟩ | rfl <;>
        exact Event.isClear_of_not_fills rfl
  | created =>
      have hissued : Exhausts s (s.issue 1) := of_aside rfl rfl rfl
      exact flow.trans hissued (of_arrive (.inr ⟨_, rfl⟩))
  | asked | offered =>
      refine report ?_ (Event.isClear_of_not_fills rfl)
      exact of_aside rfl rfl rfl

theorem of_blow (h : Blow rules s t) : Exhausts s t := by
  cases h with
  | damaged h => exact of_damages h
  | setHealth | executed =>
      exact (of_setCombatant _ _).report (Event.isClear_of_not_fills rfl)
  | died id =>
      have htold : Exhausts s (s.report (.death id)) :=
        (flow.refl s).report (Event.isClear_of_not_fills rfl)
      exact htold.record fun _ => ⟨Bool.false_ne_true, Bool.false_ne_true⟩
  | counted => exact of_aside rfl rfl rfl
  | acted => exact (flow.refl s).record fun _ => ⟨Bool.false_ne_true, Bool.false_ne_true⟩
  | buried => exact of_bury

theorem of_opens (h : Opens card s t) : Exhausts s t := by
  cases h with
  | @mk piles rng h =>
      have hpile : piles.exhaustPile = s.combat.piles.exhaustPile :=
        Piles.get_of_popDraw? h .exhaustPile (by decide)
      have hshown : Exhausts s (({ s.withPiles piles with rng } : Scene).report
          (.replay card.uid)) := by
        refine report ?_ (Event.isClear_of_not_fills rfl)
        exact of_aside rfl rfl hpile
      exact flow.trans hshown (of_aside rfl rfl rfl)

/-- A card that was played comes into the exhaust pile only if that is reported. -/
theorem of_closes (h : Closes rules uid s t) : Exhausts s t := by
  cases h with
  | nothing => exact flow.refl s
  | @mk played combat h =>
      obtain ⟨entry, -, h⟩ := Option.bind_eq_some_iff.mp h
      obtain ⟨rfl, rfl⟩ := Prod.mk.inj (Option.some.inj h)
      generalize Resolution.routeOf rules entry = route
      cases route with
      | exhaust =>
          refine of_landing entry.card.uid .exhaustPile Array.toList_push rfl
            (.inr ⟨rfl, .inl rfl⟩) fun u => ?_
          show Piles.countIn u (s.combat.piles.exhaustPile ++ [entry.card]) ≤ _
          rw [Piles.countIn_append, Piles.countIn_singleton]
          simp
      | discard =>
          exact @of_deeds s _ [.landed entry.card.uid .discardPile] Array.toList_push rfl rfl
            fun u deed hmem => by
              obtain rfl := List.mem_singleton.mp hmem
              exact ⟨Bool.false_ne_true, Bool.false_ne_true⟩
      | banished | elsewhere => exact of_aside rfl rfl rfl

theorem of_upkeep (h : Upkeep rules s t) : Exhausts s t := by
  cases h with
  | told h => exact (flow.refl s).report (Event.IsSign.isClear h)
  | decayed | eased | bared | moved => exact of_setCombatant _ _
  | @declared id before enemy template chosen rng hc =>
      have hdrawn : Exhausts s { s with rng } := of_aside rfl rfl rfl
      exact flow.trans hdrawn (of_setCombatant _ _)
  | released uid =>
      have hkept (u : CardUid) := @Piles.countIn_modify s.combat.piles uid u
        ({ · with retained := false }) (fun _ h => h) .exhaustPile
      exact of_silence rfl rfl fun u => Nat.le_of_eq (hkept u)
  | turned | charged | discharged => exact of_aside rfl rfl rfl

theorem of_enters {cost : Int} (h : Enters card cost s t) : Exhausts s t := by
  cases h with
  | @mk piles paid cardsPlayedThisTurn cardsPlayed h hp =>
      have htaken : Exhausts s (s.withPiles piles) := of_silence rfl rfl fun u => by
        have hcount := @Piles.countIn_of_takeFrom? _ _ _ _ _ u h .exhaustPile
        exact Nat.le_of_add_right_le (Nat.le_of_eq hcount.symm)
      have hpaid : Exhausts (s.withPiles piles) paid := by
        cases hp with
        | nothing => exact flow.refl _
        | energy =>
            refine report ?_ (Event.isClear_of_not_fills rfl)
            exact of_aside rfl rfl rfl
      exact flow.trans htaken (flow.trans hpaid (of_aside rfl rfl rfl))

/-- **Effects report what comes into the exhaust pile**, at any depth. -/
theorem prevails : Prevails rules Effect.Any Exhausts :=
  ⟨flow, of_step, of_blow, of_opens, of_closes⟩

/-- **Turns and plays report what comes into the exhaust pile.** -/
theorem governs : Governs rules Effect.Any Exhausts := by
  refine prevails.governs rules.content.permits_any of_upkeep of_enters
    (fun _ _ => of_aside rfl rfl rfl) fun {s id combatant intent ctx a t} _ _ hrun => ?_
  have htold : Exhausts s (s.report (.intent id intent.name)) :=
    (flow.refl s).report (Event.isClear_of_not_fills rfl)
  exact flow.trans htold
    ((prevails.carryOut rules.content.permits_any (fun _ _ => trivial) ctx).rel hrun)

end Exhausts

/-! ## Calls -/

namespace Rules

variable {run run' : Run} {call : Call}

/-- **Every accepted call** reports what comes into the exhaust pile. -/
theorem exhausting_of_accepted (hnew : ∀ enemies, call ≠ .start enemies)
    (h : rules.perform run call = .ok (none, run')) :
    ∃ before after, run.combat = some before ∧ run'.combat = some after ∧ ∀ u,
      (run'.eventsSince run).count (.exhaust u) +
          (run'.eventsSince run).countP (·.addsExhausted u) =
        run'.chronicle.toList.countP (·.exhausts u) +
          run'.chronicle.toList.countP (·.dooms u) ∧
      Piles.countIn u after.piles.exhaustPile ≤ Piles.countIn u before.piles.exhaustPile +
        run'.chronicle.toList.countP (·.exhausts u) := by
  have hdeal (s : Scene) (card : Card) (pile : Pile) : Exhausts s (s.deal rules card pile) :=
    Exhausts.of_arrive (.inr ⟨card.definition, rfl⟩)
  obtain ⟨s, t, m, hm, hstart, hrun, -, hchronicle, hcombat⟩ := undertakes_of_accepted h
  obtain ⟨deeds, news, htold⟩ := Exhausts.governs.undertakes rules.content.permits_any
    (fun _ => .of_aside rfl rfl rfl) (fun _ => .of_aside rfl rfl rfl)
    (fun _ => .of_aside rfl rfl rfl) hdeal hm hrun
  have hbefore : run.combat = some s.combat := hm.combat_eq hnew
  rw [Combat.endIfDecided_eq] at hcombat
  have hdeeds : run'.chronicle.toList = deeds := by
    rw [hchronicle, htold.chronicle, hstart]
    rfl
  have hnews : run'.eventsSince run = news :=
    Run.eventsSince_eq hbefore ((Run.events_eq hcombat).trans htold.events)
  rw [hdeeds, hnews]
  exact ⟨s.combat, _, hbefore, hcombat, fun u => ⟨htold.reported u, htold.lying u⟩⟩

/-- **One report for each time that a card was exhausted**: the reports of a call are as many as the
times that the card was put into the exhaust pile, exactly if it was told to go there from play as
often as it was added there. -/
theorem exhaust_reported_iff (hnew : ∀ enemies, call ≠ .start enemies)
    (h : rules.perform run call = .ok (none, run')) (u : CardUid) :
    (run'.eventsSince run).count (.exhaust u) = run'.chronicle.toList.countP (·.exhausts u) ↔
      run'.chronicle.toList.countP (·.dooms u) =
        (run'.eventsSince run).countP (·.addsExhausted u) := by
  obtain ⟨before, after, -, -, hlaw⟩ := exhausting_of_accepted hnew h
  have := (hlaw u).1
  omega

end Rules

/-! ## A card that exhausts itself -/

/-- A card that is exhausted when it was played, and one whose effect it is to exhaust itself. -/
def pyrePack : Pack where
  cards :=
    [{ id := "cinder", name := "Cinder", theme := .skill, cost := .fixed 0
       keywords := { exhaust := true } },
     { id := "pyre", name := "Pyre", theme := .skill, cost := .fixed 0
       effects := [.exhaust (.fixed 1) .thisCard] }]
  enemies := [{ id := "dummy", name := "Dummy", maxHealth := 8, moves := [] }]

def pyreRules : Rules where
  content := (Content.ofPack pyrePack).toOption.getD {}

/-- A run with those cards. -/
def pyreRun : Run where
  hero := ""
  health := 10
  maxHealth := 10
  deck := [{ uid := ⟨1⟩, definition := "cinder" }, { uid := ⟨2⟩, definition := "pyre" }]
  rng := .ofSeed 0

/-- The run after a combat has begun. -/
def pyreStarted : Run := pyreRules.after pyreRun (.start ["dummy"])

/-- The run after a card was played. -/
def pyrePlayed (u : CardUid) : Run := pyreRules.after pyreStarted (.play u none)

theorem pyreRun_deck : (pyreRun.deck.map (·.uid)).Nodup := by decide

theorem pyre_starts :
    pyreRules.perform pyreRun (.start ["dummy"]) = .ok (none, pyreStarted) :=
  Rules.perform_eq_of_answer (by decide +kernel)

theorem cinder_burns :
    pyreRules.perform pyreStarted (.play ⟨1⟩ none) = .ok (none, pyrePlayed ⟨1⟩) :=
  Rules.perform_eq_of_answer (by decide +kernel)

theorem pyre_burns :
    pyreRules.perform pyreStarted (.play ⟨2⟩ none) = .ok (none, pyrePlayed ⟨2⟩) :=
  Rules.perform_eq_of_answer (by decide +kernel)

namespace Rules

/-- The card that is exhausted when it was played is reported once. -/
theorem exhaust_reported_cinder :
    ((pyrePlayed ⟨1⟩).eventsSince pyreStarted).count (.exhaust ⟨1⟩) =
        (pyrePlayed ⟨1⟩).chronicle.toList.countP (·.exhausts ⟨1⟩) ∧
      (pyrePlayed ⟨1⟩).chronicle.toList.countP (·.exhausts ⟨1⟩) = 1 :=
  ⟨(exhaust_reported_iff (fun _ => by simp) cinder_burns ⟨1⟩).mpr (by decide +kernel),
    by decide +kernel⟩

/-- A card that exhausts itself while it is in play is reported twice, and put into the exhaust pile
once. -/
theorem pyre_reported_twice :
    ¬∀ pack config content run enemies started call run' u,
      Content.ofPack pack = .ok content → (run.deck.map (·.uid)).Nodup →
        Rules.perform { content, config } run (.start enemies) = .ok (none, started) →
          (∀ others, call ≠ .start others) →
            Rules.perform { content, config } started call = .ok (none, run') →
              (run'.eventsSince started).count (.exhaust u) =
                run'.chronicle.toList.countP (·.exhausts u) := by
  intro hclaim
  have honce : ((pyrePlayed ⟨2⟩).eventsSince pyreStarted).count (.exhaust ⟨2⟩) =
      (pyrePlayed ⟨2⟩).chronicle.toList.countP (·.exhausts ⟨2⟩) :=
    hclaim pyrePack {} pyreRules.content pyreRun ["dummy"] pyreStarted (.play ⟨2⟩ none) _ ⟨2⟩ rfl
      pyreRun_deck pyre_starts (fun _ => by simp) pyre_burns
  have htwice : ((pyrePlayed ⟨2⟩).eventsSince pyreStarted).count (.exhaust ⟨2⟩) = 2 := by
    decide +kernel
  have hput : (pyrePlayed ⟨2⟩).chronicle.toList.countP (·.exhausts ⟨2⟩) = 1 := by decide +kernel
  rw [htwice, hput] at honce
  exact absurd honce (by decide)

end Rules

end CardCombat
