import CardCombat.Proofs.Banishment.Permanence
import CardCombat.Proofs.Card.Instances

/-!
# Tracing the instances of a card

A change of a card is made to the instance that its number means, the one in play before those in
the piles, and it is announced. So every instance that there is after an effect has come about from
one before it by announced changes, in the order in which they were announced. It need not have come
about by all of them: a card that was brought from play into a pile has left its play, but its
number still means the instance in play. As long as no effect finds a card there, the only copy of a
card has all announced changes made to it.

## Main definitions

* `Card.changedBy` -- a card after the changes of it that events tell of.
* `Sticking` -- how the instances of a card have changed, with what was written down and reported.

## Main results

* `Sticks.prevails` -- effects keep track of the instances of a card, at any depth.
* `Resolution.play_sticks` -- so do plays.
-/

namespace CardCombat

open Resolution

variable {rules : Rules} {s t v : Scene} {deeds deeds' : List Deed} {news news' : List Event}
  {u uid : CardUid} {card : Card}

/-! ## Announced changes -/

/-- The card was told where to go, or was changed, in a play that it had left already. -/
def Deed.strays (u : CardUid) : Deed → Bool
  | .routed card before _ | .changed card before => card == u && !Route.leadsToPile before
  | _ => false

namespace Event

/-- The card was changed. -/
def changes (u : CardUid) : Event → Bool
  | .retain card | .upgrade card | .costChange card _ | .cardFlag card _ _ | .transform card _ =>
    card == u
  | _ => false

theorem IsOfCombatant.not_changes {event : Event} (h : event.IsOfCombatant) :
    ¬event.changes u := by
  cases event <;> first | exact h.elim | exact Bool.false_ne_true

theorem IsNotice.not_changes {event : Event} (h : event.IsNotice) : ¬event.changes u := by
  cases event <;> first | exact h.elim | exact Bool.false_ne_true

end Event

/-- The card after the changes of it that events tell of, one after another. -/
def Card.changedBy (card : Card) (u : CardUid) (news : List Event) : Card :=
  (news.filter (·.changes u)).foldl (fun card event => event.overlay card) card

namespace Card

theorem changedBy_append (card : Card) (u : CardUid) (news news' : List Event) :
    card.changedBy u (news ++ news') = (card.changedBy u news).changedBy u news' := by
  unfold changedBy
  rw [List.filter_append, List.foldl_append]

/-- Nothing is changed by events that tell of no changes. -/
theorem changedBy_of_not (h : ∀ event ∈ news, ¬event.changes u) : card.changedBy u news = card := by
  unfold changedBy
  rw [List.filter_eq_nil_iff.mpr h]
  rfl

theorem changedBy_singleton {event : Event} (h : event.changes u = true) :
    card.changedBy u [event] = event.overlay card := by
  unfold changedBy
  rw [List.filter_cons_of_pos h]
  rfl

end Card

/-! ## What becomes of the instances of a card -/

/-- What was written down and reported between two scenes, and what has become of the instances of
a card meanwhile. -/
structure Sticking (u : CardUid) (s t : Scene) (deeds : List Deed) (news : List Event) :
    Prop where
  next : s.combat.nextCardUid ≤ t.combat.nextCardUid
  chronicle : t.chronicle.toList = s.chronicle.toList ++ deeds
  events : t.combat.events.toList = s.combat.events.toList ++ news
  /-- Every instance has come about from one before by some of the announced changes. -/
  traced : u.number < s.combat.nextCardUid → ∀ card, t.combat.IsInstance u card →
    ∃ before, s.combat.IsInstance u before ∧
      ∃ part, part.Sublist news ∧ before.changedBy u part = card
  /-- The only copy of a card has all announced changes made to it, as long as no effect finds the
  card in a play that it has left. -/
  kept : u.number < s.combat.nextCardUid → (∀ deed ∈ deeds, ¬deed.strays u) →
    ∀ card, (s.combat.copiesOf u).Subperm [card] →
      (t.combat.copiesOf u).Subperm [card.changedBy u news]

/-- The instances of a card can be traced. -/
def Sticks (u : CardUid) (s t : Scene) : Prop := ∃ deeds news, Sticking u s t deeds news

/-- What is traced from one scene to another is traced on from there. -/
theorem Sticking.trans (h : Sticking u s t deeds news) (h' : Sticking u t v deeds' news') :
    Sticking u s v (deeds ++ deeds') (news ++ news') where
  next := Nat.le_trans h.next h'.next
  chronicle := by rw [h'.chronicle, h.chronicle, List.append_assoc]
  events := by rw [h'.events, h.events, List.append_assoc]
  traced hlt card hinstance := by
    obtain ⟨between, hbetween, part', hpart', rfl⟩ :=
      h'.traced (Nat.lt_of_lt_of_le hlt h.next) card hinstance
    obtain ⟨before, hbefore, part, hpart, rfl⟩ := h.traced hlt between hbetween
    exact ⟨before, hbefore, part ++ part', hpart.append hpart', Card.changedBy_append _ _ _ _⟩
  kept hlt hdeeds card hs := by
    rw [Card.changedBy_append]
    exact h'.kept (Nat.lt_of_lt_of_le hlt h.next)
      (fun deed hmem => hdeeds deed (List.mem_append_right _ hmem)) _
      (h.kept hlt (fun deed hmem => hdeeds deed (List.mem_append_left _ hmem)) card hs)

namespace Sticks

theorem trans (h : Sticks u s t) (h' : Sticks u t v) : Sticks u s v := by
  obtain ⟨deeds, news, h⟩ := h
  obtain ⟨deeds', news', h'⟩ := h'
  exact ⟨_, _, h.trans h'⟩

/-! ## Nothing is changed -/

/-- No instance is changed, and no copy comes about unless the card is found in a play that it has
left. -/
theorem of_unchanged (hnext : s.combat.nextCardUid ≤ t.combat.nextCardUid)
    (hchronicle : t.chronicle.toList = s.chronicle.toList ++ deeds)
    (hevents : t.combat.events.toList = s.combat.events.toList ++ news)
    (hnews : ∀ event ∈ news, ¬event.changes u)
    (hinstance : u.number < s.combat.nextCardUid → ∀ entry ∈ t.combat.entries,
      entry.card.uid = u → ∃ before ∈ s.combat.entries, before.card = entry.card)
    (hcopies : u.number < s.combat.nextCardUid → (∀ deed ∈ deeds, ¬deed.strays u) →
      (t.combat.copiesOf u).Subperm (s.combat.copiesOf u)) : Sticks u s t := by
  refine ⟨deeds, news, hnext, hchronicle, hevents, ?_, fun hlt hdeeds card hs => ?_⟩
  · rintro hlt _ ⟨hid, entry, hmem, rfl⟩
    obtain ⟨before, hbefore, hcard⟩ := hinstance hlt entry hmem hid
    exact ⟨entry.card, ⟨hid, before, hbefore, hcard⟩, [], List.nil_sublist _, rfl⟩
  · rw [Card.changedBy_of_not hnews]
    exact (hcopies hlt hdeeds).trans hs

/-- There are no other cards than before. -/
theorem of_fewer (hnext : s.combat.nextCardUid ≤ t.combat.nextCardUid)
    (hchronicle : t.chronicle.toList = s.chronicle.toList ++ deeds)
    (hevents : t.combat.events.toList = s.combat.events.toList ++ news)
    (hnews : ∀ event ∈ news, ¬event.changes u)
    (h : t.combat.entries.Subperm s.combat.entries) : Sticks u s t :=
  of_unchanged hnext hchronicle hevents hnews
    (fun _ entry hmem _ => ⟨entry, h.subset hmem, rfl⟩)
    fun _ _ => Combat.copiesOf_subperm h u

/-- Cards are moved about or taken away, and nothing is written down or reported. -/
theorem of_entries (hnext : t.combat.nextCardUid = s.combat.nextCardUid)
    (hchronicle : t.chronicle = s.chronicle) (hevents : t.combat.events = s.combat.events)
    (h : t.combat.entries.Subperm s.combat.entries) : Sticks u s t :=
  of_fewer (Nat.le_of_eq hnext.symm) (by rw [hchronicle, List.append_nil])
    (by rw [hevents, List.append_nil]) (fun _ hmem => absurd hmem List.not_mem_nil) h

/-- What happens has nothing to do with cards. -/
theorem of_aside (hnext : t.combat.nextCardUid = s.combat.nextCardUid)
    (hchronicle : t.chronicle = s.chronicle) (hevents : t.combat.events = s.combat.events)
    (hpiles : t.combat.piles = s.combat.piles) (hplay : t.combat.inPlay = s.combat.inPlay) :
    Sticks u s t := by
  refine of_entries hnext hchronicle hevents (List.Perm.subperm (.of_eq ?_))
  rw [Combat.entries, hpiles, hplay, Combat.entries]

theorem flow (u : CardUid) : Flow (Sticks u) := ⟨fun _ => of_aside rfl rfl rfl rfl rfl, trans⟩

theorem of_piles {piles : Piles} {rng : Rng} (h : piles.cards.Perm s.combat.piles.cards) :
    Sticks u s { s.withPiles piles with rng } :=
  of_entries rfl rfl rfl (Combat.entries_withPiles h).subperm

theorem of_tell (s : Scene) {events : List Event} (h : ∀ event ∈ events, ¬event.changes u) :
    Sticks u s (s.tell events) := by
  rw [Scene.tell_eq]
  exact @of_fewer s _ [] events u (Nat.le_refl _) (List.append_nil _).symm (by simp) h
    (List.Subperm.refl _)

theorem tell (h : Sticks u s t) {events : List Event} (he : ∀ event ∈ events, ¬event.changes u) :
    Sticks u s (t.tell events) :=
  h.trans (of_tell t he)

theorem report (h : Sticks u s t) {event : Event} (he : ¬event.changes u) :
    Sticks u s (t.report event) :=
  h.tell fun _ hmem => List.mem_singleton.mp hmem ▸ he

theorem of_deeds (deeds : List Deed) :
    Sticks u s { s with chronicle := s.chronicle ++ deeds.toArray } :=
  @of_fewer s _ deeds [] u (Nat.le_refl _) (by simp) (List.append_nil _).symm
    (fun _ hmem => absurd hmem List.not_mem_nil) (List.Subperm.refl _)

theorem record (h : Sticks u s t) (deed : Deed) : Sticks u s (t.record deed) := by
  have hone : Sticks u t { t with chronicle := t.chronicle ++ [deed].toArray } := of_deeds [deed]
  have hpush : t.chronicle ++ [deed].toArray = t.chronicle.push deed := by simp
  rw [hpush] at hone
  exact h.trans hone

theorem of_setCombatant (id : CombatantId) (combatant : Combatant) :
    Sticks u s (s.setCombatant id combatant) := by
  have hput : Sticks u s (s.putCombatant id combatant) := by
    unfold Scene.putCombatant Combat.setCombatant
    split
    · exact of_aside rfl rfl rfl rfl rfl
    · exact of_aside rfl rfl rfl rfl rfl
  unfold Scene.setCombatant
  split
  · exact hput.record _
  · exact hput

theorem of_bury : Sticks u s s.bury := by
  have hreaped : Sticks u s { s with combat := s.combat.reap.2 } := of_aside rfl rfl rfl rfl rfl
  exact hreaped.trans (of_deeds _)

theorem of_damages {source target : CombatantId} {outcome : DamageReport}
    (h : Damages source target outcome s t) : Sticks u s t := by
  cases h with
  | mk =>
      refine trans (report (of_setCombatant _ _) ?_) (of_aside rfl rfl rfl rfl rfl)
      exact Bool.false_ne_true

/-! ## Cards that come into piles -/

theorem entries_arrive {pile : Pile} {placement : Placement} :
    (s.arrive card pile placement).combat.entries.Perm (.lying card :: s.combat.entries) :=
  Combat.entries_withPiles_cons Piles.perm_put

/-- A card is brought from one pile to another. -/
theorem of_brought {source pile : Pile} {piles : Piles} {placement : Placement}
    (h : s.combat.piles.take? uid = some (source, card, piles)) :
    Sticks u s ((s.withPiles piles).arrive card pile placement) :=
  record (of_piles (Piles.perm_put.trans (Piles.perm_of_take? h).2.symm)) _

theorem of_issued (count : Nat) : Sticks u s (s.issue count) :=
  @of_fewer s _ [] [] u (Nat.le_add_right _ _) (List.append_nil _).symm (List.append_nil _).symm
    (fun _ hmem => absurd hmem List.not_mem_nil) (List.Subperm.refl _)

/-- A new card is no instance of one that has its number already. -/
theorem of_created {pile : Pile} {placement : Placement}
    (hu : card.uid = ⟨s.combat.nextCardUid⟩) :
    Sticks u s ((s.issue 1).arrive card pile placement) := by
  have hother (hlt : u.number < s.combat.nextCardUid) : card.uid ≠ u := by
    rintro rfl
    rw [hu] at hlt
    exact Nat.lt_irrefl _ hlt
  have hentries : ((s.issue 1).arrive card pile placement).combat.entries.Perm
      (.lying card :: s.combat.entries) := @entries_arrive (s.issue 1) card pile placement
  refine @of_unchanged s _ [.landed card.uid pile] [] u (Nat.le_succ _) chronicle_arrive
    (List.append_nil _).symm (fun _ hmem => absurd hmem List.not_mem_nil)
      (fun hlt entry hmem hid => ?_) fun hlt _ => ?_
  · rcases List.mem_cons.mp (hentries.mem_iff.mp hmem) with rfl | hmem
    · exact absurd hid (hother hlt)
    · exact ⟨entry, hmem, rfl⟩
  · have hreturns : (ActiveCard.lying card).returns u = false := by
      rw [ActiveCard.returns_lying]
      exact beq_false_of_ne (hother hlt)
    exact (Combat.copiesOf_of_cons_ne hentries hreturns).subperm

/-- A card that is found in a play that it has not left is a copy. -/
theorem returns_of_not_strays {entry : ActiveCard} {deed : Deed} (hu : entry.card.uid = u)
    (hdeed : deed.strays u = (entry.card.uid == u && !Route.leadsToPile entry.route))
    (h : ¬deed.strays u) : entry.returns u = true := by
  unfold ActiveCard.returns
  rw [hdeed, hu, beq_self_eq_true, Bool.true_and] at h
  rw [hu, beq_self_eq_true, Bool.true_and]
  simpa using h

/-- A card in play is sent somewhere, and stays in play for the time being. -/
theorem of_sent {entry : ActiveCard} (h : s.combat.findInPlay? uid = some entry) (after : Route) :
    Sticks u s (s.route uid entry.route after) := by
  obtain ⟨hid, -⟩ := @Combat.perm_modifyInPlay s.combat uid entry id h
  obtain ⟨others, hbefore, hafter⟩ := @Combat.entries_modifyInPlay s.combat uid entry
    (fun entry => { entry with route := some after }) h
  refine @of_unchanged s _ [.routed uid entry.route after] [] u (Nat.le_refl _)
    (chronicle_route _ _) (List.append_nil _).symm (fun _ hmem => absurd hmem List.not_mem_nil)
      (fun _ other hmem _ => ?_) fun _ hdeeds => ?_
  · rcases List.mem_cons.mp (hafter.mem_iff.mp hmem) with rfl | hmem
    · exact ⟨entry, hbefore.mem_iff.mpr List.mem_cons_self, rfl⟩
    · exact ⟨other, hbefore.mem_iff.mpr (List.mem_cons_of_mem _ hmem), rfl⟩
  · refine Combat.copiesOf_subperm_of_replaced hbefore hafter rfl fun hreturns => ?_
    have hu : entry.card.uid = u := eq_of_beq (Bool.and_eq_true_iff.mp hreturns).1
    exact returns_of_not_strays hu (hid ▸ rfl) (hdeeds _ (List.mem_singleton_self _))

/-- A card in play was brought into a pile. It is in play all the same, but it has left its play. -/
theorem of_recalled {entry : ActiveCard} {pile : Pile} {placement : Placement}
    (h : s.combat.findInPlay? uid = some entry) :
    Sticks u s ((s.route uid entry.route .elsewhere).arrive entry.card pile placement) := by
  obtain ⟨hid, -⟩ := @Combat.perm_modifyInPlay s.combat uid entry id h
  obtain ⟨others, hbefore, hrouted⟩ := @Combat.entries_modifyInPlay s.combat uid entry
    (fun entry => { entry with route := some .elsewhere }) h
  have hafter := (@entries_arrive (s.route uid entry.route .elsewhere) entry.card pile
    placement).trans (hrouted.cons _)
  have hchronicle : ((s.route uid entry.route .elsewhere).arrive entry.card pile
      placement).chronicle.toList = s.chronicle.toList ++
        [.routed uid entry.route .elsewhere, .landed entry.card.uid pile] := by
    rw [chronicle_arrive, chronicle_route, List.append_assoc]
    rfl
  refine @of_unchanged s _ _ [] u (Nat.le_refl _) hchronicle (List.append_nil _).symm
    (fun _ hmem => absurd hmem List.not_mem_nil) (fun _ other hmem _ => ?_) fun _ hdeeds => ?_
  · rcases List.mem_cons.mp (hafter.mem_iff.mp hmem) with rfl | hmem
    · exact ⟨entry, hbefore.mem_iff.mpr List.mem_cons_self, rfl⟩
    · rcases List.mem_cons.mp hmem with rfl | hmem
      · exact ⟨entry, hbefore.mem_iff.mpr List.mem_cons_self, rfl⟩
      · exact ⟨other, hbefore.mem_iff.mpr (List.mem_cons_of_mem _ hmem), rfl⟩
  · have hleft : ({ entry with route := some .elsewhere } : ActiveCard).returns u = false :=
      Bool.and_false _
    by_cases hu : entry.card.uid = u
    · have hreturns : entry.returns u = true :=
        returns_of_not_strays hu (hid ▸ rfl) (hdeeds _ List.mem_cons_self)
      have hlying : (ActiveCard.lying entry.card).returns u = true := by
        rw [ActiveCard.returns_lying, hu, beq_self_eq_true]
      have ht := Combat.copiesOf_of_cons hafter hlying
      rw [List.filter_cons_of_neg (by simp [hleft])] at ht
      exact (ht.trans (Combat.copiesOf_of_cons hbefore hreturns).symm).subperm
    · have hother : (entry.card.uid == u) = false := beq_false_of_ne hu
      have ht := Combat.copiesOf_of_cons_ne hafter ((ActiveCard.returns_lying _ _).trans hother)
      have hs := Combat.copiesOf_of_cons_ne hbefore (u := u)
        (by rw [ActiveCard.returns, hother, Bool.false_and])
      rw [List.filter_cons_of_neg (by simp [hleft])] at ht
      exact (ht.trans hs.symm).subperm

/-! ## A card is changed -/

/-- The change that is announced of a card is made to the instance that its number means, and that
is the only copy unless the card has left the play in which it is found. -/
theorem of_changed {found : Card} {event : Event} (hf : s.combat.card? found.uid = some found)
    (hu : card.uid = found.uid) (he : ∀ u, event.changes u = (found.uid == u))
    (ho : card = event.overlay found) : Sticks u s ((s.alter found.uid card).report event) := by
  obtain ⟨entry, others, hentry, hroute, hbefore, hafter⟩ :=
    @Combat.entries_modifyCard s.combat found.uid found (fun _ => card) hf
  have hnext : ((s.alter found.uid card).report event).combat.nextCardUid =
      s.combat.nextCardUid := Combat.same_modifyCard Combat.nextCardUid fun _ _ => rfl
  have hevents : ((s.alter found.uid card).report event).combat.events.toList =
      s.combat.events.toList ++ [event] := by
    show ((s.combat.modifyCard found.uid fun _ => card).events.push event).toList = _
    rw [Combat.same_modifyCard Combat.events fun _ _ => rfl, Array.toList_push]
  by_cases hid : found.uid = u
  · have hchanges : event.changes u = true := by rw [he, hid, beq_self_eq_true]
    refine ⟨_, [event], Nat.le_of_eq hnext.symm, Array.toList_push, hevents, ?_,
      fun _ hdeeds c hs => ?_⟩
    · rintro - _ ⟨hinstance, other, hmem, rfl⟩
      rcases List.mem_cons.mp (hafter.mem_iff.mp hmem) with rfl | hmem
      · refine ⟨found, ⟨hid, entry, hbefore.mem_iff.mpr List.mem_cons_self, hentry⟩, [event],
          List.Sublist.refl _, ?_⟩
        rw [Card.changedBy_singleton hchanges, ← ho]
      · have hthere := hbefore.mem_iff.mpr (List.mem_cons_of_mem _ hmem)
        exact ⟨other.card, ⟨hinstance, other, hthere, rfl⟩, [], List.nil_sublist _, rfl⟩
    · have hreturns : entry.returns u = true := by
        refine returns_of_not_strays (hentry ▸ hid) ?_ (hdeeds _ (List.mem_singleton_self _))
        rw [hentry, ← hroute]
        rfl
      have hone := (Combat.copiesOf_of_cons hbefore hreturns).symm.subperm.trans hs
      obtain rfl : entry.card = c := List.mem_singleton.mp (hone.subset List.mem_cons_self)
      have hnil : (others.filter (·.returns u)).map (·.card) = [] := by
        have hlength := hone.length_le
        rw [List.length_cons, List.length_singleton] at hlength
        exact List.length_eq_zero_iff.mp (by omega)
      have hsame : ({ entry with card } : ActiveCard).returns u = entry.returns u := by
        unfold ActiveCard.returns
        rw [hu, hentry]
      have ht := Combat.copiesOf_of_cons hafter (hsame.trans hreturns)
      rw [hnil] at ht
      rw [Card.changedBy_singleton hchanges, hentry, ← ho]
      exact ht.subperm
  · have hother : (found.uid == u) = false := beq_false_of_ne hid
    refine of_unchanged (Nat.le_of_eq hnext.symm) Array.toList_push hevents
      (fun other hmem => ?_) (fun _ other hmem hinstance => ?_) fun _ _ => ?_
    · obtain rfl := List.mem_singleton.mp hmem
      simp [he, hother]
    · rcases List.mem_cons.mp (hafter.mem_iff.mp hmem) with rfl | hmem
      · exact absurd (hu.symm.trans hinstance) hid
      · exact ⟨other, hbefore.mem_iff.mpr (List.mem_cons_of_mem _ hmem), rfl⟩
    · have hs := Combat.copiesOf_of_cons_ne hbefore (u := u)
        (by rw [ActiveCard.returns, hentry, hother, Bool.false_and])
      have ht := Combat.copiesOf_of_cons_ne hafter (u := u)
        (by rw [ActiveCard.returns, hu, hother, Bool.false_and])
      exact (ht.trans hs.symm).subperm

/-! ## The steps -/

theorem of_step (h : Step rules Effect.Any s t) : Sticks u s t := by
  cases h with
  | drew => exact of_aside rfl rfl rfl rfl rfl
  | told h => exact ((flow u).refl s).report h.not_changes
  | acted => exact ((flow u).refl s).record _
  | altered hc h =>
      exact (of_setCombatant _ _).tell fun event hmem => (h.isOfCombatant event hmem).not_changes
  | damaged h => exact of_damages h
  | @energy change amount energy events h he =>
      have hset : Sticks u s (s.withResources { s.combat.resources with energy }) :=
        of_aside rfl rfl rfl rfl rfl
      refine hset.tell fun event hmem => ?_
      rcases he with ⟨-, rfl⟩ | ⟨delta, -, -, rfl⟩
      · exact absurd hmem List.not_mem_nil
      · exact List.mem_singleton.mp hmem ▸ Bool.false_ne_true
  | energyNextTurn =>
      refine report ?_ Bool.false_ne_true
      exact of_aside rfl rfl rfl rfl rfl
  | @gold change amount raw delta goldEarned =>
      have hset : Sticks u s { s with gold := max raw 0, stats := { s.stats with goldEarned } } :=
        of_aside rfl rfl rfl rfl rfl
      refine hset.tell fun event hmem => ?_
      split at hmem
      · exact List.mem_singleton.mp hmem ▸ Bool.false_ne_true
      · exact absurd hmem List.not_mem_nil
  | shuffled h => exact of_piles (Piles.perm_of_shuffle h)
  | reshuffled h => exact (of_piles (Piles.perm_of_reshuffle h)).record _
  | @drawn card piles hroom h =>
      have hput : (piles.set .hand (piles.hand ++ [card])).cards.Perm (card :: piles.cards) :=
        Piles.perm_set_cons (List.perm_append_singleton _ _)
      exact of_piles (hput.trans (Piles.perm_of_popDraw? h).symm)
  | @milled card piles event h he =>
      have hput : (piles.set .discardPile (piles.discardPile ++ [card])).cards.Perm
          (card :: piles.cards) := Piles.perm_set_cons (List.perm_append_singleton _ _)
      have hmilled := @of_piles s u _ s.rng (hput.trans (Piles.perm_of_popDraw? h).symm)
      refine hmilled.report ?_
      rcases he with rfl | rfl <;> exact Bool.false_ne_true
  | moved h he =>
      refine report (record (of_piles (Piles.perm_of_move h)) _) ?_
      rcases he with ⟨-, rfl⟩ | ⟨-, rfl⟩ <;> exact Bool.false_ne_true
  | brought h he =>
      refine (of_brought h).report ?_
      rcases he with rfl | ⟨definition, rfl⟩ <;> exact Bool.false_ne_true
  | @removed uid source card piles h =>
      have hentries := Combat.entries_of_withPiles_cons (Piles.perm_of_take? h).2
      have htaken : Sticks u s (s.withPiles piles) :=
        of_entries rfl rfl rfl ((List.sublist_cons_self _ _).subperm.trans hentries.symm.subperm)
      exact (htaken.record _).report Bool.false_ne_true
  | sent h he =>
      refine (of_sent h _).report ?_
      rcases he with ⟨-, rfl⟩ | ⟨-, rfl⟩ | ⟨-, rfl⟩ <;> exact Bool.false_ne_true
  | recalled h he =>
      refine (of_recalled h).report ?_
      rcases he with rfl | ⟨definition, rfl⟩ <;> exact Bool.false_ne_true
  | changed hf hu he hd ho =>
      refine of_changed hf hu (fun u => ?_) ho
      rcases he with rfl | rfl | ⟨delta, rfl⟩ | ⟨flag, value, rfl⟩ | rfl <;> rfl
  | issued count => exact of_issued count
  | created hu => exact (of_created hu).report Bool.false_ne_true
  | asked =>
      refine report ?_ Bool.false_ne_true
      exact of_aside rfl rfl rfl rfl rfl
  | @offered pile candidates =>
      refine report ?_ Bool.false_ne_true
      exact (of_issued candidates.length).trans (of_aside rfl rfl rfl rfl rfl)

theorem of_blow (h : Blow rules s t) : Sticks u s t := by
  cases h with
  | damaged h => exact of_damages h
  | setHealth | executed => exact (of_setCombatant _ _).report Bool.false_ne_true
  | died id =>
      have htold : Sticks u s (s.report (.death id)) :=
        ((flow u).refl s).report Bool.false_ne_true
      exact htold.record _
  | counted => exact of_aside rfl rfl rfl rfl rfl
  | acted => exact ((flow u).refl s).record _
  | buried => exact of_bury

/-! ## Plays -/

/-- A card that comes into play off the draw pile is there all the time. -/
theorem of_opens (h : Opens card s t) : Sticks u s t := by
  cases h with
  | @mk piles rng h =>
      have hentries := Combat.entries_pushInPlay.trans
        (Combat.entries_of_withPiles_cons (Piles.perm_of_popDraw? h)).symm
      have hopened : Sticks u s { s with
          combat := ({ s.combat with piles } : Combat).pushInPlay card, rng } :=
        of_entries rfl rfl rfl hentries.subperm
      exact @report s _ u hopened (.replay card.uid) Bool.false_ne_true

/-- A card whose play is over comes into a pile if it has not left its play. -/
theorem of_closes (h : Closes rules uid s t) : Sticks u s t := by
  cases h with
  | nothing => exact (flow u).refl s
  | @mk played combat h =>
      have hbefore := Combat.entries_of_takeInPlay? h
      have hlead := @leadsToPile_iff rules played
      obtain ⟨entry, -, h⟩ := Option.bind_eq_some_iff.mp h
      obtain ⟨rfl, rfl⟩ := Prod.mk.inj (Option.some.inj h)
      generalize Resolution.routeOf rules entry = route at hlead ⊢
      generalize (s.combat.inPlay.reverse.eraseP (·.card.uid == uid)).reverse = inPlay at hbefore ⊢
      have hlanded (pile : Pile) (hroute : Route.leadsToPile entry.route = true) :
          Sticks u s (({ s with combat := { s.combat with
            inPlay, piles := s.combat.piles.set pile (s.combat.piles.get pile ++ [entry.card]) } } :
              Scene).record (.landed entry.card.uid pile)) := by
        have hafter := @Combat.entries_withPiles_cons { s.combat with inPlay } entry.card _
          (Piles.perm_set_cons (List.perm_append_singleton entry.card (s.combat.piles.get pile)))
        refine record ?_ _
        refine @of_unchanged s _ [] [] u (Nat.le_refl _) (List.append_nil _).symm
          (List.append_nil _).symm (fun _ hmem => absurd hmem List.not_mem_nil)
            (fun _ other hmem _ => ?_) fun _ _ => ?_
        · rcases List.mem_cons.mp (hafter.mem_iff.mp hmem) with rfl | hmem
          · exact ⟨entry, hbefore.mem_iff.mpr List.mem_cons_self, rfl⟩
          · exact ⟨other, hbefore.mem_iff.mpr (List.mem_cons_of_mem _ hmem), rfl⟩
        · refine Combat.copiesOf_subperm_of_replaced hbefore hafter rfl fun hreturns => ?_
          rw [ActiveCard.returns_lying] at hreturns
          rw [ActiveCard.returns, hreturns, hroute, Bool.and_true]
      cases route with
      | discard => exact hlanded .discardPile (hlead.mpr (.inl rfl))
      | exhaust =>
          exact (hlanded .exhaustPile (hlead.mpr (.inr rfl))).report Bool.false_ne_true
      | banished | elsewhere =>
          exact of_entries rfl rfl rfl
            ((List.sublist_cons_self _ _).subperm.trans hbefore.symm.subperm)

/-- A card that comes into play out of the hand is there all the time. -/
theorem of_enters {cost : Int} (h : Enters card cost s t) : Sticks u s t := by
  cases h with
  | @mk piles paid cardsPlayedThisTurn cardsPlayed h hp =>
      have hentries := (Combat.entries_pushInPlay.trans
        (Combat.entries_of_withPiles_cons (Piles.perm_of_takeFrom? h).2).symm).subperm
      cases hp with
      | nothing => exact of_entries rfl rfl rfl hentries
      | @energy energy delta =>
          have hentered : Sticks u s { s with
              combat := { ({ s.combat with piles } : Combat).pushInPlay card with
                resources := { s.combat.resources with energy }, cardsPlayedThisTurn }
              stats := { s.stats with cardsPlayed } } := of_entries rfl rfl rfl hentries
          exact @report s _ u hentered (.energy delta energy) Bool.false_ne_true

/-- **Effects keep track of the instances of a card**, at any depth. -/
theorem prevails : Prevails rules Effect.Any (Sticks u) :=
  ⟨flow u, of_step, of_blow, of_opens, of_closes⟩

end Sticks

namespace Resolution

/-- **Plays keep track of the instances of a card.** Turns do not: at their end cards stop being
retained, and that is not announced. -/
theorem play_sticks (play : Play) (target : Option CombatantId) :
    Ensures (Sticks u) (Resolution.play rules play target) := by
  have hall := rules.content.permits_any
  have hwhile (card : Card) : Ensures (Sticks u) (whileInPlay rules play card target) :=
    Ensures.bind (Sticks.flow u) (Sticks.prevails.carryOut hall (fun _ _ => trivial) _) fun _ =>
      Ensures.bind (Sticks.flow u) (Sticks.prevails.happen hall _ _ _ _) fun _ =>
        Ensures.forSome (Sticks.flow u) fun _ => Sticks.prevails.happen hall _ _ _ _
  refine ⟨fun {s a t} h => ?_⟩
  rcases run_play h with ⟨-, rfl⟩ | ⟨card, piles, v, w, x, -, henters, hin, hend, h⟩
  · exact (Sticks.flow u).refl s
  · unfold charge at h
    simp only [run_bind_iff, run_modifyCombat_iff, run_combat_iff, run_lift_iff,
      run_setResources_iff] at h
    obtain ⟨_, _, rfl, _, _, ⟨rfl, rfl⟩, charged, _, ⟨-, rfl⟩, rfl⟩ := h
    have hplayed : Sticks u s x := (Sticks.of_enters henters).trans
      (((hwhile card).rel hin).trans (Sticks.of_closes (run_endPlay hend)))
    exact hplayed.trans (Sticks.of_aside rfl rfl rfl rfl rfl)

end Resolution

end CardCombat
