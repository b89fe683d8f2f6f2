import CardCombat.Proofs.Action.Upkeep

/-!
# The books of energy and gold

Energy and gold change in a few places only, and every change is told by an event that says by how
much and what is there now. So the events are the books of both: read in their order they lead from
the balance before to the balance after, and each of them shows the balance that it leaves.

What is looked at here is a scene reduced to what the books are about, its `Holdings`. Most steps of
a resolution leave the holdings alone but for the events.

## Main definitions

* `Balances` -- postings that lead from one balance to another.
* `Reconciles` -- the events that were told account for what has become of the holdings.
* `Booked` -- from one scene to another the books are kept.

## Main results

* `booked_prevails` -- effects keep the books.
-/

namespace CardCombat

/-! ## Postings -/

/-- By how much something has changed, and what is there afterwards. -/
structure Posting where
  delta : Int
  balance : Int
  deriving DecidableEq

namespace Posting

/-- All changes together. -/
def total : List Posting → Int
  | [] => 0
  | posting :: postings => posting.delta + total postings

/-- All gains together. -/
def gains : List Posting → Nat
  | [] => 0
  | posting :: postings => posting.delta.toNat + gains postings

variable {postings postings' : List Posting}

theorem total_append : total (postings ++ postings') = total postings + total postings' := by
  induction postings with
  | nil => exact (Int.zero_add _).symm
  | cons posting postings ih => rw [List.cons_append, total, total, ih, Int.add_assoc]

theorem gains_append : gains (postings ++ postings') = gains postings + gains postings' := by
  induction postings with
  | nil => exact (Nat.zero_add _).symm
  | cons posting postings ih => rw [List.cons_append, gains, gains, ih, Nat.add_assoc]

end Posting

/-- The postings lead from one balance to another, and each of them shows the balance right after
it. -/
structure Balances (first : Int) (postings : List Posting) (last : Int) : Prop where
  last_eq : last = first + Posting.total postings
  balance_eq : ∀ {earlier posting later}, postings = earlier ++ posting :: later →
    posting.balance = first + Posting.total (earlier ++ [posting])

namespace Balances

variable {first middle last : Int} {postings postings' : List Posting}

theorem nil (first : Int) : Balances first [] first where
  last_eq := (Int.add_zero first).symm
  balance_eq heq := absurd heq (by simp)

theorem single {delta : Int} (h : last = first + delta) :
    Balances first [⟨delta, last⟩] last where
  last_eq := by rw [Posting.total, Posting.total, Int.add_zero, h]
  balance_eq heq := by
    obtain ⟨rfl, heq⟩ | ⟨_, -, heq⟩ := List.cons_eq_append_iff.mp heq
    · obtain ⟨rfl, -⟩ := List.cons.inj heq
      rw [List.nil_append, Posting.total, Posting.total, Int.add_zero]
      exact h
    · exact absurd heq (by simp)

theorem append (h : Balances first postings middle) (h' : Balances middle postings' last) :
    Balances first (postings ++ postings') last where
  last_eq := by rw [Posting.total_append, h'.last_eq, h.last_eq, Int.add_assoc]
  balance_eq {earlier posting later} heq := by
    have hlater {rest : List Posting} (hrest : postings' = rest ++ posting :: later) :
        posting.balance = first + Posting.total (postings ++ rest ++ [posting]) := by
      rw [h'.balance_eq hrest, h.last_eq, Int.add_assoc, ← Posting.total_append, List.append_assoc]
    rcases List.append_eq_append_iff.mp heq with ⟨rest, rfl, hrest⟩ | ⟨rest, rfl, hrest⟩
    · exact hlater hrest
    · cases rest with
      | nil =>
          have hfirst : postings' = [] ++ posting :: later := hrest.symm
          simpa using hlater hfirst
      | cons found rest =>
          obtain ⟨rfl, -⟩ := List.cons.inj hrest
          exact h.balance_eq rfl

end Balances

/-! ## What events tell of energy and gold -/

namespace Event

/-- What an event tells of energy. -/
def energyPosting? : Event → Option Posting
  | .energy delta balance => some ⟨delta, balance⟩
  | _ => none

/-- What an event tells of gold. -/
def goldPosting? : Event → Option Posting
  | .gold delta balance => some ⟨delta, balance⟩
  | _ => none

/-- What events tell of energy. -/
def energyPostings (told : List Event) : List Posting := told.filterMap energyPosting?

/-- What events tell of gold. -/
def goldPostings (told : List Event) : List Posting := told.filterMap goldPosting?

theorem energyPostings_append (told told' : List Event) :
    energyPostings (told ++ told') = energyPostings told ++ energyPostings told' :=
  List.filterMap_append

theorem goldPostings_append (told told' : List Event) :
    goldPostings (told ++ told') = goldPostings told ++ goldPostings told' :=
  List.filterMap_append

/-- The events that tell neither of energy nor of gold. -/
def IsAside (event : Event) : Prop := event.energyPosting? = none ∧ event.goldPosting? = none

theorem IsNotice.isAside {event : Event} (h : event.IsNotice) : event.IsAside := by
  cases event with
  | energy | gold => exact h.elim
  | _ => exact ⟨rfl, rfl⟩

theorem IsOfCombatant.isAside {event : Event} (h : event.IsOfCombatant) : event.IsAside := by
  cases event with
  | energy | gold => exact h.elim
  | _ => exact ⟨rfl, rfl⟩

theorem IsSign.isAside {event : Event} (h : event.IsSign) : event.IsAside := by
  cases event with
  | energy | gold => exact h.elim
  | _ => exact ⟨rfl, rfl⟩

theorem postings_of_aside {told : List Event} (h : ∀ event ∈ told, event.IsAside) :
    energyPostings told = [] ∧ goldPostings told = [] :=
  ⟨List.filterMap_eq_nil_iff.mpr fun event hmem => (h event hmem).1,
    List.filterMap_eq_nil_iff.mpr fun event hmem => (h event hmem).2⟩

end Event

/-! ## Holdings -/

/-- What the books are about: energy, gold, all the gold that was ever gained, and the books
themselves. -/
structure Holdings where
  energy : Int
  gold : Int
  goldEarned : Nat
  events : Array Event

/-- The holdings of the player. -/
def Scene.holdings (scene : Scene) : Holdings where
  energy := scene.combat.resources.energy
  gold := scene.gold
  goldEarned := scene.stats.goldEarned
  events := scene.combat.events

/-- What was told accounts for what has become of the holdings: the postings of energy and those of
gold lead from one balance to the next, gains of gold are counted, and there are no debts unless
there were any before. -/
structure Reconciles (told : List Event) (before after : Holdings) : Prop where
  events : after.events = before.events ++ told.toArray
  energy : Balances before.energy (Event.energyPostings told) after.energy
  gold : Balances before.gold (Event.goldPostings told) after.gold
  goldEarned : after.goldEarned = before.goldEarned + Posting.gains (Event.goldPostings told)
  solvent : 0 ≤ before.gold → 0 ≤ after.gold

namespace Reconciles

variable {told told' : List Event} {before middle after : Holdings}

/-- Nothing is told of energy and gold, and nothing has become of them. -/
theorem aside (htold : ∀ event ∈ told, event.IsAside)
    (h : after = { before with events := before.events ++ told.toArray }) :
    Reconciles told before after := by
  subst h
  obtain ⟨henergy, hgold⟩ := Event.postings_of_aside htold
  exact ⟨rfl, henergy ▸ .nil _, hgold ▸ .nil _, by rw [hgold]; rfl, id⟩

theorem append (h : Reconciles told before middle) (h' : Reconciles told' middle after) :
    Reconciles (told ++ told') before after where
  events := by rw [h'.events, h.events, Array.append_assoc, List.append_toArray told told']
  energy := Event.energyPostings_append told told' ▸ h.energy.append h'.energy
  gold := Event.goldPostings_append told told' ▸ h.gold.append h'.gold
  goldEarned := by
    rw [h'.goldEarned, h.goldEarned, Event.goldPostings_append, Posting.gains_append, Nat.add_assoc]
  solvent hs := h'.solvent (h.solvent hs)

end Reconciles

/-! ## Scenes -/

/-- From one scene to another the books are kept, and energy is charged only if something
`charges` it. -/
def Booked (charges : Prop) (s t : Scene) : Prop :=
  ∃ told, Reconciles told s.holdings t.holdings ∧ (¬charges → Event.energyPostings told = [])

namespace Booked

variable {rules : Rules} {may : Effect → Prop} {charges : Prop} {s t : Scene}

theorem aside {told : List Event} (htold : ∀ event ∈ told, event.IsAside)
    (h : t.holdings = { s.holdings with events := s.holdings.events ++ told.toArray }) :
    Booked charges s t :=
  ⟨told, .aside htold h, fun _ => (Event.postings_of_aside htold).1⟩

theorem of_same (h : t.holdings = s.holdings) : Booked charges s t :=
  aside (fun _ hmem => absurd hmem List.not_mem_nil) (by rw [h]; simp)

theorem flow : Resolution.Flow (Booked charges) where
  refl _ := of_same rfl
  trans := by
    rintro s t u ⟨told, h, hcharge⟩ ⟨told', h', hcharge'⟩
    refine ⟨told ++ told', h.append h', fun hno => ?_⟩
    rw [Event.energyPostings_append]
    exact List.append_eq_nil_iff.mpr ⟨hcharge hno, hcharge' hno⟩

theorem report (h : Booked charges s t) {event : Event} (he : event.IsAside) :
    Booked charges s (t.report event) := by
  have htold : ∀ other ∈ [event], other.IsAside := fun other hmem => List.mem_singleton.mp hmem ▸ he
  exact flow.trans h (aside htold (congrArg (Holdings.mk _ _ _) Array.push_eq_append))

theorem tell (h : Booked charges s t) {told : List Event} (htold : ∀ event ∈ told, event.IsAside) :
    Booked charges s (t.tell told) :=
  flow.trans h (aside htold (by rw [Scene.tell_eq]; rfl))

theorem of_setCombatant (id : CombatantId) (combatant : Combatant) :
    Booked charges s (s.setCombatant id combatant) := by
  refine of_same ?_
  unfold Scene.setCombatant Scene.putCombatant Combat.setCombatant
  split <;> split <;> rfl

theorem of_damages {source target : CombatantId} {outcome : DamageReport}
    (h : Damages source target outcome s t) : Booked charges s t := by
  cases h with
  | @mk before after amount element piercing stats hc h hs =>
      obtain ⟨damageDealt, damageTaken, rfl⟩ := Stats.countDamage_eq hs
      have hset : Booked charges s (s.setCombatant target after) := of_setCombatant _ _
      have haside : (Event.damage target amount outcome.blocked element).IsAside := ⟨rfl, rfl⟩
      refine flow.trans (hset.report haside) (of_same ?_)
      unfold Scene.setCombatant
      split <;> rfl

/-- A change of energy that is told as it is. -/
theorem charge {delta energy : Int} (h : energy = s.combat.resources.energy + delta)
    (hc : charges) :
    Booked charges s
      ((s.withResources { s.combat.resources with energy }).report (.energy delta energy)) := by
  refine ⟨[.energy delta energy], ?_, fun hno => absurd hc hno⟩
  have hbalances : Balances s.holdings.energy [⟨delta, energy⟩] energy := .single h
  exact ⟨Array.push_eq_append, hbalances, .nil _, rfl, id⟩

/-- A change of gold that is told as it is. -/
theorem earn {delta gold : Int} {goldEarned : Nat} (h : gold = s.gold + delta)
    (hn : 0 ≤ gold) (he : goldEarned = s.stats.goldEarned + delta.toNat) :
    Booked charges s
      (({ s with gold, stats := { s.stats with goldEarned } } : Scene).report
        (.gold delta gold)) := by
  refine ⟨[.gold delta gold], ?_, fun _ => rfl⟩
  have hbalances : Balances s.holdings.gold [⟨delta, gold⟩] gold := .single h
  exact ⟨Array.push_eq_append, .nil _, hbalances, he, fun _ => hn⟩

/-- **A step keeps the books**, and charges energy only if it is an energy effect that may be
carried out. -/
theorem of_step (h : Step rules may s t) :
    Booked (∃ value change, may (.energy value change)) s t := by
  cases h with
  | told h => exact (flow.refl s).report h.isAside
  | altered hc h =>
      exact (of_setCombatant _ _).tell fun event hmem => (h.isOfCombatant event hmem).isAside
  | damaged h => exact of_damages h
  | energy h he hmay =>
      rcases he with ⟨rfl, rfl⟩ | ⟨delta, -, hsub, rfl⟩
      · exact of_same rfl
      · obtain ⟨-, rfl⟩ := Signed.sub_eq_ok_iff.mp hsub
        obtain ⟨value, hmay, -⟩ := hmay
        exact charge (by omega) ⟨value, _, hmay⟩
  | @gold change amount raw delta goldEarned h hd he =>
      obtain ⟨-, hdelta⟩ := Signed.sub_eq_ok_iff.mp hd
      have hearned : goldEarned = s.stats.goldEarned + delta.toNat := by
        split at he
        · exact (Unsigned.add_eq_ok_iff.mp he).2
        · obtain rfl := Except.ok.inj he
          omega
      have hgold : max raw 0 = s.gold + delta := by omega
      by_cases hd : delta = 0
      · subst hd
        rw [hgold, hearned, Int.add_zero]
        exact of_same rfl
      · rw [if_pos (by simpa using hd)]
        exact earn hgold (Int.le_max_right raw 0) hearned
  | energyNextTurn => exact report (of_same rfl) ⟨rfl, rfl⟩
  | milled h he =>
      refine report (of_same rfl) ?_
      rcases he with rfl | rfl <;> exact ⟨rfl, rfl⟩
  | moved h he =>
      refine report (of_same rfl) ?_
      rcases he with ⟨-, rfl⟩ | ⟨-, rfl⟩ <;> exact ⟨rfl, rfl⟩
  | brought h he =>
      refine report (of_same rfl) ?_
      rcases he with rfl | ⟨definition, rfl⟩ <;> exact ⟨rfl, rfl⟩
  | sent h he =>
      refine report (of_same rfl) ?_
      rcases he with ⟨-, rfl⟩ | ⟨-, rfl⟩ | ⟨-, rfl⟩ <;> exact ⟨rfl, rfl⟩
  | recalled h he =>
      refine report (of_same rfl) ?_
      rcases he with rfl | ⟨definition, rfl⟩ <;> exact ⟨rfl, rfl⟩
  | changed hf hu he =>
      refine report (of_same ?_) ?_
      · exact Combat.same_modifyCard (fun combat => Scene.holdings { s with combat }) fun _ _ => rfl
      · rcases he with rfl | rfl | ⟨delta, rfl⟩ | ⟨flag, value, rfl⟩ | rfl <;> exact ⟨rfl, rfl⟩
  | removed | created | asked | offered => exact report (of_same rfl) ⟨rfl, rfl⟩
  | drew | acted | shuffled | reshuffled | drawn | issued => exact of_same rfl

theorem of_blow (h : Blow rules s t) : Booked charges s t := by
  cases h with
  | damaged h => exact of_damages h
  | setHealth => exact (of_setCombatant _ _).report ⟨rfl, rfl⟩
  | executed => exact (of_setCombatant _ _).report ⟨rfl, rfl⟩
  | died id =>
      have haside : (Event.death id).IsAside := ⟨rfl, rfl⟩
      exact flow.trans ((flow.refl s).report haside) (of_same rfl)
  | counted | acted | buried => exact of_same rfl

theorem of_opens {card : Card} (h : Opens card s t) : Booked charges s t := by
  cases h with
  | @mk piles rng h =>
      have hpopped : Booked charges s { s.withPiles piles with rng } := of_same rfl
      have haside : (Event.replay card.uid).IsAside := ⟨rfl, rfl⟩
      exact flow.trans (hpopped.report haside) (of_same rfl)

theorem of_closes {uid : CardUid} (h : Closes rules uid s t) : Booked charges s t := by
  cases h with
  | nothing => exact flow.refl s
  | @mk played combat h =>
      obtain ⟨entry, -, h⟩ := Option.bind_eq_some_iff.mp h
      obtain ⟨rfl, rfl⟩ := Prod.mk.inj (Option.some.inj h)
      generalize Resolution.routeOf rules entry = route
      cases route with
      | discard | banished | elsewhere => exact of_same rfl
      | exhaust => exact report (of_same rfl) ⟨rfl, rfl⟩

end Booked

/-- **Effects keep the books**, and charge energy only if there are energy effects among those that
may be carried out. -/
theorem booked_prevails {rules : Rules} {may : Effect → Prop} :
    Prevails rules may (Booked (∃ value change, may (.energy value change))) :=
  ⟨Booked.flow, Booked.of_step, Booked.of_blow, Booked.of_opens, Booked.of_closes⟩

end CardCombat
