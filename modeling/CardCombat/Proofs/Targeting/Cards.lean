import CardCombat.Proofs.Overflow.Ranges
import CardCombat.Proofs.Overflow.Secure

/-!
# Which cards an aim finds, filter by filter

An aim at cards is a place in which cards lie, or a card that is known by itself, under any number
of filters. The filters work from the inside to the outside: each takes the cards that the one below
it has left over, drops those that it does not admit, and keeps so many of the rest, the first ones
or a sample. Nothing that is dropped comes back and nothing is found twice, so whatever is found in
the end meets all of the filters and is no more than the least of their counts. If nothing is at
random the cards that are found are up to the combat alone.

A filter on costs computes the costs of the cards that it looks at, and a cost that leaves its range
is the only thing that can go wrong.

## Main definitions

* `CardAim.filters`, `CardAim.root`, `CardAim.pool` -- an aim taken apart, and what it chooses from.
* `CardFilter.Admits` -- what a filter asks of a card.
* `CardAim.selection` -- what filters that are not at random leave over.
* `CardAim.Finds` -- what there is to say about the cards that are found.

## Main results

* `CardAim.narrows_of_find` -- one filter.
* `CardAim.finds_of_find` -- all filters.
* `CardAim.finds_or_overflows` -- cards are found, or a cost is out of range.
-/

namespace CardCombat

variable {content : Catalog CardDefinition} {combat : Combat} {ctx : Context} {limit : Option Nat}
  {cards found kept : List Card} {card : Card} {rng rng' : Rng}

/-! ## Picking cards out of others -/

/-- Cards are picked out of others: none more often than it is there, and no more than the
limit. -/
structure Picks (limit : Option Nat) (cards found : List Card) : Prop where
  subperm : found.Subperm cards
  short : ∀ n, limit = some n → found.length ≤ n

theorem upToLimit_sublist : (upToLimit limit cards).Sublist cards := by
  cases limit with
  | none => exact .refl _
  | some n => exact List.take_sublist n cards

theorem picks_upToLimit : Picks limit cards (upToLimit limit cards) where
  subperm := upToLimit_sublist.subperm
  short n h := by
    rw [h]
    exact List.length_take_le n cards

theorem picks_sample (default : Nat) :
    Picks limit cards ((Draw.sample cards (limit.getD default)).run rng).1 := by
  obtain ⟨hlength, hsubperm⟩ := @Draw.subperm_sample _ rng cards (limit.getD default)
  refine ⟨hsubperm, fun n h => ?_⟩
  rw [hlength, h]
  exact Nat.min_le_left _ _

/-- The smaller of two bounds is kept to by keeping to one and then to the other. -/
theorem upToLimit_tighter (count limit : Option Nat) (cards : List Card) :
    upToLimit (tighter count limit) cards = upToLimit limit (upToLimit count cards) := by
  cases count with
  | none => cases limit <;> rfl
  | some m =>
      cases limit with
      | none => rfl
      | some n =>
          show cards.take (min m n) = (cards.take m).take n
          rw [List.take_take, Nat.min_comm]

theorem tighter_le {count : Option Nat} {n m : Nat} (h : count = some n ∨ limit = some n)
    (hm : ∀ least, tighter count limit = some least → m ≤ least) : m ≤ n := by
  rcases h with rfl | rfl
  · cases limit with
    | none => exact hm n rfl
    | some other => exact Nat.le_trans (hm _ rfl) (Nat.min_le_left _ _)
  · cases count with
    | none => exact hm n rfl
    | some other => exact Nat.le_trans (hm _ rfl) (Nat.min_le_right _ _)

/-! ## What a filter asks -/

/-- The energy that playing the card takes, were there no range to leave. -/
def Card.exactCost (card : Card) (definition : CardDefinition) (energy : Int) : Int :=
  match definition.costWhen card.upgraded with
  | .fixed cost => max (cost + card.costModifier) 0
  | .x => max energy 0

theorem Card.eq_exactCost_of_costToPlay {definition : CardDefinition} {energy cost : Int}
    (h : card.costToPlay definition energy = .ok cost) :
    cost = card.exactCost definition energy := by
  unfold costToPlay at h
  unfold exactCost
  cases hcost : definition.costWhen card.upgraded with
  | fixed amount =>
      rw [hcost] at h
      obtain ⟨sum, hsum, h⟩ := bind_eq_ok.mp h
      obtain ⟨-, rfl⟩ := Signed.add_eq_ok_iff.mp hsum
      exact (Except.ok.inj h).symm
  | x =>
      rw [hcost] at h
      exact (Except.ok.inj h).symm

namespace CardFilter

variable {filter : CardFilter}

/-- What a filter asks of a card: a definition of the theme that it names, if it names one, and a
cost within the bound that it sets, if it sets one. -/
def Admits (filter : CardFilter) (content : Catalog CardDefinition) (combat : Combat)
    (card : Card) : Prop :=
  (∀ theme ∈ filter.theme, ∃ definition ∈ content.find? card.definition,
      definition.theme = theme) ∧
    ∀ bound ∈ filter.maxCost, ∃ definition ∈ content.find? card.definition,
      card.exactCost definition combat.resources.energy ≤ bound

instance : DecidablePred (filter.Admits content combat) :=
  fun _ => inferInstanceAs (Decidable (_ ∧ _))

/-- **A filter accepts the cards that it admits.** -/
theorem accepts_iff_admits {accepted : Bool}
    (h : filter.accepts content combat card = .ok accepted) :
    accepted = true ↔ filter.Admits content combat card := by
  unfold accepts at h
  unfold Admits
  split at h
  case isTrue hnone =>
    obtain rfl := Except.ok.inj h
    simp_all
  case isFalse hsome =>
    cases hfind : content.find? card.definition with
    | none =>
        rw [hfind] at h
        obtain rfl := Except.ok.inj h
        cases htheme : filter.theme <;> cases hcost : filter.maxCost <;> simp_all
    | some definition =>
        have htheme : filter.theme.all (definition.theme == ·) = true ↔
            ∀ theme ∈ filter.theme, ∃ other ∈ some definition, other.theme = theme := by
          cases filter.theme <;> simp
        rw [hfind] at h
        dsimp only at h
        split at h
        case h_1 bound hbound =>
          obtain ⟨cost, hcost, h⟩ := bind_eq_ok.mp h
          obtain rfl := Card.eq_exactCost_of_costToPlay hcost
          obtain rfl := Except.ok.inj h
          rw [Bool.and_eq_true, htheme, hbound]
          simp
        case h_2 hbound =>
          obtain rfl := Except.ok.inj h
          rw [Bool.and_true, htheme, hbound]
          simp

/-- A filter looks at a card if it sets no bound on costs, or if the cost of the card is in
range. -/
theorem accepts_succeeds (h : filter.maxCost ≠ none → ∀ definition,
    content.find? card.definition = some definition → card.CostInRange definition) :
    Succeeds (filter.accepts content combat card) := by
  unfold accepts
  split
  · exact succeeds_pure true
  · split
    · exact succeeds_pure false
    · next definition hfind =>
      split
      · next bound hbound =>
        have hrange : card.CostInRange definition := h (by simp [hbound]) definition hfind
        obtain ⟨cost, hcost⟩ : Succeeds (card.costToPlay definition combat.resources.energy) :=
          Card.costToPlay_succeeds_iff.mpr hrange
        rw [hcost]
        exact succeeds_pure _
      · exact succeeds_pure _

end CardFilter

/-! ## An aim taken apart -/

namespace CardAim

variable {target : CardAim}

/-- The filters of an aim, from the outermost to the innermost. -/
def filters : CardAim → List CardFilter
  | .filtered (.mk base count random theme maxCost) =>
    .mk base count random theme maxCost :: base.filters
  | _ => []

/-- What an aim is aimed at under all of its filters. -/
def root : CardAim → CardAim
  | .filtered (.mk base _ _ _ _) => base.root
  | target => target

/-- The cards that an aim chooses from, in their order: those of a pile, the one in a certain place
of it, or a card that is known by itself. -/
def pool (combat : Combat) (ctx : Context) (target : CardAim) : List Card :=
  match target.root with
  | .hand => combat.piles.hand
  | .drawPile => combat.piles.drawPile
  | .discardPile => combat.piles.discardPile
  | .exhaustPile => combat.piles.exhaustPile
  | .leftmostHand => combat.piles.hand.head?.toList
  | .rightmostHand => combat.piles.hand.getLast?.toList
  | .topOfDraw => combat.piles.drawPile.head?.toList
  | .randomFrom pile => combat.piles.get pile
  | .thisCard => (ctx.card.bind combat.card?).toList
  | .lastPlayed => combat.lastPlayed.toList
  | .current => ctx.currentCard.toList
  | .filtered _ => []

/-- Nothing about the aim is at random. -/
def Settled (target : CardAim) : Prop :=
  (∀ pile, target.root ≠ .randomFrom pile) ∧ ∀ filter ∈ target.filters, filter.random = false

end CardAim

/-- What a filter that is not at random leaves over: the first of the cards that it admits. -/
def CardFilter.leftOver (content : Catalog CardDefinition) (combat : Combat) (filter : CardFilter)
    (cards : List Card) : List Card :=
  upToLimit filter.count (cards.filter (filter.Admits content combat ·))

namespace CardAim

variable {target : CardAim}

/-- What filters that are not at random leave over, level by level from the inside. -/
def selection (content : Catalog CardDefinition) (combat : Combat) (ctx : Context)
    (target : CardAim) : List Card :=
  target.filters.foldr (·.leftOver content combat) (target.pool combat ctx)

/-- The costs that the filters of an aim can come to look at are in range. -/
def CostsInRange (content : Catalog CardDefinition) (combat : Combat) (ctx : Context)
    (target : CardAim) : Prop :=
  ∀ filter ∈ target.filters, filter.maxCost ≠ none → ∀ card ∈ target.pool combat ctx,
    ∀ definition, content.find? card.definition = some definition → card.CostInRange definition

/-- The cards that an aim has found, and what has become of the generator. -/
structure Finds (content : Catalog CardDefinition) (combat : Combat) (ctx : Context)
    (limit : Option Nat) (target : CardAim) (rng : Rng) (found : List Card) (rng' : Rng) :
    Prop where
  /-- Every card is one of those that the aim chooses from, and none is found more often than it is
  there. -/
  chosen : found.Subperm (target.pool combat ctx)
  limited : ∀ n, limit = some n → found.length ≤ n
  counted : ∀ filter ∈ target.filters, ∀ n, filter.count = some n → found.length ≤ n
  admitted : ∀ filter ∈ target.filters, ∀ card ∈ found, filter.Admits content combat card
  /-- If nothing is at random then nothing is drawn, and the cards are up to the filters alone. -/
  settled : target.Settled →
    rng' = rng ∧ found = upToLimit limit (target.selection content combat ctx)

/-! ## Level by level -/

/-- Cards are picked out of those that an aim without filters is aimed at. -/
theorem Finds.of_picks (hfilters : target.filters = [])
    (hpicks : Picks limit (target.pool combat ctx) found)
    (hsettled : target.Settled →
      rng' = rng ∧ found = upToLimit limit (target.pool combat ctx)) :
    Finds content combat ctx limit target rng found rng' where
  chosen := hpicks.subperm
  limited := hpicks.short
  counted := by
    rw [hfilters]
    exact List.forall_mem_nil _
  admitted := by
    rw [hfilters]
    exact List.forall_mem_nil _
  settled h := by
    unfold selection
    rw [hfilters]
    exact hsettled h

/-- **Without a filter** cards are the first ones, or a sample. -/
theorem finds_of_plain (hfilters : target.filters = [])
    (h : (target.find content combat ctx limit).run rng = .ok (found, rng')) :
    Finds content combat ctx limit target rng found rng' := by
  unfold find at h
  cases target with
  | filtered filter =>
      obtain ⟨base, count, random, theme, maxCost⟩ := filter
      exact absurd hfilters (List.cons_ne_nil _ _)
  | randomFrom pile =>
      obtain ⟨rfl, -⟩ := Prod.mk.inj (Except.ok.inj h)
      exact .of_picks hfilters (picks_sample 1) fun hsettled => absurd rfl (hsettled.1 pile)
  | _ =>
      obtain ⟨rfl, rfl⟩ := Prod.mk.inj (Except.ok.inj h)
      exact .of_picks hfilters picks_upToLimit fun _ => ⟨rfl, rfl⟩

/-- **One filter** drops the cards that it does not admit, and picks among the rest. -/
theorem narrows_of_find {base : CardAim} {count : Option Nat} {random : Bool}
    {theme : Option Theme} {maxCost : Option Int} (h :
      ((filtered (.mk base count random theme maxCost)).find content combat ctx limit).run rng =
        .ok (found, rng')) :
    let admits := (CardFilter.mk base count random theme maxCost).Admits content combat
    ∃ below between, (base.find content combat ctx none).run rng = .ok (below, between) ∧
      Picks (tighter count limit) (below.filter (admits ·)) found ∧
      (random = false →
        rng' = between ∧ found = upToLimit (tighter count limit) (below.filter (admits ·))) := by
  unfold find CardFilter.find at h
  obtain ⟨⟨below, between⟩, hbelow, h⟩ := bind_eq_ok.mp h
  obtain ⟨⟨kept, _⟩, hfilter, h⟩ := bind_eq_ok.mp h
  obtain ⟨hkept, rfl⟩ := run_filterM_iff.mp hfilter
  obtain rfl := eq_filter_of_filterM CardFilter.accepts_iff_admits hkept
  refine ⟨below, _, hbelow, ?_⟩
  cases random with
  | true =>
      obtain ⟨rfl, -⟩ := Prod.mk.inj (Except.ok.inj h)
      exact ⟨picks_sample _, nofun⟩
  | false =>
      obtain ⟨rfl, rfl⟩ := Prod.mk.inj (Except.ok.inj h)
      exact ⟨picks_upToLimit, fun _ => ⟨rfl, rfl⟩⟩

/-- One more filter around an aim. -/
theorem Finds.filtered {base : CardAim} {count : Option Nat} {random : Bool}
    {theme : Option Theme} {maxCost : Option Int} {below : List Card} {between : Rng}
    (hinner : Finds content combat ctx none base rng below between)
    (hpicks : Picks (tighter count limit) (below.filter
      ((CardFilter.mk base count random theme maxCost).Admits content combat ·)) found)
    (hfixed : random = false → rng' = between ∧ found = upToLimit (tighter count limit)
      (below.filter ((CardFilter.mk base count random theme maxCost).Admits content combat ·))) :
    Finds content combat ctx limit (.filtered (.mk base count random theme maxCost)) rng found
      rng' := by
  have hfound : found.Subperm below := hpicks.subperm.trans List.filter_sublist.subperm
  refine ⟨hfound.trans hinner.chosen, fun n hn => tighter_le (.inr hn) hpicks.short, ?_, ?_, ?_⟩
  · intro filter hmem n hn
    rcases List.mem_cons.mp hmem with rfl | hmem
    · exact tighter_le (.inl hn) hpicks.short
    · exact Nat.le_trans hfound.length_le (hinner.counted filter hmem n hn)
  · intro filter hmem card hcard
    rcases List.mem_cons.mp hmem with rfl | hmem
    · exact of_decide_eq_true (List.mem_filter.mp (hpicks.subperm.subset hcard)).2
    · exact hinner.admitted filter hmem card (hfound.subset hcard)
  · rintro ⟨hroot, hfilters⟩
    obtain ⟨hrandom, hbase⟩ := List.forall_mem_cons.mp hfilters
    obtain ⟨rfl, rfl⟩ := hfixed hrandom
    obtain ⟨rfl, rfl⟩ := hinner.settled ⟨hroot, hbase⟩
    refine ⟨rfl, ?_⟩
    rw [upToLimit_tighter]
    rfl

/-- **All filters**, from the inside to the outside. -/
theorem finds_of_find (h : (target.find content combat ctx limit).run rng = .ok (found, rng')) :
    Finds content combat ctx limit target rng found rng' := by
  induction target using filters.induct generalizing limit found rng rng' with
  | case1 base count random theme maxCost ih =>
      obtain ⟨below, between, hbelow, hpicks, hfixed⟩ := narrows_of_find h
      exact (ih hbelow).filtered hpicks hfixed
  | case2 target hplain => exact finds_of_plain (filters.eq_2 target hplain) h

/-- Cards are found if the costs that are looked at are in range. -/
theorem succeeds_find (hcosts : target.CostsInRange content combat ctx) :
    Succeeds ((target.find content combat ctx limit).run rng) := by
  induction target using filters.induct generalizing limit rng with
  | case1 base count random theme maxCost ih =>
      obtain ⟨⟨below, between⟩, hbelow⟩ := @ih none rng
        fun filter hmem => hcosts filter (List.mem_cons_of_mem _ hmem)
      obtain ⟨kept, hkept⟩ : Succeeds (below.filterM
          ((CardFilter.mk base count random theme maxCost).accepts content combat)) := by
        refine succeeds_filterM_iff.mpr fun card hmem => CardFilter.accepts_succeeds ?_
        intro hbound
        exact hcosts _ List.mem_cons_self hbound card ((finds_of_find hbelow).chosen.subset hmem)
      unfold find CardFilter.find
      refine succeeds_bind.mpr ⟨_, hbelow, ?_⟩
      refine succeeds_bind.mpr ⟨_, run_filterM_iff.mpr ⟨hkept, rfl⟩, ?_⟩
      cases random <;> exact succeeds_pure _
  | case2 target hplain =>
      unfold find
      cases target with
      | filtered filter =>
          obtain ⟨base, count, random, theme, maxCost⟩ := filter
          exact absurd rfl (hplain _ _ _ _ _)
      | _ => exact succeeds_pure _

/-! ## No card twice -/

theorem nodup_pool (hdistinct : combat.piles.uids.Nodup) :
    ((target.pool combat ctx).map (·.uid)).Nodup := by
  have hpile (pile : Pile) : ((combat.piles.get pile).map (·.uid)).Nodup := by
    have hperm : ((combat.piles.set pile []).cards ++ combat.piles.get pile).Perm
        combat.piles.cards := List.append_nil combat.piles.cards ▸ Piles.perm_set []
    have hall := (hperm.map Card.uid).nodup_iff.mpr hdistinct
    rw [List.map_append] at hall
    exact hall.of_append_right
  have hone (card : Option Card) : (card.toList.map (·.uid)).Nodup := by
    cases card <;> simp
  unfold pool
  split
  · exact hpile .hand
  · exact hpile .drawPile
  · exact hpile .discardPile
  · exact hpile .exhaustPile
  · exact hone _
  · exact hone _
  · exact hone _
  · exact hpile _
  · exact hone _
  · exact hone _
  · exact hone _
  · exact List.nodup_nil

theorem Finds.nodup (h : Finds content combat ctx limit target rng found rng')
    (hdistinct : combat.piles.uids.Nodup) : (found.map (·.uid)).Nodup := by
  obtain ⟨ordered, hperm, hsub⟩ := h.chosen
  exact (hperm.map _).nodup_iff.mp ((nodup_pool hdistinct).sublist (hsub.map _))

theorem selection_sublist :
    (target.selection content combat ctx).Sublist (target.pool combat ctx) := by
  unfold selection
  induction target.filters with
  | nil => exact .refl _
  | cons filter filters ih => exact upToLimit_sublist.trans (List.filter_sublist.trans ih)

/-- **Cards are found as an aim says**, each of them once and in order unless something is at
random, or the cost of a card that a filter asks for is out of range. -/
theorem finds_or_overflows (hdistinct : combat.piles.uids.Nodup) (content : Catalog CardDefinition)
    (ctx : Context) (limit : Option Nat) (target : CardAim) (rng : Rng) :
    (∃ found rng', (target.find content combat ctx limit).run rng = .ok (found, rng') ∧
      Finds content combat ctx limit target rng found rng' ∧ (found.map (·.uid)).Nodup ∧
      (target.Settled → found.Sublist (target.pool combat ctx))) ∨
    (∃ operation, (target.find content combat ctx limit).run rng = .error (.overflow operation)) ∧
      ¬target.CostsInRange content combat ctx := by
  cases h : (target.find content combat ctx limit).run rng with
  | ok pair =>
      obtain ⟨found, rng'⟩ := pair
      have hfinds := finds_of_find h
      refine .inl ⟨found, rng', rfl, hfinds, hfinds.nodup hdistinct, fun hsettled => ?_⟩
      obtain ⟨-, rfl⟩ := hfinds.settled hsettled
      exact upToLimit_sublist.trans selection_sublist
  | error cause =>
      right
      obtain ⟨operation, rfl⟩ := Resolution.find_onlyOverflows target limit rng cause h
      refine ⟨⟨operation, rfl⟩, fun hcosts => ?_⟩
      obtain ⟨pair, hpair⟩ := @succeeds_find content combat ctx limit rng target hcosts
      exact absurd (h.symm.trans hpair) nofun

end CardAim

/-! ## Two filters -/

/-- A definition of a card without effects. -/
def blankCard (id : CardId) (theme : Theme) (cost : Int) : CardDefinition where
  id := id
  name := id
  theme := theme
  cost := .fixed cost

/-- Cheap and dear cards of two themes. -/
def assortment : Catalog CardDefinition :=
  ⟨[blankCard "jab" .attack 0, blankCard "hook" .attack 1, blankCard "haymaker" .attack 3,
    blankCard "feint" .skill 0].map fun definition => (definition.id, definition)⟩

/-- A hand of six cards, one of which is made dearer. -/
def fistful : Combat where
  player := .ofPlayer "" 10 10
  resources := {}
  nextCardUid := 7
  piles := { hand :=
    [{ uid := ⟨1⟩, definition := "feint" }, { uid := ⟨2⟩, definition := "jab", costModifier := 2 },
      { uid := ⟨3⟩, definition := "haymaker" }, { uid := ⟨4⟩, definition := "hook" },
      { uid := ⟨5⟩, definition := "jab" }, { uid := ⟨6⟩, definition := "jab" }] }

/-- The first two cards that cost one at most, among the first four attacks in the hand. -/
def cheapAttacks : CardAim :=
  .filtered (.mk (.filtered (.mk .hand (some 4) false (some .attack) none)) (some 2) false none
    (some 1))

/-- The last attack is passed over by the inner filter and the dear ones by the outer one, which
leaves two cards; a limit leaves one of them. -/
theorem CardAim.finds_cheapAttacks :
    fistful.piles.uids.Nodup ∧ cheapAttacks.Settled ∧
      (cheapAttacks.selection assortment fistful {}).map (·.uid.number) = [4, 5] ∧
      ((∃ found rng', (cheapAttacks.find assortment fistful {} (some 1)).run (.ofSeed 0) =
          .ok (found, rng') ∧
        Finds assortment fistful {} (some 1) cheapAttacks (.ofSeed 0) found rng' ∧
        (found.map (·.uid)).Nodup ∧
        (cheapAttacks.Settled → found.Sublist (cheapAttacks.pool fistful {}))) ∨
      (∃ operation, (cheapAttacks.find assortment fistful {} (some 1)).run (.ofSeed 0) =
          .error (.overflow operation)) ∧
        ¬cheapAttacks.CostsInRange assortment fistful {}) := by
  have hdistinct : fistful.piles.uids.Nodup := by decide
  have hsettled : cheapAttacks.Settled :=
    ⟨nofun, by simp [cheapAttacks, filters, CardFilter.random]⟩
  exact ⟨hdistinct, hsettled, by decide, finds_or_overflows hdistinct _ _ _ _ _⟩

end CardCombat
