import CardCombat.Proofs.Deck.Shuffles
import CardCombat.Proofs.Resolution.Total

/-!
# Drawing cards

Cards are drawn one by one, and three things end it: enough were drawn, the hand is full, or there
is no card left in the draw pile and in the discard pile. In between the discard pile may have to be
shuffled. Put together that is a sum: so many cards are drawn as were asked for, as the hand has
room for, and as there are in the two piles, whichever is least. They come off the draw pile in its
order, and if the draw pile is too short for what was asked for and fits into the hand, then the
discard pile, shuffled once, goes on where the draw pile has ended.

## Main definitions

* `Piles.drawable` -- how many cards are drawn.
* `Piles.drawing` -- the piles after so many cards were drawn.
* `Drawing` -- all that has changed when cards were drawn.

## Main results

* `Resolution.draws_of_upTo` -- the cards that are drawn one by one, by induction on their number.
* `Resolution.drawCards_exact` -- drawing cards always comes to an end, and does just that.
-/

namespace CardCombat

variable {rules : Rules} {s t u : Scene} {limit count number : Nat}

/-! ## Piles that are drawn from -/

namespace Piles

variable {piles : Piles}

/-- How many of so many cards the hand still has room for. -/
def wanted (piles : Piles) (limit count : Nat) : Nat := min count (limit - piles.hand.length)

/-- How many of so many cards are drawn: those that the hand has room for, as long as there are
cards in the draw pile and in the discard pile. -/
def drawable (piles : Piles) (limit count : Nat) : Nat :=
  min (piles.wanted limit count) (piles.drawPile.length + piles.discardPile.length)

/-- The draw pile has fewer cards than are wanted, and there is a discard pile to go on with. -/
def RunsOut (piles : Piles) (wanted : Nat) : Prop :=
  piles.drawPile.length < wanted ∧ piles.discardPile ≠ []

instance (piles : Piles) (wanted : Nat) : Decidable (piles.RunsOut wanted) :=
  inferInstanceAs (Decidable (_ ∧ _))

/-- The piles after so many cards were drawn off the draw pile and what lies in some order under
it. -/
def drawing (piles : Piles) (number : Nat) (order : List Card) : Piles :=
  { piles with
    hand := piles.hand ++ (piles.drawPile ++ order).take number
    drawPile := (piles.drawPile ++ order).drop number }

theorem drawing_zero : piles.drawing 0 [] = piles := by
  simp [drawing]

/-- The first card is drawn before the others. -/
theorem drawing_succ {card : Card} {rest order : List Card} (h : piles.drawPile = card :: rest) :
    piles.drawing (number + 1) order =
      ({ piles with hand := piles.hand ++ [card], drawPile := rest } : Piles).drawing
        number order := by
  simp [drawing, h]

theorem drawing_nil (piles : Piles) (number : Nat) :
    piles.drawing number [] = { piles with
      hand := piles.hand ++ piles.drawPile.take number
      drawPile := piles.drawPile.drop number } := by
  simp [drawing]

/-- The whole draw pile is drawn, and more. -/
theorem drawing_add (piles : Piles) (more : Nat) (order : List Card) :
    piles.drawing (piles.drawPile.length + more) order = { piles with
      hand := piles.hand ++ piles.drawPile ++ order.take more
      drawPile := order.drop more } := by
  simp [drawing, List.take_length_add_append, List.drop_length_add_append]

end Piles

/-! ## One card -/

namespace Scene

/-- The scene after the shuffled discard pile was put into an empty draw pile, which was told. -/
def reshuffled (scene : Scene) (order : List Card) (rng : Rng) : Scene :=
  (({ scene.withPiles { scene.combat.piles with drawPile := order, discardPile := [] } with
    rng } : Scene).record (.merged scene.combat.piles.discardPile.length)).report
      (.shuffle scene.combat.piles.discardPile.length)

/-- The scene after the top card of the draw pile came into the hand, and left the others. -/
def drawTop (scene : Scene) (card : Card) (rest : List Card) : Scene :=
  scene.withPiles
    { scene.combat.piles with hand := scene.combat.piles.hand ++ [card], drawPile := rest }

theorem merges_reshuffled {order : List Card} {rng : Rng}
    (hdiscard : s.combat.piles.discardPile ≠ []) :
    (s.reshuffled order rng).merges = s.merges + 1 := by
  unfold reshuffled
  rw [merges_report, merges_record, Deed.merges, if_pos (by simpa using hdiscard)]
  rfl

end Scene

/-- What it comes to when a card is to be drawn: the hand is full, the top card of the draw pile is
drawn, there are no cards, or the discard pile is shuffled and its new top card is drawn. -/
inductive DrawsCard (limit : Nat) (s : Scene) : Bool → Scene → Prop
  | full (hfull : limit ≤ s.combat.piles.hand.length) : DrawsCard limit s false s
  | spent (hdraw : s.combat.piles.drawPile = []) (hdiscard : s.combat.piles.discardPile = []) :
      DrawsCard limit s false (s.record (.merged 0))
  | top {card rest} (hroom : s.combat.piles.hand.length < limit)
      (hdraw : s.combat.piles.drawPile = card :: rest) :
      DrawsCard limit s true (s.drawTop card rest)
  | anew {card rest rng} (hroom : s.combat.piles.hand.length < limit)
      (hdraw : s.combat.piles.drawPile = []) (hdiscard : s.combat.piles.discardPile ≠ [])
      (hrun : (Draw.shuffle s.combat.piles.discardPile).run s.rng = (card :: rest, rng)) :
      DrawsCard limit s true ((s.reshuffled (card :: rest) rng).drawTop card rest)

namespace Resolution

/-- The draw pile is filled: it stays as it is, there is nothing to fill it with, or the shuffled
discard pile comes in its place. -/
theorem run_refill_cases (h : refill.run s = .ok ((), t)) :
    (s.combat.piles.drawPile ≠ [] ∧ s = t) ∨
      (s.combat.piles.drawPile = [] ∧ s.combat.piles.discardPile = [] ∧
        s.record (.merged 0) = t) ∨
      (s.combat.piles.drawPile = [] ∧ s.combat.piles.discardPile ≠ [] ∧ ∃ order rng,
        (Draw.shuffle s.combat.piles.discardPile).run s.rng = (order, rng) ∧
          s.reshuffled order rng = t) := by
  unfold refill at h
  obtain ⟨_, _, hcombat, h⟩ := run_bind_iff.mp h
  obtain ⟨rfl, rfl⟩ := run_combat_iff.mp hcombat
  rcases run_onlyIf_iff.mp h with ⟨hempty, h⟩ | ⟨hcards, rfl⟩
  case inr =>
    refine .inl ⟨?_, rfl⟩
    intro hnil
    simp [hnil] at hcards
  case inl =>
    have hdraw : s.combat.piles.drawPile = [] := List.isEmpty_iff.mp hempty
    obtain ⟨moved, v, hmoved, h⟩ := run_bind_iff.mp h
    rcases run_reshuffle_cases hmoved with
      ⟨hdiscard, rfl, rfl⟩ | ⟨hdiscard, rfl, order, rng, hrun, rfl⟩
    · exact .inr (.inl ⟨hdraw, hdiscard, (run_pure_iff.mp h).2⟩)
    · have hmoved : (s.combat.piles.discardPile.length != 0) = true := by simpa using hdiscard
      rw [hmoved] at h
      rw [hdraw, List.nil_append] at hrun
      exact .inr (.inr ⟨hdraw, hdiscard, order, rng, hrun, run_report_iff.mp h⟩)

/-- **One card is drawn**, or there is no room for it, or there are no cards. -/
theorem drawCard_cases {drawn : Bool} (h : (drawCard rules).run s = .ok (drawn, t)) :
    DrawsCard rules.config.handLimit s drawn t := by
  unfold drawCard at h
  obtain ⟨_, _, hcombat, h⟩ := run_bind_iff.mp h
  obtain ⟨rfl, rfl⟩ := run_combat_iff.mp hcombat
  split at h
  case isTrue hfull =>
    obtain ⟨rfl, rfl⟩ := run_pure_iff.mp h
    exact .full hfull
  case isFalse hfull =>
    have hroom : s.combat.piles.hand.length < rules.config.handLimit := Nat.lt_of_not_le hfull
    obtain ⟨_, v, hrefill, h⟩ := run_bind_iff.mp h
    obtain ⟨found, w, hfound, h⟩ := run_bind_iff.mp h
    cases found with
    | none =>
        obtain ⟨hnil, rfl⟩ := run_popDraw?_none hfound
        obtain ⟨rfl, rfl⟩ := run_pure_iff.mp h
        rcases run_refill_cases hrefill with
          ⟨hcards, rfl⟩ | ⟨hdraw, hdiscard, rfl⟩ | ⟨-, hdiscard, order, rng, hrun, rfl⟩
        · exact absurd hnil hcards
        · exact .spent hdraw hdiscard
        · -- a discard pile with cards gives a draw pile with cards
          obtain rfl : order = [] := hnil
          exact absurd (Draw.perm_of_shuffle hrun).symm.eq_nil hdiscard
    | some card =>
        obtain ⟨piles, hpop, rfl⟩ := run_popDraw?_some hfound
        obtain ⟨rest, htop, rfl⟩ := Piles.popDraw?_eq_some_iff.mp hpop
        simp only [run_bind_iff, run_intoHand_iff, run_pure_iff] at h
        obtain ⟨_, _, rfl, rfl, rfl⟩ := h
        rcases run_refill_cases hrefill with
          ⟨hcards, rfl⟩ | ⟨hdraw, -, rfl⟩ | ⟨hdraw, hdiscard, order, rng, hrun, rfl⟩
        · exact .top hroom htop
        · exact absurd (hdraw.symm.trans htop) nofun
        · obtain rfl : order = card :: rest := htop
          exact .anew hroom hdraw hdiscard hrun

end Resolution

/-! ## Cards one by one -/

/-- So many cards were drawn one by one: from the draw pile alone, or from the discard pile as well,
which was shuffled when the draw pile was used up. -/
inductive Draws (number : Nat) (s t : Scene) : Prop
  | straight (hle : number ≤ s.combat.piles.drawPile.length)
      (hcombat : t.combat = { s.combat with piles := s.combat.piles.drawing number [] })
      (hrng : t.rng = s.rng) (hmerges : t.merges = s.merges)
      (hothers : t.gold = s.gold ∧ t.stats = s.stats ∧ t.relics = s.relics)
  | anew {order : List Card} (hlt : s.combat.piles.drawPile.length < number)
      (hle : number ≤ s.combat.piles.drawPile.length + s.combat.piles.discardPile.length)
      (hrun : (Draw.shuffle s.combat.piles.discardPile).run s.rng = (order, t.rng))
      (hcombat : t.combat = { s.combat with
        piles := { s.combat.piles with discardPile := [] }.drawing number order
        events := s.combat.events.push (.shuffle s.combat.piles.discardPile.length) })
      (hmerges : t.merges = s.merges + 1)
      (hothers : t.gold = s.gold ∧ t.stats = s.stats ∧ t.relics = s.relics)

namespace Draws

variable {card : Card} {rest order : List Card} {rng : Rng}

theorem none (s : Scene) : Draws 0 s s :=
  .straight (Nat.zero_le _) (by rw [Piles.drawing_zero]) rfl rfl ⟨rfl, rfl, rfl⟩

/-- The top card is drawn before the others. -/
theorem of_top (hdraw : s.combat.piles.drawPile = card :: rest)
    (h : Draws number (s.drawTop card rest) t) : Draws (number + 1) s t := by
  have hlength : s.combat.piles.drawPile.length = rest.length + 1 := by simp [hdraw]
  cases h with
  | straight hle hcombat hrng hmerges hothers =>
      have hle : number ≤ rest.length := hle
      refine .straight (by omega) ?_ hrng hmerges hothers
      rw [Piles.drawing_succ hdraw]
      exact hcombat
  | anew hlt hle hrun hcombat hmerges hothers =>
      have hlt : rest.length < number := hlt
      have hle : number ≤ rest.length + s.combat.piles.discardPile.length := hle
      refine .anew (by omega) (by omega) hrun ?_ hmerges hothers
      rw [@Piles.drawing_succ number { s.combat.piles with discardPile := [] } _ _ _ hdraw]
      exact hcombat

/-- The discard pile is shuffled before cards are drawn from it. -/
theorem of_reshuffled (hpos : 0 < number) (hdraw : s.combat.piles.drawPile = [])
    (hdiscard : s.combat.piles.discardPile ≠ [])
    (hrun : (Draw.shuffle s.combat.piles.discardPile).run s.rng = (order, rng))
    (h : Draws number (s.reshuffled order rng) t) : Draws number s t := by
  have hlength : order.length = s.combat.piles.discardPile.length :=
    (Draw.perm_of_shuffle hrun).length_eq
  cases h with
  | straight hle hcombat hrng hmerges hothers =>
      have hle : number ≤ order.length := hle
      have hrng : t.rng = rng := hrng
      refine .anew (by simpa [hdraw] using hpos) (by omega) (hrng ▸ hrun) ?_
        (hmerges.trans (Scene.merges_reshuffled hdiscard)) hothers
      rw [hcombat]
      simp [Piles.drawing, Scene.reshuffled, Scene.report, Scene.record, Scene.withPiles,
        Combat.report, hdraw]
  | anew hlt hle =>
      -- the discard pile was used up, so it is not shuffled a second time
      have hlt : order.length < number := hlt
      have hle : number ≤ order.length + 0 := hle
      omega

end Draws

/-- **Cards are drawn one by one** as long as they are wanted, fit into the hand and are there. -/
theorem Resolution.draws_of_upTo (h : (upTo count (drawCard rules)).run s = .ok (number, t)) :
    number = s.combat.piles.drawable rules.config.handLimit count ∧ Draws number s t := by
  induction count generalizing s number with
  | zero =>
      obtain ⟨rfl, rfl⟩ := run_pure_iff.mp h
      exact ⟨by simp [Piles.drawable, Piles.wanted], .none s⟩
  | succ count ih =>
      obtain ⟨drawn, u, hcard, h⟩ := run_bind_iff.mp h
      cases drawCard_cases hcard with
      | full hfull =>
          obtain ⟨rfl, rfl⟩ := run_pure_iff.mp h
          refine ⟨?_, .none s⟩
          unfold Piles.drawable Piles.wanted
          omega
      | spent hdraw hdiscard =>
          obtain ⟨rfl, rfl⟩ := run_pure_iff.mp h
          refine ⟨by simp [Piles.drawable, hdraw, hdiscard], ?_⟩
          refine .straight (Nat.zero_le _) ?_ rfl (Scene.merges_record _ _) ⟨rfl, rfl, rfl⟩
          rw [Piles.drawing_zero]
          rfl
      | top hroom hdraw =>
          obtain ⟨more, v, hmore, h⟩ := run_bind_iff.mp h
          obtain ⟨rfl, rfl⟩ := run_pure_iff.mp h
          obtain ⟨hnumber, hdraws⟩ := ih hmore
          refine ⟨?_, hdraws.of_top hdraw⟩
          rw [hnumber]
          simp [Piles.drawable, Piles.wanted, Scene.drawTop, Scene.withPiles, hdraw]
          omega
      | @anew card rest rng hroom hdraw hdiscard hrun =>
          obtain ⟨more, v, hmore, h⟩ := run_bind_iff.mp h
          obtain ⟨rfl, rfl⟩ := run_pure_iff.mp h
          obtain ⟨hnumber, hdraws⟩ := ih hmore
          have hlength : rest.length + 1 = s.combat.piles.discardPile.length :=
            (Draw.perm_of_shuffle hrun).length_eq
          refine ⟨?_, (hdraws.of_top rfl).of_reshuffled (Nat.succ_pos _) hdraw hdiscard hrun⟩
          rw [hnumber]
          simp [Piles.drawable, Piles.wanted, Scene.drawTop, Scene.reshuffled, Scene.withPiles,
            Scene.record, Scene.report, Combat.report, hdraw, ← hlength]
          omega

/-! ## Drawing cards -/

namespace Piles

variable {piles : Piles}

theorem runsOut_of_lt (h : piles.drawPile.length < piles.drawable limit count) :
    piles.RunsOut (piles.wanted limit count) := by
  unfold drawable at h
  refine ⟨by omega, fun hnil => ?_⟩
  simp only [hnil, List.length_nil] at h
  omega

theorem not_runsOut_of_le (h : piles.drawable limit count ≤ piles.drawPile.length) :
    ¬ piles.RunsOut (piles.wanted limit count) := by
  rintro ⟨hlt, hdiscard⟩
  have hpos := List.length_pos_iff.mpr hdiscard
  unfold drawable at h
  omega

end Piles

/-- All that changes when so many cards are to be drawn. -/
structure Drawing (limit count : Nat) (s t : Scene) : Prop where
  /-- As many cards as are wanted, as there is room for, and as there are come into the hand, after
  those that it has held. -/
  hand : ∃ drawn : List Card,
    drawn.length = min (min count (limit - s.combat.piles.hand.length))
      (s.combat.piles.drawPile.length + s.combat.piles.discardPile.length) ∧
    t.combat.piles.hand = s.combat.piles.hand ++ drawn
  /-- No card is lost or made. -/
  cards : (t.combat.piles.hand ++ t.combat.piles.drawPile ++ t.combat.piles.discardPile).Perm
    (s.combat.piles.hand ++ s.combat.piles.drawPile ++ s.combat.piles.discardPile)
  exhaustPile : t.combat.piles.exhaustPile = s.combat.piles.exhaustPile
  /-- The top of the draw pile is drawn in its order, and nothing is drawn at random. -/
  straight : ¬ s.combat.piles.RunsOut (s.combat.piles.wanted limit count) →
    t.combat.piles = { s.combat.piles with
      hand := s.combat.piles.hand ++
        s.combat.piles.drawPile.take (s.combat.piles.drawable limit count)
      drawPile := s.combat.piles.drawPile.drop (s.combat.piles.drawable limit count) } ∧
    t.rng = s.rng
  /-- The whole draw pile is drawn in its order, and then cards of the shuffled discard pile. -/
  anew : s.combat.piles.RunsOut (s.combat.piles.wanted limit count) → ∃ drawn rest : List Card,
    (Draw.shuffle s.combat.piles.discardPile).run s.rng = (drawn ++ rest, t.rng) ∧
      t.combat.piles = { s.combat.piles with
        hand := s.combat.piles.hand ++ s.combat.piles.drawPile ++ drawn
        drawPile := rest
        discardPile := [] }
  /-- The discard pile is shuffled once or not at all. -/
  merges : t.merges = s.merges +
    if s.combat.piles.RunsOut (s.combat.piles.wanted limit count) then 1 else 0
  /-- The shuffle is told, and after that how many cards were drawn, if any. -/
  events : t.combat.events = s.combat.events ++
    (if s.combat.piles.RunsOut (s.combat.piles.wanted limit count) then
      #[Event.shuffle s.combat.piles.discardPile.length] else #[]) ++
    if s.combat.piles.drawable limit count = 0 then #[]
      else #[Event.draw (s.combat.piles.drawable limit count)]
  /-- Whatever is neither a card nor told stays as it is. -/
  others : t.combat = { s.combat with piles := t.combat.piles, events := t.combat.events } ∧
    t.gold = s.gold ∧ t.stats = s.stats ∧ t.relics = s.relics

/-- The scene after it was told how many cards were drawn, if any. -/
def Scene.tellDrawn (scene : Scene) (number : Nat) : Scene :=
  scene.tell (if number = 0 then [] else [.draw number])

theorem Scene.tellDrawn_eq (scene : Scene) (number : Nat) :
    scene.tellDrawn number = { scene with combat := { scene.combat with
      events := scene.combat.events ++ if number = 0 then #[] else #[Event.draw number] } } := by
  unfold tellDrawn
  rw [tell_eq]
  split <;> rfl

/-- Cards were drawn one by one, and then their number was told. -/
theorem Draws.drawing (h : Draws (s.combat.piles.drawable limit count) s t) :
    Drawing limit count s (t.tellDrawn (s.combat.piles.drawable limit count)) := by
  rw [Scene.tellDrawn_eq]
  cases h with
  | straight hle hcombat hrng hmerges hothers =>
      have hout := Piles.not_runsOut_of_le hle
      rw [Piles.drawing_nil] at hcombat
      refine
        { hand := ⟨s.combat.piles.drawPile.take (s.combat.piles.drawable limit count), ?_, ?_⟩
          cards := by simp [hcombat]
          exhaustPile := by simp [hcombat]
          straight := fun _ => ⟨by simp [hcombat], hrng⟩
          anew := fun h => absurd h hout
          merges := by
            rw [if_neg hout]
            exact hmerges
          events := by simp [hcombat, hout]
          others := ⟨by simp [hcombat], hothers⟩ }
      · rw [List.length_take, Nat.min_eq_left hle]
        rfl
      · simp [hcombat]
  | @anew order hlt hle hrun hcombat hmerges hothers =>
      have hout := Piles.runsOut_of_lt hlt
      have hperm := Draw.perm_of_shuffle hrun
      have hlength : order.length = s.combat.piles.discardPile.length := hperm.length_eq
      obtain ⟨more, hnumber⟩ := Nat.exists_eq_add_of_le (Nat.le_of_lt hlt)
      have hmore : more ≤ order.length := by omega
      rw [hnumber] at hcombat ⊢
      have hpiles := congrArg Combat.piles hcombat
      rw [Piles.drawing_add { s.combat.piles with discardPile := [] }] at hpiles
      refine
        { hand := ⟨s.combat.piles.drawPile ++ order.take more, ?_, ?_⟩
          cards := ?_
          exhaustPile := by simp [hpiles]
          straight := fun h => absurd hout h
          anew := fun _ => ⟨order.take more, order.drop more, by simpa using hrun, hpiles⟩
          merges := by
            rw [if_pos hout]
            exact hmerges
          events := by simp [hcombat, hout, hnumber]
          others := ⟨by simp [hcombat], hothers⟩ }
      · rw [List.length_append, List.length_take, Nat.min_eq_left hmore, ← hnumber]
        rfl
      · simp [hpiles]
      · simpa [hpiles] using hperm.append_left (s.combat.piles.hand ++ s.combat.piles.drawPile)

/-- **Drawing always comes to an end**: so many cards are drawn one by one, and that is told. -/
theorem Resolution.exists_draws (rules : Rules) (count : Nat) (s : Scene) :
    ∃ t, (drawCards rules count).run s = .ok ((),
        t.tellDrawn (s.combat.piles.drawable rules.config.handLimit count)) ∧
      Draws (s.combat.piles.drawable rules.config.handLimit count) s t := by
  obtain ⟨number, t, hrun⟩ := Total.upTo drawCard_total count s
  obtain ⟨rfl, hdraws⟩ := draws_of_upTo hrun
  refine ⟨t, run_bind_iff.mpr ⟨_, _, hrun, ?_⟩, hdraws⟩
  cases s.combat.piles.drawable rules.config.handLimit count with
  | zero => rfl
  | succ number => rfl

/-- **Drawing is exact**: what is drawn is the least of what is asked for, what the hand has room
for, and what there is, off the draw pile first and then off the discard pile, which is shuffled
only if it has to be. -/
theorem Resolution.drawCards_exact (rules : Rules) (count : Nat) (s : Scene) :
    ∃ t, (drawCards rules count).run s = .ok ((), t) ∧
      Drawing rules.config.handLimit count s t := by
  obtain ⟨t, hrun, hdraws⟩ := exists_draws rules count s
  exact ⟨_, hrun, hdraws.drawing⟩

end CardCombat
