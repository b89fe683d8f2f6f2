import CardCombat.Proofs.Resolution.Congruence
import Mathlib.Logic.Function.Iterate

/-!
# Levels of nesting

The rules say what happens to an effect in two sentences. In a context that is deeper than they
allow it is skipped; in any other context it is carried out, and what it nests is carried out by the
same two sentences. `oneLevel` is these two sentences with the recursion taken out of them, and
`Resolution.carryOut` is what they come to.

Nothing in the content bounds the recursion. Cards play themselves again, powers act on what they
cause, and two combatants reflect each other's damage. The depth alone bounds it: whatever an effect
hands on, it hands on in a context of exactly the next depth. So a context of depth `d` has
`maxEffectDepth + 1 - d` levels below it, the two sentences unrolled once more than that never
come to what was put in place of their recursion, and they have one solution and no other.

## Main definitions

* `Resolution.oneLevel` -- one level, with the deeper ones left open, and with anything at all in
  place of the effects that are skipped.
* `Resolution.watched` -- all levels, with anything at all in place of the effects that are skipped.

## Main results

* `Resolution.dispatch_next` -- an effect hands on to contexts of the next depth only.
* `Resolution.iterate_oneLevel` -- after as many levels as there are, nothing is left to recur on.
* `Resolution.nesting_bounded` -- effects are carried out on boundedly many levels.
-/

namespace CardCombat.Resolution

variable {rules : Rules} {nested nested' : List Effect → Context → Resolution Unit} {ctx : Context}
  {atLimit : Resolution Unit}

/-! ## One level and all levels -/

/-- Carries out effects one after another on one level. In a context that is deeper than the rules
allow `atLimit` takes the place of each effect. The nested effects of all others are left to
`nested`. -/
def oneLevel (rules : Rules) (atLimit : Resolution Unit)
    (nested : List Effect → Context → Resolution Unit) (effects : List Effect) (ctx : Context) :
    Resolution Unit :=
  effects.forM fun effect =>
    if rules.config.maxEffectDepth < ctx.depth then atLimit else dispatch rules nested ctx effect

/-- Carries out effects one after another. In contexts that are deeper than the rules allow
`atLimit` takes the place of each effect. -/
def watched (rules : Rules) (atLimit : Resolution Unit) (effects : List Effect) (ctx : Context) :
    Resolution Unit :=
  within rules (fun effects _ => effects.forM fun _ => atLimit) (levels rules ctx.depth) effects ctx

/-- There are no levels below a depth that the rules do not allow. -/
theorem levels_of_lt {depth : Nat} (h : rules.config.maxEffectDepth < depth) :
    levels rules depth = 0 := by
  unfold levels
  omega

/-- A depth that the rules allow is one level above the next one. -/
theorem levels_of_le {depth : Nat} (h : depth ≤ rules.config.maxEffectDepth) :
    levels rules depth = levels rules (depth + 1) + 1 := by
  unfold levels
  omega

/-- To skip an effect is to do nothing in its place. -/
theorem watched_pure (rules : Rules) : watched rules (pure ()) = carryOut rules := by
  have hskip : (fun (effects : List Effect) (_ : Context) =>
      (effects.forM fun _ => (pure () : Resolution Unit))) = skip := by
    funext effects ctx
    induction effects with
    | nil => rfl
    | cons effect effects ih => exact ih
  funext effects ctx
  unfold watched carryOut
  rw [hskip]

/-! ## What is handed on -/

section Next

variable {C : Precongruence}
  (h : ∀ effects inner, inner.depth = ctx.depth + 1 →
    C.rel (nested' effects inner) (nested effects inner))

include h

/-- **An occasion hands on to the next depth** and to no other. -/
theorem react_next (owner : CombatantId) (occasion : Occasion) (cause : Option CombatantId) :
    C.rel (react rules nested' owner occasion cause ctx)
      (react rules nested owner occasion cause ctx) :=
  react_congr (fun _ => rfl) (fun _ => rfl)
    (fun _ trigger _ inner hinner => h trigger.effects inner hinner.depth)
    fun _ effects _ inner hinner => h effects inner hinner.depth

/-- **An effect hands on to the next depth** and to no other. -/
theorem dispatch_next (effect : Effect) :
    C.rel (dispatch rules nested' ctx effect) (dispatch rules nested ctx effect) := by
  have halike (triggered : Bool) (effects : List Effect) :
      Alike C nested nested' ctx triggered effects :=
    fun inner hinner => h effects inner hinner.depth
  have hshown (card : Card) (triggered : Bool) (effects : List Effect) :
      Alike C nested nested' (showing ctx card) triggered effects :=
    fun inner hinner => h effects inner hinner.depth
  have hagrees : Agrees C rules rules.content.powers rules.content.relics nested nested' ctx :=
    ⟨.refl _, fun owner occasion cause _ => react_next h owner occasion cause⟩
  exact dispatch_congr hagrees (fun _ => halike _ _) (fun _ _ _ _ _ => halike _ _)
    fun _ _ _ card => hshown card _ _

/-- **A level hands on to the next depth**, unless it is skipped. -/
theorem oneLevel_next (effects : List Effect) :
    C.rel (oneLevel rules atLimit nested' effects ctx)
      (oneLevel rules atLimit nested effects ctx) := by
  refine C.forM fun effect _ => ?_
  by_cases hdeep : rules.config.maxEffectDepth < ctx.depth
  · rw [if_pos hdeep, if_pos hdeep]
    exact C.refl atLimit
  · rw [if_neg hdeep, if_neg hdeep]
    exact dispatch_next h effect

end Next

/-! ## The recursion -/

/-- One level more changes nothing. -/
theorem oneLevel_watched (effects : List Effect) (ctx : Context) :
    oneLevel rules atLimit (watched rules atLimit) effects ctx =
      watched rules atLimit effects ctx := by
  by_cases hdeep : rules.config.maxEffectDepth < ctx.depth
  · have hall : oneLevel rules atLimit (watched rules atLimit) effects ctx =
        effects.forM fun _ => atLimit :=
      Precongruence.same.forM fun _ _ => if_pos hdeep
    rw [hall]
    unfold watched
    rw [levels_of_lt hdeep]
    rfl
  · have hlevels : levels rules ctx.depth = levels rules (ctx.depth + 1) + 1 :=
      levels_of_le (Nat.le_of_not_lt hdeep)
    unfold watched
    rw [hlevels]
    refine Precongruence.same.forM fun effect _ => ?_
    rw [if_neg hdeep]
    -- The levels of the contexts that are handed on are the levels that are left.
    refine dispatch_next (C := .same) (fun effects inner hinner => ?_) effect
    show within rules _ (levels rules inner.depth) effects inner = _
    rw [hinner]

/-- **The recursion ends.** Unrolled once more than there are levels, it never comes to what was
put in its place. -/
theorem iterate_oneLevel (beyond : List Effect → Context → Resolution Unit) {n : Nat}
    (hn : levels rules ctx.depth < n) (effects : List Effect) :
    (oneLevel rules atLimit)^[n] beyond effects ctx = watched rules atLimit effects ctx := by
  induction n generalizing effects ctx with
  | zero => exact absurd hn (Nat.not_lt_zero _)
  | succ n ih =>
      rw [Function.iterate_succ_apply', ← oneLevel_watched]
      by_cases hdeep : rules.config.maxEffectDepth < ctx.depth
      · refine Precongruence.same.forM fun effect _ => ?_
        rw [if_pos hdeep, if_pos hdeep]
        exact Precongruence.same.refl atLimit
      · have hlevels := levels_of_le (Nat.le_of_not_lt hdeep)
        refine oneLevel_next (C := .same) (fun effects inner hinner => ih ?_ effects) effects
        rw [hinner]
        omega

/-- **Effects are carried out on boundedly many levels**, whatever the content. Carrying them out is
what the rules say, one level at a time; unrolled once more than there are levels from the depth of
the context on, the rules leave nothing open; an effect and an occasion hand on to the next depth
only; and what is deeper than the rules allow changes nothing. -/
theorem nesting_bounded (rules : Rules) :
    (∀ effects ctx, oneLevel rules (pure ()) (carryOut rules) effects ctx =
      carryOut rules effects ctx) ∧
    (∀ beyond effects ctx n, rules.config.maxEffectDepth + 1 - ctx.depth < n →
      (oneLevel rules (pure ()))^[n] beyond effects ctx = carryOut rules effects ctx) ∧
    (∀ nested nested' ctx,
      (∀ effects (inner : Context), inner.depth = ctx.depth + 1 →
        nested' effects inner = nested effects inner) →
      (∀ effect, dispatch rules nested' ctx effect = dispatch rules nested ctx effect) ∧
        ∀ owner occasion cause, react rules nested' owner occasion cause ctx =
          react rules nested owner occasion cause ctx) ∧
    ∀ effects (ctx : Context) s, rules.config.maxEffectDepth < ctx.depth →
      (carryOut rules effects ctx).run s = .ok ((), s) := by
  refine ⟨fun effects ctx => ?_, fun beyond effects ctx n hn => ?_,
    fun nested nested' ctx hsame => ⟨?_, ?_⟩, fun effects ctx s hdeep => ?_⟩
  · rw [← watched_pure]
    exact oneLevel_watched effects ctx
  · rw [← watched_pure]
    exact iterate_oneLevel beyond hn effects
  · exact dispatch_next (C := .same) hsame
  · exact react_next (C := .same) hsame
  · unfold carryOut
    rw [levels_of_lt hdeep]
    rfl

/-- **The rules have one solution.** Whatever is carried out one level at a time as they say is what
they come to. -/
theorem eq_carryOut_of_oneLevel {run : List Effect → Context → Resolution Unit}
    (h : ∀ effects ctx, oneLevel rules (pure ()) run effects ctx = run effects ctx) :
    run = carryOut rules := by
  have hfixed (n : Nat) : (oneLevel rules (pure ()))^[n] run = run :=
    Function.iterate_fixed (funext fun effects => funext fun ctx => h effects ctx) n
  funext effects ctx
  rw [← watched_pure, ← iterate_oneLevel run (Nat.lt_succ_self _) effects, hfixed]

end CardCombat.Resolution

/-! ## An echo -/

namespace CardCombat

/-- A power that gives block for every block that is gained. -/
def echoRules : Rules where
  content :=
    { powers := Catalog.empty.put "echo"
        { id := "echo", name := "Echo", kind := .buff, stacking := .intensity
          triggers := [⟨.block, [.block (.fixed 1) .self]⟩] } }
  config := { maxEffectDepth := 3 }

/-- A player who holds that power. -/
def echoScene : Scene where
  combat :=
    { player := { Combatant.ofPlayer "" 10 10 with powers := [{ id := "echo", amount := 1 }] }
      resources := {}, nextCardUid := 1 }
  gold := 0
  stats := {}
  relics := []
  rng := .ofSeed 0

namespace Resolution

/-- The echo dies away on the fourth level, whatever would come after the fifth. -/
theorem nesting_bounded_of_echo :
    (∀ beyond, ((((oneLevel echoRules (pure ()))^[5] beyond [.block (.fixed 1) .self] {}).run
      echoScene).toOption.map (·.2.combat.player.block)) = some 4) ∧
      (carryOut echoRules [.block (.fixed 1) .self] { depth := 4 }).run echoScene =
        .ok ((), echoScene) := by
  obtain ⟨-, hunrolled, -, hskipped⟩ := nesting_bounded echoRules
  constructor
  · intro beyond
    rw [hunrolled beyond _ _ 5 (by decide)]
    decide +kernel
  · exact hskipped _ _ _ (by decide)

end Resolution

end CardCombat
