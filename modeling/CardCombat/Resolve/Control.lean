import CardCombat.Resolve.Condition
import CardCombat.Resolve.Basic

/-!
# Control

The effects that decide which effects are carried out, how often and for whom. All of them carry
out other effects one level deeper.
-/

namespace CardCombat.Resolution

variable (rules : Rules) (nested : List Effect → Context → Resolution Unit)

def conditional (condition : Condition) (yes no : List Effect) (ctx : Context) :
    Resolution Unit := do
  let scene ← get
  let branch := if ← condition.holds scene.combat scene.gold ctx then yes else no
  nested branch (← ctx.deeper)

def repeated (repetitions : Value) (effects : List Effect) (ctx : Context) : Resolution Unit := do
  let repetitions ← count repetitions ctx
  let inner ← ctx.deeper
  times repetitions (nested effects inner)

/-- Carries out one of several branches, drawn by weight. -/
def randomChoice (choices : List Branch) (ctx : Context) : Resolution Unit := do
  match (← draw (Draw.weighted (choices.map (·.weight)))).bind (choices[·]?) with
  | none => return
  | some choice => nested choice.effects (← ctx.deeper)

def sequence (effects : List Effect) (ctx : Context) : Resolution Unit := do
  nested effects (← ctx.deeper)

/-- Carries out effects once for everyone, or for every card, that the aim finds. -/
def forEach (target : Subject) (effects : List Effect) (ctx : Context) : Resolution Unit := do
  match target with
  | .combatant target =>
    (← targets target ctx).forM fun id => do
      nested effects (← ctx.atTarget id)
  | .card target =>
    forCards rules target none ctx fun card => do
      nested effects (← ctx.atCard card)

end CardCombat.Resolution
