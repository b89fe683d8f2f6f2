import CardCombat.Resolve.Basic

/-!
# Resources

The effects that change energy and gold. A loss takes no more than there is. Every change is
reported with what is there after it.
-/

namespace CardCombat

/-- A resource after a change. -/
def Change.of (change : Change) (before amount : Int) : Except Fault Int := do
  match change with
  | .gain => Signed.add before amount
  | .lose => return max (← Signed.sub before amount) 0
  | .set => return amount

namespace Resolution

def energy (amount : Value) (change : Change) (ctx : Context) : Resolution Unit := do
  let amount ← Resolution.amount amount ctx
  let resources := (← combat).resources
  let before := resources.energy
  let energy ← change.of before amount
  setResources { resources with energy }
  if energy != before then report (.energy (← Signed.sub energy before) energy)

/-- Changes the gold, which is never negative afterwards. -/
def gold (amount : Value) (change : Change) (ctx : Context) : Resolution Unit := do
  let amount ← Resolution.amount amount ctx
  let scene ← get
  let gold := max (← change.of scene.gold amount) 0
  let delta ← Signed.sub gold scene.gold
  let goldEarned ← if 0 < delta then Unsigned.add 64 scene.stats.goldEarned delta.toNat
    else pure scene.stats.goldEarned
  set { scene with gold, stats := { scene.stats with goldEarned } }
  if delta != 0 then report (.gold delta gold)

def energyNextTurn (amount : Value) (ctx : Context) : Resolution Unit := do
  let amount ← Resolution.amount amount ctx
  if amount != 0 then
    let resources := (← combat).resources
    let energyNextTurn ← Signed.add resources.energyNextTurn amount
    setResources { resources with energyNextTurn }
    report (.energyNextTurn amount)

end Resolution

end CardCombat
