import CardCombat.Action.Basic

/-!
# Answering a selection

The player answers a selection by naming as many of its candidates as it asks for, none of them
twice. The candidates that were chosen are dealt with in the order in which they were offered.
-/

namespace CardCombat

/-- Whether the cards that were named are an answer to a selection. -/
def Selection.check (selection : Selection) (chosen : List CardUid) : Except ChoiceError Unit :=
  if chosen.length < selection.min || selection.max < chosen.length then
    .error (.wrongNumber selection.min selection.max chosen.length)
  else
    match chosen.find? (!selection.isCandidate ·) with
    | some uid => .error (.notCandidate uid)
    | none => if chosen.Nodup then .ok () else .error .duplicate

/-- Deals with the candidates that were chosen. -/
def Resolution.settleSelection (rules : Rules) (selection : Selection) (chosen : List CardUid) :
    Resolution Unit := do
  Resolution.modifyCombat ({ · with pending := none })
  (selection.candidates.filter (chosen.contains ·.uid)).forM
    (Resolution.settleChoice rules selection.kind)

/-- Answers the selection that waits for it. -/
def Rules.answerSelection (rules : Rules) (run : Run) (chosen : List CardUid) :
    Except (Failure ActionError) Run := do
  let combat ← run.currentCombat
  combat.checkTurn
  match combat.pending with
  | none => throw (.rejected .noPendingSelection)
  | some selection =>
    match selection.check chosen with
    | .error reason => throw (.rejected (.invalidSelection reason))
    | .ok () => run.advance (Resolution.settleSelection rules selection chosen)

end CardCombat
