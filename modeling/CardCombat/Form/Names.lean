import CardCombat.Json.Record
import CardCombat.Combat.State

/-!
# Written forms of plain choices

Types whose values are just names are written as these names. `lose` may also be read as `spend`,
and `=` as `==`. Where a value can stand inside a tagged one, `read` is told by `inner` whether it
does.
-/

namespace CardCombat

def Theme.toJson (theme : Theme) : Json := .string theme.name

def Theme.read (inner : Bool) : Json → Option Theme := Json.named? inner Theme.name Theme.all

def Theme.ofJson? : Json → Option Theme := Theme.read false

def Rarity.toJson (rarity : Rarity) : Json := .string rarity.name

def Rarity.ofJson? : Json → Option Rarity := Json.named? false Rarity.name Rarity.all

def CardFlag.toJson (flag : CardFlag) : Json := .string flag.name

def CardFlag.read (inner : Bool) : Json → Option CardFlag :=
  Json.named? inner CardFlag.name CardFlag.all

def CardFlag.ofJson? : Json → Option CardFlag := CardFlag.read false

def Pile.toJson (pile : Pile) : Json := .string pile.name

def Pile.read (inner : Bool) : Json → Option Pile := Json.named? inner Pile.name Pile.all

def Pile.ofJson? : Json → Option Pile := Pile.read false

def Placement.toJson (placement : Placement) : Json := .string placement.name

def Placement.read (inner : Bool) : Json → Option Placement :=
  Json.named? inner Placement.name Placement.all

def Placement.ofJson? : Json → Option Placement := Placement.read false

def Measure.toJson (source : Measure) : Json := .string source.name

def Measure.read (inner : Bool) : Json → Option Measure :=
  Json.named? inner Measure.name Measure.all

def Measure.ofJson? : Json → Option Measure := Measure.read false

def Aim.toJson (target : Aim) : Json := .string target.name

def Aim.read (inner : Bool) : Json → Option Aim := Json.named? inner Aim.name Aim.all

def Aim.ofJson? : Json → Option Aim := Aim.read false

def Comparison.toJson (op : Comparison) : Json := .string op.name

def Comparison.read (inner : Bool) (json : Json) : Option Comparison :=
  json.named? inner Comparison.name Comparison.all <|> json.named? inner (fun _ => "==") [.eq]

def Comparison.ofJson? : Json → Option Comparison := Comparison.read false

def HealthMeasure.toJson (form : HealthMeasure) : Json := .string form.name

def HealthMeasure.read (inner : Bool) : Json → Option HealthMeasure :=
  Json.named? inner HealthMeasure.name HealthMeasure.all

def HealthMeasure.ofJson? : Json → Option HealthMeasure := HealthMeasure.read false

def Resource.toJson (resource : Resource) : Json := .string resource.name

def Resource.read (inner : Bool) : Json → Option Resource :=
  Json.named? inner Resource.name Resource.all

def Resource.ofJson? : Json → Option Resource := Resource.read false

def Element.toJson (element : Element) : Json := .string element.name

def Element.read (inner : Bool) : Json → Option Element :=
  Json.named? inner Element.name Element.all

def Element.ofJson? : Json → Option Element := Element.read false

def Change.toJson (change : Change) : Json := .string change.name

def Change.read (inner : Bool) (json : Json) : Option Change :=
  json.named? inner Change.name Change.all <|> json.named? inner (fun _ => "spend") [.lose]

def Change.ofJson? : Json → Option Change := Change.read false

def Occasion.toJson (occasion : Occasion) : Json := .string occasion.name

def Occasion.ofJson? : Json → Option Occasion := Json.named? false Occasion.name Occasion.all

def PowerKind.toJson (kind : PowerKind) : Json := .string kind.name

def PowerKind.ofJson? : Json → Option PowerKind := Json.named? false PowerKind.name PowerKind.all

def Stacking.toJson (stacking : Stacking) : Json := .string stacking.name

def Stacking.ofJson? : Json → Option Stacking := Json.named? false Stacking.name Stacking.all

def Boundary.toJson (boundary : Boundary) : Json := .string boundary.name

def Boundary.ofJson? : Json → Option Boundary := Json.named? false Boundary.name Boundary.all

def IntentKind.toJson (kind : IntentKind) : Json := .string kind.name

def IntentKind.ofJson? : Json → Option IntentKind :=
  Json.named? false IntentKind.name IntentKind.all

def Phase.toJson (phase : Phase) : Json := .string phase.name

def Phase.ofJson? : Json → Option Phase := Json.named? false Phase.name Phase.all

def Route.toJson (route : Route) : Json := .string route.name

def Route.ofJson? : Json → Option Route := Json.named? false Route.name Route.all

def CombatantId.toJson (id : CombatantId) : Json := .ofNat id.number

def CombatantId.ofJson? (json : Json) : Option CombatantId := (json.unsigned? 32).map CombatantId.mk

def CardUid.toJson (uid : CardUid) : Json := .ofNat uid.number

def CardUid.ofJson? (json : Json) : Option CardUid := (json.unsigned? 64).map CardUid.mk

end CardCombat
