import CardCombat.Json.Basic
import CardCombat.Number.Decimal

/-!
# Writing JSON text

`Json.text` writes a value without blanks. A number that is not whole is written with the fewest
digits that round to it, one that is not finite as `null`.
-/

namespace CardCombat.Json.Writer

/-- The hexadecimal digit of a number below sixteen. -/
def hexDigit (n : Nat) : Char := if n < 10 then Char.ofNat (48 + n) else Char.ofNat (87 + n)

/-- The text that stands for a character in a string. -/
def escape (c : Char) : String :=
  match c with
  | '"' => "\\\""
  | '\\' => "\\\\"
  | '\x08' => "\\b"
  | '\x0c' => "\\f"
  | '\n' => "\\n"
  | '\r' => "\\r"
  | '\t' => "\\t"
  | c =>
    if c.toNat < 0x20 then
      ("\\u00".push (hexDigit (c.toNat / 16))).push (hexDigit (c.toNat % 16))
    else c.toString

/-- A string in quotes. -/
def quote (s : String) : String :=
  (s.toList.foldl (fun out c => out ++ escape c) "\"").push '"'

/-- A number from the shortest decimal of its magnitude. -/
def number (finite negative : Bool) (layout : Decimal.Layout) (magnitude : Option Decimal) :
    String :=
  if finite then
    let digits := match magnitude with
      | some d => d.text layout
      | none => "0.0"
    if negative then "-" ++ digits else digits
  else "null"

def ofFloat (x : Float) : String :=
  number x.isFinite (1 <<< 63 ≤ x.toBits.toNat) .double (Decimal.ofFloat? x)

def ofFloat32 (x : Float32) : String :=
  number x.isFinite (1 <<< 31 ≤ x.toBits.toNat) .single (Decimal.ofFloat32? x)

mutual

/-- Appends the text of a value. -/
def append (out : String) : Json → String
  | .null => out ++ "null"
  | .bool true => out ++ "true"
  | .bool false => out ++ "false"
  | .int n => out ++ toString n
  | .double x => out ++ ofFloat x
  | .single x => out ++ ofFloat32 x
  | .string s => out ++ quote s
  | .array items => (appendItems (out.push '[') true items).push ']'
  | .object members => (appendMembers (out.push '\x7b') true members).push '\x7d'
  | .unreadable => out ++ "null"

/-- Appends items, each but the first of all behind a comma. -/
def appendItems (out : String) (first : Bool) : List Json → String
  | [] => out
  | item :: items => appendItems (append (if first then out else out.push ',') item) false items

/-- Appends members, each but the first of all behind a comma. -/
def appendMembers (out : String) (first : Bool) : List (String × Json) → String
  | [] => out
  | (key, value) :: members =>
    let out := (if first then out else out.push ',') ++ quote key
    appendMembers (append (out.push ':') value) false members

end

end Writer

/-- The text of a value, without blanks. -/
def text (value : Json) : String := Writer.append "" value

end CardCombat.Json
