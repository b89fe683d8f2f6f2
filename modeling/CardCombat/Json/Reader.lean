import CardCombat.Json.Basic
import CardCombat.Number.Decimal

/-!
# Reading JSON text

`Json.parse?` reads one value that fills a text up to blanks. The grammar is strict: no trailing
comma, no comment, no leading zero, no raw control character in a string. A value that the grammar
admits and that still denotes nothing is read as `Json.unreadable`.

Each step of the reader spends one unit of fuel and passes at least one character every second
step, so twice the length of the text is enough fuel for all of it.
-/

namespace CardCombat.Json.Reader

def isBlank (c : Char) : Bool := c = ' ' || c = '\n' || c = '\t' || c = '\r'

def skipBlanks (cs : List Char) : List Char := cs.dropWhile isBlank

def digitValue (c : Char) : Nat := c.toNat - '0'.toNat

/-! ## Strings -/

/-- The value of a hexadecimal digit. -/
def hexValue? (c : Char) : Option Nat :=
  if '0' ≤ c ∧ c ≤ '9' then some (c.toNat - '0'.toNat)
  else if 'a' ≤ c ∧ c ≤ 'f' then some (c.toNat - 'a'.toNat + 10)
  else if 'A' ≤ c ∧ c ≤ 'F' then some (c.toNat - 'A'.toNat + 10)
  else none

/-- The number that four hexadecimal digits stand for. -/
def hexQuad? (a b c d : Char) : Option Nat := do
  return (((← hexValue? a) * 16 + (← hexValue? b)) * 16 + (← hexValue? c)) * 16 + (← hexValue? d)

/-- The character that a backslash and a letter stand for. -/
def escaped? : Char → Option Char
  | '"' => some '"'
  | '\\' => some '\\'
  | '/' => some '/'
  | 'b' => some '\x08'
  | 'f' => some '\x0c'
  | 'n' => some '\n'
  | 'r' => some '\r'
  | 't' => some '\t'
  | _ => none

/-- Reads a string behind its opening quote. The characters so far stand in reverse in `done`, the
upper half of a surrogate pair that waits for its lower half in `upper`. The string is nothing if
it holds half a pair. -/
def readString : List Char → (done : List Char) → (upper : Option Nat) → (whole : Bool) →
    Option (Option String × List Char)
  | '"' :: rest, done, upper, whole =>
    some (if whole && upper.isNone then some (String.ofList done.reverse) else none, rest)
  | '\\' :: 'u' :: a :: b :: c :: d :: rest, done, upper, whole => do
    let unit ← hexQuad? a b c d
    if 0xD800 ≤ unit ∧ unit < 0xDC00 then
      readString rest done (some unit) (whole && upper.isNone)
    else if 0xDC00 ≤ unit ∧ unit < 0xE000 then
      match upper with
      | some high =>
        readString rest (Char.ofNat (0x10000 + (high - 0xD800) * 0x400 + (unit - 0xDC00)) :: done)
          none whole
      | none => readString rest done none false
    else
      readString rest (Char.ofNat unit :: done) none (whole && upper.isNone)
  | '\\' :: c :: rest, done, upper, whole => do
    readString rest ((← escaped? c) :: done) none (whole && upper.isNone)
  | c :: rest, done, upper, whole =>
    if c.toNat < 0x20 then none else readString rest (c :: done) none (whole && upper.isNone)
  | [], _, _, _ => none

/-! ## Numbers -/

/-- The digits at the front, and the rest. -/
def takeDigits (cs : List Char) : List Nat × List Char :=
  ((cs.takeWhile Char.isDigit).map digitValue, cs.dropWhile Char.isDigit)

/-- The number with the given digits. -/
def ofDigits (digits : List Nat) : Nat := digits.foldl (fun n digit => n * 10 + digit) 0

/-- Reads the digits of a fraction, if there is one. -/
def readFraction : List Char → Option (Option (List Nat) × List Char)
  | '.' :: rest =>
    match takeDigits rest with
    | ([], _) => none
    | (digits, rest) => some (some digits, rest)
  | rest => some (none, rest)

/-- Reads the digits of an exponent behind its sign. -/
def readExponentDigits (sign : Int) (cs : List Char) : Option (Option Int × List Char) :=
  match takeDigits cs with
  | ([], _) => none
  | (digits, rest) => some (some (sign * ofDigits digits), rest)

/-- Reads an exponent, if there is one. -/
def readExponent : List Char → Option (Option Int × List Char)
  | c :: rest =>
    if c = 'e' ∨ c = 'E' then
      match rest with
      | '+' :: rest => readExponentDigits 1 rest
      | '-' :: rest => readExponentDigits (-1) rest
      | rest => readExponentDigits 1 rest
    else some (none, c :: rest)
  | [] => some (none, [])

/-- The whole number with a sign; a negative zero is no whole number. -/
def ofWhole (negative : Bool) (magnitude : Nat) : Json :=
  let n : Int := if negative then -magnitude else magnitude
  if negative && magnitude = 0 then .double (-0.0)
  else if magnitude < 1 <<< 64 || (Decimal.ofInt? n).isSome then .int n
  else .unreadable

/-- The number with a sign, digits before and after the point, and an exponent. -/
def ofParts (negative : Bool) (whole fraction : List Nat) (exponent : Int) : Json :=
  match (Decimal.ofDigits whole fraction exponent).toFloat? with
  | some x => .double (if negative then -x else x)
  | none => .unreadable

/-- Reads a number behind its sign. -/
def readNumber (negative : Bool) (cs : List Char) : Option (Json × List Char) := do
  let (whole, rest) := takeDigits cs
  if whole.isEmpty || (whole.head? = some 0 && 1 < whole.length) then none
  else
    let (fraction, rest) ← readFraction rest
    let (exponent, rest) ← readExponent rest
    match fraction, exponent with
    | none, none => return (ofWhole negative (ofDigits whole), rest)
    | _, _ => return (ofParts negative whole (fraction.getD []) (exponent.getD 0), rest)

/-! ## Values -/

/-- Adds a member in front, unless its key or the object so far cannot be used. -/
def addMember (key : Option String) (value : Json) : Option (List (String × Json)) →
    Option (List (String × Json))
  | some members => key.map fun key => (key, value) :: members
  | none => none

mutual

/-- Reads a value; `levels` more containers may be entered. -/
def readValue : Nat → Nat → List Char → Option (Json × List Char)
  | 0, _, _ => none
  | fuel + 1, levels, cs =>
    match skipBlanks cs with
    | 'n' :: 'u' :: 'l' :: 'l' :: rest => some (.null, rest)
    | 't' :: 'r' :: 'u' :: 'e' :: rest => some (.bool true, rest)
    | 'f' :: 'a' :: 'l' :: 's' :: 'e' :: rest => some (.bool false, rest)
    | '"' :: rest =>
      match readString rest [] none true with
      | some (some s, rest) => some (.string s, rest)
      | some (none, rest) => some (.unreadable, rest)
      | none => none
    | '[' :: rest =>
      match skipBlanks rest with
      | ']' :: rest => some (if levels = 0 then .unreadable else .array [], rest)
      | rest => readItems fuel levels [] rest
    | '\x7b' :: rest =>
      match skipBlanks rest with
      | '\x7d' :: rest => some (if levels = 0 then .unreadable else .object [], rest)
      | rest => readMembers fuel levels (some []) rest
    | '-' :: rest => readNumber true rest
    | rest => readNumber false rest

/-- Reads the items of an array from the first one on, those so far standing in reverse. -/
def readItems : Nat → Nat → List Json → List Char → Option (Json × List Char)
  | 0, _, _, _ => none
  | fuel + 1, levels, done, cs =>
    match readValue fuel (levels - 1) cs with
    | none => none
    | some (item, rest) =>
      match skipBlanks rest with
      | ',' :: rest => readItems fuel levels (item :: done) rest
      | ']' :: rest =>
        some (if levels = 0 then .unreadable else .array (item :: done).reverse, rest)
      | _ => none

/-- Reads the members of an object from the first one on, those so far standing in reverse. -/
def readMembers : Nat → Nat → Option (List (String × Json)) → List Char →
    Option (Json × List Char)
  | 0, _, _, _ => none
  | fuel + 1, levels, done, cs =>
    match skipBlanks cs with
    | '"' :: rest =>
      match readString rest [] none true with
      | none => none
      | some (key, rest) =>
        match skipBlanks rest with
        | ':' :: rest =>
          match readValue fuel (levels - 1) rest with
          | none => none
          | some (value, rest) =>
            match skipBlanks rest with
            | ',' :: rest => readMembers fuel levels (addMember key value done) rest
            | '\x7d' :: rest =>
              match levels, addMember key value done with
              | _ + 1, some members => some (.object members.reverse, rest)
              | _, _ => some (.unreadable, rest)
            | _ => none
        | _ => none
    | _ => none

end

end Reader

/-- The deepest nesting of containers that can be used. -/
def maxDepth : Nat := 127

/-- The value that fills a text up to blanks. -/
def parse? (text : String) : Option Json :=
  let cs := text.toList
  match Reader.readValue (2 * cs.length + 2) maxDepth cs with
  | some (value, rest) => if (Reader.skipBlanks rest).isEmpty then some value else none
  | none => none

end CardCombat.Json
