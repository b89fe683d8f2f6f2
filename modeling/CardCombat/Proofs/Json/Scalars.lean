import CardCombat.Json.Reader
import CardCombat.Json.Writer

/-!
# Strings and numbers in JSON text

What the reader makes of the text of a string or of a number, wherever it stands: behind a value
there is nothing, or a comma or a closing bracket. A string is read as it was written, whatever
characters it has. A whole number of at most 64 binary digits is read as it was written, and a
number that is not whole is read as it is when its text stands alone.

## Main definitions

* `Reader.Ends` -- what stands behind a value.
* `Reader.Reads` -- a value was read, and what is left but for blanks.

## Main results

* `Reader.readString_quote`, `Reader.reads_int`, `Reader.reads_double` -- strings and numbers.
-/

namespace CardCombat.Json.Reader

open Writer

variable {rest : List Char}

/-- What can stand behind a value in a text: nothing, or what ends or goes on with a container. -/
def Ends : List Char → Prop
  | [] => True
  | c :: _ => c = ',' ∨ c = ']' ∨ c = '\x7d'

/-- A value was read, and apart from blanks the rest is left. -/
def Reads (result : Option (Json × List Char)) (value : Json) (rest : List Char) : Prop :=
  ∃ left, result = some (value, left) ∧ skipBlanks left = rest

/-! ## Strings -/

/-- The characters that stand for the characters of a string. -/
theorem toList_escapes (cs : List Char) (out : String) :
    (cs.foldl (fun out c => out ++ escape c) out).toList =
      out.toList ++ cs.flatMap fun c => (escape c).toList := by
  induction cs generalizing out with
  | nil => simp
  | cons c cs ih => simp [ih]

theorem toList_quote (s : String) :
    (quote s).toList = '"' :: (s.toList.flatMap (fun c => (escape c).toList) ++ ['"']) := by
  unfold quote
  rw [String.toList_push, toList_escapes]
  rfl

theorem hexValue?_hexDigit : ∀ n < 16, hexValue? (hexDigit n) = some n := by decide

/-- A character with a number of two hexadecimal digits is what `\u` and four digits stand for. -/
theorem hexQuad?_hexDigit {n : Nat} (hn : n < 0x20) :
    hexQuad? '0' '0' (hexDigit (n / 16)) (hexDigit (n % 16)) = some n := by
  have hzero : hexValue? '0' = some 0 := by decide
  unfold hexQuad?
  rw [hzero, hexValue?_hexDigit (n / 16) (by omega), hexValue?_hexDigit (n % 16) (by omega)]
  simp only [Option.bind_eq_bind, Option.bind_some, Option.pure_def]
  congr 1
  omega

/-- **A character** is read as it was written. -/
theorem readString_escape (c : Char) (done : List Char) :
    readString ((escape c).toList ++ rest) done none true =
      readString rest (c :: done) none true := by
  unfold escape
  split
  case h_8 hquote hslash _ _ _ _ _ =>
    split
    case isTrue hlow =>
      have htext (c d : Char) :
          (("\\u00".push c).push d).toList = ['\\', 'u', '0', '0', c, d] := by
        rw [String.toList_push, String.toList_push]
        rfl
      rw [htext]
      simp only [List.cons_append, List.nil_append, readString, hexQuad?_hexDigit hlow,
        Option.bind_eq_bind, Option.bind_some]
      rw [if_neg (by omega), if_neg (by omega), Char.ofNat_toNat]
      rfl
    case isFalse hhigh =>
      have htext : c.toString.toList = [c] := by simp
      rw [htext, List.singleton_append, readString, if_neg hhigh]
      · rfl
      all_goals simp_all
  all_goals rfl

theorem readString_escapes (cs done : List Char) :
    readString (cs.flatMap (fun c => (escape c).toList) ++ '"' :: rest) done none true =
      some (some (String.ofList (done.reverse ++ cs)), rest) := by
  induction cs generalizing done with
  | nil => simp [readString]
  | cons c cs ih =>
    rw [List.flatMap_cons, List.append_assoc, readString_escape, ih]
    simp

/-- **A string** is read as it was written. -/
theorem readString_quote (s : String) :
    readString (s.toList.flatMap (fun c => (escape c).toList) ++ '"' :: rest) [] none true =
      some (some s, rest) := by
  rw [readString_escapes, List.reverse_nil, List.nil_append, String.ofList_toList]

/-! ## Digits -/

theorem Ends.skipBlanks (h : Ends rest) : skipBlanks rest = rest := by
  cases rest with
  | nil => rfl
  | cons c rest => obtain rfl | rfl | rfl := h <;> rfl

theorem Ends.takeDigits (h : Ends rest) : takeDigits rest = ([], rest) := by
  cases rest with
  | nil => rfl
  | cons c rest => obtain rfl | rfl | rfl := h <;> rfl

/-- What is read up to what stands behind it. -/
theorem Reads.of_ends {result : Option (Json × List Char)} {value : Json} (h : Ends rest)
    (hread : result = some (value, rest)) : Reads result value rest :=
  ⟨rest, hread, h.skipBlanks⟩

/-- Digits end where they end when they stand alone. -/
theorem takeDigits_append (cs : List Char) (h : Ends rest) :
    takeDigits (cs ++ rest) = ((takeDigits cs).1, (takeDigits cs).2 ++ rest) := by
  induction cs with
  | nil => exact h.takeDigits
  | cons c cs ih =>
    have hdigits := Prod.mk.inj ih
    by_cases hc : c.isDigit
    · unfold Reader.takeDigits at hdigits ⊢
      simp only [List.cons_append, List.takeWhile_cons_of_pos hc, List.dropWhile_cons_of_pos hc,
        List.map_cons, hdigits.1, hdigits.2]
    · unfold Reader.takeDigits
      simp only [List.cons_append, List.takeWhile_cons_of_neg hc, List.dropWhile_cons_of_neg hc,
        List.map_nil]

theorem digitValue_digitChar {n : Nat} (hn : n < 10) : digitValue n.digitChar = n :=
  Nat.toNat_digitChar_sub_48_of_lt_ten hn

/-- The digits of a number are read as the number. -/
theorem ofDigits_toDigits (n : Nat) : ofDigits ((Nat.toDigits 10 n).map digitValue) = n := by
  unfold ofDigits
  rw [List.foldl_map]
  refine .trans ?_ Nat.ofDigitChars_ten_toDigits
  rw [Nat.ofDigitChars_eq_foldl]
  simp only [Nat.mul_comm 10]
  rfl

/-- A number begins with a zero only if it is zero. -/
theorem exists_leading {n : Nat} (hn : 0 < n) :
    ∃ d ds, d ≠ 0 ∧ (Nat.toDigits 10 n).map digitValue = d :: ds := by
  induction n using Nat.strongRecOn with
  | ind n ih =>
    by_cases hlow : n < 10
    · rw [Nat.toDigits_of_lt_base hlow]
      exact ⟨n, [], by omega, by simp [digitValue_digitChar hlow]⟩
    · obtain ⟨d, ds, hd, hdigits⟩ := ih (n / 10) (by omega) (by omega)
      rw [Nat.toDigits_of_base_le (by omega) (by omega), List.map_append, hdigits]
      exact ⟨d, _, hd, rfl⟩

/-- The digits of a number are those that are read. -/
theorem takeDigits_toDigits (n : Nat) (h : Ends rest) :
    takeDigits (Nat.toDigits 10 n ++ rest) = ((Nat.toDigits 10 n).map digitValue, rest) := by
  have hdigits (c : Char) (hmem : c ∈ Nat.toDigits 10 n) : c.isDigit :=
    Nat.isDigit_of_mem_toDigits (by omega) (by omega) hmem
  obtain ⟨hnone, hrest⟩ := Prod.mk.inj h.takeDigits
  unfold Reader.takeDigits
  rw [List.takeWhile_append_of_pos hdigits, List.dropWhile_append_of_pos hdigits, List.map_append,
    hnone, hrest, List.append_nil]

/-! ## Whole numbers -/

theorem readFraction_of_ends (h : Ends rest) : readFraction rest = some (none, rest) := by
  cases rest with
  | nil => rfl
  | cons c rest => obtain rfl | rfl | rfl := h <;> rfl

theorem readExponent_of_ends (h : Ends rest) : readExponent rest = some (none, rest) := by
  cases rest with
  | nil => rfl
  | cons c rest => obtain rfl | rfl | rfl := h <;> rfl

theorem readNumber_toDigits (negative : Bool) (n : Nat) (h : Ends rest) :
    readNumber negative (Nat.toDigits 10 n ++ rest) = some (ofWhole negative n, rest) := by
  have hshape : ∃ d ds, (Nat.toDigits 10 n).map digitValue = d :: ds ∧ (d = 0 → ds = []) := by
    by_cases hn : n = 0
    · subst hn
      exact ⟨0, [], rfl, fun _ => rfl⟩
    · obtain ⟨d, ds, hd, hdigits⟩ := exists_leading (Nat.pos_of_ne_zero hn)
      exact ⟨d, ds, hdigits, fun h => absurd h hd⟩
  obtain ⟨d, ds, hdigits, hzero⟩ := hshape
  unfold readNumber
  rw [takeDigits_toDigits n h]
  dsimp only
  rw [if_neg]
  · rw [readFraction_of_ends h]
    simp only [Option.bind_eq_bind, Option.bind_some, readExponent_of_ends h, ofDigits_toDigits]
    rfl
  · rw [hdigits]
    by_cases hd : d = 0
    · simp [hzero hd]
    · simp [hd]

section Digit

variable {c : Char} (hc : c.isDigit) (cs : List Char)

include hc

theorem ne_of_isDigit {d : Char} (hd : d.isDigit = false) : c ≠ d := by
  rintro rfl
  rw [hd] at hc
  exact absurd hc nofun

theorem skipBlanks_digit : Reader.skipBlanks (c :: cs) = c :: cs := by
  have hblank : isBlank c = false := by
    unfold isBlank
    simp [ne_of_isDigit hc (d := ' ') rfl, ne_of_isDigit hc (d := '\n') rfl,
      ne_of_isDigit hc (d := '\t') rfl, ne_of_isDigit hc (d := '\r') rfl]
  unfold Reader.skipBlanks
  rw [List.dropWhile_cons_of_neg (by simp [hblank])]

/-- A value that begins with a digit is a number. -/
theorem readValue_digit {fuel levels : Nat} :
    readValue (fuel + 1) levels (c :: cs) = readNumber false (c :: cs) := by
  unfold readValue
  rw [skipBlanks_digit hc]
  split
  case h_8 => rfl
  all_goals
    rename_i heq
    exact absurd (List.cons.inj heq).1 (ne_of_isDigit hc rfl)

end Digit

theorem readValue_minus (fuel levels : Nat) (cs : List Char) :
    readValue (fuel + 1) levels ('-' :: cs) = readNumber true cs := by
  unfold readValue
  rfl

theorem ofWhole_of_lt {negative : Bool} {n : Nat} (hn : n < 1 <<< 64)
    (hzero : ¬(negative && n = 0)) :
    ofWhole negative n = .int (if negative then -(n : Int) else n) := by
  unfold ofWhole
  rw [if_neg hzero, if_pos (Bool.or_eq_true_iff.mpr (.inl (decide_eq_true hn)))]

/-- **A whole number** of at most 64 binary digits is read as it was written. -/
theorem reads_int {fuel levels : Nat} {n : Int} (hn : n.natAbs < 1 <<< 64) (h : Ends rest) :
    Reads (readValue (fuel + 1) levels ((toString n).toList ++ rest)) (.int n) rest := by
  refine .of_ends h ?_
  have htext : toString n = n.repr := rfl
  rw [htext, Int.repr_eq_if]
  split
  case isTrue hsign =>
    obtain ⟨n, rfl⟩ := Int.eq_ofNat_of_zero_le hsign
    rw [Int.toNat_natCast, Nat.repr_eq_ofList_toDigits, String.toList_ofList]
    obtain ⟨c, cs, hdigits⟩ := List.exists_cons_of_ne_nil (@Nat.toDigits_ne_nil n 10)
    have hc : c.isDigit :=
      Nat.isDigit_of_mem_toDigits (by omega) (by omega) (hdigits ▸ List.mem_cons_self)
    have hread := readNumber_toDigits false n h
    rw [ofWhole_of_lt (show n < 1 <<< 64 from hn) (by simp), hdigits] at hread
    rw [hdigits, List.cons_append, readValue_digit hc]
    exact hread
  case isFalse hsign =>
    obtain ⟨m, rfl⟩ : ∃ m : Nat, n = -(m : Int) := ⟨n.natAbs, by omega⟩
    have hm : m < 1 <<< 64 := by omega
    have hpos : m ≠ 0 := by omega
    have hlist : ("-" ++ (-(-(m : Int))).toNat.repr).toList = '-' :: Nat.toDigits 10 m := by
      rw [Int.neg_neg, Int.toNat_natCast, Nat.repr_eq_ofList_toDigits, String.toList_append,
        String.toList_ofList (l := Nat.toDigits 10 m)]
      rfl
    rw [hlist, List.cons_append, readValue_minus, readNumber_toDigits true m h,
      ofWhole_of_lt hm (by simp [hpos])]
    rfl

/-! ## Numbers that are not whole -/

theorem readFraction_point (cs : List Char) : readFraction ('.' :: cs) =
    if (takeDigits cs).1 = [] then none
    else some (some (takeDigits cs).1, (takeDigits cs).2) := by
  rw [readFraction]
  cases takeDigits cs with
  | mk digits left => cases digits <;> rfl

theorem readExponentDigits_eq (sign : Int) (cs : List Char) : readExponentDigits sign cs =
    if (takeDigits cs).1 = [] then none
    else some (some (sign * ofDigits (takeDigits cs).1), (takeDigits cs).2) := by
  unfold readExponentDigits
  cases takeDigits cs with
  | mk digits left => cases digits <;> rfl

/-- A fraction ends where it ends when it stands alone. -/
theorem readFraction_append {cs left : List Char} {fraction : Option (List Nat)} (h : Ends rest)
    (hread : readFraction cs = some (fraction, left)) :
    readFraction (cs ++ rest) = some (fraction, left ++ rest) := by
  by_cases hpoint : ∃ digits, cs = '.' :: digits
  · obtain ⟨digits, rfl⟩ := hpoint
    rw [List.cons_append, readFraction_point, takeDigits_append _ h]
    rw [readFraction_point] at hread
    dsimp only
    split at hread
    case isTrue => exact absurd hread nofun
    case isFalse hsome =>
      obtain ⟨rfl, rfl⟩ := Prod.mk.inj (Option.some.inj hread)
      rw [if_neg hsome]
  · have hnone (cs : List Char) (hne : ∀ digits, cs ≠ '.' :: digits) :
        readFraction cs = some (none, cs) := by
      unfold readFraction
      split
      · exact absurd rfl (hne _)
      · rfl
    rw [hnone cs fun digits heq => hpoint ⟨digits, heq⟩] at hread
    obtain ⟨rfl, rfl⟩ := Prod.mk.inj (Option.some.inj hread)
    cases cs with
    | nil => exact readFraction_of_ends h
    | cons c cs => exact hnone _ fun digits heq => hpoint ⟨cs, by rw [(List.cons.inj heq).1]⟩

theorem readExponentDigits_append {sign : Int} {cs left : List Char} {exponent : Option Int}
    (h : Ends rest) (hread : readExponentDigits sign cs = some (exponent, left)) :
    readExponentDigits sign (cs ++ rest) = some (exponent, left ++ rest) := by
  rw [readExponentDigits_eq] at hread ⊢
  rw [takeDigits_append _ h]
  dsimp only
  split at hread
  case isTrue => exact absurd hread nofun
  case isFalse hsome =>
    obtain ⟨rfl, rfl⟩ := Prod.mk.inj (Option.some.inj hread)
    rw [if_neg hsome]

/-- An exponent ends where it ends when it stands alone. -/
theorem readExponent_append {cs left : List Char} {exponent : Option Int} (h : Ends rest)
    (hread : readExponent cs = some (exponent, left)) :
    readExponent (cs ++ rest) = some (exponent, left ++ rest) := by
  cases cs with
  | nil =>
    obtain ⟨rfl, rfl⟩ := Prod.mk.inj (Option.some.inj hread)
    exact readExponent_of_ends h
  | cons c cs =>
    unfold readExponent at hread ⊢
    dsimp only [List.cons_append] at hread ⊢
    split at hread
    case isFalse hc =>
      obtain ⟨rfl, rfl⟩ := Prod.mk.inj (Option.some.inj hread)
      rw [if_neg hc]
      rfl
    case isTrue hc =>
      rw [if_pos hc]
      split at hread
      case h_1 => exact readExponentDigits_append h hread
      case h_2 => exact readExponentDigits_append h hread
      case h_3 hplus hminus =>
        cases cs with
        | nil => exact absurd hread nofun
        | cons sign cs =>
          rw [← readExponentDigits_append h hread]
          split
          case h_1 heq => exact absurd (by rw [(List.cons.inj heq).1]) (hplus cs)
          case h_2 heq => exact absurd (by rw [(List.cons.inj heq).1]) (hminus cs)
          case h_3 => rfl

theorem readNumber_append {negative : Bool} {cs left : List Char} {value : Json} (h : Ends rest)
    (hread : readNumber negative cs = some (value, left)) :
    readNumber negative (cs ++ rest) = some (value, left ++ rest) := by
  unfold readNumber at hread ⊢
  rw [takeDigits_append _ h]
  dsimp only at hread ⊢
  split at hread
  case isTrue => exact absurd hread nofun
  case isFalse hdigits =>
    rw [if_neg hdigits]
    obtain ⟨⟨fraction, middle⟩, hfraction, hread⟩ := Option.bind_eq_some_iff.mp hread
    obtain ⟨⟨exponent, last⟩, hexponent, hread⟩ := Option.bind_eq_some_iff.mp hread
    rw [readFraction_append h hfraction]
    show (readExponent (middle ++ rest)).bind _ = _
    rw [readExponent_append h hexponent]
    cases fraction <;> cases exponent <;>
    · obtain ⟨rfl, rfl⟩ := Prod.mk.inj (Option.some.inj hread)
      rfl

theorem isDigit_of_readNumber {negative : Bool} {cs : List Char} {result : Json × List Char}
    (hread : readNumber negative cs = some result) : ∃ c tail, cs = c :: tail ∧ c.isDigit := by
  cases cs with
  | nil => exact absurd hread nofun
  | cons c tail =>
    refine ⟨c, tail, rfl, Decidable.byContradiction fun hc => ?_⟩
    have hnone : takeDigits (c :: tail) = ([], c :: tail) := by
      unfold Reader.takeDigits
      rw [List.takeWhile_cons_of_neg hc, List.dropWhile_cons_of_neg hc]
      rfl
    unfold readNumber at hread
    rw [hnone] at hread
    exact absurd hread nofun

/-- A text that goes on behind something is still read from its first character. -/
theorem skipBlanks_append {cs tail : List Char} {c : Char}
    (hskip : Reader.skipBlanks cs = c :: tail) (rest : List Char) :
    Reader.skipBlanks (cs ++ rest) = c :: tail ++ rest := by
  unfold Reader.skipBlanks at hskip ⊢
  rw [List.dropWhile_append, hskip]
  rfl

theorem skipBlanks_blanks {left : List Char} (hleft : Reader.skipBlanks left = [])
    (rest : List Char) : Reader.skipBlanks (left ++ rest) = Reader.skipBlanks rest := by
  unfold Reader.skipBlanks at hleft ⊢
  rw [List.dropWhile_append, hleft]
  rfl

/-- Blanks in front do not matter. -/
theorem readValue_congr {fuel levels : Nat} {cs cs' : List Char}
    (h : Reader.skipBlanks cs = Reader.skipBlanks cs') :
    readValue (fuel + 1) levels cs = readValue (fuel + 1) levels cs' := by
  unfold readValue
  rw [h]

theorem readItems_isContainer {fuel levels : Nat} {done : List Json} {cs : List Char} {x : Float}
    {left : List Char} : readItems fuel levels done cs ≠ some (.double x, left) := by
  induction fuel generalizing done cs with
  | zero => exact nofun
  | succ fuel ih =>
    unfold readItems
    split
    · exact nofun
    · split
      · exact ih
      · split <;> exact nofun
      · exact nofun

theorem readMembers_isContainer {fuel levels : Nat} {done : Option (List (String × Json))}
    {cs : List Char} {x : Float} {left : List Char} :
    readMembers fuel levels done cs ≠ some (.double x, left) := by
  induction fuel generalizing done cs with
  | zero => exact nofun
  | succ fuel ih =>
    unfold readMembers
    split
    · split
      · exact nofun
      · split
        · split
          · exact nofun
          · split
            · exact ih
            · split <;> exact nofun
            · exact nofun
        · exact nofun
    · exact nofun

/-- A number that is not whole ends where it ends when it stands alone. -/
theorem readValue_append {fuel levels fuel' levels' : Nat} {cs left : List Char} {x : Float}
    (h : Ends rest) (hread : readValue (fuel + 1) levels cs = some (.double x, left)) :
    readValue (fuel' + 1) levels' (cs ++ rest) = some (.double x, left ++ rest) := by
  unfold readValue at hread
  split at hread
  case h_4 =>
    split at hread <;> exact absurd hread nofun
  case h_5 =>
    split at hread
    · split at hread <;> exact absurd hread nofun
    · exact absurd hread readItems_isContainer
  case h_6 =>
    split at hread
    · split at hread <;> exact absurd hread nofun
    · exact absurd hread readMembers_isContainer
  case h_7 tail hskip =>
    have hminus : Reader.skipBlanks (cs ++ rest) = Reader.skipBlanks ('-' :: (tail ++ rest)) :=
      skipBlanks_append hskip rest
    rw [readValue_congr hminus, readValue_minus]
    exact readNumber_append h hread
  case h_8 =>
    obtain ⟨c, tail, hskip, hc⟩ := isDigit_of_readNumber hread
    have hdigit : Reader.skipBlanks (cs ++ rest) = Reader.skipBlanks (c :: (tail ++ rest)) :=
      (skipBlanks_append hskip rest).trans (skipBlanks_digit hc _).symm
    rw [readValue_congr hdigit, readValue_digit hc]
    rw [hskip] at hread
    exact readNumber_append h hread
  all_goals exact absurd hread nofun

/-- **A number that is not whole** is read as it is when its text stands alone. -/
theorem reads_double {fuel levels : Nat} {text : String} {x : Float} (h : Ends rest)
    (hparse : parse? text = some (.double x)) :
    Reads (readValue (fuel + 1) levels (text.toList ++ rest)) (.double x) rest := by
  unfold parse? at hparse
  dsimp only at hparse
  split at hparse
  case h_2 => exact absurd hparse nofun
  case h_1 value left hread =>
    split at hparse
    case isFalse => exact absurd hparse nofun
    case isTrue hleft =>
      obtain rfl := Option.some.inj hparse
      refine ⟨left ++ rest, readValue_append h hread, ?_⟩
      rw [skipBlanks_blanks (List.isEmpty_iff.mp hleft), h.skipBlanks]

end CardCombat.Json.Reader
