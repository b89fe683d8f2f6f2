/-!
# The key stream

Random numbers come from the ChaCha stream cipher with eight rounds. A seed is spread into a key
of eight words by a permuted congruential generator; block `n` of the stream is the cipher's
block with counter `n`, and gives sixteen words. The word at a position is therefore a function of
the seed and the position alone: moving to another position is arithmetic, and two generators that
agree on both agree for ever.

The block counter has 64 binary digits, so the stream repeats after `period` words.
-/

namespace CardCombat.Keystream

/-- A cipher state: sixteen words. -/
structure Block where
  w0 : UInt32
  w1 : UInt32
  w2 : UInt32
  w3 : UInt32
  w4 : UInt32
  w5 : UInt32
  w6 : UInt32
  w7 : UInt32
  w8 : UInt32
  w9 : UInt32
  w10 : UInt32
  w11 : UInt32
  w12 : UInt32
  w13 : UInt32
  w14 : UInt32
  w15 : UInt32

/-- Words in one period of the stream. -/
abbrev period : Nat := 1 <<< 68

/-! ## Key -/

/-- Four rotating words of a cipher state. -/
structure Column where
  a : UInt32
  b : UInt32
  c : UInt32
  d : UInt32

@[inline] def rotateLeft (x n : UInt32) : UInt32 := (x <<< n) ||| (x >>> (32 - n))

@[inline] def rotateRight (x n : UInt32) : UInt32 := (x >>> n) ||| (x <<< (32 - n))

/-- The next state of the generator that spreads a seed. -/
@[inline] def spread (state : UInt64) : UInt64 :=
  state * 6364136223846793005 + 11634580027462260723

/-- The key word that a state of that generator stands for. -/
@[inline] def keyWord (state : UInt64) : UInt32 :=
  rotateRight (((state >>> 18) ^^^ state) >>> 27).toUInt32 (state >>> 59).toUInt32

/-- The cipher state before the rounds: constants, the key of `seed`, the block counter. -/
def initial (seed counter : UInt64) : Block :=
  let s0 := spread seed
  let s1 := spread s0
  let s2 := spread s1
  let s3 := spread s2
  let s4 := spread s3
  let s5 := spread s4
  let s6 := spread s5
  let s7 := spread s6
  { w0 := 0x61707865, w1 := 0x3320646e, w2 := 0x79622d32, w3 := 0x6b206574
    w4 := keyWord s0, w5 := keyWord s1, w6 := keyWord s2, w7 := keyWord s3
    w8 := keyWord s4, w9 := keyWord s5, w10 := keyWord s6, w11 := keyWord s7
    w12 := counter.toUInt32, w13 := (counter >>> 32).toUInt32, w14 := 0, w15 := 0 }

/-! ## Rounds -/

/-- One quarter round. -/
@[inline] def quarterRound (q : Column) : Column :=
  let a := q.a + q.b
  let d := rotateLeft (q.d ^^^ a) 16
  let c := q.c + d
  let b := rotateLeft (q.b ^^^ c) 12
  let a := a + b
  let d := rotateLeft (d ^^^ a) 8
  let c := c + d
  let b := rotateLeft (b ^^^ c) 7
  ⟨a, b, c, d⟩

/-- A round on the columns followed by a round on the diagonals. -/
def doubleRound (x : Block) : Block :=
  let p := quarterRound ⟨x.w0, x.w4, x.w8, x.w12⟩
  let q := quarterRound ⟨x.w1, x.w5, x.w9, x.w13⟩
  let r := quarterRound ⟨x.w2, x.w6, x.w10, x.w14⟩
  let s := quarterRound ⟨x.w3, x.w7, x.w11, x.w15⟩
  let t := quarterRound ⟨p.a, q.b, r.c, s.d⟩
  let u := quarterRound ⟨q.a, r.b, s.c, p.d⟩
  let v := quarterRound ⟨r.a, s.b, p.c, q.d⟩
  let w := quarterRound ⟨s.a, p.b, q.c, r.d⟩
  { w0 := t.a, w1 := u.a, w2 := v.a, w3 := w.a
    w4 := w.b, w5 := t.b, w6 := u.b, w7 := v.b
    w8 := v.c, w9 := w.c, w10 := t.c, w11 := u.c
    w12 := u.d, w13 := v.d, w14 := w.d, w15 := t.d }

/-- The wordwise sum of two states. -/
def Block.add (x y : Block) : Block :=
  { w0 := x.w0 + y.w0, w1 := x.w1 + y.w1, w2 := x.w2 + y.w2, w3 := x.w3 + y.w3
    w4 := x.w4 + y.w4, w5 := x.w5 + y.w5, w6 := x.w6 + y.w6, w7 := x.w7 + y.w7
    w8 := x.w8 + y.w8, w9 := x.w9 + y.w9, w10 := x.w10 + y.w10, w11 := x.w11 + y.w11
    w12 := x.w12 + y.w12, w13 := x.w13 + y.w13, w14 := x.w14 + y.w14, w15 := x.w15 + y.w15 }

/-- The word at an index below sixteen; the last word at any other. -/
def Block.word (x : Block) : Nat → UInt32
  | 0 => x.w0
  | 1 => x.w1
  | 2 => x.w2
  | 3 => x.w3
  | 4 => x.w4
  | 5 => x.w5
  | 6 => x.w6
  | 7 => x.w7
  | 8 => x.w8
  | 9 => x.w9
  | 10 => x.w10
  | 11 => x.w11
  | 12 => x.w12
  | 13 => x.w13
  | 14 => x.w14
  | _ => x.w15

/-- Block `counter` of the stream of `seed`: the initial state added to itself after the rounds. -/
def block (seed counter : UInt64) : Block :=
  let start := initial seed counter
  (doubleRound (doubleRound (doubleRound (doubleRound start)))).add start

/-- The word at a position of the stream of `seed`. -/
def word (seed : UInt64) (position : Nat) : UInt32 :=
  (block seed (position / 16).toUInt64).word (position % 16)

end CardCombat.Keystream
