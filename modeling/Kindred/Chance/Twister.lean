import Kindred.Chance.Source
import Kindred.Number.Binary

/-!
# The Mersenne twister

The MT19937 generator: 624 words of 32 bits, renewed all at once and then handed out one by one.

- `Twister`, `Twister.ofSeed`: the state, and the state that an integer seed starts from.
- `Twister.word`: the next 32 bits.
- `Twister.bits`, `Twister.below`: wider and narrower draws.
- `Twister.source`: the generator as a source of chance.
-/

namespace Kindred

/-- The words of the generator and the place of the next one to hand out. -/
structure Twister where
  words : Array UInt32
  place : Nat

namespace Twister

/-- The number of words. -/
def size : Nat := 624

/-- One word of the state. -/
def wordAt (ws : Array UInt32) (i : Nat) : UInt32 := ws.getD i 0

/-! ### Seeding -/

/-- The words that a single word starts from. -/
def ofWord (seed : UInt32) : Array UInt32 :=
  (List.range (size - 1)).foldl (fun (ws : Array UInt32) (i : Nat) =>
    let before := wordAt ws i
    let w : UInt32 := (1812433253 : UInt32) * (before ^^^ (before >>> 30)) + UInt32.ofNat (i + 1)
    ws.push w) #[seed]

/-- A step of the seeding walk: the place in the words moves on, and from the last to the second,
for the first word is a copy of the last. -/
def advance (ws : Array UInt32) (i : Nat) : Array UInt32 × Nat :=
  if i + 1 < size then (ws, i + 1) else (ws.setIfInBounds 0 (wordAt ws (size - 1)), 1)

/-- Mixes the words of a key into the state. -/
def mixKey (key : Array UInt32) : Nat → Array UInt32 × Nat → Nat → Array UInt32 × Nat
  | 0, st, _ => st
  | steps + 1, (ws, i), j =>
    let before := wordAt ws (i - 1)
    let w := (wordAt ws i ^^^ ((before ^^^ (before >>> 30)) * 1664525)) +
      wordAt key j + UInt32.ofNat j
    mixKey key steps (advance (ws.setIfInBounds i w) i) (if j + 1 < key.size then j + 1 else 0)

/-- Mixes the words of the state among themselves. -/
def mixPlaces : Nat → Array UInt32 × Nat → Array UInt32 × Nat
  | 0, st => st
  | steps + 1, (ws, i) =>
    let before := wordAt ws (i - 1)
    let w := (wordAt ws i ^^^ ((before ^^^ (before >>> 30)) * 1566083941)) - UInt32.ofNat i
    mixPlaces steps (advance (ws.setIfInBounds i w) i)

/-- The words that a key starts from. -/
def ofKey (key : Array UInt32) : Array UInt32 :=
  let mixed := mixKey key (max size key.size) (ofWord 19650218, 1) 0
  (mixPlaces (size - 1) mixed).1.setIfInBounds 0 0x80000000

/-- The 32-bit words of a number, the least significant first, and at least one. -/
def keyWords : Nat → Nat → List UInt32
  | 0, _ => []
  | fuel + 1, n =>
    let rest := n / Nat.pow 2 32
    UInt32.ofNat n :: (if rest = 0 then [] else keyWords fuel rest)

/-- The generator that an integer seed starts; the sign of the seed does not matter. -/
def ofSeed (seed : Int) : Twister :=
  let n := seed.natAbs
  ⟨ofKey (keyWords (n.log2 / 32 + 1) n).toArray, size⟩

/-! ### Drawing -/

/-- A word made from the top bit of one word and the other bits of the next. -/
def twist (upper lower far : UInt32) : UInt32 :=
  let y := (upper &&& 0x80000000) ||| (lower &&& 0x7FFFFFFF)
  far ^^^ (y >>> 1) ^^^ (if y &&& 1 == 1 then 0x9908B0DF else 0)

/-- Renews all words. -/
def renew (ws : Array UInt32) : Array UInt32 :=
  (List.range size).foldl (fun (ws : Array UInt32) (i : Nat) =>
    ws.setIfInBounds i
      (twist (wordAt ws i) (wordAt ws ((i + 1) % size)) (wordAt ws ((i + 397) % size)))) ws

/-- Spreads the bits of a word before it is handed out. -/
def temper (y : UInt32) : UInt32 :=
  let y := y ^^^ (y >>> 11)
  let y := y ^^^ ((y <<< 7) &&& 0x9D2C5680)
  let y := y ^^^ ((y <<< 15) &&& 0xEFC60000)
  y ^^^ (y >>> 18)

/-- The next 32 bits. -/
def word (t : Twister) : Nat × Twister :=
  let t := if t.place < size then t else ⟨renew t.words, 0⟩
  ((temper (wordAt t.words t.place)).toNat, { t with place := t.place + 1 })

/-- The next `k` bits. More than 32 are filled from the least significant word on. -/
def bits : Nat → Nat → Twister → Nat × Twister
  | 0, _, t => (0, t)
  | fuel + 1, k, t =>
    let (w, t) := t.word
    if k ≤ 32 then (w >>> (32 - k), t)
    else
      let (rest, t) := bits fuel (k - 32) t
      (w + rest * Nat.pow 2 32, t)

/-- A number below `n`: draws of as many bits as `n` has are repeated until one is below it. After
`fuel` draws the answer is zero. -/
def below : Nat → Nat → Twister → Nat × Twister
  | 0, _, t => (0, t)
  | fuel + 1, n, t =>
    let k := n.log2 + 1
    let (r, t) := bits k k t
    if r < n then (r, t) else below fuel n t

/-- Draws below a number that is not zero are below it. -/
theorem below_lt (fuel n : Nat) (t : Twister) (h : 0 < n) : (below fuel n t).1 < n := by
  induction fuel generalizing t with
  | zero => exact h
  | succ fuel ih =>
    simp only [below]
    split
    · assumption
    · exact ih _

/-- How often a draw that is too large is repeated; each repetition is needed less than every
second time. -/
def attempts : Nat := 10000

/-- An integer between two bounds. -/
def int (low high : Int) (t : Twister) : Int × Twister :=
  let (r, t) := below attempts (high - low + 1).toNat t
  (low + r, t)

/-- A fraction with 53 bits. -/
def fraction (t : Twister) : Float × Twister :=
  let (a, t) := t.word
  let (b, t) := t.word
  (Number.ofRatio false ((a >>> 5) * Nat.pow 2 26 + (b >>> 6)) (Nat.pow 2 53), t)

/-- The generator as a source of chance. -/
def source : Source Twister := ⟨int, fraction, true, Source.ampleDice⟩

/-- The generator stays in range. -/
theorem inRange_source : source.InRange := by
  intro low high t h
  have := below_lt attempts (high - low + 1).toNat t (by omega)
  simp only [source, int]
  omega

end Twister

end Kindred
