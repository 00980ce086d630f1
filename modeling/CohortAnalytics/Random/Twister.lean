import CohortAnalytics.Random.Source
import CohortAnalytics.Number.Binary

/-!
The Mersenne Twister with 32-bit words, as a source of chance that a seed determines.
-/

namespace CohortAnalytics

-- Powers are the ones of core, whatever else is in scope.
attribute [local instance (high)] instPowNat

structure Twister where
  words : Array UInt32
  next : Nat

namespace Twister

def size : Nat := 624

def word (words : Array UInt32) (i : Nat) : UInt32 := words.getD i 0

def stir (w : UInt32) : UInt32 := w ^^^ (w >>> 30)

/-- Each word grows out of the one before it. -/
def grow (seed : UInt32) : Array UInt32 :=
  (List.range (size - 1)).foldl
    (fun words i => words.push (1812433253 * stir (word words i) + (i + 1).toUInt32)) #[seed]

/-- Replaces the word at `i`; after the last word the first takes its value. -/
def put (words : Array UInt32) (i : Nat) (w : UInt32) : Array UInt32 × Nat :=
  let words := words.setIfInBounds i w
  if i + 1 < size then (words, i + 1) else (words.setIfInBounds 0 w, 1)

def mixKey (key : Array UInt32) (start : Array UInt32) : Array UInt32 × Nat :=
  (List.range (max size key.size)).foldl
    (fun (words, i) k =>
      let j := k % key.size
      put words i ((word words i ^^^ (stir (word words (i - 1)) * 1664525)) +
        key.getD j 0 + j.toUInt32))
    (start, 1)

def mixPlace (start : Array UInt32 × Nat) : Array UInt32 × Nat :=
  (List.range (size - 1)).foldl
    (fun (words, i) _ =>
      put words i ((word words i ^^^ (stir (word words (i - 1)) * 1566083941)) - i.toUInt32))
    start

/-- The magnitude of the seed in words of 32 bits, the lowest first. -/
def keyOf (seed : Int) : Array UInt32 :=
  let n := seed.natAbs
  (Array.range (n.log2 / 32 + 1)).map fun i => (n >>> (32 * i)).toUInt32

def ofSeed (seed : Int) : Twister :=
  let (words, _) := mixPlace (mixKey (keyOf seed) (grow 19650218))
  ⟨words.setIfInBounds 0 0x80000000, size⟩

def twistWord (words : Array UInt32) (i : Nat) : Array UInt32 :=
  let y := (word words i &&& 0x80000000) ||| (word words ((i + 1) % size) &&& 0x7fffffff)
  let w := word words ((i + 397) % size) ^^^ (y >>> 1)
  words.setIfInBounds i (if y % 2 = 0 then w else w ^^^ 0x9908b0df)

def refill (words : Array UInt32) : Array UInt32 := (List.range size).foldl twistWord words

def temper (y : UInt32) : UInt32 :=
  let y := y ^^^ (y >>> 11)
  let y := y ^^^ ((y <<< 7) &&& 0x9d2c5680)
  let y := y ^^^ ((y <<< 15) &&& 0xefc60000)
  y ^^^ (y >>> 18)

def draw (t : Twister) : UInt32 × Twister :=
  if t.next < size then (temper (word t.words t.next), { t with next := t.next + 1 })
  else
    let words := refill t.words
    (temper (word words 0), ⟨words, 1⟩)

/-- A whole number of `k` bits, the words low first; the last word gives its highest bits. -/
def bits (k : Nat) (t : Twister) : Nat × Twister :=
  if k = 0 then (0, t)
  else
    let (w, t) := t.draw
    if k ≤ 32 then (w.toNat >>> (32 - k), t)
    else
      let (n, t) := bits (k - 32) t
      (w.toNat + n <<< 32, t)
termination_by k

/-- Draws again while the number is too large; a turn fails with a chance below one half. -/
def below (n : Nat) (h : 0 < n) : Nat → Twister → Fin n × Twister
  | 0, t => (⟨0, h⟩, t)
  | turns + 1, t =>
    let (r, t) := t.bits (n.log2 + 1)
    if inRange : r < n then (⟨r, inRange⟩, t) else below n h turns t

/-- The 53 highest bits of two words, as a share of one. -/
def share (t : Twister) : Float × Twister :=
  let (high, t) := t.draw
  let (low, t) := t.draw
  (Binary.ofQuotient false ((high >>> 5).toNat * 2 ^ (26 : Nat) + (low >>> 6).toNat) (2 ^ (53 : Nat)), t)

/-- Bytes of one long number, the lowest first. -/
def block (count : Nat) (t : Twister) : List UInt8 × Twister :=
  let (n, t) := t.bits (8 * count)
  ((List.range count).map fun i => (n >>> (8 * i)).toUInt8, t)

end Twister

def twister : RandomSource Twister where
  share := Twister.share
  below n h t := Twister.below n h 1000 t
  block := Twister.block

end CohortAnalytics
