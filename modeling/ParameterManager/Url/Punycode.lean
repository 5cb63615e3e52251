/-
Punycode: labels of domain names in ASCII.

The characters outside ASCII are taken in ascending order.  Each is written as a
distance from the one before, a number of variable length in base thirty-six whose
digit thresholds adapt to the distances seen.
-/

namespace ParameterManager.Punycode

/-- The digit with a value below thirty-six. -/
def digitChar (d : Nat) : Char := if d < 26 then Char.ofNat (0x61 + d) else Char.ofNat (0x16 + d)

/-- The value of a digit, in small letters. -/
def digitValue? (c : Char) : Option Nat :=
  if 'a' ≤ c ∧ c ≤ 'z' then some (c.toNat - 0x61)
  else if '0' ≤ c ∧ c ≤ '9' then some (c.toNat - 0x16)
  else none

/-- The threshold of the digit at a position, counted in steps of thirty-six. -/
def threshold (k bias : Nat) : Nat :=
  if k ≤ bias then 1 else if bias + 26 ≤ k then 26 else k - bias

theorem threshold_bounds (k bias : Nat) : 1 ≤ threshold k bias ∧ threshold k bias ≤ 26 := by
  unfold threshold
  split
  · omega
  · split <;> omega

/-- Divides by thirty-five until little is left, counting in steps of thirty-six. -/
def reduce (delta k : Nat) : Nat × Nat :=
  if 455 < delta then reduce (delta / 35) (k + 36) else (delta, k)
termination_by delta
decreasing_by omega

/-- The bias after a distance. -/
def adapt (delta points : Nat) (first : Bool) : Nat :=
  let delta := if first then delta / 700 else delta / 2
  let (delta, k) := reduce (delta + delta / points) 0
  k + 36 * delta / (delta + 38)

/-- A distance as digits. -/
def encodeDistance (bias k q : Nat) : List Char :=
  let t := threshold k bias
  if q < t then [digitChar q]
  else digitChar (t + (q - t) % (36 - t)) :: encodeDistance bias (k + 36) ((q - t) / (36 - t))
termination_by q
decreasing_by
  have := threshold_bounds k bias
  exact Nat.lt_of_le_of_lt (Nat.div_le_self _ _) (by omega)

/-- What is written so far, and what the next distance depends on. -/
structure State where
  written : List Char
  delta : Nat
  bias : Nat
  handled : Nat

/-- Takes one character of the label into account, `n` being the one that is written now. -/
def encodeStep (basic n : Nat) (s : State) (c : Char) : State :=
  if c.toNat < n then { s with delta := s.delta + 1 }
  else if c.toNat = n then
    { written := s.written ++ encodeDistance s.bias 36 s.delta
      delta := 0
      bias := adapt s.delta (s.handled + 1) (s.handled == basic)
      handled := s.handled + 1 }
  else s

/-- Writes the characters of a list in ascending order, `n` being the least not handled. -/
def encodeFrom (label : List Char) (basic : Nat) : List Nat → Nat → State → State
  | [], _, s => s
  | m :: rest, n, s =>
    let s := { s with delta := s.delta + (m - n) * (s.handled + 1) }
    let s := label.foldl (encodeStep basic m) s
    encodeFrom label basic rest (m + 1) { s with delta := s.delta + 1 }

/-- A label in ASCII, without the mark that tells it from others. -/
def encode (label : List Char) : List Char :=
  let basic := label.filter (·.toNat < 0x80)
  let others := ((label.filter (0x80 ≤ ·.toNat)).map Char.toNat).mergeSort.eraseDups
  let start := if basic.isEmpty then [] else basic ++ ['-']
  (encodeFrom label basic.length others 0x80 ⟨start, 0, 72, basic.length⟩).written

/-- A distance read from digits, and the digits after it. -/
def decodeDistance (bias : Nat) : Nat → Nat → Nat → List Char → Option (Nat × List Char)
  | _, _, _, [] => none
  | k, weight, sum, c :: cs => do
    let d ← digitValue? c
    let sum := sum + d * weight
    let t := threshold k bias
    if d < t then some (sum, cs) else decodeDistance bias (k + 36) (weight * (36 - t)) sum cs

/-- Inserts the characters that the digits stand for; the bound is the number of digits. -/
def decodeFrom : Nat → List Char → Nat → Nat → Nat → List Char → Option (List Char)
  | _, [], _, _, _, label => some label
  | 0, _ :: _, _, _, _, _ => none
  | fuel + 1, digits, n, i, bias, label => do
    let (distance, rest) ← decodeDistance bias 36 1 0 digits
    let size := label.length + 1
    let offset := i + distance
    let code := n + offset / size
    if 0x10FFFF < code ∨ (0xD800 ≤ code ∧ code ≤ 0xDFFF) then none
    else
      let place := offset % size
      decodeFrom fuel rest code (place + 1) (adapt distance size (i == 0 && n == 0x80))
        (label.take place ++ Char.ofNat code :: label.drop place)

/-- The label that is written in ASCII, if it is written rightly. -/
def decode (cs : List Char) : Option (List Char) :=
  let split := cs.reverse.dropWhile (· ≠ '-')
  let basic := (split.drop 1).reverse
  let digits := if split.isEmpty then cs else (cs.reverse.takeWhile (· ≠ '-')).reverse
  decodeFrom (digits.length + 1) digits 0x80 0 72 basic

end ParameterManager.Punycode
