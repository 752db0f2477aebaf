/-!
# Shortest decimal digits of a double

A finite positive double is `m · 2^e` for a whole `m`. The reals that round to it form an
interval around it, reaching half-way to each neighbouring double; its ends belong to it exactly
when `m` is even, since a tie rounds to the even neighbour. The shortest decimal that reads back
as the double is found by trying one significant digit, then two, and so on: on each grid the
two grid points next to the double are the only candidates, because the interval holds the double
itself. The first grid with a candidate in the interval wins; of two, the nearer wins, and a tie
goes to the even one. At seventeen digits a candidate always lies in the interval.
-/

namespace StageTree.Number

/-- A positive rational as numerator and denominator. -/
structure Ratio where
  num : Nat
  den : Nat
deriving Repr

namespace Ratio

/-- `a ≤ b`, by cross-multiplying. -/
def le (a b : Ratio) : Bool := a.num * b.den ≤ b.num * a.den

/-- `a < b`, by cross-multiplying. -/
def lt (a b : Ratio) : Bool := a.num * b.den < b.num * a.den

/-- `n · 2^q`. -/
def ofPow2 (n : Nat) (q : Int) : Ratio :=
  if q ≥ 0 then ⟨n * Nat.pow 2 q.toNat, 1⟩ else ⟨n, Nat.pow 2 (-q).toNat⟩

/-- `n · 10^p`. -/
def ofPow10 (n : Nat) (p : Int) : Ratio :=
  if p ≥ 0 then ⟨n * Nat.pow 10 p.toNat, 1⟩ else ⟨n, Nat.pow 10 (-p).toNat⟩

/-- `|a - b|`, as a ratio. -/
def dist (a b : Ratio) : Ratio :=
  let x := a.num * b.den
  let y := b.num * a.den
  ⟨if x ≥ y then x - y else y - x, a.den * b.den⟩

end Ratio

/-- The mantissa and exponent of a finite double from its bits: the value is
`mantissa · 2^exponent`, and `lowerGapHalved` says whether the next double below is nearer
than the next above (the mantissa is a power of two with a normal exponent above the least). -/
structure Binary where
  mantissa : Nat
  exponent : Int
  lowerGapHalved : Bool
deriving Repr

/-- The binary form of the magnitude of a finite double. -/
def Binary.ofBits (bits : UInt64) : Binary :=
  let fraction := (bits &&& 0xFFFFFFFFFFFFF).toNat
  let biased := ((bits >>> 52) &&& 0x7FF).toNat
  if biased == 0 then ⟨fraction, -1074, false⟩
  else ⟨fraction + Nat.pow 2 52, (biased : Int) - 1075, fraction == 0 && biased > 1⟩

/-- The greatest `k` with `10^k ≤ x`, searched around an estimate. -/
def floorLog10 (x : Ratio) (estimate : Int) : Int :=
  let rec up (k : Int) : Nat → Int
    | 0 => k
    | n + 1 => if Ratio.le (Ratio.ofPow10 1 (k + 1)) x then up (k + 1) n else k
  let rec down (k : Int) : Nat → Int
    | 0 => k
    | n + 1 => if Ratio.le (Ratio.ofPow10 1 k) x then k else down (k - 1) n
  up (down estimate 8) 8

/-- Decimal digits and the power of ten of the last one: `digits · 10^power` is the shortest
decimal that reads back as the double `b`, which must be positive. -/
def shortest (b : Binary) : Nat × Int :=
  let x := Ratio.ofPow2 b.mantissa b.exponent
  let q := b.exponent - 2
  let low := Ratio.ofPow2 (4 * b.mantissa - (if b.lowerGapHalved then 1 else 2)) q
  let high := Ratio.ofPow2 (4 * b.mantissa + 2) q
  let closed := b.mantissa % 2 == 0
  let inside (c : Ratio) : Bool :=
    if closed then Ratio.le low c && Ratio.le c high else Ratio.lt low c && Ratio.lt c high
  let bitLength := (Nat.log2 b.mantissa : Int) + b.exponent
  let top := floorLog10 x (bitLength * 30103 / 100000)
  let rec attempt (k : Nat) : Nat → Nat × Int
    | 0 => (0, 0)
    | n + 1 =>
      let p := top - (k : Int) + 1
      let grid := Ratio.ofPow10 1 p
      let below := (x.num * grid.den) / (x.den * grid.num)
      let candidates := [below, below + 1].filter fun d => inside (Ratio.ofPow10 d p)
      match candidates with
      | [d] => (d, p)
      | [d₁, d₂] =>
        let e₁ := Ratio.dist (Ratio.ofPow10 d₁ p) x
        let e₂ := Ratio.dist (Ratio.ofPow10 d₂ p) x
        if Ratio.lt e₁ e₂ then (d₁, p)
        else if Ratio.lt e₂ e₁ then (d₂, p)
        else if d₁ % 2 == 0 then (d₁, p) else (d₂, p)
      | _ => attempt (k + 1) n
  attempt 1 17

/-- Digits without their trailing zeros, the power of ten moved to match. -/
def dropTrailingZeros : Nat → Int → (fuel : Nat) → Nat × Int
  | d, p, 0 => (d, p)
  | d, p, fuel + 1 =>
    if d != 0 && d % 10 == 0 then dropTrailingZeros (d / 10) (p + 1) fuel else (d, p)

end StageTree.Number
