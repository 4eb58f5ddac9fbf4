/-!
Decimal numbers as 64-bit binary floating point keeps and writes them.

* `Decimal`: a sign, digits and a power of ten;
* `Decimal.binary?`: the nearest binary number, with 53 bits and a power of two, ties to even;
* `Decimal.shortest`: the fewest decimal digits that read back as the same binary number;
* `Decimal.text`: these digits, positional where the point stands close, and with an exponent
  otherwise.
-/

namespace CommentProse

/-- The number `digits * 10 ^ exponent`, negated if `negative`. -/
structure Decimal where
  negative : Bool
  digits : Nat
  exponent : Int
deriving DecidableEq, Repr

namespace Decimal

/-- The quotient of two numbers rounded to the nearest, a half to the even neighbour. -/
def roundQuotient (n d : Nat) : Nat :=
  let q := n / d
  let r := n % d
  if 2 * r < d then q else if 2 * r > d then q + 1 else if q % 2 = 0 then q else q + 1

/-- The fraction `n / d` times a power of a base, as a fraction. -/
def scale (base : Nat) (e : Int) (n d : Nat) : Nat × Nat :=
  if 0 ≤ e then (n * Nat.pow base e.toNat, d) else (n, d * Nat.pow base (-e).toNat)

/-- The number of the highest of 53 bits. -/
def topBit : Nat := 4503599627370496

/-- The least exponent of a binary number. -/
def leastExponent : Int := -1074

/-- The nearest `m * 2 ^ q` to a fraction, with `m` below `2 ^ 53`. -/
def nearest (n d : Nat) : Nat × Int :=
  if n = 0 then (0, leastExponent)
  else
    let e : Int := (Nat.log2 n : Int) - (Nat.log2 d : Int)
    let q₀ := max (e - 53) leastExponent
    let (n₀, d₀) := scale 2 (-q₀) n d
    let q := if 2 * topBit ≤ n₀ / d₀ then q₀ + 1 else q₀
    let (n₁, d₁) := scale 2 (-q) n d
    let m := roundQuotient n₁ d₁
    if m = 2 * topBit then (topBit, q + 1) else (m, q)

/-- The nearest binary number to a decimal number without its sign; none if it is too large. -/
def binary? (x : Decimal) : Option (Nat × Int) :=
  if x.digits = 0 then some (0, leastExponent)
  else
    let places : Int := x.exponent + (Nat.toDigits 10 x.digits).length
    if 400 < places then none
    else if places < -400 then some (0, leastExponent)
    else
      let (n, d) := scale 10 x.exponent x.digits 1
      let (m, q) := nearest n d
      if 971 < q then none else some (m, q)

/-- A multiple of `10 ^ k` that reads back as `m * 2 ^ q`, the nearer of two. -/
def onGrid? (m : Nat) (q k : Int) : Option Nat :=
  let low := if m = topBit ∧ leastExponent < q then 4 * m - 1 else 4 * m - 2
  let high := 4 * m + 2
  let (n, d) := scale 2 (q - 2) 1 1
  let (g, d) := scale 10 k d n
  -- a multiple `c` of the grid stands for `c * g / d` quarters of the last binary place
  let inside (c : Nat) : Bool :=
    if m % 2 = 0 then low * d ≤ c * g && c * g ≤ high * d else low * d < c * g && c * g < high * d
  let below := 4 * m * d / g
  let above := below + 1
  match inside below, inside above with
  | true, true => if 4 * m * d - below * g ≤ above * g - 4 * m * d then some below else some above
  | true, false => some below
  | false, true => some above
  | false, false => none

/-- The coarsest grid of powers of ten, from `10 ^ k` down, with a number that reads back. -/
def shortestFrom (m : Nat) (q : Int) : Nat → Int → Nat × Int
  | 0, k => (0, k)
  | fuel + 1, k =>
    match onGrid? m q k with
    | some c => (c, k)
    | none => shortestFrom m q fuel (k - 1)

/-- The fewest digits, with their power of ten, that read back as `m * 2 ^ q`. -/
def shortest (m : Nat) (q : Int) : Nat × Int := shortestFrom m q 700 309

/-- Digits with a power of ten: positional while the point stands at most sixteen digits after
the first and four zeros before it. -/
def layout (digits : Nat) (k : Int) : String :=
  let ds := Nat.toDigits 10 digits
  let point : Int := k + ds.length
  let zeros (n : Int) : List Char := List.replicate n.toNat '0'
  if 0 ≤ k ∧ point ≤ 16 then String.ofList (ds ++ zeros k) ++ ".0"
  else if 0 < point ∧ point ≤ 16 then
    String.ofList (ds.take point.toNat ++ '.' :: ds.drop point.toNat)
  else if -5 < point ∧ point ≤ 0 then String.ofList ('0' :: '.' :: zeros (-point) ++ ds)
  else
    let tail := ds.drop 1
    String.ofList (ds.take 1 ++ if tail.isEmpty then [] else '.' :: tail) ++ "e"
      ++ toString (point - 1)

/-- The text of the binary number that a decimal number stands for. -/
def text (x : Decimal) : String :=
  let sign := if x.negative then "-" else ""
  match x.binary? with
  | none => sign ++ "inf"
  | some (0, _) => sign ++ "0.0"
  | some (m, q) =>
    let (digits, k) := shortest m q
    sign ++ layout digits k

end Decimal

end CommentProse
