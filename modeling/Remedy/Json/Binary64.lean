/-!
Real numbers of double precision: reading a decimal as the nearest one, and writing one with the fewest digits that
read back as it.
-/

namespace Remedy.Json

/-- A number `mantissa * 2 ^ exponent`, with its sign, or one of the values beyond all numbers. -/
inductive Binary64 where
  | finite (negative : Bool) (mantissa : Nat) (exponent : Int)
  | infinite (negative : Bool)
  | nan
  deriving DecidableEq, Repr, Inhabited

namespace Binary64

def zero (negative : Bool) : Binary64 := .finite negative 0 0

/-- The natural number nearest to `n / d`, even of two equally near. -/
def roundDiv (n d : Nat) : Nat :=
  let q := n / d
  let r := n % d
  if 2 * r < d then q else if d < 2 * r then q + 1 else if q % 2 == 0 then q else q + 1

/-- The fraction `n / d / base ^ k`. -/
def rescale (base n d : Nat) (k : Int) : Nat × Nat :=
  if k ≥ 0 then (n, d * Nat.pow base k.toNat) else (n * Nat.pow base (-k).toNat, d)

/-- The exponent of the greatest power of two within `n / d`. -/
def binaryExponent (n d : Nat) : Int :=
  let gap : Int := (n.log2 : Int) - (d.log2 : Int)
  let (a, b) := rescale 2 n d gap
  if a < b then gap - 1 else gap

/-- The number with a mantissa, which may have been rounded to one more digit. -/
def ofMantissa (negative : Bool) (m : Nat) (e : Int) : Binary64 :=
  let (m, e) := if m == Nat.pow 2 53 then (Nat.pow 2 52, e + 1) else (m, e)
  if m == 0 then zero negative else if e > 971 then .infinite negative else .finite negative m e

/-- The number nearest to `n / d`. -/
def ofRatio (negative : Bool) (n d : Nat) : Binary64 :=
  if n == 0 then zero negative else
    let e := max (binaryExponent n d - 52) (-1074)
    let (a, b) := rescale 2 n d e
    ofMantissa negative (roundDiv a b) e

/-- The number nearest to `digits * 10 ^ exponent`. -/
def ofDecimal (negative : Bool) (digits : Nat) (exponent : Int) : Binary64 :=
  let size : Int := (toString digits).length
  if digits == 0 || exponent + size < -330 then zero negative
  else if exponent + size > 310 then .infinite negative
  else
    let (n, d) := rescale 10 digits 1 (-exponent)
    ofRatio negative n d

/-- The whole number that this is, if it is one. -/
def toInt? : Binary64 → Option Int
  | .finite negative m e =>
    let signed := fun (n : Nat) => if negative then -(n : Int) else (n : Int)
    if e ≥ 0 then some (signed (m * Nat.pow 2 e.toNat))
    else if m % Nat.pow 2 (-e).toNat == 0 then some (signed (m / Nat.pow 2 (-e).toNat))
    else none
  | _ => none

/-! ### Shortest decimals -/

/-- The decimal exponent of `n / d`, searched downwards from zero when the value is below one. -/
def decimalExponent (n d : Nat) : Int :=
  if d ≤ n then ((toString (n / d)).length : Int) - 1 else
    let rec down : Nat → Nat → Nat → Int
      | 0, _, j => -(j : Int)
      | fuel + 1, n, j => if d ≤ n * 10 then -((j : Int) + 1) else down fuel (n * 10) (j + 1)
    down 400 n 0

/-- Whether a number lies between two others, which count if the interval is closed. -/
def between (closed : Bool) (lo x hi : Nat) : Bool := if closed then lo ≤ x && x ≤ hi else lo < x && x < hi

/-- The shortest decimal `digits * 10 ^ exponent` within the rounding interval of `n / d`, whose ends are `lo / d` and
`hi / d`; of two, the nearer. Tries `count` digits and more. -/
def shortestFrom (n d lo hi : Nat) (closed : Bool) (top : Int) : Nat → Nat → Nat × Int
  | 0, count => (n / d, (count : Int))
  | fuel + 1, count =>
    let k := top - count + 1
    -- All values scaled so that the grid is the whole numbers.
    let (a, b) := rescale 10 n d k
    let floor := a / b
    let fits := fun c => between closed (rescale 10 lo d k).1 (c * b) (rescale 10 hi d k).1
    let down := fits floor
    let up := fits (floor + 1)
    let nearerUp := 2 * (a - floor * b) > b || (2 * (a - floor * b) == b && floor % 2 == 1)
    if down && up then (if nearerUp then floor + 1 else floor, k)
    else if down then (floor, k)
    else if up then (floor + 1, k)
    else shortestFrom n d lo hi closed top fuel (count + 1)

/-- The shortest decimal that reads back as `m * 2 ^ e`. -/
def shortest (m : Nat) (e : Int) : Nat × Int :=
  let scale := Nat.pow 2 e.toNat
  let d := 4 * Nat.pow 2 (-e).toNat
  let n := 4 * m * scale
  let lo := if m == Nat.pow 2 52 && e > -1074 then n - scale else n - 2 * scale
  let hi := n + 2 * scale
  shortestFrom n d lo hi (m % 2 == 0) (decimalExponent n d) 17 1

/-- Digits without the zeros at their end, and how many those were. -/
def dropZeros : Nat → List Char → List Char × Nat
  | 0, ds => (ds, 0)
  | fuel + 1, ds =>
    match ds with
    | '0' :: rest => if rest.isEmpty then (ds, 0) else
        let (out, n) := dropZeros fuel rest
        (out, n + 1)
    | _ => (ds, 0)

/-- The text of `0.ds * 10 ^ point`: positional from `0.0001` to below `10 ^ 16`, with a point in any case; otherwise with an
exponent of two digits or more. -/
def digitsText (ds : List Char) (point : Int) : List Char :=
  let size : Int := ds.length
  if -4 < point && point ≤ 16 then
    if point ≤ 0 then '0' :: '.' :: (List.replicate (-point).toNat '0' ++ ds)
    else if size ≤ point then ds ++ List.replicate (point - size).toNat '0' ++ ['.', '0']
    else ds.take point.toNat ++ '.' :: ds.drop point.toNat
  else
    let x := point - 1
    let tail := if ds.length > 1 then '.' :: ds.drop 1 else []
    let power := (toString x.natAbs).toList
    let power := if power.length < 2 then '0' :: power else power
    ds.take 1 ++ (tail ++ 'e' :: (if x < 0 then '-' else '+') :: power)

/-- The text of a positive number. -/
def shortestText (m : Nat) (e : Int) : List Char :=
  let (digits, k) := shortest m e
  let (kept, dropped) := dropZeros 20 (toString digits).toList.reverse
  digitsText kept.reverse (kept.length + (k + dropped))

/-- The text of a number, with as few digits as tell it from all others. -/
def text : Binary64 → String
  | .nan => "nan"
  | .infinite negative => if negative then "-inf" else "inf"
  | .finite negative m e =>
    (if negative then "-" else "") ++ if m == 0 then "0.0" else String.ofList (shortestText m e)

end Binary64

end Remedy.Json
