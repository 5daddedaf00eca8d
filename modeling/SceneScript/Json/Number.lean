/-!
# Json — Number

Numbers of a JSON text.  A number is read by its grammar and then has to have a finite value in
double precision.  The value that counts is the one a reader gets that keeps a 64-bit integer of
leading digits and scales it by a power of ten (`Decimal.inRange`).
-/

namespace SceneScript.Json

/-- A number taken apart: the digits before and after the point, and the exponent. -/
structure Decimal where
  whole    : List Char
  fraction : List Char := []
  /-- The exponent is negative. -/
  shrinks  : Bool := false
  exponent : List Char := []
  deriving Repr

/-- The value of a decimal digit. -/
def digitValue (c : Char) : Nat :=
  c.toNat - '0'.toNat

/-- Appends digits to `m` as long as the result fits into 64 bits; also the number of digits
left over. -/
def absorb (m : Nat) : List Char → Nat × Nat
  | []      => (m, 0)
  | c :: cs =>
    if 10 * m + digitValue c < UInt64.size then absorb (10 * m + digitValue c) cs
    else (m, cs.length + 1)

/-- The double nearest to `n`, ties to even, for `n` without an upper bound on the exponent. -/
def nearestDouble (n : Nat) : Nat :=
  if n < Nat.pow 2 53 then n
  else
    let unit := Nat.pow 2 (n.log2 - 52)
    let low := n / unit * unit
    let up := 2 * (n % unit) > unit || (2 * (n % unit) = unit && n / unit % 2 = 1)
    if up then low + unit else low

/-- From here on a product of doubles is infinite: halfway between the largest finite double and
the next power of two. -/
def overflowBound : Nat :=
  Nat.pow 2 1024 - Nat.pow 2 970

/-- `m` times ten to the power `e` is finite. -/
def isFinite (m : Nat) (e : Int) : Bool :=
  e ≤ 0 || m = 0 || (e ≤ 308 && nearestDouble m * nearestDouble (Nat.pow 10 e.toNat) < overflowBound)

/-- The number has a finite value. -/
def Decimal.inRange (d : Decimal) : Bool :=
  let (m, extra) := absorb 0 d.whole
  let (m, dropped) := absorb m d.fraction
  let shift : Int := extra - (d.fraction.length - dropped)
  let e := d.exponent.foldl (fun n c => 10 * n + digitValue c) 0
  isFinite m (if d.shrinks then shift - e else shift + e)

/-- The digits at the front of `s`, of which there is at least one, and the rest. -/
def readDigits (s : List Char) : Option (List Char × List Char) :=
  if (s.takeWhile Char.isDigit).isEmpty then none
  else some (s.takeWhile Char.isDigit, s.dropWhile Char.isDigit)

/-- The part before the point: a zero, or digits that do not start with one. -/
def readWhole (s : List Char) : Option (List Char × List Char) :=
  match readDigits s with
  | some ('0' :: _ :: _, _) => none
  | r                       => r

/-- The part after the point, if there is one. -/
def readFraction : List Char → Option (List Char × List Char)
  | '.' :: cs => readDigits cs
  | cs        => some ([], cs)

/-- The exponent, if there is one, and whether it is negative. -/
def readExponent : List Char → Option (Bool × List Char × List Char)
  | c :: cs =>
    if c = 'e' || c = 'E' then
      match cs with
      | '-' :: cs => (readDigits cs).map (true, ·)
      | '+' :: cs => (readDigits cs).map (false, ·)
      | cs        => (readDigits cs).map (false, ·)
    else some (false, [], c :: cs)
  | [] => some (false, [], [])

/-- A number without its sign, and the rest. -/
def readDecimal (s : List Char) : Option (Decimal × List Char) := do
  let (whole, s) ← readWhole s
  let (fraction, s) ← readFraction s
  let (shrinks, exponent, s) ← readExponent s
  return ({ whole, fraction, shrinks, exponent }, s)

/-- A number as it is written, and the rest. -/
def readNumber (s : List Char) : Option (List Char × List Char) :=
  let unsigned := if s.head? = some '-' then s.tail else s
  match readDecimal unsigned with
  | some (d, rest) =>
    if d.inRange then some (s.take (s.length - rest.length), rest) else none
  | none => none

end SceneScript.Json
