import RemotePyMite.Text.Numeral

/-! # Shortest decimals of binary floating point numbers

A finite binary number stands for every real that rounds to it.  Its shortest decimal
is a decimal of that interval with the fewest digits, and of those the one nearest to
the number.  The search runs over the decimal grids from coarse to fine and looks at the
two neighbours of the number on each: if any point of a grid lies in the interval, so does
one of the two.

Which of two equally near decimals is taken, and how the digits are laid out, is a choice
of the output that shows them and is kept in a record of its own.
-/
namespace RemotePyMite

/-- The layout of a binary floating point number in its bits. -/
structure FloatFormat where
  fractionBits : Nat
  exponentBits : Nat

def FloatFormat.binary32 : FloatFormat := ⟨23, 8⟩

def FloatFormat.binary64 : FloatFormat := ⟨52, 11⟩

/-- A positive number `mantissa * 2 ^ exponent`.  `closeBelow` says that the next smaller
number of its format is only half as far away as the next larger one. -/
structure Magnitude where
  mantissa : Nat
  exponent : Int
  closeBelow : Bool

/-- What the bits of a floating point number mean. -/
inductive FloatValue where
  | nan
  | infinity (negative : Bool)
  | zero (negative : Bool)
  | nonzero (negative : Bool) (size : Magnitude)

/-- Which of two decimals is taken if a number lies half way between them. -/
inductive TieRule where
  /-- The greater one. -/
  | up
  /-- The one with an even last digit. -/
  | even
  deriving DecidableEq, Repr

/-- Whether the decimal above `below` is taken. -/
def TieRule.takesAbove : TieRule → Nat → Bool
  | .up, _ => true
  | .even, below => below % 2 = 1

namespace FloatFormat

def leastExponent (f : FloatFormat) : Int :=
  2 - (Nat.pow 2 (f.exponentBits - 1) : Nat) - f.fractionBits

def ofBits (f : FloatFormat) (bits : Nat) : FloatValue :=
  let unit := Nat.pow 2 f.fractionBits
  let steps := Nat.pow 2 f.exponentBits
  let fraction := bits % unit
  let stored := bits / unit % steps
  let negative := bits / (unit * steps) % 2 = 1
  if stored = steps - 1 then
    if fraction = 0 then .infinity negative else .nan
  else if stored = 0 then
    if fraction = 0 then .zero negative else .nonzero negative ⟨fraction, f.leastExponent, false⟩
  else .nonzero negative
    ⟨unit + fraction, f.leastExponent + (stored - 1), fraction = 0 ∧ 1 < stored⟩

end FloatFormat

namespace Magnitude

/-- The same number with a mantissa of exactly `bits` bits more than the leading one, as a
format with room for it keeps it. -/
def normalized (bits : Nat) (x : Magnitude) : Magnitude :=
  let shift := bits - Nat.log2 x.mantissa
  let mantissa := x.mantissa * Nat.pow 2 shift
  ⟨mantissa, x.exponent - shift, mantissa = Nat.pow 2 bits⟩

/-- A quarter of the last place of `x`, in units of `10 ^ place`, as a fraction. -/
def quarterUnit (x : Magnitude) (place : Int) : Nat × Nat :=
  (Nat.pow 2 (x.exponent - 2).toNat * Nat.pow 10 (-place).toNat,
    Nat.pow 2 (2 - x.exponent).toNat * Nat.pow 10 place.toNat)

/-- A multiple of `10 ^ place` that rounds to `x`, the nearest to `x` if there are two. -/
def onGrid? (x : Magnitude) (ties : TieRule) (place : Int) : Option Nat :=
  let (p, q) := x.quarterUnit place
  let value := 4 * x.mantissa * p
  let least := (4 * x.mantissa - if x.closeBelow then 1 else 2) * p
  let greatest := (4 * x.mantissa + 2) * p
  let even := x.mantissa % 2 = 0
  let below := value / q
  let inside := fun n => if even then least ≤ n ∧ n ≤ greatest else least < n ∧ n < greatest
  let middle := (2 * below + 1) * q
  let above := middle < 2 * value ∨ (middle = 2 * value ∧ ties.takesAbove below)
  if inside (below * q) then
    if inside ((below + 1) * q) ∧ above then some (below + 1) else some below
  else if inside ((below + 1) * q) then some (below + 1)
  else none

/-- The first grid, from `10 ^ place` downwards, that has a decimal of `x`. -/
def searchGrids (x : Magnitude) (ties : TieRule) : Nat → Int → Nat × Int
  | 0, place => ((4 * x.mantissa * (x.quarterUnit place).1) / (x.quarterUnit place).2, place)
  | steps + 1, place =>
    match x.onGrid? ties place with
    | some n => (n, place)
    | none => searchGrids x ties steps (place - 1)

/-- A power of ten above every number that rounds to `x`. -/
def ceilingPlace (x : Magnitude) : Int :=
  let (p, q) := x.quarterUnit 0
  (Numeral.decimal ((4 * x.mantissa + 2) * p)).length - (Numeral.decimal q).length + 1

/-- The shortest decimal of `x`: its digits as a number, and the place of the last one.
No format in use needs more than seventeen digits. -/
def shortest (x : Magnitude) (ties : TieRule) : Nat × Int :=
  x.searchGrids ties 24 x.ceilingPlace

end Magnitude

/-- How an output lays out the digits of a number: which of two equally near decimals it
takes, the decimal exponents of the leading digit between which it is written without an
exponent, whether an exponent that is not negative has a plus sign, and the words for what
is not a number. -/
structure DecimalLayout where
  ties : TieRule
  leastFixed : Int
  greatestFixed : Int
  plusSign : Bool
  nan : String
  infinity : String

namespace DecimalLayout

/-- The digits `digits`, the last of them at `10 ^ place`. -/
def digits (layout : DecimalLayout) (digits : List Char) (place : Int) : List Char :=
  let exponent := place + digits.length - 1
  if layout.leastFixed ≤ exponent ∧ exponent ≤ layout.greatestFixed then
    if 0 ≤ place then digits ++ List.replicate place.toNat '0' ++ ['.', '0']
    else if 0 ≤ exponent then
      digits.take (exponent.toNat + 1) ++ '.' :: digits.drop (exponent.toNat + 1)
    else '0' :: '.' :: List.replicate (-exponent - 1).toNat '0' ++ digits
  else
    digits.take 1 ++ (if digits.length = 1 then [] else '.' :: digits.drop 1) ++ 'e' ::
      (if layout.plusSign ∧ 0 ≤ exponent then ['+'] else []) ++ Numeral.integer exponent

/-- The text of a number; of an infinity and a negative number with a sign. -/
def text (layout : DecimalLayout) : FloatValue → List Char
  | .nan => layout.nan.toList
  | .infinity negative => (if negative then ['-'] else []) ++ layout.infinity.toList
  | .zero negative => (if negative then ['-'] else []) ++ ['0', '.', '0']
  | .nonzero negative x =>
    (if negative then ['-'] else []) ++
      layout.digits (Numeral.decimal (x.shortest layout.ties).1) (x.shortest layout.ties).2

end DecimalLayout

end RemotePyMite
