/-!
# Numbers of a document

A number is kept exactly as written: its sign, the digits before and behind the point, and its
exponent. Only plain digits within 64 bits count as a whole number; all else is binary floating
point, rounded to the nearest value of the format, ties to the even significand. Such a value is
written as one of the shortest decimals that round to it, the nearest of them: small and middling
magnitudes with a point, the others with a signed exponent.
-/

namespace Lexeme

/-- The power of `base` at which a positive value has its first digit. -/
def leadingPower (base : Nat) (q : Rat) : Int :=
  let e : Int := (Nat.toDigits base q.num.toNat).length - (Nat.toDigits base q.den).length
  if (base : Rat) ^ e ≤ q then e else e - 1

/-- The nearest whole number, and of two the even one. -/
def nearestEven (q : Rat) : Nat :=
  let n := q.floor.toNat
  let r := q - n
  if r < 1 / 2 then n else if 1 / 2 < r then n + 1 else n + n % 2

structure Binary64 where
  significand : Nat
  exponent : Int
  deriving DecidableEq, Repr

namespace Binary64

def minExponent : Int := -1074

def maxExponent : Int := 971

def leastFull : Nat := 0x10000000000000

def zero : Binary64 := ⟨0, minExponent⟩

def value (x : Binary64) : Rat := x.significand * (2 : Rat) ^ x.exponent

/-- The nearest value, unless it lies beyond all finite ones. -/
def round? (q : Rat) : Option Binary64 :=
  if q ≤ 0 then some zero
  else
    let e := max (leadingPower 2 q - 52) minExponent
    let m := nearestEven (q / (2 : Rat) ^ e)
    let x : Binary64 := if m = 2 * leastFull then ⟨leastFull, e + 1⟩ else ⟨m, e⟩
    if x.exponent ≤ maxExponent then some x else none

def maxTen : Nat := 308

/-- The value nearest to a power of ten, for powers that the format has. -/
def ten (k : Nat) : Rat := ((round? ((10 : Rat) ^ k)).getD zero).value

/-- Multiplies by a power of ten as the format does: by the rounded power, and rounded again. Far
below the range it divides by the largest power first, as often as needed. -/
def scaleTen? (x : Binary64) (e : Int) : Option Binary64 :=
  if x.significand = 0 then some x
  else if 0 ≤ e then
    if e ≤ maxTen then round? (x.value * ten e.toNat) else none
  else if -maxTen ≤ e then round? (x.value / ten (-e).toNat)
  else
    match round? (x.value / ten maxTen) with
    | some y => y.scaleTen? (e + maxTen)
    | none => none
termination_by (-e).toNat
decreasing_by
  have : (0 : Int) < maxTen := by decide
  omega

end Binary64

/-- The number `digits · 10 ^ power`. -/
structure Decimal where
  digits : Nat
  power : Int
  deriving DecidableEq, Repr

namespace Decimal

def value (d : Decimal) : Rat := d.digits * (10 : Rat) ^ d.power

/-- Moves the zeros at the end of the digits into the power, `fuel` of them at most. -/
def dropZeros : Nat → Decimal → Decimal
  | 0, d => d
  | fuel + 1, d => if d.digits % 10 = 0 then dropZeros fuel ⟨d.digits / 10, d.power + 1⟩ else d

/-- Whether a value rounds to `x`: it lies within half a step of it, and on the border only if the
significand is even. The step below the first significand of an exponent is half as wide. -/
def roundsTo (x : Binary64) (q : Rat) : Bool :=
  let step := (2 : Rat) ^ x.exponent
  let below :=
    if x.significand = Binary64.leastFull ∧ Binary64.minExponent < x.exponent then step / 4
    else step / 2
  let low := x.value - below
  let high := x.value + step / 2
  if x.significand % 2 = 0 then low ≤ q && q ≤ high else low < q && q < high

/-- The nearer of the two decimals around `x` that have `count` digits from its first one on, if it
rounds to `x`; else the other, if that does. -/
def withDigits? (x : Binary64) (count : Nat) : Option Decimal :=
  let power := leadingPower 10 x.value - count + 1
  let q := x.value / (10 : Rat) ^ power
  let near := nearestEven q
  let far := if (near : Rat) ≤ q then near + 1 else near - 1
  ([near, far].map (Decimal.mk · power)).find? fun d => roundsTo x d.value

/-- Seventeen digits tell every value from its neighbours. -/
def maxDigits : Nat := 17

def shortest (x : Binary64) : Decimal :=
  if x.significand = 0 then ⟨0, 0⟩
  else
    dropZeros maxDigits
      (((List.range' 1 maxDigits).findSome? (withDigits? x)).getD ⟨0, 0⟩)

/-- Powers of the first digit that are written without an exponent. -/
def positional (power : Int) : Bool := -5 ≤ power && power ≤ 15

def text (d : Decimal) : List Char :=
  let ds := Nat.toDigits 10 d.digits
  let point : Int := ds.length + d.power
  if positional (point - 1) then
    if 0 ≤ d.power then ds ++ List.replicate d.power.toNat '0' ++ ['.', '0']
    else if 0 < point then ds.take point.toNat ++ '.' :: ds.drop point.toNat
    else '0' :: '.' :: (List.replicate (-point).toNat '0' ++ ds)
  else
    let first := ds.take 1
    let rest := if ds.length = 1 then [] else '.' :: ds.drop 1
    let sign := if point - 1 < 0 then '-' else '+'
    first ++ rest ++ 'e' :: sign :: Nat.toDigits 10 (point - 1).natAbs

end Decimal

structure Number where
  negative : Bool
  whole : Nat
  /-- The digits behind the point; none if there is no point. -/
  fraction : List Char
  exponent? : Option Int
  deriving DecidableEq, Repr

namespace Number

def ofNat (n : Nat) : Number := ⟨false, n, [], none⟩

def minInteger : Int := -0x8000000000000000

def maxInteger : Int := 0xffffffffffffffff

/-- The whole number that is written, if it is one. The negative zero is none. -/
def integer? (n : Number) : Option Int :=
  let i : Int := if n.negative then -n.whole else n.whole
  if n.fraction = [] ∧ n.exponent? = none ∧ ¬(n.negative ∧ n.whole = 0)
      ∧ minInteger ≤ i ∧ i ≤ maxInteger then some i else none

theorem integer?_ofNat {n : Nat} (h : n < UInt64.size) :
    (ofNat n).integer? = some (n : Int) := by
  rw [UInt64.size] at h
  simp [integer?, ofNat, minInteger, maxInteger]
  omega

/-- Gathers digits as long as the number they make fits into 64 bits, and counts those left over. -/
def gather : Nat → List Char → Nat × Nat
  | m, [] => (m, 0)
  | m, c :: r =>
    let next := m * 10 + (c.toNat - 48)
    if next < UInt64.size then gather next r else (m, r.length + 1)

/-- The nearest that binary floating point comes to the size of the number: of the digits that fit
into 64 bits, scaled once. -/
def size? (n : Number) : Option Binary64 :=
  let (m, dropped) := gather 0 (Nat.toDigits 10 n.whole)
  let (m, unused) := gather m n.fraction
  let kept := n.fraction.length - unused
  (Binary64.round? m).bind fun x => x.scaleTen? (n.exponent?.getD 0 + dropped - kept)

def floatingText (n : Number) : List Char :=
  (if n.negative then ['-'] else [])
    ++ (match n.size? with
        | some x => (Decimal.shortest x).text
        | none => "inf".toList)

def text (n : Number) : List Char :=
  (if n.negative then ['-'] else []) ++ Nat.toDigits 10 n.whole
    ++ (if n.fraction = [] then [] else '.' :: n.fraction)
    ++ (match n.exponent? with
        | none => []
        | some e => 'e' :: ((if e < 0 then ['-'] else []) ++ Nat.toDigits 10 e.natAbs))

@[simp] theorem text_ofNat (n : Nat) : (ofNat n).text = Nat.toDigits 10 n := by
  simp [text, ofNat]

/-- Reads digits off the front, at least one. -/
def digits? (s : List Char) : Option (List Char × List Char) :=
  match s.takeWhile Char.isDigit with
  | [] => none
  | ds => some (ds, s.dropWhile Char.isDigit)

/-- Reads digits without needless zeros in front. -/
def whole? (s : List Char) : Option (Nat × List Char) :=
  (digits? s).bind fun (ds, r) =>
    if ds.head? = some '0' ∧ ds ≠ ['0'] then none else some (Nat.ofDigitChars 10 ds 0, r)

def fraction? : List Char → Option (List Char × List Char)
  | '.' :: r => digits? r
  | s => some ([], s)

def magnitude? (s : List Char) : Option (Nat × List Char) :=
  (digits? s).map fun (ds, r) => (Nat.ofDigitChars 10 ds 0, r)

def readExponent? : List Char → Option (Option Int × List Char)
  | [] => some (none, [])
  | c :: r =>
    if c = 'e' ∨ c = 'E' then
      match r with
      | '-' :: r => (magnitude? r).map fun (n, r) => (some (-n), r)
      | '+' :: r => (magnitude? r).map fun (n, r) => (some (n : Int), r)
      | r => (magnitude? r).map fun (n, r) => (some (n : Int), r)
    else some (none, c :: r)

def unsigned? (negative : Bool) (s : List Char) : Option (Number × List Char) :=
  (whole? s).bind fun (whole, r) =>
    (fraction? r).bind fun (fraction, r) =>
      (readExponent? r).map fun (exponent?, r) => (⟨negative, whole, fraction, exponent?⟩, r)

def read? : List Char → Option (Number × List Char)
  | '-' :: r => unsigned? true r
  | s => unsigned? false s

end Number
end Lexeme
