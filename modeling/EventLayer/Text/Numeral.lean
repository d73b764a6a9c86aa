/-
**Numbers written as text.**

The editor stores numbers as texts.  A whole number is an optional sign and decimal digits of any
script; a decimal number may also have a point, an exponent, or be one of the words for infinity and
the undefined number.  Single underscores may stand between two digits, and blanks at either end do
not matter, unless they are the separators U+001C to U+001F.  The value of a decimal text is the
floating-point number nearest to the exact value it denotes.

Main definitions:

* `Text.isNumeralBlank` — the blanks that may surround a number;
* `Text.digitRun` — the digits at the start of a text;
* `Text.readInt?` — whole numbers;
* `Text.readDouble?` — decimal numbers.

Main results:

* `Text.ofDigits_append` — reading digits in two parts;
* `Text.isBlank_of_isNumeralBlank` — what may surround a number is blank.
-/
import EventLayer.Double
import EventLayer.Text.Blank
import EventLayer.Text.Digit

set_option autoImplicit false
set_option relaxedAutoImplicit false

namespace EventLayer.Text

/-! ### Surroundings -/

/-- Whether a character may stand around a number: the blanks, without the four separators that
divide files, groups, records and units. -/
def isNumeralBlank (c : Char) : Bool := isBlank c && !(0x1c ≤ c.toNat && c.toNat ≤ 0x1f)

theorem isBlank_of_isNumeralBlank {c : Char} (h : isNumeralBlank c = true) : isBlank c = true := by
  simp only [isNumeralBlank, Bool.and_eq_true] at h
  exact h.1

/-- The characters of a text without the blanks that may surround a number. -/
def numeralChars (s : String) : List Char :=
  ((s.toList.dropWhile isNumeralBlank).reverse.dropWhile isNumeralBlank).reverse

/-! ### Digits -/

/-- The number with the given decimal digits, the most significant first. -/
def ofDigits (ds : List Nat) : Nat := ds.foldl (fun n d => 10 * n + d) 0

@[simp] theorem ofDigits_nil : ofDigits [] = 0 := rfl

theorem foldl_digits (ds : List Nat) (n : Nat) :
    ds.foldl (fun n d => 10 * n + d) n = n * Nat.pow 10 ds.length + ofDigits ds := by
  induction ds generalizing n with
  | nil => simp [ofDigits]
  | cons d ds ih =>
    have h : ofDigits (d :: ds) = d * Nat.pow 10 ds.length + ofDigits ds := by
      have := ih d
      simpa [ofDigits] using this
    have power : Nat.pow 10 (ds.length + 1) = Nat.pow 10 ds.length * 10 := rfl
    rw [List.foldl_cons, ih, h, List.length_cons, power, Nat.add_mul, Nat.add_assoc,
      Nat.mul_comm 10 n, Nat.mul_assoc, Nat.mul_comm 10]

theorem ofDigits_append (ds es : List Nat) :
    ofDigits (ds ++ es) = ofDigits ds * Nat.pow 10 es.length + ofDigits es := by
  rw [ofDigits, List.foldl_append, foldl_digits]
  rfl

/-- The digits at the start of a text, in which an underscore may stand between two digits, and the
rest; `started` says that a digit comes right before. -/
def digitRun (started : Bool) : List Char → List Nat × List Char
  | [] => ([], [])
  | c :: cs =>
    if c = '_' ∧ started ∧ (cs.head?.map isDecimalDigit).getD false then digitRun false cs
    else
      match digitValue? c with
      | some d =>
        let (ds, rest) := digitRun true cs
        (d :: ds, rest)
      | none => ([], c :: cs)

/-- An optional sign at the start of a text: whether it is a minus, and the rest. -/
def readSign : List Char → Bool × List Char
  | '-' :: cs => (true, cs)
  | '+' :: cs => (false, cs)
  | cs => (false, cs)

/-! ### Whole numbers -/

/-- The greatest number of digits with which a whole number is read or written, zeros at its start
included. -/
def maxDigits : Nat := 4300

/-- Whether a whole number has few enough digits to be written. -/
def isWritable (n : Int) : Bool := n.natAbs < Nat.pow 10 maxDigits

/-- The whole number that decimal digits write, if there are not too many of them. -/
def wholeOfDigits? (ds : List Nat) : Option Nat :=
  if maxDigits < ds.length then none else some (ofDigits ds)

/-- The whole number that a text denotes. -/
def readInt? (s : String) : Option Int :=
  let (negative, body) := readSign (numeralChars s)
  match digitRun false body with
  | ([], _) => none
  | (ds, []) => (wholeOfDigits? ds).map fun (n : Nat) => if negative then -(n : Int) else n
  | _ => none

/-! ### Decimal numbers -/

/-- The floating-point number nearest to `m · 10 ^ e`, with a sign. -/
def scaled (negative : Bool) (digits : List Nat) (e : Int) : Double :=
  let significant := digits.dropWhile (· == 0)
  let m := ofDigits significant
  let top : Int := significant.length + e
  if m = 0 ∨ top < -400 then Double.zero negative
  else if 400 < top then .infinite negative
  else
    let magnitude : Rat :=
      if e < 0 then mkRat m (Nat.pow 10 (-e).toNat) else (m * Nat.pow 10 e.toNat : Nat)
    Double.ofRat (if negative then -magnitude else magnitude)

/-- An exponent at the start of a text and the rest; nothing is read where no exponent stands. -/
def readExponent : List Char → Option (Int × List Char)
  | c :: cs =>
    if c = 'e' ∨ c = 'E' then
      let (negative, body) := readSign cs
      match digitRun false body with
      | ([], _) => none
      | (ds, rest) => some (if negative then -(ofDigits ds : Int) else ofDigits ds, rest)
    else some (0, c :: cs)
  | [] => some (0, [])

/-- The unsigned words for the values that no digits denote. -/
def readWord? (negative : Bool) (cs : List Char) : Option Double :=
  let word := String.ofList (cs.map Char.toLower)
  if word = "inf" ∨ word = "infinity" then some (.infinite negative)
  else if word = "nan" then some .nan
  else none

/-- The digits after a point at the start of a text, and the rest. -/
def readFraction : List Char → List Nat × List Char
  | '.' :: cs => digitRun false cs
  | cs => ([], cs)

/-- The decimal number that a text denotes. -/
def readDouble? (s : String) : Option Double :=
  let (negative, body) := readSign (numeralChars s)
  let (whole, afterWhole) := digitRun false body
  let (fraction, afterFraction) := readFraction afterWhole
  if whole.isEmpty && fraction.isEmpty then readWord? negative body
  else
    match readExponent afterFraction with
    | some (e, []) => some (scaled negative (whole ++ fraction) (e - fraction.length))
    | _ => none

end EventLayer.Text
