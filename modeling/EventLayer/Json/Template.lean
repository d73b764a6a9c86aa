/-
**Templates.**

A text can serve as a template: its placeholders are filled in with a value.  A placeholder begins
with a percent sign and ends with a letter that says how the value is written; between them it may
name a field of an object, ask for signs, zeros or a left margin, and give a width and a precision.
A doubled percent sign stands for itself.

A template has one argument.  It goes to the first placeholder, or to the size of one that takes its
size from the argument, and it may not be left over; only an object or a list, which could have been
looked into, may.  A placeholder with a field name has that field as an argument of its own.

Main definitions:

* `Template.Placeholder`, `Template.Piece`, `Template.pieces` — a template in parts;
* `Template.Argument`, `Template.take` — what is filled in;
* `Template.convert`, `Template.Written.laidOut` — a value as a placeholder asks for it;
* `Template.fill` — the text that a template becomes.

Main results:

* `Template.fill_of_not_mem` — without a percent sign a template can only be filled in with a value
  that may be left over, and stays as it is.
-/
import EventLayer.Double.Rounded
import EventLayer.Json.Number

set_option autoImplicit false
set_option relaxedAutoImplicit false

namespace EventLayer

namespace Template

/-! ### Parts of a template -/

/-- A width or a precision. -/
inductive Size where
  | written (n : Nat)
  /-- The argument gives the size. -/
  | taken
deriving Repr, DecidableEq

/-- What a placeholder asks for, in the order in which it says so. -/
structure Placeholder where
  /-- The field that it names, if it names one; a name without its closing bracket is none. -/
  key : Option (Option String) := none
  flags : List Char := []
  width : Option Size := none
  precision : Option Size := none
  /-- The letter that ends it; none where the template ends before. -/
  letter : Option Char := none
deriving Repr

/-- A part of a template. -/
inductive Piece where
  | literal (c : Char)
  | placeholder (p : Placeholder)

/-- The name up to the bracket that closes it, and what follows; brackets inside are paired. -/
def closeKey : Nat → List Char → Option (List Char × List Char)
  | _, [] => none
  | 0, ')' :: cs => some ([], cs)
  | depth, c :: cs =>
    let depth := if c = '(' then depth + 1 else if c = ')' then depth - 1 else depth
    (closeKey depth cs).map fun r => (c :: r.1, r.2)

/-- The field name at the start of a placeholder, and what follows. -/
def readKey : List Char → Option (Option String) × List Char
  | '(' :: cs =>
    match closeKey 0 cs with
    | some (name, rest) => (some (some (String.ofList name)), rest)
    | none => (some none, [])
  | cs => (none, cs)

/-- Whether a character is a flag. -/
def isFlag (c : Char) : Bool := c ∈ ['-', '+', ' ', '#', '0']

/-- The size at the start of a text, and what follows. -/
def readSize : List Char → Option Size × List Char
  | '*' :: cs => (some .taken, cs)
  | cs =>
    match cs.takeWhile Char.isDigit with
    | [] => (none, cs)
    | ds =>
      let n := Text.ofDigits (ds.map fun c => c.toNat - 48)
      (some (.written n), cs.dropWhile Char.isDigit)

/-- The precision at the start of a text, and what follows; a point alone asks for none at all. -/
def readPrecision : List Char → Option Size × List Char
  | '.' :: cs =>
    let (size, rest) := readSize cs
    (some (size.getD (.written 0)), rest)
  | cs => (none, cs)

/-- What follows a letter that says nothing about the text. -/
def skipLength : List Char → List Char
  | 'h' :: cs | 'l' :: cs | 'L' :: cs => cs
  | cs => cs

/-- The placeholder that follows a percent sign, and what follows it. -/
def readPlaceholder (cs : List Char) : Placeholder × List Char :=
  let (key, cs) := readKey cs
  let flags := cs.takeWhile isFlag
  let (width, cs) := readSize (cs.dropWhile isFlag)
  let (precision, cs) := readPrecision cs
  match skipLength cs with
  | [] => ({ key, flags, width, precision }, [])
  | letter :: rest => ({ key, flags, width, precision, letter := some letter }, rest)

/-- The parts of a text; its first `skip` characters belong to a part already read. -/
def piecesFrom : Nat → List Char → List Piece
  | _, [] => []
  | skip + 1, _ :: cs => piecesFrom skip cs
  | 0, '%' :: cs =>
    match cs with
    | '%' :: _ => .literal '%' :: piecesFrom 1 cs
    | _ =>
      let (p, rest) := readPlaceholder cs
      .placeholder p :: piecesFrom (cs.length - rest.length) cs
  | 0, c :: cs => .literal c :: piecesFrom 0 cs

/-- The parts of a template. -/
def pieces (s : String) : List Piece := piecesFrom 0 s.toList

/-! ### The argument -/

/-- The argument of a template. -/
structure Argument where
  /-- The value that the template is filled in with. -/
  value : Json
  /-- What the next placeholder takes: the value, or the field that was named last. -/
  current : Json
  taken : Bool := false

/-- An operation that may take the argument. -/
abbrev Filling (α : Type) := StateT Argument (Except Fault) α

/-- Whether a value can be looked into, and may therefore be left over. -/
def isKeyed : Json → Bool
  | .arr _ => true
  | .obj _ => true
  | _ => false

/-- Whether an argument is left over. -/
def Argument.leftOver (a : Argument) : Bool := !a.taken

/-- Take the argument; it can be taken once. -/
def take : Filling Json := do
  let a ← get
  if a.taken then throw .wrongType
  set { a with taken := true }
  return a.current

/-- Make a named field the argument; only an object has named fields. -/
def select (key : Option String) : Filling Unit := do
  let a ← get
  if !isKeyed a.value then throw .wrongType
  match key, a.value with
  | none, _ => throw .malformedTemplate
  | some name, .obj fields =>
    match OrderedMap.find name fields with
    | some v => set { a with current := v, taken := false }
    | none => throw .missingKey
  | some _, _ => throw .wrongType

/-- A size, which has to stay below a bound. -/
def size (bound : Nat) : Size → Filling Int
  | .written n => if n < bound then return n else throw .malformedTemplate
  | .taken => do
    match (← take).intIn? with
    | some n => if -(bound : Int) ≤ n ∧ n < bound then return n else throw .tooLarge
    | none => throw .wrongType

/-! ### Values as placeholders ask for them -/

/-- A written value before it is brought to its width. -/
structure Written where
  /-- Numbers have a sign and can be filled up with zeros. -/
  isNumber : Bool := false
  negative : Bool := false
  /-- The mark of the base. -/
  mark : List Char := []
  body : List Char

/-- A written value with its sign, brought to a width. -/
def Written.laidOut (w : Written) (flags : List Char) (width : Nat) : List Char :=
  let sign :=
    if w.negative then ['-']
    else if w.isNumber && '+' ∈ flags then ['+']
    else if w.isNumber && ' ' ∈ flags then [' ']
    else []
  let head := sign ++ w.mark
  let missing := width - (head ++ w.body).length
  if '-' ∈ flags then head ++ w.body ++ List.replicate missing ' '
  else if w.isNumber && '0' ∈ flags then head ++ List.replicate missing '0' ++ w.body
  else List.replicate missing ' ' ++ head ++ w.body

/-- A text, cut off at a precision. -/
def textual (precision : Option Nat) (s : String) : Written :=
  { body := match precision with
      | some n => s.toList.take n
      | none => s.toList }

mutual

/-- Whether every whole number in a value has few enough digits to be written. -/
def isWritable : Json → Bool
  | .int n => Text.isWritable n
  | .arr items => areWritable items
  | .obj fields => haveWritable fields
  | _ => true

/-- Whether the elements of a list can be written. -/
def areWritable : List Json → Bool
  | [] => true
  | v :: rest => isWritable v && areWritable rest

/-- Whether the fields of an object can be written. -/
def haveWritable : List (String × Json) → Bool
  | [] => true
  | (_, v) :: rest => isWritable v && haveWritable rest

end

/-- The text of a value; a number with too many digits has none. -/
def textOf (v : Json) : Except Fault String :=
  if isWritable v then .ok v.text else .error .notANumber

/-- The quoted form of a value; a number with too many digits has none. -/
def quotedOf (v : Json) : Except Fault String :=
  if isWritable v then .ok v.quoted else .error .notANumber

/-- A text with everything beyond the first 128 characters of the code escaped. -/
def escaped (s : String) : String :=
  String.ofList (s.toList.flatMap fun c => if c.toNat < 128 then [c] else Text.escapeCode c)

/-- The whole number that a value is cut off to; texts are not read. -/
def wholePart (v : Json) : Except Fault Int := do (← v.number).truncate

/-- A whole number in a base, with at least as many digits as the precision says. -/
def integral (base : Nat) (mark : List Char) (precision : Option Nat) (n : Int) :
    Except Fault Written :=
  if base = 10 && !Text.isWritable n then .error .notANumber
  else
    let digits := Nat.toDigits base n.natAbs
    let zeros := List.replicate (precision.getD 0 - digits.length) '0'
    .ok { isNumber := true, negative := decide (n < 0), mark, body := zeros ++ digits }

/-- A number in one of the decimal forms. -/
def decimal (form : Rat → List Char) (v : Json) : Except Fault Written := do
  match ← (← v.number).toDouble with
  | .nan => return { isNumber := true, body := "nan".toList }
  | .infinite negative => return { isNumber := true, negative, body := "inf".toList }
  | .negZero => return { isNumber := true, negative := true, body := form 0 }
  | .finite q => return { isNumber := true, negative := decide (q < 0), body := form q.abs }

/-- A character, given as a text of one or as its code. -/
def character (v : Json) : Except Fault Written :=
  match v with
  | .str s => match s.toList with
    | [c] => .ok { body := [c] }
    | _ => .error .wrongType
  | v =>
    match v.intIn? with
    | some n =>
      if 0 ≤ n ∧ n < 0x110000 then .ok { body := [Char.ofNat n.toNat] } else .error .tooLarge
    | none => .error .wrongType

/-- A written value in capital letters. -/
def Written.capital (w : Written) : Written :=
  { w with mark := w.mark.map Char.toUpper, body := w.body.map Char.toUpper }

/-- A value as the letter of a placeholder asks for it. -/
def convert (letter : Char) (alternate : Bool) (precision : Option Nat) (v : Json) :
    Except Fault Written := do
  let marked (m : String) : List Char := if alternate then m.toList else []
  let places := precision.getD 6
  let based (base : Nat) (mark : String) : Except Fault Written := do
    match v.intIn? with
    | some n => integral base (marked mark) precision n
    | none => throw .wrongType
  match letter with
  | 's' => return textual precision (← textOf v)
  | 'r' => return textual precision (← quotedOf v)
  | 'a' => return textual precision (escaped (← quotedOf v))
  | 'd' | 'i' | 'u' => integral 10 [] precision (← wholePart v)
  | 'o' => based 8 "0o"
  | 'x' => based 16 "0x"
  | 'X' => return (← based 16 "0x").capital
  | 'e' => decimal (Double.scientificText places alternate) v
  | 'E' => return (← decimal (Double.scientificText places alternate) v).capital
  | 'f' => decimal (Double.fixedText places alternate) v
  | 'F' => return (← decimal (Double.fixedText places alternate) v).capital
  | 'g' => decimal (Double.generalText places alternate) v
  | 'G' => return (← decimal (Double.generalText places alternate) v).capital
  | 'c' => character v
  | _ => throw .malformedTemplate

/-! ### Filling in -/

/-- Widths stay below this bound. -/
def widthBound : Nat := 0x8000000000000000

/-- Precisions stay below this bound. -/
def precisionBound : Nat := 0x80000000

/-- A placeholder filled in. -/
def fillPlaceholder (p : Placeholder) : Filling (List Char) := do
  if let some key := p.key then select key
  let width ← p.width.mapM (size widthBound)
  let precision ← p.precision.mapM (size precisionBound)
  let some letter := p.letter | throw .malformedTemplate
  let w ← convert letter ('#' ∈ p.flags) (precision.map Int.toNat) (← take)
  -- a negative width asks for a left margin
  let width := width.getD 0
  let flags := if width < 0 then '-' :: p.flags else p.flags
  let a ← get
  if isKeyed a.value && a.leftOver then throw .wrongType
  return w.laidOut flags width.natAbs

/-- Several parts filled in. -/
def fillPieces : List Piece → Filling (List Char)
  | [] => return []
  | .literal c :: rest => return c :: (← fillPieces rest)
  | .placeholder p :: rest => return (← fillPlaceholder p) ++ (← fillPieces rest)

/-- A template filled in with a value. -/
def fill (template : String) (v : Json) : Except Fault String := do
  let (cs, a) ← (fillPieces (pieces template)).run { value := v, current := v }
  if !isKeyed v && a.leftOver then throw .wrongType
  return String.ofList cs

theorem pieces_of_not_mem {s : String} (h : '%' ∉ s.toList) :
    pieces s = s.toList.map Piece.literal := by
  unfold pieces
  generalize s.toList = cs at h
  induction cs with
  | nil => rfl
  | cons c cs ih =>
    rw [List.mem_cons, not_or] at h
    rw [List.map_cons, ← ih h.2, piecesFrom]
    exact fun he => h.1 he.symm

theorem fillPieces_literal (cs : List Char) (a : Argument) :
    fillPieces (cs.map Piece.literal) a = .ok (cs, a) := by
  induction cs with
  | nil => rfl
  | cons c cs ih =>
    simp only [List.map_cons, fillPieces, bind, StateT.bind, ih, Except.bind]
    rfl

/-- Without a percent sign nothing is filled in: the value has to be one that may be left over. -/
theorem fill_of_not_mem {s : String} (h : '%' ∉ s.toList) (v : Json) :
    fill s v = if isKeyed v then .ok s else .error .wrongType := by
  unfold fill
  rw [pieces_of_not_mem h]
  simp only [StateT.run, fillPieces_literal, bind, Except.bind, Argument.leftOver]
  cases isKeyed v <;> simp [pure, Except.pure, throw, throwThe, MonadExceptOf.throw]

end Template

end EventLayer
