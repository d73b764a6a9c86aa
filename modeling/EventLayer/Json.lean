/-
**Values of the editor's data.**

Everything an editor stores is a JSON value, and so is everything a running game keeps in its
variables.  Objects keep the order of their keys, and a whole number is told apart from a
floating-point one.  The readings below are the ones the rest of the library is built from: is a
value blank, which whole number does it stand for, what does it look like as a text.

Where two values are compared, numbers are compared by value across their kinds, and the truth
values count as one and zero.

Main definitions:

* `Json` — the values;
* `Json.truthy` — whether a value counts as given;
* `Json.field?`, `Json.field` — a field of an object;
* `Json.toInt`, `Json.toDouble` — the number a value stands for;
* `Json.text`, `Json.quoted` — a value as text;
* `Json.decimal?`, `Json.decimalPart` — the number that this text denotes;
* `Json.same` — equality of value.

Main results:

* `Json.field_obj` — a field of an object is looked up by its name;
* `Json.toInt_int`, `Json.truthy_int` — whole numbers stand for themselves and are blank only at
  zero.
-/
import EventLayer.OrderedMap
import EventLayer.Double.Shortest
import EventLayer.Text.Numeral

set_option autoImplicit false
set_option relaxedAutoImplicit false

namespace EventLayer

/-- A JSON value; the keys of an object are distinct and in order. -/
inductive Json where
  | null
  | bool (b : Bool)
  | int (n : Int)
  | float (x : Double)
  | str (s : String)
  | arr (items : List Json)
  | obj (fields : List (String × Json))
deriving Repr

namespace Json

instance : Inhabited Json := ⟨.null⟩

instance (n : Nat) : OfNat Json n := ⟨.int n⟩

instance : Coe Int Json := ⟨.int⟩

instance : Coe Bool Json := ⟨.bool⟩

instance : Coe String Json := ⟨.str⟩

/-! ### Blank values -/

/-- Whether a value counts as given: not null, false, a zero, or empty. -/
def truthy : Json → Bool
  | .null => false
  | .bool b => b
  | .int n => n != 0
  | .float x => x.isNonzero
  | .str s => s != ""
  | .arr items => !items.isEmpty
  | .obj fields => !fields.isEmpty

@[simp] theorem truthy_null : truthy .null = false := rfl

@[simp] theorem truthy_bool (b : Bool) : truthy (.bool b) = b := rfl

@[simp] theorem truthy_int (n : Int) : truthy (.int n) = (n != 0) := rfl

/-- The value, or a replacement for a blank one. -/
def orElse (v : Json) (d : Json) : Json := if v.truthy then v else d

/-! ### Objects and lists -/

/-- Whether a value is an object. -/
def isObject : Json → Bool
  | .obj _ => true
  | _ => false

/-- The field of an object with a given name; other values have no fields. -/
def field? (v : Json) (name : String) : Option Json :=
  match v with
  | .obj fields => OrderedMap.find name fields
  | _ => none

/-- The field of an object with a given name; it is a fault to ask another value for one. -/
def field (v : Json) (name : String) : Except Fault (Option Json) :=
  match v with
  | .obj fields => .ok (OrderedMap.find name fields)
  | _ => .error .notAnObject

@[simp] theorem field_obj (fields : List (String × Json)) (name : String) :
    field (.obj fields) name = .ok (OrderedMap.find name fields) := rfl

/-- The field with a given name, or a replacement where the object lacks it. -/
def fieldD (v : Json) (name : String) (d : Json) : Except Fault Json :=
  return (← v.field name).getD d

/-- The elements that a value has when it is gone through: those of a list, the characters of a
text, the keys of an object. -/
def elements : Json → Except Fault (List Json)
  | .arr items => .ok items
  | .str s => .ok (s.toList.map fun c => .str c.toString)
  | .obj fields => .ok (fields.map fun e => .str e.1)
  | _ => .error .wrongType

@[simp] theorem elements_arr (items : List Json) : elements (.arr items) = .ok items := rfl

/-- The number of elements of a value. -/
def count (v : Json) : Except Fault Nat := return (← v.elements).length

/-- The element at a position of a list or text; an object is not looked up by position. -/
def item (v : Json) (i : Nat) : Except Fault Json :=
  match v with
  | .obj _ => .error .missingKey
  | v => do
    match (← v.elements)[i]? with
    | some x => .ok x
    | none => .error .missingPosition

/-- The element at a position, or a replacement where there are fewer. -/
def itemD (v : Json) (i : Nat) (d : Json) : Except Fault Json := do
  if i < (← v.count) then v.item i else return d

/-! ### Numbers -/

/-- The whole number that a value stands for: fractions are cut off, texts are read. -/
def toInt : Json → Except Fault Int
  | .bool b => .ok b.toInt
  | .int n => .ok n
  | .float x => x.truncate
  | .str s =>
    match Text.readInt? s with
    | some n => .ok n
    | none => .error .notANumber
  | _ => .error .wrongType

@[simp] theorem toInt_int (n : Int) : toInt (.int n) = .ok n := rfl

/-- The floating-point number that a value stands for. -/
def toDouble : Json → Except Fault Double
  | .bool b => .ok (.finite b.toInt)
  | .int n => Double.ofIntChecked n
  | .float x => .ok x
  | .str s =>
    match Text.readDouble? s with
    | some x => .ok x
    | none => .error .notANumber
  | _ => .error .wrongType

/-- The whole number that a value equals, if it equals one. -/
def whole? : Json → Option Int
  | .bool b => some b.toInt
  | .int n => some n
  | .float x => x.whole?
  | _ => none

@[simp] theorem whole?_int (n : Int) : whole? (.int n) = some n := rfl

/-- Whether a value equals a whole number. -/
def isInt (v : Json) (n : Int) : Bool := v.whole? == some n

@[simp] theorem isInt_int (m n : Int) : isInt (.int m) n = (m == n) := by
  simp [isInt]

/-- A value that equals a whole number stands for one. -/
theorem toInt_of_isInt {v : Json} {n : Int} (h : v.isInt n = true) : ∃ m, toInt v = .ok m := by
  cases v with
  | bool b => exact ⟨b.toInt, rfl⟩
  | int m => exact ⟨m, rfl⟩
  | float x =>
    cases x with
    | negZero => exact ⟨0, rfl⟩
    | finite q => exact ⟨q.num.tdiv q.den, rfl⟩
    | nan | infinite => cases h
  | null | str | arr | obj => cases h

/-! ### Keys -/

/-- Whether a value can be a key: lists and objects cannot. -/
def isKey : Json → Bool
  | .arr _ => false
  | .obj _ => false
  | _ => true

/-- A value that can be a key, or a fault. -/
def asKey (v : Json) : Except Fault Json := if v.isKey then .ok v else .error .wrongType

/-- What a key is looked up by. -/
inductive KeyForm where
  | null
  | number (n : Int)
  | other (x : Double)
  | text (s : String)
deriving Repr, DecidableEq

/-- What a value is looked up by when it is a key: numbers by their value, texts by themselves. -/
def keyForm (v : Json) : KeyForm :=
  match v with
  | .str s => .text s
  | .float x => match x.whole? with | some n => .number n | none => .other x
  | .bool b => .number b.toInt
  | .int n => .number n
  | _ => .null

/-! ### Texts -/

/-- Texts joined by a comma and a space. -/
def joined (parts : List String) : String := ", ".intercalate parts

mutual

/-- A value as it appears inside a message: texts in quotes. -/
def quoted : Json → String
  | .null => "None"
  | .bool b => if b then "True" else "False"
  | .int n => toString n
  | .float x => x.text
  | .str s => Text.quote s
  | .arr items => "[" ++ joined (quotedItems items) ++ "]"
  | .obj fields => "\x7b" ++ joined (quotedFields fields) ++ "\x7d"

/-- The quoted forms of the elements of a list. -/
def quotedItems : List Json → List String
  | [] => []
  | v :: rest => quoted v :: quotedItems rest

/-- The quoted forms of the fields of an object. -/
def quotedFields : List (String × Json) → List String
  | [] => []
  | (k, v) :: rest => (Text.quote k ++ ": " ++ quoted v) :: quotedFields rest

end

/-- A value as text: a text is itself, and everything else is written as in a message. -/
def text : Json → String
  | .str s => s
  | v => quoted v

@[simp] theorem text_str (s : String) : text (.str s) = s := rfl

/-- The decimal number that the text of a value denotes; blanks of any kind may surround it. -/
def decimal? (v : Json) : Option Double := Text.readDouble? (Text.trim (text v))

/-- The whole part of the decimal number that the text of a value denotes. -/
def decimalPart (v : Json) : Except Fault Int :=
  match v.decimal? with
  | some x => x.truncate
  | none => .error .notANumber

/-! ### Equality of value -/

mutual

/-- Whether two values are equal: numbers by value, lists element by element, objects field by field
in any order. -/
def same : Json → Json → Bool
  | .null, .null => true
  | .str a, .str b => a == b
  | .arr a, .arr b => sameItems a b
  | .obj a, .obj b => a.length == b.length && sameFields a b
  | .bool a, .bool b => a == b
  | .bool a, .int b => a.toInt == b
  | .bool a, .float b => Double.sameValue (.finite a.toInt) b
  | .int a, .bool b => a == b.toInt
  | .int a, .int b => a == b
  | .int a, .float b => Double.sameValue (.finite a) b
  | .float a, .bool b => Double.sameValue a (.finite b.toInt)
  | .float a, .int b => Double.sameValue a (.finite b)
  | .float a, .float b => Double.sameValue a b
  | _, _ => false

/-- Whether two lists are equal element by element. -/
def sameItems : List Json → List Json → Bool
  | [], [] => true
  | a :: as, b :: bs => same a b && sameItems as bs
  | _, _ => false

/-- Whether every field of the first list has an equal in the second. -/
def sameFields : List (String × Json) → List (String × Json) → Bool
  | [], _ => true
  | (k, v) :: rest, fields =>
    (match OrderedMap.find k fields with
      | some w => same v w
      | none => false) && sameFields rest fields

end

end Json

end EventLayer
