/-
# JSON values

A value of the data format in which the service talks to its clients, to the database and
to the question service.  Numbers written without a point and without an exponent that fit
64 bits, signed or unsigned, stay whole numbers; all others are doubles.  The members of an
object keep their order.
-/
import RevenueDesk.Keyed
import RevenueDesk.Number.Binary64

namespace RevenueDesk

inductive JsonNumber where
  /-- A whole number between `-2 ^ 63` and `2 ^ 64 - 1`. -/
  | whole (n : Int)
  | real (x : Binary64)
deriving DecidableEq, Inhabited

inductive Json where
  | null
  | bool (b : Bool)
  | number (n : JsonNumber)
  | string (s : String)
  | array (items : List Json)
  /-- The members in their order.  Names are distinct in a value that is read for what it
  denotes, and may be repeated in one that is read as it is written. -/
  | object (members : List (String × Json))
deriving Inhabited

namespace JsonNumber

/-- The least whole number that is not a double. -/
def leastWhole : Int := -0x8000000000000000

/-- The largest whole number that is not a double. -/
def largestWhole : Int := 0xFFFFFFFFFFFFFFFF

/-- The largest number of the signed type. -/
def largestSigned : Int := 0x7FFFFFFFFFFFFFFF

/-- The number as a signed 64-bit integer, if it is one. -/
def toSigned? : JsonNumber → Option Int
  | whole n => if n ≤ largestSigned then some n else none
  | real _ => none

/-- The number as a double, the nearest one. -/
def toBinary64 : JsonNumber → Binary64
  | whole n => .ofInt n
  | real x => x

end JsonNumber

namespace Json

def ofInt (n : Int) : Json := .number (.whole n)

def ofNat (n : Nat) : Json := .number (.whole n)

/-- A double as a value; what is infinite or not a number shows as null. -/
def ofBinary64 (x : Binary64) : Json :=
  if x.isFinite then .number (.real x) else .null

/-- A value, or null. -/
def ofOption {α : Type} (f : α → Json) : Option α → Json
  | none => .null
  | some a => f a

def ofList {α : Type} (f : α → Json) (xs : List α) : Json := .array (xs.map f)

def ofStrings (xs : List String) : Json := ofList .string xs

/-- Put a member into an object: a repeated name keeps its first place and takes the last
value. -/
def put (members : List (String × Json)) (name : String) (value : Json) :
    List (String × Json) :=
  Keyed.update name (fun _ => value) members

/-- The members of an object, if the value is one. -/
def members? : Json → Option (List (String × Json))
  | object ms => some ms
  | _ => none

def items? : Json → Option (List Json)
  | array xs => some xs
  | _ => none

def text? : Json → Option String
  | string s => some s
  | _ => none

/-- The member of that name, if the value is an object that has one. -/
def get? (v : Json) (name : String) : Option Json :=
  v.members?.bind (Keyed.find? name)

end Json

end RevenueDesk
