/-
Winnow/Value/Basic.lean

The values that settings and filter definitions are made of.

A value is a scalar, or a list, a tuple, a mapping or a set of values.  A
mapping keeps its entries in the order in which their keys first came.

Two scalars are the same key when they are equal as numbers or as texts; truth
values and levels are numbers, so that `1`, `1.0` and the truth value for yes
are one key (`Scalar.same`).  A float that is no number is the same key only as
itself; to tell such floats apart they are numbered.
-/
import Winnow.Attribute
import Winnow.Calendar
import Winnow.Decimal.Shortest
import Winnow.Log.Level

namespace Winnow

/-! ### Kinds -/

/-- The kinds of values. -/
inductive Kind
  | null
  | truth
  | integer
  | float
  | text
  | bytes
  | date
  | time
  | level
  | attribute
  | operation
  | list
  | tuple
  | mapping
  | set
  deriving DecidableEq, Repr

namespace Kind

/-- The short name of a kind in messages. -/
def name : Kind → String
  | null => "NoneType"
  | truth => "bool"
  | integer => "int"
  | float => "float"
  | text => "str"
  | bytes => "bytes"
  | date => "date"
  | time => "datetime"
  | level => "LogLevel"
  | .attribute => "ResourceAttribute"
  | operation => "StringOperation"
  | list => "list"
  | tuple => "tuple"
  | mapping => "dict"
  | set => "set"

/-- The full name of a kind in messages. -/
def fullName : Kind → String
  | date => "datetime.date"
  | time => "datetime.datetime"
  | k => k.name

/-- Whether the values of the kind are the members of a closed enumeration. -/
def isEnumeration : Kind → Bool
  | .level | .attribute | .operation => true
  | _ => false

/-- A kind named between angle brackets. -/
def bracketed (k : Kind) : String :=
  if k.isEnumeration then s!"<enum '{k.name}'>" else s!"<class '{k.fullName}'>"

end Kind

/-! ### Scalars -/

/-- A value without parts. -/
inductive Scalar
  | null
  | truth (b : Bool)
  | integer (n : Int)
  /-- A float that is a number. -/
  | float (x : Float)
  /-- A float that is no number. -/
  | nan (mark : Nat)
  | text (s : String)
  | bytes (bs : List UInt8)
  | date (d : Date)
  | time (t : DateTime)
  | level (l : Log.Level)
  | attribute (a : Attribute)
  | operation (o : Operation)
  deriving Repr

namespace Scalar

/-- The kind of a scalar. -/
def kind : Scalar → Kind
  | null => .null
  | truth _ => .truth
  | integer _ => .integer
  | float _ | nan _ => .float
  | text _ => .text
  | bytes _ => .bytes
  | date _ => .date
  | time _ => .time
  | level _ => .level
  | .attribute _ => .attribute
  | operation _ => .operation

/-- The mark of the float that every plain word for no number stands for. -/
def commonMark : Nat := 0

/-- A float, which gets a mark if it is no number. -/
def ofFloat (mark : Nat) (x : Float) : Scalar := if x.isNaN then nan mark else float x

/-- The whole number that a truth value, an integer or a level stands for. -/
def whole? : Scalar → Option Int
  | truth b => some (if b then 1 else 0)
  | integer n => some n
  | level l => some l.number
  | _ => none

/-- A finite float against a whole number. -/
def compareFloat (x : Float) (n : Int) : Ordering :=
  let bits := x.toBits
  let size := Decimal.Binary.ofBits (bits &&& 0x7FFFFFFFFFFFFFFF)
  let signed : Int := if bits >>> 63 == 1 then -(size.m : Int) else size.m
  compare (signed * Decimal.twoTo size.q) (n * Decimal.twoTo (-size.q))

/-- Whether a float is exactly a whole number. -/
def floatIsWhole (x : Float) (n : Int) : Bool :=
  !x.isInf && compareFloat x n == .eq

/-- Whether a float is a whole number or more. -/
def floatReaches (x : Float) (n : Int) : Bool :=
  if x.isInf then 0.0 < x else compareFloat x n != .lt

/-- Whether two scalars are the same key. -/
def same (a b : Scalar) : Bool :=
  match a.whole?, b.whole? with
  | some m, some n => m == n
  | some m, none => match b with
    | float y => floatIsWhole y m
    | _ => false
  | none, some n => match a with
    | float x => floatIsWhole x n
    | _ => false
  | none, none => match a, b with
    | null, null => true
    | float x, float y => x == y
    | nan i, nan j => i == j
    | text s, text t => s == t
    | bytes s, bytes t => s == t
    | date d, date e => d == e
    | time t, time u => t.same u
    | .attribute a, .attribute b => a == b
    | operation o, operation p => o == p
    | _, _ => false

/-- Whether a scalar counts as empty. -/
def isEmpty : Scalar → Bool
  | null => true
  | truth b => !b
  | integer n => n == 0
  | float x => x == 0.0
  | text s => s.isEmpty
  | bytes bs => bs.isEmpty
  | _ => false

end Scalar

/-! ### Values -/

/-- A value. -/
inductive Value
  | scalar (s : Scalar)
  | list (items : List Value)
  | tuple (items : List Value)
  | mapping (entries : List (Value × Value))
  | set (members : List Value)

instance : Inhabited Value := ⟨.scalar .null⟩

namespace Value

/-- No value. -/
abbrev null : Value := .scalar .null

/-- A text. -/
abbrev text (s : String) : Value := .scalar (.text s)

/-- A truth value. -/
abbrev truth (b : Bool) : Value := .scalar (.truth b)

/-- An integer. -/
abbrev integer (n : Int) : Value := .scalar (.integer n)

/-- The kind of a value. -/
def kind : Value → Kind
  | scalar s => s.kind
  | list _ => .list
  | tuple _ => .tuple
  | mapping _ => .mapping
  | set _ => .set

/-- Whether a value counts as empty. -/
def isEmpty : Value → Bool
  | scalar s => s.isEmpty
  | list items => items.isEmpty
  | tuple items => items.isEmpty
  | mapping entries => entries.isEmpty
  | set members => members.isEmpty

/-- The text of a value that is one. -/
def text? : Value → Option String
  | scalar (.text s) => some s
  | _ => none

mutual
/-- Whether two values are the same key.  Lists, mappings and sets are no
keys. -/
def sameKey : Value → Value → Bool
  | scalar a, scalar b => a.same b
  | tuple as, tuple bs => sameKeys as bs
  | _, _ => false

/-- Whether two rows of keys are the same, place by place. -/
def sameKeys : List Value → List Value → Bool
  | [], [] => true
  | a :: as, b :: bs => sameKey a b && sameKeys as bs
  | _, _ => false
end

mutual
/-- The kind of the first part of a value that can be no key. -/
def unhashable? : Value → Option Kind
  | scalar _ => none
  | tuple items => unhashableIn? items
  | v => some v.kind

/-- The kind of the first part of values that can be no key. -/
def unhashableIn? : List Value → Option Kind
  | [] => none
  | v :: rest => match unhashable? v with
    | some kind => some kind
    | none => unhashableIn? rest
end

/-- The values met when a value is run through: the items of a list, a tuple
or a set, the keys of a mapping, the characters of a text, the numbers of
bytes. -/
def elements? : Value → Option (List Value)
  | scalar (.text s) => some (s.toList.map fun c => text (String.singleton c))
  | scalar (.bytes bs) => some (bs.map fun b => integer b.toNat)
  | scalar _ => none
  | list items => some items
  | tuple items => some items
  | mapping entries => some (entries.map (·.1))
  | set members => some members

end Value

/-! ### Entries -/

namespace Entries

variable {α : Type}

/-- The value under a key. -/
def find? (key : Value) : List (Value × α) → Option α
  | [] => none
  | (k, v) :: rest => if k.sameKey key then some v else find? key rest

/-- Puts a value under a key: in place of the value there, or at the end. -/
def insert (key : Value) (value : α) : List (Value × α) → List (Value × α)
  | [] => [(key, value)]
  | (k, v) :: rest => if k.sameKey key then (k, value) :: rest else (k, v) :: insert key value rest

end Entries

end Winnow
