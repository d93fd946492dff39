/-!
# Document — configuration and identities as stored documents

Settings and identities are stored as JSON values. Only what a stored value can depend on is kept of
a JSON value: of a number that is not an integer it matters only that it is none.

A record is written as an object. It is read from an object, in which further fields are ignored, or
from the list of its fields in order. A value out of finitely many is written as its name.
-/

namespace FlowTrace

inductive Document
  | null
  | bool (b : Bool)
  | int (n : Int)
  | fraction
  | text (s : String)
  | list (items : List Document)
  | object (fields : List (String × Document))
  deriving Repr, Inhabited

/-- Values that can be written to a document and read back. -/
class Stored (α : Type) where
  write : α → Document
  read? : Document → Option α

/-- Types of finitely many values, each with a name. -/
class Named (α : Type) where
  all : List α
  name : α → String

namespace Document

/-! ## Names -/

/-- The value of a name. -/
def named? {α : Type} [Named α] (s : String) : Option α :=
  Named.all.find? fun a => Named.name a == s

/-- A value is also read from an object with its name for a field that holds nothing. -/
def readNamed? {α : Type} [Named α] : Document → Option α
  | .text s => named? s
  | .object [(s, .null)] => named? s
  | _ => none

instance {α : Type} [Named α] : Stored α where
  write a := .text (Named.name a)
  read? := readNamed?

/-! ## Numbers -/

/-- An integer from `low` up to, but without, `high`. -/
def readInt? (low high : Int) : Document → Option Int
  | .int n => if low ≤ n ∧ n < high then some n else none
  | _ => none

/-- A natural number below `bound`. -/
def readNat? (bound : Nat) (d : Document) : Option Nat :=
  (d.readInt? 0 bound).map Int.toNat

instance : Stored UInt8 where
  write n := .int n.toNat
  read? d := (d.readNat? UInt8.size).map Nat.toUInt8

instance : Stored UInt16 where
  write n := .int n.toNat
  read? d := (d.readNat? UInt16.size).map Nat.toUInt16

instance : Stored UInt32 where
  write n := .int n.toNat
  read? d := (d.readNat? UInt32.size).map Nat.toUInt32

instance : Stored UInt64 where
  write n := .int n.toNat
  read? d := (d.readNat? UInt64.size).map Nat.toUInt64

instance : Stored Int32 where
  write n := .int n.toInt
  read? d := (d.readInt? (-0x80000000) 0x80000000).map Int.toInt32

/-- Sizes and counts have at most 64 bits. -/
instance : Stored Nat where
  write n := .int n
  read? := readNat? UInt64.size

/-! ## Options and lists -/

instance {α : Type} [Stored α] : Stored (Option α) where
  write
    | some a => Stored.write a
    | none => .null
  read?
    | .null => some none
    | d => (Stored.read? d).map some

instance {α : Type} [Stored α] : Stored (List α) where
  write items := .list (items.map Stored.write)
  read?
    | .list items => items.mapM Stored.read?
    | _ => none

/-! ## Records -/

/-- The fields of a record, by name or by place. A field that is absent from an object is absent
from the answer. -/
def fields? (names : List String) : Document → Option (List (Option Document))
  | .object fields => some (names.map fun name => fields.lookup name)
  | .list items => if items.length = names.length then some (items.map some) else none
  | _ => none

/-- A field that has to be present. -/
def required {α : Type} [Stored α] (field : Option Document) : Option α :=
  field.bind Stored.read?

/-- A field that counts as empty where it is absent. -/
def optional {α : Type} [Stored α] (field : Option Document) : Option (Option α) :=
  Stored.read? (field.getD .null)

end Document

end FlowTrace
