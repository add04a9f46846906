/-
JSON values. Integers and other numbers are told apart; the members of an object stand in
ascending order of their keys, each key once, and a later member replaces an earlier one.
-/
import ObjectTiers.Json.Binary64

namespace ObjectTiers

/-- Integers are those of 64 bits, signed or not; `real` holds every other number. -/
inductive Number
  | integer (i : Int)
  | real (x : Binary64)
  deriving DecidableEq, Repr

/-- A JSON value; the members of an object are pairs of a key and a value. -/
inductive Json
  | null
  | bool (b : Bool)
  | number (n : Number)
  | text (s : String)
  | array (items : List Json)
  | object (members : List (String × Json))
  deriving Repr, Inhabited

namespace Json

/-- The members with `key` set to `value`, in ascending order of keys. -/
def insertMember {α : Type} (key : String) (value : α) : List (String × α) → List (String × α)
  | [] => [(key, value)]
  | (k, v) :: r =>
    if key < k then (key, value) :: (k, v) :: r
    else if key = k then (key, value) :: r
    else (k, v) :: insertMember key value r

/-- An object from members in any order; of two members with one key the later counts. -/
def ofMembers (members : List (String × Json)) : Json :=
  .object (members.foldl (fun acc m => insertMember m.1 m.2 acc) [])

/-- A natural number as a value. -/
def ofNat (n : Nat) : Json := .number (.integer n)

/-- The member of an object under a key. -/
def member? (key : String) : Json → Option Json
  | .object members => members.lookup key
  | _ => none

end Json

end ObjectTiers
