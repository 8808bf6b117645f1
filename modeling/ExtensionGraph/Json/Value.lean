import ExtensionGraph.Number.Binary64

/-!
# JSON values

A value keeps integers apart from floating-point numbers: `1` and `1.0` are different values.
An object is the list of its members with the keys in ascending order, each key once; the
operations below keep it so.

## Main definitions

* `ExtensionGraph.Json.Value` — JSON values.
* `ExtensionGraph.Json.Object` — the members of an object, with `insert` and `find?`.
* `ExtensionGraph.Json.Value.asString?`, `ExtensionGraph.Json.Value.asNat?` — typed views.

## Main results

* `ExtensionGraph.Json.Object.find?_insert` — a lookup after an insertion.
-/

namespace ExtensionGraph.Json

/-- A JSON number: an integer, or anything written with a point, an exponent or too many
digits. -/
inductive Number where
  | integer (value : Int)
  | float (value : Binary64)
deriving DecidableEq, Inhabited

/-- A JSON value. -/
inductive Value where
  | null
  | bool (value : Bool)
  | number (value : Number)
  | string (value : String)
  | array (items : List Value)
  | object (members : List (String × Value))
deriving Inhabited

/-- The members of a JSON object in ascending order of their keys. -/
abbrev Object := List (String × Value)

namespace Object

/-- Sets a member: a new key goes to its place in the order, a known one gets the new value. -/
def insert : Object → String → Value → Object
  | [], key, value => [(key, value)]
  | (k, v) :: rest, key, value =>
    if key = k then (key, value) :: rest
    else if key < k then (key, value) :: (k, v) :: rest
    else (k, v) :: insert rest key value

/-- The value of a key. -/
def find? : Object → String → Option Value
  | [], _ => none
  | (k, v) :: rest, key => if key = k then some v else find? rest key

/-- The object of a list of members in any order; of two values for a key the later one
stays. -/
def ofList (members : List (String × Value)) : Object :=
  members.foldl (fun o m => insert o m.1 m.2) []

/-- A member that is put into an object is found under its key afterwards, instead of the one that
was there, and all others are found as before.

**Proof sketch.** By induction on the members. The new member is put before the first one with a
greater key, takes the place of one with the same key, or moves on; in each case it is the first
that the search meets under its key. -/
theorem find?_insert (o : Object) (key : String) (value : Value) (k : String) :
    (insert o key value).find? k = if k = key then some value else o.find? k := by
  induction o with
  | nil => simp [insert, find?]
  | cons m rest ih =>
    obtain ⟨k', v'⟩ := m
    unfold insert
    split
    · next h => subst h; by_cases hk : k = key <;> simp [find?, hk]
    · next h =>
      split
      · by_cases hk : k = key <;> simp [find?, hk]
      · by_cases hk : k = k'
        · subst hk; simp [find?, Ne.symm h]
        · simp [find?, hk, ih]

end Object

namespace Value

/-- An integer as a value. -/
def ofInt (i : Int) : Value := .number (.integer i)

/-- A natural number as a value. -/
def ofNat (n : Nat) : Value := ofInt n

/-- The text of a string value. -/
def asString? : Value → Option String
  | .string s => some s
  | _ => none

/-- The unsigned 64-bit integer that a value is, if it is one; `1.0` is none. -/
def asNat? : Value → Option Nat
  | .number (.integer i) => if 0 ≤ i ∧ i < twoPow 64 then some i.toNat else none
  | _ => none

/-- The member of an object value; a value of another kind has none. -/
def member? : Value → String → Option Value
  | .object members, key => Object.find? members key
  | _, _ => none

end Value

end ExtensionGraph.Json
