import TokenSale.Binary64.Basic
import TokenSale.Directory

/-!
# TokenSale.Json.Basic

JSON documents.  Integers are kept apart from other numbers, so that amounts
stay exact; an object is the list of its members in the order they stand in.

* `settled` — the document with the members of every object in key order,
  where the last of several members under one key wins.  Documents that are
  passed around as values are settled.
-/

namespace TokenSale

/-- A JSON document. -/
inductive Json where
  | null
  | bool (b : Bool)
  | int (n : Int)
  | float (x : Binary64)
  | str (s : String)
  | arr (items : List Json)
  | obj (members : List (String × Json))

namespace Json

instance : Inhabited Json := ⟨null⟩

mutual

/-- Members in key order at every depth; of equal keys the last one stays. -/
def settled : Json → Json
  | arr items => arr (settledItems items)
  | obj members => obj (settledMembers members)
  | v => v

/-- `settled` for the items of an array. -/
def settledItems : List Json → List Json
  | [] => []
  | v :: rest => settled v :: settledItems rest

/-- `settled` for the members of an object. -/
def settledMembers : List (String × Json) → List (String × Json)
  | [] => []
  | (k, v) :: rest =>
    let rest := settledMembers rest
    if (Directory.find k rest).isSome then rest else Directory.place k (settled v) rest

end

/-! ## looking inside -/

/-- The member of an object under a key. -/
def member? (k : String) : Json → Option Json
  | obj members => Directory.find k members
  | _ => none

/-- The text of a string. -/
def string? : Json → Option String
  | str s => some s
  | _ => none

/-- The items of an array. -/
def items? : Json → Option (List Json)
  | arr items => some items
  | _ => none

/-- The members of an object. -/
def members? : Json → Option (List (String × Json))
  | obj members => some members
  | _ => none

/-- A natural number as an integer. -/
def nat (n : Nat) : Json := int n

/-- The value or null. -/
def ofOption {α : Type} (f : α → Json) : Option α → Json
  | none => null
  | some a => f a

/-- Members that are present. -/
def objOfOptions (members : List (String × Option Json)) : Json :=
  obj (members.filterMap fun p => p.2.map fun v => (p.1, v))

end Json

end TokenSale
