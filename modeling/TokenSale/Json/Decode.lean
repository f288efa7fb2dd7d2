import TokenSale.Json.Basic
import TokenSale.Text.Quoted

/-!
# TokenSale.Json.Decode

Reading values out of documents.  An object is read as a record: its members
are read in the order they stand in, members that are not known are passed
over, and what is missing is noticed only after all of them were read.  A
record may also be spelt as the list of its values.

* `record` — the members of an object, once every known one has been read;
* `required`, `optional`, `withDefault` — one member of a record;
* `variant` — one of several records, by its name.
-/

namespace TokenSale

/-- Why a document does not spell a value. -/
inductive DecodeError where
  /-- The document has the wrong shape, or its value is out of range. -/
  | unexpected
  /-- Something stands where no value of the type can begin or end; in a text
  this counts as a broken text. -/
  | misplaced
  | missingMember (key : String)
  | repeatedMember (key : String)
  /-- A string that spells no amount. -/
  | badQuantity (text : String)
  /-- An amount below zero. -/
  | negativeQuantity (n : Int)
  deriving DecidableEq

/-- The message about an amount that is not one; other causes have none. -/
def DecodeError.message? : DecodeError → Option String
  | badQuantity text => some ("invalid quantity string: " ++ Text.quoted text)
  | negativeQuantity n => some s!"negative quantity: {n}"
  | _ => none

/-- The reading of a value of one type. -/
abbrev Decoder (α : Type) := Json → Except DecodeError α

namespace Json

/-! ## simple values -/

/-- What an optional result amounts to. -/
def orUnexpected {α : Type} : Option α → Except DecodeError α
  | some a => .ok a
  | none => .error .unexpected

/-- A string. -/
def decodeString : Decoder String
  | str s => .ok s
  | _ => .error .unexpected

/-- A boolean. -/
def decodeBool : Decoder Bool
  | bool b => .ok b
  | _ => .error .unexpected

/-- An integer between two bounds, both included. -/
def decodeInt (least most : Int) : Decoder Int
  | int n => if least ≤ n ∧ n ≤ most then .ok n else .error .unexpected
  | _ => .error .unexpected

/-- A natural number below a bound. -/
def decodeNat (bound : Nat) : Decoder Nat
  | int n => if 0 ≤ n ∧ n < bound then .ok n.toNat else .error .unexpected
  | _ => .error .unexpected

/-- A natural number of 64 bits. -/
def decodeNat64 : Decoder Nat := decodeNat (Nat.pow 2 64)

/-- A natural number of 32 bits. -/
def decodeNat32 : Decoder Nat := decodeNat (Nat.pow 2 32)

/-- An integer of 64 bits. -/
def decodeInt64 : Decoder Int := decodeInt (-(Nat.pow 2 63 : Int)) (Nat.pow 2 63 - 1)

/-- Any document. -/
def decodeJson : Decoder Json := fun v => .ok v.settled

/-- A value or null. -/
def decodeOption {α : Type} (d : Decoder α) : Decoder (Option α)
  | null => .ok none
  | v => (d v).map some

/-- A list, item by item. -/
def decodeList {α : Type} (d : Decoder α) : Decoder (List α)
  | arr items => items.mapM d
  | _ => .error .unexpected

/-- A string that spells a value. -/
def decodeText {α : Type} (read : String → Option α) : Decoder α
  | str s => orUnexpected (read s)
  | _ => .error .unexpected

/-- An object whose keys spell values as well. -/
def decodeDirectory {κ α : Type} [DecidableEq κ] [OrderedKey κ] (key : String → κ)
    (d : Decoder α) : Decoder (Directory κ α)
  | obj members => do
    let entries ← members.mapM fun (k, v) => (d v).map fun a => (key k, a)
    pure (Directory.ofList entries)
  | _ => .error .unexpected

/-- One of several names: a string, or the only key of an object with null
under it. -/
def decodeName {α : Type} (ofName? : String → Option α) : Decoder α
  | str s => orUnexpected (ofName? s)
  | obj ((s, v) :: rest) =>
    match ofName? s, v, rest with
    | some a, null, [] => .ok a
    | some _, null, _ => .error .misplaced
    | _, _, _ => .error .unexpected
  | _ => .error .misplaced

/-! ## records -/

/-- A member that a record knows: its key, and a trial reading of its value. -/
structure KnownMember where
  key : String
  probe : Json → Except DecodeError Unit
  /-- Whether a list of values may end before it. -/
  mayLack : Bool

/-- A known member read by a decoder. -/
def known {α : Type} (key : String) (d : Decoder α) : KnownMember :=
  ⟨key, fun v => (d v).map fun _ => (), false⟩

/-- The same, where a list of values may end before it. -/
def knownLast {α : Type} (key : String) (d : Decoder α) : KnownMember :=
  { known key d with mayLack := true }

/-- Reads the known members in the order they stand in; the first that cannot
be read, or that was there before, decides. -/
def probeMembers (members : List KnownMember) (seen : List String) :
    List (String × Json) → Except DecodeError Unit
  | [] => .ok ()
  | (k, v) :: rest =>
    match members.find? fun m => m.key = k with
    | none => probeMembers members seen rest
    | some m =>
      if seen.contains k then .error (.repeatedMember k)
      else
        match m.probe v with
        | .error e => .error e
        | .ok () => probeMembers members (k :: seen) rest

/-- Reads a list of values as those of the known members, in their order. -/
def probeItems : List KnownMember → List Json → Except DecodeError (List (String × Json))
  | [], [] => .ok []
  | [], _ :: _ => .error .misplaced
  | m :: members, [] =>
    if m.mayLack then probeItems members [] else .error (.missingMember m.key)
  | m :: members, v :: rest =>
    match m.probe v with
    | .error e => .error e
    | .ok () => (probeItems members rest).map ((m.key, v) :: ·)

/-- The members of an object, once every known one has been read. -/
def record (members : List KnownMember) : Decoder (List (String × Json))
  | obj fields =>
    match probeMembers members [] fields with
    | .error e => .error e
    | .ok () => .ok fields
  | arr items => probeItems members items
  | _ => .error .unexpected

/-- The name of a variant, which stands under a key or first in a list, and
what the variant is read from. -/
def variant (key : String) : Decoder (String × Json)
  | obj fields =>
    match Directory.find key fields with
    | some v => (decodeString v).map fun name => (name, obj fields)
    | none => .error (.missingMember key)
  | arr (v :: rest) => (decodeString v).map fun name => (name, arr rest)
  | arr [] => .error (.missingMember key)
  | _ => .error .unexpected

/-- A member that must be there. -/
def required {α : Type} (fields : List (String × Json)) (key : String) (d : Decoder α) :
    Except DecodeError α :=
  match Directory.find key fields with
  | some v => d v
  | none => .error (.missingMember key)

/-- A member that may be missing or null. -/
def optional {α : Type} (fields : List (String × Json)) (key : String) (d : Decoder α) :
    Except DecodeError (Option α) :=
  match Directory.find key fields with
  | some v => decodeOption d v
  | none => .ok none

/-- A member that may be missing. -/
def withDefault {α : Type} (fields : List (String × Json)) (key : String) (d : Decoder α)
    (default : α) : Except DecodeError α :=
  match Directory.find key fields with
  | some v => d v
  | none => .ok default

end Json

end TokenSale
