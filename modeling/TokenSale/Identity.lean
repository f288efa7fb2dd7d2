import TokenSale.Directory
import TokenSale.Text.Blank

/-!
# TokenSale.Identity

Who buys, and what they pay with.

* `InvestorId` — a stable identity, taken as it is written;
* `Currency` — a currency code in its normal form, so that two spellings of
  one code are the same currency;
* `InvestorClass` — how an investor is regulated.

The main statement is `normalize_normalize`: bringing a code into its normal
form twice changes nothing more, which is why the form can be part of the
type.
-/

namespace TokenSale

/-- The identity of an investor: a wallet address, an account, any name. -/
structure InvestorId where
  name : String
  deriving DecidableEq, Inhabited

namespace InvestorId

instance : ToString InvestorId := ⟨name⟩

instance : OrderedKey InvestorId :=
  .ofText (fun i => i.name.toList) fun {a b} h => by
    cases a; cases b; exact congrArg mk (String.toList_inj.1 h)

end InvestorId

/-- How an investor is regulated. -/
inductive InvestorClass where
  /-- No ceiling of their own. -/
  | accredited
  /-- Bounded by the limit of the sale or by one of their own. -/
  | nonAccredited
  deriving DecidableEq

namespace InvestorClass

/-- The name of a class in reports. -/
def label : InvestorClass → String
  | accredited => "ACCREDITED"
  | nonAccredited => "NON_ACCREDITED"

end InvestorClass

/-! ## currencies -/

/-- A lower-case ASCII letter in upper case, any other character as it is. -/
def upperAscii (c : Char) : Char :=
  if 97 ≤ c.toNat ∧ c.toNat ≤ 122 then Char.ofNat (c.toNat - 32) else c

theorem toNat_ofNat {n : Nat} (h : n < 0xd800) : (Char.ofNat n).toNat = n := by
  have hv : n.isValidChar := Or.inl h
  rw [Char.ofNat, dif_pos hv]
  exact UInt32.toNat_ofNatLT

/-- Only the small letters move, and those by the distance between the two
alphabets. -/
theorem toNat_upperAscii (c : Char) :
    (upperAscii c).toNat = if 97 ≤ c.toNat ∧ c.toNat ≤ 122 then c.toNat - 32 else c.toNat := by
  unfold upperAscii
  split
  · exact toNat_ofNat (by omega)
  · rfl

theorem upperAscii_upperAscii (c : Char) : upperAscii (upperAscii c) = upperAscii c := by
  apply Text.toNat_inj
  rw [toNat_upperAscii, toNat_upperAscii]
  by_cases h : 97 ≤ c.toNat ∧ c.toNat ≤ 122
  · rw [if_pos h, if_neg (by omega)]
  · rw [if_neg h, if_neg h]

theorem isBlank_upperAscii (c : Char) : Text.isBlank (upperAscii c) = Text.isBlank c := by
  unfold Text.isBlank
  rw [toNat_upperAscii, decide_eq_decide]
  split <;> omega

namespace Currency

/-- The normal form of a code: no blanks at its ends, ASCII letters in upper case. -/
def normalizeChars (cs : List Char) : List Char := (Text.trim cs).map upperAscii

/-- `normalizeChars` on strings. -/
def normalize (s : String) : String := String.ofList (normalizeChars s.toList)

/-- A trimmed text is still trimmed after its letters were raised. -/
theorem trim_map_upperAscii_trim (cs : List Char) :
    Text.trim ((Text.trim cs).map upperAscii) = (Text.trim cs).map upperAscii := by
  apply Text.trim_eq_self_iff.2
  constructor
  · intro c hc
    rw [List.head?_map, Option.map_eq_some_iff] at hc
    obtain ⟨d, hd, rfl⟩ := hc
    rw [isBlank_upperAscii]
    exact Text.head?_trim hd
  · intro c hc
    rw [List.getLast?_map, Option.map_eq_some_iff] at hc
    obtain ⟨d, hd, rfl⟩ := hc
    rw [isBlank_upperAscii]
    exact Text.getLast?_trimEnd hd

/-- **Normalizing a code again changes nothing.** -/
theorem normalizeChars_normalizeChars (cs : List Char) :
    normalizeChars (normalizeChars cs) = normalizeChars cs := by
  unfold normalizeChars
  rw [trim_map_upperAscii_trim, List.map_map]
  apply List.map_congr_left
  intro c _
  exact upperAscii_upperAscii c

/-- **A normal form is its own normal form.** -/
theorem normalize_normalize (s : String) : normalize (normalize s) = normalize s := by
  simp [normalize, String.toList_ofList, normalizeChars_normalizeChars]

end Currency

/-- A payment currency, by its code in normal form. -/
structure Currency where
  code : String
  normal : Currency.normalize code = code
  deriving DecidableEq

namespace Currency

/-- The currency of a code in any spelling. -/
def ofText (s : String) : Currency := ⟨normalize s, normalize_normalize s⟩

instance : Inhabited Currency := ⟨ofText ""⟩

instance : ToString Currency := ⟨code⟩

@[ext] theorem ext {a b : Currency} (h : a.code = b.code) : a = b := by
  cases a; cases b; cases h; rfl

/-- A code in normal form names its own currency. -/
@[simp] theorem ofText_code (c : Currency) : ofText c.code = c := ext c.normal

instance : OrderedKey Currency :=
  .ofText (fun c => c.code.toList) fun h => ext (String.toList_inj.1 h)

end Currency

end TokenSale
