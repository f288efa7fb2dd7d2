import TokenSale.Price

/-!
# TokenSale.Tier.Basic

A tier is a stretch of the token supply at one price.  Part of it may be set
aside for buyers in the discount currency; that part is included in the
total, not added to it.
-/

namespace TokenSale

/-- The configured shape of a tier. -/
structure TierSpec where
  regularPrice : Price
  discountPrice : Price
  totalCapacity : Tokens
  discountCapacity : Tokens
  deriving DecidableEq

/-- A tier without a discounted part. -/
def TierSpec.regular (price : Price) (capacity : Tokens) : TierSpec :=
  ⟨price, price, capacity, .zero⟩

/-- The same tier with a discounted part. -/
def TierSpec.withDiscount (s : TierSpec) (price : Price) (capacity : Tokens) : TierSpec :=
  { s with discountPrice := price, discountCapacity := capacity }

/-- A tier with what was sold of it; discounted sales count in both sums. -/
structure Tier where
  spec : TierSpec
  totalSold : Tokens
  discountSold : Tokens
  deriving DecidableEq

namespace Tier

/-- A tier of which nothing was sold. -/
def fresh (spec : TierSpec) : Tier := ⟨spec, .zero, .zero⟩

/-- What is left of the tier. -/
def remaining (t : Tier) : Tokens := t.spec.totalCapacity.subClamped t.totalSold

/-- What is left of the discounted part, which is never more than is left of
the tier. -/
def remainingDiscount (t : Tier) : Tokens :=
  (t.spec.discountCapacity.subClamped t.discountSold).least t.remaining

/-- Nothing is left. -/
def isExhausted (t : Tier) : Bool := t.remaining.isZero

/-- What is left of one band: the discounted part, or the tier. -/
def remainingIn (t : Tier) (discount : Bool) : Tokens :=
  if discount then t.remainingDiscount else t.remaining

/-- What is left of a band leaves room in the sum of all sales. -/
theorem totalSold_add_lt {t : Tier} {tokens : Tokens} {discount : Bool}
    (h : tokens ≤ t.remainingIn discount) : t.totalSold.val + tokens.val < Quantity.limit := by
  have hc := t.spec.totalCapacity.val_lt
  have hs := t.totalSold.val_lt
  have hr : tokens.val ≤ t.spec.totalCapacity.val - t.totalSold.val := by
    cases discount with
    | false => exact h
    | true =>
        have h' : tokens.val ≤ (t.remainingDiscount).val := h
        rw [remainingDiscount, Quantity.val_least] at h'
        exact Nat.le_trans h' (Nat.min_le_right _ _)
  omega

/-- What is left of the discounted part leaves room in the sum of its sales. -/
theorem discountSold_add_lt {t : Tier} {tokens : Tokens} (h : tokens ≤ t.remainingIn true) :
    t.discountSold.val + tokens.val < Quantity.limit := by
  have hc := t.spec.discountCapacity.val_lt
  have hs := t.discountSold.val_lt
  have h' : tokens.val ≤ (t.remainingDiscount).val := h
  rw [remainingDiscount, Quantity.val_least, Quantity.val_subClamped] at h'
  omega

/-- The tier after `tokens` were sold of a band, if that many are left of it. -/
def sell? (t : Tier) (tokens : Tokens) : Bool → Option Tier
  | false =>
    if h : tokens ≤ t.remainingIn false then
      some { t with totalSold := ⟨t.totalSold.val + tokens.val, totalSold_add_lt h⟩ }
    else none
  | true =>
    if h : tokens ≤ t.remainingIn true then
      some { t with
        totalSold := ⟨t.totalSold.val + tokens.val, totalSold_add_lt h⟩
        discountSold := ⟨t.discountSold.val + tokens.val, discountSold_add_lt h⟩ }
    else none

end Tier

end TokenSale
