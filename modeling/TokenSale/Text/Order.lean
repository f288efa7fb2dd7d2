/-!
# TokenSale.Text.Order

The order of texts by code point, which is also the order of their UTF-8
bytes: the first difference decides, and a proper beginning comes first.  All
lists of names that leave the program are in this order.

* `precedes_irrefl`, `precedes_trans`, `precedes_total` — it is a strict
  linear order.
-/

namespace TokenSale.Text

/-- `a` comes before `b`. -/
def precedes : List Char → List Char → Bool
  | _, [] => false
  | [], _ :: _ => true
  | a :: as, b :: bs =>
    if a.toNat < b.toNat then true
    else if a.toNat = b.toNat then precedes as bs
    else false

/-- No text comes before itself. -/
theorem precedes_irrefl (a : List Char) : precedes a a = false := by
  induction a with
  | nil => rfl
  | cons c cs ih => simp [precedes, ih]

/-- The order passes on. -/
theorem precedes_trans {a b c : List Char} (hab : precedes a b = true) (hbc : precedes b c = true) :
    precedes a c = true := by
  induction b generalizing a c with
  | nil => cases a <;> simp [precedes] at hab
  | cons y ys ih =>
      cases c with
      | nil => simp [precedes] at hbc
      | cons z zs =>
          cases a with
          | nil => rfl
          | cons x xs =>
              simp only [precedes] at hab hbc ⊢
              split at hab <;> split at hbc
              · rw [if_pos (by omega)]
              · split at hbc
                · rw [if_pos (by omega)]
                · cases hbc
              · split at hab
                · rw [if_pos (by omega)]
                · cases hab
              · split at hab <;> split at hbc
                · rw [if_neg (by omega), if_pos (by omega)]; exact ih hab hbc
                · cases hbc
                · cases hab
                · cases hab

theorem toNat_inj {a b : Char} (h : a.toNat = b.toNat) : a = b :=
  Char.ext (UInt32.toNat_inj.1 h)

/-- Of two different texts one comes before the other. -/
theorem precedes_total {a b : List Char} (h : a ≠ b) :
    precedes a b = true ∨ precedes b a = true := by
  induction a generalizing b with
  | nil => cases b with
    | nil => exact absurd rfl h
    | cons y ys => exact .inl rfl
  | cons x xs ih => cases b with
    | nil => exact .inr rfl
    | cons y ys =>
      simp only [precedes]
      by_cases hlt : x.toNat < y.toNat
      · exact .inl (if_pos hlt)
      · by_cases heq : x.toNat = y.toNat
        · have hxy : xs ≠ ys := fun e => h (by rw [toNat_inj heq, e])
          rw [if_neg hlt, if_pos heq, if_neg (by omega), if_pos heq.symm]
          exact ih hxy
        · exact .inr (if_pos (by omega))

end TokenSale.Text
