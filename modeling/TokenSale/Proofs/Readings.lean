import Mathlib.Data.List.Forall2

/-!
# TokenSale.Proofs.Readings

Readings that may be refused, put together from others.

* `bind_eq_ok_iff`, `map_eq_ok_iff`, `mapM_eq_ok_iff` — when they give a value;
* `exists_of_mapM`, `exists_of_mem_mapM` — the items of a list and their values;
* `SameReading` — two that give the same values.
-/

namespace TokenSale

variable {ε α β : Type} {r r' : Except ε α}

/-- Two readings in a row succeed exactly if both do. -/
theorem bind_eq_ok_iff {f : α → Except ε β} {b : β} :
    (r >>= f) = .ok b ↔ ∃ a, r = .ok a ∧ f a = .ok b := by
  cases r with
  | error e => simp [bind, Except.bind]
  | ok a => simp [bind, Except.bind]

theorem map_eq_ok_iff {f : α → β} {b : β} : r.map f = .ok b ↔ ∃ a, r = .ok a ∧ f a = b := by
  cases r with
  | error e => simp [Except.map]
  | ok a => simp [Except.map]

/-- A list is read item by item. -/
theorem mapM_eq_ok_iff {f : α → Except ε β} {l : List α} {bs : List β} :
    l.mapM f = .ok bs ↔ List.Forall₂ (fun a b => f a = .ok b) l bs := by
  induction l generalizing bs with
  | nil =>
      rw [List.forall₂_nil_left_iff, List.mapM_nil]
      exact ⟨fun h => (Except.ok.inj h).symm, fun h => h ▸ rfl⟩
  | cons a l ih =>
      simp only [List.mapM_cons, bind_eq_ok_iff, ih]
      constructor
      · rintro ⟨b, hb, bs', hbs, h⟩
        cases h
        exact .cons hb hbs
      · rintro (_ | ⟨hb, hbs⟩)
        exact ⟨_, hb, _, hbs, rfl⟩

/-- Every item of the second list has a partner in the first. -/
theorem exists_of_forall₂ {R : α → β → Prop} {l : List α} {l' : List β} {b : β}
    (h : List.Forall₂ R l l') (hb : b ∈ l') : ∃ a ∈ l, R a b := by
  induction h with
  | nil => contradiction
  | @cons a c l l' hac _ ih =>
      obtain rfl | hb := List.mem_cons.1 hb
      · exact ⟨a, List.mem_cons_self, hac⟩
      · obtain ⟨x, hx, hxb⟩ := ih hb
        exact ⟨x, List.mem_cons_of_mem a hx, hxb⟩

theorem exists_of_mapM {f : α → Except ε β} {l : List α} {bs : List β} {a : α}
    (h : l.mapM f = .ok bs) (ha : a ∈ l) : ∃ b ∈ bs, f a = .ok b :=
  exists_of_forall₂ (mapM_eq_ok_iff.1 h).flip ha

/-- Every result is that of an item. -/
theorem exists_of_mem_mapM {f : α → Except ε β} {l : List α} {bs : List β} {b : β}
    (h : l.mapM f = .ok bs) (hb : b ∈ bs) : ∃ a ∈ l, f a = .ok b :=
  exists_of_forall₂ (R := fun a b => f a = .ok b) (mapM_eq_ok_iff.1 h) hb

/-- Two readings that give the same values; what is refused may be refused for
other reasons. -/
def SameReading (r r' : Except ε α) : Prop := ∀ a, r = .ok a ↔ r' = .ok a

namespace SameReading

theorem refl (r : Except ε α) : SameReading r r := fun _ => Iff.rfl

theorem trans {r'' : Except ε α} (h : SameReading r r') (h' : SameReading r' r'') :
    SameReading r r'' := fun a => (h a).trans (h' a)

theorem of_eq (h : r = r') : SameReading r r' := h ▸ .refl r

theorem error (e e' : ε) : SameReading (.error e : Except ε α) (.error e') :=
  fun _ => iff_of_false nofun nofun

/-- Readings that agree, followed by readings that agree on every result. -/
theorem bind (h : SameReading r r') {f f' : α → Except ε β}
    (hf : ∀ a, SameReading (f a) (f' a)) : SameReading (r >>= f) (r' >>= f') := fun b => by
  simp only [bind_eq_ok_iff, h _, hf _ b]

/-- Lists are read the same if their items are, one by one. -/
theorem mapM {l l' : List α} {f : α → Except ε β}
    (h : List.Forall₂ (fun a a' => SameReading (f a) (f a')) l l') :
    SameReading (l.mapM f) (l'.mapM f) := by
  induction h with
  | nil => exact .refl _
  | cons hfirst _ ih =>
      rw [List.mapM_cons, List.mapM_cons]
      exact hfirst.bind fun _ => ih.bind fun _ => .refl _

end SameReading

end TokenSale
