import TokenSale.Json.Decode
import TokenSale.Proofs.JsonOrder

/-!
# TokenSale.Proofs.JsonRecord

Reading values back from their documents, in whatever order the members of
objects have come.

* `IsPlain` — documents without floating-point numbers, nested up to a depth;
* `ReadAs` — every document alike is read as a value;
* `Reordered` — the members of an object, one under each key, in another order;
* `record_reordered` — a record has all its members in any order;
* `Spells` — what one of them is read as;
* `Field`, `ReadAs.of_fields` — a record read back field by field.
-/

namespace TokenSale.Json

open OrderedKey Directory

variable {ok : Binary64 → Prop}

/-! ## the shape of documents -/

theorem isDocument_nat {n : Nat} (h : n < Nat.pow 2 64) : IsDocument ok (.nat n) :=
  .int (by omega) (by omega)

/-- An object nests one deeper than its members at most. -/
theorem depth_obj_le {members : List (String × Json)} {n : Nat}
    (h : ∀ p ∈ members, p.2.depth ≤ n) : (obj members).depth ≤ n + 1 :=
  Nat.succ_le_succ (depthOfMembers_le h)

/-- Documents as programs write them, without floating-point numbers, nested up
to a depth. -/
structure IsPlain (n : Nat) (v : Json) : Prop where
  isDocument (ok : Binary64 → Prop) : v.IsDocument ok
  depth_le : v.depth ≤ n

theorem isPlain_null {n : Nat} : IsPlain n .null := ⟨fun _ => .null, Nat.zero_le n⟩

theorem isPlain_str {n : Nat} (s : String) : IsPlain n (.str s) := ⟨fun _ => .str s, Nat.zero_le n⟩

theorem isPlain_bool {n : Nat} (b : Bool) : IsPlain n (.bool b) :=
  ⟨fun _ => .bool b, Nat.zero_le n⟩

theorem isPlain_nat {n m : Nat} (h : m < Nat.pow 2 64) : IsPlain n (.nat m) :=
  ⟨fun _ => isDocument_nat h, Nat.zero_le n⟩

theorem isPlain_int {n : Nat} {m : Int} (least : -(Nat.pow 2 63 : Int) ≤ m)
    (most : m < Nat.pow 2 63) : IsPlain n (.int m) :=
  ⟨fun _ => .int least (Int.lt_trans most (by decide)), Nat.zero_le n⟩

theorem isPlain_option {α : Type} {n : Nat} {f : α → Json} {o : Option α}
    (h : ∀ a ∈ o, IsPlain n (f a)) : IsPlain n (.ofOption f o) := by
  cases o with
  | none => exact isPlain_null
  | some a => exact h a rfl

theorem isPlain_arr {n : Nat} {items : List Json} (h : ∀ v ∈ items, IsPlain n v) :
    IsPlain (n + 1) (.arr items) :=
  ⟨fun ok => .arr fun v hv => (h v hv).isDocument ok,
    Nat.succ_le_succ (depthOfItems_le fun v hv => (h v hv).depth_le)⟩

/-- An object of plain values under different keys is plain, one level deeper. -/
theorem isPlain_obj {n : Nat} {members : List (String × Json)}
    (hnodup : (members.map Prod.fst).Nodup) (h : ∀ p ∈ members, IsPlain n p.2) :
    IsPlain (n + 1) (.obj members) :=
  ⟨fun ok => .obj (fun p hp => (h p hp).isDocument ok) hnodup,
    depth_obj_le fun p hp => (h p hp).depth_le⟩

theorem IsPlain.mono {n m : Nat} {v : Json} (h : v.IsPlain n) (hle : n ≤ m) : v.IsPlain m :=
  ⟨h.isDocument, Nat.le_trans h.depth_le hle⟩

/-! ## records -/

/-- Every document alike is read as a value. -/
def ReadAs {α : Type} (v : Json) (d : Decoder α) (a : α) : Prop := ∀ w, Alike v w → d w = .ok a

/-- The members of an object, one under each key, and those of an object alike. -/
structure Reordered (members ns : List (String × Json)) : Prop where
  nodup : (members.map Prod.fst).Nodup
  alike : Alike (.obj members) (.obj ns)

/-- What is read from an object with its members in any order. -/
theorem ReadAs.of_members {α : Type} {members : List (String × Json)} {d : Decoder α} {a : α}
    (hnodup : (members.map Prod.fst).Nodup)
    (h : ∀ ns, Reordered members ns → d (.obj ns) = .ok a) : ReadAs (.obj members) d a := by
  intro w hw
  cases w with
  | obj ns => exact h ns ⟨hnodup, hw⟩
  | _ => cases hw

/-- The member under a key spells a value. -/
def Spells {α : Type} (members : List (String × Json)) (key : String) (d : Decoder α) (a : α) :
    Prop := ∃ v, find key members = some v ∧ d v = .ok a

namespace Reordered

variable {members ns : List (String × Json)}

theorem nodup_right (h : Reordered members ns) : (ns.map Prod.fst).Nodup := by
  cases h.alike with
  | obj hkeys _ => exact hkeys.nodup_iff.1 h.nodup

/-- A member spells its value in any order. -/
theorem spells {α : Type} {d : Decoder α} {a : α} {k : String} {v : Json}
    (h : Reordered members ns) (hfind : find k members = some v) (hread : ReadAs v d a) :
    Spells ns k d a := by
  have hrel := h.alike.rel_find h.nodup k
  rw [hfind] at hrel
  generalize hns : find k ns = w at hrel
  cases hrel with
  | some hvw => exact ⟨_, hns, hread _ hvw⟩

end Reordered

/-- Members that do not repeat pass if each passes by itself. -/
theorem probeMembers_ok {known : List KnownMember} {seen : List String}
    {fields : List (String × Json)} (hnodup : (fields.map Prod.fst).Nodup)
    (hseen : ∀ p ∈ fields, p.1 ∉ seen)
    (h : ∀ p ∈ fields, ∀ m ∈ known, m.key = p.1 → m.probe p.2 = .ok ()) :
    probeMembers known seen fields = .ok () := by
  induction fields generalizing seen with
  | nil => rfl
  | cons p fields ih =>
      obtain ⟨k, v⟩ := p
      obtain ⟨hnot, hnodup⟩ := List.nodup_cons.1 hnodup
      obtain ⟨hk, hseen⟩ := List.forall_mem_cons.1 hseen
      obtain ⟨hprobe, h⟩ := List.forall_mem_cons.1 h
      rw [probeMembers]
      split
      · exact ih hnodup hseen h
      next m hm =>
        have hkey : m.key = k := by simpa using List.find?_some hm
        rw [if_neg (by simpa using hk), hprobe m (List.mem_of_find?_eq_some hm) hkey]
        refine ih hnodup (fun p hp hmem => ?_) h
        obtain heq | hmem := List.mem_cons.1 hmem
        · have hmem : p.1 ∈ fields.map Prod.fst := List.mem_map_of_mem hp
          exact hnot (heq ▸ hmem)
        · exact hseen p hp hmem

/-- A record whose known members can be read has all its members. -/
theorem record_of_nodup {known : List KnownMember} {fields : List (String × Json)}
    (hnodup : (fields.map Prod.fst).Nodup)
    (h : ∀ m ∈ known, ∃ v, find m.key fields = some v ∧ m.probe v = .ok ()) :
    record known (obj fields) = .ok fields := by
  have hprobe : probeMembers known [] fields = .ok () := by
    refine probeMembers_ok hnodup (fun _ _ => List.not_mem_nil) fun p hp m hm hkey => ?_
    obtain ⟨v, hv, hread⟩ := h m hm
    rw [hkey, find_of_nodup hnodup hp] at hv
    cases hv
    exact hread
  simp only [record, hprobe]

/-- In whatever order they are. -/
theorem record_reordered {known : List KnownMember} {members ns : List (String × Json)}
    (hns : Reordered members ns)
    (h : ∀ m ∈ known, ∃ v, find m.key ns = some v ∧ m.probe v = .ok ()) :
    record known (obj ns) = .ok ns := record_of_nodup hns.nodup_right h

-- the brackets keep this a rewrite rule, which leaves long readings cheap to check
theorem ok_bind {α β : Type} (a : α) (f : α → Except DecodeError β) : (Except.ok a >>= f) = f a :=
  (rfl)

/-- A record of an object is all its members. -/
theorem eq_of_record_obj {known : List KnownMember} {members fields : List (String × Json)}
    (h : record known (obj members) = .ok fields) : fields = members := by
  rw [record] at h
  split at h
  · contradiction
  · cases h
    rfl

namespace Spells

variable {α : Type} {members : List (String × Json)} {key : String} {d : Decoder α} {a : α}

/-- A member that spells a value is found, and accepted where it stands. -/
theorem probe (h : Spells members key d a) :
    ∃ v, find (known key d).key members = some v ∧ (known key d).probe v = .ok () := by
  obtain ⟨v, hv, hd⟩ := h
  refine ⟨v, hv, ?_⟩
  simp only [known, hd]
  rfl

/-- A required member is read as what it spells. -/
theorem required (h : Spells members key d a) : Json.required members key d = .ok a := by
  obtain ⟨v, hv, hd⟩ := h
  simp only [Json.required, hv, hd]

/-- A member that was read spells what it was read as. -/
theorem of_required (h : Json.required members key d = .ok a) : Spells members key d a := by
  unfold Json.required at h
  split at h
  next v hv => exact ⟨v, hv, h⟩
  · contradiction

/-- A member that is there is read as what it spells, whatever the default. -/
theorem withDefault (h : Spells members key d a) (default : α) :
    Json.withDefault members key d default = .ok a := by
  obtain ⟨v, hv, hd⟩ := h
  simp only [Json.withDefault, hv, hd]

/-- An optional member is read as what it spells, null included. -/
theorem optional {a : Option α} (h : Spells members key (decodeOption d) a) :
    Json.optional members key d = .ok a := by
  obtain ⟨v, hv, hd⟩ := h
  simp only [Json.optional, hv, hd]

/-- What stands under a key can be the name of a variant. -/
theorem variant {name : String} (h : Spells members key decodeString name) :
    Json.variant key (.obj members) = .ok (name, .obj members) := by
  obtain ⟨v, hv, hd⟩ := h
  simp only [Json.variant, hv, hd]
  rfl

end Spells

/-! ## records field by field -/

/-- A member of a record: as what it is written and known, how it is read, and
the value that comes of it wherever the member stands. -/
structure Field where
  {α : Type}
  member : String × Json
  known : KnownMember
  read : List (String × Json) → Except DecodeError α
  value : α
  comesBack : ∀ {members ns : List (String × Json)}, Reordered members ns → member ∈ members →
    (∃ v, find known.key ns = some v ∧ known.probe v = .ok ()) ∧ read ns = .ok value

namespace Field

variable {α : Type} {v : Json} {d : Decoder α}

/-- A member that must be there. -/
@[simp] def required (key : String) {a : α} (h : ReadAs v d a) : Field where
  member := (key, v)
  known := Json.known key d
  read ns := Json.required ns key d
  value := a
  comesBack hns hmem :=
    have hspells := hns.spells (find_of_nodup hns.nodup hmem) h
    ⟨hspells.probe, hspells.required⟩

/-- A member that may be missing or null. -/
@[simp] def optional (key : String) {a : Option α} (h : ReadAs v (decodeOption d) a) : Field where
  member := (key, v)
  known := Json.known key (decodeOption d)
  read ns := Json.optional ns key d
  value := a
  comesBack hns hmem :=
    have hspells := hns.spells (find_of_nodup hns.nodup hmem) h
    ⟨hspells.probe, hspells.optional⟩

/-- A member that may be missing, for a default. -/
@[simp] def withDefault (key : String) {a : α} (h : ReadAs v d a) (default : α) : Field where
  member := (key, v)
  known := Json.known key d
  read ns := Json.withDefault ns key d default
  value := a
  comesBack hns hmem :=
    have hspells := hns.spells (find_of_nodup hns.nodup hmem) h
    ⟨hspells.probe, hspells.withDefault default⟩

/-- The same field, where a list of values may end before it. -/
@[simp] def last (f : Field) : Field := { f with known := { f.known with mayLack := true } }

end Field

namespace Reordered

variable {members ns : List (String × Json)} {fields : List Field}

/-- A record with these fields is read, in whatever order they are, -/
theorem record_fields (hns : Reordered members ns) (h : ∀ f ∈ fields, f.member ∈ members) :
    record (fields.map Field.known) (obj ns) = .ok ns := by
  refine record_reordered hns fun m hm => ?_
  obtain ⟨f, hf, rfl⟩ := List.mem_map.1 hm
  exact (f.comesBack hns (h f hf)).1

/-- and each of them gives its value. -/
theorem read_fields (hns : Reordered members ns) (h : ∀ f ∈ fields, f.member ∈ members) :
    ∀ f ∈ fields, f.read ns = .ok f.value := fun f hf => (f.comesBack hns (h f hf)).2

end Reordered

/-- **A record is read back field by field**: its members stand in some order,
and each field gives its value from them. -/
theorem ReadAs.of_fields {α : Type} {a : α} (fields : List Field)
    {read : List (String × Json) → Except DecodeError α}
    (hnodup : ((fields.map Field.member).map Prod.fst).Nodup)
    (h : ∀ ns, (∀ f ∈ fields, f.read ns = .ok f.value) → read ns = .ok a) :
    ReadAs (.obj (fields.map Field.member))
      (fun v => record (fields.map Field.known) v >>= read) a :=
  .of_members hnodup fun ns hns => by
    have hmembers : ∀ f ∈ fields, f.member ∈ fields.map Field.member :=
      fun _ hf => List.mem_map_of_mem hf
    rw [hns.record_fields hmembers, ok_bind]
    exact h ns (hns.read_fields hmembers)

/-! ## values that are no objects -/

/-- A string has no other order. -/
theorem ReadAs.of_str {α : Type} {s : String} {d : Decoder α} {a : α} (h : d (.str s) = .ok a) :
    ReadAs (.str s) d a := by
  intro w hw
  cases hw
  exact h

theorem readAs_str (s : String) : ReadAs (.str s) decodeString s := .of_str rfl

theorem readAs_bool (b : Bool) : ReadAs (.bool b) decodeBool b := by
  intro w hw
  cases hw
  rfl

/-- A natural number reads back below the bound of its reader. -/
theorem readAs_nat {n bound : Nat} (h : n < bound) : ReadAs (.nat n) (decodeNat bound) n := by
  intro w hw
  cases hw
  rw [decodeNat, if_pos ⟨Int.natCast_nonneg n, Int.ofNat_lt.2 h⟩, Int.toNat_natCast]

/-- So does one that programs hold in 64 bits, -/
theorem readAs_nat64 {n : Nat} (h : n < Nat.pow 2 64) : ReadAs (.nat n) decodeNat64 n := readAs_nat h

/-- or in 32. -/
theorem readAs_nat32 {n : Nat} (h : n < Nat.pow 2 32) : ReadAs (.nat n) decodeNat32 n := readAs_nat h

theorem readAs_int64 {n : Int} (least : -(Nat.pow 2 63 : Int) ≤ n) (most : n < Nat.pow 2 63) :
    ReadAs (.int n) decodeInt64 n := by
  intro w hw
  cases hw
  rw [decodeInt64, decodeInt, if_pos ⟨least, Int.le_sub_one_of_lt most⟩]

/-- A document that is held is read as itself. -/
theorem IsValue.readAs {v : Json} (h : v.IsValue ok) : ReadAs v decodeJson v := fun w hw => by
  rw [decodeJson, ← hw.settled_eq h.isDocument, h.settled]

theorem readAs_option {α : Type} {f : α → Json} {d : Decoder α} {o : Option α}
    (h : ∀ a ∈ o, ReadAs (f a) d a) (hnull : ∀ a ∈ o, f a ≠ .null) :
    ReadAs (.ofOption f o) (decodeOption d) o := by
  cases o with
  | none =>
      intro w hw
      cases hw
      rfl
  | some a =>
      intro w hw
      have hw : Alike (f a) w := hw
      have hd := h a rfl w hw
      have hne : w ≠ .null := by
        rintro rfl
        generalize hv : f a = v at hw
        cases hw
        exact hnull a rfl hv
      rw [decodeOption, hd]
      · rfl
      · exact hne

/-- A list reads back if its items do. -/
theorem readAs_list {α : Type} {f : α → Json} {d : Decoder α} {l : List α}
    (h : ∀ a ∈ l, ReadAs (f a) d a) : ReadAs (.arr (l.map f)) (decodeList d) l := by
  intro w hw
  cases hw with
  | @arr _ ws hitems =>
    rw [decodeList]
    induction l generalizing ws with
    | nil =>
        cases hitems
        rfl
    | cons a l ih =>
        cases hitems with
        | cons hfirst hrest =>
          obtain ⟨ha, hl⟩ := List.forall_mem_cons.1 h
          rw [List.mapM_cons, ha _ hfirst, ok_bind, ih hl hrest, ok_bind]
          rfl

/-- Members that spell entries are read as such. -/
theorem mapM_members {κ α : Type} {key : String → κ} {d : Decoder α} {ns : List (String × Json)}
    {entries : List (κ × α)} (h : ∀ q ∈ ns, ∃ a, (key q.1, a) ∈ entries ∧ d q.2 = .ok a) :
    ∃ l, ns.mapM (fun (k, v) => (d v).map fun a => (key k, a)) = .ok l ∧
      l.map Prod.fst = ns.map (fun q => key q.1) ∧ ∀ p ∈ l, p ∈ entries := by
  induction ns with
  | nil => exact ⟨[], rfl, rfl, List.forall_mem_nil _⟩
  | cons q ns ih =>
      obtain ⟨k, v⟩ := q
      obtain ⟨⟨a, hmem, ha⟩, hrest⟩ := List.forall_mem_cons.1 h
      obtain ⟨l, hl, hkeys, hall⟩ := ih hrest
      refine ⟨(key k, a) :: l, ?_, by rw [List.map_cons, hkeys, List.map_cons],
        List.forall_mem_cons.2 ⟨hmem, hall⟩⟩
      have hfirst : (d v).map (fun a => (key k, a)) = .ok (key k, a) := by rw [ha]; rfl
      simp only [List.mapM_cons, hfirst, ok_bind, hl]
      rfl

/-- A directory is read from its entries in any order. -/
theorem readAs_directory {κ α : Type} [DecidableEq κ] [OrderedKey κ] {text : κ → String}
    {key : String → κ} (hkey : ∀ k, key (text k) = k) {f : α → Json} {d : Decoder α}
    {dir : Directory κ α} (h : ∀ a, ReadAs (f a) d a) :
    ReadAs (.obj (dir.entries.map fun p => (text p.1, f p.2))) (decodeDirectory key d) dir := by
  intro w hw
  cases hw with
  | @obj _ ns hkeys hmembers =>
    have hread : ∀ q ∈ ns, ∃ a, (key q.1, a) ∈ dir.entries ∧ d q.2 = .ok a := by
      intro q hq
      obtain ⟨p', hp', heq⟩ := List.mem_map.1 (hkeys.symm.subset (List.mem_map_of_mem hq))
      obtain ⟨p, hp, rfl⟩ := List.mem_map.1 hp'
      have hname : key q.1 = p.1 := by rw [← heq, hkey]
      exact ⟨p.2, by rwa [hname], h p.2 _ (hmembers q.1 _ _ (heq ▸ hp') hq)⟩
    obtain ⟨l, hl, hfst, hall⟩ := mapM_members hread
    have hperm : (l.map Prod.fst).Perm dir.keys := by
      have hback := hkeys.symm.map key
      simp only [List.map_map, Function.comp_def, hkey] at hback
      rw [hfst]
      exact hback
    rw [decodeDirectory, hl, ok_bind, Directory.ofList_eq hperm hall]
    rfl

end TokenSale.Json
