import Mathlib.Data.List.Induction
import TokenSale.Journal.Writer
import TokenSale.Proofs.JournalLine

/-!
# TokenSale.Proofs.JournalChain

The chain of a journal commits to everything in it.  An entry has its own hash
over all its fields and the hash of the entry before it, so the last hash
determines all entries, as long as no two of their lines collide.

* `StandsAt` — what an entry at a place in the chain has;
* `checkChainFrom_append_singleton` — a chain grows by one entry that does;
* `JournalWriter.Behind` — a writer stands behind the entries of its chain, and
  `Behind.next` keeps it there;
* `isPrefix_of_checkChain` — a chain that ends with the hash of an entry of
  another one is that one up to the entry;
* `tamper_evident` — two chains with one last hash are the same.
-/

namespace TokenSale

/-- Two texts are different and have one digest. -/
def Digest.Collide (s t : String) : Prop :=
  s ≠ t ∧ Sha256.hash (Text.utf8 s) = Sha256.hash (Text.utf8 t)

/-- Texts with one digest are equal unless they collide. -/
theorem Digest.eq_of_sha256Hex_eq {s t : String} (h : sha256Hex s = sha256Hex t)
    (hcollide : ¬ Collide s t) : s = t := by
  have hhash : Sha256.hash (Text.utf8 s) = Sha256.hash (Text.utf8 t) :=
    hex_injective (String.ofList_inj.1 h)
  by_cases hst : s = t
  · exact hst
  · exact absurd ⟨hst, hhash⟩ hcollide

namespace JournalEntry

variable {seq : Nat} {saleId : Uuid} {prevHash : Option String} {e f : JournalEntry}

/-- What an entry at a place in the chain of a sale has. -/
structure StandsAt (seq : Nat) (saleId : Uuid) (prevHash : Option String) (e : JournalEntry) :
    Prop where
  seq_eq : e.seq = seq
  saleId_eq : e.saleId = saleId
  prevHash_eq : e.prevHash = prevHash
  expectedHash_eq : e.expectedHash = e.hash
  entryId_eq : e.entryId = idAt saleId seq prevHash

/-- No fault is found in an entry exactly if it stands at its place. -/
theorem fault?_eq_none_iff :
    e.fault? seq saleId prevHash = none ↔ e.StandsAt seq saleId prevHash := by
  have hite : ∀ {c : Prop} [Decidable c] {fault : ChainFault} {o : Option ChainFault},
      (if c then some fault else o) = none ↔ ¬ c ∧ o = none := by
    intro c _ fault o
    split <;> simp_all
  simp only [fault?, hite, ne_eq, Decidable.not_not, and_true]
  constructor
  · rintro ⟨hseq, hsale, hprev, hhash, hid⟩
    exact ⟨hseq, hsale.symm, hprev, hhash, by rw [hid, hseq, hsale]⟩
  · rintro ⟨hseq, hsale, hprev, hhash, hid⟩
    exact ⟨hseq, hsale.symm, hprev, hhash, by rw [hid, hseq, hsale]⟩

/-- An entry that is made for a place stands there. -/
theorem standsAt_next (seq : Nat) (saleId : Uuid) (prevHash : Option String) (recordedAt : Instant)
    (kind : String) (payload : Json) :
    (next saleId seq prevHash recordedAt kind payload).StandsAt seq saleId prevHash :=
  ⟨rfl, rfl, rfl, rfl, rfl⟩

/-- The line over which the hash of the entry is taken. -/
def blankedLine (e : JournalEntry) : String := { e with hash := "" }.line

/-- The hash of an entry is the digest of its line with the hash left blank. -/
theorem StandsAt.sha256Hex_blankedLine (h : e.StandsAt seq saleId prevHash) :
    Digest.sha256Hex e.blankedLine = e.hash := h.expectedHash_eq

/-- Entries with one hash are the same, unless their lines collide. -/
theorem eq_of_blankedLine_eq (he : e.IsRecord Binary64.ReadsBack)
    (hf : f.IsRecord Binary64.ReadsBack) (hhash : e.hash = f.hash)
    (h : e.blankedLine = f.blankedLine) : e = f := by
  have heq : { e with hash := "" } = { f with hash := "" } :=
    eq_of_line_eq ⟨he.seq_lt, he.recordedAt, he.payload⟩ ⟨hf.seq_lt, hf.recordedAt, hf.payload⟩ h
  cases e
  cases f
  simp_all

end JournalEntry

open JournalEntry

/-! ## growing chains -/

/-- The hash that the entry behind a chain refers to. -/
def lastHash (prevHash : Option String) (es : List JournalEntry) : Option String :=
  es.foldl (fun _ e => some e.hash) prevHash

@[simp] theorem lastHash_append_singleton (prevHash : Option String) (es : List JournalEntry)
    (e : JournalEntry) : lastHash prevHash (es ++ [e]) = some e.hash := by
  simp [lastHash]

variable {es fs : List JournalEntry} {e f : JournalEntry} {seq m n : Nat} {saleId saleId' : Uuid}
  {prevHash : Option String}

/-- A chain is intact if its first entry stands there and the rest follows it. -/
theorem checkChainFrom_cons : checkChainFrom seq saleId prevHash (e :: es) = .intact n ↔
    e.StandsAt seq saleId prevHash ∧
      checkChainFrom (seq + 1) saleId (some e.hash) es = .intact n := by
  rw [checkChainFrom, ← fault?_eq_none_iff]
  cases e.fault? seq saleId prevHash <;> simp

/-- **A chain grows by one entry that stands at its end.** -/
theorem checkChainFrom_append_singleton :
    checkChainFrom seq saleId prevHash (es ++ [e]) = .intact n ↔
      ∃ m, checkChainFrom seq saleId prevHash es = .intact m ∧
        e.StandsAt m saleId (lastHash prevHash es) ∧ n = m + 1 := by
  induction es generalizing seq prevHash with
  | nil =>
      rw [List.nil_append, checkChainFrom_cons]
      simp [checkChainFrom, lastHash, eq_comm]
  | cons e' es ih =>
      rw [List.cons_append, checkChainFrom_cons, ih]
      constructor
      · rintro ⟨hstands, m, hes, he, rfl⟩
        exact ⟨m, checkChainFrom_cons.2 ⟨hstands, hes⟩, he, rfl⟩
      · rintro ⟨m, hes, he, rfl⟩
        obtain ⟨hstands, hes⟩ := checkChainFrom_cons.1 hes
        exact ⟨hstands, m, hes, he, rfl⟩

/-- An intact chain reports the number of its entries. -/
theorem length_of_checkChainFrom (h : checkChainFrom seq saleId prevHash es = .intact n) :
    n = seq + es.length := by
  induction es generalizing seq prevHash with
  | nil => cases h; rfl
  | cons e es ih =>
      have := ih (checkChainFrom_cons.1 h).2
      rw [List.length_cons]
      omega

/-- Entries of a chain are numbered one after the other. -/
theorem map_seq_of_checkChainFrom (h : checkChainFrom seq saleId prevHash es = .intact n) :
    es.map (·.seq) = List.range' seq es.length := by
  induction es generalizing seq prevHash with
  | nil => rfl
  | cons e es ih =>
      obtain ⟨hstands, hes⟩ := checkChainFrom_cons.1 h
      rw [List.map_cons, ih hes, hstands.seq_eq, List.length_cons, List.range'_succ]

/-- The front of an intact chain is intact. -/
theorem checkChainFrom_take (h : checkChainFrom seq saleId prevHash es = .intact n) (k : Nat) :
    checkChainFrom seq saleId prevHash (es.take k) = .intact (seq + (es.take k).length) := by
  induction es generalizing seq prevHash k with
  | nil => simp [checkChainFrom]
  | cons e es ih =>
      obtain ⟨hstands, hes⟩ := checkChainFrom_cons.1 h
      cases k with
      | zero => rfl
      | succ k =>
          rw [List.take_succ_cons, checkChainFrom_cons]
          refine ⟨hstands, ?_⟩
          rw [ih hes k, List.length_cons]
          congr 1; omega

/-- The first entry says which sale a chain is of. -/
theorem exists_saleId (es : List JournalEntry) :
    ∃ saleId, checkChain es = checkChainFrom 0 saleId none es := by
  cases es with
  | nil => exact ⟨default, rfl⟩
  | cons e es => exact ⟨e.saleId, rfl⟩

/-! ## writers -/

namespace JournalWriter

variable {w : JournalWriter}

/-- The writer stands behind the entries, which make up the chain of its sale. -/
structure Behind (w : JournalWriter) (es : List JournalEntry) : Prop where
  intact : checkChainFrom 0 w.saleId none es = .intact w.nextSeq
  lastHash_eq : w.lastHash = TokenSale.lastHash none es

theorem behind_fresh (saleId : Uuid) : (fresh saleId).Behind [] := ⟨rfl, rfl⟩

/-- **A writer stays behind the entries that it makes.** -/
theorem Behind.next (h : w.Behind es) (kind : String) (payload : Json) (recordedAt : Instant) :
    (w.next kind payload recordedAt).2.Behind (es ++ [(w.next kind payload recordedAt).1]) where
  intact := by
    refine checkChainFrom_append_singleton.2 ⟨w.nextSeq, h.intact, ?_, rfl⟩
    rw [← h.lastHash_eq]
    exact standsAt_next ..
  lastHash_eq := (lastHash_append_singleton ..).symm

theorem Behind.nextSeq_eq (h : w.Behind es) : w.nextSeq = es.length := by
  rw [length_of_checkChainFrom h.intact, Nat.zero_add]

/-- What a writer stands behind is an intact chain. -/
theorem Behind.checkChain_eq (h : w.Behind es) : checkChain es = .intact es.length := by
  have hintact := h.intact
  rw [h.nextSeq_eq] at hintact
  cases es with
  | nil => rfl
  | cons e es =>
      have hsale := (checkChainFrom_cons.1 hintact).1.saleId_eq
      rw [checkChain, hsale, hintact]

/-- The place behind a chain is where its writer stands. -/
theorem Behind.eq_behind (h : w.Behind es) : behind w.saleId es = w := by
  have hseq := h.nextSeq_eq
  have hlast := h.lastHash_eq
  obtain ⟨saleId, nextSeq, last⟩ := w
  rcases List.eq_nil_or_concat es with rfl | ⟨es, e, rfl⟩
  · simp_all [behind, fresh, TokenSale.lastHash]
  · rw [List.concat_eq_append] at *
    obtain ⟨m, hes, hstands, -⟩ := checkChainFrom_append_singleton.1 h.intact
    have hm := length_of_checkChainFrom hes
    rw [lastHash_append_singleton] at hlast
    simp only [behind, List.getLast?_append_of_ne_nil _ (List.cons_ne_nil e []),
      List.getLast?_singleton, hstands.seq_eq]
    simp_all

end JournalWriter

/-! ## commitment -/

section commitment

variable (hrecords : ∀ e ∈ es, e.IsRecord Binary64.ReadsBack)
  (hrecords' : ∀ f ∈ fs, f.IsRecord Binary64.ReadsBack)
  (hcollide : ∀ e ∈ es, ∀ f ∈ fs, ¬ Digest.Collide e.blankedLine f.blankedLine)

include hrecords hrecords' hcollide

/-- Entries of chains that have one hash are the same. -/
theorem eq_of_hash_eq {k : Nat} {prevHash' : Option String} (he : e ∈ es) (hf : f ∈ fs)
    (hstands : e.StandsAt seq saleId prevHash) (hstands' : f.StandsAt k saleId' prevHash')
    (hhash : e.hash = f.hash) : e = f := by
  refine eq_of_blankedLine_eq (hrecords e he) (hrecords' f hf) hhash ?_
  refine Digest.eq_of_sha256Hex_eq ?_ (hcollide e he f hf)
  rw [hstands.sha256Hex_blankedLine, hstands'.sha256Hex_blankedLine, hhash]

/-- Chains from the start that end with one hash are the same: their last
entries are, and so are the hashes of the entries before them. -/
theorem eq_of_checkChainFrom {as bs : List JournalEntry} (has : ∀ a ∈ as ++ [e], a ∈ es)
    (hbs : ∀ b ∈ bs ++ [f], b ∈ fs)
    (hcheck : checkChainFrom 0 saleId none (as ++ [e]) = .intact m)
    (hcheck' : checkChainFrom 0 saleId' none (bs ++ [f]) = .intact n)
    (hhash : e.hash = f.hash) : as ++ [e] = bs ++ [f] := by
  induction as using List.reverseRecOn generalizing bs e f m n with
  | nil =>
      obtain ⟨i, has', hstands, -⟩ := checkChainFrom_append_singleton.1 hcheck
      obtain ⟨j, hbs', hstands', -⟩ := checkChainFrom_append_singleton.1 hcheck'
      have hef := eq_of_hash_eq hrecords hrecords' hcollide (has e (by simp)) (hbs f (by simp))
        hstands hstands' hhash
      have hempty : bs.length = 0 := by
        have hi := length_of_checkChainFrom has'
        have hj := length_of_checkChainFrom hbs'
        have hseq : i = j := by rw [← hstands.seq_eq, ← hstands'.seq_eq, hef]
        rw [List.length_nil] at hi
        omega
      rw [hef, List.length_eq_zero_iff.1 hempty]
  | append_singleton as a ih =>
      obtain ⟨i, has', hstands, -⟩ := checkChainFrom_append_singleton.1 hcheck
      obtain ⟨j, hbs', hstands', -⟩ := checkChainFrom_append_singleton.1 hcheck'
      have hef := eq_of_hash_eq hrecords hrecords' hcollide (has e (by simp)) (hbs f (by simp))
        hstands hstands' hhash
      have hprev : lastHash none (as ++ [a]) = lastHash none bs := by
        rw [← hstands.prevHash_eq, ← hstands'.prevHash_eq, hef]
      rw [lastHash_append_singleton] at hprev
      rcases List.eq_nil_or_concat bs with rfl | ⟨bs, b, rfl⟩
      · simp [lastHash] at hprev
      · rw [List.concat_eq_append] at *
        rw [lastHash_append_singleton, Option.some.injEq] at hprev
        have heq := ih (fun c hc => has c (List.mem_append_left _ hc))
          (fun c hc => hbs c (List.mem_append_left _ hc)) has' hbs' hprev
        rw [hef, heq]

/-- **Whoever knows the hash of an entry knows all entries up to it**: a chain
that ends with this hash is the beginning of the chain that the entry is in. -/
theorem isPrefix_of_checkChain (hcheck : checkChain es = .intact m)
    (hcheck' : checkChain fs = .intact n) (hfs : fs ≠ []) (he : e ∈ es)
    (hhash : (fs.getLast hfs).hash = e.hash) : fs <+: es := by
  obtain ⟨saleId, hsale⟩ := exists_saleId es
  obtain ⟨saleId', hsale'⟩ := exists_saleId fs
  rw [hsale] at hcheck
  rw [hsale'] at hcheck'
  obtain ⟨as, cs, rfl⟩ := List.append_of_mem he
  have htake : (as ++ e :: cs).take (as.length + 1) = as ++ [e] := by
    simp [List.take_append, List.take_of_length_le]
  have has := checkChainFrom_take hcheck (as.length + 1)
  rw [htake] at has
  have hlast := List.dropLast_append_getLast hfs
  rw [← hlast] at hcheck'
  have heq := eq_of_checkChainFrom hrecords hrecords' hcollide
    (fun a ha => by rw [← htake] at ha; exact List.mem_of_mem_take ha)
    (fun b hb => by rwa [hlast] at hb) has hcheck' hhash.symm
  rw [hlast] at heq
  exact ⟨cs, by rw [← heq]; simp⟩

end commitment

/-- **A journal is tamper-evident**: two journals that verify and end with one
hash are the same in every field of every entry, as long as SHA-256 does not
collide on their lines. -/
theorem tamper_evident (hcheck : checkChain es = .intact m) (hcheck' : checkChain fs = .intact n)
    (hes : es ≠ []) (hfs : fs ≠ []) (hrecords : ∀ e ∈ es, e.IsRecord fun _ => False)
    (hrecords' : ∀ f ∈ fs, f.IsRecord fun _ => False)
    (hcollide : ∀ e ∈ es, ∀ f ∈ fs, ¬ Digest.Collide e.blankedLine f.blankedLine)
    (hhash : (es.getLast hes).hash = (fs.getLast hfs).hash) : es = fs := by
  obtain ⟨saleId, hsale⟩ := exists_saleId es
  obtain ⟨saleId', hsale'⟩ := exists_saleId fs
  have hlast := List.dropLast_append_getLast hes
  have hlast' := List.dropLast_append_getLast hfs
  rw [hsale, ← hlast] at hcheck
  rw [hsale', ← hlast'] at hcheck'
  rw [← hlast, ← hlast']
  exact eq_of_checkChainFrom (fun e he => (hrecords e he).mono fun _ h => h.elim)
    (fun f hf => (hrecords' f hf).mono fun _ h => h.elim) hcollide
    (fun a ha => by rwa [hlast] at ha)
    (fun b hb => by rwa [hlast'] at hb) hcheck hcheck' hhash

theorem Sample.noteSale_lt : 1 < Nat.pow 2 128 := by decide

/-- The sale that the journal belongs to. -/
def Sample.noteSale : Uuid := ⟨1, noteSale_lt⟩

/-- Noon of the day on which it is kept. -/
def Sample.noon : Instant := { (default : Instant) with second := 1772366400 }

/-- An entry at the start of a chain. -/
def Sample.note : JournalEntry := .next noteSale 0 none noon "NOTE" .null

theorem Sample.isRecord_note {ok : Binary64 → Prop} : Sample.note.IsRecord ok :=
  ⟨by decide, ⟨by decide, by decide, by decide⟩, .null⟩

theorem Sample.checkChain_note : checkChain [Sample.note] = .intact 1 :=
  checkChainFrom_cons.2 ⟨standsAt_next .., rfl⟩

/-- What the next entry tells: a payment and its parts. -/
def Sample.paidParts : Json :=
  .obj [("parts", .arr [.obj [("amount", .int 30), ("to", .str "treasury")]]), ("x", .null)]

theorem Sample.isValue_paidParts {ok : Binary64 → Prop} : paidParts.IsValue ok := by
  have hpart : (Json.obj [("amount", .int 30), ("to", .str "treasury")]).IsValue ok :=
    .obj (by simpa using ⟨.int (by decide) (by decide), .str _⟩) (by simp; decide)
  exact .obj (by simpa using ⟨.arr (by simpa using hpart), .null⟩) (by simp; decide)

/-- The next entry. -/
def Sample.paid : JournalEntry := .next noteSale 1 (some note.hash) noon "PAYMENT" paidParts

theorem Sample.hash_note :
    note.hash = "f7aef467158886da16c98349131a31eae8fb27ebda366987981a76d784f702b0" := by
  decide +kernel

theorem Sample.hash_paid :
    paid.hash = "8b7f9730200822f911f8a13bbeaad619e93a431a3940745198efa15b5ebdd9ba" := by
  rw [paid, hash_note]
  decide +kernel

/-- The lines of both entries do not collide: their hashes are different. -/
theorem Sample.not_collide : ∀ e ∈ [note, paid], ∀ f ∈ [note, paid],
    ¬ Digest.Collide e.blankedLine f.blankedLine := by
  have hne : note.hash ≠ paid.hash := by
    rw [hash_note, hash_paid]
    decide
  have hapart : Digest.sha256Hex note.blankedLine ≠ Digest.sha256Hex paid.blankedLine := hne
  simp only [List.forall_mem_cons, List.not_mem_nil, false_implies, implies_true, and_true]
  refine ⟨⟨fun h => h.1 rfl, fun h => hapart ?_⟩, fun h => hapart ?_, fun h => h.1 rfl⟩
  · rw [Digest.sha256Hex, h.2, Digest.sha256Hex]
  · rw [Digest.sha256Hex, ← h.2, Digest.sha256Hex]

theorem Sample.isRecord_chain : ∀ e ∈ [note, paid], e.IsRecord fun _ => False := by
  simp only [List.forall_mem_cons]
  exact ⟨isRecord_note, ⟨by decide, ⟨by decide, by decide, by decide⟩, isValue_paidParts⟩,
    List.forall_mem_nil _⟩

theorem Sample.checkChain_paid : checkChain [note, paid] = .intact 2 :=
  checkChainFrom_cons.2 ⟨standsAt_next .., checkChainFrom_cons.2 ⟨standsAt_next .., rfl⟩⟩

/-- A journal of two entries, against itself. -/
theorem tamper_evident_note :
    checkChain [Sample.note, Sample.paid] = .intact 2 ∧
    (∀ e ∈ [Sample.note, Sample.paid], e.IsRecord fun _ => False) ∧
    (∀ e ∈ [Sample.note, Sample.paid], ∀ f ∈ [Sample.note, Sample.paid],
      ¬ Digest.Collide e.blankedLine f.blankedLine) ∧
    [Sample.note, Sample.paid] = [Sample.note, Sample.paid] :=
  ⟨Sample.checkChain_paid, Sample.isRecord_chain, Sample.not_collide,
    tamper_evident Sample.checkChain_paid Sample.checkChain_paid (by simp) (by simp)
      Sample.isRecord_chain Sample.isRecord_chain Sample.not_collide rfl⟩

end TokenSale
