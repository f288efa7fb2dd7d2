import Mathlib.Logic.Relation
import TokenSale.Proofs.Entries
import TokenSale.Proofs.Spellings
import TokenSale.Proofs.TierValidity
import TokenSale.Proofs.UnusedKeys

/-!
# TokenSale.Proofs.Respelling

How the quantities of a configuration are spelt does not matter.  One of them
is put in place of another that spells the same, and the setup stays what it
was, however often that is done.

* `Json.replaceAt` — another document at a path;
* `QuantityAt`, `Respelled` — where quantities stand, and one that is replaced;
* `SaleSetup.ofConfig_respelled`, `ofConfig_respellings` — the setup stays;
* `SaleSetup.spells_of_ofConfig` — what is accepted is spelt so;
* `setup_any_spelling` — all of this, and which spellings there are.
-/

namespace TokenSale

open Json Directory

/-! ## replacing what stands at a path -/

namespace Directory

variable {κ α : Type} [DecidableEq κ] {k k' : κ} {f : α → α}

/-- The entries with what stands first under a key changed. -/
def adjust (k : κ) (f : α → α) : List (κ × α) → List (κ × α)
  | [] => []
  | (k', a) :: rest => if k = k' then (k', f a) :: rest else (k', a) :: adjust k f rest

/-- The adjusted entry is found under its key. -/
theorem find_adjust_self (l : List (κ × α)) : find k (adjust k f l) = (find k l).map f := by
  induction l with
  | nil => rfl
  | cons p l ih =>
      obtain ⟨k', a⟩ := p
      by_cases hk : k = k' <;> simp [adjust, find, hk, ih]

theorem find_adjust_ne (hk : k' ≠ k) (l : List (κ × α)) : find k' (adjust k f l) = find k' l := by
  induction l with
  | nil => rfl
  | cons p l ih =>
      obtain ⟨k'', a⟩ := p
      by_cases hk' : k = k''
      · subst hk'
        simp [adjust, find, hk]
      · simp [adjust, find, hk', ih]

/-- Entries are related to those that they were before one was changed. -/
theorem forall₂_adjust {R : κ × α → κ × α → Prop} {a : α} {l : List (κ × α)}
    (hrefl : ∀ p, R p p) (hfind : find k l = some a) (h : R (k, a) (k, f a)) :
    List.Forall₂ R l (adjust k f l) := by
  induction l with
  | nil => contradiction
  | cons p l ih =>
      obtain ⟨k', a'⟩ := p
      rw [find] at hfind
      rw [adjust]
      split at hfind
      next hk =>
        cases hfind
        subst hk
        rw [if_pos rfl]
        exact .cons h (List.forall₂_same.2 fun p _ => hrefl p)
      next hk =>
        rw [if_neg hk]
        exact .cons (hrefl _) (ih hfind)

end Directory

namespace Json

variable {v w u : Json} {s s' : String} {f : Json → Json} {path : List String}

/-- The document with what is one step below it changed. -/
def adjustStep (s : String) (f : Json → Json) : Json → Json
  | obj members => obj (adjust s f members)
  | arr items =>
    match indexOfStep? s with
    | some i => arr (items.modify i f)
    | none => arr items
  | v => v

/-- The document with another one put in place of what stands at a path. -/
def replaceAt (v : Json) : List String → Json → Json
  | [], w => w
  | s :: path, w => v.adjustStep s fun u => u.replaceAt path w

/-- One step down leads to the adjusted value. -/
theorem step?_adjustStep_self : (v.adjustStep s f).step? s = (v.step? s).map f := by
  cases v with
  | obj members => exact find_adjust_self members
  | arr items =>
      cases hindex : indexOfStep? s with
      | none => simp [adjustStep, step?, hindex]
      | some i => simp [adjustStep, step?, hindex]
  | _ => rfl

/-- A step that is no index concerns objects only. -/
theorem step?_adjustStep_ne (hindex : indexOfStep? s = none) (hne : s' ≠ s) :
    (v.adjustStep s f).step? s' = v.step? s' := by
  cases v with
  | obj members => exact find_adjust_ne hne members
  | arr items => simp [adjustStep, hindex]
  | _ => rfl

theorem step?_eq_member? (hindex : indexOfStep? s = none) : v.step? s = v.member? s := by
  cases v with
  | arr items => simp [step?, member?, hindex]
  | _ => rfl

theorem at?_singleton : v.at? [s] = v.step? s := by
  rw [at?]
  cases v.step? s <;> rfl

/-- What stands at another path stays, if they part in an object. -/
theorem at?_replaceAt_ne (front path more : List String) (hindex : indexOfStep? s = none)
    (hne : s' ≠ s) : (v.replaceAt (front ++ s :: path) w).at? (front ++ s' :: more) =
      v.at? (front ++ s' :: more) := by
  induction front generalizing v with
  | nil => rw [List.nil_append, List.nil_append, replaceAt, at?, step?_adjustStep_ne hindex hne, at?]
  | cons a front ih =>
      rw [List.cons_append, List.cons_append, replaceAt, at?, step?_adjustStep_self, at?]
      cases v.step? a with
      | none => rfl
      | some u => exact ih

/-- **At the path itself stands the replacement.** -/
theorem at?_replaceAt_self (h : v.at? path = some u) : (v.replaceAt path w).at? path = some w := by
  induction path generalizing v with
  | nil => rfl
  | cons s path ih =>
      obtain ⟨x, hx, hu⟩ := Option.bind_eq_some_iff.1 h
      rw [replaceAt, at?, step?_adjustStep_self, hx]
      exact ih hu

end Json

/-! ## where quantities stand -/

/-- The amounts among the parameters of a sale. -/
def saleAmounts : List String := ["non_accredited_limit", "minimum_investment"]

/-- The quantities of a tier. -/
def tierQuantities : List (String × QuantityKind) :=
  [("price", .price), ("capacity", .amount), ("discount_price", .price),
    ("discount_capacity", .amount)]

/-- Where the quantities of a configuration stand. -/
inductive QuantityAt : List String → QuantityKind → Prop
  | sale {key : String} (h : key ∈ saleAmounts) : QuantityAt ["sale", key] .amount
  | tier {key : String} {kind : QuantityKind} (i : Nat) (h : (key, kind) ∈ tierQuantities) :
      QuantityAt ["tiers", toString i, key] kind
  | rate (code : String) : QuantityAt ["rates", code] .rate

/-- One quantity is replaced by another spelling of it. -/
def Respelled (config config' : Json) : Prop :=
  ∃ path kind v w, QuantityAt path kind ∧ config.at? path = some v ∧ kind.Same v w ∧
    config' = config.replaceAt path w

/-! ## one replacement -/

/-- Settings that are read the same are demanded the same. -/
theorem SameReading.demand {α : Type} {s s' : Setting}
    {read : Setting → Except SetupError (Option α)} (h : SameReading (read s) (read s')) :
    SameReading (s.demand read) (s'.demand read) :=
  fun a => by rw [Setting.demand_ok_iff, Setting.demand_ok_iff, h]

namespace SaleSetup

variable {config config' v w : Json} {path : List String} {kind : QuantityKind}

/-- A setting is what stands at its written path. -/
theorem ofPath_eq {text : String} (hpath : pathOfText? text = some path) :
    Setting.ofPath config text = ⟨text, config.at? path⟩ := by
  rw [Setting.ofPath, pointer?, hpath, Option.bind_some]

/-- The other parameters of a sale. -/
def otherParameters : List String :=
  ["sale_id", "start_time", "end_time", "accepted_currencies", "discount_currency",
    "settlement_destination", "treasury", "rate_tolerance_secs", "allow_beneficial_investments"]

/-- The parameters of the sale stand one step below it. -/
theorem pathOfText?_sale : ∀ key ∈ otherParameters ++ saleAmounts,
    pathOfText? s!"/sale/{key}" = some ["sale", key] := by
  decide

theorem indexOfStep?_sale : ∀ key ∈ saleAmounts, indexOfStep? key = none := by decide

theorem notMem_saleAmounts : ∀ key ∈ otherParameters, key ∉ saleAmounts := by decide

/-- Parameters are the same if the amounts among them are. -/
theorem readConfig_same
    (hothers : ∀ key ∈ otherParameters,
      Setting.ofPath config s!"/sale/{key}" = Setting.ofPath config' s!"/sale/{key}")
    (hamounts : ∀ key ∈ saleAmounts,
      SameReading (Setting.ofPath config s!"/sale/{key}").quantity?
        ((Setting.ofPath config' s!"/sale/{key}").quantity? : Except _ (Option Units))) :
    SameReading (readConfig config) (readConfig config') := by
  simp (disch := decide) only [readConfig, hothers]
  have hlimit := hamounts "non_accredited_limit" (by decide)
  have hleast := hamounts "minimum_investment" (by decide)
  exact .bind (.refl _) fun _ => .bind (.refl _) fun _ => .bind (.refl _) fun _ =>
    hlimit.demand.bind fun _ => hleast.bind fun _ => .refl _

/-- One amount among the parameters of a sale is replaced. -/
theorem readConfig_replaceAt {key : String} (hkey : key ∈ saleAmounts)
    (hv : config.at? ["sale", key] = some v) (hsame : QuantityKind.amount.Same v w) :
    SameReading (readConfig config) (readConfig (config.replaceAt ["sale", key] w)) := by
  have hsetting {other : String} (hmem : other ∈ otherParameters ++ saleAmounts)
      (hne : other ≠ key) : Setting.ofPath config s!"/sale/{other}" =
        Setting.ofPath (config.replaceAt ["sale", key] w) s!"/sale/{other}" := by
    have hpath := pathOfText?_sale other hmem
    rw [ofPath_eq hpath, ofPath_eq hpath]
    exact congrArg _ (at?_replaceAt_ne ["sale"] [] [] (indexOfStep?_sale key hkey) hne).symm
  refine readConfig_same (fun other hmem => hsetting (List.mem_append_left _ hmem) ?_)
    fun other hmem => ?_
  · rintro rfl
    exact notMem_saleAmounts other hmem hkey
  · by_cases hne : other = key
    · subst hne
      have hpath := pathOfText?_sale other (List.mem_append_right _ hmem)
      rw [ofPath_eq hpath, ofPath_eq hpath, hv, at?_replaceAt_self hv]
      exact hsame.quantity? _
    · rw [hsetting (List.mem_append_right _ hmem) hne]
      exact .refl _

/-! ### tiers -/

/-- No quantity of a tier is named by an index. -/
theorem indexOfStep?_tier : ∀ p ∈ tierQuantities, indexOfStep? p.1 = none := by decide

/-- A key of a tier names one kind of quantity. -/
theorem tierQuantities_unique : ∀ p ∈ tierQuantities, ∀ q ∈ tierQuantities, p.1 = q.1 → p = q := by
  decide

/-- A tier is read the same if all its prices and amounts are. -/
theorem tier_same {s s' : Setting}
    (hprices : ∀ key, (key, .price) ∈ tierQuantities →
      SameReading (s.member key).price? (s'.member key).price?)
    (hamounts : ∀ key, (key, .amount) ∈ tierQuantities →
      SameReading (s.member key).quantity?
        ((s'.member key).quantity? : Except _ (Option Tokens))) :
    SameReading s.tier s'.tier := by
  refine (hprices "price" (by decide)).demand.bind fun price => ?_
  refine (hamounts "capacity" (by decide)).demand.bind fun capacity => ?_
  refine (hprices "discount_price" (by decide)).bind fun price? => ?_
  refine (hamounts "discount_capacity" (by decide)).bind fun capacity? => ?_
  cases price? with
  | none => cases capacity? with
    | none => exact .refl _
    | some capacity => exact .error _ _
  | some price => cases capacity? with
    | none => exact .error _ _
    | some capacity => exact .refl _

/-- One quantity of a tier is replaced. -/
theorem tier_replaceAt {key : String} (hkey : (key, kind) ∈ tierQuantities) {item : Json}
    (hv : item.at? [key] = some v) (hsame : kind.Same v w) (path : String) :
    SameReading (Setting.mk path (some item)).tier
      (Setting.mk path (some (item.replaceAt [key] w))).tier := by
  have hmember {key' : String} {kind' : QuantityKind} (hmem : (key', kind') ∈ tierQuantities) :
      (Setting.mk path (some item)).member key' =
          (Setting.mk path (some (item.replaceAt [key] w))).member key' ∨
        kind' = kind ∧ ∃ path', (Setting.mk path (some item)).member key' = ⟨path', some v⟩ ∧
          (Setting.mk path (some (item.replaceAt [key] w))).member key' = ⟨path', some w⟩ := by
    have hindex := indexOfStep?_tier _ hmem
    simp only [Setting.member, Option.bind_some, ← step?_eq_member? hindex, ← at?_singleton]
    by_cases hne : key' = key
    · cases tierQuantities_unique _ hmem _ hkey hne
      exact .inr ⟨rfl, _, by rw [hv], by rw [at?_replaceAt_self hv]⟩
    · exact .inl (congrArg _ (at?_replaceAt_ne [] [] [] (indexOfStep?_tier _ hkey) hne).symm)
  refine tier_same (fun key' hmem => ?_) fun key' hmem => ?_
  · obtain heq | ⟨rfl, path', hv, hw⟩ := hmember hmem
    · rw [heq]
      exact .refl _
    · rw [hv, hw]
      exact hsame.price? path'
  · obtain heq | ⟨rfl, path', hv, hw⟩ := hmember hmem
    · rw [heq]
      exact .refl _
    · rw [hv, hw]
      exact hsame.quantity? path'

/-- One quantity of one tier spelt otherwise leaves the tiers that are read. -/
theorem readTiers_replaceAt {key : String} {i : Nat} (hkey : (key, kind) ∈ tierQuantities)
    (hv : config.at? ["tiers", toString i, key] = some v) (hsame : kind.Same v w) :
    SameReading (readTiers config)
      (readTiers (config.replaceAt ["tiers", toString i, key] w)) := by
  have hpath : pathOfText? "/tiers" = some ["tiers"] := by decide
  obtain ⟨tiers, htiers, hbelow⟩ := Option.bind_eq_some_iff.1 hv
  obtain ⟨item, hitem, hleaf⟩ := Option.bind_eq_some_iff.1 hbelow
  rw [readTiers, readTiers, ofPath_eq hpath, ofPath_eq hpath, at?_singleton, at?_singleton,
    replaceAt, step?_adjustStep_self, htiers, Option.map_some, replaceAt]
  cases tiers with
  | arr items =>
      have hindex := indexOfStep?_toString i
      rw [step?, hindex, Option.bind_some] at hitem
      simp only [adjustStep, hindex]
      -- items keep their places, so each is read at the path that it was read at
      refine .mapM (List.forall₂_iff_get.2 ⟨by simp, fun j hj hj' => ?_⟩)
      simp only [List.get_eq_getElem, List.getElem_mapIdx, List.getElem_modify]
      split
      next heq =>
        subst heq
        obtain ⟨_, rfl⟩ := List.getElem?_eq_some_iff.1 hitem
        exact tier_replaceAt hkey hleaf hsame _
      next => exact .refl _
  | obj members => exact .refl _
  | _ => cases hitem

/-! ### rates -/

/-- One rate spelt otherwise leaves the rates that are read. -/
theorem readRates_replaceAt {code : String} (hv : config.at? ["rates", code] = some v)
    (hsame : QuantityKind.rate.Same v w) :
    SameReading (readRates config) (readRates (config.replaceAt ["rates", code] w)) := by
  have hpath : pathOfText? "/rates" = some ["rates"] := by decide
  obtain ⟨rates, hrates, hv⟩ := Option.bind_eq_some_iff.1 hv
  rw [at?_singleton] at hv
  rw [readRates, readRates, ofPath_eq hpath, ofPath_eq hpath, at?_singleton, at?_singleton,
    replaceAt, step?_adjustStep_self, hrates, Option.map_some, replaceAt]
  cases rates with
  | obj members =>
      refine .bind (.mapM (forall₂_adjust (fun _ => .refl _) hv ?_)) fun _ => .refl _
      exact (hsame.quote _).bind fun _ => .refl _
  | arr items =>
      simp only [adjustStep]
      cases indexOfStep? code <;> exact .refl _
  | _ => cases hv

/-! ### setups -/

/-- A setup is read the same if its three parts are. -/
theorem ofConfig_same (hconfig : SameReading (readConfig config) (readConfig config'))
    (htiers : SameReading (readTiers config) (readTiers config'))
    (hrates : SameReading (readRates config) (readRates config')) :
    SameReading (ofConfig config) (ofConfig config') := fun setup => by
  rw [ofConfig_ok_iff, ofConfig_ok_iff, hconfig, htiers, hrates]

/-- A change below one member is not seen under another. -/
theorem pointer?_replaceAt {s s' text : String} {rest : List String}
    (hindex : indexOfStep? s = none) (hne : s' ≠ s) (htext : pathOfText? text = some [s']) :
    config.pointer? text = (config.replaceAt (s :: rest) w).pointer? text := by
  rw [pointer?, pointer?, htext]
  exact (at?_replaceAt_ne [] rest [] hindex hne).symm

/-- **One quantity is replaced** by another spelling of it, and the setup is the same. -/
theorem ofConfig_respelled (h : Respelled config config') :
    SameReading (ofConfig config) (ofConfig config') := by
  obtain ⟨path, kind, v, w, hpath, hv, hsame, rfl⟩ := h
  have hsale : pathOfText? "/sale" = some ["sale"] := by decide
  have htiers : pathOfText? "/tiers" = some ["tiers"] := by decide
  have hrates : pathOfText? "/rates" = some ["rates"] := by decide
  cases hpath with
  | sale hkey =>
      have hindex : indexOfStep? "sale" = none := by decide
      exact ofConfig_same (readConfig_replaceAt hkey hv hsame)
        (.of_eq (readTiers_congr (pointer?_replaceAt hindex (by decide) htiers)))
        (.of_eq (readRates_congr (pointer?_replaceAt hindex (by decide) hrates)))
  | tier i hkey =>
      have hindex : indexOfStep? "tiers" = none := by decide
      exact ofConfig_same (.of_eq (readConfig_congr (pointer?_replaceAt hindex (by decide) hsale)))
        (readTiers_replaceAt hkey hv hsame)
        (.of_eq (readRates_congr (pointer?_replaceAt hindex (by decide) hrates)))
  | rate code =>
      have hindex : indexOfStep? "rates" = none := by decide
      exact ofConfig_same (.of_eq (readConfig_congr (pointer?_replaceAt hindex (by decide) hsale)))
        (.of_eq (readTiers_congr (pointer?_replaceAt hindex (by decide) htiers)))
        (readRates_replaceAt hv hsame)

/-- Any number of quantities are replaced, one after the other. -/
theorem ofConfig_respellings (h : Relation.ReflTransGen Respelled config config') :
    SameReading (ofConfig config) (ofConfig config') := by
  induction h with
  | refl => exact .refl _
  | tail _ hlast ih => exact ih.trans (ofConfig_respelled hlast)

/-! ### what is accepted -/

/-- Every part of a tier that is read can be read. -/
theorem exists_of_tier {s : Setting} {t : TierSpec} (h : s.tier = .ok t) :
    (∀ key, (key, .price) ∈ tierQuantities → ∃ r, (s.member key).price? = .ok r) ∧
      ∀ key, (key, .amount) ∈ tierQuantities →
        ∃ r : Option Tokens, (s.member key).quantity? = .ok r := by
  simp only [Setting.tier, bind_eq_ok_iff, Setting.demand_ok_iff] at h
  obtain ⟨price, hprice, capacity, hcapacity, price?, hprice?, capacity?, hcapacity?, -⟩ := h
  constructor
  · intro key hkey
    obtain rfl | rfl : key = "price" ∨ key = "discount_price" := by
      simpa [tierQuantities] using hkey
    · exact ⟨_, hprice⟩
    · exact ⟨_, hprice?⟩
  · intro key hkey
    obtain rfl | rfl : key = "capacity" ∨ key = "discount_capacity" := by
      simpa [tierQuantities] using hkey
    · exact ⟨_, hcapacity⟩
    · exact ⟨_, hcapacity?⟩

/-- Tiers that are read are the items of a list. -/
theorem tiers_of_readTiers {specs : List TierSpec} (h : readTiers config = .ok specs) :
    ∃ items, config.at? ["tiers"] = some (.arr items) ∧
      ∀ item ∈ items, ∃ path t, (Setting.mk path (some item)).tier = .ok t := by
  have hpath : pathOfText? "/tiers" = some ["tiers"] := by decide
  rw [readTiers, ofPath_eq hpath, bind_eq_ok_iff] at h
  obtain ⟨settings, hsettings, hspecs⟩ := h
  simp only [Setting.items] at hsettings
  split at hsettings
  next items hitems =>
    cases hsettings
    refine ⟨items, hitems, fun item hitem => ?_⟩
    obtain ⟨i, hi, rfl⟩ := List.getElem_of_mem hitem
    obtain ⟨t, -, ht⟩ := exists_of_mapM hspecs (List.mem_mapIdx.2 ⟨i, hi, rfl⟩)
    exact ⟨_, t, ht⟩
  · cases hsettings

/-- Rates that are read are those of the members of an object. -/
theorem quotes_of_readRates {rates : Directory Currency Quote} (h : readRates config = .ok rates) :
    config.at? ["rates"] = none ∧ rates = .empty ∨
      ∃ members entries, config.at? ["rates"] = some (.obj members) ∧ rates = .ofList entries ∧
        (∀ p ∈ members, ∃ path q, (Setting.mk path (some p.2)).quote = .ok q) ∧
        ∀ e ∈ entries, ∃ s : Setting, s.quote = .ok e.2 := by
  have hpath : pathOfText? "/rates" = some ["rates"] := by decide
  rw [readRates, ofPath_eq hpath] at h
  cases hrates : config.at? ["rates"] with
  | none =>
      rw [hrates] at h
      cases h
      exact .inl ⟨rfl, rfl⟩
  | some v =>
      rw [hrates] at h
      cases v with
      | obj members =>
          simp only [bind_eq_ok_iff] at h
          obtain ⟨entries, hentries, h⟩ := h
          cases h
          refine .inr ⟨members, entries, rfl, rfl, fun p hp => ?_, fun e he => ?_⟩
          · obtain ⟨e, -, hread⟩ := exists_of_mapM hentries hp
            obtain ⟨q, hq, -⟩ := bind_eq_ok_iff.1 hread
            exact ⟨_, q, hq⟩
          · obtain ⟨p, -, hread⟩ := exists_of_mem_mapM hentries he
            obtain ⟨q, hq, he⟩ := bind_eq_ok_iff.1 hread
            cases he
            exact ⟨_, hq⟩
      | _ => cases h

/-- **Rates that are read have two sides.** -/
theorem positive_of_readRates {rates : Directory Currency Quote} (h : readRates config = .ok rates) :
    ∀ p ∈ rates.entries, 0 < p.2.numerator.val ∧ 0 < p.2.denominator.val := by
  obtain ⟨-, rfl⟩ | ⟨members, entries, -, rfl, -, hquotes⟩ := quotes_of_readRates h
  · exact List.forall_mem_nil _
  · intro p hp
    obtain ⟨s, hs⟩ := hquotes p (mem_of_mem_ofList hp)
    exact (Setting.quote_ok_iff_of_anyQuote.1 hs).2

/-- **Every quantity of a configuration that is accepted** is spelt in one of these ways. -/
theorem spells_of_ofConfig {ok : Binary64 → Prop} {setup : SaleSetup}
    (h : ofConfig config = .ok setup) (hpath : QuantityAt path kind)
    (hv : config.at? path = some v) (hdocument : v.IsDocument ok) (hnull : v ≠ .null) :
    ∃ n d, kind.Spells v n d := by
  obtain ⟨hconfig, -, htiers, -, hrates⟩ := ofConfig_ok_iff.1 h
  have hamount {sc : Scale} {text : String} {r : Option (Quantity sc)}
      (hread : (Setting.mk text (some v)).quantity? = .ok r) :
      ∃ n d, QuantityKind.amount.Spells v n d := by
    cases r with
    | none => exact absurd (Setting.eq_null_of_quantity? hread) hnull
    | some q => exact ⟨q.val, 1, Setting.spellsAmount_of_quantity? hdocument hread, rfl⟩
  cases hpath with
  | @sale key hkey =>
      have hsetting : Setting.ofPath config s!"/sale/{key}" = ⟨_, config.at? ["sale", key]⟩ :=
        ofPath_eq (pathOfText?_sale key (List.mem_append_right _ hkey))
      rw [hv] at hsetting
      simp only [readConfig, bind_eq_ok_iff, Setting.demand_ok_iff] at hconfig
      obtain ⟨-, -, -, -, -, -, limit, hlimit, least, hleast, -⟩ := hconfig
      obtain rfl | rfl : key = "non_accredited_limit" ∨ key = "minimum_investment" := by
        simpa [saleAmounts] using hkey
      · rw [hsetting] at hlimit
        exact hamount hlimit
      · rw [hsetting] at hleast
        exact hamount hleast
  | @tier key _ i hkey =>
      obtain ⟨tiers, htier, hbelow⟩ := Option.bind_eq_some_iff.1 hv
      obtain ⟨item, hitem, hleaf⟩ := Option.bind_eq_some_iff.1 hbelow
      obtain ⟨items, hitems, hall⟩ := tiers_of_readTiers htiers
      rw [at?_singleton, htier] at hitems
      cases hitems
      rw [step?, indexOfStep?_toString, Option.bind_some] at hitem
      obtain ⟨text, t, ht⟩ := hall item (List.mem_of_getElem? hitem)
      obtain ⟨hprices, hamounts⟩ := exists_of_tier ht
      have hmember : (Setting.mk text (some item)).member key = ⟨s!"{text}/{key}", some v⟩ := by
        rw [at?_singleton, step?_eq_member? (indexOfStep?_tier _ hkey)] at hleaf
        rw [Setting.member, Option.bind_some, hleaf]
      cases kind with
      | amount =>
          obtain ⟨r, hr⟩ := hamounts key hkey
          rw [hmember] at hr
          exact hamount hr
      | price =>
          obtain ⟨r, hr⟩ := hprices key hkey
          rw [hmember] at hr
          cases r with
          | none => exact absurd (Setting.eq_null_of_price? hr) hnull
          | some p => exact ⟨_, _, Setting.spellsRatio_of_price? hdocument hr⟩
      | rate => simp [tierQuantities] at hkey
  | rate code =>
      obtain ⟨rates, hrate, hbelow⟩ := Option.bind_eq_some_iff.1 hv
      rw [at?_singleton] at hbelow
      obtain ⟨hnone, -⟩ | ⟨members, entries, hmembers, -, hquotes, -⟩ := quotes_of_readRates hrates
      · rw [at?_singleton, hrate] at hnone
        cases hnone
      · rw [at?_singleton, hrate] at hmembers
        cases hmembers
        obtain ⟨text, q, hquote⟩ := hquotes _ (mem_of_find hbelow)
        exact ⟨_, _, Setting.spellsRate_of_anyQuote hdocument
          (Setting.quote_ok_iff_of_anyQuote.1 hquote).1⟩

end SaleSetup

/-- **Quantities of a configuration may be spelt in any way.**  Replacing some
of them by others that spell the same leaves the setup as it is.  Every
quantity of a configuration that is accepted is spelt in one of these ways; an
integer has the same value as its digits, a text the same with separators
between digits or blanks at the ends, a whole price or rate the same over one,
and a whole rate the same as an object of its two sides.  Rates that are
accepted have two sides, and so have prices. -/
theorem setup_any_spelling :
    (∀ config config' setup, Relation.ReflTransGen Respelled config config' →
      SaleSetup.ofConfig config = .ok setup → SaleSetup.ofConfig config' = .ok setup) ∧
      (∀ ok config setup path kind v, SaleSetup.ofConfig config = .ok setup →
        QuantityAt path kind → config.at? path = some v → v.IsDocument ok → v ≠ .null →
        ∃ n d, kind.Spells v n d) ∧
      (∀ kind : QuantityKind,
        (∀ n : Nat, n < Nat.pow 2 64 → kind.Same (.int n) (.str (toString n))) ∧
          ∀ s s' n d, kind.Spells (.str s) n d →
            Relation.ReflTransGen Text.Loosened s.toList s'.toList →
            kind.Same (.str s) (.str s')) ∧
      (∀ v n, v.SpellsAmount n →
        (∀ s, Text.Numeral s.toList n → QuantityKind.price.Same v (.str (s ++ "/1")) ∧
          QuantityKind.rate.Same v (.str s) ∧ QuantityKind.rate.Same v (.str (s ++ "/1"))) ∧
          ∀ members numerator denominator, (members.map Prod.fst).Nodup →
            find "numerator" members = some numerator → numerator.SpellsAmount n →
            find "denominator" members = some denominator → denominator.SpellsAmount 1 →
            QuantityKind.rate.Same v (.obj members)) ∧
      ∀ config setup, SaleSetup.ofConfig config = .ok setup →
        (∀ p ∈ setup.rates.entries, 0 < p.2.numerator.val ∧ 0 < p.2.denominator.val) ∧
          ∀ s ∈ setup.tiers, s.regularPrice.isValid = true ∧ s.discountPrice.isValid = true := by
  refine ⟨fun config config' setup hrespelled => (SaleSetup.ofConfig_respellings hrespelled _).1,
    fun ok config setup path kind v h hpath => SaleSetup.spells_of_ofConfig h hpath,
    fun kind => ⟨fun n => QuantityKind.same_int kind,
      fun s s' n d h hloose => ⟨n, d, h, h.loosened hloose⟩⟩,
    fun v n hv => ⟨fun s hs => ?_, fun members a b hnodup ha hn hb hd => ?_⟩,
    fun config setup h => ?_⟩
  · have hratio := QuantityKind.spellsRatio_over_one hs
    have hrate := QuantityKind.spells_of_amount hv .rate
    exact ⟨⟨n, 1, hv.ratio, hratio⟩,
      ⟨n, 1, hrate, QuantityKind.spells_of_amount (.str hs) .rate⟩, ⟨n, 1, hrate, .ratio hratio⟩⟩
  · exact ⟨n, 1, QuantityKind.spells_of_amount hv .rate, .sides hnodup ha hb hn hd⟩
  · obtain ⟨-, -, -, ⟨tiers, htiers⟩, hrates⟩ := SaleSetup.ofConfig_ok_iff.1 h
    obtain ⟨⟨-, hfit⟩, -⟩ := TierLedger.ofSpecs_ok_iff.1 htiers
    refine ⟨SaleSetup.positive_of_readRates hrates, fun s hs => ?_⟩
    have hsensible := hfit.sensible s hs
    exact ⟨Price.isValid_iff.2 hsensible.regular, Price.isValid_iff.2 hsensible.discount⟩

/-- A configuration with a limit, the price of a tier and a rate in any spelling. -/
def Sample.spelt (limit price rate : Json) : Json :=
  .obj [("rates", .obj [("USD", rate)]),
    ("sale", .obj [("accepted_currencies", .arr [.str "USD"]),
      ("end_time", .str "2026-04-01T00:00:00Z"), ("non_accredited_limit", limit),
      ("sale_id", .str "8a1d2c3b-4e5f-4a6b-8c7d-9e0f1a2b3c4d"),
      ("settlement_destination", .str "escrow:sim"),
      ("start_time", .str "2026-03-01T00:00:00Z"), ("treasury", .str "treasury")]),
    ("tiers", .arr [.obj [("capacity", .str "500"), ("price", price)]])]

/-- An integer as digits and then with a separator and a blank, a price over
one, and a rate by its sides. -/
theorem setup_any_spelling_four_steps :
    let config := Sample.spelt (.int 100) (.str "2") (.int 3)
    let config' := Sample.spelt (.str " 1_00") (.str "2/1")
      (.obj [("denominator", .int 1), ("numerator", .str "3")])
    ∃ setup, SaleSetup.ofConfig config = .ok setup ∧ SaleSetup.ofConfig config' = .ok setup ∧
      ∀ p ∈ setup.rates.entries, 0 < p.2.numerator.val ∧ 0 < p.2.denominator.val := by
  intro config config'
  have hdigits (n : Nat) (s : String) (h : toString n = s) : Text.Numeral s.toList n :=
    h ▸ Text.numeral_toString n
  have hsame := setup_any_spelling.2.2.1
  have hwhole := setup_any_spelling.2.2.2.1
  have hlimit : QuantityKind.amount.Same (.int 100) (.str "100") := (hsame _).1 100 (by decide)
  have hloose : Relation.ReflTransGen Text.Loosened "100".toList " 1_00".toList :=
    .tail (.single (.separated [] ['0'] (c := '1') (d := '0') (by decide) (by decide)))
      (.padded [' '] [] (List.forall_mem_singleton.2 (by decide)))
  have hseparated : QuantityKind.amount.Same (.str "100") (.str " 1_00") :=
    (hsame _).2 _ _ 100 1 ⟨.str (hdigits 100 _ rfl), rfl⟩ hloose
  have hprice : QuantityKind.price.Same (.str "2") (.str "2/1") :=
    ((hwhole _ 2 (.str (hdigits 2 "2" rfl))).1 "2" (hdigits 2 _ rfl)).1
  have hrate : QuantityKind.rate.Same (.int 3)
      (.obj [("denominator", .int 1), ("numerator", .str "3")]) :=
    (hwhole (.int 3) 3 (.int (by decide))).2 _ _ _ (by decide) rfl (.str (hdigits 3 _ rfl)) rfl
      (.int (by decide))
  have hrespelled : Relation.ReflTransGen Respelled config config' :=
    .tail (.tail (.tail (.single
      ⟨_, _, _, _, .sale (.head _), rfl, hlimit, rfl⟩)
      ⟨_, _, _, _, .sale (.head _), rfl, hseparated, rfl⟩)
      ⟨_, _, _, _, .tier 0 (.head _), rfl, hprice, rfl⟩)
      ⟨_, _, _, _, .rate "USD", rfl, hrate, rfl⟩
  have haccepted : (SaleSetup.ofConfig config).toOption.isSome = true := by decide +kernel
  cases hsetup : SaleSetup.ofConfig config with
  | error e => rw [hsetup] at haccepted; contradiction
  | ok setup =>
      exact ⟨setup, rfl, setup_any_spelling.1 config config' setup hrespelled hsetup,
        (setup_any_spelling.2.2.2.2 config setup hsetup).1⟩

end TokenSale
