import TokenSale.Proofs.PrefixCost

/-!
# TokenSale.Proofs.SplitOrder

Splitting an order never gains tokens.  Every rounding and every bound works
against the buyer once more in the second purchase: the worth of a payment is
rounded down, the slot where the first purchase stopped is charged for anew,
and a limit has less room.

* `Rate.toUnits_add_le` — payments made apart are not worth more;
* `units_le_available` — what two purchases consume may be spent by one;
* `split_order_le` — two purchases against one.
-/

namespace TokenSale

/-! ## payments -/

/-- Payments made apart are not worth more than together. -/
theorem Rate.toUnits_add_le {r : Rate} {a b total : Funds} {u v w : Units}
    (htotal : total.val = a.val + b.val) (hu : r.toUnits a = some u) (hv : r.toUnits b = some v)
    (hw : r.toUnits total = some w) : u.val + v.val ≤ w.val := by
  rw [toUnits_ok hu, toUnits_ok hv, toUnits_ok hw, htotal, Nat.add_mul]
  exact Nat.div_add_div_le_add_div

/-! ## two purchases -/

section Split

variable {policy : AllocationPolicy} {input : AllocationInput} {tiers tiers' : TierLedger}
  {caps caps' : CapTracker} {a b total : Funds} {first second whole : AllocationPlan}

/-- What two purchases consume may be spent by one of the whole amount. -/
theorem units_le_available (ht : tiers.Built) (ht' : tiers'.Built) (htotal : a.add? b = some total)
    (hfirst : execute policy { input with amount := a } tiers caps = .ok (first, tiers', caps'))
    (hsecond : allocate policy { input with amount := b } tiers' caps' = .ok second)
    (hwhole : allocate policy { input with amount := total } tiers caps = .ok whole) :
    first.result.unitsConsumed.val + second.result.unitsConsumed.val ≤
      whole.availableUnits.val := by
  obtain ⟨hplan, hcommit⟩ := execute_ok hfirst
  obtain ⟨⟨hinvestor, -, -⟩, hrequested₁, havailable₁, -⟩ := allocate_ok hplan
  obtain ⟨-, hrequested₂, havailable₂, -⟩ := allocate_ok hsecond
  obtain ⟨-, hrequested, havailable, -⟩ := allocate_ok hwhole
  have hspend := (commitFills_of_commitPlan hcommit).2
  rw [hinvestor] at hspend
  obtain ⟨hlimit, hinvested⟩ := CapTracker.limits_of_commitSpend hspend
  have hworth := Rate.toUnits_add_le (Quantity.add?_eq_some_iff.1 htotal) hrequested₁ hrequested₂
    hrequested
  have hspent₁ := (unitsConsumed_of_allocate ht hplan).trans_le (allocate_isGreatest ht hplan).1.2
  have hspent₂ := (unitsConsumed_of_allocate ht' hsecond).trans_le
    (allocate_isGreatest ht' hsecond).1.2
  replace havailable₁ := spendable_ok havailable₁
  replace havailable₂ := spendable_ok havailable₂
  replace havailable := spendable_ok havailable
  cases hclass : input.investorClass with
  | accredited =>
      rw [havailable₁.1 hclass] at hspent₁
      rw [havailable₂.1 hclass] at hspent₂
      rw [havailable.1 hclass]
      omega
  | nonAccredited =>
      have hroom₁ := (havailable₁.2 hclass).2
      obtain ⟨hless, hroom₂⟩ := havailable₂.2 hclass
      have hroom := (havailable.2 hclass).2
      simp only [hlimit, hinvested] at hless hroom₁ hroom₂ hroom
      omega

/-- **Splitting an order never gains tokens**: what a payment buys followed by
another is at most what their sum buys at once. -/
theorem split_order_le (ht : tiers.Built) (htotal : a.add? b = some total)
    (hfirst : execute policy { input with amount := a } tiers caps = .ok (first, tiers', caps'))
    (hsecond : allocate policy { input with amount := b } tiers' caps' = .ok second)
    (hwhole : allocate policy { input with amount := total } tiers caps = .ok whole) :
    first.result.tokensAllocated.val + second.result.tokensAllocated.val ≤
      whole.result.tokensAllocated.val := by
  obtain ⟨hplan, hcommit⟩ := execute_ok hfirst
  have ht' : tiers'.Built := ht.commitFills (commitFills_of_commitPlan hcommit).1
  have hslots := slots_of_execute ht hfirst
  obtain ⟨⟨hfit₁, -⟩, -⟩ := allocate_isGreatest ht hplan
  obtain ⟨⟨hfit₂, -⟩, -⟩ := allocate_isGreatest ht' hsecond
  have hspent₁ := unitsConsumed_of_allocate ht hplan
  have hspent₂ := unitsConsumed_of_allocate ht' hsecond
  have havailable := units_le_available ht ht' htotal hfirst hsecond hwhole
  -- the second purchase goes on behind the tokens of the first, so together
  -- they are a prefix of what was on offer at the beginning
  rw [hslots] at hfit₂ hspent₂
  rw [tokensOn_dropTokens] at hfit₂
  refine (allocate_isGreatest ht hwhole).2 ⟨?_, ?_⟩
  · exact (Nat.add_le_add_left hfit₂ _).trans (Nat.add_sub_of_le hfit₁).le
  · calc prefixCost _ (first.result.tokensAllocated.val + second.result.tokensAllocated.val)
        ≤ first.result.unitsConsumed.val + second.result.unitsConsumed.val := by
          rw [hspent₁, hspent₂]
          exact prefixCost_add_le (ht.isOpen _) _ _
      _ ≤ whole.availableUnits.val := havailable

end Split

/-- Nineteen units buy eleven tokens at once, but five and five as seven and
twelve: what is left over of the two payments would have bought one more. -/
theorem split_order_le_seven_twelve : ∃ first second whole tiers' caps',
    execute ⟨.one, some (.ofText "USD")⟩ { Sample.payment with amount := ⟨7, by decide⟩ }
      Sample.tiers (.withLimit .zero) = .ok (first, tiers', caps') ∧
    allocate ⟨.one, some (.ofText "USD")⟩ { Sample.payment with amount := ⟨12, by decide⟩ }
      tiers' caps' = .ok second ∧
    allocate ⟨.one, some (.ofText "USD")⟩ { Sample.payment with amount := ⟨19, by decide⟩ }
      Sample.tiers (.withLimit .zero) = .ok whole ∧
    (first.result.tokensAllocated.val, second.result.tokensAllocated.val,
      whole.result.tokensAllocated.val) = (5, 5, 11) ∧
    first.result.tokensAllocated.val + second.result.tokensAllocated.val ≤
      whole.result.tokensAllocated.val := by
  have hbuilt : Sample.tiers.Built :=
    .ofSpecs (show TierLedger.ofSpecs Sample.tiers.specs = .ok Sample.tiers by rfl)
  have htotal : Quantity.add? (s := .funds) ⟨7, by decide⟩ ⟨12, by decide⟩ =
      some ⟨19, by decide⟩ := rfl
  obtain ⟨x, second, whole, hfirst, hsecond, hwhole, htokens⟩ : ∃ x second whole,
      execute ⟨.one, some (.ofText "USD")⟩ { Sample.payment with amount := ⟨7, by decide⟩ }
        Sample.tiers (.withLimit .zero) = .ok x ∧
      allocate ⟨.one, some (.ofText "USD")⟩ { Sample.payment with amount := ⟨12, by decide⟩ }
        x.2.1 x.2.2 = .ok second ∧
      allocate ⟨.one, some (.ofText "USD")⟩ { Sample.payment with amount := ⟨19, by decide⟩ }
        Sample.tiers (.withLimit .zero) = .ok whole ∧
      (x.1.result.tokensAllocated.val, second.result.tokensAllocated.val,
        whole.result.tokensAllocated.val) = (5, 5, 11) :=
    ⟨_, _, _, rfl, rfl, rfl, rfl⟩
  exact ⟨x.1, second, whole, x.2.1, x.2.2, hfirst, hsecond, hwhole, htokens,
    split_order_le hbuilt htotal hfirst hsecond hwhole⟩

end TokenSale
