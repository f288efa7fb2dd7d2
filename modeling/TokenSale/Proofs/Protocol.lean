import TokenSale.Proofs.Book
import TokenSale.Proofs.Interleaving
import TokenSale.Proofs.Progress

/-!
# TokenSale.Proofs.Protocol

The protocol that every operation keeps to.  A caller holds nothing, or work
that it has begun under the lock and not yet ended: an event to announce, an
attempt at a settlement, the closing of the sale.  What it may do next under
the lock, and which call it may make, depends on what it holds and on nothing
else.

* `LockStep`, `Answered` — everything a caller may do, with what it holds then;
* `Program.Follows` — a program keeps to the protocol;
* `Operation.follows` — so does every operation;
* `Run.tracked` — every run is one of books and holdings (`Tracked.Run`);
* `Run.invariant` — so invariants are proved step by step of those.
-/

namespace TokenSale

/-! ## the protocol -/

/-- The purchase on whose account an effect is made. -/
def Effect.purchaseId? : Effect → Option Uuid
  | issue id .. | forward id .. | refund id .. => some id
  | emit (.tokenPurchase id ..) | emit (.fundsReceived id ..) | emit (.refunded id ..) => some id
  | emit _ => none

/-- What a caller has begun and not yet ended. -/
inductive Holding where
  | nothing
  | announcing (event : SaleEvent)
  /-- An attempt at the settlement of a purchase, with what it has reached and
  the failure that has ended it. -/
  | settling (id : Uuid) (record : PurchaseRecord) (destination : String)
      (progress : SettlementProgress) (failure : Option CollaboratorError)
  | finalizing (closing : Book.Closing) (issued : Bool)
  /-- The sale is finalized; its caller has not yet been told. -/
  | finalized (closing : Book.Closing)

/-- What a caller may do under the lock: the book before, what it held, the
book after, and what it holds then. -/
inductive LockStep (o : Operation) (b : Book) (now : Instant) : Holding → Book → Holding → Prop
  | keep : LockStep o b now .nothing b .nothing
  | change {c : Book.Change} {version : Nat} {b' : Book} (ho : o.change? = some (.ok c))
      (h : b.change c now = .ok (version, b')) :
    LockStep o b now .nothing b' (.announcing (.configChanged c.field version))
  | setPaused {paused : Bool} {version : Nat} {b' : Book}
      (h : b.setPaused paused = .ok (some version, b')) :
    LockStep o b now .nothing b'
      (.announcing (if paused then .paused version else .unpaused version))
  | commit {r : PurchaseRequest} {checked : Book.Checked} {record : PurchaseRecord} {b' : Book}
      (ho : o = .purchase r) (h : b.commitPurchase r checked now = .ok (record, b')) :
    LockStep o b now .nothing b' .nothing
  | beginSettlement {id : Uuid} {record : PurchaseRecord} {destination : String} {b' : Book}
      (ho : o.settles = true) (h : b.beginSettlement id = .ok (.started record destination, b')) :
    LockStep o b now .nothing b' (.settling id record destination record.settlement none)
  | endSettled {id : Uuid} {record : PurchaseRecord} {destination : String}
      {p : SettlementProgress} (h : record.outstandingAt p = []) :
    LockStep o b now (.settling id record destination p none)
      (b.endSettlement id p.close none) .nothing
  | endFailed {id : Uuid} {record : PurchaseRecord} {destination : String}
      {p : SettlementProgress} {e : CollaboratorError} :
    LockStep o b now (.settling id record destination p (some e))
      (b.endSettlement id p (some e)) .nothing
  | beginFinalize {c : Book.Closing} {b' : Book} (ho : o = .finalize)
      (h : b.beginFinalize now = .ok (c, b')) :
    LockStep o b now .nothing b' (.finalizing c c.unsold.isZero)
  | finalize {c : Book.Closing} :
    LockStep o b now (.finalizing c true) (b.endFinalize true) (.finalized c)
  | giveUpFinalize {c : Book.Closing} :
    LockStep o b now (.finalizing c false) (b.endFinalize false) .nothing

/-- Which calls a caller may make, and what it holds once they are answered. -/
inductive Answered (o : Operation) : Holding → (c : Call) → c.Answer → Holding → Prop
  | compliance {investor : InvestorId} {a : Except CollaboratorError Verdict} :
    Answered o .nothing (.compliance investor) a .nothing
  | rate {currency : Currency} {a : Except RateError Rate} :
    Answered o .nothing (.rate currency) a .nothing
  | announced {event : SaleEvent} {a : Except CollaboratorError Unit}
      (h : (Effect.emit event).purchaseId? = none) :
    Answered o (.announcing event) (.effect (.emit event)) a .nothing
  | landed {id : Uuid} {record : PurchaseRecord} {destination : String} {p : SettlementProgress}
      {step : SettlementStep} {rest : List SettlementStep} (ho : o.settles = true)
      (h : record.outstandingAt p = step :: rest) :
    Answered o (.settling id record destination p none)
      (.effect (record.effectOf destination step)) (.ok ())
      (.settling id record destination (p.mark step) none)
  | refused {id : Uuid} {record : PurchaseRecord} {destination : String} {p : SettlementProgress}
      {step : SettlementStep} {rest : List SettlementStep} {e : CollaboratorError}
      (ho : o.settles = true) (h : record.outstandingAt p = step :: rest) :
    Answered o (.settling id record destination p none)
      (.effect (record.effectOf destination step)) (.error e)
      (.settling id record destination p (some e))
  | issued {c : Book.Closing} (ho : o = .finalize) :
    Answered o (.finalizing c false)
      (.effect (.issue (Sale.finalizeId c.saleId) c.treasury c.unsold)) (.ok ())
      (.finalizing c true)
  | notIssued {c : Book.Closing} {e : CollaboratorError} (ho : o = .finalize) :
    Answered o (.finalizing c false)
      (.effect (.issue (Sale.finalizeId c.saleId) c.treasury c.unsold)) (.error e)
      (.finalizing c false)
  | finalAnnounced {c : Book.Closing} {a : Except CollaboratorError Unit} (ho : o = .finalize) :
    Answered o (.finalized c) (.effect (.emit (.finalized c.treasury c.unsold c.sold))) a
      (.finalized c)

/-- What a caller may still hold when its operation ends. -/
def Operation.Ends : (o : Operation) → Holding → o.Result → Prop
  | .finalize, h, .ok unsold => ∃ c : Book.Closing, h = .finalized c ∧ c.unsold = unsold
  | _, h, _ => h = .nothing

/-- Whatever the book, the clock and the answers are, the program keeps to the
protocol from a holding on, and ends with a holding and a result as told. -/
def Program.Follows {α : Type} (o : Operation) (ends : Holding → α → Prop) :
    Holding → Program α → Prop
  | h, .done a => ends h a
  | h, .locked f k => ∀ b now, ∃ h', LockStep o b now h (f b now) h' ∧
      Program.Follows o ends h' (k b now)
  | h, .call c k => ∀ a, ∃ h', Answered o h c a h' ∧ Program.Follows o ends h' (k a)

/-! ## the parts of programs -/

namespace Program

variable {α β : Type} {o : Operation} {ends : Holding → α → Prop}

theorem bind_pure (p : Program α) : p >>= pure = p := by
  induction p with
  | done a => rfl
  | locked f k ih => exact congrArg (locked f) (funext fun b => funext fun now => ih b now)
  | call c k ih => exact congrArg (call c) (funext ih)

/-- A program that follows the protocol may be followed by another one that does. -/
theorem Follows.bind {p : Program β} {k : β → Program α} {h : Holding}
    (hp : p.Follows o (fun h b => (k b).Follows o ends h) h) : (p >>= k).Follows o ends h := by
  induction p generalizing h with
  | done b => exact hp
  | locked f next ih =>
      intro b now
      obtain ⟨h', hstep, hrest⟩ := hp b now
      exact ⟨h', hstep, ih b now hrest⟩
  | call c next ih =>
      intro a
      obtain ⟨h', hans, hrest⟩ := hp a
      exact ⟨h', hans, ih a hrest⟩

/-- Looking is allowed with nothing in hand. -/
theorem follows_look {f : Book → Instant → β} {k : β → Program α}
    (hk : ∀ x, (k x).Follows o ends .nothing) : (look f >>= k).Follows o ends .nothing :=
  fun b now => ⟨.nothing, .keep, hk (f b now)⟩

/-- A step that may be refused: a refusal leaves the book as it was. -/
theorem follows_attempt {step : Book → Instant → Except SaleError (β × Book)}
    {k : Except SaleError β → Program α}
    (hok : ∀ b now x b', step b now = .ok (x, b') →
      ∃ h', LockStep o b now .nothing b' h' ∧ (k (.ok x)).Follows o ends h')
    (herr : ∀ e, (k (.error e)).Follows o ends .nothing) :
    (attempt step >>= k).Follows o ends .nothing := by
  intro b now
  cases hs : step b now with
  | ok r =>
      obtain ⟨x, b'⟩ := r
      obtain ⟨h', hstep, hrest⟩ := hok b now x b' hs
      refine ⟨h', by simpa only [hs] using hstep, ?_⟩
      simp only [hs]
      exact hrest
  | error e =>
      refine ⟨.nothing, by simpa only [hs] using LockStep.keep, ?_⟩
      simp only [hs]
      exact herr e

/-- An event is told by whoever has it in hand. -/
theorem follows_announce {event : SaleEvent} {k : Unit → Program α}
    (he : (Effect.emit event).purchaseId? = none) (hk : (k ()).Follows o ends .nothing) :
    (Sale.announce event >>= k).Follows o ends (.announcing event) :=
  fun _ => ⟨.nothing, .announced he, hk⟩

end Program

/-! ## the operations -/

/-- Taking steps only asks for effects: what holds of an end, and of a request
if it holds of all that may follow, holds of it. -/
theorem runSteps_induct {P : Program (SettlementProgress × Option CollaboratorError) → Prop}
    (hdone : ∀ reached, P (.done reached))
    (hcall : ∀ e k, (∀ a, P (k a)) → P (.call (.effect e) k)) (r : PurchaseRecord)
    (destination : String) (steps : List SettlementStep) (p : SettlementProgress) :
    P (runSteps r destination steps p) := by
  induction steps generalizing p with
  | nil => exact hdone _
  | cons s rest ih =>
      refine hcall _ _ fun a => ?_
      cases a with
      | ok u => exact ih _
      | error e => exact hdone _

/-- The attempt at a settlement goes through the outstanding steps in order. -/
theorem runSteps_follows {α : Type} {o : Operation} {ends : Holding → α → Prop} {id : Uuid}
    {r : PurchaseRecord} {destination : String}
    {k : SettlementProgress × Option CollaboratorError → Program α} (ho : o.settles = true)
    (hsettled : ∀ p, r.outstandingAt p = [] →
      (k (p.close, none)).Follows o ends (.settling id r destination p none))
    (hfailed : ∀ p e, (k (p, some e)).Follows o ends (.settling id r destination p (some e)))
    (steps : List SettlementStep) (p : SettlementProgress) (h : r.outstandingAt p = steps) :
    (runSteps r destination steps p >>= k).Follows o ends (.settling id r destination p none) := by
  induction steps generalizing p with
  | nil => exact hsettled p h
  | cons s rest ih =>
      intro a
      cases a with
      | ok u => exact ⟨_, .landed ho h, ih _ (PurchaseRecord.outstandingAt_mark h)⟩
      | error e => exact ⟨_, .refused ho h, hfailed p e⟩

/-- A settlement follows the protocol whatever comes after it. -/
theorem settle_follows {α : Type} {o : Operation} {ends : Holding → α → Prop}
    (ho : o.settles = true) (id : Uuid) {k : Except SaleError SettlementStatus → Program α}
    (hk : ∀ x, (k x).Follows o ends .nothing) : (settle id >>= k).Follows o ends .nothing := by
  refine Program.Follows.bind (Program.follows_attempt ?_ fun e => hk _)
  intro b now attempt b' hb
  cases attempt with
  | idle status =>
      have hkeep : b' = b := Book.eq_of_beginSettlement_idle hb
      exact ⟨.nothing, hkeep ▸ .keep, hk _⟩
  | started record destination =>
      refine ⟨_, .beginSettlement ho hb, ?_⟩
      refine runSteps_follows ho ?_ ?_ _ _ rfl
      · intro p hp b now
        exact ⟨.nothing, .endSettled hp, hk _⟩
      · intro p e b now
        exact ⟨.nothing, .endFailed, hk _⟩

theorem check_follows {α : Type} {o : Operation} {ends : Holding → α → Prop}
    (r : PurchaseRequest) {k : Except SaleError Book.Checked → Program α}
    (hk : ∀ x, (k x).Follows o ends .nothing) : (Sale.check r >>= k).Follows o ends .nothing := by
  unfold Sale.check
  split
  · exact hk _
  refine Program.Follows.bind (Program.follows_look fun precheck => ?_)
  cases precheck with
  | error e => exact hk _
  | ok u =>
      intro verdict
      refine ⟨.nothing, .compliance, ?_⟩
      cases verdict with
      | error e => exact hk _
      | ok verdict =>
          change Program.Follows o _ _ (if _ then _ else _)
          split
          · exact hk _
          · intro rate
            refine ⟨.nothing, .rate, ?_⟩
            cases rate with
            | error e => exact hk _
            | ok rate => exact hk _

/-- A checked value that is then changed comes from a value that passed the check. -/
theorem ok_of_mapError_map {ε ε' α β : Type} {x : Except ε α} {f : ε → ε'} {g : α → β} {b : β}
    (h : (x.mapError f).map g = .ok b) : ∃ a, x = .ok a ∧ g a = b := by
  cases x with
  | error e => contradiction
  | ok a => cases h; exact ⟨a, rfl, rfl⟩

theorem error_of_mapError_map {ε ε' α β : Type} {x : Except ε α} {f : ε → ε'} {g : α → β}
    {e' : ε'} (h : (x.mapError f).map g = .error e') : ∃ e, x = .error e ∧ f e = e' := by
  cases x with
  | error e => cases h; exact ⟨e, rfl, rfl⟩
  | ok a => contradiction

namespace Operation

/-- A configuration operation whose arguments are wrong by themselves stops at once. -/
theorem program_of_fault {o : Operation} {fault : SetupFault}
    (h : o.change? = some (.error fault)) :
    o.program = .done (.error (.invalidConfig fault)) := by
  cases o with
  | configure config specs =>
      simp only [change?] at h
      simp only [program, Sale.configure]
      cases hc : config.fault? with
      | some fault =>
          rw [hc] at h
          cases h
          rfl
      | none =>
          rw [hc] at h
          obtain ⟨e, hs, rfl⟩ := error_of_mapError_map (Option.some.inj h)
          rw [hs]
          rfl
  | setTiers specs =>
      obtain ⟨e, hs, rfl⟩ := error_of_mapError_map (Option.some.inj h)
      simp only [program, Sale.setTiers]
      rw [hs]
      rfl
  | _ => simp [change?] at h

/-- Tries a change and announces it. -/
def changing (o : Operation) (c : Book.Change) (told : o.Output) : Program o.Result := do
  match ← Program.attempt fun b now => b.change c now with
  | .error e => pure (.error e)
  | .ok version =>
    Sale.announce (.configChanged c.field version)
    pure (.ok told)

/-- Every other configuration operation tries its change and announces it. -/
theorem program_of_change {o : Operation} {c : Book.Change} (h : o.change? = some (.ok c)) :
    ∃ told : o.Output, o.program = o.changing c told := by
  cases o with
  | configure config specs =>
      simp only [change?] at h
      simp only [program, Sale.configure]
      cases hc : config.fault? with
      | some fault => simp [hc] at h
      | none =>
          rw [hc] at h
          obtain ⟨tiers, hs, rfl⟩ := ok_of_mapError_map (Option.some.inj h)
          rw [hs]
          exact ⟨(), rfl⟩
  | setTiers specs =>
      obtain ⟨tiers, hs, rfl⟩ := ok_of_mapError_map (Option.some.inj h)
      simp only [program, Sale.setTiers]
      rw [hs]
      exact ⟨(), rfl⟩
  | setLimits | setAcceptedCurrencies | setTimes | setLimitOverride
  | setAllowBeneficialInvestments =>
      simp only [change?, Option.some.injEq, Except.ok.injEq] at h
      subst h
      exact ⟨(), rfl⟩
  | setPaused | purchase | preview | retrySettlement | finalize => simp [change?] at h

/-- A configuration operation is one of the two. -/
theorem program_cases {o : Operation} (h : o.change?.isSome) :
    (∃ fault, o.change? = some (.error fault) ∧
        o.program = .done (.error (.invalidConfig fault))) ∨
      ∃ c told, o.change? = some (.ok c) ∧ o.program = o.changing c told := by
  obtain ⟨c, hc⟩ := Option.isSome_iff_exists.1 h
  cases c with
  | error fault => exact .inl ⟨fault, hc, program_of_fault hc⟩
  | ok c =>
      obtain ⟨told, hp⟩ := program_of_change hc
      exact .inr ⟨c, told, hc, hp⟩

/-- Every change of the parameters follows the protocol. -/
theorem follows_of_change? {o : Operation} (h : o.change?.isSome) :
    o.program.Follows o o.Ends .nothing := by
  have hends (res : o.Result) : o.Ends .nothing res := by cases o <;> simp_all [change?, Ends]
  obtain ⟨fault, -, hp⟩ | ⟨c, told, hc, hp⟩ := program_cases h
  · rw [hp]
    exact hends _
  · rw [hp]
    refine Program.follows_attempt ?_ fun e => hends _
    intro b now version b' hb
    exact ⟨_, .change hc hb, Program.follows_announce rfl (hends _)⟩

/-- **Finalizing follows the protocol.** -/
theorem finalize_follows : Sale.finalize.Follows .finalize finalize.Ends .nothing := by
  refine Program.follows_attempt ?_ fun e => rfl
  intro b now c b' hb
  refine ⟨_, .beginFinalize rfl hb, ?_⟩
  have hfinish : Program.Follows .finalize finalize.Ends (.finalizing c true)
      (do
        Program.atomically fun b _ => ((), b.endFinalize true)
        Sale.announce (.finalized c.treasury c.unsold c.sold)
        pure (.ok c.unsold)) :=
    fun b now => ⟨_, .finalize, fun a => ⟨_, .finalAnnounced rfl, c, rfl, rfl⟩⟩
  by_cases hz : c.unsold.isZero = true
  · simp only [hz, if_true]
    exact hfinish
  · simp only [Bool.not_eq_true] at hz
    simp only [hz]
    intro a
    cases a with
    | ok u => exact ⟨_, .issued rfl, hfinish⟩
    | error e => exact ⟨_, .notIssued rfl, fun b now => ⟨_, .giveUpFinalize, rfl⟩⟩

/-- **Every operation keeps to the protocol.** -/
theorem follows (o : Operation) : o.program.Follows o o.Ends .nothing := by
  cases o with
  | setPaused paused =>
      refine Program.follows_attempt ?_ fun e => rfl
      intro b now version b' hb
      obtain ⟨rfl, hb'⟩ | ⟨rfl, -⟩ := Book.setPaused_ok hb
      · exact ⟨.nothing, hb' ▸ .keep, rfl⟩
      · refine ⟨_, .setPaused hb, Program.follows_announce ?_ rfl⟩
        cases paused <;> rfl
  | purchase r =>
      refine check_follows r fun checked => ?_
      cases checked with
      | error e => rfl
      | ok checked =>
          refine Program.follows_attempt ?_ fun e => rfl
          intro b now record b' hb
          refine ⟨.nothing, .commit rfl hb, settle_follows rfl _ fun status => ?_⟩
          cases status <;> rfl
  | preview r =>
      refine check_follows r fun checked => ?_
      cases checked with
      | error e => rfl
      | ok checked => exact fun b now => ⟨.nothing, .keep, rfl⟩
  | retrySettlement id =>
      have h : (settle id >>= pure).Follows (.retrySettlement id) (Ends (.retrySettlement id))
          .nothing := settle_follows rfl id fun _ => rfl
      rwa [Program.bind_pure] at h
  | finalize => exact finalize_follows
  | configure config specs =>
      refine follows_of_change? ?_
      simp only [change?]
      split <;> rfl
  | _ => exact follows_of_change? rfl

end Operation

/-! ## runs of books and holdings -/

/-- A book at a time, with what every caller holds. -/
structure Tracked where
  book : Book
  now : Instant
  holding : Nat → Holding

namespace Tracked

/-- The same with what a caller holds replaced. -/
def withHolding (g : Tracked) (i : Nat) (h : Holding) : Tracked :=
  { g with holding := Function.update g.holding i h }

@[simp] theorem withHolding_self (g : Tracked) (i : Nat) (h : Holding) :
    (g.withHolding i h).holding i = h := by
  simp [withHolding]

/-- What others have in hand stays there. -/
theorem withHolding_ne (g : Tracked) {i j : Nat} (hj : j ≠ i) (h : Holding) :
    (g.withHolding i h).holding j = g.holding j := by
  simp [withHolding, hj]

/-- What holds of the other callers' holdings and of the new one holds of all. -/
theorem withHolding_all {P : Holding → Prop} {g : Tracked} {i : Nat} {h : Holding}
    (hothers : ∀ j, j ≠ i → P (g.holding j)) (h' : P h) (j : Nat) :
    P ((g.withHolding i h).holding j) := by
  by_cases hj : j = i
  · subst hj
    rwa [withHolding_self]
  · rw [withHolding_ne g hj]
    exact hothers j hj

/-- What holds of the other callers' holdings still does. -/
theorem withHolding_others {P : Holding → Prop} {g : Tracked} {i : Nat} {h : Holding}
    (hothers : ∀ j, j ≠ i → P (g.holding j)) (j : Nat) (hj : j ≠ i) :
    P ((g.withHolding i h).holding j) := by
  rw [withHolding_ne g hj]
  exact hothers j hj

/-- A holding is replaced by one of the same kind, the others stay. -/
theorem withHolding_same {P : Holding → Prop} {g : Tracked} {i : Nat} {h : Holding}
    (hi : P (g.holding i)) (h' : P h) (j : Nat) :
    (g.withHolding i h).holding j = g.holding j ∨
      P (g.holding j) ∧ P ((g.withHolding i h).holding j) := by
  by_cases hj : j = i
  · subst hj
    exact .inr ⟨hi, by rwa [withHolding_self]⟩
  · exact .inl (withHolding_ne g hj h)

/-- One occurrence as the protocol allows it. -/
inductive Step (clock : Instant → Instant → Prop) : Tracked → Event → Tracked → Prop
  | tick {g : Tracked} {now : Instant} (h : clock g.now now) :
    Step clock g (.tick now) { g with now }
  | begin {g : Tracked} {i : Nat} (o : Operation) (h : g.holding i = .nothing) :
    Step clock g (.begin i o) g
  | lock {g : Tracked} {i : Nat} {o : Operation} {b' : Book} {h' : Holding}
      (h : LockStep o g.book g.now (g.holding i) b' h') :
    Step clock g (.lock i) { g.withHolding i h' with book := b' }
  | answer {g : Tracked} {i : Nat} {o : Operation} {c : Call} {a : c.Answer} {h' : Holding}
      (h : Answered o (g.holding i) c a h') :
    Step clock g (.answer i o c a) (g.withHolding i h')
  | finish {g : Tracked} {i : Nat} {o : Operation} {result : o.Result}
      (h : o.Ends (g.holding i) result) :
    Step clock g (.finish i o result) (g.withHolding i .nothing)

/-- What happened between two moments as the protocol allows it. -/
inductive Run (clock : Instant → Instant → Prop) (g : Tracked) : List Event → Tracked → Prop
  | refl : Run clock g [] g
  | step {es : List Event} {g' g'' : Tracked} {e : Event} (h : Run clock g es g')
    (hs : Step clock g' e g'') : Run clock g (es ++ [e]) g''

/-- A sale without parameters and without callers. -/
def start (now : Instant) : Tracked := ⟨.blank, now, fun _ => .nothing⟩

/-- What the callers hold accounts for what is left of their operations. -/
def Tracks (g : Tracked) (s : System) : Prop :=
  g.book = s.book ∧ g.now = s.now ∧ ∀ i,
    match s.sessions i with
    | none => g.holding i = .nothing
    | some x => x.rest.Follows x.operation x.operation.Ends (g.holding i)

theorem tracks_start (now : Instant) : (start now).Tracks (.start now) :=
  ⟨rfl, rfl, fun _ => rfl⟩

/-- The other callers are not concerned when one of them takes a step. -/
theorem Tracks.update {g : Tracked} {s : System} (hg : g.Tracks s) {i : Nat} {h : Holding}
    {x : Option Session} {b : Book}
    (hx : match x with
      | none => h = .nothing
      | some x => x.rest.Follows x.operation x.operation.Ends h) :
    Tracks { g.withHolding i h with book := b } { s.withSession i x with book := b } := by
  refine ⟨rfl, hg.2.1, fun j => ?_⟩
  by_cases hj : j = i
  · subst hj
    simpa [withHolding, System.withSession] using hx
  · simpa [withHolding, System.withSession, hj] using hg.2.2 j

/-- Who is not calling has nothing in hand. -/
theorem Tracks.idle {g : Tracked} {s : System} (hg : g.Tracks s) {i : Nat}
    (h : s.sessions i = none) : g.holding i = .nothing := by
  have hi := hg.2.2 i
  rwa [h] at hi

/-- Who is calling has in hand what the rest of the program goes on from. -/
theorem Tracks.session {g : Tracked} {s : System} (hg : g.Tracks s) {i : Nat} {o : Operation}
    {p : Program o.Result} (h : s.sessions i = some ⟨o, p⟩) :
    p.Follows o o.Ends (g.holding i) := by
  have hi := hg.2.2 i
  rw [h] at hi
  exact hi

end Tracked

/-- **Every step of the system is a step of the tracked state.** -/
theorem Step.tracked {clock : Instant → Instant → Prop} {s s' : System} {e : Event}
    (hs : Step clock s e s') {g : Tracked} (hg : g.Tracks s) :
    ∃ g', Tracked.Step clock g e g' ∧ g'.Tracks s' := by
  obtain ⟨book, now, holding⟩ := g
  obtain ⟨_, _, sessions⟩ := s
  obtain ⟨rfl, rfl, hsessions⟩ := hg
  have hg : Tracked.Tracks ⟨book, now, holding⟩ ⟨book, now, sessions⟩ := ⟨rfl, rfl, hsessions⟩
  cases hs with
  | tick h => exact ⟨_, .tick h, rfl, rfl, hsessions⟩
  | @begin i o h =>
      have hi : holding i = .nothing := hg.idle h
      have hg' : Tracked.Tracks ⟨book, now, Function.update holding i .nothing⟩
          (System.withSession ⟨book, now, sessions⟩ i (some ⟨o, o.program⟩)) :=
        hg.update (b := book) o.follows
      rw [← hi, Function.update_eq_self] at hg'
      exact ⟨_, .begin o hi, hg'⟩
  | @lock i o f k h =>
      obtain ⟨h', hstep, hrest⟩ := hg.session h book now
      exact ⟨_, .lock hstep, hg.update (x := some ⟨o, k book now⟩) hrest⟩
  | @answer i o c k a h =>
      obtain ⟨h', hans, hrest⟩ := hg.session h a
      exact ⟨_, .answer hans, hg.update (x := some ⟨o, k a⟩) (b := book) hrest⟩
  | @finish i o result h =>
      exact ⟨_, .finish (hg.session h), hg.update (x := none) (b := book) rfl⟩

/-- **Every run keeps to the protocol.** -/
theorem Run.tracked {clock : Instant → Instant → Prop} {s s' : System} {es : List Event}
    (h : Run clock s es s') {g : Tracked} (hg : g.Tracks s) :
    ∃ g', Tracked.Run clock g es g' ∧ g'.Tracks s' := by
  induction h with
  | refl => exact ⟨g, .refl, hg⟩
  | step _ hs ih =>
      obtain ⟨g', hrun, hg'⟩ := ih
      obtain ⟨g'', hstep, hg''⟩ := hs.tracked hg'
      exact ⟨g'', hrun.step hstep, hg''⟩

/-- What holds at the start and is kept by every step holds after every run. -/
theorem Run.invariant {clock : Instant → Instant → Prop} {P : List Event → Tracked → Prop}
    {t : Instant} {es : List Event} {s : System} (hstart : P [] (.start t))
    (hstep : ∀ {es g e g'}, P es g → Tracked.Step clock g e g' → P (es ++ [e]) g')
    (h : Run clock (.start t) es s) : ∃ g, P es g ∧ g.Tracks s := by
  obtain ⟨g, hrun, hg⟩ := h.tracked (Tracked.tracks_start t)
  refine ⟨g, ?_, hg⟩
  clear h hg
  induction hrun with
  | refl => exact hstart
  | step _ hs ih => exact hstep ih hs

end TokenSale
