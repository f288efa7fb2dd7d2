import Mathlib.Data.List.Induction
import Mathlib.Logic.Function.Basic
import TokenSale.Sale.Operations

/-!
# TokenSale.Proofs.Interleaving

Everything that can happen to a sale.  Any number of callers run operations on
it; each one takes a step under the lock, has a call answered or ends, in any
order, and time passes in between.  Services answer as they like.

* `Operation` — the operations with their arguments;
* `Step`, `Run` — one occurrence, and all that happened from one moment to another;
* `Step.session_cases` — an operation under way takes a step, or somebody else does;
* `Run.append`, `Run.split` — runs put together and taken apart;
* `Program.alone` — what an operation does while nobody else is under way;
  `Run.alone` makes it one of the runs.
-/

namespace TokenSale

/-! ## operations -/

/-- An operation of a sale with its arguments. -/
inductive Operation where
  | configure (config : SaleConfig) (specs : List TierSpec)
  | setTiers (specs : List TierSpec)
  | setLimits (nonAccreditedLimit minimumInvestment : Units)
  | setAcceptedCurrencies (accepted : CurrencySet) (discountCurrency : Option Currency)
  | setTimes (startTime endTime : Instant)
  | setLimitOverride (investor : InvestorId) (limit : Units)
  | setAllowBeneficialInvestments (allow : Bool)
  | setPaused (paused : Bool)
  | purchase (request : PurchaseRequest)
  | preview (request : PurchaseRequest)
  | retrySettlement (id : Uuid)
  | finalize

namespace Operation

/-- What a successful operation tells its caller. -/
abbrev Output : Operation → Type
  | purchase _ => PurchaseReceipt
  | preview _ => AllocationPlan
  | retrySettlement _ => SettlementStatus
  | finalize => Tokens
  | _ => Unit

/-- What an operation ends with. -/
abbrev Result (o : Operation) : Type := Except SaleError o.Output

/-- The steps of an operation. -/
def program : (o : Operation) → Program o.Result
  | configure config specs => Sale.configure config specs
  | setTiers specs => Sale.setTiers specs
  | setLimits limit minimum => Sale.setLimits limit minimum
  | setAcceptedCurrencies accepted discount => Sale.setAcceptedCurrencies accepted discount
  | setTimes startTime endTime => Sale.setTimes startTime endTime
  | setLimitOverride investor limit => Sale.setLimitOverride investor limit
  | setAllowBeneficialInvestments allow => Sale.setAllowBeneficialInvestments allow
  | setPaused paused => Sale.setPaused paused
  | purchase request => Sale.purchase request
  | preview request => Sale.preview request
  | retrySettlement id => Sale.retrySettlement id
  | finalize => Sale.finalize

/-- The change that a configuration operation asks for, or what is wrong with
its arguments by themselves; nothing for the other operations. -/
def change? : Operation → Option (Except SetupFault Book.Change)
  | configure config specs =>
    match config.fault? with
    | some fault => some (.error (.parameters fault))
    | none => some (((TierLedger.ofSpecs specs).mapError .tiers).map (.configure config))
  | setTiers specs => some (((TierLedger.ofSpecs specs).mapError .tiers).map .tiers)
  | setLimits limit minimum => some (.ok (.limits limit minimum))
  | setAcceptedCurrencies accepted discount => some (.ok (.acceptedCurrencies accepted discount))
  | setTimes startTime endTime => some (.ok (.times startTime endTime))
  | setLimitOverride investor limit => some (.ok (.limitOverride investor limit))
  | setAllowBeneficialInvestments allow => some (.ok (.allowBeneficialInvestments allow))
  | _ => none

/-- Whether the operation settles a purchase. -/
def settles : Operation → Bool
  | purchase _ | retrySettlement _ => true
  | _ => false

end Operation

/-! ## runs -/

/-- An operation under way: what is left of it. -/
structure Session where
  operation : Operation
  rest : Program operation.Result

/-- A sale at a moment, with the operation that every caller is running. -/
structure System where
  book : Book
  now : Instant
  sessions : Nat → Option Session

namespace System

/-- A sale without parameters and without callers. -/
def start (now : Instant) : System := ⟨.blank, now, fun _ => none⟩

/-- A sale at a moment without callers. -/
def idle (book : Book) (now : Instant) : System := ⟨book, now, fun _ => none⟩

/-- Where the sale stands. -/
def state (s : System) : SaleState := s.book.state s.now

/-- No operation is under way. -/
def IsQuiet (s : System) : Prop := ∀ i, s.sessions i = none

/-- The same with what a caller is running replaced. -/
def withSession (s : System) (i : Nat) (x : Option Session) : System :=
  { s with sessions := Function.update s.sessions i x }

end System

/-- Something that happens: time passes, or a caller takes a step. -/
inductive Event where
  | tick (now : Instant)
  | begin (caller : Nat) (o : Operation)
  | lock (caller : Nat)
  | answer (caller : Nat) (o : Operation) (c : Call) (a : c.Answer)
  | finish (caller : Nat) (o : Operation) (result : o.Result)

/-- Whether a caller's operation ends here. -/
def Event.isFinishOf (i : Nat) : Event → Bool
  | finish j _ _ => i == j
  | _ => false

/-- The caller that takes a step. -/
def Event.caller? : Event → Option Nat
  | tick _ => none
  | begin i _ | lock i | answer i .. | finish i .. => some i

/-- One occurrence.  The clock goes from one reading to another only as `clock` allows. -/
inductive Step (clock : Instant → Instant → Prop) : System → Event → System → Prop
  | tick {s : System} {now : Instant} (h : clock s.now now) :
    Step clock s (.tick now) { s with now }
  | begin {s : System} {i : Nat} (o : Operation) (h : s.sessions i = none) :
    Step clock s (.begin i o) (s.withSession i (some ⟨o, o.program⟩))
  | lock {s : System} {i : Nat} {o : Operation} {f : Book → Instant → Book}
    {k : Book → Instant → Program o.Result} (h : s.sessions i = some ⟨o, .locked f k⟩) :
    Step clock s (.lock i)
      { s.withSession i (some ⟨o, k s.book s.now⟩) with book := f s.book s.now }
  | answer {s : System} {i : Nat} {o : Operation} {c : Call} {k : c.Answer → Program o.Result}
    (a : c.Answer) (h : s.sessions i = some ⟨o, .call c k⟩) :
    Step clock s (.answer i o c a) (s.withSession i (some ⟨o, k a⟩))
  | finish {s : System} {i : Nat} {o : Operation} {result : o.Result}
    (h : s.sessions i = some ⟨o, .done result⟩) :
    Step clock s (.finish i o result) (s.withSession i none)

/-- What happens to an operation under way, until it ends: somebody else takes
a step, or it takes its own. -/
theorem Step.session_cases {clock : Instant → Instant → Prop} {s s' : System} {e : Event}
    (hs : Step clock s e s') {i : Nat} {o : Operation} {p : Program o.Result}
    (hi : s.sessions i = some ⟨o, p⟩) (he : e.isFinishOf i = false) :
    (e.caller? ≠ some i ∧ s'.sessions i = some ⟨o, p⟩) ∨
      (∃ f k, e = .lock i ∧ p = .locked f k ∧ s'.book = f s.book s.now ∧
        s'.sessions i = some ⟨o, k s.book s.now⟩) ∨
      ∃ c k a, e = .answer i o c a ∧ p = .call c k ∧ s'.book = s.book ∧
        s'.sessions i = some ⟨o, k a⟩ := by
  have hother {j : Nat} (hj : j ≠ i) (x : Option Session) :
      (s.withSession j x).sessions i = some ⟨o, p⟩ := by
    simp [System.withSession, Ne.symm hj, hi]
  have hown (x : Session) : (s.withSession i (some x)).sessions i = some x := by
    simp [System.withSession]
  cases hs with
  | tick hle => exact .inl ⟨by simp [Event.caller?], hi⟩
  | @begin j o' hj =>
      have hne : j ≠ i := by
        rintro rfl
        simp [hi] at hj
      exact .inl ⟨by simpa [Event.caller?] using hne, hother hne _⟩
  | @lock j o' f k hj =>
      by_cases hne : j = i
      · subst hne
        rw [hi, Option.some.injEq, Session.mk.injEq] at hj
        obtain ⟨rfl, hj⟩ := hj
        rw [heq_eq_eq] at hj
        exact .inr (.inl ⟨f, k, rfl, hj, rfl, hown _⟩)
      · exact .inl ⟨by simpa [Event.caller?] using hne, hother hne _⟩
  | @answer j o' c k a hj =>
      by_cases hne : j = i
      · subst hne
        rw [hi, Option.some.injEq, Session.mk.injEq] at hj
        obtain ⟨rfl, hj⟩ := hj
        rw [heq_eq_eq] at hj
        exact .inr (.inr ⟨c, k, a, rfl, hj, rfl, hown _⟩)
      · exact .inl ⟨by simpa [Event.caller?] using hne, hother hne _⟩
  | @finish j o' result hj =>
      have hne : j ≠ i := by
        rintro rfl
        simp [Event.isFinishOf] at he
      exact .inl ⟨by simpa [Event.caller?] using hne, hother hne _⟩

/-- What happened from one moment to another, the first occurrence first. -/
inductive Run (clock : Instant → Instant → Prop) (s : System) : List Event → System → Prop
  | refl : Run clock s [] s
  | step {es : List Event} {s' s'' : System} {e : Event} (h : Run clock s es s')
    (hs : Step clock s' e s'') : Run clock s (es ++ [e]) s''

/-- The clock never goes backwards. -/
abbrev Forward : Instant → Instant → Prop := (· ≤ ·)

namespace Run

variable {clock : Instant → Instant → Prop} {s s' s'' : System} {e : Event} {es es' : List Event}

theorem append (h : Run clock s es s') (h' : Run clock s' es' s'') :
    Run clock s (es ++ es') s'' := by
  induction h' with
  | refl => simpa using h
  | step _ hs ih => simpa using ih.step hs

theorem single (hs : Step clock s e s') : Run clock s [e] s' := by
  simpa using Run.refl.step hs

theorem cons (hs : Step clock s e s') (h : Run clock s' es s'') : Run clock s (e :: es) s'' := by
  simpa using (single hs).append h

theorem last (h : Run clock s (es ++ [e]) s'') : ∃ s', Run clock s es s' ∧ Step clock s' e s'' := by
  generalize hl : es ++ [e] = l at h
  cases h with
  | refl => simp at hl
  | step h hs =>
      obtain ⟨rfl, he⟩ := List.append_inj' hl rfl
      rw [List.singleton_inj] at he
      exact ⟨_, h, he ▸ hs⟩

theorem eq_of_nil (h : Run clock s [] s') : s' = s := by
  generalize hl : ([] : List Event) = l at h
  cases h with
  | refl => rfl
  | step => simp at hl

/-- A run passes through a moment between any two of its occurrences. -/
theorem split (h : Run clock s (es ++ es') s'') :
    ∃ s', Run clock s es s' ∧ Run clock s' es' s'' := by
  induction es' using List.reverseRecOn generalizing s'' with
  | nil => exact ⟨s'', by simpa using h, .refl⟩
  | append_singleton es' e ih =>
      rw [← List.append_assoc] at h
      obtain ⟨s₁, h₁, hs⟩ := h.last
      obtain ⟨s', h', h''⟩ := ih h₁
      exact ⟨s', h', h''.step hs⟩

/-- The first event of a run was a step. -/
theorem uncons (h : Run clock s (e :: es) s'') : ∃ s', Step clock s e s' ∧ Run clock s' es s'' := by
  have h : Run clock s ([e] ++ es) s'' := h
  obtain ⟨s', h', h''⟩ := h.split
  have h' : Run clock s ([] ++ [e]) s' := h'
  obtain ⟨s₀, h₀, hs⟩ := h'.last
  exact ⟨s', h₀.eq_of_nil ▸ hs, h''⟩

end Run

/-! ## one operation alone -/

/-- The effects that a call with its answer has had outside the sale. -/
def Call.landed : (c : Call) → c.Answer → List Effect
  | .effect e, .ok _ => [e]
  | _, _ => []

/-- What a program ends with, the book then, and the effects it has had. -/
structure Program.Outcome (α : Type) where
  result : α
  book : Book
  effects : List Effect

/-- Runs a program while nobody else is under way and the clock stands still;
every call is answered by `reply`. -/
def Program.alone {α : Type} (reply : (c : Call) → c.Answer) (now : Instant) :
    Program α → Book → Program.Outcome α
  | .done a, b => ⟨a, b, []⟩
  | .locked f k, b => alone reply now (k b now) (f b now)
  | .call c k, b =>
    let rest := alone reply now (k (reply c)) b
    { rest with effects := c.landed (reply c) ++ rest.effects }

/-- Running what is left of an operation alone, up to its end, is one of the runs. -/
theorem Run.alone_done (clock : Instant → Instant → Prop) (reply : (c : Call) → c.Answer)
    {i : Nat} {o : Operation} (p : Program o.Result) {s : System}
    (h : s.sessions i = some ⟨o, p⟩) :
    ∃ es, (∀ e ∈ es, ∀ j, e.isFinishOf j = false) ∧
      Run clock s es { s.withSession i (some ⟨o, .done (p.alone reply s.now s.book).result⟩) with
        book := (p.alone reply s.now s.book).book } := by
  induction p generalizing s with
  | done result =>
      have hs : s.withSession i (some ⟨o, .done result⟩) = s := by
        rw [System.withSession, ← h, Function.update_eq_self]
      refine ⟨[], by simp, ?_⟩
      simp only [Program.alone, hs]
      exact .refl
  | locked f k ih =>
      obtain ⟨es, hes, hrun⟩ := ih s.book s.now
        (s := { s.withSession i (some ⟨o, k s.book s.now⟩) with book := f s.book s.now })
        (by simp [System.withSession])
      refine ⟨.lock i :: es, by simpa [Event.isFinishOf] using hes, ?_⟩
      simpa [System.withSession, Program.alone] using hrun.cons (.lock h)
  | call c k ih =>
      obtain ⟨es, hes, hrun⟩ := ih (reply c) (s := s.withSession i (some ⟨o, k (reply c)⟩))
        (by simp [System.withSession])
      refine ⟨.answer i o c (reply c) :: es, by simpa [Event.isFinishOf] using hes, ?_⟩
      simpa [System.withSession, Program.alone] using hrun.cons (.answer (reply c) h)

/-- Running an operation alone, up to its end, is one of the runs. -/
theorem Run.alone_begun (clock : Instant → Instant → Prop) (reply : (c : Call) → c.Answer)
    (i : Nat) (o : Operation) {s : System} (h : s.sessions i = none) :
    ∃ es, (∀ e ∈ es, ∀ j, e.isFinishOf j = false) ∧ Run clock s (.begin i o :: es)
      { s.withSession i (some ⟨o, .done (o.program.alone reply s.now s.book).result⟩) with
        book := (o.program.alone reply s.now s.book).book } := by
  obtain ⟨es, hes, hrun⟩ := Run.alone_done clock reply o.program
    (s := s.withSession i (some ⟨o, o.program⟩)) (i := i) (by simp [System.withSession])
  refine ⟨es, hes, ?_⟩
  simpa [System.withSession] using hrun.cons (.begin o h)

/-- **Running an operation alone is one of the runs.** -/
theorem Run.alone (clock : Instant → Instant → Prop) (reply : (c : Call) → c.Answer)
    (i : Nat) (o : Operation) {s : System} (h : s.sessions i = none) :
    ∃ es, Run clock s
      (.begin i o :: es ++ [.finish i o (o.program.alone reply s.now s.book).result])
      { s with book := (o.program.alone reply s.now s.book).book } := by
  obtain ⟨es, -, hrun⟩ := Run.alone_begun clock reply i o h
  refine ⟨es, ?_⟩
  have hdone (result : o.Result) : (s.withSession i (some ⟨o, .done result⟩)).sessions i =
      some ⟨o, .done result⟩ := by simp [System.withSession]
  have hfinish := hrun.step (.finish (hdone _))
  simpa [System.withSession, ← h] using hfinish

/-! ## a sale to run -/

/-- A whole second. -/
def Sample.at (second : Int) : Instant := { (default : Instant) with second }

/-- A sale of a hundred tokens, one unit each, open for ten seconds. -/
def Sample.config : SaleConfig where
  saleId := ⟨1, by decide⟩
  startTime := Sample.at 0
  endTime := Sample.at 10
  nonAccreditedLimit := ⟨1000, by decide⟩
  minimumInvestment := .one
  acceptedCurrencies := .of [.ofText "USD"]
  discountCurrency := none
  settlementDestination := "vault"
  treasury := ⟨"treasury"⟩
  rateToleranceSecs := 60
  allowBeneficialInvestments := false

/-- Its only tier. -/
def Sample.specs : List TierSpec := [.regular ⟨.one, .one⟩ ⟨100, by decide⟩]

/-- Thirty of its tokens. -/
def Sample.request : PurchaseRequest where
  purchaseId := some ⟨7, by decide⟩
  buyer := ⟨"alice"⟩
  beneficiary := none
  currency := .ofText "USD"
  amount := ⟨30, by decide⟩
  minTokens := none

/-- Services that never fail. -/
def Sample.reply : (c : Call) → c.Answer
  | .compliance _ => .ok ⟨true, .nonAccredited⟩
  | .rate _ => .ok ⟨.one, .one, Sample.at 0⟩
  | .effect _ => .ok ()

/-- A second before the sale opens. -/
def Sample.early : Instant := Sample.at (-1)

/-- While it is open. -/
def Sample.open : Instant := Sample.at 5

/-- After its end. -/
def Sample.late : Instant := Sample.at 20

/-- The book once the sale was configured. -/
def Sample.configured (reply : (c : Call) → c.Answer) : Book :=
  ((Operation.configure config specs).program.alone reply early .blank).book

/-- The sale comes to that and opens. -/
theorem Sample.run_configured (reply : (c : Call) → c.Answer) :
    ∃ es, Run Forward (.start early) es (.idle (configured reply) Sample.open) := by
  obtain ⟨es, h⟩ := Run.alone Forward reply 0 (.configure config specs) (s := .start early) rfl
  exact ⟨_, h.step (.tick (show early ≤ Sample.open by decide))⟩

/-- The book once the purchase was made. -/
def Sample.sold (reply : (c : Call) → c.Answer) : Book :=
  let b := ((Operation.configure config specs).program.alone reply early .blank).book
  ((Operation.purchase request).program.alone reply Sample.open b).book

/-- The sale comes to that by being configured, opening and selling. -/
theorem Sample.run_sold (reply : (c : Call) → c.Answer) :
    ∃ es, Run Forward (.start early) es (.idle (sold reply) Sample.open) := by
  obtain ⟨es₁, h₁⟩ := Sample.run_configured reply
  obtain ⟨es₂, h₂⟩ := Run.alone Forward reply 0 (.purchase request)
    (s := .idle (configured reply) Sample.open) rfl
  exact ⟨_, h₁.append h₂⟩

end TokenSale
