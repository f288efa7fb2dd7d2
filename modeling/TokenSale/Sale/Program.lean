import TokenSale.Sale.Book

/-!
# TokenSale.Sale.Program

What an operation on a sale does, step by step: it looks at the book or
changes it under the lock, and it calls services outside the sale, never both
at once.  Between any two steps other operations may run.  A program says
nothing about who answers its calls; running, interleaving and failing
services are interpretations of the same program.

* `atomically` — one step under the lock;
* `ask` — one call;
* `interpret` — runs a program in any monad that can do both.
-/

namespace TokenSale

/-- What compliance says about an investor. -/
structure Verdict where
  allowed : Bool
  investorClass : InvestorClass
  deriving DecidableEq

/-- A call that only succeeds or fails. -/
inductive Effect where
  | issue (id : Uuid) (recipient : InvestorId) (amount : Tokens)
  | forward (purchaseId : Uuid) (currency : Currency) (amount : Funds) (destination : String)
  | refund (purchaseId : Uuid) (currency : Currency) (amount : Funds) (investor : InvestorId)
  | emit (event : SaleEvent)
  deriving DecidableEq

/-- A call to a service outside the sale. -/
inductive Call where
  | compliance (investor : InvestorId)
  | rate (currency : Currency)
  | effect (effect : Effect)
  deriving DecidableEq

/-- What a call is answered with. -/
abbrev Call.Answer : Call → Type
  | compliance _ => Except CollaboratorError Verdict
  | rate _ => Except RateError Rate
  | effect _ => Except CollaboratorError Unit

/-- The steps of an operation. -/
inductive Program (α : Type) where
  /-- The operation has ended. -/
  | done (result : α)
  /-- Under the lock the book is replaced; what follows depends on the book
  before that and on the clock. -/
  | locked (replace : Book → Instant → Book) (next : Book → Instant → Program α)
  /-- A service is called while the lock is free. -/
  | call (c : Call) (next : c.Answer → Program α)

namespace Program

variable {α β : Type}

/-- One program after another. -/
def bind : Program α → (α → Program β) → Program β
  | done a, f => f a
  | locked replace next, f => locked replace fun b t => bind (next b t) f
  | call c next, f => call c fun a => bind (next a) f

instance : Monad Program where
  pure := done
  bind := bind

/-- One step under the lock. -/
def atomically (step : Book → Instant → α × Book) : Program α :=
  locked (fun b t => (step b t).2) fun b t => done (step b t).1

/-- One step under the lock that changes the book only if it succeeds. -/
def attempt (step : Book → Instant → Except SaleError (α × Book)) :
    Program (Except SaleError α) :=
  atomically fun b t =>
    match step b t with
    | .ok (a, b) => (.ok a, b)
    | .error e => (.error e, b)

/-- A look at the book. -/
def look (f : Book → Instant → α) : Program α := atomically fun b t => (f b t, b)

/-- One call. -/
def ask (c : Call) : Program c.Answer := call c done

/-- One call that only succeeds or fails. -/
def perform (e : Effect) : Program (Except CollaboratorError Unit) := ask (.effect e)

/-- Runs a program in a monad that serves calls and holds the book. -/
def interpret {m : Type → Type} [Monad m] (serve : (c : Call) → m c.Answer)
    (step : (Book → Instant → Book) → m (Book × Instant)) : Program α → m α
  | done a => pure a
  | locked replace next => do
    let (b, t) ← step replace
    interpret serve step (next b t)
  | call c next => do
    let a ← serve c
    interpret serve step (next a)

end Program

end TokenSale
