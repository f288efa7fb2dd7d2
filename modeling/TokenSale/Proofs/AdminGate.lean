import TokenSale.Proofs.Preview
import TokenSale.Proofs.Services
import TokenSale.Server.Answer

/-!
# TokenSale.Proofs.AdminGate

A server among requests that do not carry its token.  Whatever they ask for,
every administrative route refuses them before it has done anything, and what
only administrators may change stays as it is.

* `Program.Keeps` — every step of a program under the lock keeps a relation of
  books; `Sale.preview`, `Sale.purchase` and `settle` keep to the rules of the sale;
* `World.run_keeps`, `permits_run` — so does running it with services in memory;
* `Request.bears_of_credential` — nobody presents the token without its header;
* `Server.refuses` — an administrative request is refused and leaves no trace;
* `admin_gate` — any sequence of requests without the token.
-/

namespace TokenSale

/-! ## the rules of a sale -/

namespace Book

/-- The rules of a sale are the same: its parameters, the shapes of its tiers,
its limits, whether it is paused and whether it is finalized. -/
structure SameRules (b b' : Book) : Prop where
  fixed : b.Fixed b'
  paused : b'.paused = b.paused
  finalized : b'.finalized = b.finalized

theorem SameRules.refl (b : Book) : b.SameRules b := ⟨.refl b, rfl, rfl⟩

theorem SameRules.trans {b b' b'' : Book} (h : b.SameRules b') (h' : b'.SameRules b'') :
    b.SameRules b'' :=
  ⟨h.fixed.trans h'.fixed, h'.paused.trans h.paused, h'.finalized.trans h.finalized⟩

variable {b b' : Book} {now : Instant}

/-- A purchase changes no parameter. -/
theorem sameRules_of_commitPurchase {r : PurchaseRequest} {checked : Checked}
    {record : PurchaseRecord} (h : b.commitPurchase r checked now = .ok (record, b')) :
    b.SameRules b' := by
  have hfixed := fixed_of_commitPurchase h
  obtain ⟨_, _, _, _, _, _, _, _, -, -, -, -, -, -, -, rfl⟩ :=
    recordPlan_ok (commitPurchase_ok h).2.1
  exact ⟨hfixed, rfl, rfl⟩

theorem sameRules_of_beginSettlement {id : Uuid} {attempt : Attempt}
    (h : b.beginSettlement id = .ok (attempt, b')) : b.SameRules b' := by
  cases attempt with
  | idle status => rw [eq_of_beginSettlement_idle h]; exact .refl b
  | started record destination =>
      have hsealed := sealed_of_beginSettlement h
      obtain ⟨_, _, -, -, -, -, -, -, rfl⟩ := beginSettlement_started h
      exact ⟨hsealed.fixed, rfl, rfl⟩

theorem sameRules_endSettlement (b : Book) (id : Uuid) (p : SettlementProgress)
    (failure : Option CollaboratorError) : b.SameRules (b.endSettlement id p failure) := by
  refine ⟨(sealed_of_endSettlement b id p failure).fixed, ?_, ?_⟩
  · unfold endSettlement
    split <;> rfl
  · unfold endSettlement
    split <;> rfl

end Book

/-! ## programs that keep a relation of books -/

namespace Program

variable {α β : Type} {R : Book → Book → Prop}

/-- Every step under the lock relates the book before to the book after. -/
def Keeps (R : Book → Book → Prop) : Program α → Prop
  | done _ => True
  | locked f k => ∀ b now, R b (f b now) ∧ Keeps R (k b now)
  | call _ k => ∀ a, Keeps R (k a)

/-- Two programs in a row keep what each of them keeps. -/
theorem Keeps.bind {p : Program β} {k : β → Program α} (hp : p.Keeps R)
    (hk : ∀ b, (k b).Keeps R) : (p >>= k).Keeps R := by
  induction p with
  | done b => exact hk b
  | locked f next ih => exact fun b now => ⟨(hp b now).1, ih b now (hp b now).2⟩
  | call c next ih => exact fun a => ih a (hp a)

/-- A program that only looks keeps every relation that each book has to itself. -/
theorem OnlyLooks.keeps {p : Program α} (hp : p.OnlyLooks) (hR : ∀ b, R b b) : p.Keeps R := by
  induction p with
  | done a => trivial
  | locked f k ih =>
      intro b now
      obtain ⟨hf, hk⟩ := hp b now
      exact ⟨by rw [hf]; exact hR b, ih b now hk⟩
  | call c k ih => exact fun a => ih a (hp.2 a)

/-- An attempt keeps what its step keeps whenever it is not refused. -/
theorem keeps_attempt {step : Book → Instant → Except SaleError (α × Book)} (hR : ∀ b, R b b)
    (hstep : ∀ b now a b', step b now = .ok (a, b') → R b b') : (attempt step).Keeps R := by
  intro b now
  refine ⟨?_, trivial⟩
  simp only
  split
  · next a b' h => exact hstep b now a b' h
  · exact hR b

/-- No settlement changes a parameter, however far it gets. -/
theorem keeps_settle (id : Uuid) : (settle id).Keeps Book.SameRules := by
  refine (keeps_attempt Book.SameRules.refl fun _ _ _ _ =>
    Book.sameRules_of_beginSettlement).bind ?_
  rintro (e | status | ⟨record, destination⟩)
  · trivial
  · trivial
  · refine (runSteps_induct (P := Keeps Book.SameRules) (fun _ => trivial) (fun _ _ h => h) _ _ _
      _).bind fun reached b now => ?_
    exact ⟨Book.sameRules_endSettlement b id reached.1 reached.2, trivial⟩

/-- A purchase goes by the rules of the sale and does not change them. -/
theorem keeps_purchase (r : PurchaseRequest) : (Sale.purchase r).Keeps Book.SameRules := by
  refine ((onlyLooks_check r).keeps Book.SameRules.refl).bind ?_
  rintro (e | checked)
  · trivial
  refine (keeps_attempt Book.SameRules.refl fun _ _ _ _ => Book.sameRules_of_commitPurchase).bind ?_
  rintro (e | record)
  · trivial
  refine (keeps_settle _).bind ?_
  rintro (e | status) <;> trivial

end Program

/-! ## running them -/

namespace World

/-- **What every step of a program keeps, its run keeps.** -/
theorem run_keeps {α : Type} {R : Book → Book → Prop} (hrefl : ∀ b, R b b)
    (htrans : ∀ {b b' b''}, R b b' → R b' b'' → R b b'') {p : Program α} (hp : p.Keeps R)
    (w : World) : R w.book (run p w).2.book := by
  induction p generalizing w with
  | done result => exact hrefl w.book
  | locked f k ih =>
      obtain ⟨hstep, hrest⟩ := hp w.book w.now
      exact htrans hstep (ih _ _ hrest { w with book := f w.book w.now })
  | call c k ih =>
      have hrest := ih _ (hp (w.serve c).1) (w.serve c).2
      rwa [(w.serve_book c).1] at hrest

/-- Services that are called leave the allow-list and the rates alone. -/
theorem permits_serve (w : World) (c : Call) :
    (w.serve c).2.allowList.allowed = w.allowList.allowed ∧ (w.serve c).2.rates = w.rates := by
  cases c with
  | compliance investor =>
      simp only [serve, AllowList.check, and_true]
      split <;> rfl
  | rate currency =>
      simp only [serve]
      split <;> exact ⟨rfl, rfl⟩
  | effect x => cases x <;> exact ⟨rfl, rfl⟩

/-- No program of the sale allows an investor or sets a rate. -/
theorem permits_run {α : Type} (p : Program α) (w : World) :
    (run p w).2.allowList.allowed = w.allowList.allowed ∧ (run p w).2.rates = w.rates := by
  induction p generalizing w with
  | done result => exact ⟨rfl, rfl⟩
  | locked f k ih => exact ih ..
  | call c k ih =>
      obtain ⟨hallowed, hrates⟩ := w.permits_serve c
      obtain ⟨hallowed', hrates'⟩ := ih (w.serve c).1 (w.serve c).2
      exact ⟨hallowed'.trans hallowed, hrates'.trans hrates⟩

end World

/-! ## tokens -/

/-- The request carries the token in its header. -/
def Request.Bears (r : Request) (t : AdminToken) : Prop :=
  r.authorization = some ("Bearer " ++ t.secret)

/-- A token that a configuration names is not empty. -/
theorem AdminToken.secret_ne_of_resolve {config : Json} {environment : String → Option String}
    {t : AdminToken} (h : AdminToken.resolve config environment = .ok (some t)) :
    t.secret ≠ "" := by
  unfold resolve at h
  split at h
  · simp at h
  split at h
  next secret hsecret =>
    cases h
    obtain ⟨-, hblank⟩ := Option.filter_eq_some_iff.1 hsecret
    rintro rfl
    revert hblank
    decide +kernel
  · contradiction

/-- What a request presents stands in its header. -/
theorem Request.authorization_of_credential {r : Request} (h : r.credential ≠ "") :
    r.authorization = some ("Bearer " ++ r.credential) := by
  unfold credential at h ⊢
  cases hauth : r.authorization with
  | none => simp [hauth] at h
  | some header =>
      simp only [hauth] at h ⊢
      by_cases hheader : (header.toList.all isHeaderChar &&
          "Bearer ".toList.isPrefixOf header.toList) = true
      · have hprefix : "Bearer ".toList <+: header.toList := by
          rw [Bool.and_eq_true, List.isPrefixOf_iff_prefix] at hheader
          exact hheader.2
        rw [if_pos hheader, ← String.ofList_toList (s := "Bearer "), ← String.ofList_append,
          String.ofList_toList (s := "Bearer "), List.prefix_iff_eq_append.1 hprefix,
          String.ofList_toList]
      · exact absurd (if_neg hheader) h

/-- So nobody presents a token without carrying it. -/
theorem Request.bears_of_credential {r : Request} {t : AdminToken} (ht : t.secret ≠ "")
    (h : t.matches? r.credential = true) : r.Bears t := by
  have hsecret : t.secret = r.credential := by simpa [AdminToken.matches?] using h
  rw [hsecret] at ht
  rw [Bears, hsecret]
  exact r.authorization_of_credential ht

/-- Whether a request on the route may sell something or settle what was sold. -/
def Route.sells : Route → Bool
  | purchase | retry _ => true
  | _ => false

/-- The request asks for something under the administrative path. -/
def Request.IsAdministrative (r : Request) : Prop :=
  ∃ rest, r.segments = "" :: "v1" :: "admin" :: rest

/-- An administrative request is for a route that asks for the token. -/
theorem Request.IsAdministrative.isAdmin {r : Request} {route : Route} (h : r.IsAdministrative)
    (hroute : Route.ofSegments? r.segments = some route) : route.isAdmin = true := by
  obtain ⟨rest, hrest⟩ := h
  rw [hrest] at hroute
  unfold Route.ofSegments? at hroute
  split at hroute <;> simp_all <;> (subst hroute; rfl)

/-! ## the gate -/

namespace Server

/-- What only administrators may change is the same. -/
structure Guarded (s s' : Server) : Prop where
  token : s'.adminToken = s.adminToken
  allowed : s'.world.allowList.allowed = s.world.allowList.allowed
  rates : s'.world.rates = s.world.rates
  rules : s.world.book.SameRules s'.world.book

theorem Guarded.refl (s : Server) : s.Guarded s := ⟨rfl, rfl, rfl, .refl _⟩

theorem Guarded.trans {s s' s'' : Server} (h : s.Guarded s') (h' : s'.Guarded s'') :
    s.Guarded s'' :=
  ⟨h'.token.trans h.token, h'.allowed.trans h.allowed, h'.rates.trans h.rates,
    h.rules.trans h'.rules⟩

/-- The request does not carry the token that the server asks for. -/
def Bars (s : Server) (r : Request) : Prop :=
  ∀ t ∈ s.adminToken, t.secret ≠ "" ∧ ¬ r.Bears t

variable {s : Server} {r : Request}

/-- A barred request does not pass the check of its token. -/
theorem Bars.checkAdmin (h : s.Bars r) : ∃ e, s.checkAdmin r = .error e := by
  unfold Server.checkAdmin
  cases ht : s.adminToken with
  | none => exact ⟨_, rfl⟩
  | some t =>
      obtain ⟨hne, hbears⟩ := h t ht
      have hmatches : ¬ t.matches? r.credential = true := fun hm =>
        hbears (r.bears_of_credential hne hm)
      simp only [hmatches]
      exact ⟨_, rfl⟩

/-- Whatever is wrong with a token, the answer is a refusal. -/
theorem not_isSuccess_adminFault (e : AdminFault) : e.response.status.isSuccess = false := by
  cases e <;> decide

theorem not_isSuccess_bodyFault (e : BodyFault) : (Status.ofBodyFault e).isSuccess = false := by
  cases e <;> decide

/-- The response is no success, and the server is as it was. -/
def Refuses (s : Server) (serve : StateM Server Response) : Prop :=
  (serve.run s).1.status.isSuccess = false ∧ (serve.run s).2 = s

/-- A barred request is refused whatever the route would have done. -/
theorem Bars.asAdmin (h : s.Bars r) (serve : StateM Server Response) :
    s.Refuses (asAdmin r serve) := by
  obtain ⟨e, he⟩ := h.checkAdmin
  have hrun : (Server.asAdmin r serve).run s = (e.response, s) := by
    simp only [Server.asAdmin, StateT.run_bind, StateT.run_get, pure_bind, he]
    rfl
  rw [Refuses, hrun]
  exact ⟨not_isSuccess_adminFault e, rfl⟩

theorem refuses_withBody {α : Type} (d : Decoder α) {serve : α → StateM Server Response}
    (h : ∀ a, s.Refuses (serve a)) : s.Refuses (withBody d r serve) := by
  unfold withBody
  cases r.read d with
  | error fault => exact ⟨not_isSuccess_bodyFault fault, rfl⟩
  | ok a => exact h a

/-- An administrative route refuses a request without the token and does nothing. -/
theorem Bars.refuses {route : Route} (h : s.Bars r) (hroute : route.isAdmin = true) :
    s.Refuses (serve r route) := by
  cases route with
  | pause | unpause | finalize => exact h.asAdmin _
  | whitelist | rates | limitOverride => exact refuses_withBody _ fun _ => h.asAdmin _
  | _ => simp [Route.isAdmin] at hroute

/-! ### the other routes -/

/-- A program run by the server changes the world of the sale and the notices,
nothing else. -/
theorem run_runSale {α : Type} (p : Program α) (s : Server) :
    ∃ notices, (runSale p).run s =
      ((World.run p s.world).1, { s with world := (World.run p s.world).2, notices }) :=
  ⟨_, rfl⟩

/-- An operation that goes by the rules leaves what is guarded alone. -/
theorem guarded_runSale {α : Type} {p : Program α} (hp : p.Keeps Book.SameRules) (s : Server) :
    s.Guarded ((runSale p).run s).2 := by
  obtain ⟨notices, hrun⟩ := run_runSale p s
  obtain ⟨hallowed, hrates⟩ := s.world.permits_run p
  rw [hrun]
  exact ⟨rfl, hallowed, hrates, World.run_keeps .refl .trans hp s.world⟩

/-- Looking at the sale leaves its book as it was. -/
theorem book_runSale {α : Type} {p : Program α} (hp : p.OnlyLooks) (s : Server) :
    ((runSale p).run s).2.world.book = s.world.book := by
  obtain ⟨notices, hrun⟩ := run_runSale p s
  rw [hrun]
  exact World.run_keeps (R := fun b b' => b' = b) (fun _ => rfl) (fun h h' => h'.trans h)
    (hp.keeps fun _ => rfl) s.world

/-- A body is refused or served. -/
theorem run_withBody {P : Server → Prop} {α : Type} (d : Decoder α)
    {serve : α → StateM Server Response} (hs : P s) (h : ∀ a, P ((serve a).run s).2) :
    P ((withBody d r serve).run s).2 := by
  unfold withBody
  cases r.read d with
  | error fault => exact hs
  | ok a => exact h a

/-- A settlement tried again changes nothing that only the token may change. -/
theorem guarded_retry (segment : String) (s : Server) :
    s.Guarded ((retry segment).run s).2 := by
  unfold retry
  split
  · exact .refl s
  · exact guarded_runSale (Program.keeps_settle _) s

/-- **Without the token no route changes what only the token may change.** -/
theorem Bars.guarded_serve (h : s.Bars r) (route : Route) :
    s.Guarded ((serve r route).run s).2 := by
  cases route with
  | health | stream | tiers | investor | pending => exact .refl s
  | status => exact ⟨rfl, rfl, rfl, .refl _⟩
  | preview =>
      refine run_withBody _ (.refl s) fun p => ?_
      exact guarded_runSale ((Program.onlyLooks_preview p).keeps Book.SameRules.refl) s
  | purchase => exact run_withBody _ (.refl s) fun p => guarded_runSale (Program.keeps_purchase p) s
  | retry segment => exact guarded_retry segment s
  | pause | unpause | finalize | whitelist | rates | limitOverride =>
      rw [(h.refuses rfl).2]
      exact .refl s

/-- **Without the token only the routes that sell change the book.** -/
theorem Bars.book_serve (h : s.Bars r) {route : Route} (hroute : route.sells = false) :
    ((serve r route).run s).2.world.book = s.world.book := by
  cases route with
  | health | stream | status | tiers | investor | pending => rfl
  | preview =>
      exact run_withBody (P := fun s' => s'.world.book = s.world.book) _ rfl fun p =>
        book_runSale (Program.onlyLooks_preview p) s
  | purchase | retry => contradiction
  | pause | unpause | finalize | whitelist | rates | limitOverride => rw [(h.refuses rfl).2]

/-! ### requests one after the other -/

/-- A request and when it arrives. -/
structure Arrival where
  now : Instant
  request : Request

/-- The response to a request that arrives, and the server behind it. -/
def handle (s : Server) (a : Arrival) : Response × Server :=
  (respond a.request).run (s.setTime a.now)

/-- The server after requests, one after the other. -/
def after (s : Server) (arrivals : List Arrival) : Server :=
  arrivals.foldl (fun s a => (s.handle a).2) s

/-- A request finds no route, or not by its method, or is served. -/
theorem run_respond (r : Request) (s : Server) :
    (∃ status : Status, status.isSuccess = false ∧ (respond r).run s = (.bare status, s)) ∨
      ∃ route, Route.ofSegments? r.segments = some route ∧
        ((respond r).run s).1.status = ((serve r route).run s).1.status ∧
        ((respond r).run s).2 = ((serve r route).run s).2 := by
  unfold respond
  cases hroute : Route.ofSegments? r.segments with
  | none => exact .inl ⟨_, by decide, rfl⟩
  | some route =>
      simp only
      split
      · refine .inr ⟨route, rfl, ?_, rfl⟩
        change (if r.method = .head then ((serve r route).run s).1.withoutContent
          else ((serve r route).run s).1).status = _
        split <;> rfl
      · exact .inl ⟨_, by decide, rfl⟩

theorem Bars.setTime (h : s.Bars r) (now : Instant) : (s.setTime now).Bars r := h

variable {a : Arrival}

theorem Bars.guarded_handle (h : s.Bars a.request) : s.Guarded (s.handle a).2 := by
  have htime : s.Guarded (s.setTime a.now) := ⟨rfl, rfl, rfl, .refl _⟩
  obtain ⟨status, -, hrun⟩ | ⟨route, -, -, hrun⟩ := run_respond a.request (s.setTime a.now)
  · rw [handle, hrun]
    exact htime
  · rw [handle, hrun]
    exact htime.trans ((h.setTime a.now).guarded_serve route)

/-- An administrative request gets no success. -/
theorem Bars.not_isSuccess (h : s.Bars a.request) (hadmin : a.request.IsAdministrative) :
    (s.handle a).1.status.isSuccess = false := by
  obtain ⟨status, hstatus, hrun⟩ | ⟨route, hroute, hsame, -⟩ :=
    run_respond a.request (s.setTime a.now)
  · rw [handle, hrun]
    exact hstatus
  · rw [handle, hsame]
    exact ((h.setTime a.now).refuses (hadmin.isAdmin hroute)).1

/-- The book changes on the routes that sell only. -/
theorem Bars.book_handle (h : s.Bars a.request)
    (hroute : ∀ route, Route.ofSegments? a.request.segments = some route → route.sells = false) :
    (s.handle a).2.world.book = s.world.book := by
  obtain ⟨status, -, hrun⟩ | ⟨route, hfound, -, hrun⟩ := run_respond a.request (s.setTime a.now)
  · rw [handle, hrun]
    rfl
  · rw [handle, hrun]
    exact (h.setTime a.now).book_serve (hroute route hfound)

/-- **Without the token no sequence of requests changes what is guarded.** -/
theorem guarded_after {arrivals : List Arrival} (h : ∀ a ∈ arrivals, s.Bars a.request) :
    s.Guarded (s.after arrivals) := by
  induction arrivals generalizing s with
  | nil => exact .refl s
  | cons a arrivals ih =>
      have hfirst : s.Guarded (s.handle a).2 := (h a (by simp)).guarded_handle
      refine hfirst.trans (ih fun a' ha' t ht => ?_)
      rw [hfirst.token] at ht
      exact h a' (List.mem_cons_of_mem _ ha') t ht

end Server

/-- **The gate of the administration.**  However many requests a server gets, on
whatever routes and with whatever headers and bodies, as long as none carries
its token: whoever may buy, the rates, the parameters, the shapes of the tiers,
the limits and whether the sale is paused or finalized stay the same; no
administrative request succeeds; and the book changes on the routes only that
purchase or settle.  A server without a token has nobody who may administer it. -/
theorem admin_gate {s : Server} {arrivals : List Server.Arrival}
    (htoken : ∀ t ∈ s.adminToken, t.secret ≠ "")
    (hnone : ∀ t ∈ s.adminToken, ∀ a ∈ arrivals, ¬ a.request.Bears t) :
    s.Guarded (s.after arrivals) ∧ ∀ before a later, arrivals = before ++ a :: later →
      (a.request.IsAdministrative → ((s.after before).handle a).1.status.isSuccess = false) ∧
      ((∀ route, Route.ofSegments? a.request.segments = some route → route.sells = false) →
        ((s.after before).handle a).2.world.book = (s.after before).world.book) := by
  have hbars : ∀ a ∈ arrivals, s.Bars a.request := fun a ha t ht => ⟨htoken t ht, hnone t ht a ha⟩
  refine ⟨Server.guarded_after hbars, ?_⟩
  rintro before a later rfl
  have hbefore : s.Guarded (s.after before) :=
    Server.guarded_after fun a ha => hbars a (List.mem_append_left _ ha)
  have hhere : (s.after before).Bars a.request := fun t ht =>
    hbars a (by simp) t (hbefore.token ▸ ht)
  exact ⟨hhere.not_isSuccess, hhere.book_handle⟩

/-! ## requests without the token -/

/-- Somebody with another token wants the sale to pause. -/
def Sample.intrusion : Server.Arrival :=
  ⟨Sample.open, .post, "/v1/admin/pause", some "Bearer wrong", none⟩

/-- Somebody buys. -/
def Sample.acquisition : Server.Arrival :=
  ⟨Sample.open, .post, "/v1/sale/purchase", none, some
    "\x7b\"purchase_id\":\"00000000-0000-0000-0000-000000000007\",\"buyer\":\"alice\",\"currency\":\"USD\",\"amount\":\"30\"\x7d"⟩

/-- Somebody looks how the sale stands, with an empty token. -/
def Sample.glance : Server.Arrival :=
  ⟨Sample.open, .get, "/v1/sale/status?all", some "Bearer ", none⟩

theorem Sample.isAdministrative_intrusion : intrusion.request.IsAdministrative :=
  ⟨["pause"], by decide +kernel⟩

theorem Sample.ofSegments?_glance :
    Route.ofSegments? glance.request.segments = some .status := by decide +kernel

/-- A server whose sale is open, with a token. -/
def Sample.server : Server where
  world := { Sample.world with now := Sample.open, book := configured reply }
  configHash := ""
  adminToken := some ⟨"secret"⟩
  notices := []

/-- The sale is not paused but goes on, and whoever looks at it changes nothing. -/
theorem admin_gate_bars_intrusion :
    Sample.server.Guarded
      (Sample.server.after [Sample.intrusion, Sample.acquisition, Sample.glance]) ∧
    (Sample.server.handle Sample.intrusion).1.status.isSuccess = false ∧
    (Sample.server.after [Sample.intrusion, Sample.acquisition]).world.book.purchases.size = 1 ∧
    ((Sample.server.after [Sample.intrusion, Sample.acquisition]).handle
      Sample.glance).2.world.book =
      (Sample.server.after [Sample.intrusion, Sample.acquisition]).world.book := by
  have htoken : ∀ t ∈ Sample.server.adminToken, t.secret ≠ "" := by
    rintro t ⟨⟩
    decide
  have hnone : ∀ t ∈ Sample.server.adminToken,
      ∀ a ∈ [Sample.intrusion, Sample.acquisition, Sample.glance], ¬ a.request.Bears t := by
    rintro t ⟨⟩
    simp [Request.Bears, Sample.intrusion, Sample.acquisition, Sample.glance]
  obtain ⟨hguarded, hrequests⟩ := admin_gate htoken hnone
  have hrefused := (hrequests [] Sample.intrusion [Sample.acquisition, Sample.glance] rfl).1
    Sample.isAdministrative_intrusion
  have hlooked := (hrequests [Sample.intrusion, Sample.acquisition] Sample.glance [] rfl).2
    fun route hroute => by
      rw [Sample.ofSegments?_glance] at hroute
      cases hroute
      rfl
  exact ⟨hguarded, hrefused, by decide +kernel, hlooked⟩

end TokenSale
