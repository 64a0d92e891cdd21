import SixGateway.Transactions
import SixGateway.Creations
import SixGateway.ZeroSum
import SixGateway.StripeContract

namespace SixGateway.Interleavings

open Library Library.Run Library.Pool Models Errors Database Schemas StripeClient PaymentService
open CheckoutService Queries Bookings Outcomes Gateway Effects Concurrency Transactions Creations
open Dashboard ZeroSum StripeContract
open LedgerService hiding getBalance

/-- What becomes of a row: four of its columns may change, and no other. -/
def SameRow (p q : PaymentIntent) : Prop :=
  ∃ status received refunded now, q = { p with
    status := status, amountReceived := received, amountRefunded := refunded, updatedAt := now }

theorem stable_sameRow : Stable SameRow where
  refl _ := ⟨_, _, _, _, rfl⟩
  trans := by
    rintro p _ _ ⟨_, _, _, _, rfl⟩ ⟨_, _, _, _, rfl⟩
    exact ⟨_, _, _, _, rfl⟩
  flush _ _ _ _ := ⟨_, _, _, _, rfl⟩

theorem SameRow.id_eq {p q : PaymentIntent} (h : SameRow p q) : q.id = p.id := by
  obtain ⟨_, _, _, _, rfl⟩ := h
  rfl

section

variable [StrLower] {db db' : Db} {t : List Stmt} {op : Op} {env : Env} {p q : PaymentIntent}
  {es old : List LedgerEntry}

def Opens : Op → PaymentIntentCreate → Option String → Prop
  | .createIntent payload merchant, body, owner => body = payload ∧ owner = merchant
  | .createSession merchant payload, body, owner =>
    intentPayload payload = .ok body ∧ owner = some merchant
  | _, _, _ => False

/-- What the handler of whatever request may commit. -/
inductive Writes (op : Op) (env : Env) (db : Db) (t : List Stmt) : Prop
  | later (commits : CommitsBy SameRow (fun _ _ => True) op env db t)
  | creates (payload : PaymentIntentCreate) (merchant : Option String)
      (opens : Opens op payload merchant) (creates : Creates (fun _ _ => True) payload merchant env t)

theorem Writes.keeps (h : Writes op env db t) (hc : commit t db = .ok db') :
    KeepsBy SameRow db db' := by
  cases h with
  | later commits => exact commits.keeps stable_sameRow hc
  | creates payload merchant _ creates =>
    obtain ⟨o, status, table, -, -, inserted, rfl⟩ := creates.committed hc
    exact fun p hp => ⟨p, (Table.mem_insert inserted).mpr (.inl hp), stable_sameRow.refl p⟩

abbrev SafeOp {α : Type} (op : Op) (env : Env) (p : Service α) (db : Db) : Prop :=
  Program.Safe commit (KeepsBy SameRow) (fun _ _ => True) (fun _ _ => True) (Writes op env)
    (fun _ _ => True) p db

theorem aside_writes {s : Stmt} (hu : updates [s] = []) (he : entriesOf [s] = [])
    (hn : ∀ row, s ≠ .insertIntent row) : Writes op env db [s] :=
  .later (.aside (aside_touches s hu he hn))

theorem create_safeOp {payload : PaymentIntentCreate} {merchant : Option String}
    (h : Opens op payload merchant) (db : Db) :
    SafeOp op env (createIntent payload merchant env) db :=
  (create_safe (fun _ _ _ _ _ _ => trivial) (fun _ _ _ _ _ _ _ _ => trivial) db).weaken
    (fun _ _ ht => .creates payload merchant h ht)

theorem link_safeOp (merchant : String) (payload : CheckoutSessionCreate) (intent : PaymentIntent)
    (db : Db) : SafeOp op env (linkSession merchant payload env intent) db := by
  intro db₁ _
  change SafeOp op env (sessionLooked merchant payload intent env
    (findByPaymentIntent db₁ intent.id)) db₁
  cases findByPaymentIntent db₁ intent.id with
  | error e => trivial
  | ok found =>
    cases found with
    | some cs => exact fun _ _ => trivial
    | none => exact fun _ _ => ⟨aside_writes rfl rfl (by simp), fun _ _ _ _ _ _ _ => trivial⟩

theorem session_safeOp (merchant : String) (payload : CheckoutSessionCreate) (db : Db) :
    SafeOp (.createSession merchant payload) env (createSession merchant payload env) db := by
  rw [createSession]
  cases hb : intentPayload payload with
  | error e => trivial
  | ok body =>
    have hopens : Opens (.createSession merchant payload) body (some merchant) := ⟨hb, rfl⟩
    exact (create_safeOp hopens db).bind (KeepsBy.refl stable_sameRow)
      (fun intent s _ => link_safeOp merchant payload intent s)

theorem open_safeOp (id : String) (db : Db) :
    SafeOp op env (getOpenSession id env) db := by
  intro db₁ _
  change SafeOp op env (openLoaded id env (db₁.sessionById id)) db₁
  cases db₁.sessionById id with
  | none => trivial
  | some cs =>
    simp only [openLoaded]
    split
    · exact fun _ _ => ⟨aside_writes rfl rfl (by simp), fun _ _ _ _ _ _ _ => trivial⟩
    · exact fun _ _ => trivial

theorem later_safeOp (h : Later op) (db : Db) : SafeOp op env (op.program env) db :=
  (op_safeBy stable_sameRow h db).weaken (fun _ _ ht => .later ht)

/-- Among whatever others, the handler of a request commits nothing but bookings, creations and
what leaves the intents and the ledger alone. -/
theorem op_safe (op : Op) (env : Env) (db : Db) : SafeOp op env (op.program env) db := by
  cases op with
  | createIntent payload merchant =>
    have h : Opens (.createIntent payload merchant) payload merchant := ⟨rfl, rfl⟩
    exact (create_safeOp h db).bind (KeepsBy.refl stable_sameRow) (fun _ _ _ _ _ => trivial)
  | createSession merchant payload =>
    exact (session_safeOp merchant payload db).bind (KeepsBy.refl stable_sameRow)
      (fun _ _ _ _ _ => trivial)
  | getOpenSession id =>
    exact (open_safeOp id db).bind (KeepsBy.refl stable_sameRow) (fun _ _ _ _ _ => trivial)
  | confirmIntent id payload =>
    have h : Later (.confirmIntent id payload) := trivial
    exact later_safeOp h db
  | cancelIntent id payload =>
    have h : Later (.cancelIntent id payload) := trivial
    exact later_safeOp h db
  | refundIntent id key amount reason =>
    have h : Later (.refundIntent id key amount reason) := trivial
    exact later_safeOp h db
  | deliver event =>
    have h : Later (.deliver event) := trivial
    exact later_safeOp h db

/-- What can happen to an intent after its authorisation, as far as the ledger shows. -/
inductive Occurrence where
  | reversed
  | captured (n : Int)
  | refunded (n : Int) (refundId : String) (reason : Option String)

def Occurrence.amount (p : PaymentIntent) : Occurrence → Int
  | reversed => p.amount
  | captured n => n
  | refunded n _ _ => n

def Occurrence.entries (p : PaymentIntent) (env : Env) : Occurrence → List LedgerEntry
  | reversed => reversal p env
  | captured n => capture p n env
  | refunded n refundId reason => refundEntries p n refundId reason env

/-- The journal of an intent: its accrual, and then the whole booking of one occurrence after the
other, all of positive amounts. -/
inductive Journal (p : PaymentIntent) : List LedgerEntry → Prop
  | accrued (env : Env) (positive : 0 < p.amount) : Journal p (accrual p env)
  | booked (es : List LedgerEntry) (before : Journal p es) (o : Occurrence) (env : Env)
      (positive : 0 < o.amount p) : Journal p (es ++ o.entries p env)

def entriesOfIntent (entries : List LedgerEntry) (id : String) : List LedgerEntry :=
  entries.filter (fun e => decide (e.paymentIntentId = some id))

theorem Journal.of_sameRow (h : Journal p es) (hpq : SameRow p q) : Journal q es := by
  obtain ⟨_, _, _, _, rfl⟩ := hpq
  induction h with
  | accrued env positive => exact .accrued env positive
  | booked es _ o env positive ih =>
    cases o with
    | reversed => exact .booked es ih .reversed env positive
    | captured n => exact .booked es ih (.captured n) env positive
    | refunded n refundId reason => exact .booked es ih (.refunded n refundId reason) env positive

theorem intent_of_occurrence {o : Occurrence} {e : LedgerEntry} (h : e ∈ o.entries p env) :
    e.paymentIntentId = some p.id := by
  cases o with
  | reversed => exact intent_of_reversal h
  | captured n => exact intent_of_capture h
  | refunded n refundId reason => exact intent_of_refund h

theorem doubleEntry_occurrence {o : Occurrence} (h : 0 < o.amount p) :
    DoubleEntry (o.entries p env) := by
  cases o with
  | reversed => exact doubleEntry_recorded (record_reversal h env)
  | captured n => exact doubleEntry_recorded (record_capture p h env)
  | refunded n refundId reason => exact doubleEntry_recorded (record_refund p h refundId reason env)

theorem occurrence_of_change {r : Request} {dirty : PaymentIntent} {calls : Calls}
    (h : Changes r p dirty es calls) :
    es = [] ∨ ∃ o : Occurrence, 0 < o.amount p ∧ es = o.entries p r.env := by
  cases h with
  | confirmed => exact .inl rfl
  | canceled _ _ _ _ _ _ _ _ _ _ _ positive => exact .inr ⟨.reversed, positive, rfl⟩
  | captured _ _ _ _ _ _ _ n _ positive => exact .inr ⟨.captured n, positive, rfl⟩
  | refunded _ _ _ reason _ _ _ _ _ n _ positive _ o =>
    exact .inr ⟨.refunded n o.id reason, positive, rfl⟩

omit [StrLower] in
theorem entriesOfIntent_append (id : String) :
    entriesOfIntent (old ++ es) id = entriesOfIntent old id ++ entriesOfIntent es id :=
  List.filter_append ..

omit [StrLower] in
theorem entriesOfIntent_own {id : String} (h : ∀ e ∈ es, e.paymentIntentId = some id) :
    entriesOfIntent es id = es := List.filter_eq_self.mpr (fun e he => by simp [h e he])

omit [StrLower] in
theorem entriesOfIntent_other {id : String} (h : ∀ e ∈ es, e.paymentIntentId ≠ some id) :
    entriesOfIntent es id = [] := List.filter_eq_nil_iff.mpr (fun e he => by simp [h e he])

/-- The books of a store: every intent has its journal, every entry is in the journal of an intent
and in its currency, and the whole is in double entry. -/
structure Books (db : Db) : Prop where
  journal : ∀ p ∈ db.paymentIntents, Journal p (entriesOfIntent db.ledgerEntries p.id)
  named : ∀ e ∈ db.ledgerEntries, ∃ p ∈ db.paymentIntents, e.paymentIntentId = some p.id
  doubleEntry : DoubleEntry db.ledgerEntries

theorem books_empty : Books Db.empty where
  journal _ hp := absurd hp Table.not_mem_empty
  named _ he := absurd he List.not_mem_nil
  doubleEntry := doubleEntry_nil

theorem books_created {payload : PaymentIntentCreate} {merchant : Option String}
    (h : Books db) (ht : Creates (fun _ _ => True) payload merchant env t)
    (hc : commit t db = .ok db') : Books db' := by
  obtain ⟨o, status, table, -, -, inserted, rfl⟩ := ht.committed hc
  have hrec := record_accrual payload merchant o status env
  have hmem : ∀ q, q ∈ ({ db with paymentIntents := table }.post
      (accrual (newIntent payload merchant env o status) env)).paymentIntents ↔
      q ∈ db.paymentIntents ∨ q = newIntent payload merchant env o status :=
    fun q => Table.mem_insert inserted
  refine ⟨fun q hq => ?_, fun e he => ?_, h.doubleEntry.append (doubleEntry_recorded hrec)⟩
  · change Journal q (entriesOfIntent (db.ledgerEntries ++ accrual _ env) q.id)
    rw [entriesOfIntent_append]
    obtain hq | rfl := (hmem q).mp hq
    · have hother : entriesOfIntent (accrual (newIntent payload merchant env o status) env) q.id =
          [] := entriesOfIntent_other (fun e he heq => (insert_fresh inserted hq).1 (by
        rw [intent_of_accrual he] at heq
        exact (Option.some.inj heq).symm))
      rw [hother, List.append_nil]
      exact h.journal q hq
    · have hnone : entriesOfIntent db.ledgerEntries (newIntent payload merchant env o status).id =
          [] := entriesOfIntent_other (fun e he heq => by
        obtain ⟨p, hp, hep⟩ := h.named e he
        exact (insert_fresh inserted hp).1 (Option.some.inj (hep.symm.trans heq)))
      rw [hnone, entriesOfIntent_own (fun _ => intent_of_accrual), List.nil_append]
      exact .accrued env payload.amount_ge
  · obtain he | he := List.mem_append.mp he
    · obtain ⟨p, hp, hep⟩ := h.named e he
      exact ⟨p, (hmem p).mpr (.inl hp), hep⟩
    · exact ⟨_, (hmem _).mpr (.inr rfl), intent_of_accrual he⟩

theorem books_commit (h : Books db) (ht : Writes op env db t) (hc : commit t db = .ok db') :
    Books db' := by
  have hkeeps := ht.keeps hc
  cases ht with
  | creates payload merchant _ creates => exact books_created h creates hc
  | later commits =>
    have hnamed : ∀ e ∈ db.ledgerEntries, ∃ p ∈ db'.paymentIntents,
        e.paymentIntentId = some p.id := by
      intro e he
      obtain ⟨p, hp, hep⟩ := h.named e he
      obtain ⟨q, hq, hpq⟩ := hkeeps p hp
      exact ⟨q, hq, by rw [hep, hpq.id_eq]⟩
    have hledger := commit_ledger hc
    cases commits with
    | aside touches =>
      rw [touches.entries, List.append_nil] at hledger
      have hi := commit_untouched hc touches
      exact ⟨hi ▸ hledger ▸ h.journal, hledger ▸ hnamed, hledger ▸ h.doubleEntry⟩
    | change answer loaded dirty es calls does _ touches known =>
      obtain ⟨p, hp, hlp⟩ := known
      rw [touches.entries] at hledger
      have hes : ∀ e ∈ es, e.paymentIntentId = some p.id := fun e he => by
        rw [intent_of_change does e he, hlp.id_eq]
      have hbooked : es = [] ∨ ∃ o : Occurrence, 0 < o.amount p ∧ es = o.entries p env := by
        obtain ⟨_, _, _, _, rfl⟩ := hlp
        obtain rfl | ⟨o, positive, rfl⟩ := occurrence_of_change does
        · exact .inl rfl
        · cases o with
          | reversed => exact .inr ⟨.reversed, positive, rfl⟩
          | captured n => exact .inr ⟨.captured n, positive, rfl⟩
          | refunded n refundId reason => exact .inr ⟨.refunded n refundId reason, positive, rfl⟩
      refine ⟨fun q hq => ?_, fun e he => ?_, ?_⟩
      · rw [hledger, entriesOfIntent_append]
        obtain ⟨hq, hne⟩ | ⟨p', hp', hid, now, rfl⟩ := mem_committed hc touches hq
        · have hother : entriesOfIntent es q.id = [] := entriesOfIntent_other (fun e he heq =>
            hne (by
              rw [hes e he, hlp.id_eq] at heq
              exact (Option.some.inj heq).symm))
          rw [hother, List.append_nil]
          exact h.journal q hq
        · obtain rfl := eq_of_id hp' hp (hid.trans hlp.id_eq.symm)
          have hsame : SameRow p' (loaded.flush dirty now p') := stable_sameRow.flush ..
          refine Journal.of_sameRow ?_ hsame
          rw [flush_id, entriesOfIntent_own hes]
          obtain rfl | ⟨o, positive, rfl⟩ := hbooked
          · rw [List.append_nil]
            exact h.journal p' hp
          · exact .booked _ (h.journal p' hp) o env positive
      · rw [hledger] at he
        obtain he | he := List.mem_append.mp he
        · exact hnamed e he
        · obtain ⟨q, hq, hpq⟩ := hkeeps p hp
          exact ⟨q, hq, by rw [hes e he, hpq.id_eq]⟩
      · rw [hledger]
        obtain rfl | ⟨o, positive, rfl⟩ := hbooked
        · rw [List.append_nil]
          exact h.doubleEntry
        · exact h.doubleEntry.append (doubleEntry_occurrence positive)

def WritesOf (rs : List (Op × Env)) (i : Nat) (db : Db) (t : List Stmt) : Prop :=
  ∃ r, rs[i]? = some r ∧ Writes r.1 r.2 db t

theorem writesOf_keeps {rs : List (Op × Env)} (i : Nat) (db : Db) (t : List Stmt) (db' : Db)
    (h : WritesOf rs i db t) (_ : True) (hc : commit t db = .ok db') : KeepsBy SameRow db db' := by
  obtain ⟨r, -, h⟩ := h
  exact h.keeps hc

abbrev Safely (rs : List (Op × Env)) (st : Handlers Reply) : Prop :=
  AllSafe commit (KeepsBy SameRow) (fun _ _ => True) (fun _ _ _ => True) (WritesOf rs)
    (fun _ _ => True) st

theorem serving_safely (rs : List (Op × Env)) (db : Db) (calls : Calls) :
    Safely rs (serving db calls rs) := by
  intro i p hp
  obtain ⟨r, hr, rfl⟩ : ∃ r, rs[i]? = some r ∧ r.1.program r.2 = p := by
    simpa [serving, List.getElem?_map] using hp
  exact (op_safe r.1 r.2 db).weaken (fun s t ht => ⟨r, hr, ht⟩)

omit [StrLower] in
theorem meets_any (st : Handlers Reply) (l : Label) :
    Meets commit (fun _ _ => True) (fun _ _ _ => True) st l :=
  meets_of_forall (fun _ _ _ => trivial) (fun _ _ => trivial) st l

theorem always_of_writes {I : Db → Prop} {rs : List (Op × Env)} (hI : ∀ r ∈ rs, ∀ db t db', I db →
    Writes r.1 r.2 db t → commit t db = .ok db' → I db') {db : Db} (h : I db) (calls : Calls)
    (ls : List Label) : Always (step commit) (fun st => I st.store) (serving db calls rs) ls := by
  have hcommits : ∀ i s t s', I s → WritesOf rs i s t → True → commit t s = .ok s' → I s' := by
    rintro i s t s' hi ⟨r, hr, ht⟩ - hc
    exact hI r (List.mem_of_getElem? hr) s t s' hi ht hc
  have hall : Always (step commit) (fun u => Safely rs u ∧ I u.store) (serving db calls rs) ls :=
    always_commits (KeepsBy.refl stable_sameRow) (KeepsBy.trans stable_sameRow)
      writesOf_keeps hcommits (serving_safely rs db calls) h
      (along_of_forall meets_any _ ls)
  exact always_mono (fun _ h => h.2) _ _ hall

theorem books_always (rs : List (Op × Env)) (ls : List Label) :
    Always (step commit) (fun st => Books st.store) (serving Db.empty [] rs) ls :=
  always_of_writes (fun _ _ _ _ _ => books_commit) books_empty [] ls

/-- The double-entry law under every interleaving: in each committed state the entries are
positive, the transactions balance, and the balances of the whole ledger and of every merchant's
dashboard net to zero in every currency. -/
theorem nets_kept (rs : List (Op × Env)) (ls : List Label) :
    Always (step commit) (fun st =>
      (∀ e ∈ st.store.ledgerEntries, 0 < e.amount) ∧
      (∀ transactionId currency, totalOf .credit transactionId currency st.store.ledgerEntries =
        totalOf .debit transactionId currency st.store.ledgerEntries) ∧
      (∀ merchantId, ∀ item ∈ (getBalancesByCurrency st.store merchantId).items,
        item.2.values.sum = 0) ∧
      ∀ merchantId, ∀ balance ∈ (getBalance st.store merchantId).currencies, balance.net = 0)
      (serving Db.empty [] rs) ls := by
  refine always_mono (fun st h => ?_) _ _ (books_always rs ls)
  refine ⟨h.doubleEntry.positive, h.doubleEntry.balanced,
    fun m item hi => balances_sum_zero h.doubleEntry m hi, fun m balance hb => ?_⟩
  obtain ⟨item, hi, rfl⟩ := List.mem_map.mp hb
  exact balances_sum_zero h.doubleEntry (some m) ((List.perm_insertionSort _ _).mem_iff.mp hi)

omit [StrLower] in
theorem ledger_step {α : Type} {st st' : Handlers α} {l : Label}
    (h : step commit st l = some st') : st.store.ledgerEntries <+: st'.store.ledgerEntries := by
  cases step_moves h with
  | read => exact List.prefix_rfl
  | committed i t k _ s hs =>
    rw [commit_ledger hs]
    exact List.prefix_append ..
  | refused => exact List.prefix_rfl
  | answered => exact List.prefix_rfl

/-- Of what was committed once nothing goes away: the ledger grows at its end, and every row stays
with the columns that no request writes. -/
theorem kept_from {rs : List (Op × Env)} {a b : Handlers Reply} {ls : List Label}
    (ha : Safely rs a) (hr : run (step commit) a ls = some b) :
    a.store.ledgerEntries <+: b.store.ledgerEntries ∧ KeepsBy SameRow a.store b.store := by
  refine (Run.invariant (I := fun st : Handlers Reply => Safely rs st ∧
      a.store.ledgerEntries <+: st.store.ledgerEntries ∧ KeepsBy SameRow a.store st.store) ?_
    ⟨ha, List.prefix_rfl, KeepsBy.refl stable_sameRow a.store⟩ (along_of_forall meets_any a ls) hr).2
  intro st l st' hst hl hstep
  obtain ⟨hsafe, hledger, hkeeps⟩ := hst
  obtain ⟨hsafe', hkeeps'⟩ := step_safe (KeepsBy.refl stable_sameRow)
    (KeepsBy.trans stable_sameRow) writesOf_keeps hsafe hl hstep
  exact ⟨hsafe', hledger.trans (ledger_step hstep), KeepsBy.trans stable_sameRow _ _ _ hkeeps hkeeps'⟩

theorem safely_run {rs : List (Op × Env)} {a : Handlers Reply} {ls : List Label}
    (hr : run (step commit) (serving Db.empty [] rs) ls = some a) : Safely rs a := by
  refine Run.invariant ?_ (serving_safely rs Db.empty []) (along_of_forall meets_any _ ls) hr
  exact fun st l st' hst hl hstep => (step_safe (KeepsBy.refl stable_sameRow)
    (KeepsBy.trans stable_sameRow) writesOf_keeps hst hl hstep).1

/-- The journals of any interleaving: in every committed state each intent has its accrual and then
whole bookings of its own, in every later state the same journal with whole bookings after it, and
no row goes away or changes its owner, its amount or its names. -/
theorem journals_kept (rs : List (Op × Env)) (pre post : List Label) {a b : Handlers Reply}
    (ha : run (step commit) (serving Db.empty [] rs) pre = some a)
    (hb : run (step commit) a post = some b) :
    Books a.store ∧ Books b.store ∧ a.store.ledgerEntries <+: b.store.ledgerEntries ∧
    ∀ p ∈ a.store.paymentIntents, ∃ q ∈ b.store.paymentIntents, SameRow p q ∧
      entriesOfIntent a.store.ledgerEntries p.id <+: entriesOfIntent b.store.ledgerEntries p.id ∧
      Journal q (entriesOfIntent a.store.ledgerEntries p.id) := by
  have hbooks := always_end (books_always rs pre) ha
  have hall : run (step commit) (serving Db.empty [] rs) (pre ++ post) = some b := by
    rw [run_append, ha]
    exact hb
  have hbooks' := always_end (books_always rs (pre ++ post)) hall
  obtain ⟨hledger, hkeeps⟩ := kept_from (safely_run ha) hb
  refine ⟨hbooks, hbooks', hledger, fun p hp => ?_⟩
  obtain ⟨q, hq, hpq⟩ := hkeeps p hp
  exact ⟨q, hq, hpq, hledger.filter _, (hbooks.journal p hp).of_sameRow hpq⟩

end

def createAndDeliver : List (Op × Env) :=
  [(.createIntent order (some "mer_1"), clock 0), (.deliver (paid "evt_1"), clock 1)]

/-- The creation of an order, and then the capture of its payment. -/
theorem journals_kept_order :
    let created : List Label := [(0, .run), (0, .answer (.ok ⟨"pi_1", "processing", none⟩)), (0, .run)]
    let captured : List Label := [(1, .run), (1, .run), (1, .run), (1, .run)]
    ∃ a b, run (step commit) (serving Db.empty [] createAndDeliver) created = some a ∧
      run (step commit) a captured = some b ∧ Books b.store ∧
      a.store.ledgerEntries <+: b.store.ledgerEntries ∧
      a.store.ledgerEntries.length = 2 ∧ b.store.ledgerEntries.length = 4 := by
  intro created captured
  have hlen : ((run (step commit) (serving Db.empty [] createAndDeliver) created).bind (fun a =>
      (run (step commit) a captured).map (fun b =>
        (a.store.ledgerEntries.length, b.store.ledgerEntries.length)))) = some (2, 4) := by
    decide +kernel
  obtain ⟨a, ha, hb⟩ := Option.bind_eq_some_iff.mp hlen
  obtain ⟨b, hb, hab⟩ := Option.map_eq_some_iff.mp hb
  obtain ⟨hla, hlb⟩ := Prod.mk.inj hab
  obtain ⟨-, hbooks, hledger, -⟩ := journals_kept createAndDeliver created captured ha hb
  exact ⟨a, b, ha, hb, hbooks, hledger, hla, hlb⟩

end SixGateway.Interleavings
