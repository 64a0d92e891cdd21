import SixGateway.SessionSteps
import SixGateway.StripeContract

namespace SixGateway.Replays

open Library Models Errors Database Schemas StripeClient PaymentService CheckoutService Queries
open Outcomes Sessions Gateway Effects SessionEffects SessionSteps StripeContract

def SameItems (a b : Json) : Prop := ∀ key, a.lookup key = b.lookup key

section

variable [StrLower]

def SamePrice (amount amount' : Int) (currency currency' : String) : Prop :=
  amount = amount' ∧ lower currency = lower currency'

/-- Two requests for an intent that ask for the same, their keys apart. -/
structure SameIntent (a b : PaymentIntentCreate) : Prop where
  price : SamePrice a.amount b.amount a.currency b.currency
  customerId : a.customerId = b.customerId
  description : a.description = b.description
  metadata : SameItems a.metadata b.metadata

structure SameCheckout (a b : CheckoutSessionCreate) : Prop where
  price : SamePrice a.amount b.amount a.currency b.currency
  description : a.description = b.description
  successUrl : a.successUrl = b.successUrl

/-- A request under a used key: it is answered with the row of the key when it asks for the same,
and refused as a conflict when it does not. Neither changes anything, nor calls Stripe. -/
structure Idempotent (w : World) (r : Request) (same : Prop) (row : Reply → Prop) : Prop where
  answered : same → w.after r = w ∧ ∃ reply, (r.outcome w).result = .ok reply ∧ row reply
  refused : ¬ same → w.after r = w ∧
    ∃ detail, (r.outcome w).result = .error (.app .idempotencyConflict detail)

def IntentReply (db : Db) (id : String) (reply : Reply) : Prop :=
  ∃ p ∈ db.paymentIntents, reply = .intent p ∧ p.id = id

def SessionReply (db : Db) (id : String) (reply : Reply) : Prop :=
  ∃ cs ∈ db.checkoutSessions, reply = .session cs ∧ cs.id = id

variable {db : Db} {w : World} {env : Env} {answer : StripeCall → StripeAnswer}
  {merchant : Option String} {a b : PaymentIntentCreate} {c d : CheckoutSessionCreate}
  {p : PaymentIntent} {key : String}

def Holds (key : String) (amount : Int) (currency id : String) (db : Db) : Prop :=
  ∃ p ∈ db.paymentIntents, p.idempotencyKey = key ∧ p.amount = amount ∧ p.currency = currency ∧
    p.id = id

omit [StrLower] in
theorem intentByKey_of_mem (h : p ∈ db.paymentIntents) :
    db.intentByKey p.idempotencyKey = some p :=
  Table.find?_eq h (k := .idempotencyKey p.idempotencyKey) (by simp [Keyed.keys])
    (by simp [Keyed.keys, eq_comm])

theorem holds_created {calls : Calls} {store : Db}
    (h : CreateOutcome a merchant env answer db ⟨store, calls, .ok p⟩) :
    Holds a.idempotencyKey a.amount (lower a.currency) p.id store := by
  obtain ⟨hkey, hamount, hcurrency⟩ := created_price h
  exact ⟨p, created_member h, hkey, hamount, hcurrency, rfl⟩

theorem holds_returned
    (h : (Request.outcome ⟨.createIntent a merchant, env, answer⟩ w).result = .ok (.intent p)) :
    Holds a.idempotencyKey a.amount (lower a.currency) p.id
      (w.after ⟨.createIntent a merchant, env, answer⟩).db := by
  rw [Request.outcome, Op.program, serve_map] at h
  rw [after_createIntent]
  have ho : CreateOutcome a merchant env answer w.db (serve answer _ w.db) :=
    createIntent_outcome a merchant
  generalize serve _ _ _ = out at h ho ⊢
  obtain ⟨store, calls, result⟩ := out
  cases result with
  | error e => cases h
  | ok q =>
    cases h
    exact holds_created ho

theorem holds_after {amount : Int} {currency id : String} (h : Holds key amount currency id w.db)
    (r : Request) : Holds key amount currency id (w.after r).db := by
  obtain ⟨p, hp, hkey, hamount, hcurrency, hid⟩ := h
  obtain ⟨q, hq, _, _, _, _, rfl⟩ := row_continues (request_effect r w) hp
  exact ⟨_, hq, hkey, hamount, hcurrency, hid⟩

theorem holds_afterAll {amount : Int} {currency id : String}
    (h : Holds key amount currency id w.db) (rs : List Request) :
    Holds key amount currency id (w.afterAll rs).db := by
  induction rs generalizing w with
  | nil => exact h
  | cons r rs ih => exact ih (holds_after h r)

/-- `create_intent` under a used key looks at the price and at nothing else. -/
theorem createIntent_used {amount : Int} {currency id : String}
    (h : Holds b.idempotencyKey amount currency id db) :
    (amount = b.amount ∧ currency = lower b.currency ∧ ∃ p ∈ db.paymentIntents, p.id = id ∧
      serve answer (createIntent b merchant env) db = ⟨db, [], .ok p⟩) ∨
    (¬ (amount = b.amount ∧ currency = lower b.currency) ∧ ∃ detail,
      serve answer (createIntent b merchant env) db =
        ⟨db, [], .error (.app .idempotencyConflict detail)⟩) := by
  obtain ⟨p, hp, hkey, rfl, rfl, rfl⟩ := h
  have hl : db.intentByKey b.idempotencyKey = some p := hkey ▸ intentByKey_of_mem hp
  have ho : CreateOutcome b merchant env answer db (serve answer _ db) :=
    createIntent_outcome b merchant
  generalize serve _ _ _ = out at ho ⊢
  cases ho with
  | replayed existing looked amount currency =>
    obtain rfl := Option.some.inj (hl.symm.trans looked)
    exact .inl ⟨amount, currency, p, hp, rfl, rfl⟩
  | conflicted existing looked differs =>
    obtain rfl := Option.some.inj (hl.symm.trans looked)
    exact .inr ⟨fun h => differs.elim (absurd h.1) (absurd h.2), _, rfl⟩
  | refused looked => rw [hl] at looked; cases looked
  | created looked => rw [hl] at looked; cases looked

theorem after_of_idle {r : Request} {result : Except Exn Reply}
    (h : r.outcome w = ⟨w.db, [], result⟩) : w.after r = w := by
  simp only [World.after, h, List.append_nil]

theorem idempotent_of_answered {r : Request} {same : Prop} {row : Reply → Prop} {reply : Reply}
    (h : r.outcome w = ⟨w.db, [], .ok reply⟩) (hrow : row reply) : Idempotent w r same row ↔ same := by
  constructor
  · intro hi
    by_contra hn
    obtain ⟨-, detail, hd⟩ := hi.refused hn
    rw [h] at hd
    cases hd
  · exact fun hs => ⟨fun _ => ⟨after_of_idle h, reply, by rw [h], hrow⟩, fun hn => absurd hs hn⟩

theorem idempotent_of_refused {r : Request} {same : Prop} {row : Reply → Prop} {detail : String}
    (h : r.outcome w = ⟨w.db, [], .error (.app .idempotencyConflict detail)⟩) (hn : ¬ same) :
    Idempotent w r same row :=
  ⟨fun hs => absurd hs hn, fun _ => ⟨after_of_idle h, detail, by rw [h]⟩⟩

theorem intent_idempotent_iff {id : String}
    (h : Holds b.idempotencyKey a.amount (lower a.currency) id w.db) :
    Idempotent w ⟨.createIntent b merchant, env, answer⟩ (SameIntent a b) (IntentReply w.db id) ↔
      ¬ SamePrice a.amount b.amount a.currency b.currency ∨
        a.customerId = b.customerId ∧ a.description = b.description ∧
          SameItems a.metadata b.metadata := by
  have ho : ∀ result, serve answer (createIntent b merchant env) w.db = ⟨w.db, [], result⟩ →
      Request.outcome ⟨.createIntent b merchant, env, answer⟩ w =
        ⟨w.db, [], result.map .intent⟩ := by
    intro result hr
    rw [Request.outcome, Op.program, serve_map, hr]
  obtain ⟨hamount, hcurrency, p, hp, hid, hr⟩ | ⟨hne, detail, hr⟩ :=
    @createIntent_used _ _ env answer merchant _ _ _ _ h
  · rw [idempotent_of_answered (ho _ hr) ⟨p, hp, rfl, hid⟩]
    constructor
    · exact fun hs => .inr ⟨hs.customerId, hs.description, hs.metadata⟩
    · rintro (hne | ⟨hcustomer, hdescription, hmetadata⟩)
      · exact absurd ⟨hamount, hcurrency⟩ hne
      · exact ⟨⟨hamount, hcurrency⟩, hcustomer, hdescription, hmetadata⟩
  · exact iff_of_true (idempotent_of_refused (ho _ hr) (fun hs => hne hs.price)) (.inl hne)

/-- The session of a key: its intent, and the only session that is linked to it. -/
structure HoldsSession (key : String) (amount : Int) (currency id : String) (db : Db) : Prop where
  single : SingleSession db
  linked : ∃ intentId, Holds key amount currency intentId db ∧ ∃ cs ∈ db.checkoutSessions,
    cs.id = id ∧ cs.paymentIntentId = some intentId

theorem HoldsSession.after {amount : Int} {currency id : String}
    (h : HoldsSession key amount currency id w.db) (r : Request) :
    HoldsSession key amount currency id (w.after r).db := by
  obtain ⟨single, intentId, holds, cs, hcs, hid, hlink⟩ := h
  obtain ⟨_, hcs', _, _, rfl⟩ := session_continues r w hcs
  exact ⟨singleSession_after single r, intentId, holds_after holds r, _, hcs', hid, hlink⟩

theorem HoldsSession.afterAll {amount : Int} {currency id : String}
    (h : HoldsSession key amount currency id w.db) (rs : List Request) :
    HoldsSession key amount currency id (w.afterAll rs).db := by
  induction rs generalizing w with
  | nil => exact h
  | cons r rs ih => exact ih (h.after r)

theorem holdsSession_created {m : String} {cs : CheckoutSession}
    (hs : SingleSession w.db)
    (h : (Request.outcome ⟨.createSession m c, env, answer⟩ w).result = .ok (.session cs)) :
    HoldsSession c.idempotencyKey c.amount (lower c.currency) cs.id
      (w.after ⟨.createSession m c, env, answer⟩).db := by
  refine ⟨singleSession_after hs _, ?_⟩
  rw [Request.outcome, Op.program, serve_map] at h
  rw [after_createSession]
  have ho : SessionOutcome m c env answer w.db (serve answer _ w.db) := createSession_outcome m c
  generalize serve _ _ _ = out at h ho ⊢
  cases ho with
  | invalid => cases h
  | stopped => cases h
  | linked body valid store calls intent creates out links =>
    obtain ⟨-, hkey, hamount, hcurrency⟩ := intentPayload_ok valid
    have holds := holds_created creates
    rw [hkey, hamount, hcurrency] at holds
    refine ⟨intent.id, ?_⟩
    cases links with
    | found cs' member linked =>
      cases h
      exact ⟨holds, cs, member, rfl, linked⟩
    | refused => cases h
    | opened unlinked t inserted =>
      cases h
      exact ⟨holds, _, (Table.mem_insert inserted).mpr (.inr rfl), rfl, rfl⟩

theorem linkSession_used {m : String} (hs : SingleSession db) {cs : CheckoutSession}
    (hcs : cs ∈ db.checkoutSessions) (hlink : cs.paymentIntentId = some p.id) :
    serve answer (linkSession m d env p) db = ⟨db, [], .ok cs⟩ := by
  obtain ⟨found, hf⟩ := found_of_single hs p.id
  have hm := mem_sessionsByIntent.mpr ⟨hcs, hlink⟩
  rw [scalarOneOrNone_ok hf] at hm
  obtain rfl : found = some cs := by
    cases found with
    | none => cases hm
    | some cs' => simpa using (List.mem_singleton.mp hm).symm
  simp only [serve, linkSession, Program.exec_read, hf, sessionLooked, Program.exec_ret]

inductive Used (d : CheckoutSessionCreate) (amount : Int) (currency id : String) (db : Db) :
    Outcome Db StripeCall StripeAnswer Exn CheckoutSession → Prop
  | found (same : amount = d.amount ∧ currency = lower d.currency) (cs : CheckoutSession)
      (member : cs ∈ db.checkoutSessions) (named : cs.id = id) :
      Used d amount currency id db ⟨db, [], .ok cs⟩
  | conflicted (valid : d.currency.length = 3)
      (differs : ¬ (amount = d.amount ∧ currency = lower d.currency)) (detail : String) :
      Used d amount currency id db ⟨db, [], .error (.app .idempotencyConflict detail)⟩
  | invalid (invalid : d.currency.length ≠ 3) :
      Used d amount currency id db ⟨db, [], .error (.validationError "currency")⟩

theorem createSession_used {m : String} {amount : Int} {currency id : String}
    (h : HoldsSession d.idempotencyKey amount currency id db) :
    Used d amount currency id db (serve answer (createSession m d env) db) := by
  obtain ⟨single, intentId, holds, cs, hcs, hid, hlink⟩ := h
  unfold createSession
  cases hb : intentPayload d with
  | error e =>
    unfold intentPayload at hb
    split at hb
    · cases hb
    · next hl =>
      cases hb
      exact .invalid hl
  | ok body =>
    obtain ⟨valid, hkey, hamount, hcurrency⟩ := intentPayload_ok hb
    simp only [Program.ofExcept, Program.bind]
    rw [serve, Program.exec_bind]
    obtain ⟨ha, hc, p, hp, rfl, hr⟩ | ⟨hne, detail, hr⟩ :=
      @createIntent_used _ _ env answer (some m) body amount currency intentId (hkey ▸ holds)
    · have hlinked : serve answer (linkSession m d env p) db = _ :=
        linkSession_used single hcs hlink
      rw [serve] at hr hlinked
      simp only [hr, hlinked, List.append_nil]
      exact .found ⟨ha.trans hamount, hc.trans hcurrency⟩ cs hcs hid
    · rw [serve] at hr
      simp only [hr]
      rw [hamount, hcurrency] at hne
      exact .conflicted valid hne detail

theorem session_idempotent_iff {m id : String} (hc : c.currency.length = 3)
    (h : HoldsSession d.idempotencyKey c.amount (lower c.currency) id w.db) :
    Idempotent w ⟨.createSession m d, env, answer⟩ (SameCheckout c d) (SessionReply w.db id) ↔
      SameCheckout c d ∨
        ¬ SamePrice c.amount d.amount c.currency d.currency ∧ d.currency.length = 3 := by
  have ho : Request.outcome ⟨.createSession m d, env, answer⟩ w = _ :=
    serve_map answer (createSession m d env) Reply.session w.db
  have hu := @createSession_used _ _ env answer d m _ _ _ h
  generalize serve answer (createSession m d env) w.db = out at ho hu
  cases hu with
  | found same cs member named =>
    rw [idempotent_of_answered ho ⟨cs, member, rfl, named⟩]
    exact ⟨.inl, fun h => h.resolve_right (fun hne => hne.1 same)⟩
  | conflicted valid differs detail =>
    exact iff_of_true (idempotent_of_refused ho (fun hs => differs hs.price)) (.inr ⟨differs, valid⟩)
  | invalid invalid =>
    have hne : ¬ SameCheckout c d := by
      intro hs
      have hl := hs.price.2
      rw [c.lower_currency, d.lower_currency] at hl
      exact invalid (hl ▸ hc)
    refine iff_of_false (fun hi => ?_) (fun h => h.elim hne (fun h => invalid h.2))
    obtain ⟨-, detail, hd⟩ := hi.refused hne
    rw [ho] at hd
    cases hd

theorem currency_of_created {m : String} {cs : CheckoutSession}
    (h : (Request.outcome ⟨.createSession m c, env, answer⟩ w).result = .ok (.session cs)) :
    c.currency.length = 3 := by
  rw [Request.outcome, Op.program, serve_map] at h
  have ho : SessionOutcome m c env answer w.db (serve answer _ w.db) := createSession_outcome m c
  generalize serve _ _ _ = out at h ho
  cases ho with
  | invalid => cases h
  | stopped => cases h
  | linked body valid => exact (intentPayload_ok valid).1

/-- Whatever happened before and happens in between, a second request under a key is answered as it
should be exactly when what it asks for differs in price, or differs in nothing. -/
theorem idempotent_by_key (pre mid : List Request) (merchant : String) (env env' : Env)
    (answer answer' : StripeCall → StripeAnswer) :
    (∀ (a b : PaymentIntentCreate) (p : PaymentIntent), b.idempotencyKey = a.idempotencyKey →
      let first : Request := ⟨.createIntent a (some merchant), env, answer⟩
      (first.outcome (World.empty.afterAll pre)).result = .ok (.intent p) →
      let w := World.empty.afterAll (pre ++ first :: mid)
      (Idempotent w ⟨.createIntent b (some merchant), env', answer'⟩ (SameIntent a b)
          (IntentReply w.db p.id) ↔
        ¬ SamePrice a.amount b.amount a.currency b.currency ∨
          a.customerId = b.customerId ∧ a.description = b.description ∧
            SameItems a.metadata b.metadata)) ∧
    (∀ (c d : CheckoutSessionCreate) (cs : CheckoutSession), d.idempotencyKey = c.idempotencyKey →
      let first : Request := ⟨.createSession merchant c, env, answer⟩
      (first.outcome (World.empty.afterAll pre)).result = .ok (.session cs) →
      let w := World.empty.afterAll (pre ++ first :: mid)
      (Idempotent w ⟨.createSession merchant d, env', answer'⟩ (SameCheckout c d)
          (SessionReply w.db cs.id) ↔
        SameCheckout c d ∨
          ¬ SamePrice c.amount d.amount c.currency d.currency ∧ d.currency.length = 3)) := by
  constructor
  · intro a b p hkey first hr
    refine intent_idempotent_iff ?_
    rw [hkey, afterAll_append, afterAll_cons]
    exact holds_afterAll (holds_returned hr) mid
  · intro c d cs hkey first hr
    refine session_idempotent_iff (currency_of_created hr) ?_
    rw [hkey, afterAll_append, afterAll_cons]
    exact (holdsSession_created (singleSession_afterAll pre) hr).afterAll mid

end

/-- The order under its key, for another customer and with other data. -/
def reordered : PaymentIntentCreate :=
  { order with customerId := some "cus_2", metadata := [("note", some "gift")] }

def redirected : CheckoutSessionCreate :=
  { checkout with
    successUrl := some "https://shop.example/thanks"
    success_url_length := by
      rintro t ⟨⟩
      decide }

def request (op : Op) (n : Nat) : Request := ⟨op, clock n, accepting .requiresAction⟩

def ordered : PaymentIntent :=
  newIntent order (some "mer_1") (clock 0)
    ⟨"pi_1", PaymentIntentStatus.requiresPaymentMethod.value, some "secret"⟩ .requiresPaymentMethod

def checkedOut : CheckoutSession := newSession "mer_1" checkout ordered (clock 0)

/-- Under a used key the row of another customer is returned, and a session with another return
URL. -/
theorem other_parameters_answered :
    ¬ Idempotent (World.empty.afterAll [request (.createIntent order (some "mer_1")) 0])
        (request (.createIntent reordered (some "mer_1")) 1) (SameIntent order reordered)
        (IntentReply (World.empty.afterAll [request (.createIntent order (some "mer_1")) 0]).db
          "pi_local_i") ∧
      ¬ Idempotent (World.empty.afterAll [request (.createSession "mer_1" checkout) 0])
        (request (.createSession "mer_1" redirected) 1) (SameCheckout checkout redirected)
        (SessionReply (World.empty.afterAll [request (.createSession "mer_1" checkout) 0]).db
          "cs_s") := by
  constructor
  · intro h
    obtain ⟨-, detail, hd⟩ := h.refused (fun hs => absurd hs.customerId (by decide))
    have hr : ((request (.createIntent reordered (some "mer_1")) 1).outcome
        (World.empty.afterAll [request (.createIntent order (some "mer_1")) 0])).result =
        .ok (.intent ordered) := by decide +kernel
    rw [hr] at hd
    cases hd
  · intro h
    obtain ⟨-, detail, hd⟩ := h.refused (fun hs => absurd hs.successUrl (by decide))
    have hr : ((request (.createSession "mer_1" redirected) 1).outcome
        (World.empty.afterAll [request (.createSession "mer_1" checkout) 0])).result =
        .ok (.session checkedOut) := by decide +kernel
    rw [hr] at hd
    cases hd

theorem idempotent_by_key_order :
    let w := World.empty.afterAll ([] ++ request (.createIntent order (some "mer_1")) 0 ::
      [request (.cancelIntent "pi_local_i" cancellation) 1])
    let v := World.empty.afterAll ([] ++ request (.createSession "mer_1" checkout) 0 ::
      [request (.cancelIntent "pi_local_i" cancellation) 1])
    (Idempotent w (request (.createIntent reordered (some "mer_1")) 2) (SameIntent order reordered)
        (IntentReply w.db ordered.id) ↔
      ¬ SamePrice order.amount reordered.amount order.currency reordered.currency ∨
        order.customerId = reordered.customerId ∧ order.description = reordered.description ∧
          SameItems order.metadata reordered.metadata) ∧
    (Idempotent v (request (.createSession "mer_1" redirected) 2) (SameCheckout checkout redirected)
        (SessionReply v.db checkedOut.id) ↔
      SameCheckout checkout redirected ∨
        ¬ SamePrice checkout.amount redirected.amount checkout.currency redirected.currency ∧
          redirected.currency.length = 3) :=
  have h := idempotent_by_key [] [request (.cancelIntent "pi_local_i" cancellation) 1] "mer_1"
    (clock 0) (clock 2) (accepting .requiresAction) (accepting .requiresAction)
  ⟨h.1 order reordered ordered rfl (by decide +kernel),
    h.2 checkout redirected checkedOut rfl (by decide +kernel)⟩

end SixGateway.Replays
