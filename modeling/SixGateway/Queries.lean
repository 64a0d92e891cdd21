import SixGateway.Database

namespace SixGateway.Queries

open Library Models Errors Database

section rows

variable (loaded dirty row : PaymentIntent) (now : Instant)

@[simp] theorem flush_id : (loaded.flush dirty now row).id = row.id := rfl

@[simp] theorem flush_stripeId :
    (loaded.flush dirty now row).stripePaymentIntentId = row.stripePaymentIntentId := rfl

@[simp] theorem flush_key : (loaded.flush dirty now row).idempotencyKey = row.idempotencyKey := rfl

@[simp] theorem flush_amount : (loaded.flush dirty now row).amount = row.amount := rfl

@[simp] theorem flush_merchantId :
    (loaded.flush dirty now row).merchantId = row.merchantId := rfl

@[simp] theorem flush_customerId :
    (loaded.flush dirty now row).customerId = row.customerId := rfl

theorem flush_loaded : (loaded.flush dirty now loaded).status = dirty.status ∧
    (loaded.flush dirty now loaded).amountReceived = dirty.amountReceived ∧
    (loaded.flush dirty now loaded).amountRefunded = dirty.amountRefunded := by
  refine ⟨?_, ?_, ?_⟩ <;> · simp only [PaymentIntent.flush]; split <;> simp_all

end rows

variable {db db' : Db} {p q : PaymentIntent} {id : String}

theorem intentById_some (h : db.intentById id = some p) : p ∈ db.paymentIntents ∧ p.id = id := by
  simpa using Table.find?_some h

theorem intentByStripeId_some (h : db.intentByStripeId id = some p) :
    p ∈ db.paymentIntents ∧ p.stripePaymentIntentId = some id := by
  simpa using Table.find?_some h

theorem intentByKey_some (h : db.intentByKey id = some p) :
    p ∈ db.paymentIntents ∧ p.idempotencyKey = id := by
  simpa using Table.find?_some h

theorem eventById_some {e : WebhookEvent} (h : db.eventById id = some e) :
    e ∈ db.webhookEvents ∧ e.id = id := by
  simpa using Table.find?_some h

theorem sessionById_some {s : CheckoutSession} (h : db.sessionById id = some s) :
    s ∈ db.checkoutSessions ∧ s.id = id := by
  simpa using Table.find?_some h

theorem intentById_of_mem (h : p ∈ db.paymentIntents) : db.intentById p.id = some p :=
  Table.find?_eq h (k := .id p.id) (by simp [Keyed.keys]) (by simp [Keyed.keys, eq_comm])

theorem intentByStripeId_of_mem (h : p ∈ db.paymentIntents)
    (hs : p.stripePaymentIntentId = some id) : db.intentByStripeId id = some p :=
  Table.find?_eq h (k := .stripePaymentIntentId id) (by simp [Keyed.keys, hs])
    (by simp [Keyed.keys, eq_comm])

theorem intentById_none (h : db.intentById id = none) (hp : p ∈ db.paymentIntents) : p.id ≠ id := by
  simpa using Table.find?_none h hp

theorem intentByStripeId_none (h : db.intentByStripeId id = none) (hp : p ∈ db.paymentIntents) :
    p.stripePaymentIntentId ≠ some id := by
  simpa using Table.find?_none h hp

theorem eventById_none {e : WebhookEvent} (h : db.eventById id = none)
    (he : e ∈ db.webhookEvents) : e.id ≠ id := by
  simpa using Table.find?_none h he

theorem eq_of_id (hp : p ∈ db.paymentIntents) (hq : q ∈ db.paymentIntents) (h : p.id = q.id) :
    p = q :=
  Table.eq_of_key hp hq (k := .id p.id) (by simp [Keyed.keys]) (by simp [Keyed.keys, h])

theorem eq_of_idempotencyKey (hp : p ∈ db.paymentIntents) (hq : q ∈ db.paymentIntents)
    (h : p.idempotencyKey = q.idempotencyKey) : p = q :=
  Table.eq_of_key hp hq (k := .idempotencyKey p.idempotencyKey) (by simp [Keyed.keys])
    (by simp [Keyed.keys, h])

theorem eq_of_stripeId (hp : p ∈ db.paymentIntents) (hq : q ∈ db.paymentIntents)
    (h : p.stripePaymentIntentId = some id) (h' : q.stripePaymentIntentId = some id) : p = q :=
  Table.eq_of_key hp hq (k := .stripePaymentIntentId id) (by simp [Keyed.keys, h])
    (by simp [Keyed.keys, h'])

theorem insert_fresh {t : Table PaymentIntent} (h : db.paymentIntents.insert p = some t)
    (hq : q ∈ db.paymentIntents) : q.id ≠ p.id ∧ q.idempotencyKey ≠ p.idempotencyKey ∧
      (p.stripePaymentIntentId ≠ none → q.stripePaymentIntentId ≠ p.stripePaymentIntentId) := by
  have hc := (Table.insert_eq_some h).2 q hq
  refine ⟨?_, ?_, ?_⟩
  · intro he
    rw [Table.clash_iff.mpr ⟨.id p.id, by simp [Keyed.keys, he], by simp [Keyed.keys]⟩] at hc
    cases hc
  · intro he
    rw [Table.clash_iff.mpr ⟨.idempotencyKey p.idempotencyKey, by simp [Keyed.keys, he],
      by simp [Keyed.keys]⟩] at hc
    cases hc
  · intro hn he
    obtain ⟨v, hv⟩ := Option.ne_none_iff_exists'.mp hn
    rw [Table.clash_iff.mpr ⟨.stripePaymentIntentId v, by simp [Keyed.keys, he, hv],
      by simp [Keyed.keys, hv]⟩] at hc
    cases hc

section update

variable {loaded dirty : PaymentIntent} {now : Instant} {es : List LedgerEntry}

@[simp] theorem ledgerEntries_updateIntent :
    (db.updateIntent loaded dirty now).ledgerEntries = db.ledgerEntries := rfl

@[simp] theorem checkoutSessions_updateIntent :
    (db.updateIntent loaded dirty now).checkoutSessions = db.checkoutSessions := rfl

@[simp] theorem webhookEvents_updateIntent :
    (db.updateIntent loaded dirty now).webhookEvents = db.webhookEvents := rfl

@[simp] theorem paymentIntents_post : (db.post es).paymentIntents = db.paymentIntents := rfl

@[simp] theorem ledgerEntries_post : (db.post es).ledgerEntries = db.ledgerEntries ++ es := rfl

@[simp] theorem checkoutSessions_post :
    (db.post es).checkoutSessions = db.checkoutSessions := rfl

@[simp] theorem webhookEvents_post : (db.post es).webhookEvents = db.webhookEvents := rfl

theorem mem_updateIntent : q ∈ (db.updateIntent loaded dirty now).paymentIntents ↔
    ∃ p ∈ db.paymentIntents, (if p.id = loaded.id then loaded.flush dirty now p else p) = q := by
  have h : q ∈ (db.updateIntent loaded dirty now).paymentIntents ↔ _ :=
    Table.mem_modify (f := loaded.flush dirty now) (fun _ => rfl)
  simpa only [decide_eq_true_eq] using h

theorem mem_updateIntent_loaded (hl : loaded ∈ db.paymentIntents) :
    q ∈ (db.updateIntent loaded dirty now).paymentIntents ↔
      q = loaded.flush dirty now loaded ∨ (q ∈ db.paymentIntents ∧ q.id ≠ loaded.id) := by
  rw [mem_updateIntent]
  constructor
  · rintro ⟨p, hp, rfl⟩
    by_cases h : p.id = loaded.id
    · rw [eq_of_id hp hl h]
      exact .inl (by simp)
    · exact .inr (by simp [h, hp])
  · rintro (rfl | ⟨hq, hne⟩)
    · exact ⟨loaded, hl, by simp⟩
    · exact ⟨q, hq, by simp [hne]⟩

theorem intentById_updateIntent : (db.updateIntent loaded dirty now).intentById id =
    (db.intentById id).map (fun p => if p.id = loaded.id then loaded.flush dirty now p else p) := by
  cases h : db.intentById id with
  | some p =>
    obtain ⟨hp, rfl⟩ := intentById_some h
    have hm := (@mem_updateIntent db _ loaded dirty now).mpr ⟨p, hp, rfl⟩
    have hi := intentById_of_mem hm
    split at hi <;> simp_all
  | none =>
    cases h' : (db.updateIntent loaded dirty now).intentById id with
    | none => rfl
    | some q =>
      obtain ⟨hq, rfl⟩ := intentById_some h'
      obtain ⟨p, hp, rfl⟩ := mem_updateIntent.mp hq
      have hne := intentById_none h hp
      split at hne <;> simp_all

@[simp] theorem references_updateIntent (r : Option String) :
    (db.updateIntent loaded dirty now).references r = db.references r := by
  cases r <;> simp [Db.references, intentById_updateIntent]

@[simp] theorem references_post (r : Option String) :
    (db.post es).references r = db.references r := by
  cases r <;> rfl

theorem references_some : db.references (some id) = true ↔ ∃ p ∈ db.paymentIntents, p.id = id := by
  constructor
  · intro h
    obtain ⟨p, hp⟩ := Option.isSome_iff_exists.mp h
    exact ⟨p, intentById_some hp⟩
  · rintro ⟨p, hp, rfl⟩
    simp [Db.references, intentById_of_mem hp]

theorem unnamed_of_unknown (h : ∀ e ∈ db.ledgerEntries, db.references e.paymentIntentId = true)
    (hid : ∀ p ∈ db.paymentIntents, p.id ≠ id) :
    ∀ e ∈ db.ledgerEntries, e.paymentIntentId ≠ some id := by
  intro e he heq
  have href := h e he
  rw [heq] at href
  obtain ⟨p, hp, rfl⟩ := references_some.mp href
  exact hid p hp rfl

theorem references_of_mem (h : p ∈ db.paymentIntents) : db.references (some p.id) = true :=
  references_some.mpr ⟨p, h, rfl⟩

theorem references_congr (h : db'.paymentIntents = db.paymentIntents) (r : Option String) :
    db'.references r = db.references r := by
  cases r <;> simp [Db.references, Db.intentById, h]

theorem references_mono (h : ∀ p ∈ db.paymentIntents, ∃ q ∈ db'.paymentIntents, q.id = p.id)
    {r : Option String} (hr : db.references r = true) : db'.references r = true := by
  cases r with
  | none => rfl
  | some id =>
    obtain ⟨p, hp, rfl⟩ := references_some.mp hr
    obtain ⟨q, hq, hid⟩ := h p hp
    exact references_some.mpr ⟨q, hq, hid⟩

end update

theorem commit_cons (s : Stmt) (t : List Stmt) : commit (s :: t) db =
    match s.apply db with
    | .ok db' => commit t db'
    | .error e => .error e := rfl

theorem commit_append (t u : List Stmt) : commit (t ++ u) db =
    match commit t db with
    | .ok db' => commit u db'
    | .error e => .error e := by
  induction t generalizing db with
  | nil => rfl
  | cons s t ih =>
    rw [List.cons_append, commit_cons, commit_cons]
    cases s.apply db with
    | ok db' => exact ih
    | error e => rfl

theorem commit_booking {loaded dirty : PaymentIntent} {now : Instant} {es : List LedgerEntry}
    (hl : db.references (some loaded.id) = true)
    (hes : ∀ e ∈ es, e.paymentIntentId = some loaded.id) :
    commit [.updateIntent loaded dirty now, .insertEntries es] db =
      .ok ((db.updateIntent loaded dirty now).post es) := by
  have hall : es.all (fun e =>
      (db.updateIntent loaded dirty now).references e.paymentIntentId) = true := by
    simpa using fun e he => by rw [hes e he]; exact hl
  simp only [commit, Stmt.apply, hall, if_true]

theorem commit_creation {row : PaymentIntent} {es : List LedgerEntry}
    (hes : ∀ e ∈ es, e.paymentIntentId = some row.id) :
    commit [.insertIntent row, .insertEntries es] db =
      match db.paymentIntents.insert row with
      | some t => .ok ({ db with paymentIntents := t }.post es)
      | none => .error .integrityError := by
  cases h : db.paymentIntents.insert row with
  | none => simp [commit, Stmt.apply, h]
  | some t =>
    have hr : ({ db with paymentIntents := t } : Db).references (some row.id) = true :=
      references_of_mem ((Table.mem_insert h).mpr (.inr rfl))
    have hall : es.all (fun e =>
        ({ db with paymentIntents := t } : Db).references e.paymentIntentId) = true := by
      simpa using fun e he => by rw [hes e he]; exact hr
    simp only [commit, Stmt.apply, h, hall, if_true]

end SixGateway.Queries
