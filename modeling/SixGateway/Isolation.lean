import SixGateway.Library.Isolation
import SixGateway.Transactions

namespace SixGateway.Isolation

open Library Models Errors Database Schemas StripeClient LedgerService PaymentService
open CheckoutService Webhook Queries Bookings Gateway Outcomes Sessions Concurrency Transactions

/-- The store falls into parts: what belongs to an intent, and the record of an event. -/
inductive PartKey where
  | intent (id : Option String)
  | event (id : String)
  deriving DecidableEq

structure Part where
  row : Option PaymentIntent
  entries : List LedgerEntry
  sessions : List CheckoutSession
  event : Option WebhookEvent

def part : PartKey → Db → Part
  | .intent id, db =>
    ⟨id.bind db.intentById, db.ledgerEntries.filter (fun e => decide (e.paymentIntentId = id)),
      db.checkoutSessions.select (fun s => decide (s.paymentIntentId = id)), none⟩
  | .event id, db => ⟨none, [], [], db.eventById id⟩

def intentNames (db : Db) : List (String × Option String) :=
  db.paymentIntents.rows.map (fun p => (p.id, p.stripePaymentIntentId))

def sessionNames (db : Db) : List (String × Option String) :=
  db.checkoutSessions.rows.map (fun s => (s.id, s.paymentIntentId))

/-- The intents and the sessions of a store are those of another, under the names they had. -/
structure SameNames (db₀ db : Db) : Prop where
  intents : intentNames db = intentNames db₀
  sessions : sessionNames db = sessionNames db₀

variable {db₀ db db' : Db} {id : String} {K : Set PartKey} {now : Instant}

section names

theorem SameNames.refl (db : Db) : SameNames db db := ⟨rfl, rfl⟩

theorem mem_intentNames {n : String × Option String} : n ∈ intentNames db ↔
    ∃ p ∈ db.paymentIntents, p.id = n.1 ∧ p.stripePaymentIntentId = n.2 := by
  simp only [intentNames, List.mem_map, Prod.ext_iff]
  rfl

theorem mem_sessionNames {n : String × Option String} : n ∈ sessionNames db ↔
    ∃ s ∈ db.checkoutSessions, s.id = n.1 ∧ s.paymentIntentId = n.2 := by
  simp only [sessionNames, List.mem_map, Prod.ext_iff]
  rfl

theorem session_eq_of_id {s s' : CheckoutSession} (hs : s ∈ db.checkoutSessions)
    (hs' : s' ∈ db.checkoutSessions) (h : s.id = s'.id) : s = s' :=
  Table.eq_of_key hs hs' (k := s.id) (by simp [Keyed.keys]) (by simp [Keyed.keys, h])

theorem SameNames.intentByStripeId (h : SameNames db₀ db) (stripeId : String) :
    db.intentByStripeId stripeId =
      (db₀.intentByStripeId stripeId).bind (fun p => db.intentById p.id) := by
  cases hl : db.intentByStripeId stripeId with
  | some q =>
    obtain ⟨hq, hs⟩ := intentByStripeId_some hl
    obtain ⟨p, hp, hid, hps⟩ := mem_intentNames.mp
      (h.intents ▸ mem_intentNames.mpr ⟨q, hq, rfl, hs⟩ : (q.id, some stripeId) ∈ intentNames db₀)
    rw [intentByStripeId_of_mem hp hps, Option.bind_some, hid, intentById_of_mem hq]
  | none =>
    cases hl₀ : db₀.intentByStripeId stripeId with
    | none => rfl
    | some p =>
      obtain ⟨hp, hs⟩ := intentByStripeId_some hl₀
      obtain ⟨q, hq, -, hqs⟩ := mem_intentNames.mp
        (h.intents ▸ mem_intentNames.mpr ⟨p, hp, rfl, hs⟩ : (p.id, some stripeId) ∈ intentNames db)
      exact absurd hqs (intentByStripeId_none hl hq)

theorem SameNames.sessionById_some (h : SameNames db₀ db) {sessionId : String}
    {cs : CheckoutSession} (hl : db.sessionById sessionId = some cs) :
    ∃ cs₀, db₀.sessionById sessionId = some cs₀ ∧ cs₀.paymentIntentId = cs.paymentIntentId := by
  obtain ⟨hs, rfl⟩ := Queries.sessionById_some hl
  obtain ⟨cs₀, hcs, hid, hpi⟩ := mem_sessionNames.mp
    (h.sessions ▸ mem_sessionNames.mpr ⟨cs, hs, rfl, rfl⟩ : (cs.id, cs.paymentIntentId) ∈
      sessionNames db₀)
  have hid : cs₀.id = cs.id := hid
  exact ⟨cs₀, hid ▸ sessionById_of_mem hcs, hpi⟩

theorem mem_sessions {pi : Option String} {cs : CheckoutSession} :
    cs ∈ (part (.intent pi) db).sessions ↔ cs ∈ db.checkoutSessions ∧ cs.paymentIntentId = pi := by
  simp [part, Table.select, Table.mem_def]

theorem SameNames.sessionById_agrees (h : SameNames db₀ db) {sessionId : String}
    (hK : ∀ cs, db₀.sessionById sessionId = some cs → .intent cs.paymentIntentId ∈ K)
    (ha : Agree part K db db') {cs : CheckoutSession} (hl : db.sessionById sessionId = some cs) :
    db'.sessionById sessionId = some cs := by
  obtain ⟨cs₀, hl₀, hpi⟩ := h.sessionById_some hl
  obtain ⟨hs, rfl⟩ := Queries.sessionById_some hl
  have hm : cs ∈ (part (.intent cs.paymentIntentId) db).sessions := mem_sessions.mpr ⟨hs, rfl⟩
  rw [ha _ (hpi ▸ hK cs₀ hl₀)] at hm
  exact sessionById_of_mem (mem_sessions.mp hm).1

end names

section statements

/-- A statement works within a footprint, among stores with the same names. -/
abbrev StmtWithin (db₀ : Db) (K : Set PartKey) (s : Stmt) : Prop :=
  Within Stmt.apply part (SameNames db₀) K s

theorem within_commit {t : List Stmt} (h : ∀ s ∈ t, StmtWithin db₀ K s) :
    Within commit part (SameNames db₀) K t := by
  induction t with
  | nil =>
    refine ⟨fun a b ha hab => ?_, fun a b _ hab k _ => ?_, fun a b _ _ hab => hab⟩
    · cases hab
      exact ha
    · cases hab
      rfl
  | cons s t ih =>
    have hs := h s List.mem_cons_self
    have ht := ih (fun s' hs' => h s' (List.mem_cons_of_mem _ hs'))
    refine ⟨fun a b ha hab => ?_, fun a b ha hab k hk => ?_, fun a b ha hb hag => ?_⟩
    · rw [commit_cons] at hab
      split at hab
      · next c hc => exact ht.keeps c b (hs.keeps a c ha hc) hab
      · cases hab
    · rw [commit_cons] at hab
      split at hab
      · next c hc =>
        exact (ht.frame c b (hs.keeps a c ha hc) hab k hk).trans (hs.frame a c ha hc k hk)
      · cases hab
    · have he := hs.agrees a b ha hb hag
      rw [commit_cons, commit_cons]
      cases hca : s.apply a with
      | ok c =>
        obtain ⟨d, hd, hcd⟩ := hs.ok ha hb hag.symm hca
        rw [hd]
        exact ht.agrees c d (hs.keeps a c ha hca) (hs.keeps b d hb hd) hcd.symm
      | error e =>
        rw [hs.error ha hb hag.symm hca]
        rfl

abbrev StmtRewrites (db₀ : Db) (k₀ : PartKey) (s : Stmt) (c : Part → Bool) (w : Part → Part)
    (e : Exn) : Prop := Rewrites Stmt.apply part (SameNames db₀) k₀ s c w e

theorem rewrites_updateIntent (loaded dirty : PaymentIntent) (now : Instant) :
    StmtRewrites db₀ (.intent (some loaded.id)) (.updateIntent loaded dirty now) (fun _ => true)
      (fun v => { v with row := v.row.map (loaded.flush dirty now) }) .integrityError where
  accepts a _ _ := ⟨_, rfl⟩
  refuses a _ h := by cases h
  keeps a b ha hab := by
    cases hab
    refine ⟨?_, ha.sessions⟩
    rw [← ha.intents]
    simp only [intentNames, Db.updateIntent, Table.modify, List.map_map]
    refine List.map_congr_left (fun p _ => ?_)
    simp only [Function.comp_apply]
    split <;> rfl
  own a b _ hab := by
    cases hab
    simp only [part, Option.bind_some, intentById_updateIntent]
    congr 1
    cases h : a.intentById loaded.id with
    | none => rfl
    | some p => simp [(intentById_some h).2]
  other a b _ hab k hk := by
    cases hab
    cases k with
    | event => rfl
    | intent id =>
      cases id with
      | none => rfl
      | some id =>
        simp only [part, Option.bind_some, intentById_updateIntent]
        congr 1
        cases h : a.intentById id with
        | none => rfl
        | some p =>
          have hne : p.id ≠ loaded.id := fun he => hk (by rw [← (intentById_some h).2, he])
          simp [hne]

theorem rewrites_insertEntries {es : List LedgerEntry}
    (hes : ∀ e ∈ es, e.paymentIntentId = some id) :
    StmtRewrites db₀ (.intent (some id)) (.insertEntries es) (fun v => es.isEmpty || v.row.isSome)
      (fun v => { v with entries := v.entries ++ es }) .integrityError where
  accepts a _ h := by
    have hall : es.all (fun e => a.references e.paymentIntentId) = true := by
      rw [List.all_eq_true]
      intro e he
      obtain h | h := Bool.or_eq_true .. |>.mp h
      · rw [List.isEmpty_iff.mp h] at he
        cases he
      · rw [hes e he]
        exact h
    exact ⟨_, if_pos hall⟩
  refuses a _ h := by
    obtain ⟨hne, hrow⟩ := Bool.or_eq_false_iff.mp h
    obtain ⟨e, he⟩ := List.exists_mem_of_ne_nil es (by simpa using hne)
    have hall : ¬ es.all (fun e => a.references e.paymentIntentId) = true := by
      intro hall
      have hr := List.all_eq_true.mp hall e he
      rw [hes e he] at hr
      exact Bool.false_ne_true (hrow.symm.trans hr)
    exact if_neg hall
  keeps a b ha hab := by
    simp only [Stmt.apply] at hab
    split at hab <;> cases hab
    exact ⟨ha.intents, ha.sessions⟩
  own a b _ hab := by
    simp only [Stmt.apply] at hab
    split at hab <;> cases hab
    have hf : es.filter (fun e => decide (e.paymentIntentId = some id)) = es :=
      List.filter_eq_self.mpr (fun e he => by simp [hes e he])
    simp only [part, ledgerEntries_post, List.filter_append, hf]
    rfl
  other a b _ hab k hk := by
    simp only [Stmt.apply] at hab
    split at hab <;> cases hab
    cases k with
    | event => rfl
    | intent id' =>
      have hf : es.filter (fun e => decide (e.paymentIntentId = id')) = [] :=
        List.filter_eq_nil_iff.mpr (fun e he => by
          have hne : some id ≠ id' := fun h => hk (congrArg PartKey.intent h.symm)
          simp [hes e he, hne])
      simp only [part, ledgerEntries_post, List.filter_append, hf, List.append_nil]
      rfl

theorem rewrites_updateSession (cs dirty : CheckoutSession) (now : Instant)
    (hn : (cs.id, cs.paymentIntentId) ∈ sessionNames db₀) :
    StmtRewrites db₀ (.intent cs.paymentIntentId) (.updateSession cs dirty now) (fun _ => true)
      (fun v => ⟨v.row, v.entries,
        v.sessions.map (fun s => if s.id = cs.id then cs.flush dirty now s else s), v.event⟩)
      .integrityError where
  accepts a _ _ := ⟨_, rfl⟩
  refuses a _ h := by cases h
  keeps a b ha hab := by
    cases hab
    refine ⟨ha.intents, ?_⟩
    rw [← ha.sessions]
    simp only [sessionNames, Db.updateSession, Table.modify, List.map_map]
    refine List.map_congr_left (fun p _ => ?_)
    simp only [Function.comp_apply]
    split <;> rfl
  own a b _ hab := by
    cases hab
    have hq : ((fun s : CheckoutSession => decide (s.paymentIntentId = cs.paymentIntentId)) ∘
        fun s => if s.id = cs.id then cs.flush dirty now s else s) =
        fun s => decide (s.paymentIntentId = cs.paymentIntentId) := by
      funext s
      simp only [Function.comp_apply]
      split <;> rfl
    simp only [part, Db.updateSession, Table.select, Table.modify, List.filter_map,
      decide_eq_true_eq, hq]
    rfl
  other a b ha hab k hk := by
    cases hab
    cases k with
    | event => rfl
    | intent id =>
      have hsel : (a.updateSession cs dirty now).checkoutSessions.select
          (fun s => decide (s.paymentIntentId = id)) =
          a.checkoutSessions.select (fun s => decide (s.paymentIntentId = id)) := by
        refine Table.select_modify (f := cs.flush dirty now) (fun _ => rfl) (fun s hs hid => ?_)
        obtain ⟨cs₀, hcs₀, h₀, hpi₀⟩ := mem_sessionNames.mp hn
        obtain ⟨t, ht, hid', hpi⟩ := mem_sessionNames.mp (ha.sessions ▸ hn)
        obtain rfl := session_eq_of_id hs ht ((of_decide_eq_true hid).trans hid'.symm)
        have hne : s.paymentIntentId ≠ id := fun he => hk (by rw [← he, hpi])
        exact ⟨decide_eq_false hne, decide_eq_false hne⟩
      simp only [part, hsel]
      rfl

theorem insertEvent_clash {a : Db} {row : WebhookEvent} :
    (∀ e ∈ a.webhookEvents, clash e row = false) ↔ a.eventById row.id = none := by
  constructor
  · intro h
    cases hl : a.eventById row.id with
    | none => rfl
    | some e =>
      obtain ⟨he, hid⟩ := eventById_some hl
      have hc := h e he
      rw [Table.clash_iff.mpr ⟨row.id, by simp [Keyed.keys, hid], by simp [Keyed.keys]⟩] at hc
      cases hc
  · intro h e he
    have hne := eventById_none h he
    rw [Bool.eq_false_iff]
    intro hc
    obtain ⟨k, hk, hk'⟩ := Table.clash_iff.mp hc
    simp only [Keyed.keys, List.mem_singleton] at hk hk'
    exact hne (hk.symm.trans hk')

theorem rewrites_insertEvent (row : WebhookEvent) :
    StmtRewrites db₀ (.event row.id) (.insertEvent row) (fun v => v.event.isNone)
      (fun v => ⟨v.row, v.entries, v.sessions, some row⟩) .integrityError where
  accepts a _ h := by
    obtain ⟨t, ht⟩ := Table.insert_isSome (insertEvent_clash.mpr (Option.isNone_iff_eq_none.mp h))
    exact ⟨{ a with webhookEvents := t }, by simp only [Stmt.apply, ht]⟩
  refuses a _ h := by
    cases ht : a.webhookEvents.insert row with
    | none => simp only [Stmt.apply, ht]
    | some t =>
      have hn := insertEvent_clash.mp (Table.insert_eq_some ht).2
      simp [part, hn] at h
  keeps a b ha hab := by
    simp only [Stmt.apply] at hab
    split at hab <;> cases hab
    exact ⟨ha.intents, ha.sessions⟩
  own a b _ hab := by
    simp only [Stmt.apply] at hab
    split at hab <;> cases hab
    next t ht =>
    have hm : ({ a with webhookEvents := t } : Db).eventById row.id = some row :=
      Table.find?_eq ((Table.mem_insert ht).mpr (.inr rfl)) (k := row.id) (by simp [Keyed.keys])
        (by simp [Keyed.keys, eq_comm])
    simp only [part, hm]
  other a b _ hab k hk := by
    simp only [Stmt.apply] at hab
    split at hab <;> cases hab
    next t ht =>
    cases k with
    | intent id => rfl
    | event id =>
      have hne : row.id ≠ id := fun he => hk (congrArg PartKey.event he.symm)
      simp [part, Db.eventById, Table.find?, (Table.insert_eq_some ht).1, List.find?_append, hne]

theorem rewrites_modifyEvent (id : String) (f : WebhookEvent → WebhookEvent)
    (hf : ∀ e, (f e).id = e.id) {s : Stmt} (hs : ∀ a, s.apply a = .ok ⟨a.paymentIntents,
      a.ledgerEntries, a.checkoutSessions, a.webhookEvents.modify (fun e => decide (e.id = id)) f
        (fun e => congrArg (fun v => [v]) (hf e))⟩) :
    StmtRewrites db₀ (.event id) s (fun _ => true)
      (fun v => ⟨v.row, v.entries, v.sessions, v.event.map f⟩) .integrityError where
  accepts a _ h := ⟨_, hs a⟩
  refuses a _ h := by cases h
  keeps a b ha hab := by
    rw [hs] at hab
    cases hab
    exact ⟨ha.intents, ha.sessions⟩
  own a b _ hab := by
    rw [hs] at hab
    cases hab
    have hm := Table.find?_modify (t := a.webhookEvents) (p := fun e => decide (e.id = id))
      (q := fun e => decide (e.id = id)) (fun e => congrArg (fun v => [v]) (hf e))
      (fun e => by simp only [hf])
    simp only [part, Db.eventById, hm]
    congr 1
    cases h : a.eventById id with
    | none => simp only [Db.eventById] at h; simp [h]
    | some e =>
      have hid := (eventById_some h).2
      simp only [Db.eventById] at h
      simp [h, hid]
  other a b _ hab k hk := by
    rw [hs] at hab
    cases hab
    cases k with
    | intent id' => rfl
    | event id' =>
      have hm := Table.find?_modify (t := a.webhookEvents) (p := fun e => decide (e.id = id))
        (q := fun e => decide (e.id = id')) (fun e => congrArg (fun v => [v]) (hf e))
        (fun e => by simp only [hf])
      simp only [part, Db.eventById, hm]
      congr 1
      cases h : a.eventById id' with
      | none => simp only [Db.eventById] at h; simp [h]
      | some e =>
        have hne : e.id ≠ id := fun he => hk (by rw [← (eventById_some h).2, he])
        simp only [Db.eventById] at h
        simp [h, hne]

end statements

section handlers

variable {α : Type} {env : Env} {event : StripeEvent}

/-- A handler that works within a footprint, among stores with the same names. -/
abbrev Confined (db₀ : Db) (K : Set PartKey) (p : Service α) : Prop :=
  Program.Confined commit part (SameNames db₀) K p

theorem within_updated {loaded dirty : PaymentIntent} {es : List LedgerEntry}
    (hK : .intent (some loaded.id) ∈ K) (hes : ∀ e ∈ es, e.paymentIntentId = some loaded.id) :
    ∀ s ∈ [Stmt.updateIntent loaded dirty now, .insertEntries es], StmtWithin db₀ K s := by
  intro s hs
  obtain rfl | rfl := List.mem_pair.mp hs
  · exact (rewrites_updateIntent loaded dirty now).within hK
  · exact (rewrites_insertEntries hes).within hK

theorem confined_refresh {p : PaymentIntent} (hK : .intent (some p.id) ∈ K) :
    Confined db₀ K (refresh p) := by
  refine ⟨fun a b _ _ hab => ?_, fun _ _ => trivial⟩
  have hrow : a.intentById p.id = b.intentById p.id := congrArg Part.row (hab _ hK)
  exact congrArg (fun o => Program.ret (Option.getD o p)) hrow

theorem confined_byId {f : Option PaymentIntent → Service α} (hK : .intent (some id) ∈ K)
    (hf : ∀ o, (∀ p, o = some p → p.id = id) → Confined db₀ K (f o)) :
    Confined db₀ K (.read fun db => f (db.intentById id)) := by
  refine ⟨fun a b _ _ hab => ?_, fun a _ => hf _ (fun p hp => (intentById_some hp).2)⟩
  exact congrArg f (congrArg Part.row (hab _ hK))

theorem confined_confirm (payload : PaymentIntentConfirm) (hK : .intent (some id) ∈ K) :
    Confined db₀ K (confirmIntent id payload env) := by
  refine confined_byId hK (fun o ho => ?_)
  cases o with
  | none => trivial
  | some p =>
    obtain rfl := ho p rfl
    simp only [confirmLoaded]
    split
    · trivial
    · split
      · trivial
      · intro r
        cases r with
        | error m => trivial
        | ok o =>
          simp only [confirmAnswered]
          split
          · trivial
          · refine ⟨within_commit (fun s hs => ?_), confined_refresh hK⟩
            obtain rfl := List.mem_singleton.mp hs
            exact (rewrites_updateIntent _ _ _).within hK

variable [StrLower]

theorem confined_cancel (payload : PaymentIntentCancel) (hK : .intent (some id) ∈ K) :
    Confined db₀ K (cancelIntent id payload env) := by
  refine confined_byId hK (fun o ho => ?_)
  cases o with
  | none => trivial
  | some p =>
    obtain rfl := ho p rfl
    simp only [cancelLoaded]
    split
    · trivial
    · split
      · trivial
      · split
        · trivial
        · intro r
          cases r with
          | error m => trivial
          | ok o =>
            simp only [cancelAnswered]
            split
            · trivial
            · obtain hn | hn := Int.lt_or_le 0 p.amount
              · rw [record_reversal hn]
                exact ⟨within_commit (within_updated hK (fun _ => intent_of_reversal)),
                  confined_refresh hK⟩
              · rw [recordTransaction_pair_error _ _ _ _ hn]
                trivial

theorem confined_refund (key : String) (amount : Option Int) (reason : Option String)
    (hK : .intent (some id) ∈ K) : Confined db₀ K (refundIntent id key amount reason env) := by
  refine confined_byId hK (fun o ho => ?_)
  cases o with
  | none => trivial
  | some p =>
    obtain rfl := ho p rfl
    simp only [refundLoaded]
    split
    · trivial
    · split
      · trivial
      · split
        · trivial
        · split
          · trivial
          · next hn =>
            obtain ⟨hpos, -⟩ := not_or.mp hn
            intro r
            cases r with
            | error m => trivial
            | ok o =>
              simp only [refundAnswered, record_refund p (Int.not_le.mp hpos)]
              exact ⟨within_commit (within_updated hK (fun _ => intent_of_refund)),
                confined_refresh hK⟩

omit [StrLower] in
theorem confined_open (hK : ∀ cs, db₀.sessionById id = some cs → .intent cs.paymentIntentId ∈ K) :
    Confined db₀ K (getOpenSession id env) := by
  have hfound : ∀ a b, SameNames db₀ a → SameNames db₀ b → Agree part K a b →
      a.sessionById id = b.sessionById id := by
    intro a b ha hb hab
    cases hl : a.sessionById id with
    | some cs => exact (ha.sessionById_agrees hK hab hl).symm
    | none =>
      cases hl' : b.sessionById id with
      | none => rfl
      | some cs => exact absurd (hl.symm.trans (hb.sessionById_agrees hK hab.symm hl')) (by simp)
  refine ⟨fun a b ha hb hab => congrArg (openLoaded id env) (hfound a b ha hb hab), fun a ha => ?_⟩
  change Confined db₀ K (openLoaded id env (a.sessionById id))
  cases hl : a.sessionById id with
  | none => trivial
  | some cs =>
    simp only [openLoaded]
    split
    · obtain ⟨cs₀, hl₀, hpi⟩ := ha.sessionById_some hl
      obtain ⟨hs, rfl⟩ := Queries.sessionById_some hl
      have hn : (cs.id, cs.paymentIntentId) ∈ sessionNames db₀ :=
        ha.sessions ▸ mem_sessionNames.mpr ⟨cs, hs, rfl, rfl⟩
      refine ⟨within_commit (fun s hs => ?_), fun b c hb hc hbc => ?_, fun _ _ => trivial⟩
      · obtain rfl := List.mem_singleton.mp hs
        exact (rewrites_updateSession cs _ _ hn).within (hpi ▸ hK cs₀ hl₀)
      · exact congrArg (fun o => Program.ret (Option.getD o cs)) (hfound b c hb hc hbc)
    · trivial

section delivery

variable {work : List Stmt}

omit [StrLower] in
theorem within_noted (hev : .event event.id ∈ K) (message : String) :
    StmtWithin db₀ K (.setProcessingError event.id message) :=
  (rewrites_modifyEvent event.id (fun e => { e with processingError := some message })
    (fun _ => rfl) (fun _ => rfl)).within hev

omit [StrLower] in
theorem within_stamped (hev : .event event.id ∈ K) (now : Instant) :
    StmtWithin db₀ K (.setProcessedAt event.id now) :=
  (rewrites_modifyEvent event.id (fun e => { e with processedAt := some now })
    (fun _ => rfl) (fun _ => rfl)).within hev

omit [StrLower] in
theorem within_append {s : Stmt} (hw : ∀ s ∈ work, StmtWithin db₀ K s) (hs : StmtWithin db₀ K s) :
    ∀ s' ∈ work ++ [s], StmtWithin db₀ K s' := by
  intro s' hs'
  obtain h | h := List.mem_append.mp hs'
  · exact hw s' h
  · obtain rfl := List.mem_singleton.mp h
    exact hs

omit [StrLower] in
theorem confined_failed (hev : .event event.id ∈ K) (exn : Exn) :
    Confined db₀ K (failed event exn : Service α) := by
  refine ⟨fun a b _ _ hab => congrArg (failedLooked event exn) (congrArg Part.event (hab _ hev)),
    fun a _ => ?_⟩
  change Confined db₀ K (failedLooked event exn (a.eventById event.id))
  cases a.eventById event.id with
  | none => trivial
  | some e => exact ⟨within_commit (@within_append _ _ [] _ (by simp) (within_noted hev _)), trivial⟩

omit [StrLower] in
theorem confined_finish (hev : .event event.id ∈ K) (hw : ∀ s ∈ work, StmtWithin db₀ K s) :
    Confined db₀ K (finish event env work) :=
  ⟨within_commit (within_append hw (within_stamped hev _)), trivial⟩

omit [StrLower] in
theorem confined_dispatchSession (hev : .event event.id ∈ K) (hK : .intent (some id) ∈ K)
    (hw : ∀ s ∈ work, StmtWithin db₀ K s) {found : Except Exn (Option CheckoutSession)}
    (hf : ∀ cs, found = .ok (some cs) → cs.paymentIntentId = some id ∧
      (cs.id, cs.paymentIntentId) ∈ sessionNames db₀) :
    Confined db₀ K (dispatchSession event env work found) := by
  cases found with
  | error e => exact confined_failed hev e
  | ok found =>
    cases found with
    | none => exact confined_finish hev hw
    | some cs =>
      obtain ⟨hpi, hn⟩ := hf cs rfl
      simp only [dispatchSession, completeLoaded]
      split
      · refine ⟨within_commit (within_append hw ?_), confined_finish hev (by simp)⟩
        exact (rewrites_updateSession cs _ _ hn).within (hpi ▸ hK)
      · exact confined_finish hev hw

theorem confined_dispatchLoaded (hev : .event event.id ∈ K)
    (hw : ∀ s ∈ work, StmtWithin db₀ K s) (n : Int) {o : Option PaymentIntent}
    (ho : ∀ p, o = some p → .intent (some p.id) ∈ K) :
    Confined db₀ K (dispatchLoaded event env work n o) := by
  cases o with
  | none => exact confined_finish hev hw
  | some p =>
    have hK := ho p rfl
    simp only [dispatchLoaded]
    split
    · next e _ => exact confined_failed hev e
    · next stmts hs =>
      have hstmts : ∀ s ∈ work ++ stmts, StmtWithin db₀ K s := by
        simp only [applySucceeded] at hs
        intro s hm
        obtain h | h := List.mem_append.mp hm
        · exact hw s h
        · split at hs
          · cases hs
            cases h
          · obtain hpos | hle := Int.lt_or_le 0 n
            · rw [record_capture p hpos] at hs
              cases hs
              exact within_updated hK (fun _ => intent_of_capture) s h
            · rw [recordTransaction_pair_error _ _ _ _ hle] at hs
              cases hs
      refine ⟨fun a b _ _ hab => ?_, fun a ha => ?_⟩
      · have hsess : a.sessionsByIntent p.id = b.sessionsByIntent p.id :=
          congrArg Part.sessions (hab _ hK)
        exact congrArg (fun l => dispatchSession event env (work ++ stmts) (scalarOneOrNone l)) hsess
      · refine confined_dispatchSession hev hK hstmts (fun cs hcs => ?_)
        obtain ⟨hm, hpi⟩ := findByPaymentIntent_some hcs
        exact ⟨hpi, ha.sessions ▸ mem_sessionNames.mpr ⟨cs, hm, rfl, rfl⟩⟩

theorem confined_dispatch (hev : .event event.id ∈ K) (hw : ∀ s ∈ work, StmtWithin db₀ K s)
    (hK : event.type = "payment_intent.succeeded" → ∀ stripeId p, event.object.id = some stripeId →
      db₀.intentByStripeId stripeId = some p → .intent (some p.id) ∈ K) :
    Confined db₀ K (dispatch event env work) := by
  unfold dispatch
  split
  · next ht =>
    split
    · exact confined_failed hev _
    · next stripeId hid =>
      split
      · next e _ => exact confined_failed hev e
      · next n _ =>
        have hrow : ∀ a b, SameNames db₀ a → SameNames db₀ b → Agree part K a b →
            a.intentByStripeId stripeId = b.intentByStripeId stripeId := by
          intro a b ha hb hab
          rw [ha.intentByStripeId, hb.intentByStripeId]
          cases hl : db₀.intentByStripeId stripeId with
          | none => rfl
          | some p => exact congrArg Part.row (hab _ (hK ht stripeId p hid hl))
        refine ⟨fun a b ha hb hab => ?_, fun a ha => confined_dispatchLoaded hev hw n ?_⟩
        · exact congrArg (dispatchLoaded event env work n) (hrow a b ha hb hab)
        · intro p hp
          rw [ha.intentByStripeId] at hp
          obtain ⟨p₀, hp₀, hp⟩ := Option.bind_eq_some_iff.mp hp
          rw [(intentById_some hp).2]
          exact hK ht stripeId p₀ hid hp₀
  · exact confined_finish hev hw

theorem confined_deliver (hev : .event event.id ∈ K)
    (hK : event.type = "payment_intent.succeeded" → ∀ stripeId p, event.object.id = some stripeId →
      db₀.intentByStripeId stripeId = some p → .intent (some p.id) ∈ K) :
    Confined db₀ K (stripeWebhook event env) := by
  refine ⟨fun a b _ _ hab => congrArg (webhookLooked event env) (congrArg Part.event (hab _ hev)),
    fun a _ => ?_⟩
  change Confined db₀ K (webhookLooked event env (a.eventById event.id))
  cases a.eventById event.id with
  | none =>
    exact confined_dispatch hev (@within_append _ _ [] _ (by simp)
      ((rewrites_insertEvent (received event)).within hev)) hK
  | some existing =>
    simp only [webhookLooked]
    split
    · trivial
    · exact confined_dispatch hev (by simp) hK

end delivery

end handlers

section contents

/-- Two stores with the same rows and the same journal of every intent. The ledger as a whole and
the event records are in the order in which they were committed. -/
structure SameContents (db db' : Db) : Prop where
  intents : db.paymentIntents.rows = db'.paymentIntents.rows
  journals : ∀ id : Option String,
    db.ledgerEntries.filter (fun e => decide (e.paymentIntentId = id)) =
      db'.ledgerEntries.filter (fun e => decide (e.paymentIntentId = id))
  ledger : db.ledgerEntries.Perm db'.ledgerEntries
  sessions : db.checkoutSessions.rows = db'.checkoutSessions.rows
  events : db.webhookEvents.rows.Perm db'.webhookEvents.rows

theorem rows_eq {ρ ν : Type} {f : ρ → ν} {l m : List ρ} (hn : l.map f = m.map f)
    (h : ∀ r ∈ l, ∀ s ∈ m, f r = f s → r = s) : l = m := by
  induction l generalizing m with
  | nil => simpa using hn.symm
  | cons r l ih =>
    cases m with
    | nil => cases hn
    | cons s m =>
      obtain ⟨hrs, hlm⟩ := List.cons.inj hn
      rw [h r List.mem_cons_self s List.mem_cons_self hrs, ih hlm (fun a ha b hb =>
        h a (List.mem_cons_of_mem _ ha) b (List.mem_cons_of_mem _ hb))]

theorem nodup_rows {ρ κ : Type} [DecidableEq κ] [Keyed ρ κ] (t : Table ρ)
    (hk : ∀ r : ρ, Keyed.keys r ≠ []) : t.rows.Nodup := by
  refine t.unique.imp (fun {r s} hrs he => ?_)
  subst he
  obtain ⟨k, hk⟩ := List.exists_mem_of_ne_nil _ (hk r)
  rw [Table.clash_iff.mpr ⟨k, hk, hk⟩] at hrs
  cases hrs

theorem mem_events_of_part (h : part (.event id) db = part (.event id) db') {e : WebhookEvent}
    (he : e ∈ db.webhookEvents) (hid : e.id = id) : e ∈ db'.webhookEvents := by
  have hl : db.eventById id = some e :=
    Table.find?_eq he (k := e.id) (by simp [Keyed.keys]) (by simp [Keyed.keys, hid, eq_comm])
  have hl' : db.eventById id = db'.eventById id := congrArg Part.event h
  exact (eventById_some (hl' ▸ hl)).1

theorem sameContents_of_parts (hdb : SameNames db₀ db) (hdb' : SameNames db₀ db')
    (h : ∀ k, part k db = part k db') : SameContents db db' where
  intents := by
    refine rows_eq (hdb.intents.trans hdb'.intents.symm) (fun p hp q hq hpq => ?_)
    have hid : p.id = q.id := congrArg Prod.fst hpq
    have hrow : db.intentById p.id = db'.intentById p.id :=
      congrArg Part.row (h (.intent (some p.id)))
    rw [intentById_of_mem hp, hid, intentById_of_mem hq] at hrow
    exact Option.some.inj hrow
  journals id := congrArg Part.entries (h (.intent id))
  ledger := by
    rw [List.perm_iff_count]
    intro e
    have he := congrArg Part.entries (h (.intent e.paymentIntentId))
    simp only [part] at he
    have hc := congrArg (List.count e) he
    rwa [List.count_filter (by simp), List.count_filter (by simp)] at hc
  sessions := by
    refine rows_eq (hdb.sessions.trans hdb'.sessions.symm) (fun s hs t ht hst => ?_)
    obtain ⟨hid, hpi⟩ := Prod.mk.inj hst
    have hm : s ∈ (part (.intent s.paymentIntentId) db).sessions := mem_sessions.mpr ⟨hs, rfl⟩
    rw [h] at hm
    exact session_eq_of_id (mem_sessions.mp hm).1 ht hid
  events := by
    have hk : ∀ e : WebhookEvent, Keyed.keys e ≠ [] := fun e => by simp [Keyed.keys]
    rw [List.perm_ext_iff_of_nodup (nodup_rows _ hk) (nodup_rows _ hk)]
    intro e
    exact ⟨fun he => mem_events_of_part (h (.event e.id)) he rfl,
      fun he => mem_events_of_part (h (.event e.id)).symm he rfl⟩

end contents

section requests

variable [StrLower]

/-- The parts that a request reads or writes, by the names that are in the store it finds. -/
def footprint (db : Db) : Op → Set PartKey
  | .confirmIntent id _ | .cancelIntent id _ | .refundIntent id _ _ _ => {.intent (some id)}
  | .getOpenSession id => {k | ∃ cs, db.sessionById id = some cs ∧ k = .intent cs.paymentIntentId}
  | .deliver event => {k | k = .event event.id ∨
      (event.type = "payment_intent.succeeded" ∧ ∃ stripeId p, event.object.id = some stripeId ∧
        db.intentByStripeId stripeId = some p ∧ k = .intent (some p.id))}
  | .createIntent .. | .createSession .. => Set.univ

def Existing : Op → Prop
  | .createIntent .. | .createSession .. => False
  | .confirmIntent .. | .cancelIntent .. | .refundIntent .. | .getOpenSession .. | .deliver .. =>
    True

theorem op_confined {op : Op} (h : Existing op) (db : Db) (env : Env) :
    Confined db (footprint db op) (op.program env) := by
  cases op with
  | createIntent => exact h.elim
  | createSession => exact h.elim
  | confirmIntent id payload =>
    exact (confined_confirm payload (Set.mem_singleton _)).bind (fun _ => trivial)
  | cancelIntent id payload =>
    exact (confined_cancel payload (Set.mem_singleton _)).bind (fun _ => trivial)
  | refundIntent id key amount reason =>
    exact (confined_refund key amount reason (Set.mem_singleton _)).bind (fun _ => trivial)
  | getOpenSession id =>
    have hK : ∀ cs, db.sessionById id = some cs →
        .intent cs.paymentIntentId ∈ footprint db (.getOpenSession id) :=
      fun cs hcs => ⟨cs, hcs, rfl⟩
    exact (confined_open hK).bind (fun _ => trivial)
  | deliver event =>
    have hev : .event event.id ∈ footprint db (.deliver event) := .inl rfl
    exact (confined_deliver hev (fun ht stripeId p hid hp =>
      .inr ⟨ht, stripeId, p, hid, hp, rfl⟩)).bind (fun _ => trivial)

/-- A request as a job: its handler, what Stripe answers it, and what it works on. -/
def jobOf (db : Db) (r : Request) : Job Db StripeCall StripeAnswer (List Stmt) Exn Reply PartKey :=
  ⟨r.op.program r.env, r.answer, footprint db r.op⟩

/-- Requests of which none creates anything and no two work on a common part of the store. -/
structure Independent (db : Db) (rs : List Request) : Prop where
  existing : ∀ r ∈ rs, Existing r.op
  disjoint : rs.Pairwise (fun a b => Disjoint (footprint db a.op) (footprint db b.op))

variable {rs order : List Request} {calls : List (StripeCall × StripeAnswer)} {ls : List Label}
  {st : Handlers Reply}

theorem Independent.apart (h : Independent db rs) :
    Apart commit part (SameNames db) (rs.map (jobOf db)) where
  confined j hj := by
    obtain ⟨r, hr, rfl⟩ := List.mem_map.mp hj
    exact op_confined (h.existing r hr) db r.env
  disjoint := List.pairwise_map.mpr h.disjoint

abbrev takenUp (db : Db) (calls : List (StripeCall × StripeAnswer)) (rs : List Request) :
    Handlers Reply := serving db calls (rs.map (fun r => (r.op, r.env)))

theorem started_jobs (db₀ db : Db) (calls : List (StripeCall × StripeAnswer)) (rs : List Request) :
    started (rs.map (jobOf db₀)) db calls = takenUp db calls rs := by
  simp only [started, serving, List.map_map]
  rfl

theorem serial_jobs (db₀ : Db) (w : World) (rs : List Request) :
    serial commit (rs.map (jobOf db₀)) w.db = (w.afterAll rs).db := by
  induction rs generalizing w with
  | nil => rfl
  | cons r rs ih => exact ih (w.after r)

/-- Requests that work on different intents do not interfere: however their steps interleave, once
all have come to their ends the store has the rows it has after serving them one by one, in
whatever order, and each request has made the same calls and got the same reply. -/
theorem independent_serializable (h : Independent db rs)
    (hr : Run.run (Pool.step commit) (takenUp db calls rs) ls = some st)
    (ha : ∀ (i : Nat) (r : Request), rs[i]? = some r →
      Run.Along (Pool.step commit) (Pool.AnsweredBy i r.answer) (takenUp db calls rs) ls)
    (hend : st.Ended) (ho : order.Perm rs) :
    SameContents st.store ((⟨db, calls⟩ : World).afterAll order).db ∧
    ∀ (i : Nat) (r : Request), rs[i]? = some r → ∀ pre post, order = pre ++ r :: post →
      ∃ p, st.threads[i]? = some p ∧
        p.result? = some (r.outcome ((⟨db, calls⟩ : World).afterAll pre)).result ∧
        Pool.callsOf commit i (takenUp db calls rs) ls =
          (r.outcome ((⟨db, calls⟩ : World).afterAll pre)).calls := by
  have hjobs := h.apart
  have hperm : (order.map (jobOf db)).Perm (rs.map (jobOf db)) := ho.map _
  rw [← started_jobs db] at hr
  have hans : ∀ (i : Nat) j, (rs.map (jobOf db))[i]? = some j →
      Run.Along (Pool.step commit) (Pool.AnsweredBy i j.answer)
        (started (rs.map (jobOf db)) db calls) ls := by
    intro i j hj
    rw [List.getElem?_map] at hj
    obtain ⟨r, hri, rfl⟩ := Option.map_eq_some_iff.mp hj
    rw [started_jobs]
    exact ha i r hri
  constructor
  · have hser := serial_jobs db ⟨db, calls⟩ order
    rw [← hser]
    have hpool : SameNames db st.store :=
      (Pool.run_confined (hjobs.started (SameNames.refl db) calls) hr).1.1
    have hserial : SameNames db (serial commit (order.map (jobOf db)) db) :=
      ((hjobs.perm hperm).serial_frame (SameNames.refl db)).1
    exact sameContents_of_parts hpool hserial
      (hjobs.serializable (SameNames.refl db) hr hans hend hperm)
  · rintro i r hri pre post rfl
    have hj : (rs.map (jobOf db))[i]? = some (jobOf db r) := by
      rw [List.getElem?_map, hri]
      rfl
    obtain ⟨p, hp, hres⟩ := hjobs.run_alone (SameNames.refl db) hr hj (hans i _ hj)
    obtain ⟨x, hx⟩ := hend p (List.mem_of_getElem? hp)
    obtain ⟨hxr, hcalls, -⟩ := hres x hx
    have hal := (hjobs.perm hperm)
    rw [List.map_append, List.map_cons] at hal
    obtain ⟨hr', hc', -⟩ := hal.serial_alone (SameNames.refl db)
    rw [serial_jobs db ⟨db, calls⟩] at hr' hc'
    refine ⟨p, hp, hx.trans (congrArg some ?_), ?_⟩
    · exact hxr.symm.trans hr'.symm
    · rw [← started_jobs db]
      exact hcalls.symm.trans hc'.symm

end requests

def orderOf (name : String) (status : PaymentIntentStatus) (amountReceived : Int) :
    PaymentIntent where
  id := "pi_local_" ++ name
  stripePaymentIntentId := some ("pi_" ++ name)
  idempotencyKey := "order-" ++ name
  amount := 2500
  currency := "cad"
  amountReceived := amountReceived
  status := status
  merchantId := some "mer_1"
  customerId := none
  description := none
  clientSecret := none
  paymentMetadata := []
  createdAt := 0
  updatedAt := 0

/-- One order that has been captured and one that waits for its payment. -/
def twoOrders : Db :=
  ⟨⟨[orderOf "a" .succeeded 2500, orderOf "b" .processing 0], by decide⟩, [], .empty, .empty⟩

def refundAndCapture : List Request := [
  ⟨.refundIntent "pi_local_a" "refund-1" (some 300) none, ⟨1, "i", "s", "r"⟩,
    fun _ => .ok ⟨"re_1", "succeeded", none⟩⟩,
  ⟨.deliver ⟨"evt_1", "payment_intent.succeeded", none, ⟨some "pi_b", some 2500, none⟩⟩,
    ⟨2, "i", "s", "c"⟩, fun _ => .error ""⟩]

theorem independent_refundAndCapture : Independent twoOrders refundAndCapture where
  existing r hr := by
    obtain rfl | rfl := List.mem_pair.mp hr <;> trivial
  disjoint := by
    refine List.pairwise_pair.mpr (Set.disjoint_left.mpr ?_)
    rintro k hk (rfl | ⟨-, stripeId, p, hid, hp, rfl⟩)
    · cases hk
    · obtain rfl : "pi_b" = stripeId := Option.some.inj hid
      have hb : (twoOrders.intentByStripeId "pi_b").map (fun p => p.id) = some "pi_local_b" := by
        decide +kernel
      rw [hp] at hb
      obtain hk : p.id = "pi_local_a" := Option.some.inj (PartKey.intent.inj hk)
      rw [Option.map_some, hk] at hb
      revert hb
      decide

/-- A refund of one order and the capture of the other, their steps in alternation. -/
theorem independent_serializable_two :
    let ls := [(0, .run), (1, .run), (0, .answer (.ok ⟨"re_1", "succeeded", none⟩)), (1, .run),
      (0, .run), (1, .run), (0, .run), (1, .run)]
    ∃ st, Run.run (Pool.step commit) (takenUp twoOrders [] refundAndCapture) ls = some st ∧
      SameContents st.store ((⟨twoOrders, []⟩ : World).afterAll refundAndCapture.reverse).db := by
  intro ls
  have hended : (Run.run (Pool.step commit) (takenUp twoOrders [] refundAndCapture) ls).map
      (fun st => st.threads.all (fun p => p.result?.isSome)) = some true := by decide +kernel
  obtain ⟨st, hst, hall⟩ := Option.map_eq_some_iff.mp hended
  refine ⟨st, hst, (independent_serializable independent_refundAndCapture hst ?_ ?_
    (List.reverse_perm _)).1⟩
  · intro i r hi
    match i, hi with
    | 0, hi =>
      cases hi
      decide +kernel
    | 1, hi =>
      cases hi
      decide +kernel
    | n + 2, hi => cases hi
  · exact fun p hp => Option.isSome_iff_exists.mp (List.all_eq_true.mp hall p hp)

end SixGateway.Isolation
