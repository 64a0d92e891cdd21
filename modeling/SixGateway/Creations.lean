import SixGateway.Concurrency
import SixGateway.Effects

namespace SixGateway.Creations

open Library Models Errors Database Schemas StripeClient PaymentService Queries Bookings Outcomes
open Gateway Concurrency

variable [StrLower]

inductive Creates (A : StripeCall → StripeAnswer → Prop) (payload : PaymentIntentCreate)
    (merchant : Option String) (env : Env) : List Stmt → Prop
  | mk (o : StripeObject) (answered : A (createCall payload) (.ok o))
      (status : PaymentIntentStatus) (parsed : PaymentIntentStatus.ofValue? o.status = some status) :
      Creates A payload merchant env
        [.insertIntent (newIntent payload merchant env o status),
          .insertEntries (accrual (newIntent payload merchant env o status) env)]

variable {A : StripeCall → StripeAnswer → Prop} {C : Db → List Stmt → Prop}
  {payload : PaymentIntentCreate} {merchant : Option String} {env : Env} {db db' : Db}
  {t : List Stmt}

theorem Creates.committed (h : Creates A payload merchant env t) (hc : commit t db = .ok db') :
    ∃ o status table, A (createCall payload) (.ok o) ∧
      PaymentIntentStatus.ofValue? o.status = some status ∧
      db.paymentIntents.insert (newIntent payload merchant env o status) = some table ∧
      db' = { db with paymentIntents := table }.post
        (accrual (newIntent payload merchant env o status) env) := by
  obtain ⟨o, answered, status, parsed⟩ := h
  rw [commit_creation (fun _ => intent_of_accrual)] at hc
  split at hc
  · next table inserted =>
    cases hc
    exact ⟨o, status, table, answered, parsed, inserted, rfl⟩
  · cases hc

theorem create_safe {G : Db → Db → Prop} {Post : PaymentIntent → Db → Prop}
    (found : ∀ p s s', p ∈ s.paymentIntents → p.idempotencyKey = payload.idempotencyKey →
      G s s' → Post p s')
    (refreshed : ∀ p s s' s'', p ∈ s.paymentIntents →
      p.idempotencyKey = payload.idempotencyKey → G s s' → G s' s'' →
      Post ((s'.intentById p.id).getD p) s'') (db : Db) :
    Program.Safe commit G A C (fun _ t => Creates A payload merchant env t) Post
      (createIntent payload merchant env) db := by
  intro db₁ _
  change Program.Safe commit G A C _ Post
    (createLooked payload merchant env (db₁.intentByKey payload.idempotencyKey)) db₁
  cases hl : db₁.intentByKey payload.idempotencyKey with
  | some existing =>
    obtain ⟨member, key⟩ := intentByKey_some hl
    simp only [createLooked]
    split
    · trivial
    · exact fun db₂ hg => found existing db₁ db₂ member key hg
  | none =>
    intro r hr
    cases r with
    | error m => trivial
    | ok o =>
      simp only [createAnswered]
      split
      · trivial
      · next status parsed =>
        rw [record_accrual]
        intro db₂ _
        have creates : Creates A payload merchant env _ := .mk o hr status parsed
        refine ⟨creates, fun _ db₃ hc db₄ hg db₅ hg' => ?_⟩
        rw [commit_creation (fun _ => intent_of_accrual)] at hc
        split at hc
        · next table inserted =>
          cases hc
          exact refreshed _ _ db₄ db₅ ((Table.mem_insert inserted).mpr (.inr rfl)) rfl hg hg'
        · cases hc

end SixGateway.Creations
