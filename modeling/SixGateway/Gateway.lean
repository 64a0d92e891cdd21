import SixGateway.Webhook
import SixGateway.Library.Run

namespace SixGateway.Gateway

open Library Models Errors Database Schemas StripeClient PaymentService CheckoutService Webhook

variable [StrLower]

inductive Op where
  | createIntent (payload : PaymentIntentCreate) (merchant : Option String)
  | confirmIntent (paymentIntentId : String) (payload : PaymentIntentConfirm)
  | cancelIntent (paymentIntentId : String) (payload : PaymentIntentCancel)
  | refundIntent (paymentIntentId idempotencyKey : String) (amount : Option Int)
      (reason : Option String)
  | createSession (merchant : String) (payload : CheckoutSessionCreate)
  | getOpenSession (sessionId : String)
  | deliver (event : StripeEvent)

/-- What a request that ended well returns. -/
inductive Reply where
  | intent (p : PaymentIntent)
  | session (cs : CheckoutSession)
  | webhook (r : WebhookReply)
  deriving DecidableEq

def Op.program : Op → Env → Service Reply
  | createIntent payload merchant, env =>
    (PaymentService.createIntent payload merchant env).bind (fun p => .ret (.intent p))
  | confirmIntent id payload, env =>
    (PaymentService.confirmIntent id payload env).bind (fun p => .ret (.intent p))
  | cancelIntent id payload, env =>
    (PaymentService.cancelIntent id payload env).bind (fun p => .ret (.intent p))
  | refundIntent id key amount reason, env =>
    (PaymentService.refundIntent id key amount reason env).bind (fun p => .ret (.intent p))
  | createSession merchant payload, env =>
    (CheckoutService.createSession merchant payload env).bind (fun cs => .ret (.session cs))
  | getOpenSession id, env =>
    (CheckoutService.getOpenSession id env).bind (fun cs => .ret (.session cs))
  | deliver event, env => (stripeWebhook event env).bind (fun r => .ret (.webhook r))

/-- One request as it is served: what is asked, what it draws from its surroundings, and what
Stripe would answer to each call it could make. -/
structure Request where
  op : Op
  env : Env
  answer : StripeCall → StripeAnswer

/-- The gateway's database, and the calls Stripe has answered so far. -/
structure World where
  db : Db
  calls : List (StripeCall × StripeAnswer)

def World.empty : World := ⟨.empty, []⟩

abbrev serve {α : Type} (answer : StripeCall → StripeAnswer) (p : Service α) (db : Db) :
    Outcome Db StripeCall StripeAnswer Exn α :=
  p.exec commit answer db

def Request.outcome (r : Request) (w : World) : Outcome Db StripeCall StripeAnswer Exn Reply :=
  serve r.answer (r.op.program r.env) w.db

def World.after (w : World) (r : Request) : World :=
  ⟨(r.outcome w).store, w.calls ++ (r.outcome w).calls⟩

/-- Requests served one after another, each to its end. -/
def World.afterAll (w : World) (rs : List Request) : World := rs.foldl World.after w

def Along (C : World → Request → Prop) (w : World) (rs : List Request) : Prop :=
  Run.Along (fun w r => some (World.after w r)) C w rs

instance (C : World → Request → Prop) [∀ w r, Decidable (C w r)] (w : World) (rs : List Request) :
    Decidable (Along C w rs) := Run.alongDecidable _ C w rs

variable {C D : World → Request → Prop} {I : World → Prop}

@[simp] theorem afterAll_nil (w : World) : w.afterAll [] = w := rfl

@[simp] theorem afterAll_cons (w : World) (r : Request) (rs : List Request) :
    w.afterAll (r :: rs) = (w.after r).afterAll rs := rfl

theorem afterAll_append (w : World) (rs qs : List Request) :
    w.afterAll (rs ++ qs) = (w.afterAll rs).afterAll qs := List.foldl_append

theorem along_cons (w : World) (r : Request) (rs : List Request) :
    Along C w (r :: rs) ↔ C w r ∧ Along C (w.after r) rs := by
  simp [Along, Run.Along]

theorem along_append (w : World) (rs qs : List Request) :
    Along C w (rs ++ qs) ↔ Along C w rs ∧ Along C (w.afterAll rs) qs := by
  simp [Along, Run.along_append, Run.run_total, World.afterAll]

theorem along_iff (w : World) (rs : List Request) :
    Along C w rs ↔ ∀ pre r post, rs = pre ++ r :: post → C (w.afterAll pre) r := by
  constructor
  · rintro h pre r post rfl
    exact ((along_cons ..).mp ((along_append ..).mp h).2).1
  · intro h
    induction rs generalizing w with
    | nil => trivial
    | cons r rs ih =>
      refine (along_cons ..).mpr ⟨h [] r rs rfl, ih (w.after r) (fun pre q post heq => ?_)⟩
      exact h (r :: pre) q post (by rw [heq, List.cons_append])

theorem along_mono (h : ∀ w r, C w r → D w r) {w : World} {rs : List Request} :
    Along C w rs → Along D w rs := Run.along_mono h w rs

theorem along_and {w : World} {rs : List Request} (hc : Along C w rs) (hd : Along D w rs) :
    Along (fun w r => C w r ∧ D w r) w rs := Run.along_and w rs hc hd

theorem afterAll_invariant (hI : ∀ w r, I w → C w r → I (w.after r)) {w : World}
    {rs : List Request} (hw : I w) (hc : Along C w rs) : I (w.afterAll rs) := by
  refine @Run.invariant _ _ (fun w r => some (World.after w r)) _ _ ?_ _ _ _ hw hc
    (Run.run_total World.after w rs)
  intro s l t hs hl ht
  cases ht
  exact hI s l hs hl

omit [StrLower] in
theorem serve_map {α β : Type} (answer : StripeCall → StripeAnswer) (p : Service α)
    (f : α → β) (db : Db) :
    serve answer (p.bind (fun a => .ret (f a))) db =
      ⟨(serve answer p db).store, (serve answer p db).calls, (serve answer p db).result.map f⟩ := by
  rw [serve, Program.exec_bind]
  cases h : (serve answer p db).result with
  | error e => rfl
  | ok a => simp only [Program.exec_ret, List.append_nil, Except.map]

section

variable (answer : StripeCall → StripeAnswer) (env : Env) (w : World)

theorem after_createIntent (payload : PaymentIntentCreate) (merchant : Option String) :
    (w.after ⟨.createIntent payload merchant, env, answer⟩).db =
      (serve answer (createIntent payload merchant env) w.db).store := by
  rw [World.after, Request.outcome, Op.program, serve_map]

theorem after_createSession (merchant : String) (payload : CheckoutSessionCreate) :
    (w.after ⟨.createSession merchant payload, env, answer⟩).db =
      (serve answer (createSession merchant payload env) w.db).store := by
  rw [World.after, Request.outcome, Op.program, serve_map]

theorem after_deliver (event : StripeEvent) :
    (w.after ⟨.deliver event, env, answer⟩).db =
      (serve answer (stripeWebhook event env) w.db).store := by
  rw [World.after, Request.outcome, Op.program, serve_map]

end

end SixGateway.Gateway
