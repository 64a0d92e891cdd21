import SixGateway.SessionSteps
import SixGateway.HostedPage
import SixGateway.StripeContract

namespace SixGateway.PagePrice

open Library Models Errors Database StripeClient PaymentService CheckoutService Queries Gateway
open Sessions Effects SessionEffects SessionSteps HostedPage StripeContract

/-- Every session is linked to an intent of its amount and its currency. -/
def Priced (db : Db) : Prop :=
  ∀ cs ∈ db.checkoutSessions, ∃ p ∈ db.paymentIntents,
    cs.paymentIntentId = some p.id ∧ p.amount = cs.amount ∧ p.currency = cs.currency

/-- The form shows the price of the intent of a session that can be paid, and embeds its secret. -/
def Charges (db : Db) (sessionId : String) (now : Instant) (args : OpenPage) : Prop :=
  ∃ cs ∈ db.checkoutSessions, cs.id = sessionId ∧ cs.status ≠ .completed ∧ now ≤ cs.expiresAt ∧
    ∃ p ∈ db.paymentIntents, cs.paymentIntentId = some p.id ∧ args.amountCents = p.amount ∧
      args.currency = p.currency ∧ p.clientSecret = some args.clientSecret

variable {db : Db} {env : Env} {answer : StripeCall → StripeAnswer} {page : Page}
  {pk sessionId secret : String}

theorem page_of_secret
    (h : (serve answer (hostedCheckoutPage pk sessionId env) db).result = .ok page)
    (hs : page.clientSecret? = some secret) :
    ∃ cs ∈ db.checkoutSessions, cs.id = sessionId ∧ cs.status = .opened ∧
      env.now ≤ cs.expiresAt ∧ ∃ p ∈ db.paymentIntents, cs.paymentIntentId = some p.id ∧
        truthy p.clientSecret = some secret ∧ page = openPage pk cs secret := by
  have ho : OpenOutcome sessionId env db (Program.exec commit answer _ db) :=
    getOpenSession_outcome sessionId
  rw [serve, hostedCheckoutPage, Program.exec_bind] at h
  generalize Program.exec commit answer (getOpenSession sessionId env) db = out at h ho
  cases ho with
  | missing => cases h
  | returned cs looked kept =>
    obtain ⟨hcs, hid⟩ := sessionById_some looked
    obtain ⟨live, id, p, linked, found, shown, hpage⟩ := clientSecret_sessionPage h hs
    obtain ⟨hp, rfl⟩ := intentById_some found
    have hnow : env.now ≤ cs.expiresAt := Int.not_lt.mp (fun past => kept ⟨live, past⟩)
    exact ⟨cs, hcs, hid, live, hnow, p, hp, linked, shown, hpage⟩
  | expired cs looked live past =>
    obtain ⟨hopen, -⟩ := clientSecret_sessionPage h hs
    simp [CheckoutSession.flush, live] at hopen

theorem priced_empty : Priced World.empty.db := fun _ hcs => absurd hcs Table.not_mem_empty

section

variable [StrLower] {w : World}

theorem priced_after (h : Priced w.db) (r : Request) : Priced (w.after r).db := by
  have hkept : ∀ cs ∈ w.db.checkoutSessions, ∃ p ∈ (w.after r).db.paymentIntents,
      cs.paymentIntentId = some p.id ∧ p.amount = cs.amount ∧ p.currency = cs.currency := by
    intro cs hcs
    obtain ⟨p, hp, hlink, hamount, hcurrency⟩ := h cs hcs
    obtain ⟨_, hq, _, _, _, _, rfl⟩ := row_continues (request_effect r w) hp
    exact ⟨_, hq, hlink, hamount, hcurrency⟩
  intro cs hcs
  cases session_step r w hcs with
  | kept member => exact hkept cs member
  | expired id asked old member live past row => exact row ▸ hkept old member
  | completed event asked p stored succeeded old member linked row => exact row ▸ hkept old member
  | opened merchant payload asked body valid store calls intent creates stored unlinked row =>
    obtain ⟨-, -, hamount, hcurrency⟩ := intentPayload_ok valid
    obtain ⟨-, hprice, hin⟩ := created_price creates
    subst row
    exact ⟨intent, stored, rfl, hprice.trans hamount, hin.trans hcurrency⟩

theorem priced_afterAll (rs : List Request) : Priced (World.empty.afterAll rs).db :=
  afterAll_invariant (I := fun w => Priced w.db) (C := fun _ _ => True)
    (fun _ r h _ => priced_after h r) priced_empty (Run.along_of_forall (fun _ _ => trivial) _ rs)

/-- Whatever requests came before, the page shows what the intent of the session will be charged,
or it embeds no secret. -/
theorem page_charges (rs : List Request) (pk sessionId : String) (env : Env)
    (answer : StripeCall → StripeAnswer) (page : Page)
    (h : (serve answer (hostedCheckoutPage pk sessionId env)
      (World.empty.afterAll rs).db).result = .ok page) :
    (∃ args, page = .form args ∧ Charges (World.empty.afterAll rs).db sessionId env.now args) ∨
      ((∀ args, page ≠ .form args) ∧ page.clientSecret? = none) := by
  cases page with
  | message statusCode args => exact .inr ⟨by simp, rfl⟩
  | form args =>
    obtain ⟨cs, hcs, hid, live, hnow, p, hp, linked, shown, hpage⟩ := page_of_secret h rfl
    obtain ⟨q, hq, hlink, hamount, hcurrency⟩ := priced_afterAll rs cs hcs
    obtain rfl := eq_of_id hq hp (Option.some.inj (hlink.symm.trans linked))
    have hargs : args = ⟨pk, _, cs.amount, cs.currency, _, _⟩ := Page.form.inj hpage
    exact .inl ⟨args, rfl, cs, hcs, hid, by simp [live], hnow, q, hq, hlink,
      (congrArg OpenPage.amountCents hargs).trans hamount.symm,
      (congrArg OpenPage.currency hargs).trans hcurrency.symm, truthy_some shown⟩

end

def ordered : List Request :=
  [⟨.createIntent order (some "mer_1"), clock 0, accepting .requiresAction⟩,
    ⟨.createSession "mer_1" checkout, clock 1, accepting .requiresAction⟩]

/-- The page of a session that was attached to an intent created before under the same key. -/
theorem page_charges_ordered :
    let args : OpenPage := ⟨"pk_test", "secret", 2500, "usd", none, none⟩
    (∃ shown, Page.form args = .form shown ∧
        Charges (World.empty.afterAll ordered).db "cs_s" (clock 2).now shown) ∨
      ((∀ shown, Page.form args ≠ .form shown) ∧ (Page.form args).clientSecret? = none) :=
  page_charges ordered "pk_test" "cs_s" (clock 2) (accepting .requiresAction) _ (by decide +kernel)

end SixGateway.PagePrice
