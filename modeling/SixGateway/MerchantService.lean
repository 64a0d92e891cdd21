import SixGateway.ApiKeyService
import SixGateway.Responses
import SixGateway.Library.Embedding

namespace SixGateway.MerchantService

open Library Models Errors Database StripeClient Api ApiKeyService Responses

/-- `repr` of a string. -/
class StrRepr where
  pyRepr : String → String

export StrRepr (pyRepr)

instance plainRepr : StrRepr where
  pyRepr s := "\x27" ++ s ++ "\x27"

/-- The whole database: the accounts and the payments. -/
structure Site where
  accounts : Accounts
  db : Db

def Site.empty : Site := ⟨⟨.empty, .empty⟩, .empty⟩

/-- A transaction. The insertion of a merchant comes with what its handler raises in place of an
`IntegrityError`. -/
inductive SiteStmt where
  | insertMerchant (row : Merchant) (refusal : Failure)
  | account (s : AccountStmt)
  | payment (t : List Stmt)

def SiteStmt.apply : SiteStmt → Site → Except Failure Site
  | insertMerchant row refusal, site =>
    match site.accounts.merchants.insert row with
    | some t => .ok { site with accounts := { site.accounts with merchants := t } }
    | none => .error refusal
  | account s, site =>
    match s.apply site.accounts with
    | .ok accounts => .ok { site with accounts := accounts }
    | .error e => .error (.exn e)
  | payment t, site =>
    match commit t site.db with
    | .ok db => .ok { site with db := db }
    | .error e => .error (.exn e)

abbrev SiteService (α : Type) := Program Site StripeCall StripeAnswer SiteStmt Failure α

def accountsOf : Component Site Accounts where
  get := Site.accounts
  put accounts site := { site with accounts := accounts }
  get_put _ _ := rfl
  put_get _ := rfl
  put_put _ _ _ := rfl

def paymentsOf : Component Site Db where
  get := Site.db
  put db site := { site with db := db }
  get_put _ _ := rfl
  put_get _ := rfl
  put_put _ _ _ := rfl

def onAccounts :
    Embedding Accounts Empty Empty AccountStmt Exn Site StripeCall StripeAnswer SiteStmt Failure where
  part := accountsOf
  ask q := nomatch q
  hear q _ := q
  lift := .account
  fail := .exn

def onPayments : Embedding Db StripeCall StripeAnswer (List Stmt) Exn Site StripeCall StripeAnswer
    SiteStmt Failure where
  part := paymentsOf
  ask := id
  hear _ r := r
  lift := .payment
  fail := .exn

theorem onAccounts_faithful : onAccounts.Faithful AccountStmt.apply SiteStmt.apply := by
  intro s site
  simp only [onAccounts, accountsOf, SiteStmt.apply]
  cases s.apply site.accounts <;> rfl

theorem onPayments_faithful : onPayments.Faithful commit SiteStmt.apply := by
  intro t site
  simp only [onPayments, paymentsOf, SiteStmt.apply]
  cases commit t site.db <;> rfl

def merchantNotFound (merchantId : String) : Failure :=
  .merchantNotFound s!"merchant {merchantId} not found"

def merchantLooked (merchantId : String) : Option Merchant → SiteService Merchant
  | none => .raise (merchantNotFound merchantId)
  | some merchant => .ret merchant

def getMerchant (merchantId : String) : SiteService Merchant :=
  .read fun site => merchantLooked merchantId (site.accounts.merchantById merchantId)

def newestKeyFirst (k l : APIKey) : Prop := l.createdAt ≤ k.createdAt

instance : DecidableRel newestKeyFirst :=
  fun k l => inferInstanceAs (Decidable (l.createdAt ≤ k.createdAt))

instance newestKeyFirst_total : Std.Total newestKeyFirst :=
  ⟨fun k l => le_total l.createdAt k.createdAt⟩

instance newestKeyFirst_trans : IsTrans APIKey newestKeyFirst := ⟨fun _ _ _ h h' => le_trans h' h⟩

/-- Revoked keys are in the list as well. -/
def listApiKeys (merchantId : String) (order : RowOrder APIKey) : SiteService (List APIKey) :=
  .read fun site => .ret (order.orderBy newestKeyFirst
    (site.accounts.apiKeys.select (fun k => decide (k.merchantId = merchantId))))

def refreshMerchant (row : Merchant) : SiteService Merchant :=
  .read fun site => .ret ((site.accounts.merchantById row.id).getD row)

variable [StrLower] [StrRepr]

def newMerchant (name email uuid : String) (now : Instant) : Merchant where
  id := "mer_" ++ uuid
  name := name
  email := lower email
  isActive := true
  createdAt := now

def duplicateEmail (email : String) : Failure :=
  .exn (.app .idempotencyConflict s!"merchant with email {pyRepr email} already exists")

def createMerchant (name email uuid : String) (now : Instant) : SiteService Merchant :=
  let row := newMerchant name email uuid now
  .commit (.insertMerchant row (duplicateEmail email)) (refreshMerchant row)

end SixGateway.MerchantService
