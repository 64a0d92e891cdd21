import SixGateway.Api
import SixGateway.Library.Rows

namespace SixGateway.Dashboard

open Library Models Database LedgerService PaymentService Api

structure AccountBalance where
  account : String
  balance : Int
  deriving DecidableEq

structure CurrencyBalance where
  currency : String
  net : Int
  accounts : List AccountBalance
  deriving DecidableEq

structure BalanceResponse where
  currencies : List CurrencyBalance
  deriving DecidableEq

def sorted {ν : Type} (d : Dict String ν) : List (String × ν) :=
  d.items.insertionSort (fun a b => a.1 ≤ b.1)

def currencyBalance (item : String × Dict String Int) : CurrencyBalance :=
  ⟨item.1, item.2.values.sum, (sorted item.2).map (fun a => ⟨a.1, a.2⟩)⟩

/-- `GET /dashboard/balance` for the authenticated merchant. -/
def getBalance (db : Db) (merchantId : String) : BalanceResponse :=
  ⟨(sorted (getBalancesByCurrency db (some merchantId))).map currencyBalance⟩

/-- The parameters of `GET /dashboard/transactions` that the route has accepted. -/
structure TransactionsQuery where
  page : Nat
  pageSize : Nat
  statusFilter : Option PaymentIntentStatus
  currency : Option String
  page_ge : 1 ≤ page
  page_size_range : 1 ≤ pageSize ∧ pageSize ≤ 500
  currency_length : ∀ c, currency = some c → c.length = 3

def TransactionsQuery.offset (query : TransactionsQuery) : Nat :=
  (query.page - 1) * query.pageSize

/-- The driver sends an offset as a 64-bit integer. -/
def TransactionsQuery.Encodable (query : TransactionsQuery) : Prop := query.offset < 2 ^ 63

instance (query : TransactionsQuery) : Decidable query.Encodable :=
  inferInstanceAs (Decidable (query.offset < 2 ^ 63))

structure PaginatedTransactions where
  items : List PaymentIntentRead
  page : Nat
  pageSize : Nat
  total : Nat
  deriving DecidableEq

def newestFirst (p q : PaymentIntent) : Prop := q.createdAt ≤ p.createdAt

instance : DecidableRel newestFirst :=
  fun p q => inferInstanceAs (Decidable (q.createdAt ≤ p.createdAt))

instance : Std.Total newestFirst := ⟨fun p q => le_total q.createdAt p.createdAt⟩

instance : IsTrans PaymentIntent newestFirst := ⟨fun _ _ _ h h' => le_trans h' h⟩

variable [StrLower]

def TransactionsQuery.selects (query : TransactionsQuery) (merchant : Merchant)
    (p : PaymentIntent) : Bool :=
  decide (p.merchantId = some merchant.id) &&
    query.statusFilter.all (fun s => decide (p.status = s)) &&
    query.currency.all (fun c => decide (p.currency = lower c))

/-- The rows of the statement `base`, before it is counted or ordered. -/
def TransactionsQuery.base (query : TransactionsQuery) (merchant : Merchant) (db : Db) :
    List PaymentIntent :=
  db.paymentIntents.select (query.selects merchant)

/-- The count and the page are two statements. -/
def listTransactions (merchant : Merchant) (query : TransactionsQuery)
    (order : RowOrder PaymentIntent) : Service PaginatedTransactions :=
  .read fun counted => .read fun db =>
    let rows := ((order.orderBy newestFirst (query.base merchant db)).drop
      query.offset).take query.pageSize
    .ret ⟨rows.map intentRead, query.page, query.pageSize, (query.base merchant counted).length⟩

/-- `GET /dashboard/transactions`. The route bounds the page from below only, and the driver refuses
an offset that it cannot encode when the rows have been counted. -/
def transactionsPage (merchant : Merchant) (query : TransactionsQuery)
    (order : RowOrder PaymentIntent) : Service PaginatedTransactions :=
  if query.Encodable then listTransactions merchant query order
  else .read fun _ => .raise .dbapiError

end SixGateway.Dashboard
