import SixGateway.Dashboard
import SixGateway.Library.Pages
import SixGateway.Tenancy

namespace SixGateway.Pagination

open Library Models Errors Database StripeClient PaymentService Gateway Api Dashboard
open StripeContract Tenancy

/-- The query for one page, of which the first is page 0 here and page 1 in the request. -/
def onPage (query : TransactionsQuery) (i : Nat) : TransactionsQuery :=
  { query with page := i + 1, page_ge := by omega }

def pageCount (total pageSize : Nat) : Nat := (total + pageSize - 1) / pageSize

/-- No end of a page falls between rows of one `created_at`: no multiple of the page size lies
between the number of newer rows and the number of rows that are not older. -/
def Unbroken (pageSize : Nat) (rows : List PaymentIntent) : Prop :=
  ∀ p ∈ rows, ∀ k, k * pageSize ≤ (rows.filter (fun q => decide (p.createdAt < q.createdAt))).length ∨
    (rows.filter (fun q => decide (p.createdAt ≤ q.createdAt))).length ≤ k * pageSize

theorem undivided_iff {pageSize : Nat} {rows : List PaymentIntent} :
    Undivided newestFirst pageSize rows ↔ Unbroken pageSize rows := by
  have hbefore : ∀ p, before newestFirst rows p =
      (rows.filter (fun q => decide (p.createdAt < q.createdAt))).length := by
    intro p
    rw [before, List.countP_eq_length_filter]
    congr 1
    refine List.filter_congr (fun q _ => decide_eq_decide.mpr ?_)
    exact lt_iff_le_not_ge.symm
  have hupTo : ∀ p, upTo newestFirst rows p =
      (rows.filter (fun q => decide (p.createdAt ≤ q.createdAt))).length :=
    fun p => List.countP_eq_length_filter
  simp only [Undivided, Unbroken, hbefore, hupTo]

theorem length_le_pages {n pageSize : Nat} (h : 1 ≤ pageSize) :
    n ≤ pageCount n pageSize * pageSize := by
  have hmod := Nat.mod_add_div (n + pageSize - 1) pageSize
  have hlt := Nat.mod_lt (n + pageSize - 1) h
  rw [Nat.mul_comm] at hmod
  unfold pageCount
  omega

theorem unbroken_of_distinct {pageSize : Nat} {rows : List PaymentIntent}
    (h : (rows.map PaymentIntent.createdAt).Nodup) : Unbroken pageSize rows := by
  intro p _ k
  have hone := List.nodup_iff_count_le_one.mp h p.createdAt
  have hsplit : ∀ l : List PaymentIntent,
      (l.filter (fun q => decide (p.createdAt ≤ q.createdAt))).length =
        (l.filter (fun q => decide (p.createdAt < q.createdAt))).length +
          (l.map PaymentIntent.createdAt).count p.createdAt := by
    intro l
    induction l with
    | nil => rfl
    | cons q l ih =>
      obtain hlt | heq | hgt := lt_trichotomy p.createdAt q.createdAt
      · simp [hlt, hlt.le, hlt.ne', ih]
        omega
      · rw [heq] at ih
        simp [heq]
        omega
      · simp [hgt, hgt.le, hgt.ne, ih]
  have hrows := hsplit rows
  omega

section

variable [StrLower]

/-- The pages of a query, each of which is a request of its own. -/
def listing (answer : StripeCall → StripeAnswer) (db : Db) (merchant : Merchant)
    (query : TransactionsQuery) (orders : Nat → RowOrder PaymentIntent) :
    Except Exn (List PaginatedTransactions) :=
  (List.range (pageCount (query.base merchant db).length query.pageSize)).mapM (fun i =>
    (serve answer (listTransactions merchant (onPage query i) (orders i)) db).result)

/-- The pages hold every intent of the merchant that matches once, and each of them has the number
of these as its total. -/
def Complete (answer : StripeCall → StripeAnswer) (db : Db) (merchant : Merchant)
    (query : TransactionsQuery) (orders : Nat → RowOrder PaymentIntent) : Prop :=
  ∃ responses, listing answer db merchant query orders = .ok responses ∧
    (responses.flatMap PaginatedTransactions.items).Perm
      ((query.base merchant db).map intentRead) ∧
    ∀ response ∈ responses, response.total = (query.base merchant db).length

variable {answer : StripeCall → StripeAnswer} {db : Db} {merchant : Merchant}
  {query : TransactionsQuery} {orders : Nat → RowOrder PaymentIntent}

theorem listing_eq : listing answer db merchant query orders =
    .ok ((List.range (pageCount (query.base merchant db).length query.pageSize)).map (fun i =>
      ⟨(page query.pageSize i ((orders i).orderBy newestFirst (query.base merchant db))).map intentRead,
        i + 1, query.pageSize, (query.base merchant db).length⟩)) :=
  List.mapM_pure

theorem complete_iff : Complete answer db merchant query orders ↔
    ((pages newestFirst orders query.pageSize
      (pageCount (query.base merchant db).length query.pageSize) (query.base merchant db)).map
        intentRead).Perm ((query.base merchant db).map intentRead) := by
  rw [Complete, listing_eq, pages, List.map_flatMap]
  constructor
  · rintro ⟨responses, h, hperm, -⟩
    cases h
    rwa [List.flatMap_map] at hperm
  · intro hperm
    refine ⟨_, rfl, ?_, ?_⟩
    · rwa [List.flatMap_map]
    · simp

theorem nodup_base : ((query.base merchant db).map intentRead).Nodup := by
  refine List.Nodup.of_map PaymentIntentRead.id ?_
  rw [List.map_map, List.Nodup, List.pairwise_map]
  have hu : (query.base merchant db).Pairwise (fun p q => clash p q = false) :=
    db.paymentIntents.unique.filter _
  refine hu.imp (fun {p q} h heq => ?_)
  have hid : p.id = q.id := heq
  have hc : clash p q = true :=
    Table.clash_iff.mpr ⟨.id p.id, by simp [Keyed.keys], by simp [Keyed.keys, hid]⟩
  rw [h] at hc
  cases hc

theorem complete_of_unbroken (h : Unbroken query.pageSize (query.base merchant db)) :
    Complete answer db merchant query orders :=
  complete_iff.mpr ((pages_perm orders (undivided_iff.mpr h)
    (length_le_pages query.page_size_range.1)).map _)

theorem complete_of_distinct
    (h : ((query.base merchant db).map PaymentIntent.createdAt).Nodup) :
    Complete answer db merchant query orders := complete_of_unbroken (unbroken_of_distinct h)

/-- The pages are complete, whatever order each of their queries takes, exactly when no end of a page
falls between intents of one `created_at`. -/
theorem transactions_paged_iff (answer : StripeCall → StripeAnswer) (db : Db) (merchant : Merchant)
    (query : TransactionsQuery) :
    (∀ orders, Complete answer db merchant query orders) ↔
      Unbroken query.pageSize (query.base merchant db) := by
  refine ⟨fun h => ?_, fun h _ => complete_of_unbroken h⟩
  by_contra hbroken
  obtain ⟨orders, hrepeat⟩ := pages_repeat (mt undivided_iff.mp hbroken)
    (length_le_pages query.page_size_range.1)
  exact hrepeat (((complete_iff.mp (h orders)).nodup_iff.mpr nodup_base).of_map _)

end

def simultaneous (id : String) : PaymentIntent where
  id := id
  stripePaymentIntentId := none
  idempotencyKey := id
  amount := 2500
  currency := "usd"
  status := .requiresAction
  merchantId := some "mer_1"
  customerId := none
  description := none
  clientSecret := none
  paymentMetadata := []
  createdAt := 0
  updatedAt := 0

def twins : Db :=
  { Db.empty with paymentIntents := ⟨[simultaneous "pi_a", simultaneous "pi_b"], by decide⟩ }

def oneByOne : TransactionsQuery where
  page := 1
  pageSize := 1
  statusFilter := none
  currency := none
  page_ge := by decide
  page_size_range := by decide
  currency_length := by simp

/-- The first page shows the first of two simultaneous payments, and the second page, whose query
returns them the other way round, shows it again. -/
theorem transaction_lost :
    let orders := fun i => if i = 0 then RowOrder.stored else RowOrder.reversed
    ¬ Complete (accepting .requiresAction) twins payee oneByOne orders := by
  rintro orders ⟨responses, h, hperm, -⟩
  cases h
  revert hperm
  decide

end SixGateway.Pagination
