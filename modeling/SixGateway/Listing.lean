import SixGateway.FalseAlarms
import SixGateway.Library.Cursor
import SixGateway.Library.Program

namespace SixGateway.Listing

open Library Library.Cursor Models Database StripeClient Reconciliation FalseAlarms

/-- The parameters of `stripe.BalanceTransaction.list`. -/
structure ListParams where
  createdGte : Int
  createdLt : Int
  limit : Nat
  expand : List String
  type : Option String := none
  startingAfter : Option String := none
  deriving DecidableEq

structure ListObject where
  data : List BalanceTransaction
  hasMore : Bool
  deriving DecidableEq

/-- A page, or the text of a `StripeError`. -/
abbrev ListAnswer := Except String ListObject

inductive ListError where
  | stripeError (message : String)
  | indexError
  deriving DecidableEq

abbrev Lister (α : Type) := Program Unit ListParams ListAnswer Empty ListError α

/-- The body of the loop, where `again` is its next round. -/
def listedPage
    (again : ListParams → List BalanceTransaction → Lister (Option (List BalanceTransaction)))
    (params : ListParams) (collected : List BalanceTransaction) :
    ListAnswer → Lister (Option (List BalanceTransaction))
  | .error message => .raise (.stripeError message)
  | .ok page =>
    if page.hasMore then
      match page.data.getLast? with
      | none => .raise .indexError
      | some last =>
        again { params with startingAfter := some last.id } (collected ++ page.data)
    else .ret (some (collected ++ page.data))

/-- `while True` for at most `fuel` rounds; `none` means that it is still running then. -/
def listPages : Nat → ListParams → List BalanceTransaction →
    Lister (Option (List BalanceTransaction))
  | 0, _, _ => .ret none
  | fuel + 1, params, collected => .call params (listedPage (listPages fuel) params collected)

def listTypes (fuel : Nat) (params : ListParams) : List String → List BalanceTransaction →
    Lister (Option (List BalanceTransaction))
  | [], collected => .ret (some collected)
  | t :: ts, collected =>
    (listPages fuel { params with type := some t } collected).bind
      (fun c => c.elim (.ret none) (listTypes fuel params ts))

/-- `list_balance_transactions` with pages of `limit` rows. An empty list of types is none. -/
def listPaged (limit fuel : Nat) (createdGte createdLt : Int) (types : Option (List String)) :
    Lister (Option (List BalanceTransaction)) :=
  let params : ListParams :=
    { createdGte := createdGte, createdLt := createdLt, limit := limit, expand := ["data.source"] }
  match types.getD [] with
  | [] => listPages fuel params []
  | ts => listTypes fuel params ts []

def listBalanceTransactions (fuel : Nat) (createdGte createdLt : Int)
    (types : Option (List String)) : Lister (Option (List BalanceTransaction)) :=
  listPaged 100 fuel createdGte createdLt types

abbrev fetch {α : Type} (list : ListParams → ListAnswer) (p : Lister α) :
    Outcome Unit ListParams ListAnswer ListError α :=
  p.exec (fun t => nomatch t) list ()

def ListParams.selects (params : ListParams) (bt : BalanceTransaction) : Bool :=
  params.type.all (fun t => decide (bt.type = t)) &&
    decide (params.createdGte ≤ bt.created ∧ bt.created < params.createdLt)

def remaining (book : List BalanceTransaction) (params : ListParams) : List BalanceTransaction :=
  (following BalanceTransaction.id book params.startingAfter).filter params.selects

/-- What is assumed of Stripe's list API over a fixed data set: a call is answered with the first
of the transactions that it selects after its cursor, and told whether there are more. -/
def Serves (book : List BalanceTransaction) (list : ListParams → ListAnswer) : Prop :=
  ∀ params, list params = .ok ⟨(remaining book params).take params.limit,
    decide (params.limit < (remaining book params).length)⟩

def wanted (book : List BalanceTransaction) (createdGte createdLt : Int)
    (types : Option (List String)) : List BalanceTransaction :=
  match types.getD [] with
  | [] => book.filter (fun bt => decide (createdGte ≤ bt.created ∧ bt.created < createdLt))
  | ts => listed book createdGte createdLt ts

/-- A call starts at the beginning, or after a transaction that it selects itself. -/
def OwnCursor (book : List BalanceTransaction) (params : ListParams) : Prop :=
  ∀ id ∈ params.startingAfter, ∃ bt ∈ book, bt.id = id ∧ params.selects bt = true

variable {book : List BalanceTransaction} {list : ListParams → ListAnswer} {params : ListParams}
  {bt : BalanceTransaction} {seen collected : List BalanceTransaction}

theorem ownCursor_start (h : params.startingAfter = none) : OwnCursor book params := by
  intro id hid
  rw [h] at hid
  cases hid

theorem remaining_after (hn : (book.map BalanceTransaction.id).Nodup)
    {before after : List BalanceTransaction}
    (h : book.filter params.selects = before ++ bt :: after) :
    remaining book { params with startingAfter := some bt.id } = after :=
  filter_following hn h

theorem fetch_listPages (hn : (book.map BalanceTransaction.id).Nodup) (hs : Serves book list)
    (hl : 0 < params.limit) (hseen : book.filter params.selects = seen ++ remaining book params)
    (hown : OwnCursor book params) {fuel : Nat} (hf : (remaining book params).length < fuel) :
    ∃ calls, fetch list (listPages fuel params collected) =
        ⟨(), calls, .ok (some (collected ++ remaining book params))⟩ ∧
      ∀ c ∈ calls, OwnCursor book c.1 := by
  induction fuel generalizing params seen collected with
  | zero => exact absurd hf (Nat.not_lt_zero _)
  | succ fuel ih =>
    rw [listPages, fetch, Program.exec_call]
    by_cases hmore : params.limit < (remaining book params).length
    · obtain ⟨before, last, htake, hrest⟩ := getLast?_take hl hmore
      have hlast : ((remaining book params).take params.limit).getLast? = some last := by
        rw [htake, List.getLast?_concat]
      have hsplit : book.filter params.selects =
          (seen ++ before) ++ last :: (remaining book params).drop params.limit := by
        rw [hseen, List.append_assoc, ← hrest]
      have hleft := remaining_after hn hsplit
      have hmem : last ∈ book.filter params.selects := by
        rw [hsplit]
        simp
      obtain ⟨hbook, hsel⟩ := List.mem_filter.mp hmem
      obtain ⟨calls, hout, hcalls⟩ := @ih { params with startingAfter := some last.id }
        (seen ++ before ++ [last]) (collected ++ (remaining book params).take params.limit) hl
        (by rw [hleft, List.append_assoc]; exact hsplit)
        (by rintro _ ⟨⟩; exact ⟨last, hbook, rfl, hsel⟩)
        (by rw [hleft, List.length_drop]; omega)
      refine ⟨(params, list params) :: calls, ?_, List.forall_mem_cons.mpr ⟨hown, hcalls⟩⟩
      simp only [hs params, listedPage, hmore, decide_true, if_true, hlast]
      rw [fetch, hleft] at hout
      rw [hout, List.append_assoc, List.take_append_drop]
      rfl
    · refine ⟨[(params, list params)], ?_, List.forall_mem_singleton.mpr hown⟩
      rw [hs params, List.take_of_length_le (Nat.not_lt.mp hmore)]
      simp [listedPage, hmore, Outcome.called]

theorem length_remaining (hn : params.startingAfter = none) {fuel : Nat} (hf : book.length < fuel) :
    (remaining book params).length < fuel := by
  rw [remaining, hn]
  exact (List.length_filter_le _ _).trans_lt hf

theorem fetch_listTypes (hn : (book.map BalanceTransaction.id).Nodup) (hs : Serves book list)
    (hl : 0 < params.limit) (hstart : params.startingAfter = none) {fuel : Nat}
    (hf : book.length < fuel) (ts : List String) :
    ∃ calls, fetch list (listTypes fuel params ts collected) =
        ⟨(), calls, .ok (some (collected ++ listed book params.createdGte params.createdLt ts))⟩ ∧
      ∀ c ∈ calls, OwnCursor book c.1 := by
  induction ts generalizing collected with
  | nil => exact ⟨[], by simp [listTypes, listed], by simp⟩
  | cons t ts ih =>
    have hall : remaining book { params with type := some t } =
        book.filter (ListParams.selects { params with type := some t }) := by
      rw [remaining, hstart]
      rfl
    obtain ⟨calls, hout, hcalls⟩ := @fetch_listPages book list { params with type := some t } []
      collected hn hs hl hall.symm (ownCursor_start hstart) fuel
      (@length_remaining book { params with type := some t } hstart fuel hf)
    obtain ⟨more, hrest, hmore⟩ := @ih (collected ++ remaining book { params with type := some t })
    refine ⟨calls ++ more, ?_, List.forall_mem_append.mpr ⟨hcalls, hmore⟩⟩
    rw [listTypes, fetch, Program.exec_bind, ← fetch, hout]
    simp only [Option.elim_some]
    rw [← fetch, hrest, hall, List.append_assoc]
    rfl

theorem nodup_listed (hn : (book.map BalanceTransaction.id).Nodup) (createdGte createdLt : Int)
    {ts : List String} (ht : ts.Nodup) :
    ((listed book createdGte createdLt ts).map BalanceTransaction.id).Nodup := by
  have hmem : ∀ bt ∈ listed book createdGte createdLt ts, bt ∈ book := by
    intro bt hbt
    obtain ⟨t, -, hbt⟩ := List.mem_flatMap.mp hbt
    exact List.mem_of_mem_filter hbt
  have hrows : (listed book createdGte createdLt ts).Nodup := by
    refine List.nodup_flatMap.mpr ⟨fun t _ => (hn.of_map _).filter _, ht.imp (fun {t u} hne => ?_)⟩
    intro bt hbt hbu
    simp only [List.mem_filter, Bool.and_eq_true, decide_eq_true_eq] at hbt hbu
    exact hne (hbt.2.1.symm.trans hbu.2.1)
  refine hrows.map_on (fun bt hbt bu hbu heq => ?_)
  exact List.inj_on_of_nodup_map hn (hmem bt hbt) (hmem bu hbu) heq

theorem fetch_listPaged (hn : (book.map BalanceTransaction.id).Nodup) (hs : Serves book list)
    {limit fuel : Nat} (hl : 0 < limit) (hf : book.length < fuel) (createdGte createdLt : Int)
    (types : Option (List String)) :
    ∃ calls, fetch list (listPaged limit fuel createdGte createdLt types) =
        ⟨(), calls, .ok (some (wanted book createdGte createdLt types))⟩ ∧
      ∀ c ∈ calls, OwnCursor book c.1 := by
  let params : ListParams :=
    { createdGte := createdGte, createdLt := createdLt, limit := limit, expand := ["data.source"] }
  unfold listPaged wanted
  cases types.getD [] with
  | nil =>
    have hall : remaining book params = book.filter params.selects := rfl
    obtain ⟨calls, hout, hcalls⟩ := @fetch_listPages book list params [] [] hn hs hl hall.symm
      (ownCursor_start rfl) fuel (length_remaining rfl hf)
    exact ⟨calls, hout, hcalls⟩
  | cons t ts =>
    obtain ⟨calls, hout, hcalls⟩ := @fetch_listTypes book list params [] hn hs hl rfl fuel hf (t :: ts)
    exact ⟨calls, hout, hcalls⟩

theorem nodup_wanted (hn : (book.map BalanceTransaction.id).Nodup) (createdGte createdLt : Int)
    {types : Option (List String)} (ht : ∀ ts ∈ types, ts.Nodup) :
    ((wanted book createdGte createdLt types).map BalanceTransaction.id).Nodup := by
  unfold wanted
  split
  · exact hn.sublist (List.filter_sublist.map _)
  · cases types with
    | none => exact nodup_listed hn createdGte createdLt List.nodup_nil
    | some ts => exact nodup_listed hn createdGte createdLt (ht ts rfl)

def reconcileDayFrom (list : ListParams → ListAnswer) (fuel : Nat) (targetDate : Int) (db : Db) :
    Except ListError (Option ReconciliationRun) :=
  (fetch list (listBalanceTransactions fuel (timestamp (startOf targetDate))
    (timestamp (startOf targetDate + hours 24)) (some reconciledTypes))).result.map
    (fun bts => bts.map (fun bts => reconcileDay targetDate bts db))

/-- The worker reconciles against the very transactions that Stripe holds for the day. -/
theorem reconcileDayFrom_eq (hn : (book.map BalanceTransaction.id).Nodup) (hs : Serves book list)
    {fuel : Nat} (hf : book.length < fuel) (day : Int) (db : Db) :
    reconcileDayFrom list fuel day db = .ok (some (runOf book db day)) := by
  obtain ⟨calls, hout, -⟩ := fetch_listPaged hn hs (by decide : 0 < 100) hf
    (timestamp (startOf day)) (timestamp (startOf day + hours 24)) (some reconciledTypes)
  rw [reconcileDayFrom, listBalanceTransactions, hout]
  rfl

/-- The walk stops with every transaction of the window, type by type, each once and in the order
of the listing, and no call starts after a transaction of another. -/
theorem transactions_listed (book : List BalanceTransaction) (list : ListParams → ListAnswer)
    (distinct : (book.map BalanceTransaction.id).Nodup) (serves : Serves book list) (limit : Nat)
    (positive : 0 < limit) (createdGte createdLt : Int) (types : Option (List String))
    (apart : ∀ ts ∈ types, ts.Nodup) (fuel : Nat) (enough : book.length < fuel) :
    let out := fetch list (listPaged limit fuel createdGte createdLt types)
    out.result = .ok (some (wanted book createdGte createdLt types)) ∧
      ((wanted book createdGte createdLt types).map BalanceTransaction.id).Nodup ∧
      ∀ c ∈ out.calls, OwnCursor book c.1 := by
  obtain ⟨calls, hout, hcalls⟩ :=
    fetch_listPaged distinct serves positive enough createdGte createdLt types
  intro out
  have heq : out = ⟨(), calls, .ok (some (wanted book createdGte createdLt types))⟩ := hout
  rw [heq]
  exact ⟨rfl, nodup_wanted distinct createdGte createdLt apart, hcalls⟩

def stripeList (book : List BalanceTransaction) (params : ListParams) : ListAnswer :=
  .ok ⟨(remaining book params).take params.limit,
    decide (params.limit < (remaining book params).length)⟩

def busyDay : List BalanceTransaction :=
  [⟨"txn_1", "charge", 1000, 3600, .expanded (.id "pi_1")⟩,
    ⟨"txn_2", "charge", 400, 3600, .expanded (.id "pi_2")⟩,
    ⟨"txn_3", "refund", -300, 7200, .expanded (.id "pi_1")⟩,
    ⟨"txn_4", "charge", 250, 7300, .other⟩,
    ⟨"txn_5", "charge", 600, 9000, .expanded (.id "pi_3")⟩]

theorem transactions_listed_busyDay :
    let out := fetch (stripeList busyDay) (listPaged 2 6 0 86400 (some ["charge", "refund"]))
    out.result = .ok (some (wanted busyDay 0 86400 (some ["charge", "refund"]))) ∧
      ((wanted busyDay 0 86400 (some ["charge", "refund"])).map BalanceTransaction.id).Nodup ∧
      ∀ c ∈ out.calls, OwnCursor busyDay c.1 :=
  transactions_listed busyDay (stripeList busyDay) (by decide) (fun _ => rfl) 2 (by decide) 0 86400 _
    (by rintro _ ⟨⟩; decide) 6 (by decide)

end SixGateway.Listing
