import SixGateway.Library.Contest
import SixGateway.Provenance

namespace SixGateway.Onboarding

open Library Library.Run Models Errors StripeClient Api ApiKeyService Responses MerchantService
open Server Concurrency Provenance

def emails (site : Site) : List String := site.accounts.merchants.rows.map Merchant.email

def Claim (email : String) : SiteStmt → Prop
  | .insertMerchant row _ => row.email = email
  | _ => False

def Taken (email : String) (site : Site) : Prop := email ∈ emails site

variable {email : String} {a b site : Site} {t : SiteStmt} {row : Merchant} {refusal : Failure}

theorem taken_iff : Taken email site ↔ ∃ m ∈ site.accounts.merchants, m.email = email := List.mem_map

theorem emails_apply (h : t.apply a = .ok b) :
    emails b = emails a ∨ ∃ row refusal, t = .insertMerchant row refusal ∧
      emails b = emails a ++ [row.email] ∧ row.email ∉ emails a := by
  cases t with
  | insertMerchant row refusal =>
    simp only [SiteStmt.apply] at h
    split at h
    · next u hu =>
      cases h
      obtain ⟨hrows, hclash⟩ := Table.insert_eq_some hu
      refine .inr ⟨row, refusal, rfl, ?_, fun hmem => ?_⟩
      · simp only [emails, hrows, List.map_append, List.map_cons, List.map_nil]
      · obtain ⟨m, hm, hemail⟩ := List.mem_map.mp hmem
        have hboth : clash m row = true := Table.clash_iff.mpr
          ⟨.email m.email, by simp [Keyed.keys], by simp [Keyed.keys, hemail]⟩
        rw [hclash m hm] at hboth
        cases hboth
    · cases h
  | payment t =>
    simp only [SiteStmt.apply] at h
    split at h
    · cases h
      exact .inl rfl
    · cases h
  | account s =>
    simp only [SiteStmt.apply] at h
    split at h
    · next accounts hs =>
      cases h
      refine .inl ?_
      cases s with
      | insertKey row =>
        simp only [AccountStmt.apply] at hs
        split at hs <;> cases hs
        rfl
      | deactivateKey id | touchKey id now =>
        cases hs
        rfl
      | setActive merchantId isActive =>
        cases hs
        simp only [emails, Table.modify, List.map_map]
        refine List.map_congr_left (fun m _ => ?_)
        rw [Function.comp_apply]
        split <;> rfl
    · cases h

theorem exclusive (email : String) : Exclusive SiteStmt.apply (Claim email) (Taken email) where
  takes t a b hclaim h := by
    obtain heq | ⟨row, refusal, rfl, heq, hfree⟩ := emails_apply h
    · cases t with
      | insertMerchant row refusal =>
        simp only [SiteStmt.apply] at h
        split at h
        · next u hu =>
          cases h
          have hlen := congrArg List.length heq
          simp [emails, (Table.insert_eq_some hu).1] at hlen
        · cases h
      | account | payment => exact hclaim.elim
    · obtain rfl : row.email = email := hclaim
      rw [Taken, Taken, heq]
      exact ⟨hfree, List.mem_append_right _ (List.mem_singleton_self _)⟩
  stays t a b hclaim h := by
    obtain heq | ⟨row, refusal, rfl, heq, -⟩ := emails_apply h
    · rw [Taken, Taken, heq]
    · have hne : ¬ email = row.email := fun he => hclaim he.symm
      rw [Taken, Taken, heq, List.mem_append, List.mem_singleton]
      exact or_iff_left hne

theorem taken_of_refused {e : Failure}
    (h : (SiteStmt.insertMerchant row refusal).apply site = .error e)
    (hid : ∀ m ∈ site.accounts.merchants, m.id ≠ row.id) : Taken row.email site := by
  by_contra hfree
  have hclash : ∀ m ∈ site.accounts.merchants, clash m row = false := by
    intro m hm
    rw [Bool.eq_false_iff, ne_eq, Table.clash_iff]
    simp only [Keyed.keys, List.mem_cons, List.not_mem_nil, or_false]
    rintro ⟨k, rfl | rfl, hk | hk⟩
    · exact hid m hm (MerchantKey.id.inj hk)
    · cases hk
    · cases hk
    · exact hfree (taken_iff.mpr ⟨m, hm, MerchantKey.email.inj hk⟩)
  obtain ⟨u, hu⟩ := Table.insert_isSome hclash
  simp only [SiteStmt.apply, hu] at h
  cases h

def entering? : SiteService Answer → Option Merchant
  | .commit (.insertMerchant row _) _ => some row
  | _ => none

/-- A merchant about to be entered has an id that is not in use. -/
def Minted (st : Pool Site StripeCall StripeAnswer SiteStmt Failure Answer) : Label → Prop
  | (i, .run) => ∀ row ∈ st.threads[i]?.bind entering?,
    ∀ m ∈ st.store.accounts.merchants, m.id ≠ row.id
  | (_, .answer _) => True

instance (st : Pool Site StripeCall StripeAnswer SiteStmt Failure Answer) :
    (l : Label) → Decidable (Minted st l)
  | (i, .run) => inferInstanceAs (Decidable (∀ row ∈ st.threads[i]?.bind entering?,
    ∀ m ∈ st.store.accounts.merchants, m.id ≠ row.id))
  | (_, .answer _) => isTrue trivial

theorem fair_of_minted {st : Pool Site StripeCall StripeAnswer SiteStmt Failure Answer} {l : Label}
    (h : Minted st l) : Pool.Fair SiteStmt.apply (Claim email) (Taken email) st l := by
  obtain ⟨i, a⟩ := l
  cases a with
  | answer r => trivial
  | run =>
    intro t k e hi hclaim he
    cases t with
    | insertMerchant row refusal =>
      obtain rfl : row.email = email := hclaim
      exact taken_of_refused he (h row (by rw [hi]; rfl))
    | account | payment => exact hclaim.elim

section

variable [StrLower] {d : Deployment} {r : HttpRequest} {rs : List HttpRequest}

/-- The request asks, with the admin key, for a merchant with this address. -/
def Registers (d : Deployment) (r : HttpRequest) (email : String) : Prop :=
  Admin d r.headers ∧ ∃ payload, r.route = .admin (.createMerchant payload) ∧
    lower payload.email = email

variable [StrRepr]

/-- The error of a request whose merchant has an address in use. -/
def TurnedDown (r : HttpRequest) (e : Failure) : Prop :=
  ∃ payload, r.route = .admin (.createMerchant payload) ∧ e = duplicateEmail payload.email

def Enters (r : HttpRequest) (email : String) (t : SiteStmt) : Prop :=
  Claim email t ∧ ∀ site e, t.apply site = .error e → TurnedDown r e

omit [StrLower] [StrRepr] in
theorem requireAdminApiKey_admin {h : Headers} (hadmin : Admin d h) :
    requireAdminApiKey d.adminApiKey h.xAdminKey = .ret () := by
  have hkey : (truthy h.xAdminKey).any (fun key => constantTimeEq key d.adminApiKey) = true := by
    rw [hadmin.1, truthy, if_neg hadmin.2]
    exact decide_eq_true rfl
  rw [requireAdminApiKey, if_pos hkey]

variable [Rendering.StrUpper]

theorem claims_request (h : Registers d r email) :
    (r.program d).Claims (Enters r email) (fun a => a.statusCode = 201) := by
  obtain ⟨hadmin, payload, asked, hemail⟩ := h
  rw [HttpRequest.program, asked, Route.program, requireAdminApiKey_admin hadmin]
  refine ⟨⟨hemail, fun site e he => ⟨payload, asked, ?_⟩⟩, fun site => rfl⟩
  simp only [SiteStmt.apply] at he
  split at he
  · cases he
  · exact (Except.error.inj he).symm

def Registering (d : Deployment) (rs : List HttpRequest) (email : String) (i : Nat) : Prop :=
  ∃ r, rs[i]? = some r ∧ Registers d r email

/-- How the requests that ask for the address stand. -/
def Registration (d : Deployment) (rs : List HttpRequest) (email : String)
    (st : Pool Site StripeCall StripeAnswer SiteStmt Failure Answer) : Option Nat → Prop :=
  Pool.Standing (Taken email) (Registering d rs email)
    (fun i t => ∃ r, rs[i]? = some r ∧ Enters r email t)
    (fun i e => ∃ r, rs[i]? = some r ∧ TurnedDown r e) (fun a => a.statusCode = 201) st

omit [StrRepr] [Rendering.StrUpper] in
theorem registering_of_entered {i : Nat} (h : ∃ r, rs[i]? = some r ∧ Entered d r t)
    (hclaim : Claim email t) : Registering d rs email i := by
  obtain ⟨r, hr, hentered⟩ := h
  cases t with
  | insertMerchant row refusal =>
    obtain ⟨hadmin, payload, asked, rfl⟩ := hentered
    exact ⟨r, hr, hadmin, payload, asked, hclaim⟩
  | account | payment => exact hclaim.elim

theorem registration_run {start : Site} {calls : List (StripeCall × StripeAnswer)}
    {ls : List Label} {st : Pool Site StripeCall StripeAnswer SiteStmt Failure Answer}
    (hrun : run (Pool.step SiteStmt.apply) (Server.serving d start calls rs) ls = some st)
    (hminted : Along (Pool.step SiteStmt.apply) Minted (Server.serving d start calls rs) ls)
    (hfree : ¬ Taken email start) : ∃ winner, Registration d rs email st winner := by
  refine Pool.standing_run (exclusive email) ?_ ?_ ?_ hfree ?_
    (along_mono (fun _ _ => fair_of_minted) _ _ hminted) hrun
  · rintro i t ⟨r, -, ht⟩
    exact ht.1
  · rintro i t site e ⟨r, hr, ht⟩ he
    exact ⟨r, hr, ht.2 site e he⟩
  · intro i p hp
    exact (serving_only d start calls rs i p hp).weaken (fun t => registering_of_entered)
  · rintro i p hp ⟨r, hr, hregisters⟩
    obtain rfl : r.program d = p := by simpa [Server.serving, hr] using hp
    exact (claims_request hregisters).weaken (fun t ht => ⟨r, hr, ht⟩)

end

/-- Two requests for one address, which they spell differently. -/
def rivals : List HttpRequest := [
  ⟨.admin (.createMerchant ⟨"Ada", "Ada@shop.io", by decide, by decide⟩), adminHeaders,
    { Contract.moment 1 with merchantUuid := "1" }⟩,
  ⟨.admin (.createMerchant ⟨"Ada", "ada@shop.io", by decide, by decide⟩), adminHeaders,
    { Contract.moment 2 with merchantUuid := "2" }⟩]

def rivalMoves : List Label := [(1, .run), (0, .run), (1, .run)]

end SixGateway.Onboarding
