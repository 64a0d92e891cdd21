import SixGateway.Provenance

namespace SixGateway.Revocation

open Library Library.Run Models Errors StripeClient Api ApiKeyService Responses MerchantService
open Server Concurrency Contract Provenance

def Dead (keyHash : String) (site : Site) : Prop :=
  ∀ k ∈ site.accounts.apiKeys, k.keyHash = keyHash → k.isActive = false

def Unauthorized (f : Failure) : Prop := f.entry = unauthorizedEntry

variable {keyHash rawKey : String} {a b site : Site} {t : SiteStmt} {sha256 : String → String}

theorem unauthorized_exn (detail : String) : Unauthorized (.exn (unauthorized detail)) := rfl

theorem dead_updateKey {id : String} {f : APIKey → APIKey} {hf : ∀ k, (f k).id = k.id}
    (hhash : ∀ k, (f k).keyHash = k.keyHash) (hactive : ∀ k, k.isActive = false →
      (f k).isActive = false) (h : Dead keyHash site) :
    Dead keyHash { site with accounts := site.accounts.updateKey id f hf } := by
  intro k hk hkh
  have hmem : k ∈ (site.accounts.updateKey id f hf).apiKeys := hk
  obtain ⟨l, hl, rfl⟩ := Authentication.mem_updateKey.mp hmem
  by_cases hid : l.id = id
  · rw [if_pos hid] at hkh ⊢
    exact hactive l (h l hl (hhash l ▸ hkh))
  · rw [if_neg hid] at hkh ⊢
    exact h l hl hkh

theorem barred_verifyApiKey [StrLower] (rawKey : String) (env : KeyEnv) :
    ((verifyApiKey sha256 rawKey env).embed onAccounts).Barred (Dead (sha256 rawKey))
      Unauthorized := by
  have hmatched : ∀ found, (∀ k, found = some k → k.isActive = false) →
      ((verifyMatched env found).embed onAccounts).Barred (Dead (sha256 rawKey)) Unauthorized := by
    rintro (_ | k) hk
    · exact unauthorized_exn _
    · simp only [verifyMatched, hk k rfl]
      exact unauthorized_exn _
  simp only [verifyApiKey]
  split
  · exact unauthorized_exn _
  · split
    · exact unauthorized_exn _
    · intro site hdead
      refine hmatched _ (fun k hk => ?_)
      have hmem := env.order.mem_arrange.mp (List.mem_of_find?_eq_some hk)
      exact hdead k (List.mem_filter.mp hmem).1 (by simpa using List.find?_some hk)

section

variable [StrLower]

/-- What a request presents opens no door: no active key where the route asks for a key, not the
admin key where it asks for that. -/
def Powerless (d : Deployment) (r : HttpRequest) (site : Site) : Prop :=
  match r.route with
  | .merchant _ => ∀ rawKey, presented r.headers = some rawKey → Dead (d.sha256 rawKey) site
  | .admin _ => ¬ Admin d r.headers
  | .stripeWebhook _ | .hostedCheckoutPage _ => False

def Spares (keyHash : String) (t : SiteStmt) : Prop :=
  ∀ row, t = .account (.insertKey row) → row.keyHash ≠ keyHash

/-- No request has still to issue a key with this hash. One that has issued its key already, before
the key was revoked, is none of these. -/
def Unissued (keyHash : String)
    (st : Pool Site StripeCall StripeAnswer SiteStmt Failure Answer) : Prop :=
  st.AllOnly (fun _ => Spares keyHash)

variable {d : Deployment} {r : HttpRequest} {rs : List HttpRequest}

theorem dead_apply (hu : Spares keyHash t) (h : Dead keyHash a) (ht : Entered d r t)
    (hs : t.apply a = .ok b) : Dead keyHash b := by
  cases t with
  | insertMerchant row refusal =>
    simp only [SiteStmt.apply] at hs
    split at hs <;> cases hs
    exact h
  | payment t =>
    simp only [SiteStmt.apply] at hs
    split at hs <;> cases hs
    exact h
  | account s =>
    simp only [SiteStmt.apply] at hs
    split at hs
    · next accounts happly =>
      cases hs
      cases s with
      | insertKey row =>
        simp only [AccountStmt.apply] at happly
        split at happly
        · next u _ hu' =>
          cases happly
          intro k hk hkh
          obtain hk | rfl := (Table.mem_insert hu').mp hk
          · exact h k hk hkh
          · exact absurd hkh (hu k rfl)
        · cases happly
      | deactivateKey id =>
        cases happly
        exact dead_updateKey (fun _ => rfl) (fun _ _ => rfl) h
      | touchKey id now =>
        cases happly
        exact dead_updateKey (fun _ => rfl) (fun _ hk => hk) h
      | setActive => exact ht.elim
    · cases hs

theorem powerless_apply {q : HttpRequest}
    (hu : ∀ rawKey, presented r.headers = some rawKey → Spares (d.sha256 rawKey) t)
    (h : Powerless d r a) (ht : Entered d q t) (hs : t.apply a = .ok b) : Powerless d r b := by
  cases asked : r.route with
  | merchant route =>
    rw [Powerless, asked] at h ⊢
    exact fun rawKey hraw => dead_apply (hu rawKey hraw) (h rawKey hraw) ht hs
  | admin route | stripeWebhook | hostedCheckoutPage =>
    rw [Powerless, asked] at h ⊢
    exact h

variable [StrRepr] [Rendering.StrUpper]

theorem barred_request (hp : Powerless d r site) :
    (r.program d).Barred (Powerless d r) Unauthorized := by
  rw [HttpRequest.program]
  cases asked : r.route with
  | merchant route =>
    refine Program.Barred.bind ?_ _
    cases hauth : r.headers.authorization with
    | none => exact unauthorized_exn _
    | some c =>
      simp only [requireApiKey]
      split
      · exact unauthorized_exn _
      · next hscheme =>
        have hpresented : presented r.headers = some c.credentials := by
          simp only [presented, hauth, Option.bind_some]
          exact if_pos (not_not.mp hscheme)
        refine (barred_verifyApiKey c.credentials r.surroundings.keyEnv).weaken (fun w hw => ?_)
        rw [Powerless, asked] at hw
        exact hw c.credentials hpresented
  | admin route =>
    rw [Powerless, asked] at hp
    simp only [Route.program, requireAdminApiKey]
    split
    · next hkey => exact absurd (admin_of_key hkey) hp
    · exact unauthorized_exn _
  | stripeWebhook | hostedCheckoutPage =>
    rw [Powerless, asked] at hp
    exact hp.elim

/-- What opens no door before a request has begun, and is not about to be issued, opens none later:
in whatever order the steps of all requests go on from there, the request calls nobody, commits
nothing, and is answered 401 if it is answered at all. -/
theorem powerless_barred (d : Deployment) (start : Site) (calls : List (StripeCall × StripeAnswer))
    (rs : List HttpRequest) (pre post : List Label)
    {a b : Pool Site StripeCall StripeAnswer SiteStmt Failure Answer}
    (ha : run (Pool.step SiteStmt.apply) (Server.serving d start calls rs) pre = some a)
    (hb : run (Pool.step SiteStmt.apply) a post = some b) (i : Nat) {r : HttpRequest}
    (hi : rs[i]? = some r) (hbegun : ∀ l ∈ pre, l.1 ≠ i) (hp : Powerless d r a.store)
    (hu : ∀ rawKey, presented r.headers = some rawKey → Unissued (d.sha256 rawKey) a) :
    Pool.callsOf SiteStmt.apply i a post = [] ∧ Pool.commitsOf SiteStmt.apply i a post = [] ∧
      ∀ p x, b.threads[i]? = some p → p.result? = some x → (answerOf x).statusCode = 401 := by
  have hJ : ∀ (i : Nat) t s s', Powerless d r s → ((∃ q, rs[i]? = some q ∧ Entered d q t) ∧
      ∀ rawKey, presented r.headers = some rawKey → Spares (d.sha256 rawKey) t) →
      t.apply s = .ok s' → Powerless d r s' := by
    rintro i t s s' hs ⟨⟨q, -, ht⟩, hspared⟩ hst
    exact powerless_apply hspared hs ht hst
  have hwaiting : a.threads[i]? = some (r.program d) := by
    rw [Pool.idle_run hbegun ha]
    simp [Server.serving, hi]
  have honly := (serving_only d start calls rs).run ha
  have hspared : a.AllOnly (fun _ t =>
      ∀ rawKey, presented r.headers = some rawKey → Spares (d.sha256 rawKey) t) := by
    intro j p hp
    cases hpresented : presented r.headers with
    | none => exact (honly j p hp).weaken (fun _ _ _ h => by cases h)
    | some rawKey =>
      refine (hu rawKey hpresented j p hp).weaken (fun t ht key hkey => ?_)
      obtain rfl := Option.some.inj hkey
      exact ht
  obtain ⟨hcalls, hcommits, p, hbp, hbarred⟩ := Pool.barred_run hwaiting (barred_request hp)
    (Pool.AllOnly.always (fun j p hj => (honly j p hj).and (hspared j p hj)) hJ hp) hb
  refine ⟨hcalls, hcommits, fun p' x hp' hx => ?_⟩
  obtain rfl := Option.some.inj (hbp.symm.trans hp')
  cases p with
  | ret a => exact hbarred.elim
  | raise f =>
    cases hx
    exact congrArg Prod.fst hbarred
  | read | call | commit => cases hx

end

/-- Alice gets a key, uses it, has it revoked, and goes on using it. -/
def usedAndRevoked : List HttpRequest :=
  openingDay.take 2 ++ [
    ⟨.merchant .getBalance, bearer Authentication.aliceToken, moment 2⟩,
    ⟨.admin (.revokeApiKey "mer_alice" "ak_k1"), adminHeaders, moment 3⟩,
    ⟨.merchant .getBalance, bearer Authentication.aliceToken, moment 4⟩]

def untilRevoked : List Label := [(0, .run), (0, .run), (1, .run), (1, .run), (1, .run), (2, .run),
  (2, .run), (2, .run), (2, .run), (3, .run), (3, .run)]

/-- The key is issued, used and revoked, and then used again, all in one run. -/
theorem powerless_barred_revoked :
    let post : List Label := [(4, .run), (3, .run)]
    ∃ a b, run (Pool.step SiteStmt.apply) (Server.serving deployment .empty [] usedAndRevoked)
        untilRevoked = some a ∧ run (Pool.step SiteStmt.apply) a post = some b ∧
      Pool.callsOf SiteStmt.apply 4 a post = [] ∧ Pool.commitsOf SiteStmt.apply 4 a post = [] ∧
      ∀ p x, b.threads[4]? = some p → p.result? = some x → (answerOf x).statusCode = 401 := by
  intro post
  have hrun : ((run (Pool.step SiteStmt.apply) (Server.serving deployment .empty []
      usedAndRevoked) untilRevoked).bind (fun a => (run (Pool.step SiteStmt.apply) a post).map
        (fun _ => a.store.accounts.apiKeys.rows.all (fun k => !k.isActive) &&
          a.threads[1]?.all (fun p => p.result?.isSome)))) = some true := by
    decide +kernel
  obtain ⟨a, ha, hb⟩ := Option.bind_eq_some_iff.mp hrun
  obtain ⟨b, hb, h⟩ := Option.map_eq_some_iff.mp hb
  obtain ⟨hdead, hissued⟩ := Bool.and_eq_true_iff.mp h
  refine ⟨a, b, ha, hb, powerless_barred deployment .empty [] usedAndRevoked untilRevoked post ha hb
    4 rfl (by decide) (fun rawKey _ k hk _ => ?_) (fun rawKey _ j p hp => ?_)⟩
  · simpa using List.all_eq_true.mp hdead k hk
  · -- the request that has issued the key has ended, and the others issue none
    by_cases hj : j = 1
    · subst hj
      exact Program.commitsOnly_ended (by simpa [hp] using hissued)
    · refine ((serving_only deployment .empty [] usedAndRevoked).run ha j p hp).weaken ?_
      rintro t ⟨r, hr, ht⟩ row rfl
      obtain ⟨-, payload, hroute, -⟩ := ht
      match j, hj with
      | 0, _ | 2, _ | 3, _ | 4, _ =>
        cases hr
        cases hroute
      | j + 5, _ => cases hr

end SixGateway.Revocation
