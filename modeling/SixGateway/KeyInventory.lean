import SixGateway.Authentication
import SixGateway.MerchantService

namespace SixGateway.KeyInventory

open Library Models Errors Api ApiKeyService Authentication MerchantService

abbrev Trace := List (AccountCall × Except Exn AccountReply)

structure Register where
  accounts : Accounts
  trace : Trace

def Register.start (merchants : Table Merchant) : Register := ⟨⟨merchants, .empty⟩, []⟩

def issuedRows (t : Trace) : List APIKey :=
  t.filterMap fun e =>
    match e.2 with
    | .ok (.issued row _) => some row
    | _ => none

def revokedIds (t : Trace) : List String :=
  t.filterMap fun e =>
    match e.2 with
    | .ok (.revoked row) => some row.id
    | _ => none

variable (sha256 : String → String)

def Register.after (g : Register) (c : AccountCall) : Register :=
  ⟨(c.outcome sha256 g.accounts).store, g.trace ++ [(c, (c.outcome sha256 g.accounts).result)]⟩

def Register.afterAll (g : Register) (cs : List AccountCall) : Register :=
  cs.foldl (Register.after sha256) g

/-- The time of a call that has verified a key with the given hash. -/
def useOf (keyHash : String) (e : AccountCall × Except Exn AccountReply) : Option Instant :=
  match e.1.op, e.2 with
  | .verifyApiKey rawKey, .ok (.merchant _) =>
    if sha256 rawKey = keyHash then some e.1.env.now else none
  | _, _ => none

def lastUse (keyHash : String) (t : Trace) : Option Instant := (t.filterMap (useOf sha256 keyHash)).getLast?

def current (t : Trace) (row : APIKey) : APIKey :=
  { row with isActive := decide (row.id ∉ revokedIds t), lastUsedAt := lastUse sha256 row.keyHash t }

/-- No key on record has the hash of the key that is about to be issued. -/
def NewHash (g : Register) (c : AccountCall) : Prop :=
  ∀ merchantId name, c.op = .createApiKey merchantId name →
    ∀ k ∈ g.accounts.apiKeys, k.keyHash ≠ sha256 (generateKey c.env.token)

/-- The table of the keys is what the calls and their answers tell. -/
structure Inventoried (g : Register) : Prop where
  rows : g.accounts.apiKeys.rows = (issuedRows g.trace).map (current sha256 g.trace)
  revoked : ∀ id ∈ revokedIds g.trace, ∃ k ∈ g.accounts.apiKeys, k.id = id
  used : ∀ keyHash, lastUse sha256 keyHash g.trace ≠ none →
    ∃ k ∈ g.accounts.apiKeys, k.keyHash = keyHash
  hashes : ∀ k ∈ g.accounts.apiKeys, ∀ l ∈ g.accounts.apiKeys, k.keyHash = l.keyHash → k = l

variable {sha256} {g : Register} {c : AccountCall} {db : Accounts} {t : Trace} {k : APIKey}
  {e : AccountCall × Except Exn AccountReply}

theorem issuedRows_append : issuedRows (t ++ [e]) = issuedRows t ++ issuedRows [e] :=
  List.filterMap_append

theorem revokedIds_append : revokedIds (t ++ [e]) = revokedIds t ++ revokedIds [e] :=
  List.filterMap_append

theorem lastUse_append (keyHash : String) : lastUse sha256 keyHash (t ++ [e]) =
    (useOf sha256 keyHash e).or (lastUse sha256 keyHash t) := by
  rw [lastUse, List.filterMap_append, List.getLast?_append, lastUse]
  cases h : useOf sha256 keyHash e <;> simp [h]

theorem Inventoried.silent (h : Inventoried sha256 g) (hi : issuedRows [e] = [])
    (hr : revokedIds [e] = []) (hu : ∀ keyHash, useOf sha256 keyHash e = none) (db : Accounts)
    (hdb : db.apiKeys = g.accounts.apiKeys) : Inventoried sha256 ⟨db, g.trace ++ [e]⟩ := by
  have hcurrent : current sha256 (g.trace ++ [e]) = current sha256 g.trace := by
    funext row
    simp only [current, revokedIds_append, hr, List.append_nil, lastUse_append, hu, Option.none_or]
  refine ⟨?_, fun id hid => ?_, fun keyHash hlast => ?_, ?_⟩
  · rw [hdb, h.rows, issuedRows_append, hi, List.append_nil, hcurrent]
  · rw [revokedIds_append, hr, List.append_nil] at hid
    exact hdb ▸ h.revoked id hid
  · rw [lastUse_append, hu, Option.none_or] at hlast
    exact hdb ▸ h.used keyHash hlast
  · exact hdb ▸ h.hashes

theorem rows_updateKey {id : String} {f : APIKey → APIKey} {hf : ∀ k, (f k).id = k.id} :
    (db.updateKey id f hf).apiKeys.rows =
      db.apiKeys.rows.map (fun k => if k.id = id then f k else k) := by
  simp [Accounts.updateKey, Table.modify]

theorem Inventoried.update (h : Inventoried sha256 g) {id : String} {f : APIKey → APIKey}
    (hf : ∀ k, (f k).id = k.id) (hhash : ∀ k, (f k).keyHash = k.keyHash)
    (hi : issuedRows [e] = []) (hr : ∀ x ∈ revokedIds [e], ∃ k ∈ g.accounts.apiKeys, k.id = x)
    (hu : ∀ keyHash, useOf sha256 keyHash e ≠ none → ∃ k ∈ g.accounts.apiKeys, k.keyHash = keyHash)
    (hrow : ∀ row ∈ issuedRows g.trace, current sha256 (g.trace ++ [e]) row =
      if row.id = id then f (current sha256 g.trace row) else current sha256 g.trace row) :
    Inventoried sha256 ⟨g.accounts.updateKey id f hf, g.trace ++ [e]⟩ := by
  have hmem : ∀ k ∈ g.accounts.apiKeys, ∃ l ∈ (g.accounts.updateKey id f hf).apiKeys,
      l.id = k.id ∧ l.keyHash = k.keyHash := by
    intro k hk
    refine ⟨_, mem_updateKey.mpr ⟨k, hk, rfl⟩, ?_⟩
    split
    · exact ⟨hf k, hhash k⟩
    · exact ⟨rfl, rfl⟩
  have hback : ∀ l ∈ (g.accounts.updateKey id f hf).apiKeys, ∃ k ∈ g.accounts.apiKeys,
      (if k.id = id then f k else k) = l := fun l hl => mem_updateKey.mp hl
  refine ⟨?_, fun x hx => ?_, fun keyHash hlast => ?_, fun k hk l hl hkl => ?_⟩
  · rw [rows_updateKey, h.rows, issuedRows_append, hi, List.append_nil, List.map_map]
    exact List.map_congr_left (fun row hmem => (hrow row hmem).symm)
  · rw [revokedIds_append] at hx
    obtain ⟨k, hk, rfl⟩ := (List.mem_append.mp hx).elim (h.revoked x) (hr x)
    obtain ⟨l, hl, hid, -⟩ := hmem k hk
    exact ⟨l, hl, hid⟩
  · rw [lastUse_append] at hlast
    obtain ⟨k, hk, rfl⟩ : ∃ k ∈ g.accounts.apiKeys, k.keyHash = keyHash := by
      cases huse : useOf sha256 keyHash e with
      | none => exact h.used keyHash (by simpa [huse] using hlast)
      | some now => exact hu keyHash (by simp [huse])
    obtain ⟨l, hl, -, hh⟩ := hmem k hk
    exact ⟨l, hl, hh⟩
  · obtain ⟨x, hx, rfl⟩ := hback k hk
    obtain ⟨y, hy, rfl⟩ := hback l hl
    have hkept : ∀ z : APIKey, (if z.id = id then f z else z).keyHash = z.keyHash := by
      intro z
      split
      · exact hhash z
      · rfl
    rw [h.hashes x hx y hy (by rwa [hkept, hkept] at hkl)]

theorem mem_current (h : Inventoried sha256 g) {row : APIKey} (hrow : row ∈ issuedRows g.trace) :
    current sha256 g.trace row ∈ g.accounts.apiKeys := by
  have hmem : current sha256 g.trace row ∈ g.accounts.apiKeys.rows :=
    h.rows ▸ List.mem_map_of_mem hrow
  exact hmem

theorem inventoried_issued (h : Inventoried sha256 g) {t : Table APIKey} {rawKey : String}
    (inserted : g.accounts.apiKeys.insert k = some t) (hactive : k.isActive = true)
    (hused : k.lastUsedAt = none) (hnew : ∀ l ∈ g.accounts.apiKeys, l.keyHash ≠ k.keyHash)
    (huse : ∀ keyHash, useOf sha256 keyHash (c, .ok (.issued k rawKey)) = none) :
    Inventoried sha256 ⟨{ g.accounts with apiKeys := t },
      g.trace ++ [(c, .ok (.issued k rawKey))]⟩ := by
  have hi : issuedRows [(c, .ok (.issued k rawKey))] = [k] := rfl
  have hr : revokedIds [(c, .ok (.issued k rawKey))] = [] := rfl
  have hmem : ∀ x, x ∈ t ↔ x ∈ g.accounts.apiKeys ∨ x = k := fun x => Table.mem_insert inserted
  have hcurrent : current sha256 (g.trace ++ [(c, .ok (.issued k rawKey))]) =
      current sha256 g.trace := by
    funext row
    simp only [current, revokedIds_append, hr, List.append_nil, lastUse_append, huse,
      Option.none_or]
  have hself : current sha256 g.trace k = k := by
    have hid : k.id ∉ revokedIds g.trace := by
      intro hin
      obtain ⟨l, hl, hlk⟩ := h.revoked k.id hin
      have hclash := (Table.insert_eq_some inserted).2 l hl
      simp [clash, Keyed.keys, hlk] at hclash
    have hlast : lastUse sha256 k.keyHash g.trace = none := by
      by_contra hne
      obtain ⟨l, hl, hh⟩ := h.used k.keyHash hne
      exact hnew l hl hh
    simp only [current, hid, not_false_eq_true, decide_true, hlast, ← hactive, ← hused]
  refine ⟨?_, fun x hx => ?_, fun keyHash hlast => ?_, fun x hx y hy hxy => ?_⟩
  · rw [(Table.insert_eq_some inserted).1, h.rows, issuedRows_append, hi, hcurrent,
      List.map_append, List.map_singleton, hself]
  · rw [revokedIds_append, hr, List.append_nil] at hx
    obtain ⟨l, hl, hid⟩ := h.revoked x hx
    exact ⟨l, (hmem l).mpr (.inl hl), hid⟩
  · rw [lastUse_append, huse, Option.none_or] at hlast
    obtain ⟨l, hl, hh⟩ := h.used keyHash hlast
    exact ⟨l, (hmem l).mpr (.inl hl), hh⟩
  · obtain hold | hxk := (hmem x).mp hx
    · obtain hold' | hyk := (hmem y).mp hy
      · exact h.hashes x hold y hold' hxy
      · exact absurd (hyk ▸ hxy) (hnew x hold)
    · obtain hold' | hyk := (hmem y).mp hy
      · exact absurd (hxk ▸ hxy.symm) (hnew y hold')
      · exact hxk.trans hyk.symm

theorem inventoried_revoked (h : Inventoried sha256 g) (hk : k ∈ g.accounts.apiKeys)
    (huse : ∀ keyHash, useOf sha256 keyHash (c, .ok (.revoked { k with isActive := false })) = none) :
    Inventoried sha256 ⟨g.accounts.updateKey k.id (fun k => { k with isActive := false })
      (fun _ => rfl), g.trace ++ [(c, .ok (.revoked { k with isActive := false }))]⟩ := by
  have hr : revokedIds [(c, .ok (.revoked { k with isActive := false }))] = [k.id] := rfl
  refine h.update (f := fun k => { k with isActive := false }) (fun _ => rfl) (fun _ => rfl) rfl
    (fun x hx => ⟨k, hk, ?_⟩) (fun keyHash hne => absurd (huse keyHash) hne) (fun row _ => ?_)
  · exact (List.mem_singleton.mp hx).symm
  · simp only [current, revokedIds_append, hr, lastUse_append, huse, Option.none_or]
    split
    · next hid => simp [hid]
    · next hid => simp [hid]

theorem inventoried_verified (h : Inventoried sha256 g) {rawKey : String} {m : Merchant}
    (asked : c.op = .verifyApiKey rawKey) (hk : k ∈ g.accounts.apiKeys)
    (hash : k.keyHash = sha256 rawKey) :
    Inventoried sha256 ⟨g.accounts.updateKey k.id (fun k => { k with lastUsedAt := some c.env.now })
      (fun _ => rfl), g.trace ++ [(c, .ok (.merchant m))]⟩ := by
  have hr : revokedIds [(c, .ok (.merchant m))] = [] := rfl
  have huse : ∀ keyHash, useOf sha256 keyHash (c, .ok (.merchant m)) =
      if sha256 rawKey = keyHash then some c.env.now else none := by
    intro keyHash
    simp only [useOf, asked]
  refine h.update (f := fun k => { k with lastUsedAt := some c.env.now })
    (e := (c, .ok (.merchant m))) (fun _ => rfl) (fun _ => rfl) rfl (fun x hx => ?_)
    (fun keyHash hne => ?_) (fun row hrow => ?_)
  · exact absurd (hr ▸ hx) List.not_mem_nil
  · rw [huse] at hne
    split at hne
    · next hsame => exact ⟨k, hk, hash.trans hsame⟩
    · exact absurd rfl hne
  · -- The row with the id of the verified key is the one with its hash.
    have hsame : row.id = k.id ↔ sha256 rawKey = row.keyHash := by
      have hmem := mem_current h hrow
      constructor
      · intro hid
        rw [← hash, ← key_eq_of_id hmem hk hid]
        rfl
      · intro hh
        have heq := h.hashes _ hmem k hk (hh.symm.trans hash.symm)
        rw [← heq]
        rfl
    simp only [current, revokedIds_append, hr, List.append_nil, lastUse_append, huse]
    by_cases hid : row.id = k.id
    · simp [hid, hsame.mp hid]
    · simp [hid, mt hsame.mpr hid]

theorem inventoried_after (h : Inventoried sha256 g) (hn : NewHash sha256 g c) :
    Inventoried sha256 (g.after sha256 c) := by
  rw [Register.after, AccountCall.outcome]
  cases hop : c.op with
  | createApiKey merchantId name =>
    have huse : ∀ reply keyHash, useOf sha256 keyHash (c, reply) = none := by
      intro reply keyHash
      simp only [useOf, hop]
    rw [AccountOp.program, exec_map]
    have ho : CreateKeyOutcome sha256 merchantId name c.env g.accounts (serveAccount _ g.accounts) :=
      createApiKey_outcome merchantId name c.env g.accounts
    generalize serveAccount _ _ = out at ho ⊢
    cases ho with
    | refused e => exact h.silent rfl rfl (huse _) g.accounts rfl
    | issued lookup parsed t inserted =>
      exact inventoried_issued h inserted rfl rfl (hn merchantId name hop) (huse _)
  | revokeApiKey keyId merchantId =>
    have huse : ∀ reply keyHash, useOf sha256 keyHash (c, reply) = none := by
      intro reply keyHash
      simp only [useOf, hop]
    rw [AccountOp.program, exec_map]
    by_cases hk : ∃ k ∈ g.accounts.apiKeys, k.id = keyId ∧ k.merchantId = merchantId
    · obtain ⟨k, hk, hid, ho⟩ := hk
      rw [revokeApiKey_found hk hid ho]
      exact inventoried_revoked h hk (huse _)
    · rw [revokeApiKey_missing (fun k hk' hid ho => hk ⟨k, hk', hid, ho⟩)]
      exact h.silent rfl rfl (huse _) g.accounts rfl
  | verifyApiKey rawKey =>
    rw [AccountOp.program, exec_map]
    have ho : VerifyOutcome sha256 rawKey c.env g.accounts (serveAccount _ g.accounts) :=
      verifyApiKey_outcome sha256 rawKey c.env g.accounts
    generalize serveAccount _ _ = out at ho ⊢
    cases ho with
    | refused detail =>
      refine h.silent rfl rfl (fun keyHash => ?_) g.accounts rfl
      simp only [useOf, hop]
      rfl
    | verified k member hash active m =>
      exact inventoried_verified h hop member hash
  | setActive merchantId isActive =>
    rw [AccountOp.program, serveAccount, Program.exec_commit_ok rfl]
    refine h.silent rfl rfl (fun keyHash => ?_) _ rfl
    simp only [useOf, hop]

def Along (sha256 : String → String) (C : Register → AccountCall → Prop) (g : Register)
    (cs : List AccountCall) : Prop :=
  Run.Along (fun g c => some (Register.after sha256 g c)) C g cs

theorem inventoried_afterAll (merchants : Table Merchant) (cs : List AccountCall)
    (hn : Along sha256 (NewHash sha256) (.start merchants) cs) :
    Inventoried sha256 ((Register.start merchants).afterAll sha256 cs) := by
  have hstart : Inventoried sha256 (.start merchants) :=
    ⟨rfl, fun x hx => absurd hx List.not_mem_nil, fun keyHash hlast => absurd rfl hlast,
      fun k hk => absurd hk List.not_mem_nil⟩
  refine @Run.invariant _ _ (fun g c => some (Register.after sha256 g c)) (NewHash sha256)
    (Inventoried sha256) ?_ _ _ _ hstart hn (Run.run_total (Register.after sha256) _ cs)
  intro g c g' hg hc hg'
  cases hg'
  exact inventoried_after hg hc

/-- After any calls, the list of a merchant's keys has every key that was issued to the merchant,
newest first, active unless it was revoked, and used when a call last verified it. -/
theorem inventory_exact (sha256 : String → String) (merchants : Table Merchant)
    (cs : List AccountCall) (hn : Along sha256 (NewHash sha256) (.start merchants) cs)
    (merchantId : String) (order : RowOrder APIKey)
    (answer : StripeClient.StripeCall → StripeClient.StripeAnswer) (db : Database.Db) :
    let g := (Register.start merchants).afterAll sha256 cs
    ∃ rows, (MerchantService.listApiKeys merchantId order).exec SiteStmt.apply answer
        ⟨g.accounts, db⟩ = ⟨⟨g.accounts, db⟩, [], .ok rows⟩ ∧
      rows.Pairwise newestKeyFirst ∧
      rows.Perm (((issuedRows g.trace).filter
        (fun row => decide (row.merchantId = merchantId))).map (current sha256 g.trace)) := by
  intro g
  have hrows := (inventoried_afterAll merchants cs hn).rows
  refine ⟨_, rfl, List.pairwise_insertionSort _ _, (List.perm_insertionSort _ _).trans ?_⟩
  refine (order.perm _).trans (List.Perm.of_eq ?_)
  rw [Table.select, hrows, List.filter_map]
  rfl

/-- Bob uses his key after Alice's has been revoked. -/
def revokedAndUsed : List AccountCall :=
  colliding ++ [⟨.verifyApiKey (generateKey bobToken), ⟨4, "", spareToken, .reversed⟩⟩]

theorem inventory_exact_used :
    let g := (Register.start both).afterAll digest revokedAndUsed
    ∃ rows, (MerchantService.listApiKeys "mer_bob" .stored).exec SiteStmt.apply
        (fun _ => .error "") ⟨g.accounts, .empty⟩ = ⟨⟨g.accounts, .empty⟩, [], .ok rows⟩ ∧
      rows.Pairwise newestKeyFirst ∧
      rows.Perm (((issuedRows g.trace).filter
        (fun row => decide (row.merchantId = "mer_bob"))).map (current digest g.trace)) :=
  inventory_exact digest both revokedAndUsed
    (Run.along_mono (C := fun g c => ∀ k ∈ g.accounts.apiKeys,
        k.keyHash ≠ digest (generateKey c.env.token))
      (fun _ _ hf _ _ _ => hf) _ _ (by decide +kernel))
    "mer_bob" .stored _ .empty

end SixGateway.KeyInventory
