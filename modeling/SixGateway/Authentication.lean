import SixGateway.ApiKeyService
import SixGateway.Library.Run

namespace SixGateway.Authentication

open Library Models Errors Api ApiKeyService

inductive AccountOp where
  | createApiKey (merchantId name : String)
  | revokeApiKey (keyId merchantId : String)
  | verifyApiKey (rawKey : String)
  | setActive (merchantId : String) (isActive : Bool)

inductive AccountReply where
  | issued (row : APIKey) (rawKey : String)
  | revoked (row : APIKey)
  | merchant (m : Merchant)
  | updated
  deriving DecidableEq

/-- A call, or an operator's update of a merchant, which no route makes. -/
def AccountOp.program (sha256 : String → String) : AccountOp → KeyEnv → AccountService AccountReply
  | createApiKey merchantId name, env =>
    (ApiKeyService.createApiKey sha256 merchantId name env).bind (fun a => .ret (.issued a.1 a.2))
  | revokeApiKey keyId merchantId, _ =>
    (ApiKeyService.revokeApiKey keyId merchantId).bind (fun row => .ret (.revoked row))
  | verifyApiKey rawKey, env =>
    (ApiKeyService.verifyApiKey sha256 rawKey env).bind (fun m => .ret (.merchant m))
  | setActive merchantId isActive, _ => .commit (.setActive merchantId isActive) (.ret .updated)

structure AccountCall where
  op : AccountOp
  env : KeyEnv

abbrev serveAccount {α : Type} (p : AccountService α) (db : Accounts) :
    Outcome Accounts Empty Empty Exn α :=
  p.exec AccountStmt.apply (fun q => nomatch q) db

abbrev Log := List (AccountOp × Except Exn AccountReply)

/-- The accounts, and what every call so far was answered. -/
structure History where
  accounts : Accounts
  log : Log

def AccountCall.outcome (sha256 : String → String) (c : AccountCall) (db : Accounts) :
    Outcome Accounts Empty Empty Exn AccountReply :=
  serveAccount (c.op.program sha256 c.env) db

def History.after (sha256 : String → String) (h : History) (c : AccountCall) : History :=
  ⟨(c.outcome sha256 h.accounts).store, h.log ++ [(c.op, (c.outcome sha256 h.accounts).result)]⟩

def History.afterAll (sha256 : String → String) (h : History) (cs : List AccountCall) : History :=
  cs.foldl (History.after sha256) h

def History.start (merchants : Table Merchant) : History := ⟨⟨merchants, .empty⟩, []⟩

/-- A key that was issued: the key, for whom, and the id of its row. -/
structure Issue where
  rawKey : String
  merchantId : String
  keyId : String
  deriving DecidableEq

def issues (log : Log) : List Issue :=
  log.filterMap fun c =>
    match c with
    | (.createApiKey merchantId _, .ok (.issued row rawKey)) => some ⟨rawKey, merchantId, row.id⟩
    | _ => none

def revocations (log : Log) : List String :=
  log.filterMap fun c =>
    match c with
    | (.revokeApiKey keyId _, .ok (.revoked _)) => some keyId
    | _ => none

/-- The key was issued to the merchant, it has not been revoked, and the merchant is active. -/
def Valid (h : History) (rawKey : String) (m : Merchant) : Prop :=
  m ∈ h.accounts.merchants ∧ m.isActive = true ∧
    ∃ keyId, ⟨rawKey, m.id, keyId⟩ ∈ issues h.log ∧ keyId ∉ revocations h.log

def Fresh (h : History) (c : AccountCall) : Prop :=
  ∀ merchantId name, c.op = .createApiKey merchantId name →
    ∀ i ∈ issues h.log, i.rawKey ≠ generateKey c.env.token

/-- The rows of the keys are those of the keys issued, and tell which of them are revoked. -/
structure Recorded (sha256 : String → String) (keys : Table APIKey) (is : List Issue)
    (revoked : List String) : Prop where
  issued : ∀ i ∈ is, ∃ k ∈ keys, k.id = i.keyId ∧ k.merchantId = i.merchantId ∧
    k.keyHash = sha256 i.rawKey ∧ extractLookupPrefix i.rawKey = some k.keyPrefix ∧
    (k.isActive = true ↔ i.keyId ∉ revoked)
  rows : ∀ k ∈ keys, ∃ i ∈ is, i.keyId = k.id
  known : ∀ id ∈ revoked, ∃ k ∈ keys, k.id = id
  distinct : ∀ i ∈ is, ∀ j ∈ is, i.rawKey = j.rawKey → i = j

variable {sha256 : String → String} {db : Accounts} {h : History} {c : AccountCall} {k : APIKey}
  {m : Merchant} {rawKey : String} {env : KeyEnv}

theorem keyById_of_mem (hk : k ∈ db.apiKeys) : db.keyById k.id = some k :=
  Table.find?_eq hk (k := k.id) (by simp [Keyed.keys]) (by simp [Keyed.keys, eq_comm])

theorem key_eq_of_id {k' : APIKey} (hk : k ∈ db.apiKeys) (hk' : k' ∈ db.apiKeys)
    (hid : k.id = k'.id) : k = k' :=
  Table.eq_of_key hk hk' (k := k.id) (by simp [Keyed.keys]) (by simp [Keyed.keys, hid])

theorem merchantById_of_mem (hm : m ∈ db.merchants) : db.merchantById m.id = some m :=
  Table.find?_eq hm (k := .id m.id) (by simp [Keyed.keys]) (by simp [Keyed.keys, eq_comm])

theorem merchantById_some {id : String} (hm : db.merchantById id = some m) :
    m ∈ db.merchants ∧ m.id = id := by
  simpa using Table.find?_some hm

theorem mem_updateKey {id : String} {f : APIKey → APIKey} {hf : ∀ k, (f k).id = k.id} :
    k ∈ (db.updateKey id f hf).apiKeys ↔ ∃ x ∈ db.apiKeys, (if x.id = id then f x else x) = k := by
  have h : k ∈ (db.updateKey id f hf).apiKeys ↔ _ :=
    Table.mem_modify (f := f) (fun k => congrArg (fun v => [v]) (hf k))
  simpa only [decide_eq_true_eq] using h

theorem serve_refreshKey {row : APIKey} (hk : k ∈ db.apiKeys) (hid : row.id = k.id) :
    serveAccount (refreshKey row) db = ⟨db, [], .ok k⟩ := by
  simp [serveAccount, refreshKey, hid, keyById_of_mem hk]

inductive VerifyOutcome (sha256 : String → String) (rawKey : String) (env : KeyEnv)
    (db : Accounts) : Outcome Accounts Empty Empty Exn Merchant → Prop
  | refused (detail : String) :
      VerifyOutcome sha256 rawKey env db ⟨db, [], .error (unauthorized detail)⟩
  | verified (k : APIKey) (member : k ∈ db.apiKeys) (hash : k.keyHash = sha256 rawKey)
      (active : k.isActive = true) (m : Merchant) (owner : m ∈ db.merchants)
      (owned : m.id = k.merchantId) (working : m.isActive = true) :
      VerifyOutcome sha256 rawKey env db
        ⟨db.updateKey k.id (fun k => { k with lastUsedAt := some env.now }) (fun _ => rfl), [], .ok m⟩

theorem verifyApiKey_outcome (sha256 : String → String) (rawKey : String) (env : KeyEnv)
    (db : Accounts) :
    VerifyOutcome sha256 rawKey env db (serveAccount (verifyApiKey sha256 rawKey env) db) := by
  unfold verifyApiKey
  split
  · exact .refused _
  · split
    · exact .refused _
    · next lookup hl =>
      simp only [serveAccount, Program.exec_read]
      cases hf : (env.order.arrange (db.apiKeys.select (fun k => decide
          (k.keyPrefix = lookup)))).find? (fun k => decide (k.keyHash = sha256 rawKey)) with
      | none => exact .refused _
      | some k =>
        have hk := env.order.mem_arrange.mp (List.mem_of_find?_eq_some hf)
        have hash : k.keyHash = sha256 rawKey := by simpa using List.find?_some hf
        have member : k ∈ db.apiKeys := List.mem_of_mem_filter hk
        simp only [verifyMatched]
        split
        · next active =>
          simp only [Program.exec_read]
          cases hm : db.merchantById k.merchantId with
          | none => exact .refused _
          | some m =>
            obtain ⟨owner, owned⟩ := merchantById_some hm
            simp only [verifyOwner]
            split
            · next working => exact .verified k member hash active m owner owned working
            · exact .refused _
        · exact .refused _

theorem verifyApiKey_ok (hk : k ∈ db.apiKeys) (hl : extractLookupPrefix rawKey = some k.keyPrefix)
    (hh : k.keyHash = sha256 rawKey) (hu : ∀ x ∈ db.apiKeys, x.keyHash = sha256 rawKey → x = k)
    (ha : k.isActive = true) (hm : m ∈ db.merchants) (ho : m.id = k.merchantId)
    (hw : m.isActive = true) :
    (serveAccount (verifyApiKey sha256 rawKey env) db).result = .ok m := by
  have hne : rawKey ≠ "" := by
    rintro rfl
    exact absurd hl (by simp [extractLookupPrefix, keyLiteral])
  have hsel : k ∈ db.apiKeys.select (fun x => decide (x.keyPrefix = k.keyPrefix)) :=
    List.mem_filter.mpr ⟨hk, by simp⟩
  have hf := env.order.find?_arrange (p := fun x => decide (x.keyHash = sha256 rawKey)) hsel
    (by simp [hh]) (fun x hx hp => hu x (List.mem_of_mem_filter hx) (by simpa using hp))
  simp only [serveAccount, verifyApiKey, hne, if_false, hl, Program.exec_read, hf, verifyMatched, ha,
    if_true, ← ho, merchantById_of_mem hm, verifyOwner, hw]
  exact congrArg Outcome.result (Program.exec_commit_ok rfl _)

inductive CallEffect (sha256 : String → String) (db : Accounts) (c : AccountCall) :
    Accounts → Except Exn AccountReply → Prop
  | failed (e : Exn) : CallEffect sha256 db c db (.error e)
  | issued (merchantId name : String) (asked : c.op = .createApiKey merchantId name)
      (lookup : String) (parsed : extractLookupPrefix (generateKey c.env.token) = some lookup)
      (t : Table APIKey) (inserted : db.apiKeys.insert (newKey sha256 merchantId name c.env
        (generateKey c.env.token) lookup) = some t) :
      CallEffect sha256 db c { db with apiKeys := t } (.ok (.issued (newKey sha256 merchantId name
        c.env (generateKey c.env.token) lookup) (generateKey c.env.token)))
  | revoked (keyId merchantId : String) (asked : c.op = .revokeApiKey keyId merchantId)
      (k : APIKey) (member : k ∈ db.apiKeys) (named : k.id = keyId)
      (owned : k.merchantId = merchantId) :
      CallEffect sha256 db c (db.updateKey k.id (fun k => { k with isActive := false }) (fun _ => rfl))
        (.ok (.revoked { k with isActive := false }))
  | verified (rawKey keyId : String) (asked : c.op = .verifyApiKey rawKey) (m : Merchant) :
      CallEffect sha256 db c
        (db.updateKey keyId (fun k => { k with lastUsedAt := some c.env.now }) (fun _ => rfl))
        (.ok (.merchant m))
  | updated (merchantId : String) (isActive : Bool) (asked : c.op = .setActive merchantId isActive)
      (t : Table Merchant) : CallEffect sha256 db c { db with merchants := t } (.ok .updated)

theorem exec_map {α β : Type} (p : AccountService α) (f : α → β) (db : Accounts) :
    serveAccount (p.bind (fun a => .ret (f a))) db = ⟨(serveAccount p db).store,
      (serveAccount p db).calls, (serveAccount p db).result.map f⟩ := by
  rw [serveAccount, Program.exec_bind]
  cases h : (serveAccount p db).result with
  | error e => rfl
  | ok a => simp only [Program.exec_ret, List.append_nil, Except.map]

inductive CreateKeyOutcome (sha256 : String → String) (merchantId name : String) (env : KeyEnv)
    (db : Accounts) : Outcome Accounts Empty Empty Exn (APIKey × String) → Prop
  | refused (e : Exn) : CreateKeyOutcome sha256 merchantId name env db ⟨db, [], .error e⟩
  | issued (lookup : String) (parsed : extractLookupPrefix (generateKey env.token) = some lookup)
      (t : Table APIKey) (inserted : db.apiKeys.insert (newKey sha256 merchantId name env
        (generateKey env.token) lookup) = some t) :
      CreateKeyOutcome sha256 merchantId name env db ⟨{ db with apiKeys := t }, [],
        .ok (newKey sha256 merchantId name env (generateKey env.token) lookup,
          generateKey env.token)⟩

theorem createApiKey_outcome (merchantId name : String) (env : KeyEnv) (db : Accounts) :
    CreateKeyOutcome sha256 merchantId name env db
      (serveAccount (createApiKey sha256 merchantId name env) db) := by
  simp only [createApiKey]
  split
  · exact .refused _
  · next lookup hl =>
    cases hc : AccountStmt.apply (.insertKey (newKey sha256 merchantId name env
        (generateKey env.token) lookup)) db with
    | error e =>
      rw [serveAccount, Program.exec_commit_error hc]
      exact .refused e
    | ok db' =>
      rw [serveAccount, Program.exec_commit_ok hc, Program.exec_bind]
      simp only [AccountStmt.apply] at hc
      split at hc
      · next m t hm inserted =>
        cases hc
        have hr : serveAccount (refreshKey (newKey sha256 merchantId name env
            (generateKey env.token) lookup)) { db with apiKeys := t } = _ :=
          serve_refreshKey ((Table.mem_insert inserted).mpr (.inr rfl)) rfl
        rw [serveAccount] at hr
        rw [hr]
        exact .issued lookup hl t inserted
      · cases hc

theorem revokeApiKey_missing {keyId merchantId : String}
    (hn : ∀ k ∈ db.apiKeys, k.id = keyId → k.merchantId ≠ merchantId) :
    serveAccount (revokeApiKey keyId merchantId) db = ⟨db, [], .error (keyNotFound keyId)⟩ := by
  have hf : db.apiKeys.find? (fun k => decide (k.id = keyId ∧ k.merchantId = merchantId)) = none :=
    List.find?_eq_none.mpr (fun k hk => by simpa using hn k hk)
  simp only [serveAccount, revokeApiKey, Program.exec_read, hf, revokeLooked, Program.exec_raise]

theorem revokeApiKey_found {keyId merchantId : String} (hk : k ∈ db.apiKeys) (hid : k.id = keyId)
    (ho : k.merchantId = merchantId) :
    serveAccount (revokeApiKey keyId merchantId) db =
      ⟨db.updateKey k.id (fun k => { k with isActive := false }) (fun _ => rfl), [],
        .ok { k with isActive := false }⟩ := by
  have hf : db.apiKeys.find? (fun x => decide (x.id = keyId ∧ x.merchantId = merchantId)) =
      some k := by
    cases h : db.apiKeys.find? (fun x => decide (x.id = keyId ∧ x.merchantId = merchantId)) with
    | none => exact absurd (Table.find?_none h hk) (by simp [hid, ho])
    | some x =>
      obtain ⟨hx, hp⟩ := Table.find?_some h
      rw [key_eq_of_id hx hk ((of_decide_eq_true hp).1.trans hid.symm)]
  have hm : { k with isActive := false } ∈
      (db.updateKey k.id (fun k => { k with isActive := false }) (fun _ => rfl)).apiKeys :=
    mem_updateKey.mpr ⟨k, hk, by simp⟩
  have hr : serveAccount (refreshKey { k with isActive := false }) _ = _ := serve_refreshKey hm rfl
  simp only [serveAccount, revokeApiKey, Program.exec_read, hf, revokeLooked]
  rw [Program.exec_commit_ok rfl]
  exact hr

theorem call_effect (sha256 : String → String) (db : Accounts) (c : AccountCall) :
    CallEffect sha256 db c (c.outcome sha256 db).store (c.outcome sha256 db).result := by
  rw [AccountCall.outcome]
  cases hop : c.op with
  | createApiKey merchantId name =>
    rw [AccountOp.program, exec_map]
    have h : CreateKeyOutcome sha256 merchantId name c.env db (serveAccount _ db) :=
      createApiKey_outcome merchantId name c.env db
    generalize serveAccount _ _ = out at h ⊢
    cases h with
    | refused e => exact .failed e
    | issued lookup parsed t inserted => exact .issued merchantId name hop lookup parsed t inserted
  | revokeApiKey keyId merchantId =>
    rw [AccountOp.program, exec_map]
    by_cases hk : ∃ k ∈ db.apiKeys, k.id = keyId ∧ k.merchantId = merchantId
    · obtain ⟨k, hk, hid, ho⟩ := hk
      rw [revokeApiKey_found hk hid ho]
      exact .revoked keyId merchantId hop k hk hid ho
    · rw [revokeApiKey_missing (fun k hk' hid ho => hk ⟨k, hk', hid, ho⟩)]
      exact .failed _
  | verifyApiKey rawKey =>
    rw [AccountOp.program, exec_map]
    have h : VerifyOutcome sha256 rawKey c.env db (serveAccount _ db) :=
      verifyApiKey_outcome sha256 rawKey c.env db
    generalize serveAccount _ _ = out at h ⊢
    cases h with
    | refused detail => exact .failed _
    | verified k member hash active m => exact .verified rawKey k.id hop m
  | setActive merchantId isActive =>
    rw [AccountOp.program, serveAccount, Program.exec_commit_ok rfl]
    exact .updated merchantId isActive hop _

variable {is : List Issue} {revoked : List String}

theorem recorded_empty (sha256 : String → String) : Recorded sha256 .empty [] [] := by
  constructor <;> simp

theorem Recorded.update (hr : Recorded sha256 db.apiKeys is revoked) {id : String}
    {f : APIKey → APIKey} {hf : ∀ k, (f k).id = k.id} {revoked' : List String}
    (hknown : ∀ x ∈ revoked', x ∈ revoked ∨ ∃ k ∈ db.apiKeys, k.id = x)
    (hkept : ∀ k : APIKey, k.id ≠ id → (k.id ∈ revoked' ↔ k.id ∈ revoked))
    (hnew : ∀ k ∈ db.apiKeys, k.id = id → (k.isActive = true ↔ k.id ∉ revoked) →
      (f k).merchantId = k.merchantId ∧ (f k).keyHash = k.keyHash ∧
        (f k).keyPrefix = k.keyPrefix ∧ ((f k).isActive = true ↔ k.id ∉ revoked')) :
    Recorded sha256 (db.updateKey id f hf).apiKeys is revoked' := by
  have hid : ∀ k : APIKey, (if k.id = id then f k else k).id = k.id := by
    intro k
    split
    · exact hf k
    · rfl
  have hmem : ∀ k ∈ db.apiKeys, (if k.id = id then f k else k) ∈ (db.updateKey id f hf).apiKeys :=
    fun k hk => mem_updateKey.mpr ⟨k, hk, rfl⟩
  refine ⟨fun i hi => ?_, fun x hx => ?_, fun x hx => ?_, hr.distinct⟩
  · obtain ⟨k, hk, hki, hm, hh, hl, ha⟩ := hr.issued i hi
    rw [← hki] at ha
    refine ⟨_, hmem k hk, (hid k).trans hki, ?_⟩
    rw [← hki]
    split
    · next h =>
      obtain ⟨hm', hh', hl', ha'⟩ := hnew k hk h ha
      exact ⟨hm'.trans hm, hh'.trans hh, hl' ▸ hl, ha'⟩
    · next h => exact ⟨hm, hh, hl, by rw [hkept k h]; exact ha⟩
  · obtain ⟨k, hk, rfl⟩ := mem_updateKey.mp hx
    rw [hid]
    exact hr.rows k hk
  · obtain ⟨k, hk, rfl⟩ : ∃ k ∈ db.apiKeys, k.id = x :=
      (hknown x hx).elim (hr.known x) (fun h => h)
    exact ⟨_, hmem k hk, hid k⟩

theorem Recorded.issue (hr : Recorded sha256 db.apiKeys is revoked) {t : Table APIKey}
    (inserted : db.apiKeys.insert k = some t) (hh : k.keyHash = sha256 rawKey)
    (hl : extractLookupPrefix rawKey = some k.keyPrefix) (ha : k.isActive = true)
    (hf : ∀ i ∈ is, i.rawKey ≠ rawKey) :
    Recorded sha256 t (is ++ [⟨rawKey, k.merchantId, k.id⟩]) revoked := by
  have hm : ∀ x, x ∈ t ↔ x ∈ db.apiKeys ∨ x = k := fun x => Table.mem_insert inserted
  have hnew : k.id ∉ revoked := by
    intro hin
    obtain ⟨x, hx, hid⟩ := hr.known k.id hin
    have hc := (Table.insert_eq_some inserted).2 x hx
    simp [clash, Keyed.keys, hid] at hc
  refine ⟨fun i hi => ?_, fun x hx => ?_, fun x hx => ?_, fun i hi j hj hij => ?_⟩
  · obtain hi | rfl := (List.mem_append.mp hi).imp_right List.mem_singleton.mp
    · obtain ⟨x, hx, h⟩ := hr.issued i hi
      exact ⟨x, (hm x).mpr (.inl hx), h⟩
    · exact ⟨k, (hm k).mpr (.inr rfl), rfl, rfl, hh, hl, by simp [ha, hnew]⟩
  · obtain hx | rfl := (hm x).mp hx
    · obtain ⟨i, hi, hid⟩ := hr.rows x hx
      exact ⟨i, List.mem_append_left _ hi, hid⟩
    · exact ⟨_, List.mem_append_right _ (List.mem_singleton_self _), rfl⟩
  · obtain ⟨y, hy, hid⟩ := hr.known x hx
    exact ⟨y, (hm y).mpr (.inl hy), hid⟩
  · obtain hi | rfl := (List.mem_append.mp hi).imp_right List.mem_singleton.mp
    · obtain hj | rfl := (List.mem_append.mp hj).imp_right List.mem_singleton.mp
      · exact hr.distinct i hi j hj hij
      · exact absurd hij (hf i hi)
    · obtain hj | rfl := (List.mem_append.mp hj).imp_right List.mem_singleton.mp
      · exact absurd hij.symm (hf j hj)
      · rfl

theorem issues_append (log : Log) (e : AccountOp × Except Exn AccountReply) :
    issues (log ++ [e]) = issues log ++ issues [e] := List.filterMap_append

theorem revocations_append (log : Log) (e : AccountOp × Except Exn AccountReply) :
    revocations (log ++ [e]) = revocations log ++ revocations [e] := List.filterMap_append

abbrev Known (sha256 : String → String) (h : History) : Prop :=
  Recorded sha256 h.accounts.apiKeys (issues h.log) (revocations h.log)

theorem quiet {op : AccountOp} {r : Except Exn AccountReply}
    (hi : ∀ row rawKey, r ≠ .ok (.issued row rawKey)) (hv : ∀ row, r ≠ .ok (.revoked row)) :
    issues [(op, r)] = [] ∧ revocations [(op, r)] = [] := by
  cases r with
  | error e => cases op <;> exact ⟨rfl, rfl⟩
  | ok reply =>
    cases reply with
    | issued row rawKey => exact absurd rfl (hi row rawKey)
    | revoked row => exact absurd rfl (hv row)
    | merchant m => cases op <;> exact ⟨rfl, rfl⟩
    | updated => cases op <;> exact ⟨rfl, rfl⟩

theorem known_after (hr : Known sha256 h) (hf : Fresh h c) : Known sha256 (h.after sha256 c) := by
  have he := call_effect sha256 h.accounts c
  simp only [Known, History.after, issues_append, revocations_append]
  generalize (c.outcome sha256 h.accounts).store = store at he
  generalize (c.outcome sha256 h.accounts).result = result at he
  cases he with
  | failed e =>
    obtain ⟨hi, hv⟩ := @quiet c.op (.error e) (by simp) (by simp)
    rw [hi, hv, List.append_nil, List.append_nil]
    exact hr
  | issued merchantId name asked lookup parsed t inserted =>
    rw [asked]
    have hv : ∀ row rawKey, revocations [(.createApiKey merchantId name,
        .ok (.issued row rawKey))] = [] := fun _ _ => rfl
    rw [hv, List.append_nil]
    exact Recorded.issue hr inserted rfl parsed rfl (hf merchantId name asked)
  | revoked keyId merchantId asked k member named owned =>
    rw [asked]
    have hi : ∀ row, issues [(.revokeApiKey keyId merchantId, .ok (.revoked row))] = [] :=
      fun _ => rfl
    have hv : ∀ row, revocations [(.revokeApiKey keyId merchantId, .ok (.revoked row))] = [keyId] :=
      fun _ => rfl
    rw [hi, hv, List.append_nil]
    refine Recorded.update hr (fun x hx => ?_) (fun x hx => ?_) (fun x hx hid _ => ?_)
    · refine (List.mem_append.mp hx).imp_right (fun hx => ?_)
      exact ⟨k, member, named.trans (List.mem_singleton.mp hx).symm⟩
    · rw [named] at hx
      simp [hx]
    · exact ⟨rfl, rfl, rfl, by simp [hid, named]⟩
  | verified rawKey keyId asked m =>
    obtain ⟨hi, hv⟩ := @quiet c.op (.ok (.merchant m)) (by simp) (by simp)
    rw [hi, hv, List.append_nil, List.append_nil]
    exact Recorded.update hr (fun x hx => .inl hx) (fun _ _ => Iff.rfl)
      (fun x hx hid ha => ⟨rfl, rfl, rfl, ha⟩)
  | updated merchantId isActive asked t =>
    obtain ⟨hi, hv⟩ := @quiet c.op (.ok .updated) (by simp) (by simp)
    rw [hi, hv, List.append_nil, List.append_nil]
    exact hr

def Along (sha256 : String → String) (C : History → AccountCall → Prop) (h : History)
    (cs : List AccountCall) : Prop :=
  Run.Along (fun h c => some (History.after sha256 h c)) C h cs

theorem known_afterAll (merchants : Table Merchant) (cs : List AccountCall)
    (hf : Along sha256 Fresh (.start merchants) cs) :
    Known sha256 ((History.start merchants).afterAll sha256 cs) := by
  refine @Run.invariant _ _ (fun h c => some (History.after sha256 h c)) Fresh (Known sha256) ?_ _ _
    _ (recorded_empty sha256) hf (Run.run_total (History.after sha256) _ cs)
  intro h c t hk hfc ht
  cases ht
  exact known_after hk hfc

theorem afterAll_append (h : History) (cs ds : List AccountCall) :
    h.afterAll sha256 (cs ++ ds) = (h.afterAll sha256 cs).afterAll sha256 ds := List.foldl_append

theorem revocations_afterAll (h : History) (cs : List AccountCall) :
    revocations h.log ⊆ revocations (h.afterAll sha256 cs).log ∧
      issues h.log ⊆ issues (h.afterAll sha256 cs).log := by
  induction cs generalizing h with
  | nil => exact ⟨List.Subset.refl _, List.Subset.refl _⟩
  | cons c cs ih =>
    obtain ⟨hv, hi⟩ := ih (h.after sha256 c)
    simp only [History.after, revocations_append, issues_append] at hv hi
    exact ⟨fun x hx => hv (List.mem_append_left _ hx), fun x hx => hi (List.mem_append_left _ hx)⟩

/-- Where the hash of a key is that of no other key issued, the key is verified for a merchant
exactly when it is valid for it. -/
theorem verified_iff (hr : Known sha256 h)
    (hc : ∀ i ∈ issues h.log, sha256 i.rawKey = sha256 rawKey → i.rawKey = rawKey) :
    (serveAccount (verifyApiKey sha256 rawKey env) h.accounts).result = .ok m ↔
      Valid h rawKey m := by
  have hrow : ∀ k ∈ h.accounts.apiKeys, k.keyHash = sha256 rawKey →
      ⟨rawKey, k.merchantId, k.id⟩ ∈ issues h.log ∧
        (k.isActive = true ↔ k.id ∉ revocations h.log) := by
    intro k hk hh
    obtain ⟨i, hi, hid⟩ := hr.rows k hk
    obtain ⟨k', hk', hki, hm, hh', -, ha⟩ := hr.issued i hi
    obtain rfl := key_eq_of_id hk' hk (hki.trans hid)
    have hkey := hc i hi (hh'.symm.trans hh)
    rw [hm, ← hkey, ← hid]
    exact ⟨hi, ha⟩
  constructor
  · intro hok
    have ho := verifyApiKey_outcome sha256 rawKey env h.accounts
    generalize serveAccount _ _ = out at hok ho
    cases ho with
    | refused => cases hok
    | verified k member hash active m' owner owned working =>
      cases hok
      obtain ⟨hi, ha⟩ := hrow k member hash
      exact ⟨owner, working, k.id, owned ▸ hi, ha.mp active⟩
  · rintro ⟨owner, working, keyId, hi, hv⟩
    obtain ⟨k, hk, hid, hm, hh, hl, ha⟩ := hr.issued _ hi
    refine verifyApiKey_ok hk hl hh (fun x hx hxh => ?_) (ha.mpr hv) owner hm.symm working
    have heq := hr.distinct _ (hrow x hx hxh).1 _ hi rfl
    exact key_eq_of_id hx hk ((congrArg Issue.keyId heq).trans hid.symm)

theorem verify_refused (h : ∀ m, (serveAccount (verifyApiKey sha256 rawKey env) db).result ≠ .ok m) :
    (serveAccount (verifyApiKey sha256 rawKey env) db).store = db ∧ ∃ detail,
      (serveAccount (verifyApiKey sha256 rawKey env) db).result = .error (unauthorized detail) := by
  have ho := verifyApiKey_outcome sha256 rawKey env db
  generalize serveAccount _ _ = out at h ho ⊢
  cases ho with
  | refused detail => exact ⟨rfl, detail, rfl⟩
  | verified k member hash active m => exact absurd rfl (h m)

theorem revoke_refused (hr : Known sha256 h) {keyId merchantId : String}
    (hn : ∀ rawKey, ⟨rawKey, merchantId, keyId⟩ ∉ issues h.log) :
    serveAccount (revokeApiKey keyId merchantId) h.accounts =
      ⟨h.accounts, [], .error (keyNotFound keyId)⟩ := by
  refine revokeApiKey_missing (fun k hk hid ho => ?_)
  obtain ⟨i, hi, hik⟩ := hr.rows k hk
  obtain ⟨k', hk', hki, hm, -⟩ := hr.issued i hi
  obtain rfl := key_eq_of_id hk' hk (hki.trans hik)
  exact hn i.rawKey (by rwa [← ho, ← hid, hki, hm])

/-- After any calls, in any order and with the candidates in any order: a key is verified exactly
for the active merchant it was issued to and as long as it is not revoked, a revoked key never
again, and nobody revokes the key of another. -/
theorem authentication_exact (sha256 : String → String) (merchants : Table Merchant)
    (cs : List AccountCall) (rawKey : String) (env : KeyEnv)
    (fresh : Along sha256 Fresh (.start merchants) cs)
    (apart : ∀ i ∈ issues ((History.start merchants).afterAll sha256 cs).log,
      sha256 i.rawKey = sha256 rawKey → i.rawKey = rawKey) :
    let h := (History.start merchants).afterAll sha256 cs
    let o := serveAccount (verifyApiKey sha256 rawKey env) h.accounts
    let refused := o.store = h.accounts ∧ ∃ detail, o.result = .error (unauthorized detail)
    (∀ m, o.result = .ok m ↔ Valid h rawKey m) ∧
    ((∀ m, ¬ Valid h rawKey m) → refused) ∧
    (∀ keyId merchantId, (∀ key, ⟨key, merchantId, keyId⟩ ∉ issues h.log) →
      serveAccount (revokeApiKey keyId merchantId) h.accounts =
        ⟨h.accounts, [], .error (keyNotFound keyId)⟩) ∧
    ∀ pre post merchantId keyId, cs = pre ++ post →
      ⟨rawKey, merchantId, keyId⟩ ∈ issues ((History.start merchants).afterAll sha256 pre).log →
      keyId ∈ revocations ((History.start merchants).afterAll sha256 pre).log → refused := by
  intro h o refused
  have hk : Known sha256 h := known_afterAll merchants cs fresh
  have hiff : ∀ m, o.result = .ok m ↔ Valid h rawKey m := fun m => verified_iff hk apart
  refine ⟨hiff, fun hn => verify_refused (fun m hok => hn m ((hiff m).mp hok)),
    fun keyId merchantId hn => revoke_refused hk hn, ?_⟩
  rintro pre post merchantId keyId rfl hi hv
  refine verify_refused (fun m hok => ?_)
  obtain ⟨-, -, id, hid, hnot⟩ := (hiff m).mp hok
  have hsub := @revocations_afterAll sha256 ((History.start merchants).afterAll sha256 pre) post
  rw [← afterAll_append] at hsub
  have heq : id = keyId := congrArg Issue.keyId (hk.distinct _ hid _ (hsub.2 hi) rfl)
  exact hnot (heq ▸ hsub.1 hv)

def alice : Merchant := ⟨"mer_alice", "Alice", "alice@example.com", true, 0⟩

def bob : Merchant := ⟨"mer_bob", "Bob", "bob@example.com", true, 0⟩

def tokenOf (hex : String) (length : hex.toList.length = 64)
    (digits : hex.toList.all (fun c => decide (c ∈ "0123456789abcdef".toList)) = true) : Token :=
  ⟨hex, length, fun c hc => of_decide_eq_true (List.all_eq_true.mp digits c hc)⟩

def aliceToken : Token :=
  tokenOf "aa11aa11aaaaaaaaaaaaaaaaaaaaaaaaaaaaaaaaaaaaaaaaaaaaaaaaaaaaaaaa" (by decide) (by decide)

def bobToken : Token :=
  tokenOf "aa11aa11bbbbbbbbbbbbbbbbbbbbbbbbbbbbbbbbbbbbbbbbbbbbbbbbbbbbbbbb" (by decide) (by decide)

def spareToken : Token :=
  tokenOf "0000000000000000000000000000000000000000000000000000000000000000" (by decide) (by decide)

def digest (rawKey : String) : String :=
  if rawKey = generateKey aliceToken then
    "d2e33cc35ec79a79d387bd966edc446b0b2e85c741d5776d5625ac878f381a6c"
  else if rawKey = generateKey bobToken then
    "09bb6b3d8cdc9965a210fbdc9e514c59125c66c12a165b87e5bd926f13fa62ac"
  else ""

def both : Table Merchant := ⟨[alice, bob], by decide⟩

/-- Two keys with one lookup prefix; one of them is revoked, and its owner tries the other. -/
def colliding : List AccountCall :=
  [⟨.createApiKey "mer_alice" "a", ⟨0, "k1", aliceToken, .stored⟩⟩,
    ⟨.createApiKey "mer_bob" "b", ⟨1, "k2", bobToken, .stored⟩⟩,
    ⟨.revokeApiKey "ak_k1" "mer_alice", ⟨2, "", spareToken, .stored⟩⟩,
    ⟨.revokeApiKey "ak_k2" "mer_alice", ⟨3, "", spareToken, .stored⟩⟩]

theorem authentication_exact_colliding :
    let h := (History.start both).afterAll digest colliding
    let o := serveAccount (verifyApiKey digest (generateKey bobToken) ⟨4, "", spareToken, .reversed⟩)
      h.accounts
    let refused := o.store = h.accounts ∧ ∃ detail, o.result = .error (unauthorized detail)
    (∀ m, o.result = .ok m ↔ Valid h (generateKey bobToken) m) ∧
    ((∀ m, ¬ Valid h (generateKey bobToken) m) → refused) ∧
    (∀ keyId merchantId, (∀ key, ⟨key, merchantId, keyId⟩ ∉ issues h.log) →
      serveAccount (revokeApiKey keyId merchantId) h.accounts =
        ⟨h.accounts, [], .error (keyNotFound keyId)⟩) ∧
    ∀ pre post merchantId keyId, colliding = pre ++ post →
      ⟨generateKey bobToken, merchantId, keyId⟩ ∈
        issues ((History.start both).afterAll digest pre).log →
      keyId ∈ revocations ((History.start both).afterAll digest pre).log → refused :=
  authentication_exact digest both colliding _ _
    (Run.along_mono (C := fun h c => ∀ i ∈ issues h.log, i.rawKey ≠ generateKey c.env.token)
      (fun _ _ hf _ _ _ => hf) _ _ (by decide +kernel))
    (by decide +kernel)

end SixGateway.Authentication
