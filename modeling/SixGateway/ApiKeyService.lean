import SixGateway.Api
import SixGateway.Library.Rows

namespace SixGateway.ApiKeyService

open Library Models Errors Api

inductive MerchantKey where
  | id (v : String)
  | email (v : String)
  deriving DecidableEq

instance : Keyed Merchant MerchantKey where
  keys m := [.id m.id, .email m.email]

structure APIKey where
  id : String
  merchantId : String
  keyPrefix : String
  keyHash : String
  name : String
  isActive : Bool
  lastUsedAt : Option Instant
  createdAt : Instant
  deriving DecidableEq

instance : Keyed APIKey String where
  keys k := [k.id]

structure Accounts where
  merchants : Table Merchant
  apiKeys : Table APIKey

namespace Accounts

def merchantById (db : Accounts) (id : String) : Option Merchant :=
  db.merchants.find? (fun m => decide (m.id = id))

def keyById (db : Accounts) (id : String) : Option APIKey :=
  db.apiKeys.find? (fun k => decide (k.id = id))

def updateKey (db : Accounts) (id : String) (f : APIKey → APIKey)
    (hf : ∀ k, (f k).id = k.id) : Accounts :=
  { db with
    apiKeys := db.apiKeys.modify (fun k => decide (k.id = id)) f
      (fun k => congrArg (fun v => [v]) (hf k)) }

end Accounts

inductive AccountStmt where
  | insertKey (row : APIKey)
  | deactivateKey (id : String)
  | touchKey (id : String) (now : Instant)
  | setActive (merchantId : String) (isActive : Bool)

def AccountStmt.apply : AccountStmt → Accounts → Except Exn Accounts
  | insertKey row, db =>
    match db.merchantById row.merchantId, db.apiKeys.insert row with
    | some _, some t => .ok { db with apiKeys := t }
    | _, _ => .error .integrityError
  | deactivateKey id, db => .ok (db.updateKey id (fun k => { k with isActive := false }) (fun _ => rfl))
  | touchKey id now, db =>
    .ok (db.updateKey id (fun k => { k with lastUsedAt := some now }) (fun _ => rfl))
  | setActive merchantId isActive, db => .ok { db with
      merchants := db.merchants.modify (fun m => decide (m.id = merchantId))
        (fun m => { m with isActive := isActive }) (fun _ => rfl) }

/-- A handler that works on the accounts. It calls nobody. -/
abbrev AccountService (α : Type) := Program Accounts Empty Empty AccountStmt Exn α

/-- `secrets.token_hex(32)`. -/
structure Token where
  hex : String
  length : hex.toList.length = 64
  digits : ∀ c ∈ hex.toList, c ∈ "0123456789abcdef".toList

/-- What a call draws from its surroundings: the clock, the `uuid4` of a new row, the random part
of a new key, and the order in which the database returns candidates. -/
structure KeyEnv where
  now : Instant
  uuid : String
  token : Token
  order : RowOrder APIKey

def keyLiteral : String := "gw_live_"

def generateKey (token : Token) : String := keyLiteral ++ token.hex

def extractLookupPrefix (rawKey : String) : Option String :=
  if keyLiteral.toList <+: rawKey.toList then
    let body := rawKey.toList.drop keyLiteral.toList.length
    if body.length < 8 then none else some (String.ofList (body.take 8))
  else none

def unauthorized (detail : String) : Exn := .app .unauthorized detail

def keyNotFound (keyId : String) : Exn := .app .apiKeyNotFound s!"api key {keyId} not found"

def refreshKey (row : APIKey) : AccountService APIKey :=
  .read fun db => .ret ((db.keyById row.id).getD row)

def revokeLooked (keyId : String) : Option APIKey → AccountService APIKey
  | none => .raise (keyNotFound keyId)
  | some row => .commit (.deactivateKey row.id) (refreshKey { row with isActive := false })

def revokeApiKey (keyId merchantId : String) : AccountService APIKey :=
  .read fun db => revokeLooked keyId
    (db.apiKeys.find? (fun k => decide (k.id = keyId ∧ k.merchantId = merchantId)))

def verifyOwner (env : KeyEnv) (matched : APIKey) : Option Merchant → AccountService Merchant
  | none => .raise (unauthorized "merchant inactive")
  | some merchant =>
    if merchant.isActive then .commit (.touchKey matched.id env.now) (.ret merchant)
    else .raise (unauthorized "merchant inactive")

def verifyMatched (env : KeyEnv) : Option APIKey → AccountService Merchant
  | none => .raise (unauthorized "api key not recognised")
  | some matched =>
    if matched.isActive then
      .read fun db => verifyOwner env matched (db.merchantById matched.merchantId)
    else .raise (unauthorized "api key revoked")

variable (sha256 : String → String)

def newKey (merchantId name : String) (env : KeyEnv) (raw lookup : String) : APIKey where
  id := "ak_" ++ env.uuid
  merchantId := merchantId
  keyPrefix := lookup
  keyHash := sha256 raw
  name := name
  isActive := true
  lastUsedAt := none
  createdAt := env.now

/-- The row of a new key, and the key itself. -/
def createApiKey (merchantId name : String) (env : KeyEnv) : AccountService (APIKey × String) :=
  let raw := generateKey env.token
  match extractLookupPrefix raw with
  | none => .raise .assertionError
  | some lookup =>
    let row := newKey sha256 merchantId name env raw lookup
    .commit (.insertKey row) ((refreshKey row).bind (fun row => .ret (row, raw)))

/-- `verify_api_key`; `sha256` is the hex digest of a string's bytes. -/
def verifyApiKey (rawKey : String) (env : KeyEnv) : AccountService Merchant :=
  if rawKey = "" then .raise (unauthorized "missing api key")
  else match extractLookupPrefix rawKey with
    | none => .raise (unauthorized "malformed api key")
    | some lookup => .read fun db =>
      let candidates := env.order.arrange
        (db.apiKeys.select (fun k => decide (k.keyPrefix = lookup)))
      verifyMatched env (candidates.find? (fun k => decide (k.keyHash = sha256 rawKey)))

end SixGateway.ApiKeyService
