import EighthLayer.Aigrp.PairSecret
import EighthLayer.Knowledge.Propose
import EighthLayer.Bootstrap.Store

/-!
# EighthLayer.Bootstrap.Boot

`bootstrap_admin.py`: what a server does at each of its boots to be usable at all. The founder
gets an invite, or an operator a password account; the liaison server gets its API key.

A boot is one program, in the order of the lifespan of `app.py`. What a boot draws (readings of
the clock, identifiers, salts) is its `Draw`; all else it takes from the `Setup`.
-/

namespace EighthLayer.Bootstrap

open Lib
open Aigrp (strip)
open Knowledge (configuredTenancy)

/-! ## Texts -/

/-- `api_keys.decode_token`, with the reading of a UUID (`uuid.UUID(hex=…).hex`): the key id and
the secret; `none` is a `ValueError`. -/
def decodeToken (uuidHex : String → Option String) (token : String) : Option (String × String) :=
  match token.splitOn "." with
  | [namespace_, version, keyIdHex, secret] =>
    if namespace_ ≠ "cqa" ∨ version ≠ "v1" then none
    else if secret.length ≠ 52 ∨
        ¬ secret.toList.all (fun c => "abcdefghijklmnopqrstuvwxyz234567".toList.contains c) then none
    else (uuidHex keyIdHex).map fun keyId => (keyId, secret)
  | _ => none

/-- `api_keys.hash_secret`. -/
def hashSecret (secret pepper : String) : Bytes := hmacSha256 (utf8 pepper) (utf8 secret)

/-- `api_keys.secret_prefix`. -/
def secretPrefix (secret : String) : String := String.ofList (secret.toList.take 8)

/-- The seconds of a unit of `ttl.py`. -/
def unitSeconds : Char → Option Nat
  | 's' => some 1
  | 'm' => some 60
  | 'h' => some 3600
  | 'd' => some 86400
  | _ => none

/-- `ttl.parse_ttl` in microseconds, with the value of a decimal digit; `none` is a
`ValueError`. -/
def parseTtl (decimal : Char → Option Nat) (value : String) : Option Int :=
  match value.toList.reverse with
  | [] => none
  | unit :: digits =>
    match unitSeconds unit, digits.reverse.mapM decimal with
    | some seconds, some (d :: ds) =>
      let quantity := (d :: ds).foldl (fun n digit => 10 * n + digit) 0
      if quantity = 0 ∨ 365 * 86400 < quantity * seconds then none
      else some (quantity * seconds * 1000000)
    | _, _ => none

/-! ## What a boot takes and draws -/

/-- The configuration of a server, the same at each of its boots, and the libraries it calls. -/
structure Setup where
  env : Environ
  /-- `_encode_jwt`, of email, `jti` and the two times. -/
  encodeJwt : String → String → Int → Int → String
  /-- `uuid.UUID(hex=…).hex`. -/
  uuidHex : String → Option String
  /-- The value of a decimal digit. -/
  decimal : Char → Option Nat
  /-- `bcrypt` hashes this password; its version 5 refuses more than 72 bytes. -/
  hashes : String → Bool
  /-- The parameter store takes what is put in it. -/
  ssm : Bool

/-- What one boot draws. -/
structure Draw where
  /-- The readings of the clock, in order. -/
  clock : Nat → Int
  jti : String
  adminSalt : String
  liaisonPassword : String
  liaisonSalt : String

namespace Setup

variable (c : Setup)

/-- `CQ_INITIAL_ADMIN_EMAIL`. -/
def adminEmail : String := strip (c.env.get "CQ_INITIAL_ADMIN_EMAIL" "")

/-- `CQ_INITIAL_ADMIN_PASSWORD`. -/
def adminPassword : String := c.env.get "CQ_INITIAL_ADMIN_PASSWORD" ""

/-- `CQ_INITIAL_ADMIN_USERNAME`, or `_DEFAULT_ADMIN_USERNAME`. -/
@[irreducible] def adminUsername : String :=
  pyOr (some (strip (c.env.get "CQ_INITIAL_ADMIN_USERNAME" ""))) "admin"

/-- `CQ_INITIAL_LIAISON_KEY`. -/
def liaisonToken : String := strip (c.env.get "CQ_INITIAL_LIAISON_KEY" "")

/-- `CQ_API_KEY_PEPPER`. -/
def pepper : String := c.env.get "CQ_API_KEY_PEPPER" ""

/-- The parameter of the founder's link, when the link can be handed over. -/
@[irreducible] def linkParameter : Option String :=
  let slug := strip (pyOr (c.env.lookup "CQ_L2_SLUG") (pyOr (c.env.lookup "CQ_ENTERPRISE") ""))
  let group := strip (pyOr (c.env.lookup "CQ_GROUP") "default")
  if slug = "" ∨ c.ssm = false then none
  else some ("/8th-layer/l2/" ++ slug ++ "/" ++ group ++ "/bootstrap_admin_link")

/-- The life of the liaison key: as configured where that can be read, else the default. -/
@[irreducible] def liaisonTtl : String :=
  let ttl := pyOr (some (strip (c.env.get "CQ_INITIAL_LIAISON_KEY_TTL" ""))) "365d"
  match parseTtl c.decimal ttl with
  | some _ => ttl
  | none => "365d"

/-- That life in microseconds. -/
def liaisonLife : Int := (parseTtl c.decimal c.liaisonTtl).getD (365 * 86400 * 1000000)

end Setup

/-! ## The bootstraps -/

variable (c : Setup) (d : Draw)

/-- `_write_bootstrap_link_to_ssm`. -/
def writeBootstrapLink (token : String) : BootProg Unit :=
  match c.linkParameter with
  | none => .done ()
  | some name => .call (.putLink ⟨name, "/invite/" ++ token⟩) fun (_ : Unit) => .done ()

/-- `bootstrap_first_admin_if_needed`, with an invite for seven days. -/
def bootstrapFirstAdmin : BootProg Unit :=
  if c.adminEmail = "" then .done ()
  else .call .usersExist fun (exist : Bool) =>
    if exist then .done ()
    else .call (.createUser systemUsername .disabled "user" none (d.clock 0)) fun (created : Bool) =>
      if !created then .done ()
      else .call (.getUser systemUsername) fun (systemUser : Option User) =>
        match systemUser with
        | none => .done ()
        | some user =>
          let now := d.clock 1
          let expiresAt := now + 24 * 7 * 3600000000
          .call (.insertInvite d.jti c.adminEmail .enterpriseAdmin none user.id now expiresAt)
            fun (minted : Bool) =>
              if !minted then .done ()
              else writeBootstrapLink c (c.encodeJwt c.adminEmail d.jti now expiresAt)

/-- `bootstrap_password_admin_if_needed`. -/
def bootstrapPasswordAdmin : BootProg Unit :=
  if c.adminPassword = "" then .done ()
  else .call .usersExist fun (exist : Bool) =>
    if exist then .done ()
    else .call .systemRowExists fun (claimed : Bool) =>
      if claimed ∨ c.hashes c.adminPassword = false then .done ()
      else .call (.createUser c.adminUsername (.bcrypt (.configured c.adminPassword) d.adminSalt)
          "admin" (configuredTenancy c.env) (d.clock 2)) fun (_ : Bool) => .done ()

/-- The key that `bootstrap_liaison_key_if_needed` seeds for a user. -/
def liaisonKey (keyId secret : String) (userId : Nat) : ApiKey where
  id := keyId
  userId := userId
  name := "liaison-server"
  labels := ["harness:liaison", "persona:agent", "managed-by:provision"]
  keyPrefix := secretPrefix secret
  keyHash := hashSecret secret c.pepper
  ttl := c.liaisonTtl
  expiresAt := d.clock 3 + c.liaisonLife
  createdAt := d.clock 7

/-- `bootstrap_liaison_key_if_needed`. -/
def bootstrapLiaisonKey : BootProg Unit :=
  if c.liaisonToken = "" ∨ c.pepper = "" then .done ()
  else .call (.getUser liaisonUsername) fun (present : Option User) =>
    if present ≠ none then .done ()
    else match decodeToken c.uuidHex c.liaisonToken with
    | none => .done ()
    | some (keyId, secret) =>
      .call (.createUser liaisonUsername (.bcrypt (.random d.liaisonPassword) d.liaisonSalt) "user"
          (configuredTenancy c.env) (d.clock 4)) fun (created : Bool) =>
        if !created then .done ()
        else .call (.getUser liaisonUsername) fun (newUser : Option User) =>
          match newUser with
          | none => .done ()
          | some user =>
            .call (.upsertPersona liaisonUsername .agent (d.clock 5) liaisonUsername .created none
                (d.clock 6)) fun (assigned : Bool) =>
              if !assigned then .done ()
              else .call (.createApiKey (liaisonKey c d keyId secret user.id)) fun (_ : Bool) =>
                .done ()

/-- A boot, in the order of the lifespan of the app. No bootstrap raises. -/
@[irreducible] def boot : BootProg Unit :=
  (bootstrapFirstAdmin c d).bind fun _ =>
    (bootstrapPasswordAdmin c d).bind fun _ => bootstrapLiaisonKey c d

/-- A boot that comes to an end. -/
def completeBoot (s : BootStore) : BootStore := ((boot c d).alone s).2

/-- A boot that is cut off after `n` operations of the store. -/
def crashedBoot (n : Nat) (s : BootStore) : BootStore := (boot c d).cut n s

/-- Boots one after the other, each cut off after some number of operations; all of them when
that number is large enough. -/
def crashedBoots : List (Draw × Nat) → BootStore → BootStore
  | [], s => s
  | (d, n) :: boots, s => crashedBoots boots (crashedBoot c d n s)

end EighthLayer.Bootstrap
