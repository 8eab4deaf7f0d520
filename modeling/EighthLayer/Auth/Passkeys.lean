import EighthLayer.Directory.Peerings
import EighthLayer.Lib.Interleave
import EighthLayer.Lib.Table

/-!
# EighthLayer.Auth.Passkeys

The table `webauthn_credentials`, the cache of challenges, and the four routes over them.

A ceremony begins with a challenge and finishes with a signed answer to it. A challenge is cached
under a username, and is taken out by the route that finishes. What `finish_registration` and
`finish_authentication` do they do without awaiting anything, so the cache is read in one statement.
py_webauthn is a parameter. Times are instants.
-/

namespace EighthLayer.Auth

open Lib
open Directory (member asText isTrue)

/-! ## The store -/

/-- A row of `webauthn_credentials`. -/
structure Credential where
  id : Nat
  userId : Nat
  credentialId : Bytes
  publicKey : Bytes
  signCount : Nat
  transports : Option String
  aaguid : Option Bytes
  name : Option String
  createdAt : Int
  lastUsedAt : Option Int
deriving DecidableEq

/-- `_ChallengeEntry`, with the username that it is cached under. -/
structure ChallengeEntry where
  username : String
  challenge : Bytes
  expiresAt : Int
  userIdBytes : Option Bytes
deriving DecidableEq

/-- A row of `users`. -/
structure PasskeyUser where
  username : String
  id : Nat
deriving DecidableEq

/-- A row of `persona_assignments`. -/
structure PasskeyAssignment where
  username : String
  disabledAt : Option Int
deriving DecidableEq

/-- The tables, the cache and the clock. -/
structure PasskeyStore where
  clock : Int
  users : Table PasskeyUser.username
  assignments : Table PasskeyAssignment.username
  credentials : Table Credential.credentialId
  lastCredentialId : Nat
  challenges : Table ChallengeEntry.username

/-- `CHALLENGE_TTL_SECONDS`, in microseconds. -/
def challengeTtl : Int := 60000000

namespace PasskeyStore

/-- `list_webauthn_credentials_for_user`; a new row comes last, as its id is the highest. -/
def credentialsOf (s : PasskeyStore) (userId : Nat) : List Credential :=
  s.credentials.rows.filter fun c => c.userId = userId

/-- `insert_webauthn_credential`; `none` is an `IntegrityError`. -/
def insertCredential (s : PasskeyStore) (userId : Nat) (credentialId publicKey : Bytes)
    (signCount : Nat) (transports : Option String) (aaguid : Option Bytes)
    (name : Option String) : Option (Nat × PasskeyStore) :=
  if s.users.rows.any fun u => u.id = userId then
    (s.credentials.insert ⟨s.lastCredentialId + 1, userId, credentialId, publicKey, signCount,
      transports, aaguid, name, s.clock, none⟩).map fun credentials =>
        (s.lastCredentialId + 1, { s with
          credentials
          lastCredentialId := s.lastCredentialId + 1 })
  else none

/-- `update_webauthn_sign_count`. -/
def updateSignCount (s : PasskeyStore) (credentialId : Bytes) (newSignCount : Nat)
    (lastUsedAt : Int) : PasskeyStore :=
  { s with
    credentials := s.credentials.update (fun c => c.credentialId = credentialId)
      (fun c => { c with signCount := newSignCount, lastUsedAt := some lastUsedAt }) fun _ => rfl }

/-- `_store_challenge`. -/
def storeChallenge (s : PasskeyStore) (username : String) (challenge : Bytes)
    (userIdBytes : Option Bytes) : PasskeyStore :=
  { s with
    challenges := s.challenges.upsert ⟨username, challenge, s.clock + challengeTtl, userIdBytes⟩ }

/-- `_consume_challenge`. The entry is gone, be it fresh or not. -/
def consumeChallenge (s : PasskeyStore) (username : String) :
    Option ChallengeEntry × PasskeyStore :=
  ((s.challenges.find username).filter fun entry => s.clock ≤ entry.expiresAt,
    { s with challenges := s.challenges.delete fun entry => entry.username = username })

end PasskeyStore

/-! ## The statements -/

/-- The statements of the passkey routes. -/
inductive PasskeyStmt where
  | tick (d : Nat)
  | readClock
  | getUser (username : String)
  | getAssignment (username : String)
  | listCredentials (userId : Nat)
  | getCredential (credentialId : Bytes)
  | insertCredential (userId : Nat) (credentialId publicKey : Bytes) (signCount : Nat)
      (transports : Option String) (aaguid : Option Bytes) (name : Option String)
  | updateSignCount (credentialId : Bytes) (newSignCount : Nat) (lastUsedAt : Int)
  | storeChallenge (username : String) (challenge : Bytes) (userIdBytes : Option Bytes)
  | consumeChallenge (username : String)

@[reducible] def PasskeyStmt.Answer : PasskeyStmt → Type
  | tick _ | updateSignCount _ _ _ | storeChallenge _ _ _ => Unit
  | readClock => Int
  | getUser _ => Option PasskeyUser
  | getAssignment _ => Option PasskeyAssignment
  | listCredentials _ => List Credential
  | getCredential _ => Option Credential
  | insertCredential _ _ _ _ _ _ _ => Option Nat
  | consumeChallenge _ => Option ChallengeEntry

def PasskeyStmt.exec : (q : PasskeyStmt) → PasskeyStore → q.Answer × PasskeyStore
  | tick d, s => ((), { s with clock := s.clock + d })
  | readClock, s => (s.clock, s)
  | getUser username, s => (s.users.find username, s)
  | getAssignment username, s => (s.assignments.find username, s)
  | listCredentials userId, s => (s.credentialsOf userId, s)
  | getCredential credentialId, s => (s.credentials.find credentialId, s)
  | insertCredential userId credentialId publicKey signCount transports aaguid name, s =>
      match s.insertCredential userId credentialId publicKey signCount transports aaguid name with
      | none => (none, s)
      | some (id, s') => (some id, s')
  | updateSignCount credentialId newSignCount lastUsedAt, s =>
      ((), s.updateSignCount credentialId newSignCount lastUsedAt)
  | storeChallenge username challenge userIdBytes, s =>
      ((), s.storeChallenge username challenge userIdBytes)
  | consumeChallenge username, s => s.consumeChallenge username

instance : Database PasskeyStore PasskeyStmt.Answer := ⟨PasskeyStmt.exec⟩

/-- Programs of these statements. -/
abbrev PasskeyProg (α : Type) : Type := Prog PasskeyStmt.Answer α

/-- The worlds they run in. -/
abbrev PasskeyWorld : Type := World PasskeyStore PasskeyStmt.Answer

/-- A statement that has been executed, with its answer. -/
abbrev asked (i : Nat) (q : PasskeyStmt) (a : q.Answer) : Event PasskeyStmt.Answer := ⟨i, q, a⟩

/-! ## The library -/

/-- How a verification fails: with an exception of py_webauthn that the routes know, or with
another one. -/
inductive VerifyError where
  | invalid
  | other
deriving DecidableEq

/-- `VerifiedRegistration` of py_webauthn. -/
structure Registered where
  credentialId : Bytes
  publicKey : Bytes
  signCount : Nat
  aaguid : String

/-- What the routes call: py_webauthn, for the relying party of this L2, and `create_token`. An
assertion is refused whose count does not exceed the current one, unless both are zero. -/
structure PasskeyLibrary where
  base64urlToBytes : String → Option Bytes
  bytesToBase64url : Bytes → String
  verifyRegistration : (credential : Json) → (challenge : Bytes) → Except VerifyError Registered
  verifyAuthentication : (credential : Json) → (challenge publicKey : Bytes) →
    (currentSignCount : Nat) → Except VerifyError Nat
  createToken : (username : String) → (now : Int) → String
  count_above : ∀ {credential challenge publicKey currentSignCount newSignCount},
    verifyAuthentication credential challenge publicKey currentSignCount = .ok newSignCount →
      currentSignCount < newSignCount ∨ (currentSignCount = 0 ∧ newSignCount = 0)

/-! ## The routes -/

/-- How the routes answer. -/
inductive PasskeyAnswer where
  /-- 404. -/
  | notFound (detail : String)
  /-- 403, "user is disabled". -/
  | disabled
  /-- 400. -/
  | badRequest (detail : String)
  /-- An exception that is not an `HTTPException`. -/
  | internalError
  /-- The options of a registration. -/
  | registrationOptions (userId username : String) (challenge : Bytes) (exclude : List Bytes)
  /-- `EnrollFinishResponse`. -/
  | enrolled (credentialDbId : Nat) (credentialIdB64u : String) (signCount : Nat)
  /-- The options of an authentication. -/
  | authenticationOptions (challenge : Bytes) (allow : List Bytes)
  /-- `LoginFinishResponse`. -/
  | loggedIn (token username : String) (signCount : Nat)
  | ticked
deriving DecidableEq

/-- `_user_id_bytes`, eight bytes with the highest first; `none` is an `OverflowError`. -/
def userIdBytes (id : Nat) : Option Bytes :=
  if id < 256 ^ 8 then some ((List.range 8).reverse.map fun i => UInt8.ofNat (id / 256 ^ i))
  else none

/-- `enroll_begin`. The challenge has been drawn. -/
def enrollBegin (lib : PasskeyLibrary) (username : String) (challenge : Bytes) :
    PasskeyProg PasskeyAnswer :=
  .call (.getUser username) fun (user : Option PasskeyUser) =>
    match user with
    | none => .done (.notFound "User not found")
    | some u => .call (.listCredentials u.id) fun (existing : List Credential) =>
      match userIdBytes u.id with
      | none => .done .internalError
      | some userId => .call (.storeChallenge username challenge (some userId)) fun (_ : Unit) =>
        .done (.registrationOptions (lib.bytesToBase64url userId) username challenge
          (existing.map Credential.credentialId))

/-- The `aaguid` that `finish_registration` returns; `none` is a `ValueError`. -/
def aaguidBytes (aaguid : String) : Option (Option Bytes) :=
  if aaguid = "" then some none
  else (fromHex (aaguid.toList.filter fun c => c ≠ '-')).map some

/-- `enroll_finish`. -/
def enrollFinish (lib : PasskeyLibrary) (username : String) (credential : Json)
    (name : Option String) (transports : Option (List String)) : PasskeyProg PasskeyAnswer :=
  .call (.getUser username) fun (user : Option PasskeyUser) =>
    match user with
    | none => .done (.notFound "User not found")
    | some u => .call (.consumeChallenge username) fun (entry : Option ChallengeEntry) =>
      match entry with
      | none => .done (.badRequest "registration challenge missing or expired")
      | some entry =>
        match lib.verifyRegistration credential entry.challenge with
        | .error .invalid => .done (.badRequest "passkey verification failed")
        | .error .other => .done .internalError
        | .ok verified =>
          match aaguidBytes verified.aaguid with
          | none => .done (.badRequest "non-hexadecimal number found in fromhex() arg")
          | some aaguid =>
            let transportsCsv := (transports.filter (· ≠ [])).map fun names => ",".intercalate names
            .call (.insertCredential u.id verified.credentialId verified.publicKey
                verified.signCount transportsCsv aaguid name) fun (id : Option Nat) =>
              match id with
              | none => .done .internalError
              | some id => .done (.enrolled id (lib.bytesToBase64url verified.credentialId)
                  verified.signCount)

/-- `login_begin`. The challenge has been drawn. -/
def loginBegin (username : String) (challenge : Bytes) : PasskeyProg PasskeyAnswer :=
  .call (.getUser username) fun (user : Option PasskeyUser) =>
    match user with
    | none => .done (.notFound "User not found")
    | some u => .call (.listCredentials u.id) fun (creds : List Credential) =>
      if creds = [] then .done (.notFound "No passkeys enrolled for user")
      else .call (.storeChallenge username challenge none) fun (_ : Unit) =>
        .done (.authenticationOptions challenge (creds.map Credential.credentialId))

/-- `credential.get("rawId") or credential.get("raw_id")`, if it is a text. -/
def rawIdOf (credential : Json) : Option String :=
  (((member credential "rawId").filter isTrue).or (member credential "raw_id")).bind asText

/-- `login_finish`, for a credential of the user. -/
def loginWith (lib : PasskeyLibrary) (username : String) (credential : Json) (row : Credential)
    (credentialId : Bytes) : PasskeyProg PasskeyAnswer :=
  .call (.consumeChallenge username) fun (entry : Option ChallengeEntry) =>
    match entry with
    | none => .done (.badRequest "authentication challenge missing or expired")
    | some entry =>
      match lib.verifyAuthentication credential entry.challenge row.publicKey row.signCount with
      | .error .invalid => .done (.badRequest "passkey verification failed")
      | .error .other => .done .internalError
      | .ok newSignCount => .call .readClock fun (lastUsedAt : Int) =>
        .call (.updateSignCount credentialId newSignCount lastUsedAt) fun (_ : Unit) =>
          .call .readClock fun (now : Int) =>
            .done (.loggedIn (lib.createToken username now) username newSignCount)

/-- `login_finish`. -/
def loginFinish (lib : PasskeyLibrary) (username : String) (credential : Json) :
    PasskeyProg PasskeyAnswer :=
  .call (.getUser username) fun (user : Option PasskeyUser) =>
    match user with
    | none => .done (.notFound "User not found")
    | some u => .call (.getAssignment username) fun (assignment : Option PasskeyAssignment) =>
      if (assignment.bind PasskeyAssignment.disabledAt).isSome then .done .disabled
      else
        match rawIdOf credential with
        | none => .done (.badRequest "credential rawId missing")
        | some rawId =>
          match lib.base64urlToBytes rawId with
          | none => .done .internalError
          | some credentialId => .call (.getCredential credentialId) fun (row : Option Credential) =>
            match row with
            | none => .done (.notFound "Credential not found for user")
            | some row =>
              if row.userId = u.id then loginWith lib username credential row credentialId
              else .done (.notFound "Credential not found for user")

/-- The requests to the routes, and time that passes. -/
inductive PasskeyCall where
  | enrollBegin (username : String) (challenge : Bytes)
  | enrollFinish (username : String) (credential : Json) (name : Option String)
      (transports : Option (List String))
  | loginBegin (username : String) (challenge : Bytes)
  | loginFinish (username : String) (credential : Json)
  | tick (d : Nat)

def PasskeyCall.prog (lib : PasskeyLibrary) : PasskeyCall → PasskeyProg PasskeyAnswer
  | enrollBegin username challenge => Auth.enrollBegin lib username challenge
  | enrollFinish username credential name transports =>
      Auth.enrollFinish lib username credential name transports
  | loginBegin username challenge => Auth.loginBegin username challenge
  | loginFinish username credential => Auth.loginFinish lib username credential
  | tick d => .call (.tick d) fun (_ : Unit) => .done .ticked

/-- Some requests at the start. -/
def passkeysStart (lib : PasskeyLibrary) (s : PasskeyStore) (calls : List PasskeyCall) :
    Config PasskeyStore PasskeyStmt.Answer PasskeyAnswer :=
  .start s (calls.map (PasskeyCall.prog lib))

end EighthLayer.Auth
