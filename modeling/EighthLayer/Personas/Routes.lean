import EighthLayer.Personas.Store

/-!
# EighthLayer.Personas.Routes

The routes by which an admin assigns a persona, changes it and disables it.

A caller has been authenticated; that it is an admin is read from its row of `users`.
-/

namespace EighthLayer.Personas

open Lib

/-- How the routes answer. -/
inductive PersonaAnswer where
  /-- 401, "User not found". -/
  | unauthorized
  /-- 403, "Admin role required". -/
  | forbidden
  /-- `CreatePersonaResponse`. -/
  | created (username email : String) (persona : Persona) (assignedAt : Int)
      (assignedBy : String) (inviteSent : Bool)
  /-- `PatchPersonaResponse`. -/
  | changed (username : String) (persona : Persona) (assignedAt : Int) (assignedBy : String)
  /-- `DisableResponse`. -/
  | disabled (username : String) (disabledAt : Int)
  /-- 409, "persona assignment already exists". -/
  | alreadyExists
  /-- 429, `RATE_LIMIT`. -/
  | rateLimited
  /-- 404, "no persona assignment". -/
  | notFound
  /-- 409, `USER_DISABLED`. -/
  | userDisabled
  /-- 409, "is already disabled". -/
  | alreadyDisabled
  /-- 409, `LAST_ADMIN`. -/
  | lastAdmin
  /-- An exception that is not an `HTTPException`. -/
  | internalError
  | ticked
deriving DecidableEq

/-- `is_admin_role`. -/
def isAdminRole (role : String) : Bool := role ∈ ["admin", "enterprise_admin", "l2_admin"]

/-- `require_admin`, for an authenticated user. -/
def requireAdmin (username : String) (route : PersonaProg PersonaAnswer) :
    PersonaProg PersonaAnswer :=
  .call (.getUser username) fun (user : Option User) =>
    match user with
    | none => .done .unauthorized
    | some u => if isAdminRole u.role then route else .done .forbidden

/-- The user of a new assignment: the one that is there, or a stub with the hash of a random
password; `false` is an exception. -/
def ensureStub (username email stubHash : String) : PersonaProg Bool :=
  .call (.getUser username) fun (user : Option User) =>
    match user with
    | some _ => .done true
    | none => .call (.createUser username stubHash) fun (created : Bool) =>
      if created then .call (.setUserEmail username email) fun (_ : Unit) => .done true
      else .done false

/-- `upsert_persona_assignment` at the present time, and the time; `none` is an exception. The
row that it reads again is dropped. -/
def assignNow (username : String) (persona : Persona) (assignedBy : String) (action : AuditAction)
    (oldPersona : Option Persona) : PersonaProg (Option Int) :=
  .call .readClock fun (now : Int) =>
    .call (.upsert username persona now assignedBy action oldPersona) fun (assigned : Bool) =>
      if assigned then .call (.getAssignment username) fun (_ : Option Assignment) =>
        .done (some now)
      else .done none

/-- `create_persona`. `sends` tells of an address whether an invite to it is sent. -/
def createPersona (sends : String → Bool) (admin email username : String) (persona : Persona)
    (stubHash : String) : PersonaProg PersonaAnswer :=
  .call (.getAssignment username) fun (existing : Option Assignment) =>
    match existing with
    | some _ => .done .alreadyExists
    | none => .call .readClock fun (now : Int) =>
      .call (.countInvitesByAdmin admin (now - 3600000000)) fun (recent : Nat) =>
        if 20 ≤ recent then .done .rateLimited
        else (ensureStub username email stubHash).bind fun ready =>
          if ready then
            (assignNow username persona admin .created none).bind fun assigned =>
              match assigned with
              | none => .done .internalError
              | some assignedAt => .call (.getUser admin) fun (issuer : Option User) =>
                .done (.created username email persona assignedAt admin
                  (issuer.isSome && sends email))
          else .done .internalError

/-- `patch_persona`. -/
def patchPersona (admin username : String) (persona : Persona) : PersonaProg PersonaAnswer :=
  .call (.getAssignment username) fun (existing : Option Assignment) =>
    match existing with
    | none => .done .notFound
    | some a =>
      if a.disabledAt ≠ none then .done .userDisabled
      else (assignNow username persona admin .changed (some a.persona)).bind fun assigned =>
        match assigned with
        | none => .done .internalError
        | some assignedAt => .done (.changed username persona assignedAt admin)

/-- `disable_persona`, once its guards have passed. -/
def disableNow (admin username : String) (oldPersona : Persona) : PersonaProg PersonaAnswer :=
  .call .readClock fun (now : Int) =>
    .call (.disable username now admin (some oldPersona)) fun (_ : Unit) =>
      .call (.getAssignment username) fun (_ : Option Assignment) =>
        .done (.disabled username now)

/-- `disable_persona`. -/
def disablePersona (admin username : String) : PersonaProg PersonaAnswer :=
  .call (.getAssignment username) fun (existing : Option Assignment) =>
    match existing with
    | none => .done .notFound
    | some a =>
      if a.disabledAt ≠ none then .done .alreadyDisabled
      else if a.persona = .admin then
        .call .countActiveAdmins fun (activeAdmins : Nat) =>
          if activeAdmins ≤ 1 then .done .lastAdmin else disableNow admin username a.persona
      else disableNow admin username a.persona

/-- The requests to the routes, and time that passes. -/
inductive PersonaCall where
  | create (admin email username : String) (persona : Persona) (stubHash : String)
  | patch (admin username : String) (persona : Persona)
  | disable (admin username : String)
  | tick (d : Nat)

def PersonaCall.prog (sends : String → Bool) : PersonaCall → PersonaProg PersonaAnswer
  | create admin email username persona stubHash =>
      requireAdmin admin (createPersona sends admin email username persona stubHash)
  | patch admin username persona => requireAdmin admin (patchPersona admin username persona)
  | disable admin username => requireAdmin admin (disablePersona admin username)
  | tick d => .call (.tick d) fun (_ : Unit) => .done .ticked

/-- Some requests at the start. -/
def personasStart (sends : String → Bool) (s : PersonaStore) (calls : List PersonaCall) :
    Config PersonaStore PersonaStmt.Answer PersonaAnswer :=
  .start s (calls.map (PersonaCall.prog sends))

end EighthLayer.Personas
