import AuditGateway.Framework.Program

/-!
# Logging in and changing the password

The handlers `login` and `changePassword` of `internal/admin`, the latter behind
the session middleware and the CSRF check, as programs over the statements of
the repository. Any number of requests run at once, statement by statement.
-/

namespace AuditGateway.Admin

open AuditGateway.Framework

abbrev Time := Int

structure User where
  id : Int
  username : String
  passwordHash : String
  active : Bool
  updatedAt : Time
deriving DecidableEq, Repr

structure Session where
  sessionID : String
  userID : Int
  csrfToken : String
deriving DecidableEq, Repr

structure Principal where
  userID : Int
  username : String
  csrfToken : String
deriving DecidableEq, Repr

inductive QueryError
  | noRows
  | failed
deriving DecidableEq, Repr

/-- The statements and the sources of randomness. A session comes with the hash that its login
checked the password against; the statement does not have it. -/
inductive Op
  | findActiveUserByUsername (username : String)
  | findActiveUserByID (userID : Int)
  | principalBySession (sessionID : String)
  | newSessionID
  | newCSRFToken
  | createSession (session : Session) (checkedHash : String)
  | hashPassword (plaintext : String)
  | changeUserPassword (userID : Int) (passwordHash keepSessionID : String)
deriving DecidableEq, Repr

abbrev Op.Res : Op → Type
  | findActiveUserByUsername _ | findActiveUserByID _ => Except QueryError User
  | principalBySession _ => Except QueryError Principal
  | newSessionID | newCSRFToken | hashPassword _ => Option String
  | createSession .. | changeUserPassword .. => Except QueryError Unit

abbrev Handling := Prog Op Op.Res

def call (o : Op) : Handling o.Res := Prog.op o Prog.pure

structure Response where
  status : Nat
  text : String
deriving DecidableEq, Repr

/-! ## The handlers -/

structure LoginInput where
  username : String
  password : String
deriving DecidableEq, Repr

/-- `login`; the input is what the body decodes to. `CheckPassword` is a parameter. -/
def login (checkPassword : String → String → Bool) : Option LoginInput → Handling Response
  | none => return ⟨400, "invalid json"⟩
  | some input => do
    match ← call (.findActiveUserByUsername input.username) with
    | .error .noRows => return ⟨401, "invalid credentials"⟩
    | .error .failed => return ⟨500, "failed to load user"⟩
    | .ok user =>
      if !checkPassword user.passwordHash input.password then return ⟨401, "invalid credentials"⟩
      else match ← call .newSessionID with
        | none => return ⟨500, "failed to create session"⟩
        | some sessionID =>
          match ← call .newCSRFToken with
          | none => return ⟨500, "failed to create csrf token"⟩
          | some csrfToken =>
            match ← call (.createSession ⟨sessionID, user.id, csrfToken⟩ user.passwordHash) with
            | .error _ => return ⟨500, "failed to create session"⟩
            | .ok () => return ⟨200, user.username⟩

structure PasswordInput where
  currentPassword : String
  newPassword : String
  confirmPassword : String
deriving DecidableEq, Repr

/-- A request to change the password: the session of its cookie, if the signature is right, the
tokens of its CSRF cookie and header, and what the body decodes to. -/
structure PasswordRequest where
  sessionID : Option String
  csrfCookie : Option String
  csrfHeader : String
  input : Option PasswordInput
deriving DecidableEq, Repr

def PasswordRequest.csrfMatches (request : PasswordRequest) (principal : Principal) : Bool :=
  principal.csrfToken ≠ "" && request.csrfHeader ≠ "" && request.csrfCookie == some request.csrfHeader &&
    request.csrfHeader == principal.csrfToken

def changePassword (checkPassword : String → String → Bool) (sessionID : String) (principal : Principal) :
    Option PasswordInput → Handling Response
  | none => return ⟨400, "invalid json"⟩
  | some input =>
    if input.currentPassword = "" ∨ input.newPassword = "" ∨ input.confirmPassword = "" then
      return ⟨400, "password fields are required"⟩
    else if input.newPassword.length < 12 then
      return ⟨400, "new password must be at least 12 characters"⟩
    else if input.newPassword ≠ input.confirmPassword then
      return ⟨400, "new password confirmation does not match"⟩
    else do
      match ← call (.findActiveUserByID principal.userID) with
      | .error .noRows => return ⟨401, "Unauthorized"⟩
      | .error .failed => return ⟨500, "failed to change password"⟩
      | .ok user =>
        if !checkPassword user.passwordHash input.currentPassword then
          return ⟨401, "current password is incorrect"⟩
        else if checkPassword user.passwordHash input.newPassword then
          return ⟨400, "new password must be different from current password"⟩
        else match ← call (.hashPassword input.newPassword) with
          | none => return ⟨500, "failed to change password"⟩
          | some newHash =>
            match ← call (.changeUserPassword user.id newHash sessionID) with
            | .error _ => return ⟨500, "failed to change password"⟩
            | .ok () => return ⟨204, ""⟩

/-- `changePassword` behind `Auth.Middleware` and `requireCSRF`. -/
def servePassword (checkPassword : String → String → Bool) (request : PasswordRequest) : Handling Response :=
  match request.sessionID with
  | none => return ⟨401, "Unauthorized"⟩
  | some sessionID => do
    match ← call (.principalBySession sessionID) with
    | .error _ => return ⟨401, "Unauthorized"⟩
    | .ok principal =>
      if !request.csrfMatches principal then return ⟨403, "Forbidden"⟩
      else changePassword checkPassword sessionID principal request.input

inductive Request
  | login (input : Option LoginInput)
  | password (request : PasswordRequest)
deriving DecidableEq, Repr

def Request.serve (checkPassword : String → String → Bool) : Request → Handling Response
  | login input => Admin.login checkPassword input
  | password request => servePassword checkPassword request

/-! ## The tables -/

structure SessionRow where
  userID : Int
  csrfToken : String
  expiresAt : Time
  revokedAt : Option Time
  checkedHash : String
deriving DecidableEq, Repr

/-- What `PrincipalBySession` asks of a session. -/
def SessionRow.Live (row : SessionRow) (now : Time) : Prop :=
  row.revokedAt = none ∧ now < row.expiresAt

instance (row : SessionRow) (now : Time) : Decidable (row.Live now) :=
  inferInstanceAs (Decidable (_ ∧ _))

/-- A change of password: the hash it has set, and the session that made it. -/
structure PasswordChange where
  newHash : String
  session : String
deriving DecidableEq, Repr

/-- `lastChange u` is the last statement that changed the password of `u`. -/
structure World where
  clock : Time
  users : List User
  sessions : String → Option SessionRow
  lastChange : Int → Option PasswordChange

inductive Fault
  | none
  | before
  | after
deriving DecidableEq, Repr

structure Choice where
  fault : Fault := .none
  now : Time := 0
  token : Option String := none
deriving DecidableEq, Repr

/-- `12 * time.Hour`, in seconds. -/
def sessionLifetime : Time := 12 * 60 * 60

def World.principalBySession (w : World) (sessionID : String) (now : Time) : Option Principal := do
  let row ← w.sessions sessionID
  let user ← w.users.find? fun user => user.id = row.userID
  if row.Live now ∧ user.active then return ⟨user.id, user.username, row.csrfToken⟩ else none

/-- `INSERT INTO audit_sessions`; `session_id` is unique. -/
def World.createSession (w : World) (session : Session) (checkedHash : String) (now : Time) : World :=
  match w.sessions session.sessionID with
  | some _ => w
  | none =>
    { w with
      sessions := Function.update w.sessions session.sessionID
        (some ⟨session.userID, session.csrfToken, now + sessionLifetime, none, checkedHash⟩) }

/-- The update of `audit_sessions` in `ChangeUserPassword`. -/
def SessionRow.revokeOther (userID : Int) (keepSessionID : String) (now : Time) (sessionID : String)
    (row : SessionRow) : SessionRow :=
  if row.userID = userID ∧ sessionID ≠ keepSessionID ∧ row.Live now then { row with revokedAt := some now }
  else row

/-- `ChangeUserPassword`; both updates are one statement. -/
def World.changeUserPassword (w : World) (userID : Int) (passwordHash keepSessionID : String) (now : Time) :
    World :=
  { w with
    users := w.users.map fun user =>
      if user.id = userID then { user with passwordHash, updatedAt := now } else user
    sessions := fun sessionID =>
      (w.sessions sessionID).map (SessionRow.revokeOther userID keepSessionID now sessionID)
    lastChange :=
      if w.users.any (·.id = userID) then
        Function.update w.lastChange userID (some ⟨passwordHash, keepSessionID⟩)
      else w.lastChange }

/-- What an operation does to the tables. -/
def Op.effect (now : Time) (w : World) : Op → World
  | createSession session checkedHash => w.createSession session checkedHash now
  | changeUserPassword userID passwordHash keepSessionID =>
    w.changeUserPassword userID passwordHash keepSessionID now
  | _ => w

def rowOr {α : Type} (ch : Choice) (row : Option α) : Except QueryError α :=
  if ch.fault ≠ .none then .error .failed
  else match row with
    | none => .error .noRows
    | some a => .ok a

def Op.answer (ch : Choice) (w : World) : (o : Op) → o.Res
  | findActiveUserByUsername username => rowOr ch (w.users.find? fun user => user.username = username ∧ user.active)
  | findActiveUserByID userID => rowOr ch (w.users.find? fun user => user.id = userID ∧ user.active)
  | principalBySession sessionID => rowOr ch (w.principalBySession sessionID ch.now)
  | newSessionID | newCSRFToken | hashPassword _ => ch.token
  | createSession session _ =>
    if ch.fault ≠ .none ∨ (w.sessions session.sessionID).isSome then .error .failed else .ok ()
  | changeUserPassword .. => if ch.fault ≠ .none then .error .failed else .ok ()

def perform (_request : Nat) (o : Op) (ch : Choice) (w : World) : Option (o.Res × World) :=
  if w.clock < ch.now then none
  else some (o.answer ch w, if ch.fault = .before then w else o.effect ch.now w)

def machine : Machine World Op Op.Res Nat Choice Nat Request Request where
  perform := perform
  crash _ w := w
  env passed w := some { w with clock := w.clock + passed }
  start _ request w := some (request, w)

variable (checkPassword : String → String → Bool)

def code : Code Op Op.Res Request (Handling Response) := progCode (Request.serve checkPassword)

abbrev State := Config World Op Op.Res Nat Request (Handling Response)

abbrev Step := Action Nat Choice Nat Request

def system : TransitionSystem State Step :=
  pool machine (code checkPassword) fun w => w.lastChange = fun _ => none

/-- No request yet. -/
def State.start (clock : Time) (users : List User) (sessions : String → Option SessionRow) : State where
  world := ⟨clock, users, sessions, fun _ => none⟩
  threads _ := none
  history := []

end AuditGateway.Admin
