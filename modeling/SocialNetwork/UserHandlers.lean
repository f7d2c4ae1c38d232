import SocialNetwork.UserCache

/-!
# Registration and login requests

`registerHandler` and `loginHandler` of `wrk2.go` over the functions of
`user.go`, one request after the other.  A request meets stores that are
reachable or not, and a memcached client that refuses some keys.  The request
ids only feed logs.
-/

namespace SocialNetwork.UserHandlers

open Json Users UserService

inductive Store where
  | memcached
  | mongodb
  | socialGraph
  deriving DecidableEq, Repr

inductive Error where
  | malformedKey
  | unreachable (store : Store)
  | unmarshal
  | doesNotExist (username : String)
  | alreadyRegistered (username : String)
  | invalidCredentials
  | noToken
  | noID (err : UniqueId.Error)
  deriving DecidableEq, Repr

/-- Neither a space nor a control byte.  A character of several bytes has none
of these among them. -/
def legalChar (c : Char) : Bool :=
  ' '.toNat < c.toNat && c.toNat ≠ 0x7f

/-- The keys that the memcached client sends. -/
def legalKey (key : String) : Bool :=
  key.utf8ByteSize ≤ 250 && key.toList.all legalChar

structure Stores where
  users : List User
  graph : SocialGraph.Stores
  cache : Memcached
  service : UniqueId.Service

def Stores.initial : Stores where
  users := []
  graph := SocialGraph.Stores.empty
  cache _ := none
  service := UniqueId.Service.init

/-- What a request finds: the stores it reaches, the order in which MongoDB
returns documents, the clock, and the salt it draws. -/
structure Env where
  reachable : Store → Bool
  order : FindOrder
  timestamp : Int64
  expiresAt : Int64
  salt : String

def Stores.get (stores : Stores) (env : Env) (key : String) :
    Except Error (Option Json) :=
  if !legalKey key then .error .malformedKey
  else if !env.reachable .memcached then .error (.unreachable .memcached)
  else .ok (stores.cache key)

def Stores.set (stores : Stores) (env : Env) (key : String) (value : Json) :
    Except Error Stores :=
  if !legalKey key then .error .malformedKey
  else if !env.reachable .memcached then .error (.unreachable .memcached)
  else .ok { stores with
    cache := Function.update stores.cache key (some value) }

/-- `Find` and `TryNext`. -/
def Stores.find (stores : Stores) (env : Env) (username : String) :
    Except Error (Option User) :=
  if env.reachable .mongodb then
    .ok (env.order.find stores.users {username}).head?
  else .error (.unreachable .mongodb)

/-! ## The user service -/

section Service

variable (hashPwd : String → String) (sign : Claims → Option String)
  (machineID : String)

def loadLogin (stores : Stores) (env : Env) (username : String) :
    Except Error LoginInfo := do
  match ← stores.get env (loginKey username) with
  | some value =>
      match unmarshal value with
      | some info => return info
      | none => throw .unmarshal
  | none =>
      match ← stores.find env username with
      | some user => return loginInfo user
      | none => throw (.doesNotExist username)

def Login (stores : Stores) (env : Env) (username password : String) :
    Except Error (String × Stores) := do
  let info ← loadLogin stores env username
  if hashPwd (password ++ info.salt) ≠ info.password then
    throw .invalidCredentials
  else
    match sign ⟨username, idText info.userID, env.timestamp,
      env.expiresAt⟩ with
    | none => throw .noToken
    | some token =>
        let stores ← stores.set env (loginKey username) (marshal info)
        return (token, stores)

def GetUserId (stores : Stores) (env : Env) (username : String) :
    Except Error (Int64 × Stores) := do
  match ← stores.get env (userIDKey username) with
  | some value =>
      match unmarshal value with
      | some userID => return (userID, stores)
      | none => throw .unmarshal
  | none =>
      match ← stores.find env username with
      | some user =>
          let stores ← stores.set env (userIDKey username)
            (marshal user.userID)
          return (user.userID, stores)
      | none => throw (.doesNotExist username)

/-- The id is read as by `GetUserId`; the creator goes to the post that is
being composed. -/
def UploadCreatorWithUsername (stores : Stores) (env : Env)
    (username : String) : Except Error (Creator × Stores) := do
  let (userID, stores) ← GetUserId stores env username
  return (⟨userID, username⟩, stores)

def RegisterUserWithId (stores : Stores) (env : Env)
    (registration : Registration) (userID : Int64) :
    Except Error Unit × Stores :=
  match stores.find env registration.username with
  | .error err => (.error err, stores)
  | .ok (some _) =>
      (.error (.alreadyRegistered registration.username), stores)
  | .ok none =>
      let user := registration.user hashPwd userID env.salt
      let stores := { stores with users := stores.users ++ [user] }
      if env.reachable .socialGraph then
        (.ok (), { stores with
          graph := SocialGraph.InsertUser stores.graph userID })
      else (.error (.unreachable .socialGraph), stores)

def RegisterUser (stores : Stores) (env : Env)
    (registration : Registration) : Except Error Unit × Stores :=
  let (counter, service) :=
    UniqueId.getCounter stores.service env.timestamp
  let stores := { stores with service := service }
  match counter with
  | .error err => (.error (.noID err), stores)
  | .ok counter =>
      match Ids.GenUniqueID machineID env.timestamp counter with
      | .error err => (.error (.noID (.parse err)), stores)
      | .ok id => RegisterUserWithId hashPwd stores env registration id

/-! ## The handlers -/

/-- `r.Form.Get`; a missing field is empty. -/
abbrev Form := String → String

inductive Response where
  | badRequest (text : String)
  | internalServerError (text : String) (err : Error)
  | success (text : String)
  deriving DecidableEq, Repr

def Response.isSuccess : Response → Bool
  | .success _ => true
  | _ => false

structure RegisterParams where
  registration : Registration
  userID : Int64

/-- The form is the error of `ParseForm` when it cannot be parsed. -/
def validateRegisterParams :
    Except String Form → Except String RegisterParams
  | .error err => .error ("error: " ++ err)
  | .ok form =>
      let registration : Registration := ⟨form "first_name",
        form "last_name", form "username", form "password"⟩
      let userIDstr := form "user_id"
      match if userIDstr ≠ "" then parseID userIDstr else .ok (-1) with
      | .error _ => .error "invalid user_id"
      | .ok userID =>
          if registration.username = "" then
            .error "must provide a valid username"
          else if registration.firstName = "" then
            .error "must provide a valid first_name"
          else if registration.lastName = "" then
            .error "must provide a valid last_name"
          else .ok ⟨registration, userID⟩

def registerHandler (stores : Stores) (env : Env)
    (form : Except String Form) : Response × Stores :=
  match validateRegisterParams form with
  | .error text => (.badRequest text, stores)
  | .ok params =>
      let (result, stores) :=
        if params.userID = -1 then
          RegisterUser hashPwd machineID stores env params.registration
        else
          RegisterUserWithId hashPwd stores env params.registration
            params.userID
      match result with
      | .error err =>
          (.internalServerError "error registering user: " err, stores)
      | .ok () =>
          (.success ("success! registered user " ++
            params.registration.username ++ " (id=" ++
            idText params.userID ++ ")\n"), stores)

structure LoginParams where
  username : String
  password : String

def validateLoginParams : Except String Form → Except String LoginParams
  | .error err => .error ("error: " ++ err)
  | .ok form =>
      if form "username" = "" then
        .error "must provide a valid username"
      else if form "password" = "" then
        .error "must provide a valid password"
      else .ok ⟨form "username", form "password"⟩

def loginHandler (stores : Stores) (env : Env)
    (form : Except String Form) : Response × Stores :=
  match validateLoginParams form with
  | .error text => (.badRequest text, stores)
  | .ok params =>
      match Login hashPwd sign stores env params.username
        params.password with
      | .error err => (.internalServerError "error: " err, stores)
      | .ok (token, stores) =>
          (.success ("success! user " ++ params.username ++
            " logged in with token " ++ token ++ "\n"), stores)

/-! ## Runs -/

inductive Request where
  | register (env : Env) (form : Except String Form)
  | login (env : Env) (form : Except String Form)
  | getUserId (env : Env) (username : String)
  | uploadCreatorWithUsername (env : Env) (username : String)
  | evict (key : String)

/-- The stores after a request; a read that fails leaves them unchanged. -/
def serve (stores : Stores) : Request → Stores
  | .register env form => (registerHandler hashPwd machineID stores env form).2
  | .login env form => (loginHandler hashPwd sign stores env form).2
  | .getUserId env username =>
      match GetUserId stores env username with
      | .ok (_, stores) => stores
      | .error _ => stores
  | .uploadCreatorWithUsername env username =>
      match UploadCreatorWithUsername stores env username with
      | .ok (_, stores) => stores
      | .error _ => stores
  | .evict key =>
      { stores with cache := Function.update stores.cache key none }

def serveAll (stores : Stores) (requests : List Request) : Stores :=
  requests.foldl (serve hashPwd sign machineID) stores

end Service

end SocialNetwork.UserHandlers
