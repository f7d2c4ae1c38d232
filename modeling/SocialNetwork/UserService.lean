import SocialNetwork.Machine
import SocialNetwork.SocialGraph
import SocialNetwork.UniqueId
import SocialNetwork.UserMentions

/-!
# Concurrent calls of the user service

`user.go` and the mention service that reads the same memcached server, one
store command at a time.  Any number of replicas of the service run the calls;
every command may fail, and a write may fail after it took effect.
-/

namespace SocialNetwork.UserService

open Json Users UserMentions

structure LoginInfo where
  userID : Int64
  password : String
  salt : String
  deriving DecidableEq, Repr

instance : JsonCodec LoginInfo where
  zero := ⟨0, "", ""⟩
  marshal info :=
    .obj [("UserID", marshal info.userID),
      ("Password", marshal info.password), ("Salt", marshal info.salt)]
  unmarshal
    | .null => some ⟨0, "", ""⟩
    | .obj fields => do
        return ⟨← field fields "UserID", ← field fields "Password",
          ← field fields "Salt"⟩
    | _ => none
  unmarshal_marshal info := by simp

def loginInfo (user : User) : LoginInfo :=
  ⟨user.userID, user.pwdHashed, user.salt⟩

structure Claims where
  username : String
  userID : String
  timestamp : Int64
  expiresAt : Int64
  deriving DecidableEq, Repr

structure Registration where
  firstName : String
  lastName : String
  username : String
  password : String
  deriving DecidableEq, Repr

def Registration.user (hashPwd : String → String)
    (registration : Registration) (userID : Int64) (salt : String) : User where
  userID := userID
  firstName := registration.firstName
  lastName := registration.lastName
  username := registration.username
  pwdHashed := hashPwd (registration.password ++ salt)
  salt := salt

/-! ## Cache entries -/

/-- The two entries that are kept for a user. -/
inductive Entry where
  | login
  | userID
  deriving DecidableEq, Repr

def Entry.key : Entry → String → String
  | .login => loginKey
  | .userID => userIDKey

def Entry.value : Entry → User → Json
  | .login, user => marshal (loginInfo user)
  | .userID, user => marshal user.userID

theorem Entry.key_inj {entry entry' : Entry} {u v : String} :
    entry.key u = entry'.key v ↔ entry = entry' ∧ u = v := by
  cases entry with
  | login =>
      cases entry' with
      | login => simp [Entry.key]
      | userID => simp [Entry.key, loginKey_ne_userIDKey]
  | userID =>
      cases entry' with
      | login => simp [Entry.key, userIDKey_ne_loginKey]
      | userID => simp [Entry.key]

/-! ## Calls -/

inductive Request where
  | registerUserWithId (registration : Registration) (userID : Int64)
  | registerUser (registration : Registration)
  | login (username password : String)
  | getUserId (username : String)
  | uploadCreatorWithUsername (username : String)
  | uploadUserMentions (usernames : List String)
  deriving DecidableEq, Repr

def Request.registration : Request → Option Registration
  | .registerUserWithId registration _ => some registration
  | .registerUser registration => some registration
  | _ => none

/-- The entry that a call reads and, after a miss, writes. -/
def Request.entry : Request → Option (Entry × String)
  | .login username _ => some (.login, username)
  | .getUserId username => some (.userID, username)
  | .uploadCreatorWithUsername username => some (.userID, username)
  | _ => none

inductive Result where
  | token (claims : Claims)
  | userID (userID : Int64)
  | creator (creator : Creator)
  deriving DecidableEq, Repr

/-- Where a call is. -/
inductive Phase where
  | ready
  | registering
  /-- `Find` has reported no document with the username. -/
  | inserting
  | inserted
  | registered
  /-- The cache has answered with a miss. -/
  | querying
  /-- The login information is at hand, from either store. -/
  | checking (info : LoginInfo)
  | caching (value : Json) (result : Result)
  | returned (result : Result)
  /-- `GetMulti` has still to read the keys of `rest`. -/
  | fetching (rest : List String) (result : Memcached)
  | finding (userMentions : List UserMention) (names : Finset String)
  /-- The cursor is open; `due` are the documents it must return. -/
  | draining (userMentions : List UserMention) (names : Finset String)
      (due : List User)
  | uploaded (userMentions : List UserMention)
  | failed

/-- What a call does with the value of its entry. -/
def Request.onHit : Request → Json → Phase
  | .login _ _, value =>
      match unmarshal value with
      | some info => .checking info
      | none => .failed
  | .getUserId _, value =>
      match unmarshal value with
      | some userID => .returned (.userID userID)
      | none => .failed
  | .uploadCreatorWithUsername username, value =>
      match unmarshal value with
      | some userID => .returned (.creator ⟨userID, username⟩)
      | none => .failed
  | _, _ => .failed

/-- What a call does with the document of its user. -/
def Request.onDocument : Request → User → Phase
  | .login _ _, user => .checking (loginInfo user)
  | .getUserId _, user =>
      .caching (marshal user.userID) (.userID user.userID)
  | .uploadCreatorWithUsername username, user =>
      .caching (marshal user.userID) (.creator ⟨user.userID, username⟩)
  | _, _ => .failed

/-- The values that `GetMulti` has, after one more reply. -/
def addReply (result : Memcached) (key : String) :
    Option Json → Memcached
  | some value => Function.update result key (some value)
  | none => result

/-- The calls of a run, and where they are executed. -/
structure Deployment (Call : Type) where
  request : Call → Request
  replica : Call → ℕ
  machineID : ℕ → String

structure State (Call : Type) where
  users : List User
  graph : SocialGraph.Stores
  cache : Memcached
  service : ℕ → UniqueId.Service
  /-- The user id with which `RegisterUserWithId` was called. -/
  userID : Call → Option Int64
  call : Call → Phase

def State.initial {Call : Type} : State Call where
  users := []
  graph := SocialGraph.Stores.empty
  cache _ := none
  service _ := UniqueId.Service.init
  userID _ := none
  call _ := .ready

/-- The outcome of `Find` and `TryNext`. -/
inductive Reply where
  | document (user : User)
  | empty
  /-- The cursor has failed, which `TryNext` reports as no document. -/
  | lost
  | failed
  deriving DecidableEq, Repr

def Reply.Valid (users : List User) (username : String) : Reply → Prop
  | .document user => user ∈ users ∧ user.username = username
  | .empty => ∀ user ∈ users, user.username ≠ username
  | .lost => True
  | .failed => True

instance (users : List User) (username : String) :
    DecidablePred (Reply.Valid users username)
  | .document _ => inferInstanceAs (Decidable (_ ∧ _))
  | .empty => inferInstanceAs (Decidable (∀ user ∈ users, _))
  | .lost => .isTrue trivial
  | .failed => .isTrue trivial

inductive Write where
  | done
  | failed (applied : Bool)
  deriving DecidableEq, Repr

def Write.applied : Write → Bool
  | .done => true
  | .failed applied => applied

/-- The phase after a write. -/
def Write.andThen (write : Write) (phase : Phase) : Phase :=
  match write with
  | .done => phase
  | .failed _ => .failed

inductive Label (Call : Type) where
  | registerUserWithId (i : Call)
  | registerUser (i : Call) (timestamp : Int64)
  | findExisting (i : Call) (reply : Reply)
  | insertOne (i : Call) (salt : String) (write : Write)
  | insertUser (i : Call) (write : Write)
  | get (i : Call) (ok : Bool)
  | find (i : Call) (reply : Reply)
  | sign (i : Call) (timestamp expiresAt : Int64) (ok : Bool)
  | set (i : Call) (write : Write)
  | uploadUserMentions (i : Call)
  | getMulti (i : Call) (index : ℕ)
  | getMultiFailed (i : Call)
  | decode (i : Call)
  | findMentioned (i : Call) (ok : Bool)
  | all (i : Call) (docs : Option (List User))
  | evict (key : String)
  deriving DecidableEq, Repr

/-! ## Steps -/

section Step

variable {Call : Type} [DecidableEq Call]

def State.setCall (state : State Call) (i : Call) (phase : Phase) :
    State Call :=
  { state with call := Function.update state.call i phase }

@[simp] theorem State.setCall_self (state : State Call) (i : Call)
    (phase : Phase) : (state.setCall i phase).call i = phase :=
  Function.update_self _ _ _

theorem State.setCall_of_ne (state : State Call) {i j : Call} (hne : j ≠ i)
    (phase : Phase) : (state.setCall i phase).call j = state.call j :=
  Function.update_of_ne hne _ _

/-- `RegisterUserWithId` is called with this id. -/
def State.register (state : State Call) (i : Call) (userID : Int64) :
    State Call :=
  { state with
    userID := Function.update state.userID i (some userID) }.setCall i
      .registering

def stepRegisterUserWithId (deployment : Deployment Call) (state : State Call)
    (i : Call) : Option (State Call) :=
  match deployment.request i, state.call i with
  | .registerUserWithId _ userID, .ready =>
      some (state.register i userID)
  | _, _ => none

def stepRegisterUser (deployment : Deployment Call) (state : State Call)
    (i : Call) (timestamp : Int64) : Option (State Call) :=
  match deployment.request i, state.call i with
  | .registerUser _, .ready =>
      let replica := deployment.replica i
      let (counter, service) :=
        UniqueId.getCounter (state.service replica) timestamp
      let next := { state with
        service := Function.update state.service replica service }
      match counter with
      | .error _ => some (next.setCall i .failed)
      | .ok counter =>
          match Ids.GenUniqueID (deployment.machineID replica) timestamp
            counter with
          | .error _ => some (next.setCall i .failed)
          | .ok id => some (next.register i id)
  | _, _ => none

def stepFindExisting (deployment : Deployment Call) (state : State Call)
    (i : Call) (reply : Reply) : Option (State Call) :=
  match (deployment.request i).registration, state.call i with
  | some registration, .registering =>
      if reply.Valid state.users registration.username then
        match reply with
        | .document _ => some (state.setCall i .failed)
        | .empty => some (state.setCall i .inserting)
        | .lost => some (state.setCall i .inserting)
        | .failed => some (state.setCall i .failed)
      else none
  | _, _ => none

def stepInsertOne (hashPwd : String → String) (deployment : Deployment Call)
    (state : State Call) (i : Call) (salt : String) (write : Write) :
    Option (State Call) :=
  match (deployment.request i).registration, state.userID i,
    state.call i with
  | some registration, some userID, .inserting =>
      let user := registration.user hashPwd userID salt
      let next := state.setCall i (write.andThen .inserted)
      if write.applied then
        some { next with users := state.users ++ [user] }
      else some next
  | _, _, _ => none

def stepInsertUser (state : State Call) (i : Call) (write : Write) :
    Option (State Call) :=
  match state.userID i, state.call i with
  | some userID, .inserted =>
      let next := state.setCall i (write.andThen .registered)
      if write.applied then
        some { next with
          graph := SocialGraph.InsertUser state.graph userID }
      else some next
  | _, _ => none

def stepGet (deployment : Deployment Call) (state : State Call) (i : Call)
    (ok : Bool) : Option (State Call) :=
  match (deployment.request i).entry, state.call i with
  | some (entry, username), .ready =>
      if ok then
        match state.cache (entry.key username) with
        | some value =>
            some (state.setCall i ((deployment.request i).onHit value))
        | none => some (state.setCall i .querying)
      else some (state.setCall i .failed)
  | _, _ => none

def stepFind (deployment : Deployment Call) (state : State Call) (i : Call)
    (reply : Reply) : Option (State Call) :=
  match (deployment.request i).entry, state.call i with
  | some (_, username), .querying =>
      if reply.Valid state.users username then
        match reply with
        | .document user =>
            some (state.setCall i
              ((deployment.request i).onDocument user))
        | _ => some (state.setCall i .failed)
      else none
  | _, _ => none

def stepSign (hashPwd : String → String) (deployment : Deployment Call)
    (state : State Call) (i : Call) (timestamp expiresAt : Int64)
    (ok : Bool) : Option (State Call) :=
  match deployment.request i, state.call i with
  | .login username password, .checking info =>
      if hashPwd (password ++ info.salt) ≠ info.password then
        some (state.setCall i .failed)
      else if ok then
        some (state.setCall i (.caching (marshal info)
          (.token ⟨username, idText info.userID, timestamp, expiresAt⟩)))
      else some (state.setCall i .failed)
  | _, _ => none

def stepSet (deployment : Deployment Call) (state : State Call) (i : Call)
    (write : Write) : Option (State Call) :=
  match (deployment.request i).entry, state.call i with
  | some (entry, username), .caching value result =>
      let next := state.setCall i (write.andThen (.returned result))
      if write.applied then
        some { next with
          cache := Function.update state.cache (entry.key username)
            (some value) }
      else some next
  | _, _ => none

def stepUploadUserMentions (deployment : Deployment Call) (state : State Call)
    (i : Call) : Option (State Call) :=
  match deployment.request i, state.call i with
  | .uploadUserMentions usernames, .ready =>
      some (state.setCall i
        (.fetching (usernames.map userIDKey) fun _ => none))
  | _, _ => none

def stepGetMulti (state : State Call) (i : Call) (index : ℕ) :
    Option (State Call) :=
  match state.call i with
  | .fetching rest result =>
      match rest[index]? with
      | some key =>
          some (state.setCall i (.fetching (rest.eraseIdx index)
            (addReply result key (state.cache key))))
      | none => none
  | _ => none

def stepGetMultiFailed (state : State Call) (i : Call) : Option (State Call) :=
  match state.call i with
  | .fetching _ _ => some (state.setCall i .failed)
  | _ => none

def stepDecode (deployment : Deployment Call) (state : State Call)
    (i : Call) : Option (State Call) :=
  match deployment.request i, state.call i with
  | .uploadUserMentions usernames, .fetching [] result =>
      match userIDsCached result (usernames.map userIDKey) with
      -- The function returns without an upload.
      | none => some (state.setCall i .failed)
      | some userIDs =>
          let userMentions := cachedMentions usernames userIDs
          let names := usersNotCached usernames userMentions
          if names.card ≠ 0 then
            some (state.setCall i (.finding userMentions names))
          else some (state.setCall i (.uploaded userMentions))
  | _, _ => none

def stepFindMentioned (state : State Call) (i : Call) (ok : Bool) :
    Option (State Call) :=
  match state.call i with
  | .finding userMentions names =>
      if ok then
        some (state.setCall i (.draining userMentions names
          (state.users.filter fun user => user.username ∈ names)))
      else some (state.setCall i .failed)
  | _ => none

def stepAll (state : State Call) (i : Call) (docs : Option (List User)) :
    Option (State Call) :=
  match state.call i, docs with
  | .draining userMentions names due, some docs =>
      if due.Subperm docs ∧ docs.Subperm
          (state.users.filter fun user => user.username ∈ names) then
        some (state.setCall i
          (.uploaded (userMentions ++ docs.map mention)))
      else none
  | .draining _ _ _, none => some (state.setCall i .failed)
  | _, _ => none

def step (hashPwd : String → String) (deployment : Deployment Call)
    (state : State Call) : Label Call → Option (State Call)
  | .registerUserWithId i => stepRegisterUserWithId deployment state i
  | .registerUser i timestamp => stepRegisterUser deployment state i timestamp
  | .findExisting i reply => stepFindExisting deployment state i reply
  | .insertOne i salt write =>
      stepInsertOne hashPwd deployment state i salt write
  | .insertUser i write => stepInsertUser state i write
  | .get i ok => stepGet deployment state i ok
  | .find i reply => stepFind deployment state i reply
  | .sign i timestamp expiresAt ok =>
      stepSign hashPwd deployment state i timestamp expiresAt ok
  | .set i write => stepSet deployment state i write
  | .uploadUserMentions i => stepUploadUserMentions deployment state i
  | .getMulti i index => stepGetMulti state i index
  | .getMultiFailed i => stepGetMultiFailed state i
  | .decode i => stepDecode deployment state i
  | .findMentioned i ok => stepFindMentioned state i ok
  | .all i docs => stepAll state i docs
  | .evict key =>
      some { state with cache := Function.update state.cache key none }

/-! ## Effects -/

/-- The phases that hold nothing which is read from a user. -/
def Phase.Plain : Phase → Prop
  | .querying => True
  | .finding _ _ => True
  | .draining _ _ _ => True
  | .uploaded _ => True
  | .failed => True
  | _ => False

/-- What a step can do. -/
inductive Effect (hashPwd : String → String) (deployment : Deployment Call)
    (state : State Call) : Label Call → State Call → Prop where
  | move (label : Label Call) (i : Call) (phase : Phase)
      (service : ℕ → UniqueId.Service) (hplain : phase.Plain) :
      Effect hashPwd deployment state label
        ({ state with service := service }.setCall i phase)
  | register (label : Label Call) (i : Call) (userID : Int64)
      (service : ℕ → UniqueId.Service) (hready : state.call i = .ready) :
      Effect hashPwd deployment state label
        ({ state with service := service }.register i userID)
  | findExisting (i : Call) (reply : Reply) (registration : Registration)
      (hregistration : (deployment.request i).registration =
        some registration)
      (hregistering : state.call i = .registering)
      (hnone : (∀ user ∈ state.users,
        user.username ≠ registration.username) ∨ reply = .lost) :
      Effect hashPwd deployment state (.findExisting i reply)
        (state.setCall i .inserting)
  | insertOne (i : Call) (salt : String) (write : Write)
      (registration : Registration) (userID : Int64)
      (hregistration : (deployment.request i).registration =
        some registration)
      (huserID : state.userID i = some userID)
      (hinserting : state.call i = .inserting) :
      Effect hashPwd deployment state (.insertOne i salt write)
        ({ state with
          users := state.users ++ [registration.user hashPwd userID salt]
          }.setCall i (write.andThen .inserted))
  | insertUser (i : Call) (write : Write) (userID : Int64)
      (huserID : state.userID i = some userID)
      (hinserted : state.call i = .inserted) :
      Effect hashPwd deployment state (.insertUser i write)
        ({ state with
          graph := SocialGraph.InsertUser state.graph userID }.setCall i
            (write.andThen .registered))
  | hit (i : Call) (entry : Entry) (username : String) (value : Json)
      (hentry : (deployment.request i).entry = some (entry, username))
      (hvalue : state.cache (entry.key username) = some value) :
      Effect hashPwd deployment state (.get i true)
        (state.setCall i ((deployment.request i).onHit value))
  | document (i : Call) (entry : Entry) (username : String) (user : User)
      (hentry : (deployment.request i).entry = some (entry, username))
      (huser : user ∈ state.users) (hname : user.username = username) :
      Effect hashPwd deployment state (.find i (.document user))
        (state.setCall i ((deployment.request i).onDocument user))
  | sign (i : Call) (timestamp expiresAt : Int64)
      (username password : String) (info : LoginInfo)
      (hrequest : deployment.request i = .login username password)
      (hchecking : state.call i = .checking info)
      (hpassword : hashPwd (password ++ info.salt) = info.password) :
      Effect hashPwd deployment state (.sign i timestamp expiresAt true)
        (state.setCall i (.caching (marshal info)
          (.token ⟨username, idText info.userID, timestamp, expiresAt⟩)))
  | set (i : Call) (write : Write) (entry : Entry) (username : String)
      (value : Json) (result : Result)
      (hentry : (deployment.request i).entry = some (entry, username))
      (hcaching : state.call i = .caching value result) :
      Effect hashPwd deployment state (.set i write)
        ({ state with
          cache := Function.update state.cache (entry.key username)
            (some value) }.setCall i (write.andThen (.returned result)))
  | uploadUserMentions (i : Call) (usernames : List String) :
      Effect hashPwd deployment state (.uploadUserMentions i)
        (state.setCall i
          (.fetching (usernames.map userIDKey) fun _ => none))
  | getMulti (i : Call) (index : ℕ) (key : String) (rest rest' : List String)
      (result : Memcached) (hfetching : state.call i = .fetching rest result) :
      Effect hashPwd deployment state (.getMulti i index)
        (state.setCall i (.fetching rest'
          (addReply result key (state.cache key))))
  | evict (key : String) :
      Effect hashPwd deployment state (.evict key)
        { state with cache := Function.update state.cache key none }

variable {hashPwd : String → String} {deployment : Deployment Call}
  {state next : State Call}

/-- A step that only moves its call, and reads nothing of a user. -/
theorem effect_of_plain (label : Label Call) (i : Call) {phase : Phase}
    (hstep : some (state.setCall i phase) = some next)
    (hplain : phase.Plain) :
    Effect hashPwd deployment state label next := by
  rw [Option.some.injEq] at hstep
  subst hstep
  exact .move label i phase state.service hplain

theorem effect_of_failed (label : Label Call) (i : Call)
    (hstep : some (state.setCall i .failed) = some next) :
    Effect hashPwd deployment state label next :=
  effect_of_plain label i hstep trivial

/-- A failed write that was not applied only ends its call. -/
theorem effect_of_not_applied {write : Write}
    (happlied : ¬write.applied = true) (label : Label Call) (i : Call)
    (phase : Phase)
    (hstep : some (state.setCall i (write.andThen phase)) = some next) :
    Effect hashPwd deployment state label next := by
  cases write with
  | done => exact absurd rfl happlied
  | failed applied => exact effect_of_failed label i hstep

theorem effect_registerUser {i : Call} {timestamp : Int64}
    (hstep : stepRegisterUser deployment state i timestamp = some next) :
    Effect hashPwd deployment state (.registerUser i timestamp) next := by
  simp only [stepRegisterUser] at hstep
  split at hstep
  next _ _ hready =>
    split at hstep
    next =>
      rw [Option.some.injEq] at hstep
      subst hstep
      exact .move _ i .failed _ trivial
    next =>
      split at hstep
      next =>
        rw [Option.some.injEq] at hstep
        subst hstep
        exact .move _ i .failed _ trivial
      next id _ =>
        rw [Option.some.injEq] at hstep
        subst hstep
        exact .register _ i id _ hready
  next => cases hstep

theorem effect_findExisting {i : Call} {reply : Reply}
    (hstep : stepFindExisting deployment state i reply = some next) :
    Effect hashPwd deployment state (.findExisting i reply) next := by
  simp only [stepFindExisting] at hstep
  split at hstep
  next registration hregistration hregistering =>
    split at hstep
    next hvalid =>
      cases reply with
      | empty =>
          rw [Option.some.injEq] at hstep
          subst hstep
          exact .findExisting i .empty registration hregistration
            hregistering (.inl hvalid)
      | lost =>
          rw [Option.some.injEq] at hstep
          subst hstep
          exact .findExisting i .lost registration hregistration
            hregistering (.inr rfl)
      | document user => exact effect_of_failed _ i hstep
      | failed => exact effect_of_failed _ i hstep
    next => cases hstep
  next => cases hstep

theorem effect_insertOne {i : Call} {salt : String} {write : Write}
    (hstep : stepInsertOne hashPwd deployment state i salt write =
      some next) :
    Effect hashPwd deployment state (.insertOne i salt write) next := by
  simp only [stepInsertOne] at hstep
  split at hstep
  next registration userID hregistration huserID hinserting =>
    split at hstep
    next =>
      rw [Option.some.injEq] at hstep
      subst hstep
      exact .insertOne i salt write registration userID hregistration
        huserID hinserting
    next happlied => exact effect_of_not_applied happlied _ i _ hstep
  next => cases hstep

theorem effect_insertUser {i : Call} {write : Write}
    (hstep : stepInsertUser state i write = some next) :
    Effect hashPwd deployment state (.insertUser i write) next := by
  simp only [stepInsertUser] at hstep
  split at hstep
  next userID huserID hinserted =>
    split at hstep
    next =>
      rw [Option.some.injEq] at hstep
      subst hstep
      exact .insertUser i write userID huserID hinserted
    next happlied => exact effect_of_not_applied happlied _ i _ hstep
  next => cases hstep

theorem effect_get {i : Call} {ok : Bool}
    (hstep : stepGet deployment state i ok = some next) :
    Effect hashPwd deployment state (.get i ok) next := by
  simp only [stepGet] at hstep
  split at hstep
  next entry username hentry _ =>
    split at hstep
    next hok =>
      split at hstep
      next value hvalue =>
        rw [Option.some.injEq] at hstep
        subst hstep hok
        exact .hit i entry username value hentry hvalue
      next => exact effect_of_plain _ i hstep trivial
    next => exact effect_of_failed _ i hstep
  next => cases hstep

theorem effect_find {i : Call} {reply : Reply}
    (hstep : stepFind deployment state i reply = some next) :
    Effect hashPwd deployment state (.find i reply) next := by
  simp only [stepFind] at hstep
  split at hstep
  next entry username hentry _ =>
    split at hstep
    next hvalid =>
      cases reply with
      | document user =>
          rw [Option.some.injEq] at hstep
          subst hstep
          exact .document i entry username user hentry hvalid.1 hvalid.2
      | _ => exact effect_of_failed _ i hstep
    next => cases hstep
  next => cases hstep

theorem effect_sign {i : Call} {timestamp expiresAt : Int64} {ok : Bool}
    (hstep : stepSign hashPwd deployment state i timestamp expiresAt ok =
      some next) :
    Effect hashPwd deployment state (.sign i timestamp expiresAt ok)
      next := by
  simp only [stepSign] at hstep
  split at hstep
  next username password info hrequest hchecking =>
    split at hstep
    next => exact effect_of_failed _ i hstep
    next hpassword =>
      split at hstep
      next hok =>
        rw [Option.some.injEq] at hstep
        subst hstep hok
        exact .sign i timestamp expiresAt username password info hrequest
          hchecking (not_not.mp hpassword)
      next => exact effect_of_failed _ i hstep
  next => cases hstep

theorem effect_set {i : Call} {write : Write}
    (hstep : stepSet deployment state i write = some next) :
    Effect hashPwd deployment state (.set i write) next := by
  simp only [stepSet] at hstep
  split at hstep
  next entry username value result hentry hcaching =>
    split at hstep
    next =>
      rw [Option.some.injEq] at hstep
      subst hstep
      exact .set i write entry username value result hentry hcaching
    next happlied => exact effect_of_not_applied happlied _ i _ hstep
  next => cases hstep

theorem effect_getMulti {i : Call} {index : ℕ}
    (hstep : stepGetMulti state i index = some next) :
    Effect hashPwd deployment state (.getMulti i index) next := by
  simp only [stepGetMulti] at hstep
  split at hstep
  next rest result hfetching =>
    split at hstep
    next key _ =>
      rw [Option.some.injEq] at hstep
      subst hstep
      exact .getMulti i index key rest _ result hfetching
    next => cases hstep
  next => cases hstep

theorem effect_decode {i : Call}
    (hstep : stepDecode deployment state i = some next) :
    Effect hashPwd deployment state (.decode i) next := by
  simp only [stepDecode] at hstep
  split at hstep
  next =>
    split at hstep
    next => exact effect_of_failed _ i hstep
    next =>
      split at hstep
      next => exact effect_of_plain _ i hstep trivial
      next => exact effect_of_plain _ i hstep trivial
  next => cases hstep

theorem effect_findMentioned {i : Call} {ok : Bool}
    (hstep : stepFindMentioned state i ok = some next) :
    Effect hashPwd deployment state (.findMentioned i ok) next := by
  simp only [stepFindMentioned] at hstep
  split at hstep
  next =>
    split at hstep
    next => exact effect_of_plain _ i hstep trivial
    next => exact effect_of_failed _ i hstep
  next => cases hstep

theorem effect_all {i : Call} {docs : Option (List User)}
    (hstep : stepAll state i docs = some next) :
    Effect hashPwd deployment state (.all i docs) next := by
  simp only [stepAll] at hstep
  split at hstep
  next =>
    split at hstep
    next => exact effect_of_plain _ i hstep trivial
    next => cases hstep
  next => exact effect_of_failed _ i hstep
  next => cases hstep

theorem effect_of_step {label : Label Call}
    (hstep : step hashPwd deployment state label = some next) :
    Effect hashPwd deployment state label next := by
  cases label with
  | registerUserWithId i =>
      simp only [step, stepRegisterUserWithId] at hstep
      split at hstep
      next userID _ hready =>
        rw [Option.some.injEq] at hstep
        subst hstep
        exact .register _ i userID state.service hready
      next => cases hstep
  | registerUser i timestamp => exact effect_registerUser hstep
  | findExisting i reply => exact effect_findExisting hstep
  | insertOne i salt write => exact effect_insertOne hstep
  | insertUser i write => exact effect_insertUser hstep
  | get i ok => exact effect_get hstep
  | find i reply => exact effect_find hstep
  | sign i timestamp expiresAt ok => exact effect_sign hstep
  | set i write => exact effect_set hstep
  | uploadUserMentions i =>
      simp only [step, stepUploadUserMentions] at hstep
      split at hstep
      next usernames _ _ =>
        rw [Option.some.injEq] at hstep
        subst hstep
        exact .uploadUserMentions i usernames
      next => cases hstep
  | getMulti i index => exact effect_getMulti hstep
  | getMultiFailed i =>
      simp only [step, stepGetMultiFailed] at hstep
      split at hstep
      next => exact effect_of_failed _ i hstep
      next => cases hstep
  | decode i => exact effect_decode hstep
  | findMentioned i ok => exact effect_findMentioned hstep
  | all i docs => exact effect_all hstep
  | evict key =>
      simp only [step, Option.some.injEq] at hstep
      subst hstep
      exact .evict key

end Step

end SocialNetwork.UserService
