import SocialNetwork.SocialGraphReads
import SocialNetwork.UsableRegistrations

/-!
# Follow and unfollow requests

`followHandler` and `unfollowHandler` of `wrk2.go`, with the functions of
`socialgraph.go` that they call, served together with registrations and
logins.  The two `GetUserId` calls of a request by usernames finish in either
order.
-/

namespace SocialNetwork.FollowHandlers

open UserHandlers
open SocialGraph (Schedule Time)

/-- What a request finds, with the clock of the social graph service and the
orders in which its goroutines run. -/
structure FollowEnv extends Env where
  now : Time
  schedule : Schedule
  userFirst : Bool

/-! ## The social graph service -/

/-- The social graph after the goroutines of a call; a panic ends the
component. -/
def onGraph (stores : Stores) (graph : Option SocialGraph.Stores) :
    Except Error Unit × Stores :=
  match graph with
  | none => (.error (.unreachable .socialGraph), stores)
  | some graph => (.ok (), { stores with graph := graph })

def Follow (stores : Stores) (env : FollowEnv) (userID followeeID : Int64) :
    Except Error Unit × Stores :=
  onGraph stores
    (SocialGraph.Follow stores.graph userID followeeID env.now env.schedule)

def Unfollow (stores : Stores) (env : FollowEnv)
    (userID followeeID : Int64) : Except Error Unit × Stores :=
  onGraph stores
    (SocialGraph.Unfollow stores.graph userID followeeID env.schedule)

/-- A `GetUserId` goroutine, with the stores that it leaves. -/
def lookUp (stores : Stores) (env : Env) (username : String) :
    Except Error Int64 × Stores :=
  match GetUserId stores env username with
  | .error err => (.error err, stores)
  | .ok (userID, stores) => (.ok userID, stores)

/-- The replies to the two lookups. -/
def lookUpBoth (stores : Stores) (env : FollowEnv)
    (userUsername followeeUsername : String) :
    Except Error Int64 × Except Error Int64 × Stores :=
  if env.userFirst then
    let (userReply, stores) := lookUp stores env.toEnv userUsername
    let (followeeReply, stores) := lookUp stores env.toEnv followeeUsername
    (userReply, followeeReply, stores)
  else
    let (followeeReply, stores) := lookUp stores env.toEnv followeeUsername
    let (userReply, stores) := lookUp stores env.toEnv userUsername
    (userReply, followeeReply, stores)

/-- The body of `FollowWithUsername` and `UnfollowWithUsername`. -/
def withUsernames
    (call : Stores → FollowEnv → Int64 → Int64 →
      Except Error Unit × Stores)
    (stores : Stores) (env : FollowEnv)
    (userUsername followeeUsername : String) : Except Error Unit × Stores :=
  match lookUpBoth stores env userUsername followeeUsername with
  | (.error err1, _, stores) => (.error err1, stores)
  | (.ok _, .error err2, stores) => (.error err2, stores)
  | (.ok userId, .ok followeeId, stores) => call stores env userId followeeId

def FollowWithUsername : Stores → FollowEnv → String → String →
    Except Error Unit × Stores :=
  withUsernames Follow

def UnfollowWithUsername : Stores → FollowEnv → String → String →
    Except Error Unit × Stores :=
  withUsernames Unfollow

/-! ## The handlers -/

structure FollowParams where
  userID : Int64
  followeeID : Int64
  username : String
  followeeName : String

/-- An absent id is -1. -/
def idOrUnset (text : String) : Except Strconv.NumError Int64 :=
  if text ≠ "" then parseID text else .ok (-1)

def validateFollowParams :
    Except String Form → Except String FollowParams
  | .error err => .error ("error: " ++ err)
  | .ok form =>
      match idOrUnset (form "user_id") with
      | .error _ => .error "invalid user_id"
      | .ok userID =>
          match idOrUnset (form "followee_id") with
          | .error _ => .error "invalid followee_id"
          | .ok followeeID =>
              .ok ⟨userID, followeeID, form "user_name",
                form "followee_name"⟩

/-- The calls and the texts in which the two handlers differ. -/
structure Verb where
  byIDs : Stores → FollowEnv → Int64 → Int64 → Except Error Unit × Stores
  byUsernames : Stores → FollowEnv → String → String →
    Except Error Unit × Stores
  failed : String
  done : String

/-- A call of the component, when it can be reached. -/
def component (stores : Stores) (env : FollowEnv)
    (call : Except Error Unit × Stores) : Except Error Unit × Stores :=
  if env.reachable .socialGraph then call
  else (.error (.unreachable .socialGraph), stores)

/-- The answer to a call, which has been made. -/
def Verb.answer (verb : Verb) (params : FollowParams) :
    Except Error Unit × Stores → Response × Stores
  | (.error err, stores) => (.internalServerError verb.failed err, stores)
  | (.ok (), stores) =>
      (.success ("success! user " ++ params.username ++ " (id=" ++
        idText params.userID ++ ")" ++ verb.done ++ params.followeeName ++
        " (id=" ++ idText params.followeeID ++ ")\n"), stores)

def edgeHandler (verb : Verb) (stores : Stores) (env : FollowEnv)
    (form : Except String Form) : Response × Stores :=
  match validateFollowParams form with
  | .error text => (.badRequest text, stores)
  | .ok params =>
      if params.userID ≠ -1 ∧ params.followeeID ≠ -1 then
        verb.answer params (component stores env
          (verb.byIDs stores env params.userID params.followeeID))
      else if params.username ≠ "" ∧ params.followeeName ≠ "" then
        verb.answer params (component stores env
          (verb.byUsernames stores env params.username params.followeeName))
      else (.badRequest (verb.failed ++ "invalid arguments"), stores)

def followHandler : Stores → FollowEnv → Except String Form →
    Response × Stores :=
  edgeHandler ⟨Follow, FollowWithUsername, "error following user: ",
    " followed user "⟩

def unfollowHandler : Stores → FollowEnv → Except String Form →
    Response × Stores :=
  edgeHandler ⟨Unfollow, UnfollowWithUsername, "error unfollowing user: ",
    " unfollowed user "⟩

/-! ## Sessions -/

/-- The requests of any clients, in the order in which they are served. -/
inductive Request where
  | user (request : UserHandlers.Request)
  | follow (env : FollowEnv) (form : Except String Form)
  | unfollow (env : FollowEnv) (form : Except String Form)

/-- The requests served so far, with their responses, and the stores. -/
structure Session where
  log : List (Request × Option Response)
  stores : Stores

def Session.initial : Session := ⟨[], Stores.initial⟩

section Serve

variable (hashPwd : String → String) (sign : UserService.Claims → Option String)
  (machineID : String)

/-- The responses of the user requests are not logged. -/
def serve (stores : Stores) : Request → Option Response × Stores
  | .user request =>
      (none, UserHandlers.serve hashPwd sign machineID stores request)
  | .follow env form =>
      let (response, stores) := followHandler stores env form
      (some response, stores)
  | .unfollow env form =>
      let (response, stores) := unfollowHandler stores env form
      (some response, stores)

def Session.serve (session : Session) (request : Request) : Session :=
  let (response, stores) :=
    FollowHandlers.serve hashPwd sign machineID session.stores request
  ⟨session.log ++ [(request, response)], stores⟩

def Session.serveAll (session : Session) (requests : List Request) :
    Session :=
  requests.foldl (Session.serve hashPwd sign machineID) session

end Serve

end SocialNetwork.FollowHandlers
