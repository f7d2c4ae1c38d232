import SocialNetwork.ComposeParams
import SocialNetwork.ComposePost
import SocialNetwork.StoreFailures
import SocialNetwork.TextService
import SocialNetwork.UniqueId
import SocialNetwork.UserMentions
import SocialNetwork.UserTimelineFailures

/-!
# One compose request

`composePostHandler` of `wrk2.go` with the services it calls, down to the
store calls of `composepost.go`.  The handler waits for four services; the
text service waits for two others, and starts its own upload when the urls
have been uploaded.

Each of the six upload methods is called at most once, by a service that may
also return before.  Every store call may fail, with or without effect.  A
method that panics returns no result, and its caller is left with an error.
-/

namespace SocialNetwork.ComposePostHandler

open Json Redis ComposePost
open ComposeParams (ComposePostParams)
open UserService (Write)

structure Deployment where
  regions : List String
  machineID : String

/-- A request whose form was accepted, and the random numbers of its
shortened urls. -/
structure Request where
  params : ComposePostParams
  random : ℕ → TextService.Draws

def Request.uploads (request : Request) : TextService.Uploads :=
  (TextService.UploadText request.random request.params.text).get
    (by rw [TextService.uploadText_eq, Option.isSome_some])

inductive Error where
  | media (err : ComposeParams.MediaError)
  | uniqueId (err : UniqueId.Error)
  | insertMany
  | getMulti
  | find
  | all
  | hset
  | hincrBy
  | expire
  | compose (err : ComposePost.Error)
  | storePost
  | panicked
  deriving DecidableEq, Repr

def errOf (write : Write) (err : Error) : Option Error :=
  match write with
  | .done => none
  | .failed _ => some err

/-! ## The calling services -/

/-- What the services find when they answer: the state of the unique-id
service and its clock, the users and the cache of the user mention service,
and the calls that succeed. -/
structure Answers where
  service : UniqueId.Service
  timestamp : Int64
  users : List User
  cache : Users.Memcached
  order : Users.FindOrder
  insertMany : Bool
  getMulti : Bool
  find : Bool
  all : Bool

/-- `UploadUserMentions` of `usermention.go`; `none` when it returns nil
without a call. -/
def UploadUserMentionsWith (answers : Answers) (usernames : List String) :
    Except Error (Option (List UserMention)) :=
  let keys := usernames.map Users.userIDKey
  if !answers.getMulti then .error .getMulti
  else
    match UserMentions.userIDsCached (Users.getMulti answers.cache keys)
        keys with
    -- The error of `Unmarshal` is logged, and nil is returned.
    | none => .ok none
    | some userIDs =>
        let userMentions := UserMentions.cachedMentions usernames userIDs
        let notCached := UserMentions.usersNotCached usernames userMentions
        if notCached.card ≠ 0 then
          if !answers.find then .error .find
          else if !answers.all then .error .all
          else
            .ok (some (userMentions ++
              (answers.order.find answers.users notCached).map
                UserMentions.mention))
        else .ok (some userMentions)

theorem uploadUserMentionsWith_succeed {answers : Answers}
    (hgetMulti : answers.getMulti = true) (hfind : answers.find = true)
    (hall : answers.all = true) (usernames : List String) :
    UploadUserMentionsWith answers usernames =
      .ok (UserMentions.UploadUserMentions answers.order answers.users
        answers.cache usernames) := by
  unfold UploadUserMentionsWith UserMentions.UploadUserMentions
  simp only [hgetMulti, hfind, hall, Bool.not_true, Bool.false_eq_true,
    if_false]
  cases UserMentions.userIDsCached (Users.getMulti answers.cache
      (usernames.map Users.userIDKey)) (usernames.map Users.userIDKey) with
  | none => rfl
  | some userIDs =>
      simp only [UserMentions.cachedMentions, UserMentions.usersNotCached]
      split
      next hnot => simp only [hnot, ne_eq, not_false_eq_true, if_true]
      next hnot => simp only [hnot, if_false]

/-- `UploadUniqueId` of `uniqueid.go`. -/
def uniqueID (deployment : Deployment) (answers : Answers) :
    Except Error Int64 :=
  match (UniqueId.getCounter answers.service answers.timestamp).1 with
  | .error err => .error (.uniqueId err)
  | .ok counter =>
      (Ids.GenUniqueID deployment.machineID answers.timestamp
        counter).mapError fun err => .uniqueId (.parse err)

def Request.creator (request : Request) : Creator :=
  ⟨request.params.userID, request.params.username⟩

/-- The arguments with which the service calls an upload method; `none` when
it returns nil without the call. -/
def upload (deployment : Deployment) (request : Request)
    (answers : Answers) : Method → Except Error (Option FieldsValues)
  | .text => .ok (some (uploadText request.uploads.text))
  | .media =>
      match ComposeParams.UploadMedia request.params.mediaTypes
          request.params.mediaIDs with
      | .error err => .error (.media err)
      | .ok medias => .ok (some (uploadMedia medias))
  | .uniqueId =>
      match uniqueID deployment answers with
      | .error err => .error err
      | .ok id => .ok (some (uploadUniqueId id request.params.postType))
  | .urls =>
      if !answers.insertMany && 0 < request.uploads.urls.length then
        .error .insertMany
      else .ok (some (uploadUrls request.uploads.urls))
  | .userMentions =>
      match UploadUserMentionsWith answers request.uploads.usernames with
      | .error err => .error err
      | .ok none => .ok none
      | .ok (some userMentions) =>
          .ok (some (uploadUserMentions userMentions))
  | .creator => .ok (some (uploadCreator request.creator))

/-! ## The upload methods -/

/-- How far the call for a method is.  The errors of a pipeline are kept
until its end; from `storing` on the method is in `composeAndUpload`. -/
inductive Phase where
  | notCalled
  | called (fieldsValues : FieldsValues)
  | wroteFields (err : Option Error)
  | counted (numComponents : Int) (err : Option Error)
  | composing (replies : String → Option (Option Json))
  | storing (post : Post)
  | stored (post : Post)
  | popped (post : Post)
  | publishing (post : Post) (regions : List String)
  | returned (err : Option Error)

/-- The stores that a request writes, and the messages of the exchange
`write-home-timeline` with their routing keys. -/
structure Stores where
  hash : Hash
  posts : List Post
  published : List (String × Message)
  timelines : UserTimeline.Stores

inductive Action where
  | call (answers : Answers)
  | hset (write : Write)
  | hincrBy (write : Write)
  | expire (ok : Bool)
  | hget (key : String) (ok : Bool)
  | join (timestamp : Int64)
  | insertOne (write : Write)
  | pop (ok : Bool)
  | exchangeDeclare (ok : Bool)
  | publish (write : Write)
  | writeUserTimeline (calls : UserTimeline.WriteCalls)

def routingKey (region : String) : String :=
  "write-home-timeline-" ++ region

def message (post : Post) : Message where
  reqID := post.reqID
  userID := post.creator.userID
  postID := post.postID
  timestamp := post.timestamp
  userMentionIDs := post.userMentions.map UserMention.userID

/-- The end of `uploadComponent`. -/
def afterPipeline (numComponents : Int) (err : Option Error) : Phase :=
  match err with
  | some err => .returned (some err)
  | none =>
      if numComponents = NUM_COMPONENTS then .composing fun _ => none
      else .returned none

def act (deployment : Deployment) (request : Request) (method : Method)
    (stores : Stores) (phase : Phase) : Action → Option (Stores × Phase)
  | .call answers =>
      match phase with
      | .notCalled =>
          match upload deployment request answers method with
          | .error err => some (stores, .returned (some err))
          | .ok none => some (stores, .returned none)
          | .ok (some fieldsValues) => some (stores, .called fieldsValues)
      | _ => none
  | .hset write =>
      match phase with
      | .called fieldsValues =>
          let hash := if write.applied then
            Redis.hset stores.hash fieldsValues else stores.hash
          some ({ stores with hash := hash },
            .wroteFields (errOf write .hset))
      | _ => none
  | .hincrBy write =>
      match phase with
      | .wroteFields err =>
          match Redis.hincrBy stores.hash "num_components" 1 with
          | none => some (stores, .counted 0 (err <|> some .hincrBy))
          | some (numComponents, counted) =>
              let hash := if write.applied then counted else stores.hash
              some ({ stores with hash := hash },
                .counted numComponents (err <|> errOf write .hincrBy))
      | _ => none
  | .expire ok =>
      match phase with
      | .counted numComponents err =>
          some (stores, afterPipeline numComponents
            (err <|> if ok then none else some .expire))
      | _ => none
  | .hget key ok =>
      match phase with
      | .composing replies =>
          if key ∈ componentKeys ∧ replies key = none then
            -- A failed `HGET` and a missing field are both `cmd.Err()`.
            let reply := if ok then Redis.hget stores.hash key else none
            some (stores,
              .composing (Function.update replies key (some reply)))
          else none
      | _ => none
  | .join timestamp =>
      match phase with
      | .composing replies =>
          if ∀ key ∈ componentKeys, (replies key).isSome then
            match buildPost request.params.reqID timestamp fun key =>
                (replies key).join with
            | .error err => some (stores, .returned (some (.compose err)))
            | .ok post => some (stores, .storing post)
          else none
      | _ => none
  | .insertOne write =>
      match phase with
      | .storing post =>
          let (outcome, posts) :=
            StoreFailures.StorePost stores.posts post write
          match outcome with
          | .panicked =>
              some ({ stores with posts := posts },
                .returned (some .panicked))
          | .returned (some _) =>
              some ({ stores with posts := posts },
                .returned (some .storePost))
          | .returned none =>
              some ({ stores with posts := posts }, .stored post)
      | _ => none
  | .pop ok =>
      match phase with
      | .stored post =>
          some (stores,
            if ok then .popped post else .returned (some .panicked))
      | _ => none
  | .exchangeDeclare ok =>
      match phase with
      | .popped post =>
          some (stores,
            if ok then .publishing post deployment.regions
            else .returned (some .panicked))
      | _ => none
  | .publish write =>
      match phase with
      | .publishing post (region :: regions) =>
          -- The error is only logged.
          let published := if write.applied then
            stores.published ++ [(routingKey region, message post)]
            else stores.published
          some ({ stores with published := published },
            .publishing post regions)
      | _ => none
  | .writeUserTimeline calls =>
      match phase with
      | .publishing post [] =>
          -- The error is dropped.
          let (_err, timelines) := UserTimeline.WriteUserTimelineWith calls
            stores.timelines post.postID post.creator.userID post.timestamp
          some ({ stores with timelines := timelines }, .returned none)
      | _ => none

/-! ## The handler -/

structure State where
  stores : Stores
  phase : Method → Phase

/-- No key of Redis exists for a new request. -/
def State.start (posts : List Post) (published : List (String × Message))
    (timelines : UserTimeline.Stores) : State :=
  ⟨⟨Hash.empty, posts, published, timelines⟩, fun _ => .notCalled⟩

def Phase.result : Phase → Option (Option Error)
  | .returned err => some err
  | _ => none

def State.result (state : State) (method : Method) :
    Option (Option Error) :=
  (state.phase method).result

def State.set (state : State) (method : Method) (stores : Stores)
    (phase : Phase) : State :=
  ⟨stores, Function.update state.phase method phase⟩

@[simp] theorem State.set_phase_self (state : State) (method : Method)
    (stores : Stores) (phase : Phase) :
    (state.set method stores phase).phase method = phase :=
  Function.update_self _ _ _

theorem State.set_phase_of_ne (state : State) {method other : Method}
    (hne : other ≠ method) (stores : Stores) (phase : Phase) :
    (state.set method stores phase).phase other = state.phase other :=
  Function.update_of_ne hne _ _

structure Label where
  method : Method
  action : Action

/-- The text service calls `UploadText` once the urls are uploaded. -/
def State.Enabled (state : State) (label : Label) : Prop :=
  label.method = .text → state.result .urls = some none

instance (state : State) (label : Label) : Decidable (state.Enabled label) :=
  by
    unfold State.Enabled
    infer_instance

def step (deployment : Deployment) (request : Request) (state : State)
    (label : Label) : Option State :=
  if state.Enabled label then
    (act deployment request label.method state.stores
      (state.phase label.method) label.action).map fun (stores, phase) =>
        state.set label.method stores phase
  else none

/-- What `UploadText` of `text.go` has returned. -/
def State.textResult (state : State) : Option (Option Error) := do
  match ← state.result .urls with
  | some shortenUrlErr => return some shortenUrlErr
  | none =>
      match ← state.result .userMentions with
      | some userMentionErr => return some userMentionErr
      | none => state.result .text

/-- The reply, when there is one. -/
def composePostHandler (request : Request) (state : State) :
    Option (Except Error String) := do
  let errs := [← state.textResult, ← state.result .media,
    ← state.result .uniqueId, ← state.result .creator]
  match errs.findSome? id with
  | some err => return .error err
  | none =>
      return .ok ("success! user " ++ request.params.username ++ " (id=" ++
        idText request.params.userID ++ ") composed post: " ++
        request.params.text ++ "\n")

/-- A success reply means that every upload method returned nil. -/
theorem result_of_success {request : Request} {state : State}
    {response : String}
    (hreply : composePostHandler request state = some (.ok response))
    (method : Method) : state.result method = some none := by
  unfold composePostHandler at hreply
  simp only [Option.bind_eq_bind, Option.bind_eq_some_iff] at hreply
  obtain ⟨text, htext, media, hmedia, uniqueId, huniqueId, creator, hcreator,
    hreply⟩ := hreply
  have herrs : text = none ∧ media = none ∧ uniqueId = none ∧
      creator = none := by
    cases text <;> cases media <;> cases uniqueId <;> cases creator <;>
      simp_all
  obtain ⟨rfl, rfl, rfl, rfl⟩ := herrs
  unfold State.textResult at htext
  rw [Option.bind_eq_bind, Option.bind_eq_some_iff] at htext
  obtain ⟨urls, hurls, htext⟩ := htext
  cases urls with
  | some err => cases htext
  | none =>
      simp only [Option.bind_eq_some_iff] at htext
      obtain ⟨userMentions, huserMentions, htext⟩ := htext
      cases userMentions with
      | some err => cases htext
      | none => cases method <;> assumption

end SocialNetwork.ComposePostHandler
