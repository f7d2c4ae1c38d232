import SocialNetwork.Machine
import SocialNetwork.Model
import SocialNetwork.RedisHash

/-!
# The compose-post service

The six upload methods of `composepost.go` share one Redis hash per request:
each writes its fields, increments `num_components`, renews the expiry, and
the one that is told `NUM_COMPONENTS` reads all fields back and hands the
post to `StorePost`.

Each step of the machine is one Redis command of one execution of an upload
method, the join of the seven reading goroutines, a `StorePost` call, or the
expiry of a key.  What `composeAndUpload` does after `StorePost` touches
neither the hash nor the posts.
-/

namespace SocialNetwork.ComposePost

open Json Redis

inductive Method where
  | text
  | media
  | uniqueId
  | urls
  | userMentions
  | creator
  deriving DecidableEq, Repr

instance : Fintype Method where
  elems := {.text, .media, .uniqueId, .urls, .userMentions, .creator}
  complete method := by cases method <;> decide

theorem Method.card : Fintype.card Method = 6 := by rfl

/-- `NUM_COMPONENTS`: the number of exposed methods. -/
def NUM_COMPONENTS : Int := 6

/-- The arguments with which the upload methods of one request are called. -/
structure Request where
  text : String
  media : List Media
  postID : Int64
  postType : PostType
  urls : List URL
  userMentions : List UserMention
  creator : Creator
  deriving DecidableEq, Repr

abbrev FieldsValues := List (String × Json)

/-! ## What each method hands to `uploadComponent` -/

def uploadText (text : String) : FieldsValues := [("text", marshal text)]

def uploadMedia (medias : List Media) : FieldsValues :=
  [("media", marshal medias)]

def uploadUniqueId (postID : Int64) (postType : PostType) : FieldsValues :=
  [("post_id", marshal postID), ("post_type", marshal postType)]

def uploadUrls (urls : List URL) : FieldsValues := [("urls", marshal urls)]

def uploadUserMentions (userMentions : List UserMention) : FieldsValues :=
  [("user_mentions", marshal userMentions)]

def uploadCreator (creator : Creator) : FieldsValues :=
  [("creator", marshal creator)]

def Request.upload (request : Request) : Method → FieldsValues
  | .text => uploadText request.text
  | .media => uploadMedia request.media
  | .uniqueId => uploadUniqueId request.postID request.postType
  | .urls => uploadUrls request.urls
  | .userMentions => uploadUserMentions request.userMentions
  | .creator => uploadCreator request.creator

/-! ## `composeAndUpload` -/

inductive Error where
  | redisNil (key : String)
  | unmarshal (key : String)
  | notInteger
  deriving DecidableEq, Repr

/-- The keys of the seven `loadComponent` goroutines, in the order of
`errs`. -/
def componentKeys : List String :=
  ["text", "creator", "media", "post_id", "urls", "user_mentions",
    "post_type"]

/-- The end of `loadComponent`, given the reply of its `HGET`. -/
def loadComponent {α : Type} [JsonCodec α] (reply : String → Option Json)
    (key : String) : Except Error α :=
  match reply key with
  | none => .error (.redisNil key)
  | some json =>
      match unmarshal json with
      | none => .error (.unmarshal key)
      | some value => .ok value

def buildPost (reqID timestamp : Int64) (reply : String → Option Json) :
    Except Error Post := do
  let text ← loadComponent reply "text"
  let creator ← loadComponent reply "creator"
  let medias ← loadComponent reply "media"
  let postID ← loadComponent reply "post_id"
  let urls ← loadComponent reply "urls"
  let userMentions ← loadComponent reply "user_mentions"
  let postType ← loadComponent reply "post_type"
  return {
    postID := postID
    reqID := reqID
    creator := creator
    text := text
    userMentions := userMentions
    media := medias
    urls := urls
    timestamp := timestamp
    postType := postType }

/-! ## Executions and their interleaving -/

/-- One execution of an upload method.  Executions of one method for one
request, told apart by `attempt`, get the same arguments. -/
structure Execution where
  reqID : Int64
  method : Method
  attempt : ℕ
  deriving DecidableEq, Repr

/-- How far an execution is.  `composing` records the replies of the `HGET`
commands answered so far. -/
inductive Progress where
  | notCalled
  | wroteFields
  | counted (numComponents : Int)
  | composing (replies : String → Option (Option Json))
  | storing (post : Post)
  | stored (post : Post)
  | returned (err : Option Error)

inductive Label where
  | hset (e : Execution)
  | hincrBy (e : Execution)
  | expire (e : Execution)
  | hget (e : Execution) (key : String)
  | join (e : Execution) (timestamp : Int64)
  | storePost (e : Execution)
  | keyExpired (key : String)
  deriving DecidableEq, Repr

structure State where
  hashes : String → Hash
  progress : Execution → Progress
  storePostCalls : List (Execution × Post)

def State.initial : State :=
  ⟨fun _ => Hash.empty, fun _ => .notCalled, []⟩

def State.hash (state : State) (reqID : Int64) : Hash :=
  state.hashes (idText reqID)

def State.setHash (state : State) (reqID : Int64) (hash : Hash) : State :=
  { state with hashes := Function.update state.hashes (idText reqID) hash }

def State.setProgress (state : State) (e : Execution)
    (progress : Progress) : State :=
  { state with progress := Function.update state.progress e progress }

def step (requests : Int64 → Request) (state : State) :
    Label → Option State
  | .hset e =>
      match state.progress e with
      | .notCalled =>
          let fieldsValues := (requests e.reqID).upload e.method
          some ((state.setHash e.reqID
            (hset (state.hash e.reqID) fieldsValues)).setProgress e
              .wroteFields)
      | _ => none
  | .hincrBy e =>
      match state.progress e with
      | .wroteFields =>
          match hincrBy (state.hash e.reqID) "num_components" 1 with
          | none => some (state.setProgress e (.returned (some .notInteger)))
          | some (numComponents, hash) =>
              some ((state.setHash e.reqID hash).setProgress e
                (.counted numComponents))
      | _ => none
  | .expire e =>
      match state.progress e with
      | .counted numComponents =>
          if numComponents = NUM_COMPONENTS then
            some (state.setProgress e (.composing fun _ => none))
          else some (state.setProgress e (.returned none))
      | _ => none
  | .hget e key =>
      match state.progress e with
      | .composing replies =>
          if key ∈ componentKeys ∧ replies key = none then
            some (state.setProgress e (.composing
              (Function.update replies key
                (some (hget (state.hash e.reqID) key)))))
          else none
      | _ => none
  | .join e timestamp =>
      match state.progress e with
      | .composing replies =>
          if ∀ key ∈ componentKeys, (replies key).isSome then
            match buildPost e.reqID timestamp fun key =>
                (replies key).join with
            | .error err =>
                some (state.setProgress e (.returned (some err)))
            | .ok post => some (state.setProgress e (.storing post))
          else none
      | _ => none
  | .storePost e =>
      match state.progress e with
      | .storing post =>
          some { state.setProgress e (.stored post) with
            storePostCalls := state.storePostCalls ++ [(e, post)] }
      | _ => none
  | .keyExpired key =>
      some { state with
        hashes := Function.update state.hashes key Hash.empty }

end SocialNetwork.ComposePost
