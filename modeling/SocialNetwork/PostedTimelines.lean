import SocialNetwork.ComposeDelivery
import SocialNetwork.ReadHandlers

/-!
# From composing to reading

Any number of compose requests and of timeline reads over the same stores.
The store calls of the compose requests are interleaved in any way and may
fail; a read is a step of its own, and memcached may lose a post at any time.

A request sees of the others only the timelines: its view has its own posts
and messages, and a step of the request is the same step in its view.
-/

namespace SocialNetwork.PostedTimelines

open Machine ComposePostHandler
open ComposePost (Method)
open ReadHandlers (Form readHomeTimelineHandler readUserTimelineHandler)
open Redis (Hash)

variable {ι : Type}

structure Deployment (ι : Type) where
  compose : ComposePostHandler.Deployment
  request : ι → Request

def Deployment.reqID (deployment : Deployment ι) (i : ι) : Int64 :=
  (deployment.request i).params.reqID

/-- `redis` is the server of the compose-post service, with a key for each
request id. -/
structure State (ι : Type) where
  redis : Int64 → Hash
  posts : PostStorage.Stores
  published : List (String × Message)
  timelines : UserTimeline.Stores
  phase : ι → Method → Phase

def State.initial : State ι where
  redis _ := Hash.empty
  posts := ⟨[], fun _ => none⟩
  published := []
  timelines := UserTimeline.Stores.empty
  phase _ _ := .notCalled

inductive Label (ι : Type) where
  | compose (i : ι) (label : ComposePostHandler.Label)
  | readHomeTimeline (order : PostStorage.FindOrder)
      (redis : String → SortedSet Int String) (form : Except String Form)
  | readUserTimeline (order : PostStorage.FindOrder)
      (form : Except String Form)
  | evict (key : String)

def State.composeState (deployment : Deployment ι) (state : State ι) (i : ι) :
    ComposePostHandler.State where
  stores :=
    ⟨state.redis (deployment.reqID i), state.posts.posts, state.published,
      state.timelines⟩
  phase := state.phase i

def State.put [DecidableEq ι] (deployment : Deployment ι) (state : State ι)
    (i : ι) (next : ComposePostHandler.State) : State ι where
  redis := Function.update state.redis (deployment.reqID i) next.stores.hash
  posts := { state.posts with posts := next.stores.posts }
  published := next.stores.published
  timelines := next.stores.timelines
  phase := Function.update state.phase i next.phase

def step [DecidableEq ι] (deployment : Deployment ι) (state : State ι) :
    Label ι → Option (State ι)
  | .compose i label =>
      (ComposePostHandler.step deployment.compose (deployment.request i)
        (state.composeState deployment i) label).map
          (state.put deployment i)
  | .readHomeTimeline order redis form =>
      some { state with
        posts := (readHomeTimelineHandler order state.posts redis form).2 }
  | .readUserTimeline order form =>
      let after :=
        (readUserTimelineHandler order state.posts state.timelines form).2
      some { state with timelines := after.1, posts := after.2 }
  | .evict key =>
      some { state with
        posts :=
          { state.posts with
            cache := Function.update state.posts.cache key none } }

/-- The reply to a request, when there is one. -/
def State.reply (deployment : Deployment ι) (state : State ι) (i : ι) :
    Option (Except Error String) :=
  composePostHandler (deployment.request i)
    (state.composeState deployment i)

/-! ## Views -/

/-- The posts and the messages of one request. -/
def viewStores (reqID : Int64) (stores : ComposePostHandler.Stores) :
    ComposePostHandler.Stores :=
  { stores with
    posts := stores.posts.filter fun post => post.reqID = reqID
    published := stores.published.filter fun entry =>
      entry.2.reqID = reqID }

def viewState (reqID : Int64) (state : ComposePostHandler.State) :
    ComposePostHandler.State where
  stores := viewStores reqID state.stores
  phase := state.phase

def State.view (deployment : Deployment ι) (state : State ι) (i : ι) :
    ComposePostHandler.State :=
  viewState (deployment.reqID i) (state.composeState deployment i)

section Act

variable {deployment : ComposePostHandler.Deployment} {request : Request}
  {method : Method} {stores stores' : ComposePostHandler.Stores}
  {phase phase' : Phase} {action : Action}

/-- The posts in the phase of a composer are posts of its request. -/
def OwnPhase (request : Request) : Phase → Prop
  | .storing post | .stored post | .popped post | .publishing post _ =>
      post.reqID = request.params.reqID
  | _ => True

theorem ownPhase_of_good {incremented : List Method}
    (hgood : phase.Good request incremented method) :
    OwnPhase request phase := by
  cases phase with
  | storing post => exact hgood.2.reqID
  | stored post => exact hgood.2.reqID
  | popped post => exact hgood.2.reqID
  | publishing post regions => exact hgood.2.reqID
  | _ => trivial

theorem filter_concat_own {post : Post} (posts : List Post)
    (hown : post.reqID = request.params.reqID) :
    ((posts ++ [post]).filter fun post =>
        post.reqID = request.params.reqID) =
      posts.filter (fun post => post.reqID = request.params.reqID) ++
        [post] := by
  rw [List.filter_append, List.filter_singleton, decide_eq_true hown]
  rfl

theorem storePost_view {post : Post}
    (hown : post.reqID = request.params.reqID) (posts : List Post)
    (write : UserService.Write) :
    StoreFailures.StorePost
        (posts.filter fun post => post.reqID = request.params.reqID) post
        write =
      ((StoreFailures.StorePost posts post write).1,
        (StoreFailures.StorePost posts post write).2.filter fun post =>
          post.reqID = request.params.reqID) := by
  cases write with
  | done => simp [StoreFailures.StorePost, StoreFailures.results,
      UserService.Write.applied, filter_concat_own posts hown]
  | failed applied =>
      cases applied with
      | false => rfl
      | true => simp [StoreFailures.StorePost, StoreFailures.results,
          UserService.Write.applied, filter_concat_own posts hown]

/-- A step of the request is the same step in its view. -/
theorem act_view (hown : OwnPhase request phase)
    (hact : act deployment request method stores phase action =
      some (stores', phase')) :
    act deployment request method
        (viewStores request.params.reqID stores) phase action =
      some (viewStores request.params.reqID stores', phase') := by
  cases action with
  | call answers =>
      cases phase with
      | notCalled =>
          simp only [act] at hact ⊢
          split at hact <;> cases hact <;> rfl
      | _ => cases hact
  | hset write =>
      cases phase with
      | called fieldsValues => cases hact; rfl
      | _ => cases hact
  | hincrBy write =>
      cases phase with
      | wroteFields err =>
          simp only [act, viewStores] at hact ⊢
          split at hact <;> cases hact <;> rfl
      | _ => cases hact
  | expire ok =>
      cases phase with
      | counted numComponents err => cases hact; rfl
      | _ => cases hact
  | hget key ok =>
      cases phase with
      | composing replies =>
          simp only [act] at hact ⊢
          split at hact
          next hready =>
            rw [if_pos hready]
            cases hact
            rfl
          next => cases hact
      | _ => cases hact
  | join timestamp =>
      cases phase with
      | composing replies =>
          simp only [act] at hact ⊢
          split at hact
          next hready =>
            rw [if_pos hready]
            split at hact <;> cases hact <;> rfl
          next => cases hact
      | _ => cases hact
  | insertOne write =>
      cases phase with
      | storing post =>
          simp only [act, viewStores, storePost_view hown] at hact ⊢
          split at hact <;> cases hact <;> rfl
      | _ => cases hact
  | pop ok =>
      cases phase with
      | stored post => cases hact; rfl
      | _ => cases hact
  | exchangeDeclare ok =>
      cases phase with
      | popped post => cases hact; rfl
      | _ => cases hact
  | publish write =>
      cases phase with
      | publishing post regions =>
          cases regions with
          | nil => cases hact
          | cons region regions =>
              have hmessage : (message post).reqID = request.params.reqID :=
                hown
              cases hact
              cases happlied : write.applied with
              | false => simp [act, viewStores, happlied]
              | true => simp [act, viewStores, happlied, hmessage]
      | _ => cases hact
  | writeUserTimeline calls =>
      cases phase with
      | publishing post regions =>
          cases regions with
          | nil => cases hact; rfl
          | cons region regions => cases hact
      | _ => cases hact

/-- What a step does to the stores that the requests share. -/
theorem act_stores
    (hact : act deployment request method stores phase action =
      some (stores', phase')) :
    (stores'.posts = stores.posts ∧ stores'.published = stores.published ∧
        stores'.timelines = stores.timelines) ∨
      (∃ post, phase = .storing post ∧
        stores' = { stores with posts := stores.posts ++ [post] }) ∨
      (∃ post regions region, phase = .publishing post regions ∧
        stores' = { stores with
          published :=
            stores.published ++ [(routingKey region, message post)] }) ∨
      ∃ calls post, action = .writeUserTimeline calls ∧
        phase = .publishing post [] ∧
        stores' = { stores with
          timelines := (UserTimeline.WriteUserTimelineWith calls
            stores.timelines post.postID post.creator.userID
            post.timestamp).2 } := by
  have hcases := act_cases hact
  cases action with
  | call answers =>
      obtain ⟨-, rfl, -⟩ := hcases
      exact .inl ⟨rfl, rfl, rfl⟩
  | hset write =>
      obtain ⟨_, -, rfl, -⟩ := hcases
      exact .inl ⟨rfl, rfl, rfl⟩
  | hincrBy write =>
      cases phase with
      | wroteFields err =>
          simp only [act] at hact
          split at hact <;> cases hact <;> exact .inl ⟨rfl, rfl, rfl⟩
      | _ => cases hact
  | expire ok =>
      obtain ⟨_, _, -, rfl, -⟩ := hcases
      exact .inl ⟨rfl, rfl, rfl⟩
  | hget key ok =>
      obtain ⟨_, -, -, -, rfl, -⟩ := hcases
      exact .inl ⟨rfl, rfl, rfl⟩
  | join timestamp =>
      obtain ⟨_, -, -, rfl, -⟩ := hcases
      exact .inl ⟨rfl, rfl, rfl⟩
  | insertOne write =>
      cases phase with
      | storing post =>
          cases write with
          | done =>
              cases hact
              exact .inr (.inl ⟨post, rfl, rfl⟩)
          | failed applied =>
              cases applied with
              | false =>
                  cases hact
                  exact .inl ⟨rfl, rfl, rfl⟩
              | true =>
                  cases hact
                  exact .inr (.inl ⟨post, rfl, rfl⟩)
      | _ => cases hact
  | pop ok =>
      obtain ⟨_, -, rfl, -⟩ := hcases
      exact .inl ⟨rfl, rfl, rfl⟩
  | exchangeDeclare ok =>
      obtain ⟨_, -, rfl, -⟩ := hcases
      exact .inl ⟨rfl, rfl, rfl⟩
  | publish write =>
      obtain ⟨post, region, regions, rfl, rfl, -⟩ := hcases
      by_cases happlied : write.applied = true
      · rw [if_pos happlied]
        exact .inr (.inr (.inl ⟨post, region :: regions, region, rfl, rfl⟩))
      · rw [if_neg happlied]
        exact .inl ⟨rfl, rfl, rfl⟩
  | writeUserTimeline calls =>
      obtain ⟨post, rfl, rfl, -⟩ := hcases
      exact .inr (.inr (.inr ⟨calls, post, rfl, rfl, rfl⟩))

/-- The other requests see no new post and no new message. -/
theorem act_frame (hown : OwnPhase request phase)
    (hact : act deployment request method stores phase action =
      some (stores', phase')) {reqID : Int64}
    (hne : request.params.reqID ≠ reqID) :
    (viewStores reqID stores').posts = (viewStores reqID stores).posts ∧
      (viewStores reqID stores').published =
        (viewStores reqID stores).published := by
  unfold viewStores
  rcases act_stores hact with ⟨hposts, hpublished, -⟩ | ⟨post, rfl, rfl⟩ |
    ⟨post, regions, region, rfl, rfl⟩ | ⟨calls, post, -, rfl, rfl⟩
  · rw [hposts, hpublished]
    exact ⟨rfl, rfl⟩
  · have hnot : post.reqID ≠ reqID := fun h => hne (hown.symm.trans h)
    simp [hnot]
  · have hnot : (message post).reqID ≠ reqID :=
      fun h => hne (hown.symm.trans h)
    simp [hnot]
  · exact ⟨rfl, rfl⟩

end Act

theorem step_view {deployment : ComposePostHandler.Deployment}
    {request : Request} {state next : ComposePostHandler.State}
    {label : ComposePostHandler.Label}
    (hown : ∀ method, OwnPhase request (state.phase method))
    (hstep : ComposePostHandler.step deployment request state label =
      some next) :
    ComposePostHandler.step deployment request
        (viewState request.params.reqID state) label =
      some (viewState request.params.reqID next) := by
  unfold ComposePostHandler.step at hstep ⊢
  split at hstep
  next henabled =>
    rw [Option.map_eq_some_iff] at hstep
    obtain ⟨⟨stores, phase⟩, hact, rfl⟩ := hstep
    have hview := act_view (hown label.method) hact
    have henabled' : (viewState request.params.reqID state).Enabled label :=
      henabled
    rw [if_pos henabled']
    exact congrArg (Option.map _) hview
  next => cases hstep

end SocialNetwork.PostedTimelines
