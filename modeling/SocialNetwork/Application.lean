import SocialNetwork.Feeds
import SocialNetwork.PostedTimelinesRuns

/-!
# The application

The compose and read handlers and everything behind them in one machine: the
handlers of any number of requests, follow requests and the user service, the
exchange, the replicas of the post collection, and the workers that write the
home timelines of each region.

The handlers run at the primary of the post collection.  They take the place
of the runs of `composeAndUpload` in the machine of the feeds, which are given
by the posts they compose.
-/

namespace SocialNetwork.Application

open Json Machine
open ComposePostHandler (routingKey)
open Notification (Database Region RunPhase Worker WorkerPhase)
open ReadHandlers (Form readHomeTimelineHandler)

variable {Run ι κ : Type}

structure Deployment (Run ι κ : Type) where
  posting : PostedTimelines.Deployment Run
  follows : FollowRequests.Deployment ι κ
  workerRegion : Worker → Region
  primary : Database

/-- The machine of the feeds, with the posts that the requests compose. -/
def Deployment.feeds (deployment : Deployment Run ι κ) (post : Run → Post) :
    Feeds.Deployment Run ι κ where
  posts :=
    { composition := fun i =>
        ⟨post i, deployment.primary, deployment.posting.compose.regions⟩
      workerRegion := deployment.workerRegion }
  follows := deployment.follows

/-- `replicas` holds the post collections but the primary, whose posts are
those of the handlers. -/
structure State (Run ι κ : Type) where
  posting : PostedTimelines.State Run
  follows : FollowRequests.State ι κ
  replicas : Database → List Post
  inFlight : List (Region × Json)
  worker : Worker → WorkerPhase
  zcard : Worker → Option Bool
  homeTimelines : Region → String → SortedSet Int String
  inconsistencies : Region → ℕ

def State.initial : State Run ι κ where
  posting := PostedTimelines.State.initial
  follows := FollowRequests.State.initial
  replicas _ := []
  inFlight := []
  worker _ := .waiting
  zcard _ := none
  homeTimelines _ _ := SortedSet.empty
  inconsistencies _ := 0

/-- The queue that the exchange routes a message to, and its body. -/
def routed (entry : String × Message) : Region × Json :=
  (Strings.trimPrefix entry.1 "write-home-timeline-", marshal entry.2)

theorem routed_routingKey (region : Region) (msg : Message) :
    routed (routingKey region, msg) = (region, marshal msg) := by
  have hregion : Strings.trimPrefix (routingKey region)
      "write-home-timeline-" = region := by
    unfold routingKey
    exact Strings.trimPrefix_append _ _
  exact Prod.ext hregion rfl

/-- The state of the machine of the feeds, but for its runs. -/
def State.feeds (deployment : Deployment Run ι κ) (state : State Run ι κ)
    (run : Run → RunPhase) : Feeds.State Run ι κ where
  follows := state.follows
  posts :=
    { posts := Function.update state.replicas deployment.primary
        state.posting.posts.posts
      run := run
      published := state.posting.published.map routed
      inFlight := state.inFlight
      worker := state.worker
      homeTimelines := state.homeTimelines
      inconsistencies := state.inconsistencies }
  zcard := state.zcard

def State.setFeeds (state : State Run ι κ) (feeds : Feeds.State Run ι κ) :
    State Run ι κ :=
  { state with
    follows := feeds.follows
    replicas := feeds.posts.posts
    inFlight := feeds.posts.inFlight
    worker := feeds.posts.worker
    zcard := feeds.zcard
    homeTimelines := feeds.posts.homeTimelines
    inconsistencies := feeds.posts.inconsistencies }

inductive Label (Run ι κ : Type) where
  | compose (i : Run) (label : ComposePostHandler.Label)
  | readHomeTimeline (region : Region) (order : PostStorage.FindOrder)
      (form : Except String Form)
  | readUserTimeline (order : PostStorage.FindOrder)
      (form : Except String Form)
  | evict (key : String)
  | feeds (label : Feeds.Label Run ι κ)

/-- The steps that are not those of a handler; the primary has no source. -/
def isEnvironment (primary : Database) : Notification.Label Run → Bool
  | .storePost _ _ => false
  | .publish _ _ => false
  | .leaveHelper _ => false
  | .replicate _ replica _ => decide (replica ≠ primary)
  | _ => true

def isFeeds (primary : Database) : Feeds.Label Run ι κ → Bool
  | .posts label => isEnvironment primary label
  | _ => true

/-- No run of the feeds machine takes a step here. -/
def noPost : Post := ⟨0, 0, ⟨0, ""⟩, "", [], [], [], 0, 0⟩

/-- What the handlers publish is in flight. -/
def State.setPosting (state : State Run ι κ)
    (posting : PostedTimelines.State Run) : State Run ι κ :=
  let sent := posting.published.drop state.posting.published.length
  { state with
    posting := posting
    inFlight := state.inFlight ++ sent.map routed }

section Step

variable [DecidableEq Run]

def State.serve (deployment : Deployment Run ι κ) (state : State Run ι κ)
    (label : PostedTimelines.Label Run) : Option (State Run ι κ) :=
  (PostedTimelines.step deployment.posting state.posting label).map
    state.setPosting

variable [DecidableEq ι] [DecidableEq κ]

def step (hashPwd : String → String) (deployment : Deployment Run ι κ)
    (state : State Run ι κ) : Label Run ι κ → Option (State Run ι κ)
  | .compose i label => state.serve deployment (.compose i label)
  | .readHomeTimeline region order form =>
      state.serve deployment
        (.readHomeTimeline order (state.homeTimelines region) form)
  | .readUserTimeline order form =>
      state.serve deployment (.readUserTimeline order form)
  | .evict key => state.serve deployment (.evict key)
  | .feeds label =>
      if isFeeds deployment.primary label then
        (Feeds.step hashPwd (deployment.feeds fun _ => noPost)
          (state.feeds deployment fun _ => .joined) label).map state.setFeeds
      else none

end Step

/-! ## Steps of the handlers -/

section Handlers

variable {deployment : Deployment Run ι κ} {state : State Run ι κ}

theorem feeds_setPosting (posting : PostedTimelines.State Run)
    (hposts : posting.posts.posts = state.posting.posts.posts)
    (hpublished : posting.published = state.posting.published)
    (run : Run → RunPhase) :
    (state.setPosting posting).feeds deployment run =
      state.feeds deployment run := by
  simp only [State.feeds, State.setPosting, hposts, hpublished,
    List.drop_length, List.map_nil, List.append_nil]

theorem feeds_setPosting_stored (posting : PostedTimelines.State Run)
    {post : Post}
    (hposts : posting.posts.posts = state.posting.posts.posts ++ [post])
    (hpublished : posting.published = state.posting.published)
    (run : Run → RunPhase) :
    (state.setPosting posting).feeds deployment run =
      { state.feeds deployment run with
        posts := (state.feeds deployment run).posts.insert
          deployment.primary post } := by
  simp only [State.feeds, State.setPosting, Notification.State.insert,
    hposts, hpublished, List.drop_length, List.map_nil, List.append_nil,
    Function.update_self, Function.update_idem]

theorem feeds_setPosting_published (posting : PostedTimelines.State Run)
    {region : Region} {msg : Message}
    (hposts : posting.posts.posts = state.posting.posts.posts)
    (hpublished : posting.published =
      state.posting.published ++ [(routingKey region, msg)])
    (run : Run → RunPhase) :
    (state.setPosting posting).feeds deployment run =
      { state.feeds deployment run with
        posts :=
          { (state.feeds deployment run).posts with
            published := (state.feeds deployment run).posts.published ++
              [(region, marshal msg)]
            inFlight := (state.feeds deployment run).posts.inFlight ++
              [(region, marshal msg)] } } := by
  simp only [State.feeds, State.setPosting, hposts, hpublished,
    List.drop_left, List.map_append, List.map_cons, List.map_nil,
    routed_routingKey]

end Handlers

/-! ## Steps of the environment -/

/-- The same state with other runs. -/
def withRun (run : Run → RunPhase) (feeds : Feeds.State Run ι κ) :
    Feeds.State Run ι κ :=
  { feeds with posts := { feeds.posts with run := run } }

/-- What the environment leaves to the handlers. -/
structure Unmoved (primary : Database) (feeds next : Feeds.State Run ι κ) :
    Prop where
  run : next.posts.run = feeds.posts.run
  published : next.posts.published = feeds.posts.published
  posts : next.posts.posts primary = feeds.posts.posts primary

/-- The stores after a step of the environment are those it left. -/
theorem feeds_setFeeds {deployment : Deployment Run ι κ}
    {state : State Run ι κ} {next : Feeds.State Run ι κ}
    {run : Run → RunPhase}
    (hnext : Unmoved deployment.primary (state.feeds deployment run) next)
    (run' : Run → RunPhase) :
    (state.setFeeds next).feeds deployment run' = withRun run' next := by
  have hprimary : state.posting.posts.posts =
      next.posts.posts deployment.primary := by
    have hself : (state.feeds deployment run).posts.posts
        deployment.primary = state.posting.posts.posts :=
      Function.update_self _ _ _
    rw [hnext.posts, hself]
  have hpublished : state.posting.published.map routed =
      next.posts.published := hnext.published.symm
  unfold State.feeds State.setFeeds withRun
  simp only [hprimary, hpublished, Function.update_eq_self]

section Environment

variable [DecidableEq Run] {deployment : Deployment Run ι κ}

/-- A worker's step does not depend on the runs, and leaves them, the log of
messages and the primary alone. -/
theorem notification_step {primary : Database}
    {label : Notification.Label Run} (hlabel : isEnvironment primary label)
    {composition : Run → Notification.Composition}
    {workerRegion : Worker → Region} {state next : Notification.State Run}
    (hstep : Notification.step ⟨composition, workerRegion⟩ state label =
      some next) (composition' : Run → Notification.Composition)
    (run : Run → RunPhase) :
    Notification.step ⟨composition', workerRegion⟩ { state with run := run }
        label = some { next with run := run } ∧
      next.run = state.run ∧ next.published = state.published ∧
      next.posts primary = state.posts primary := by
  cases label with
  | storePost i ok => cases hlabel
  | publish i ok => cases hlabel
  | leaveHelper i => cases hlabel
  | replicate source replica post =>
      have hreplica : primary ≠ replica := (of_decide_eq_true hlabel).symm
      simp only [Notification.step] at hstep ⊢
      split at hstep
      next hready =>
        rw [if_pos hready]
        cases hstep
        exact ⟨rfl, rfl, rfl, Function.update_of_ne hreplica _ _⟩
      next => cases hstep
  | deliver w index =>
      simp only [Notification.step] at hstep ⊢
      split at hstep
      next region body hworker hget =>
        split at hstep
        next hregion =>
          rw [if_pos hregion]
          cases hstep
          exact ⟨rfl, rfl, rfl, rfl⟩
        next => cases hstep
      next => cases hstep
  | unmarshal w spanOk =>
      simp only [Notification.step] at hstep ⊢
      split at hstep
      next body hworker =>
        split at hstep
        next =>
          cases hstep
          exact ⟨rfl, rfl, rfl, rfl⟩
        next =>
          cases spanOk <;> cases hstep <;> exact ⟨rfl, rfl, rfl, rfl⟩
      next => cases hstep
  | findOne w database =>
      simp only [Notification.step] at hstep ⊢
      split at hstep
      next msg hworker =>
        split at hstep <;> cases hstep <;> exact ⟨rfl, rfl, rfl, rfl⟩
      next => cases hstep
  | findFailed w =>
      simp only [Notification.step] at hstep ⊢
      split at hstep
      next => cases hstep; exact ⟨rfl, rfl, rfl, rfl⟩
      next => cases hstep
  | getFollowers w followers =>
      simp only [Notification.step] at hstep ⊢
      split at hstep
      next =>
        split at hstep <;> cases hstep <;> exact ⟨rfl, rfl, rfl, rfl⟩
      next => cases hstep
  | zaddNX w id ok =>
      simp only [Notification.step] at hstep ⊢
      split at hstep
      next =>
        split at hstep
        next hid =>
          rw [if_pos hid]
          cases ok <;> cases hstep <;> exact ⟨rfl, rfl, rfl, rfl⟩
        next => cases hstep
      next => cases hstep
  | leave w =>
      simp only [Notification.step] at hstep ⊢
      split at hstep
      next =>
        split at hstep
        next hempty =>
          rw [if_pos hempty]
          cases hstep
          exact ⟨rfl, rfl, rfl, rfl⟩
        next => cases hstep
      next => cases hstep

theorem reply_step {post post' : Run → Post}
    {feeds next : Feeds.State Run ι κ} {w : Worker}
    {followers : Option (List Int64)} {graph : SocialGraph.Stores}
    (hreply : feeds.reply (deployment.feeds post) w followers graph =
      some next) (run : Run → RunPhase) :
    (withRun run feeds).reply (deployment.feeds post') w followers graph =
        some (withRun run next) ∧
      Unmoved deployment.primary feeds next := by
  obtain ⟨posts, hposts, rfl⟩ := Feeds.reply_cases hreply
  have hlabel : isEnvironment deployment.primary
      (.getFollowers w followers : Notification.Label Run) := rfl
  obtain ⟨hstep, hrun, hpublished, hprimary⟩ := notification_step hlabel
    hposts (deployment.feeds post').posts.composition run
  exact ⟨congrArg (Option.map _) hstep, hrun, hpublished, hprimary⟩

variable [DecidableEq ι] [DecidableEq κ]

theorem feeds_step {hashPwd : String → String} {post : Run → Post}
    {label : Feeds.Label Run ι κ}
    (hlabel : isFeeds deployment.primary label)
    {feeds next : Feeds.State Run ι κ}
    (hstep : Feeds.step hashPwd (deployment.feeds post) feeds label =
      some next) (post' : Run → Post) (run : Run → RunPhase) :
    Feeds.step hashPwd (deployment.feeds post') (withRun run feeds) label =
        some (withRun run next) ∧
      Unmoved deployment.primary feeds next := by
  cases label with
  | follows label =>
      obtain ⟨follows, hfollows, rfl⟩ := Option.map_eq_some_iff.mp hstep
      exact ⟨congrArg (Option.map _) hfollows, rfl, rfl, rfl⟩
  | posts label =>
      simp only [Feeds.step] at hstep ⊢
      split at hstep
      next => cases hstep
      next hother =>
        rw [if_neg hother]
        obtain ⟨posts, hposts, rfl⟩ := Option.map_eq_some_iff.mp hstep
        obtain ⟨hnext, hrun, hpublished, hprimary⟩ :=
          notification_step hlabel hposts
            (deployment.feeds post').posts.composition run
        exact ⟨congrArg (Option.map _) hnext, hrun, hpublished, hprimary⟩
  | zcard w ok =>
      simp only [Feeds.step, withRun] at hstep ⊢
      split at hstep
      next => cases hstep; exact ⟨rfl, rfl, rfl, rfl⟩
      next => cases hstep
  | zrange w ok =>
      simp only [Feeds.step] at hstep
      split at hstep
      next msg hworker hzcard =>
        simp only [Feeds.step, withRun, hworker, hzcard]
        exact reply_step hstep run
      next => cases hstep
  | findOne w ok =>
      simp only [Feeds.step] at hstep
      split at hstep
      next msg hworker hzcard =>
        simp only [Feeds.step, withRun, hworker, hzcard]
        cases ok with
        | true => exact reply_step hstep run
        | false => exact reply_step hstep run
      next => cases hstep

end Environment

end SocialNetwork.Application
