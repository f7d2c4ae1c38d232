import SocialNetwork.FollowRequestsSoundness
import SocialNetwork.NotificationFanout

/-!
# From follows to home timelines

The whole path of a post to the home timelines in one machine: follow
requests and user-service calls on one side, compositions, deliveries and
workers on the other.  A worker that has found its post asks the social graph
for the followers of the author, with the two Redis commands of `GetFollowers`
as steps of their own, so follow requests may come between them.

Whatever is interleaved and whatever fails, a post only gets into the home
timelines of the users it mentions and of those who asked to follow its
author.
-/

namespace SocialNetwork.Feeds

open Json Machine
open Notification (Region Worker WorkerPhase)

variable {Run ι κ : Type}

structure Deployment (Run ι κ : Type) where
  posts : Notification.Deployment Run
  follows : FollowRequests.Deployment ι κ

/-- `zcard` is what a worker has of the reply to its `ZCARD`: whether there
are followers in Redis. -/
structure State (Run ι κ : Type) where
  follows : FollowRequests.State ι κ
  posts : Notification.State Run
  zcard : Worker → Option Bool

def State.initial : State Run ι κ where
  follows := FollowRequests.State.initial
  posts := Notification.State.initial
  zcard _ := none

inductive Label (Run ι κ : Type) where
  | follows (label : FollowRequests.Label ι κ)
  | posts (label : Notification.Label Run)
  | zcard (w : Worker) (ok : Bool)
  | zrange (w : Worker) (ok : Bool)
  | findOne (w : Worker) (ok : Bool)

/-- The branch of `GetFollowers` after an empty set. -/
def findFollowers (graph : SocialGraph.Stores) (userID : Int64) :
    Except SocialGraph.Error (List Int64) × SocialGraph.Stores :=
  match SocialGraph.findUserInfo graph userID with
  | .error .noDocuments => (.ok [], graph)
  | .error err => (.error err, graph)
  | .ok userInfo =>
      (.ok (userInfo.followers.map SocialGraph.FollowerInfo.followerID),
        SocialGraph.cacheInfos graph
          (SocialGraph.redisKey .followers userID) userInfo.followers)

/-- The replies of `GetFollowers` to a worker come from the steps below. -/
def isGetFollowers : Notification.Label Run → Bool
  | .getFollowers _ _ => true
  | _ => false

/-- `GetFollowers` returns to the worker. -/
def State.reply [DecidableEq Run] (deployment : Deployment Run ι κ)
    (state : State Run ι κ) (w : Worker) (followers : Option (List Int64))
    (graph : SocialGraph.Stores) : Option (State Run ι κ) :=
  (Notification.step deployment.posts state.posts
    (.getFollowers w followers)).map fun posts =>
      { follows := state.follows.setGraph graph
        posts := posts
        zcard := Function.update state.zcard w none }

section Step

variable [DecidableEq Run] [DecidableEq ι] [DecidableEq κ]

def step (hashPwd : String → String) (deployment : Deployment Run ι κ)
    (state : State Run ι κ) : Label Run ι κ → Option (State Run ι κ)
  | .follows label =>
      (FollowRequests.step hashPwd deployment.follows state.follows
        label).map fun follows => { state with follows := follows }
  | .posts label =>
      if isGetFollowers label then none
      else
        (Notification.step deployment.posts state.posts label).map
          fun posts => { state with posts := posts }
  | .zcard w ok =>
      match state.posts.worker w, state.zcard w with
      | .found msg, none =>
          let key := SocialGraph.redisKey .followers msg.userID
          let numFollowers := (state.follows.graph.redis key).card
          -- An error is logged, and leaves `numFollowers` at 0.
          some { state with
            zcard := Function.update state.zcard w
              (some (ok && decide (0 < numFollowers))) }
      | _, _ => none
  | .zrange w ok =>
      match state.posts.worker w, state.zcard w with
      | .found msg, some true =>
          let key := SocialGraph.redisKey .followers msg.userID
          let result := (state.follows.graph.redis key).members
          let followerIDs :=
            if ok then (SocialGraph.parseIDs result).toOption else none
          state.reply deployment w followerIDs state.follows.graph
      | _, _ => none
  | .findOne w ok =>
      match state.posts.worker w, state.zcard w with
      | .found msg, some false =>
          if ok then
            let (reply, graph) :=
              findFollowers state.follows.graph msg.userID
            state.reply deployment w reply.toOption graph
          else state.reply deployment w none state.follows.graph
      | _, _ => none

/-- Without a step in between the two commands are `GetFollowers`. -/
theorem run_getFollowers {hashPwd : String → String}
    {deployment : Deployment Run ι κ} {state : State Run ι κ} {w : Worker}
    {msg : Message} (hfound : state.posts.worker w = .found msg)
    (hzcard : state.zcard w = none) :
    ∃ label : Label Run ι κ,
      run (step hashPwd deployment) state [.zcard w true, label] =
        state.reply deployment w
          (SocialGraph.GetFollowers state.follows.graph msg.userID).1.toOption
          (SocialGraph.GetFollowers state.follows.graph msg.userID).2 := by
  by_cases hcard : 0 < (state.follows.graph.redis
      (SocialGraph.redisKey .followers msg.userID)).card
  · refine ⟨.zrange w true, ?_⟩
    simp only [run_cons, run_nil, step, hfound, hzcard, hcard, decide_true,
      Bool.and_self, Option.bind_some, Function.update_self, if_true,
      State.reply, Notification.step, SocialGraph.GetFollowers]
    cases (SocialGraph.parseIDs (state.follows.graph.redis
      (SocialGraph.redisKey .followers msg.userID)).members).toOption with
    | none => simp
    | some ids => simp
  · refine ⟨.findOne w true, ?_⟩
    simp only [run_cons, run_nil, step, hfound, hzcard, hcard, decide_false,
      Bool.and_false, Option.bind_some, Function.update_self, if_true,
      State.reply, Notification.step, SocialGraph.GetFollowers, if_false,
      findFollowers]
    cases SocialGraph.findUserInfo state.follows.graph msg.userID with
    | error err => cases err <;> simp [Except.toOption]
    | ok userInfo => simp [Except.toOption]

end Step

/-! ## The steps of a worker -/

section Moves

open Notification

variable {deployment : Notification.Deployment Run}
  {state next : Notification.State Run} {label : Notification.Label Run}

/-- What a step can do to the posts, the recipients and the home
timelines. -/
structure Moves (deployment : Notification.Deployment Run)
    (label : Notification.Label Run)
    (state next : Notification.State Run) : Prop where
  posts : state.Extends next
  found : ∀ w msg, next.worker w = .found msg →
    state.worker w = .found msg ∨ state.worker w = .reading msg
  writing : ∀ w msg ids, next.worker w = .writing msg ids →
    (∃ ids', state.worker w = .writing msg ids' ∧ ids ⊆ ids') ∨
      ∃ followers, label = .getFollowers w (some followers) ∧
        state.worker w = .found msg ∧
        ids = followers.toFinset ∪ msg.userMentionIDs.toFinset
  homeTimelines : next.homeTimelines = state.homeTimelines ∨
    ∃ w id msg ids, state.worker w = .writing msg ids ∧ id ∈ ids ∧
      next.homeTimelines = (state.zaddNX (deployment.workerRegion w) id
        msg).homeTimelines

/-- A step that moves one worker, and not on to its recipients. -/
theorem Moves.setWorker {changed : Notification.State Run} {w : Worker}
    {phase : WorkerPhase} (hworker : changed.worker = state.worker)
    (hposts : changed.posts = state.posts)
    (hfound : ∀ msg, phase = .found msg → state.worker w = .reading msg)
    (hwriting : ∀ msg ids, phase = .writing msg ids →
      (∃ ids', state.worker w = .writing msg ids' ∧ ids ⊆ ids') ∨
        ∃ followers, label = .getFollowers w (some followers) ∧
          state.worker w = .found msg ∧
          ids = followers.toFinset ∪ msg.userMentionIDs.toFinset)
    (htimelines : changed.homeTimelines = state.homeTimelines ∨
      ∃ w id msg ids, state.worker w = .writing msg ids ∧ id ∈ ids ∧
        changed.homeTimelines = (state.zaddNX (deployment.workerRegion w) id
          msg).homeTimelines) :
    Moves deployment label state (changed.setWorker w phase) where
  posts database := by
    change state.posts database ⊆ changed.posts database
    rw [hposts]
    exact List.Subset.refl _
  found other msg hnext := by
    by_cases hother : other = w
    · subst hother
      rw [State.setWorker_self] at hnext
      exact .inr (hfound msg hnext)
    · simp only [State.setWorker, Function.update_of_ne hother, hworker]
        at hnext
      exact .inl hnext
  writing other msg ids hnext := by
    by_cases hother : other = w
    · subst hother
      rw [State.setWorker_self] at hnext
      exact hwriting msg ids hnext
    · simp only [State.setWorker, Function.update_of_ne hother, hworker]
        at hnext
      exact .inl ⟨ids, hnext, Finset.Subset.refl _⟩
  homeTimelines := htimelines

/-- A step of a run of `composeAndUpload`, or of a replica. -/
theorem Moves.of_worker_eq (hposts : state.Extends next)
    (hworker : next.worker = state.worker)
    (htimelines : next.homeTimelines = state.homeTimelines) :
    Moves deployment label state next where
  posts := hposts
  found w msg hnext := .inl (by rw [← hworker]; exact hnext)
  writing w msg ids hnext :=
    .inl ⟨ids, by rw [← hworker]; exact hnext, Finset.Subset.refl _⟩
  homeTimelines := .inl htimelines

theorem moves_of_step [DecidableEq Run]
    (hstep : Notification.step deployment state label = some next) :
    Moves deployment label state next := by
  have hsame : state.Extends state := fun _ => List.Subset.refl _
  cases label with
  | storePost i ok =>
      simp only [Notification.step] at hstep
      split at hstep
      next =>
        split at hstep <;> obtain rfl := Option.some.inj hstep
        · exact .of_worker_eq (state.insert_extends _ _) rfl rfl
        · exact .of_worker_eq hsame rfl rfl
      next => cases hstep
  | publish i ok =>
      simp only [Notification.step] at hstep
      split at hstep
      next =>
        split at hstep <;> obtain rfl := Option.some.inj hstep
        · exact .of_worker_eq hsame rfl rfl
        · exact .of_worker_eq hsame rfl rfl
      next => cases hstep
  | leaveHelper i =>
      simp only [Notification.step] at hstep
      split at hstep
      next =>
        obtain rfl := Option.some.inj hstep
        exact .of_worker_eq hsame rfl rfl
      next => cases hstep
  | replicate source replica post =>
      simp only [Notification.step] at hstep
      split at hstep
      next =>
        obtain rfl := Option.some.inj hstep
        exact .of_worker_eq (state.insert_extends _ _) rfl rfl
      next => cases hstep
  | deliver w index =>
      obtain ⟨body, -, rfl⟩ := step_deliver hstep
      exact .setWorker rfl rfl (by simp) (by simp) (.inl rfl)
  | unmarshal w spanOk =>
      simp only [Notification.step] at hstep
      split at hstep
      next body hworker =>
        split at hstep
        next =>
          obtain rfl := Option.some.inj hstep
          exact .setWorker rfl rfl (by simp) (by simp) (.inl rfl)
        next =>
          split at hstep <;> obtain rfl := Option.some.inj hstep <;>
            exact .setWorker rfl rfl (by simp) (by simp) (.inl rfl)
      next => cases hstep
  | findOne w database =>
      simp only [Notification.step] at hstep
      split at hstep
      next msg hworker =>
        split at hstep <;> obtain rfl := Option.some.inj hstep
        · exact .setWorker rfl rfl (by simp) (by simp) (.inl rfl)
        · refine .setWorker rfl rfl ?_ (by simp) (.inl rfl)
          rintro msg' heq
          cases heq
          exact hworker
      next => cases hstep
  | findFailed w =>
      simp only [Notification.step] at hstep
      split at hstep
      next =>
        obtain rfl := Option.some.inj hstep
        exact .setWorker rfl rfl (by simp) (by simp) (.inl rfl)
      next => cases hstep
  | getFollowers w followers =>
      simp only [Notification.step] at hstep
      split at hstep
      next msg hworker =>
        split at hstep <;> obtain rfl := Option.some.inj hstep
        · exact .setWorker rfl rfl (by simp) (by simp) (.inl rfl)
        · refine .setWorker rfl rfl (by simp) ?_ (.inl rfl)
          rintro msg' ids heq
          cases heq
          exact .inr ⟨_, rfl, hworker, rfl⟩
      next => cases hstep
  | zaddNX w id ok =>
      simp only [Notification.step] at hstep
      split at hstep
      next msg uniqueIDs hworker =>
        split at hstep
        next hid =>
          split at hstep <;> obtain rfl := Option.some.inj hstep
          · refine .setWorker rfl rfl (by simp) ?_
              (.inr ⟨w, id, msg, uniqueIDs, hworker, hid, rfl⟩)
            rintro msg' ids heq
            cases heq
            exact .inl ⟨uniqueIDs, hworker, Finset.erase_subset _ _⟩
          · exact .setWorker rfl rfl (by simp) (by simp) (.inl rfl)
        next => cases hstep
      next => cases hstep
  | leave w =>
      simp only [Notification.step] at hstep
      split at hstep
      next =>
        split at hstep
        next =>
          obtain rfl := Option.some.inj hstep
          exact .setWorker rfl rfl (by simp) (by simp) (.inl rfl)
        next => cases hstep
      next => cases hstep

end Moves

/-! ## Soundness -/

variable {hashPwd : String → String} {deployment : Deployment Run ι κ}
  {labels : List (Label Run ι κ)} {label : Label Run ι κ}
  {state next : State Run ι κ}

/-- The message is that of a post which is stored. -/
def State.Composed (deployment : Deployment Run ι κ)
    (state : State Run ι κ) (msg : Message) : Prop :=
  ∃ i, msg = Notification.message (deployment.posts.post i) ∧
    state.posts.Stored deployment.posts i

/-- The users asked for the edge. -/
def Asked (deployment : Deployment Run ι κ) (users : List User)
    (userID followeeID : Int64) : Prop :=
  ∃ i, (deployment.follows.request i).action.isFollow = true ∧
    (deployment.follows.request i).ends.Names users userID followeeID

/-- The user is mentioned, or asked to follow the author. -/
def Receives (deployment : Deployment Run ι κ) (users : List User)
    (msg : Message) (id : Int64) : Prop :=
  id ∈ msg.userMentionIDs ∨ Asked deployment users id msg.userID

theorem Receives.mono {users users' : List User} {msg : Message} {id : Int64}
    (h : Receives deployment users msg id) (hsubset : users ⊆ users') :
    Receives deployment users' msg id := by
  rcases h with hmention | ⟨i, hfollow, hnames⟩
  · exact .inl hmention
  · exact .inr ⟨i, hfollow, hnames.mono hsubset⟩

structure Sound (deployment : Deployment Run ι κ)
    (state : State Run ι κ) : Prop where
  posts : Notification.Invariant deployment.posts state.posts
  found : ∀ w msg, state.posts.worker w = .found msg →
    state.Composed deployment msg
  writing : ∀ w msg ids, state.posts.worker w = .writing msg ids →
    state.Composed deployment msg ∧
      ∀ id ∈ ids, Receives deployment state.follows.service.users msg id
  homeTimelines : ∀ region id,
    ∀ text ∈ (state.posts.homeTimelines region (idText id)).members,
      ∃ msg, state.Composed deployment msg ∧ text = idText msg.postID ∧
        Receives deployment state.follows.service.users msg id

theorem Sound.initial : Sound deployment State.initial where
  posts := Notification.State.initial_invariant _
  found w msg hfound := nomatch hfound
  writing w msg ids hwriting := nomatch hwriting
  homeTimelines region id text htext := by
    simp [State.initial, Notification.State.initial] at htext

theorem Sound.follows (hgood : Sound deployment state)
    {follows : FollowRequests.State ι κ}
    (husers : state.follows.service.users ⊆ follows.service.users) :
    Sound deployment { state with follows := follows } where
  posts := hgood.posts
  found := hgood.found
  writing w msg ids hwriting := by
    obtain ⟨hcomposed, hids⟩ := hgood.writing w msg ids hwriting
    exact ⟨hcomposed, fun id hid => (hids id hid).mono husers⟩
  homeTimelines region id text htext := by
    obtain ⟨msg, hcomposed, hmsg, hreceives⟩ :=
      hgood.homeTimelines region id text htext
    exact ⟨msg, hcomposed, hmsg, hreceives.mono husers⟩

/-- Of the other users nothing is added. -/
theorem mem_zaddNX {state : Notification.State Run} {region region' : Region}
    {id id' : Int64} {msg : Message} {text : String}
    (htext : text ∈ ((state.zaddNX region id msg).homeTimelines region'
      (idText id')).members) :
    text ∈ (state.homeTimelines region' (idText id')).members ∨
      id' = id ∧ text = idText msg.postID := by
  simp only [Notification.State.zaddNX] at htext
  by_cases hregion : region' = region
  · subst hregion
    rw [Function.update_self] at htext
    by_cases hid : id' = id
    · subst hid
      rw [Function.update_self] at htext
      rcases SortedSet.mem_members_addNX.mp htext with rfl | hold
      · exact .inr ⟨rfl, rfl⟩
      · exact .inl hold
    · rw [Function.update_of_ne fun h => hid (idText_inj.mp h)] at htext
      exact .inl htext
  · rw [Function.update_of_ne hregion] at htext
    exact .inl htext

/-- The followers that a worker takes up asked to follow the author. -/
theorem Sound.posts_step [DecidableEq Run] (hgood : Sound deployment state)
    {command : Notification.Label Run} {posts : Notification.State Run}
    (hstep : Notification.step deployment.posts state.posts command =
      some posts)
    (hfollowers : ∀ w followers msg, command = .getFollowers w
        (some followers) → state.posts.worker w = .found msg →
      ∀ id ∈ followers, Asked deployment state.follows.service.users id
        msg.userID) :
    Sound deployment { state with posts := posts } := by
  have hmoves := moves_of_step hstep
  have hcomposed : ∀ {msg : Message}, state.Composed deployment msg →
      State.Composed deployment { state with posts := posts } msg := by
    rintro msg ⟨i, hmsg, hstored⟩
    exact ⟨i, hmsg, hstored.extends hmoves.posts⟩
  refine ⟨hgood.posts.step hstep, ?_, ?_, ?_⟩
  · intro w msg hfound
    rcases hmoves.found w msg hfound with hbefore | hreading
    · exact hcomposed (hgood.found w msg hbefore)
    · exact hcomposed (hgood.posts.reading w msg hreading)
  · intro w msg ids hwriting
    rcases hmoves.writing w msg ids hwriting with
      ⟨ids', hbefore, hsubset⟩ | ⟨followers, rfl, hfound, rfl⟩
    · obtain ⟨hmsg, hids⟩ := hgood.writing w msg ids' hbefore
      exact ⟨hcomposed hmsg, fun id hid => hids id (hsubset hid)⟩
    · refine ⟨hcomposed (hgood.found w msg hfound), ?_⟩
      intro id hid
      rcases Finset.mem_union.mp hid with hid | hid
      · exact .inr (hfollowers w followers msg rfl hfound id
          (List.mem_toFinset.mp hid))
      · exact .inl (List.mem_toFinset.mp hid)
  · intro region id text htext
    have hold : text ∈ (state.posts.homeTimelines region
        (idText id)).members → ∃ msg,
          State.Composed deployment { state with posts := posts } msg ∧
            text = idText msg.postID ∧
            Receives deployment state.follows.service.users msg id := by
      intro hbefore
      obtain ⟨msg, hmsg, hid⟩ := hgood.homeTimelines region id text hbefore
      exact ⟨msg, hcomposed hmsg, hid⟩
    rcases hmoves.homeTimelines with hsame | hadded
    · exact hold (hsame ▸ htext)
    · obtain ⟨w, id', msg, ids, hwriting, hid', hnext⟩ := hadded
      simp only [hnext] at htext
      rcases mem_zaddNX htext with hbefore | ⟨rfl, rfl⟩
      · exact hold hbefore
      · obtain ⟨hmsg, hids⟩ := hgood.writing w msg ids hwriting
        exact ⟨msg, hcomposed hmsg, rfl, hids id hid'⟩

/-! ## Runs -/

def Label.follows? : Label Run ι κ → Option (FollowRequests.Label ι κ)
  | .follows label => some label
  | _ => none

/-- What a reply of the social graph does to the machine. -/
theorem reply_cases [DecidableEq Run] {w : Worker} {followers : Option (List Int64)}
    {graph : SocialGraph.Stores}
    (hreply : state.reply deployment w followers graph = some next) :
    ∃ posts, Notification.step deployment.posts state.posts
        (.getFollowers w followers) = some posts ∧
      next = { follows := state.follows.setGraph graph
               posts := posts
               zcard := Function.update state.zcard w none } := by
  unfold State.reply at hreply
  rw [Option.map_eq_some_iff] at hreply
  obtain ⟨posts, hposts, hnext⟩ := hreply
  exact ⟨posts, hposts, hnext.symm⟩

structure Good (hashPwd : String → String) (deployment : Deployment Run ι κ)
    (labels : List (Label Run ι κ)) (state : State Run ι κ) : Prop where
  follows : FollowRequests.Good hashPwd deployment.follows
    (labels.filterMap Label.follows?) state.follows
  sound : Sound deployment state

theorem Good.findFollowers (hgood : Good hashPwd deployment labels state)
    (userID : Int64) :
    findFollowers state.follows.graph userID =
      (.ok [], state.follows.graph) := by
  obtain ⟨graph, hgraph, -⟩ := hgood.follows.graph
  rw [hgraph, Feeds.findFollowers, SocialGraph.findUserInfo_toStores]

/-- `ZRANGE` returns the ids of users who asked to follow. -/
theorem Good.zrange (hgood : Good hashPwd deployment labels state)
    (userID : Int64) :
    ∃ ids : List Int64, SocialGraph.parseIDs (state.follows.graph.redis
        (SocialGraph.redisKey .followers userID)).members = .ok ids ∧
      ∀ id, id ∈ ids ↔ (FollowRequests.decisions deployment.follows
        (labels.filterMap Label.follows?) id userID
          (.redis .followers)).getLast? = some true := by
  obtain ⟨graph, hgraph, hdecided⟩ := hgood.follows.graph
  obtain ⟨ids, hids, -, hmem⟩ := hdecided.followers userID
  refine ⟨ids, ?_, hmem⟩
  rw [hgraph]
  change SocialGraph.parseIDs (graph.redis _).members = _
  rw [hids, SocialGraph.parseIDs_map_idText]

theorem filterMap_follows_concat (hlabel : label.follows? = none) :
    (labels ++ [label]).filterMap Label.follows? =
      labels.filterMap Label.follows? := by
  rw [List.filterMap_append, List.filterMap_cons_none hlabel,
    List.filterMap_nil, List.append_nil]

theorem Good.reply [DecidableEq Run]
    (hgood : Good hashPwd deployment labels state)
    (hlabel : label.follows? = none) {w : Worker}
    {followers : Option (List Int64)}
    (hreply : state.reply deployment w followers state.follows.graph =
      some next)
    (hasked : ∀ ids msg, followers = some ids →
      state.posts.worker w = .found msg →
        ∀ id ∈ ids, Asked deployment state.follows.service.users id
          msg.userID) :
    Good hashPwd deployment (labels ++ [label]) next := by
  obtain ⟨posts, hstep, rfl⟩ := reply_cases hreply
  have hsound := hgood.sound.posts_step hstep (by
    rintro w' ids msg heq hfound
    cases heq
    exact hasked ids msg rfl hfound)
  refine ⟨?_, hsound.posts, hsound.found, hsound.writing,
    hsound.homeTimelines⟩
  rw [filterMap_follows_concat hlabel]
  exact hgood.follows

variable [DecidableEq ι] [DecidableEq κ]

theorem follows_users {follows follows' : FollowRequests.State ι κ}
    {requests : FollowRequests.Deployment ι κ}
    {command : FollowRequests.Label ι κ}
    (hstep : FollowRequests.step hashPwd requests follows command =
      some follows') : follows.service.users ⊆ follows'.service.users := by
  cases command with
  | service command =>
      simp only [FollowRequests.step] at hstep
      split at hstep
      next =>
        rw [Option.map_eq_some_iff] at hstep
        obtain ⟨service, hservice, rfl⟩ := hstep
        exact FollowRequests.service_users hservice
      next => cases hstep
  | start i =>
      simp only [FollowRequests.step] at hstep
      split at hstep <;> cases hstep <;> exact List.Subset.refl _
  | wait i =>
      simp only [FollowRequests.step] at hstep
      split at hstep <;> cases hstep <;> exact List.Subset.refl _
  | update i userID followeeID command =>
      simp only [FollowRequests.step] at hstep
      split at hstep
      next =>
        split at hstep
        next =>
          rw [Option.map_eq_some_iff] at hstep
          obtain ⟨call, -, rfl⟩ := hstep
          exact List.Subset.refl _
        next => cases hstep
      next => cases hstep

variable [DecidableEq Run]

theorem Good.step (hgood : Good hashPwd deployment labels state)
    (hstep : step hashPwd deployment state label = some next) :
    Good hashPwd deployment (labels ++ [label]) next := by
  cases label with
  | follows command =>
      simp only [Feeds.step, Option.map_eq_some_iff] at hstep
      obtain ⟨follows, hcommand, rfl⟩ := hstep
      refine ⟨?_, hgood.sound.follows (follows_users hcommand)⟩
      rw [List.filterMap_append]
      exact hgood.follows.step hcommand
  | posts command =>
      simp only [Feeds.step] at hstep
      split at hstep
      next => cases hstep
      next hother =>
        rw [Option.map_eq_some_iff] at hstep
        obtain ⟨posts, hcommand, rfl⟩ := hstep
        refine ⟨?_, hgood.sound.posts_step hcommand ?_⟩
        · rw [filterMap_follows_concat rfl]
          exact hgood.follows
        · rintro w followers msg rfl
          exact absurd rfl hother
  | zcard w ok =>
      simp only [Feeds.step] at hstep
      split at hstep
      next =>
        cases hstep
        refine ⟨?_, hgood.sound.posts, hgood.sound.found,
          hgood.sound.writing, hgood.sound.homeTimelines⟩
        rw [filterMap_follows_concat rfl]
        exact hgood.follows
      next => cases hstep
  | zrange w ok =>
      simp only [Feeds.step] at hstep
      split at hstep
      next msg hfound _ =>
        refine hgood.reply rfl hstep ?_
        intro ids msg' hids hfound' id hid
        rw [hfound] at hfound'
        cases hfound'
        obtain ⟨ids', hparse, hmem⟩ := hgood.zrange msg.userID
        rw [hparse] at hids
        cases ok with
        | false => cases hids
        | true =>
            cases hids
            exact hgood.follows.exists_request
              (List.mem_of_getLast? ((hmem id).mp hid))
      next => cases hstep
  | findOne w ok =>
      simp only [Feeds.step] at hstep
      split at hstep
      next msg hfound _ =>
        rw [hgood.findFollowers] at hstep
        split at hstep
        next =>
          refine hgood.reply rfl hstep ?_
          intro ids msg' hids _ id hid
          cases hids
          cases hid
        next =>
          refine hgood.reply rfl hstep ?_
          intro ids msg' hids
          cases hids
      next => cases hstep

theorem Good.of_run (hrun : run (Feeds.step hashPwd deployment)
      State.initial labels = some state) : Good hashPwd deployment labels state :=
  run_induction (P := Good hashPwd deployment)
    ⟨FollowRequests.Good.initial, Sound.initial⟩
    (fun _ _ _ _ _ hgood hstep => hgood.step hstep) hrun

/-- In every interleaving, whatever fails: what a home timeline holds are
posts that were stored and that mention the user, or whose author the user
asked to follow, by id or by registered usernames. -/
theorem homeTimelines_sound
    (hrun : run (step hashPwd deployment) State.initial labels =
      some state) (region : Region) (id : Int64) :
    ∀ text ∈ (state.posts.homeTimelines region (idText id)).members,
      ∃ i, deployment.posts.post i ∈
          state.posts.posts (deployment.posts.database i) ∧
        text = idText (deployment.posts.post i).postID ∧
        (id ∈ (deployment.posts.post i).userMentions.map
            UserMention.userID ∨
          Asked deployment state.follows.service.users id
            (deployment.posts.post i).creator.userID) := by
  intro text htext
  obtain ⟨msg, ⟨i, rfl, hstored⟩, htext, hreceives⟩ :=
    (Good.of_run hrun).sound.homeTimelines region id text htext
  exact ⟨i, hstored, htext, hreceives⟩

/-- User 1 follows user 2, who composes a post. -/
def sampleDeployment : Deployment Unit Unit Bool where
  posts := {
    composition := fun _ => ⟨⟨7, 1, ⟨2, "bob"⟩, "hello", [], [], [], 0, 0⟩,
      "eu", ["eu"]⟩
    workerRegion := fun _ => "eu" }
  follows := FollowRequests.sampleDeployment

def sampleLabels : List (Label Unit Unit Bool) :=
  FollowRequests.sampleLabels.map .follows ++
    ([.storePost () true, .publish () true, .deliver 0 0, .unmarshal 0 true,
      .findOne 0 "eu"] : List (Notification.Label Unit)).map .posts ++
    [.zcard 0 true, .zrange 0 true, .posts (.zaddNX 0 1 true)]

theorem homeTimelines_sound_sample :
    ∃ state, run (Feeds.step UserService.sampleHash sampleDeployment)
        State.initial sampleLabels = some state ∧
      idText 7 ∈ (state.posts.homeTimelines "eu" (idText 1)).members ∧
      Asked sampleDeployment state.follows.service.users 1 2 := by
  have hrun : (run (Feeds.step UserService.sampleHash sampleDeployment)
      State.initial sampleLabels).any fun state => decide (idText 7 ∈
        (state.posts.homeTimelines "eu" (idText 1)).members) := by
    decide +kernel
  obtain ⟨state, hrun, hmem⟩ := (Option.any_eq_true _ _).mp hrun
  rw [decide_eq_true_eq] at hmem
  refine ⟨state, hrun, hmem, ?_⟩
  obtain ⟨i, -, -, hmention | hasked⟩ :=
    homeTimelines_sound hrun "eu" 1 _ hmem
  · cases hmention
  · exact hasked

end SocialNetwork.Feeds
