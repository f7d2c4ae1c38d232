import SocialNetwork.FeedDelivery

/-!
# Messages are processed

The workers cannot go on forever without new messages or new followers: every
step of a worker, also a failing call, lowers the work that is left.  And they
cannot stop before a message is processed, as some worker has a step whose
call may succeed.
-/

namespace SocialNetwork.Feeds

open Json Machine
open Notification (Region Worker WorkerPhase)

variable {Run ι κ : Type}

/-! ## Work that is left -/

def Label.worker? : Label Run ι κ → Option Worker
  | .follows _ => none
  | .posts label => label.worker?
  | .zcard w _ => some w
  | .zrange w _ => some w
  | .findOne w _ => some w

/-- A bound for the recipients of a message. -/
def fanOut (graph : SocialGraph.Stores) (msg : Message) : ℕ :=
  (graph.redis (SocialGraph.redisKey .followers msg.userID)).card +
    msg.userMentionIDs.length

def bodyFanOut (graph : SocialGraph.Stores) (body : Json) : ℕ :=
  ((unmarshal body : Option Message).map (fanOut graph)).getD 0

/-- A bound for the steps that a worker takes before it waits again. -/
def phaseWork (graph : SocialGraph.Stores) (zcard : Option Bool) :
    WorkerPhase → ℕ
  | .waiting => 0
  | .received body => bodyFanOut graph body + 5
  | .reading msg => fanOut graph msg + 4
  | .found msg => fanOut graph msg + if zcard = none then 3 else 2
  | .writing _ uniqueIDs => uniqueIDs.card + 1

def entryWork (graph : SocialGraph.Stores) (entry : Region × Json) : ℕ :=
  bodyFanOut graph entry.2 + 6

def State.workOf (state : State Run ι κ) (w : Worker) : ℕ :=
  phaseWork state.follows.graph (state.zcard w) (state.posts.worker w)

/-- The work of these workers and of the messages in flight. -/
def State.work (state : State Run ι κ) (workers : Finset Worker) : ℕ :=
  (state.posts.inFlight.map (entryWork state.follows.graph)).sum +
    ∑ w ∈ workers, state.workOf w

theorem bodyFanOut_of_unmarshal {graph : SocialGraph.Stores} {body : Json}
    {msg : Message} (hbody : (unmarshal body : Option Message) = some msg) :
    bodyFanOut graph body = fanOut graph msg := by
  rw [bodyFanOut, hbody]
  rfl

/-- What a step of a worker leaves to the others. -/
structure Frame (w : Worker) (state next : State Run ι κ) : Prop where
  graph : next.follows.graph = state.follows.graph
  worker : ∀ other, other ≠ w →
    next.posts.worker other = state.posts.worker other
  workOf : ∀ other, other ≠ w → next.workOf other = state.workOf other

/-- A step of a worker takes up a message or goes on with one. -/
def Lowers (w : Worker) (state next : State Run ι κ) : Prop :=
  (next.posts.inFlight = state.posts.inFlight ∧
      next.workOf w < state.workOf w) ∨
    ∃ (index : ℕ) (hindex : index < state.posts.inFlight.length),
      next.posts.inFlight = state.posts.inFlight.eraseIdx index ∧
      next.workOf w <
        entryWork state.follows.graph state.posts.inFlight[index]

theorem work_lt {w : Worker} {state next : State Run ι κ}
    (hframe : Frame w state next) (hlowers : Lowers w state next)
    {workers : Finset Worker} (hw : w ∈ workers) :
    next.work workers < state.work workers := by
  have hothers : ∑ other ∈ workers.erase w, next.workOf other =
      ∑ other ∈ workers.erase w, state.workOf other :=
    Finset.sum_congr rfl fun other hother =>
      hframe.workOf other (Finset.ne_of_mem_erase hother)
  unfold State.work
  rw [← Finset.add_sum_erase _ _ hw, ← Finset.add_sum_erase _ _ hw, hothers,
    hframe.graph]
  rcases hlowers with ⟨hinFlight, hlt⟩ | ⟨index, hindex, hinFlight, hlt⟩
  · rw [hinFlight]
    omega
  · have hperm := (List.getElem_cons_eraseIdx_perm hindex).map
      (entryWork state.follows.graph)
    have hsum := hperm.sum_eq
    rw [List.map_cons, List.sum_cons] at hsum
    rw [hinFlight]
    omega

/-! ## Steps of a worker -/

section Steps

variable {hashPwd : String → String} {deployment : Deployment Run ι κ}
  {labels : List (Label Run ι κ)} {label : Label Run ι κ}
  {state next : State Run ι κ} {w : Worker}

theorem workOf_setWorker (graph : FollowRequests.State ι κ)
    (posts : Notification.State Run) (zcard : Worker → Option Bool)
    (w : Worker) (phase : WorkerPhase) :
    State.workOf ⟨graph, posts.setWorker w phase, zcard⟩ w =
      phaseWork graph.graph (zcard w) phase := by
  unfold State.workOf
  rw [Notification.State.setWorker_self]

theorem worker_of_ne [DecidableEq Run] {command : Notification.Label Run}
    (hw : command.worker? = some w) {posts : Notification.State Run}
    (hstep : Notification.step deployment.posts state.posts command =
      some posts) (other : Worker) (hother : other ≠ w) :
    posts.worker other = state.posts.worker other := by
  refine Notification.step_worker_of_ne ?_ hstep
  rw [hw]
  exact fun h => hother (Option.some.inj h).symm

theorem Frame.posts [DecidableEq Run] {command : Notification.Label Run}
    (hw : command.worker? = some w) {posts : Notification.State Run}
    (hstep : Notification.step deployment.posts state.posts command =
      some posts) : Frame w state { state with posts := posts } := by
  have hworker := worker_of_ne hw hstep
  refine ⟨rfl, hworker, fun other hother => ?_⟩
  unfold State.workOf
  rw [hworker other hother]

theorem Lowers.posts [DecidableEq Run] {command : Notification.Label Run}
    (hw : command.worker? = some w) (hother : isGetFollowers command = false)
    {posts : Notification.State Run}
    (hstep : Notification.step deployment.posts state.posts command =
      some posts) : Lowers w state { state with posts := posts } := by
  cases command with
  | storePost i ok => cases hw
  | publish i ok => cases hw
  | leaveHelper i => cases hw
  | replicate source replica post => cases hw
  | getFollowers w followers => cases hother
  | deliver w' index =>
      obtain rfl := Option.some.inj hw
      simp only [Notification.step] at hstep
      split at hstep
      next region body hwaiting hget =>
        split at hstep
        next hregion =>
          obtain rfl := Option.some.inj hstep
          obtain ⟨hindex, hget⟩ := List.getElem?_eq_some_iff.mp hget
          refine .inr ⟨index, hindex, rfl, ?_⟩
          rw [workOf_setWorker, hget]
          exact Nat.lt_succ_self _
        next => cases hstep
      next => cases hstep
  | unmarshal w' spanOk =>
      obtain rfl := Option.some.inj hw
      simp only [Notification.step] at hstep
      split at hstep
      next body hphase =>
        have hwork : state.workOf w' =
            bodyFanOut state.follows.graph body + 5 := by
          rw [State.workOf, hphase]
          rfl
        split at hstep
        next hbody =>
          obtain rfl := Option.some.inj hstep
          refine .inl ⟨rfl, ?_⟩
          rw [workOf_setWorker, hwork]
          exact Nat.succ_pos _
        next msg hbody =>
          rw [bodyFanOut_of_unmarshal hbody] at hwork
          split at hstep <;> obtain rfl := Option.some.inj hstep <;>
            refine .inl ⟨rfl, ?_⟩ <;> rw [workOf_setWorker, hwork]
          · exact Nat.lt_succ_self _
          · exact Nat.succ_pos _
      next => cases hstep
  | findOne w' database =>
      obtain rfl := Option.some.inj hw
      simp only [Notification.step] at hstep
      split at hstep
      next msg hphase =>
        have hwork : state.workOf w' =
            fanOut state.follows.graph msg + 4 := by
          rw [State.workOf, hphase]
          rfl
        split at hstep <;> obtain rfl := Option.some.inj hstep <;>
          refine .inl ⟨rfl, ?_⟩ <;> rw [workOf_setWorker, hwork]
        · exact Nat.succ_pos _
        · have hzcard : (if state.zcard w' = none then 3 else 2) ≤ 3 := by
            split <;> omega
          simp only [phaseWork]
          omega
      next => cases hstep
  | findFailed w' =>
      obtain rfl := Option.some.inj hw
      simp only [Notification.step] at hstep
      split at hstep
      next msg hphase =>
        obtain rfl := Option.some.inj hstep
        refine .inl ⟨rfl, ?_⟩
        rw [workOf_setWorker, State.workOf, hphase]
        exact Nat.succ_pos _
      next => cases hstep
  | zaddNX w' id ok =>
      obtain rfl := Option.some.inj hw
      simp only [Notification.step] at hstep
      split at hstep
      next msg uniqueIDs hphase =>
        have hwork : state.workOf w' = uniqueIDs.card + 1 := by
          rw [State.workOf, hphase]
          rfl
        split at hstep
        next hid =>
          have hcard := Finset.card_erase_lt_of_mem hid
          split at hstep <;> obtain rfl := Option.some.inj hstep <;>
            refine .inl ⟨rfl, ?_⟩ <;> rw [workOf_setWorker, hwork]
          · exact Nat.succ_lt_succ hcard
          · exact Nat.succ_pos _
        next => cases hstep
      next => cases hstep
  | leave w' =>
      obtain rfl := Option.some.inj hw
      simp only [Notification.step] at hstep
      split at hstep
      next msg uniqueIDs hphase =>
        split at hstep
        next =>
          obtain rfl := Option.some.inj hstep
          refine .inl ⟨rfl, ?_⟩
          rw [workOf_setWorker, State.workOf, hphase]
          exact Nat.succ_pos _
        next => cases hstep
      next => cases hstep

/-- `ZRANGE` returns as many ids as `ZCARD` counts. -/
theorem Good.length_followers (hgood : Good hashPwd deployment labels state)
    (userID : Int64) :
    ∃ ids : List Int64, SocialGraph.parseIDs (state.follows.graph.redis
        (SocialGraph.redisKey .followers userID)).members = .ok ids ∧
      ids.length = (state.follows.graph.redis
        (SocialGraph.redisKey .followers userID)).card := by
  obtain ⟨graph, hgraph, hdecided⟩ := hgood.follows.graph
  obtain ⟨ids, hids, -⟩ := hdecided.followers userID
  have hmembers : (state.follows.graph.redis
      (SocialGraph.redisKey .followers userID)).members =
        ids.map idText := by
    rw [hgraph]
    exact hids
  refine ⟨ids, ?_, ?_⟩
  · rw [hmembers, SocialGraph.parseIDs_map_idText]
  · rw [← SortedSet.length_members, hmembers, List.length_map]

/-- A reply leaves the worker with the recipients, or waiting. -/
theorem reply_lowers [DecidableEq Run] {msg : Message} {reply : Bool}
    (hfound : state.posts.worker w = .found msg)
    (hzcard : state.zcard w = some reply)
    {followers : Option (List Int64)}
    (hreply : state.reply deployment w followers state.follows.graph =
      some next)
    (hlength : ∀ ids, followers = some ids → ids.length ≤
      (state.follows.graph.redis
        (SocialGraph.redisKey .followers msg.userID)).card) :
    Frame w state next ∧ Lowers w state next := by
  obtain ⟨posts, hstep, rfl⟩ := reply_cases hreply
  have hwork : state.workOf w = fanOut state.follows.graph msg + 2 := by
    rw [State.workOf, hfound, hzcard]
    rfl
  constructor
  · have hworker := worker_of_ne rfl hstep
    refine ⟨rfl, hworker, fun other hother => ?_⟩
    unfold State.workOf
    rw [hworker other hother]
    simp only [Function.update_of_ne hother]
    rfl
  · simp only [Notification.step, hfound] at hstep
    split at hstep
    next =>
      obtain rfl := Option.some.inj hstep
      refine .inl ⟨rfl, ?_⟩
      rw [workOf_setWorker, hwork]
      exact Nat.succ_pos _
    next ids =>
      obtain rfl := Option.some.inj hstep
      refine .inl ⟨rfl, ?_⟩
      rw [workOf_setWorker, hwork]
      have hids := hlength ids rfl
      have hunion := Finset.card_union_le ids.toFinset
        msg.userMentionIDs.toFinset
      have hfollowers := List.toFinset_card_le ids
      have hmentions := List.toFinset_card_le msg.userMentionIDs
      simp only [phaseWork, fanOut]
      omega

theorem worker_step [DecidableEq Run] [DecidableEq ι] [DecidableEq κ]
    (hgood : Good hashPwd deployment labels state)
    (hw : label.worker? = some w)
    (hstep : step hashPwd deployment state label = some next) :
    Frame w state next ∧ Lowers w state next := by
  cases label with
  | follows command => cases hw
  | posts command =>
      simp only [Feeds.step] at hstep
      split at hstep
      next => cases hstep
      next hother =>
        obtain ⟨posts, hcommand, rfl⟩ := Option.map_eq_some_iff.mp hstep
        exact ⟨.posts hw hcommand,
          .posts hw (eq_false_of_ne_true hother) hcommand⟩
  | zcard w' ok =>
      obtain rfl := Option.some.inj hw
      simp only [Feeds.step] at hstep
      split at hstep
      next msg hfound hzcard =>
        cases hstep
        constructor
        · refine ⟨rfl, fun _ _ => rfl, fun other hother => ?_⟩
          unfold State.workOf
          simp only [Function.update_of_ne hother]
        · refine .inl ⟨rfl, ?_⟩
          unfold State.workOf
          simp only [Function.update_self, hfound, hzcard]
          exact Nat.lt_succ_self _
      next => cases hstep
  | zrange w' ok =>
      obtain rfl := Option.some.inj hw
      simp only [Feeds.step] at hstep
      split at hstep
      next msg hfound hzcard =>
        refine reply_lowers hfound hzcard hstep ?_
        intro ids hids
        obtain ⟨ids', hparse, hlength⟩ := hgood.length_followers msg.userID
        rw [hparse] at hids
        cases ok with
        | true =>
            cases hids
            exact hlength.le
        | false => cases hids
      next => cases hstep
  | findOne w' ok =>
      obtain rfl := Option.some.inj hw
      simp only [Feeds.step] at hstep
      split at hstep
      next msg hfound hzcard =>
        rw [hgood.findFollowers] at hstep
        split at hstep
        next =>
          refine reply_lowers hfound hzcard hstep ?_
          intro ids hids
          cases hids
          exact Nat.zero_le _
        next =>
          refine reply_lowers hfound hzcard hstep ?_
          intro ids hids
          cases hids
      next => cases hstep

end Steps

/-! ## Enabled steps -/

section Enabled

variable [DecidableEq Run] {hashPwd : String → String}
  {deployment : Deployment Run ι κ} {labels : List (Label Run ι κ)}
  {state : State Run ι κ} {w : Worker}

theorem exists_reply (deployment : Deployment Run ι κ) {msg : Message}
    (hfound : state.posts.worker w = .found msg)
    (followers : Option (List Int64))
    (graph : SocialGraph.Stores) :
    ∃ next, state.reply deployment w followers graph = some next ∧
      next.posts.inconsistencies = state.posts.inconsistencies := by
  have hstep : ∃ posts, Notification.step deployment.posts state.posts
      (.getFollowers w followers) = some posts ∧
      posts.inconsistencies = state.posts.inconsistencies := by
    cases followers with
    | none =>
        exact ⟨state.posts.setWorker w .waiting,
          by simp only [Notification.step, hfound], rfl⟩
    | some ids =>
        exact ⟨state.posts.setWorker w (.writing msg
            (ids.toFinset ∪ msg.userMentionIDs.toFinset)),
          by simp only [Notification.step, hfound], rfl⟩
  obtain ⟨posts, hposts, hsame⟩ := hstep
  exact ⟨_, congrArg (Option.map _) hposts, hsame⟩

variable [DecidableEq ι] [DecidableEq κ]

/-- The calls of the worker succeed, whoever its messages are for. -/
def Label.Succeeds (deployment : Deployment Run ι κ)
    (label : Label Run ι κ) : Prop :=
  ∀ followed id, label.Delivers deployment followed id

/-- No message is in flight or with a worker. -/
structure State.Settled (state : State Run ι κ) : Prop where
  inFlight : state.posts.inFlight = []
  waiting : ∀ w, state.posts.worker w = .waiting

/-- The busy workers are among these, and every message has one of its
region. -/
structure State.Manned (deployment : Deployment Run ι κ)
    (state : State Run ι κ) (workers : Set Worker) : Prop where
  busy : ∀ w, state.posts.worker w ≠ .waiting → w ∈ workers
  regions : ∀ entry ∈ state.posts.inFlight,
    ∃ w ∈ workers, deployment.posts.workerRegion w = entry.1

end Enabled

/-! ## Runs -/

section Runs

variable {hashPwd : String → String} {deployment : Deployment Run ι κ}
  {labels before after : List (Label Run ι κ)} {label : Label Run ι κ}
  {start state next last : State Run ι κ} {w : Worker}

theorem Lowers.inFlight (hlowers : Lowers w state next) :
    next.posts.inFlight ⊆ state.posts.inFlight := by
  rcases hlowers with ⟨hsame, -⟩ | ⟨index, -, hsame, -⟩
  · rw [hsame]
    exact List.Subset.refl _
  · rw [hsame]
    exact List.eraseIdx_subset

theorem State.Manned.step {workers : Set Worker}
    (hmanned : state.Manned deployment workers) (hw : w ∈ workers)
    (hframe : Frame w state next) (hlowers : Lowers w state next) :
    next.Manned deployment workers where
  busy other hbusy := by
    by_cases hother : other = w
    · rw [hother]
      exact hw
    · rw [hframe.worker other hother] at hbusy
      exact hmanned.busy other hbusy
  regions entry hentry := hmanned.regions entry (hlowers.inFlight hentry)

variable [DecidableEq Run] [DecidableEq ι] [DecidableEq κ]

theorem step_worker_of_ne (hne : label.worker? ≠ some w)
    (hstep : step hashPwd deployment state label = some next) :
    next.posts.worker w = state.posts.worker w := by
  have hreply : ∀ {other : Worker} {followers : Option (List Int64)}
      {graph : SocialGraph.Stores}, other ≠ w →
      state.reply deployment other followers graph = some next →
        next.posts.worker w = state.posts.worker w := by
    intro other followers graph hother hreply
    obtain ⟨posts, hposts, rfl⟩ := reply_cases hreply
    exact worker_of_ne rfl hposts w hother.symm
  cases label with
  | follows command =>
      obtain ⟨follows, -, rfl⟩ := Option.map_eq_some_iff.mp hstep
      rfl
  | posts command =>
      simp only [step] at hstep
      split at hstep
      next => cases hstep
      next =>
        obtain ⟨posts, hposts, rfl⟩ := Option.map_eq_some_iff.mp hstep
        exact Notification.step_worker_of_ne hne hposts
  | zcard other ok =>
      simp only [step] at hstep
      split at hstep
      next =>
        cases hstep
        rfl
      next => cases hstep
  | zrange other ok =>
      simp only [step] at hstep
      split at hstep
      next => exact hreply (fun h => hne (congrArg some h)) hstep
      next => cases hstep
  | findOne other ok =>
      simp only [step] at hstep
      split at hstep
      next =>
        split at hstep <;>
          exact hreply (fun h => hne (congrArg some h)) hstep
      next => cases hstep

theorem run_work (hgood : Good hashPwd deployment labels state)
    {workers : Finset Worker}
    (hworkers : ∀ label ∈ after, ∃ w ∈ workers, label.worker? = some w)
    (hafter : run (step hashPwd deployment) state after = some last) :
    Good hashPwd deployment (labels ++ after) last ∧
      last.posts.inFlight ⊆ state.posts.inFlight ∧
      after.length + last.work workers ≤ state.work workers := by
  refine run_induction_of_labels
    (P := fun after last => Good hashPwd deployment (labels ++ after) last ∧
      last.posts.inFlight ⊆ state.posts.inFlight ∧
      after.length + last.work workers ≤ state.work workers)
    ⟨by rw [List.append_nil]; exact hgood, List.Subset.refl _,
      (Nat.zero_add _).le⟩ ?_ hworkers hafter
  rintro after middle label next ⟨w, hw, hlabel⟩ ⟨hgood, hinFlight, hwork⟩
    hstep
  obtain ⟨hframe, hlowers⟩ := worker_step hgood hlabel hstep
  have hlt := work_lt hframe hlowers hw
  refine ⟨?_, List.Subset.trans hlowers.inFlight hinFlight, ?_⟩
  · rw [← List.append_assoc]
    exact hgood.step hstep
  · rw [List.length_append, List.length_singleton]
    omega

end Runs

end SocialNetwork.Feeds
