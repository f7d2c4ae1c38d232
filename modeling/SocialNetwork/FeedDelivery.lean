import SocialNetwork.Feeds

/-!
# No follower is missed

A user who follows an author before a post is published, and does not unfollow
afterwards, gets the post while the calls of the workers succeed: its message
is in flight, or with a worker that will add the post, until the post is in
the home timeline.  The only other way for a message to end is a replica that
lacks the post, and then the region counts one more inconsistency.
-/

namespace SocialNetwork.Feeds

open Json Machine
open Notification (Region Worker WorkerPhase)

variable {Run ι κ : Type}

/-! ## Messages that are not processed yet -/

section Pending

open Notification

variable {deployment : Notification.Deployment Run}
  {state next : Notification.State Run} {label : Notification.Label Run}
  {zcard : Worker → Option Bool} {region : Region} {msg : Message}
  {id : Int64}

/-- The post is in the home timeline of the user, or its message will bring it
there.  A worker that takes the author to have no followers only reaches the
mentioned users. -/
def Pending (deployment : Notification.Deployment Run)
    (state : Notification.State Run) (zcard : Worker → Option Bool)
    (region : Region) (msg : Message) (id : Int64) : Prop :=
  idText msg.postID ∈ (state.homeTimelines region (idText id)).members ∨
    (region, marshal msg) ∈ state.inFlight ∨
    ∃ w, deployment.workerRegion w = region ∧
      (state.worker w).Covers msg id ∧
      (zcard w = some false → id ∈ msg.userMentionIDs)

theorem Pending.of_worker_eq
    (hpending : Pending deployment state zcard region msg id)
    (hworker : next.worker = state.worker)
    (hinFlight : state.inFlight ⊆ next.inFlight)
    (htimelines : next.homeTimelines = state.homeTimelines) :
    Pending deployment next zcard region msg id := by
  rcases hpending with hmem | hmem | ⟨w, hregion, hcovers, hzcard⟩
  · exact .inl (by rw [htimelines]; exact hmem)
  · exact .inr (.inl (hinFlight hmem))
  · exact .inr (.inr ⟨w, hregion, by rw [hworker]; exact hcovers, hzcard⟩)

/-- A worker goes on with the same post, unless the user has it. -/
theorem Pending.setWorker {changed : Notification.State Run} {w : Worker}
    {phase : WorkerPhase}
    (hpending : Pending deployment state zcard region msg id)
    (hworker : changed.worker = state.worker)
    (hinFlight : changed.inFlight = state.inFlight)
    (htimelines :
      idText msg.postID ∈ (state.homeTimelines region (idText id)).members →
        idText msg.postID ∈
          (changed.homeTimelines region (idText id)).members)
    (hcovers : deployment.workerRegion w = region →
      (state.worker w).Covers msg id →
        phase.Covers msg id ∨ idText msg.postID ∈
          (changed.homeTimelines region (idText id)).members) :
    Pending deployment (changed.setWorker w phase) zcard region msg id := by
  rcases hpending with hmem | hmem | ⟨other, hregion, hother, hzcard⟩
  · exact .inl (htimelines hmem)
  · exact .inr (.inl (by rw [← hinFlight] at hmem; exact hmem))
  · by_cases hsame : other = w
    · subst hsame
      rcases hcovers hregion hother with hphase | hmem
      · refine .inr (.inr ⟨other, hregion, ?_, hzcard⟩)
        rw [State.setWorker_self]
        exact hphase
      · exact .inl hmem
    · refine .inr (.inr ⟨other, hregion, ?_, hzcard⟩)
      simp only [State.setWorker, Function.update_of_ne hsame, hworker]
      exact hother

/-- A worker that covers nothing may go anywhere. -/
theorem Pending.setWorker_idle {changed : Notification.State Run}
    {w : Worker} {phase : WorkerPhase}
    (hpending : Pending deployment state zcard region msg id)
    (hworker : changed.worker = state.worker)
    (hinFlight : changed.inFlight = state.inFlight)
    (htimelines : changed.homeTimelines = state.homeTimelines)
    (hidle : ¬(state.worker w).Covers msg id) :
    Pending deployment (changed.setWorker w phase) zcard region msg id :=
  hpending.setWorker hworker hinFlight
    (fun hmem => by rw [htimelines]; exact hmem)
    (fun _ hcovers => absurd hcovers hidle)

theorem mem_zaddNX_of_mem {region' : Region} {id' : Int64} {msg' : Message}
    {text : String}
    (hmem : text ∈ (state.homeTimelines region (idText id)).members) :
    text ∈ ((state.zaddNX region' id' msg').homeTimelines region
      (idText id)).members := by
  simp only [State.zaddNX]
  by_cases hregion : region = region'
  · subst hregion
    rw [Function.update_self]
    by_cases hid : id = id'
    · subst hid
      rw [Function.update_self]
      exact SortedSet.mem_members_addNX.mpr (.inr hmem)
    · rw [Function.update_of_ne fun h => hid (idText_inj.mp h)]
      exact hmem
  · rw [Function.update_of_ne hregion]
    exact hmem

theorem mem_zaddNX_self :
    idText msg.postID ∈ ((state.zaddNX region id msg).homeTimelines region
      (idText id)).members := by
  simp only [State.zaddNX, Function.update_self]
  exact SortedSet.mem_members_addNX.mpr (.inl rfl)

/-- The call of the step succeeds. -/
def CommandSucceeds : Notification.Label Run → Prop
  | .unmarshal _ ok | .zaddNX _ _ ok => ok = true
  | .findFailed _ => False
  | _ => True

variable [DecidableEq Run]

theorem found_of_step {w : Worker} {msg' : Message}
    (hother : isGetFollowers label = false)
    (hstep : Notification.step deployment state label = some next)
    (hfound : state.worker w = .found msg') :
    next.worker w = .found msg' := by
  by_cases hw : label.worker? = some w
  · exfalso
    cases label <;>
      simp only [Label.worker?, Option.some.injEq, reduceCtorEq] at hw
    case getFollowers => cases hother
    all_goals
      subst hw
      simp [Notification.step, hfound] at hstep
  · rw [step_worker_of_ne hw hstep]
    exact hfound

/-- A message that is not in flight any more is with the worker that took
it. -/
theorem Pending.deliver {w : Worker} {index : ℕ}
    (hpending : Pending deployment state zcard region msg id)
    (hwf : state.worker w = .waiting → zcard w = none)
    (hstep : Notification.step deployment state (.deliver w index) =
      some next) : Pending deployment next zcard region msg id := by
  simp only [Notification.step] at hstep
  split at hstep
  next region' body hwaiting hget =>
    split at hstep
    next hregion =>
      subst hregion
      obtain rfl := Option.some.inj hstep
      rcases hpending with hmem | hmem | ⟨other, hregion, hcovers, hzcard⟩
      · exact .inl hmem
      · obtain ⟨i, hi⟩ := List.getElem?_of_mem hmem
        by_cases hindex : i = index
        · subst hindex
          rw [hget, Option.some.injEq, Prod.mk.injEq] at hi
          refine .inr (.inr ⟨w, hi.1, ?_, ?_⟩)
          · rw [State.setWorker_self]
            exact hi.2
          · intro hfalse
            rw [hwf hwaiting] at hfalse
            cases hfalse
        · exact .inr (.inl
            (List.mem_eraseIdx_iff_getElem?.mpr ⟨i, hindex, hi⟩))
      · refine .inr (.inr ⟨other, hregion, ?_, hzcard⟩)
        by_cases hsame : other = w
        · subst hsame
          rw [hwaiting] at hcovers
          exact hcovers.elim
        · simp only [State.setWorker, Function.update_of_ne hsame]
          exact hcovers
    next => cases hstep
  next => cases hstep

/-- A step of a composition, a replica or a worker loses no message, unless
it counts an inconsistency of the region. -/
theorem Pending.step (hpending : Pending deployment state zcard region msg id)
    (hwf : ∀ w, state.worker w = .waiting → zcard w = none)
    (hother : isGetFollowers label = false)
    (hsucceeds : CommandSucceeds label)
    (hcounted : next.inconsistencies region = state.inconsistencies region)
    (hstep : Notification.step deployment state label = some next) :
    Pending deployment next zcard region msg id := by
  cases label with
  | storePost i ok =>
      simp only [Notification.step] at hstep
      split at hstep
      next =>
        split at hstep <;> obtain rfl := Option.some.inj hstep <;>
          exact hpending.of_worker_eq rfl (List.Subset.refl _) rfl
      next => cases hstep
  | publish i ok =>
      simp only [Notification.step] at hstep
      split at hstep
      next =>
        split at hstep <;> obtain rfl := Option.some.inj hstep
        · exact hpending.of_worker_eq rfl (List.subset_append_left _ _) rfl
        · exact hpending.of_worker_eq rfl (List.Subset.refl _) rfl
      next => cases hstep
  | leaveHelper i =>
      simp only [Notification.step] at hstep
      split at hstep
      next =>
        obtain rfl := Option.some.inj hstep
        exact hpending.of_worker_eq rfl (List.Subset.refl _) rfl
      next => cases hstep
  | replicate source replica post =>
      simp only [Notification.step] at hstep
      split at hstep
      next =>
        obtain rfl := Option.some.inj hstep
        exact hpending.of_worker_eq rfl (List.Subset.refl _) rfl
      next => cases hstep
  | deliver w index => exact hpending.deliver (hwf w) hstep
  | unmarshal w spanOk =>
      have hspan : spanOk = true := hsucceeds
      subst hspan
      simp only [Notification.step] at hstep
      split at hstep
      next body hphase =>
        cases hjson : (JsonCodec.unmarshal body : Option Message) with
        | none =>
            simp only [hjson, Option.some.injEq] at hstep
            subst hstep
            refine hpending.setWorker_idle rfl rfl rfl ?_
            rw [hphase]
            rintro rfl
            rw [unmarshal_marshal] at hjson
            cases hjson
        | some msg' =>
            simp only [hjson, if_true, Option.some.injEq] at hstep
            subst hstep
            refine hpending.setWorker rfl rfl (fun hmem => hmem) ?_
            intro _ hcovers
            rw [hphase] at hcovers
            have hbody : body = marshal msg := hcovers
            rw [hbody, unmarshal_marshal, Option.some.injEq] at hjson
            exact .inl hjson.symm
      next => cases hstep
  | findOne w database =>
      simp only [Notification.step] at hstep
      split at hstep
      next msg' hphase =>
        split at hstep
        next =>
          obtain rfl := Option.some.inj hstep
          refine hpending.setWorker rfl rfl (fun hmem => hmem) ?_
          intro hregion
          subst hregion
          simp [State.setWorker] at hcounted
        next =>
          obtain rfl := Option.some.inj hstep
          refine hpending.setWorker rfl rfl (fun hmem => hmem) ?_
          intro _ hcovers
          rw [hphase] at hcovers
          exact .inl hcovers
      next => cases hstep
  | findFailed w => exact hsucceeds.elim
  | getFollowers w followers => cases hother
  | zaddNX w id' ok =>
      have hok : ok = true := hsucceeds
      subst hok
      simp only [Notification.step] at hstep
      split at hstep
      next msg' uniqueIDs hphase =>
        split at hstep
        next hid =>
          simp only [if_true, Option.some.injEq] at hstep
          subst hstep
          refine hpending.setWorker rfl rfl mem_zaddNX_of_mem ?_
          intro hregion hcovers
          rw [hphase] at hcovers
          obtain ⟨rfl, hcovers⟩ := hcovers
          by_cases hsame : id = id'
          · subst hsame
            subst hregion
            exact .inr mem_zaddNX_self
          · exact .inl ⟨rfl, Finset.mem_erase.mpr ⟨hsame, hcovers⟩⟩
        next => cases hstep
      next => cases hstep
  | leave w =>
      simp only [Notification.step] at hstep
      split at hstep
      next msg' uniqueIDs hphase =>
        split at hstep
        next hempty =>
          obtain rfl := Option.some.inj hstep
          refine hpending.setWorker_idle rfl rfl rfl ?_
          rw [hphase, hempty]
          exact fun hcovers => Finset.notMem_empty id hcovers.2
        next => cases hstep
      next => cases hstep

/-- A worker goes on to recipients among whom the user is. -/
theorem Pending.getFollowers {w : Worker} {ids : List Int64}
    (hpending : Pending deployment state zcard region msg id)
    (hids : ∀ msg', state.worker w = .found msg' → msg' = msg →
      (zcard w = some false → id ∈ msg.userMentionIDs) →
        id ∈ ids ∨ id ∈ msg.userMentionIDs)
    (hstep : Notification.step deployment state
      (.getFollowers w (some ids)) = some next) :
    Pending deployment next (Function.update zcard w none) region msg id := by
  simp only [Notification.step] at hstep
  split at hstep
  next msg' hphase =>
    obtain rfl := Option.some.inj hstep
    rcases hpending with hmem | hmem | ⟨other, hregion, hcovers, hzcard⟩
    · exact .inl hmem
    · exact .inr (.inl hmem)
    · refine .inr (.inr ⟨other, hregion, ?_, ?_⟩)
      · by_cases hsame : other = w
        · subst hsame
          rw [hphase] at hcovers
          have hmsg : msg' = msg := hcovers
          subst hmsg
          rw [State.setWorker_self]
          refine ⟨rfl, ?_⟩
          rw [Finset.mem_union, List.mem_toFinset, List.mem_toFinset]
          exact hids msg' hphase rfl hzcard
        · simp only [State.setWorker, Function.update_of_ne hsame]
          exact hcovers
      · by_cases hsame : other = w
        · subst hsame
          simp
        · rw [Function.update_of_ne hsame]
          exact hzcard
  next => cases hstep

/-- Published messages go into flight, and inconsistencies are only
counted. -/
theorem published_of_step
    (hstep : Notification.step deployment state label = some next) :
    (∀ entry ∈ next.published,
        entry ∈ state.published ∨ entry ∈ next.inFlight) ∧
      ∀ region, state.inconsistencies region ≤ next.inconsistencies region := by
  have hsame : (∀ entry ∈ state.published,
      entry ∈ state.published ∨ entry ∈ next.inFlight) ∧
        ∀ region, state.inconsistencies region ≤
          state.inconsistencies region :=
    ⟨fun _ hentry => .inl hentry, fun _ => le_refl _⟩
  cases label with
  | publish i ok =>
      simp only [Notification.step] at hstep
      split at hstep
      next =>
        split at hstep <;> obtain rfl := Option.some.inj hstep
        · refine ⟨?_, fun _ => le_refl _⟩
          intro entry hentry
          rcases List.mem_append.mp hentry with hold | hnew
          · exact .inl hold
          · exact .inr (List.mem_append_right _ hnew)
        · exact hsame
      next => cases hstep
  | findOne w database =>
      simp only [Notification.step] at hstep
      split at hstep
      next =>
        split at hstep <;> obtain rfl := Option.some.inj hstep
        · refine ⟨fun _ hentry => .inl hentry, ?_⟩
          intro region
          simp only [State.setWorker, Function.update_apply]
          split
          next hregion =>
            rw [hregion]
            exact Nat.le_succ _
          next => exact le_refl _
        · exact hsame
      next => cases hstep
  | _ =>
      simp only [Notification.step] at hstep
      repeat' split at hstep
      all_goals
        simp only [Option.some.injEq, reduceCtorEq] at hstep
        try subst hstep
      all_goals exact hsame

end Pending

/-! ## Runs -/

variable {hashPwd : String → String} {deployment : Deployment Run ι κ}
  {labels before after : List (Label Run ι κ)} {label : Label Run ι κ}
  {start state next : State Run ι κ} {followed : Set Int64} {id : Int64}

/-- The author is among those whom the user follows, or the user is
mentioned. -/
def Addressed (followed : Set Int64) (id : Int64) (msg : Message) : Prop :=
  msg.userID ∈ followed ∨ id ∈ msg.userMentionIDs

def FollowsAll (deployment : Deployment Run ι κ)
    (labels : List (Label Run ι κ)) (followed : Set Int64) (id : Int64) :
    Prop :=
  ∀ userID ∈ followed, (FollowRequests.decisions deployment.follows
    (labels.filterMap Label.follows?) id userID
      (.redis .followers)).getLast? = some true

/-- The calls of the workers succeed, and the user unfollows none of those
authors.  Everything else may fail. -/
def Label.Delivers (deployment : Deployment Run ι κ) (followed : Set Int64)
    (id : Int64) : Label Run ι κ → Prop
  | .follows label => ∀ userID ∈ followed,
      FollowRequests.decision deployment.follows id userID
        (.redis .followers) label ≠ some false
  | .posts label => CommandSucceeds label
  | .zcard _ ok | .zrange _ ok | .findOne _ ok => ok = true

theorem FollowsAll.concat
    (hfollows : FollowsAll deployment labels followed id)
    (hlabel : label.Delivers deployment followed id) :
    FollowsAll deployment (labels ++ [label]) followed id := by
  intro userID huserID
  cases label with
  | follows command =>
      rw [List.filterMap_append]
      cases hdecision : FollowRequests.decision deployment.follows id userID
          (.redis .followers) command with
      | none =>
          exact (congrArg List.getLast?
            (FollowRequests.decisions_concat_none hdecision)).trans
              (hfollows userID huserID)
      | some decided =>
          have hdecided : decided = true := by
            have hne := hlabel userID huserID
            rw [hdecision] at hne
            simpa using hne
          refine (congrArg List.getLast?
            (FollowRequests.decisions_concat_some hdecision)).trans ?_
          rw [List.getLast?_concat, hdecided]
  | _ =>
      rw [filterMap_follows_concat rfl]
      exact hfollows userID huserID

/-- Only a worker that has found its post has a reply to its `ZCARD`. -/
def State.ZcardFound (state : State Run ι κ) : Prop :=
  ∀ w reply, state.zcard w = some reply →
    ∃ msg, state.posts.worker w = .found msg

theorem State.ZcardFound.initial :
    (State.initial : State Run ι κ).ZcardFound := by
  intro w reply hzcard
  cases hzcard

theorem State.ZcardFound.waiting (hgood : state.ZcardFound) (w : Worker)
    (hwaiting : state.posts.worker w = .waiting) :
    state.zcard w = none := by
  cases hzcard : state.zcard w with
  | none => rfl
  | some reply =>
      obtain ⟨msg, hfound⟩ := hgood w reply hzcard
      rw [hwaiting] at hfound
      cases hfound

theorem State.ZcardFound.posts [DecidableEq Run] (hgood : state.ZcardFound)
    {command : Notification.Label Run} {posts : Notification.State Run}
    (hother : isGetFollowers command = false)
    (hstep : Notification.step deployment.posts state.posts command =
      some posts) : State.ZcardFound { state with posts := posts } := by
  intro w reply hzcard
  obtain ⟨msg, hfound⟩ := hgood w reply hzcard
  exact ⟨msg, found_of_step hother hstep hfound⟩

theorem State.ZcardFound.update (hgood : state.ZcardFound) {w : Worker}
    {msg : Message} (hfound : state.posts.worker w = .found msg)
    (reply : Bool) :
    State.ZcardFound { state with
      zcard := Function.update state.zcard w (some reply) } := by
  intro other reply' hzcard
  by_cases hsame : other = w
  · subst hsame
    exact ⟨msg, hfound⟩
  · simp only [Function.update_of_ne hsame] at hzcard
    exact hgood other reply' hzcard

theorem State.ZcardFound.reply [DecidableEq Run] (hgood : state.ZcardFound)
    {w : Worker} {followers : Option (List Int64)}
    {graph : SocialGraph.Stores}
    (hreply : state.reply deployment w followers graph = some next) :
    next.ZcardFound := by
  obtain ⟨posts, hstep, rfl⟩ := reply_cases hreply
  intro other reply hzcard
  by_cases hsame : other = w
  · subst hsame
    simp at hzcard
  · simp only [Function.update_of_ne hsame] at hzcard
    obtain ⟨msg, hfound⟩ := hgood other reply hzcard
    refine ⟨msg, (Notification.step_worker_of_ne ?_ hstep).trans hfound⟩
    exact fun h => hsame (Option.some.inj h).symm

theorem State.ZcardFound.step [DecidableEq Run] [DecidableEq ι]
    [DecidableEq κ] (hgood : state.ZcardFound)
    (hstep : step hashPwd deployment state label = some next) :
    next.ZcardFound := by
  cases label with
  | follows command =>
      simp only [Feeds.step, Option.map_eq_some_iff] at hstep
      obtain ⟨follows, -, rfl⟩ := hstep
      exact hgood
  | posts command =>
      simp only [Feeds.step] at hstep
      split at hstep
      next => cases hstep
      next hother =>
        rw [Option.map_eq_some_iff] at hstep
        obtain ⟨posts, hcommand, rfl⟩ := hstep
        exact hgood.posts (eq_false_of_ne_true hother) hcommand
  | zcard w ok =>
      simp only [Feeds.step] at hstep
      split at hstep
      next msg hfound _ =>
        cases hstep
        exact hgood.update hfound _
      next => cases hstep
  | zrange w ok =>
      simp only [Feeds.step] at hstep
      split at hstep
      next => exact hgood.reply hstep
      next => cases hstep
  | findOne w ok =>
      simp only [Feeds.step] at hstep
      split at hstep
      next => split at hstep <;> exact hgood.reply hstep
      next => cases hstep

/-- `start` is the state from which the messages count. -/
structure Delivering (deployment : Deployment Run ι κ)
    (followed : Set Int64) (id : Int64) (start state : State Run ι κ) :
    Prop where
  zcard : state.ZcardFound
  counted : ∀ region, start.posts.inconsistencies region ≤
    state.posts.inconsistencies region
  pending : ∀ region msg, Addressed followed id msg →
    (region, marshal msg) ∉ start.posts.published →
    (region, marshal msg) ∈ state.posts.published →
    state.posts.inconsistencies region =
        start.posts.inconsistencies region →
      Pending deployment.posts state.posts state.zcard region msg id

theorem Delivering.posts [DecidableEq Run]
    (hgood : Delivering deployment followed id start state)
    {command : Notification.Label Run} {posts : Notification.State Run}
    (hother : isGetFollowers command = false)
    (hsucceeds : CommandSucceeds command)
    (hstep : Notification.step deployment.posts state.posts command =
      some posts) :
    Delivering deployment followed id start
      { state with posts := posts } := by
  obtain ⟨hpublished, hinconsistencies⟩ := published_of_step hstep
  refine ⟨hgood.zcard.posts hother hstep, ?_, ?_⟩
  · intro region
    exact (hgood.counted region).trans (hinconsistencies region)
  · intro region msg haddressed hnew hentry hsame
    have hlow := hgood.counted region
    have hhigh := hinconsistencies region
    simp only at hsame
    have hbefore : state.posts.inconsistencies region =
        start.posts.inconsistencies region := by omega
    rcases hpublished _ hentry with hold | hinFlight
    · exact (hgood.pending region msg haddressed hnew hold hbefore).step
        hgood.zcard.waiting hother hsucceeds (hsame.trans hbefore.symm) hstep
    · exact .inr (.inl hinFlight)

/-- The reply reaches the worker, with the user among the recipients. -/
theorem Delivering.reply [DecidableEq Run]
    (hgood : Delivering deployment followed id start state) {w : Worker}
    {ids : List Int64} {graph : SocialGraph.Stores}
    (hreply : state.reply deployment w (some ids) graph = some next)
    (hids : ∀ msg, state.posts.worker w = .found msg →
      Addressed followed id msg →
      (state.zcard w = some false → id ∈ msg.userMentionIDs) →
        id ∈ ids ∨ id ∈ msg.userMentionIDs) :
    Delivering deployment followed id start next := by
  have hzcard := hgood.zcard.reply hreply
  obtain ⟨posts, hstep, rfl⟩ := reply_cases hreply
  have hfound : ∃ msg, state.posts.worker w = .found msg ∧
      posts = state.posts.setWorker w (.writing msg
        (ids.toFinset ∪ msg.userMentionIDs.toFinset)) := by
    simp only [Notification.step] at hstep
    split at hstep
    next msg hworker =>
      exact ⟨msg, hworker, (Option.some.inj hstep).symm⟩
    next => cases hstep
  obtain ⟨msg', hworker, rfl⟩ := hfound
  refine ⟨hzcard, hgood.counted, ?_⟩
  intro region msg haddressed hnew hentry hsame
  refine (hgood.pending region msg haddressed hnew hentry hsame).getFollowers
    ?_ hstep
  rintro msg' hmsg rfl hmention
  exact hids msg' hmsg haddressed hmention

/-- The set of a followed author holds the user. -/
theorem Good.zcard_pos (hgood : Good hashPwd deployment labels state)
    (hfollows : FollowsAll deployment labels followed id) {userID : Int64}
    (huserID : userID ∈ followed) :
    0 < (state.follows.graph.redis
      (SocialGraph.redisKey .followers userID)).card := by
  obtain ⟨graph, hgraph, hdecided⟩ := hgood.follows.graph
  have hmem := (hdecided.redis id userID .followers).mpr
    (hfollows userID huserID)
  rw [hgraph]
  change 0 < (graph.redis _).card
  rw [← SortedSet.length_members]
  exact List.length_pos_of_mem hmem

theorem Delivering.step [DecidableEq Run] [DecidableEq ι] [DecidableEq κ]
    (hgood : Delivering deployment followed id start state)
    (hsound : Good hashPwd deployment labels state)
    (hfollows : FollowsAll deployment labels followed id)
    (hlabel : label.Delivers deployment followed id)
    (hstep : step hashPwd deployment state label = some next) :
    Delivering deployment followed id start next := by
  cases label with
  | follows command =>
      simp only [Feeds.step, Option.map_eq_some_iff] at hstep
      obtain ⟨follows, -, rfl⟩ := hstep
      exact ⟨hgood.zcard, hgood.counted, hgood.pending⟩
  | posts command =>
      simp only [Feeds.step] at hstep
      split at hstep
      next => cases hstep
      next hother =>
        rw [Option.map_eq_some_iff] at hstep
        obtain ⟨posts, hcommand, rfl⟩ := hstep
        exact hgood.posts (eq_false_of_ne_true hother) hlabel hcommand
  | zcard w ok =>
      have hok : ok = true := hlabel
      subst hok
      simp only [Feeds.step] at hstep
      split at hstep
      next msg hfound _ =>
        cases hstep
        refine ⟨hgood.zcard.update hfound _, hgood.counted, ?_⟩
        intro region msg' haddressed hnew hentry hsame
        rcases hgood.pending region msg' haddressed hnew hentry hsame with
          hmem | hmem | ⟨other, hregion, hcovers, hzcard⟩
        · exact .inl hmem
        · exact .inr (.inl hmem)
        · refine .inr (.inr ⟨other, hregion, hcovers, ?_⟩)
          by_cases hw : other = w
          · subst hw
            simp only [hfound] at hcovers
            obtain rfl : msg = msg' := hcovers
            simp only [Function.update_self, Bool.true_and,
              Option.some.injEq, decide_eq_false_iff_not]
            intro hnone
            rcases haddressed with hauthor | hmention
            · exact absurd (hsound.zcard_pos hfollows hauthor) hnone
            · exact hmention
          · simp only [Function.update_of_ne hw]
            exact hzcard
      next => cases hstep
  | zrange w ok =>
      have hok : ok = true := hlabel
      subst hok
      simp only [Feeds.step] at hstep
      split at hstep
      next msg hfound _ =>
        obtain ⟨ids, hparse, hmem⟩ := hsound.zrange msg.userID
        simp only [hparse, if_true, Except.toOption] at hstep
        refine hgood.reply hstep ?_
        intro msg' hfound' haddressed _
        rw [hfound] at hfound'
        cases hfound'
        rcases haddressed with hauthor | hmention
        · exact .inl ((hmem id).mpr (hfollows msg.userID hauthor))
        · exact .inr hmention
      next => cases hstep
  | findOne w ok =>
      have hok : ok = true := hlabel
      subst hok
      simp only [Feeds.step] at hstep
      split at hstep
      next msg hfound hzcard =>
        simp only [hsound.findFollowers, if_true, Except.toOption] at hstep
        refine hgood.reply hstep ?_
        intro msg' _ _ hmention
        exact .inr (hmention hzcard)
      next => cases hstep

theorem Good.followsAll (hgood : Good hashPwd deployment labels state)
    (hmem : ∀ userID ∈ followed, idText id ∈ (state.follows.graph.redis
      (SocialGraph.redisKey .followers userID)).members) :
    FollowsAll deployment labels followed id := by
  obtain ⟨graph, hgraph, hdecided⟩ := hgood.follows.graph
  intro userID huserID
  have huser := hmem userID huserID
  rw [hgraph] at huser
  exact (hdecided.redis id userID .followers).mp huser

theorem Delivering.of_run [DecidableEq Run] [DecidableEq ι] [DecidableEq κ]
    (hbefore : run (Feeds.step hashPwd deployment) State.initial before =
      some start)
    (hafter : run (Feeds.step hashPwd deployment) start after = some state)
    (hdelivers : ∀ label ∈ after, label.Delivers deployment followed id)
    (hfollows : ∀ userID ∈ followed, idText id ∈ (start.follows.graph.redis
      (SocialGraph.redisKey .followers userID)).members) :
    Delivering deployment followed id start state := by
  have hstart := Good.of_run hbefore
  have hzcard : start.ZcardFound :=
    run_invariant (P := State.ZcardFound) State.ZcardFound.initial
      (fun _ _ _ hgood hstep => hgood.step hstep) hbefore
  have hgood : Good hashPwd deployment (before ++ after) state ∧
      FollowsAll deployment (before ++ after) followed id ∧
      Delivering deployment followed id start state := by
    refine run_induction_of_labels
      (P := fun after state =>
        Good hashPwd deployment (before ++ after) state ∧
          FollowsAll deployment (before ++ after) followed id ∧
          Delivering deployment followed id start state)
      ?_ ?_ hdelivers hafter
    · rw [List.append_nil]
      refine ⟨hstart, hstart.followsAll hfollows, hzcard,
        fun _ => le_refl _, ?_⟩
      intro region msg _ hnew hentry
      exact absurd hentry hnew
    · rintro after state label next hlabel
        ⟨hsound, hfollows, hdelivering⟩ hstep
      rw [← List.append_assoc]
      exact ⟨hsound.step hstep, hfollows.concat hlabel,
        hdelivering.step hsound hfollows hlabel hstep⟩
  exact hgood.2.2

def followLabels : List (Label Unit Unit Bool) :=
  FollowRequests.sampleLabels.map .follows

def postLabels : List (Label Unit Unit Bool) :=
  ([.storePost () true, .publish () true, .deliver 0 0, .unmarshal 0 true,
    .findOne 0 "eu"] : List (Notification.Label Unit)).map .posts ++
  [.zcard 0 true, .zrange 0 true]

end SocialNetwork.Feeds
