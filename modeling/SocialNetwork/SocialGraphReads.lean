import SocialNetwork.Machine
import SocialNetwork.SocialGraphRecords

/-!
# Reading the social graph

Calls that run one after the other.  On the graph of typed records a write is
a fold of its commands, and a read changes nothing: no document matches the
filter of the reads, whose user id is text.

While Redis keeps its data this is harmless, since `GetFollowers` then only
reaches MongoDB when there are no followers.  Once the sets are lost, the
reads no longer find what the writes recorded.
-/

namespace SocialNetwork.SocialGraph

open Bson Machine

inductive Call where
  | insertUser (userID : Int64)
  | follow (userID followeeID : Int64) (timestamp : Time)
      (schedule : Schedule)
  | unfollow (userID followeeID : Int64) (schedule : Schedule)
  | getFollowers (userID : Int64)
  | getFollowees (userID : Int64)

/-- The stores after a call; `none` when a goroutine panics on the result of
a failed update. -/
def step (stores : Stores) : Call → Option Stores
  | .insertUser userID => some (InsertUser stores userID)
  | .follow userID followeeID timestamp schedule =>
      Follow stores userID followeeID timestamp schedule
  | .unfollow userID followeeID schedule =>
      Unfollow stores userID followeeID schedule
  | .getFollowers userID => some (GetFollowers stores userID).2
  | .getFollowees userID => some (GetFollowees stores userID).2

/-! ## The calls on the graph -/

def Graph.request (graph : Graph) (action : Action)
    (userID followeeID : Int64) (commands : List Record) : Graph :=
  commands.foldl (fun graph record =>
    graph.command action userID followeeID record) graph

def Graph.call (graph : Graph) : Call → Graph
  | .insertUser userID => graph.insertUser userID
  | .follow userID followeeID timestamp schedule =>
      graph.request (.follow timestamp) userID followeeID schedule.commands
  | .unfollow userID followeeID schedule =>
      graph.request .unfollow userID followeeID schedule.commands
  | .getFollowers _ => graph
  | .getFollowees _ => graph

variable {graph : Graph} {action : Action} {side : Side}
  {userID followeeID : Int64}

theorem foldlM_command (action : Action) (commands : List Record) :
    commands.foldlM (action.command userID followeeID) graph.toStores =
      some (graph.request action userID followeeID commands).toStores := by
  induction commands generalizing graph with
  | nil => rfl
  | cons record commands ih =>
      rw [List.foldlM_cons, command_toStores]
      exact ih

theorem findUserInfo_toStores :
    findUserInfo graph.toStores userID = .error .noDocuments := by
  have hnone := findOne_map_eq_none
    (matches_userID_text (idText userID))
    graph.users
  unfold findUserInfo Graph.toStores
  simp only [hnone]

theorem members_eq_nil {set : SortedSet Int String} (h : ¬ 0 < set.card) :
    set.members = [] := by
  apply List.eq_nil_of_length_eq_zero
  rw [SortedSet.length_members]
  omega

theorem getFollowers_toStores :
    GetFollowers graph.toStores userID =
      (parseIDs (graph.redis (redisKey .followers userID)).members,
        graph.toStores) := by
  unfold GetFollowers
  simp only [findUserInfo_toStores]
  split
  next => rfl
  next hcard =>
    have hnil := members_eq_nil hcard
    simp only [Graph.toStores] at hnil
    rw [hnil]
    rfl

theorem getFollowees_toStores :
    GetFollowees graph.toStores userID =
      (if 0 < (graph.redis (redisKey .followees userID)).card then
        parseIDs (graph.redis (redisKey .followees userID)).members
      else .error .noDocuments, graph.toStores) := by
  unfold GetFollowees
  simp only [findUserInfo_toStores]
  split
  next hcard =>
    simp only [Graph.toStores] at hcard ⊢
    rw [if_pos hcard]
  next hcard =>
    simp only [Graph.toStores] at hcard ⊢
    rw [if_neg hcard]

theorem step_toStores (call : Call) :
    step graph.toStores call = some (graph.call call).toStores := by
  cases call with
  | insertUser userID =>
      exact congrArg some insertUser_toStores
  | follow userID followeeID timestamp schedule =>
      exact foldlM_command (.follow timestamp) schedule.commands
  | unfollow userID followeeID schedule =>
      exact foldlM_command .unfollow schedule.commands
  | getFollowers userID =>
      rw [step, getFollowers_toStores]
      rfl
  | getFollowees userID =>
      rw [step, getFollowees_toStores]
      rfl

theorem run_toStores (graph : Graph) (calls : List Call) :
    run step graph.toStores calls =
      some (calls.foldl Graph.call graph).toStores := by
  induction calls generalizing graph with
  | nil => rfl
  | cons call calls ih =>
      rw [run_cons, step_toStores, Option.bind_some, ih]
      rfl

/-! ## A request writes each sorted set once -/

theorem redis_request_of_not_mem {commands : List Record} {key : String}
    (hkey : ∀ side, .redis side ∈ commands →
      key ≠ redisKey side (side.owner userID followeeID)) :
    (graph.request action userID followeeID commands).redis key =
      graph.redis key := by
  induction commands generalizing graph with
  | nil => rfl
  | cons record commands ih =>
      have hrest : ∀ side, .redis side ∈ commands →
          key ≠ redisKey side (side.owner userID followeeID) :=
        fun side hside => hkey side (List.mem_cons_of_mem _ hside)
      have hrecord : (graph.command action userID followeeID record).redis
          key = graph.redis key :=
        redis_command_of_ne fun side hside =>
          hkey side (hside ▸ List.mem_cons_self)
      rw [← hrecord]
      exact ih hrest

theorem redis_request (schedule : Schedule) (owner : Int64) :
    (graph.request action userID followeeID schedule.commands).redis
        (redisKey side owner) =
      if owner = side.owner userID followeeID then
        action.onSet (side.member userID followeeID)
          (graph.redis (redisKey side owner))
      else graph.redis (redisKey side owner) := by
  by_cases howner : owner = side.owner userID followeeID
  · subst howner
    rw [if_pos rfl]
    obtain ⟨before, after, hcommands⟩ :=
      List.append_of_mem (schedule.mem_commands (.redis side))
    have hnodup : schedule.commands.Nodup :=
      schedule.perm.nodup_iff.mpr (by decide)
    rw [hcommands, List.nodup_middle, List.nodup_cons,
      List.mem_append] at hnodup
    have hother : ∀ side', .redis side' ∈ before ∨ .redis side' ∈ after →
        redisKey side (side.owner userID followeeID) ≠
          redisKey side' (side'.owner userID followeeID) := by
      intro side' hmem heq
      obtain ⟨rfl, -⟩ := redisKey_inj.mp heq
      exact hnodup.1 hmem
    rw [hcommands, Graph.request, List.foldl_append, List.foldl_cons]
    refine (redis_request_of_not_mem fun side' h =>
      hother side' (.inr h)).trans ?_
    refine (Function.update_self _ _ _).trans ?_
    congr 1
    exact redis_request_of_not_mem fun side' h => hother side' (.inl h)
  · rw [if_neg howner]
    apply redis_request_of_not_mem
    intro side' _ heq
    obtain ⟨rfl, rfl⟩ := redisKey_inj.mp heq
    exact howner rfl

theorem followers_request (schedule : Schedule) (owner : Int64) :
    (graph.request action userID followeeID schedule.commands).redis
        (redisKey .followers owner) =
      if owner = followeeID then
        action.onSet userID (graph.redis (redisKey .followers owner))
      else graph.redis (redisKey .followers owner) :=
  redis_request schedule owner

/-! ## The follow relation -/

def Call.action? (userID followeeID : Int64) : Call → Option Action
  | .follow userID' followeeID' timestamp _ =>
      if userID' = userID ∧ followeeID' = followeeID then
        some (.follow timestamp)
      else none
  | .unfollow userID' followeeID' _ =>
      if userID' = userID ∧ followeeID' = followeeID then some .unfollow
      else none
  | _ => none

def actions (calls : List Call) (userID followeeID : Int64) : List Action :=
  calls.filterMap (Call.action? userID followeeID)

/-- An edge is the time of the Follow that created it. -/
def Action.onEdge (edge : Option Time) : Action → Option Time
  | .follow timestamp => some (edge.getD timestamp)
  | .unfollow => none

def created (calls : List Call) (userID followeeID : Int64) : Option Time :=
  (actions calls userID followeeID).foldl Action.onEdge none

def edgeKey (calls : List Call) (followeeID userID : Int64) :
    Lex (Int × String) :=
  toLex (((created calls userID followeeID).map
    fun timestamp => timestamp.unix.toInt).getD 0, idText userID)

variable {calls : List Call}

theorem created_concat (call : Call) :
    created (calls ++ [call]) userID followeeID =
      match call.action? userID followeeID with
      | some action => action.onEdge (created calls userID followeeID)
      | none => created calls userID followeeID := by
  unfold created actions
  rw [List.filterMap_append, List.foldl_append]
  cases h : call.action? userID followeeID with
  | none => rw [List.filterMap_cons_none h]; rfl
  | some action => rw [List.filterMap_cons_some h]; rfl

/-- There is an edge when the last call for the pair was a Follow. -/
theorem isSome_created_iff :
    (created calls userID followeeID).isSome ↔
      ∃ timestamp, (actions calls userID followeeID).getLast? =
        some (.follow timestamp) := by
  unfold created
  generalize actions calls userID followeeID = actions
  rcases actions.eq_nil_or_concat with rfl | ⟨actions, action, rfl⟩
  · simp
  · rw [List.concat_eq_append, List.foldl_append, List.getLast?_concat]
    cases action with
    | follow timestamp => simp [Action.onEdge]
    | unfollow => simp [Action.onEdge]

structure Graph.HoldsRelation (graph : Graph) (calls : List Call) :
    Prop where
  members : ∀ followeeID, ∀ member ∈
    (graph.redis (redisKey .followers followeeID)).members,
      ∃ userID, member = idText userID
  score : ∀ userID followeeID,
    (graph.redis (redisKey .followers followeeID)).score? (idText userID) =
      (created calls userID followeeID).map fun timestamp =>
        timestamp.unix.toInt

theorem members_onSet {set : SortedSet Int String} {member : Int64}
    (hset : ∀ text ∈ set.members, ∃ id, text = idText id) :
    ∀ text ∈ (action.onSet member set).members, ∃ id, text = idText id := by
  intro text htext
  cases action with
  | follow timestamp =>
      rcases SortedSet.mem_members_addNX.mp htext with h | h
      · exact ⟨member, h⟩
      · exact hset text h
  | unfollow => exact hset text (SortedSet.mem_members_remove.mp htext).2

theorem score?_onSet_self {set : SortedSet Int String} {member : Int64}
    {edge : Option Time}
    (hset : set.score? (idText member) = edge.map fun timestamp =>
      timestamp.unix.toInt) :
    (action.onSet member set).score? (idText member) =
      (action.onEdge edge).map fun timestamp => timestamp.unix.toInt := by
  cases action with
  | follow timestamp =>
      rw [Action.onSet, SortedSet.score?_addNX_self, hset]
      cases edge with
      | none => simp [Action.onEdge, timestamp.float64_unix]
      | some old => simp [Action.onEdge]
  | unfollow => exact SortedSet.score?_remove_self

theorem score?_onSet_of_ne {set : SortedSet Int String} {member id : Int64}
    (hne : id ≠ member) :
    (action.onSet member set).score? (idText id) =
      set.score? (idText id) := by
  have htext : idText id ≠ idText member := idText_inj.not.mpr hne
  cases action with
  | follow timestamp => exact SortedSet.score?_addNX_of_ne htext
  | unfollow => exact SortedSet.score?_remove_of_ne htext

theorem Graph.HoldsRelation.request (hgood : graph.HoldsRelation calls)
    (call : Call) (schedule : Schedule)
    (haction : ∀ userID' followeeID', call.action? userID' followeeID' =
      if userID = userID' ∧ followeeID = followeeID' then some action
      else none) :
    (graph.request action userID followeeID
      schedule.commands).HoldsRelation (calls ++ [call]) where
  members := by
    intro followeeID'
    rw [followers_request]
    split
    · exact members_onSet (hgood.members followeeID')
    · exact hgood.members followeeID'
  score := by
    intro userID' followeeID'
    rw [followers_request, created_concat, haction]
    by_cases hfollowee : followeeID' = followeeID
    · subst hfollowee
      rw [if_pos rfl]
      by_cases huser : userID' = userID
      · subst huser
        rw [if_pos ⟨rfl, rfl⟩]
        exact score?_onSet_self (hgood.score userID' followeeID')
      · rw [if_neg fun h => huser h.1.symm]
        exact (score?_onSet_of_ne huser).trans
          (hgood.score userID' followeeID')
    · rw [if_neg hfollowee, if_neg fun h => hfollowee h.2.symm]
      exact hgood.score userID' followeeID'

theorem Graph.HoldsRelation.of_redis_eq {graph' : Graph}
    (hgood : graph.HoldsRelation calls) (call : Call)
    (hredis : graph'.redis = graph.redis)
    (haction : ∀ userID followeeID, call.action? userID followeeID = none) :
    graph'.HoldsRelation (calls ++ [call]) where
  members := by
    rw [hredis]
    exact hgood.members
  score := by
    intro userID followeeID
    rw [hredis, created_concat, haction]
    exact hgood.score userID followeeID

theorem Graph.HoldsRelation.call (hgood : graph.HoldsRelation calls)
    (call : Call) : (graph.call call).HoldsRelation (calls ++ [call]) := by
  cases call with
  | insertUser userID => exact hgood.of_redis_eq _ rfl fun _ _ => rfl
  | follow userID followeeID timestamp schedule =>
      exact hgood.request _ schedule fun _ _ => rfl
  | unfollow userID followeeID schedule =>
      exact hgood.request _ schedule fun _ _ => rfl
  | getFollowers userID => exact hgood.of_redis_eq _ rfl fun _ _ => rfl
  | getFollowees userID => exact hgood.of_redis_eq _ rfl fun _ _ => rfl

theorem calls_holdsRelation (calls : List Call) :
    (calls.foldl Graph.call Graph.empty).HoldsRelation calls := by
  induction calls using List.reverseRecOn with
  | nil => exact ⟨by simp [Graph.empty], by simp [Graph.empty, created,
      actions]⟩
  | append_singleton calls call ih =>
      rw [List.foldl_append]
      exact ih.call call

theorem parseIDs_map_idText (ids : List Int64) :
    parseIDs (ids.map idText) = .ok ids := by
  rw [parseIDs, mapM_parseID_map_idText]
  rfl

/-- The members of a followers set are the followers, in the order in which
their edges were created. -/
theorem Graph.HoldsRelation.followers (hgood : graph.HoldsRelation calls)
    (followeeID : Int64) :
    ∃ ids : List Int64,
      (graph.redis (redisKey .followers followeeID)).members =
        ids.map idText ∧ ids.Nodup ∧
      (∀ userID, userID ∈ ids ↔
        (created calls userID followeeID).isSome) ∧
      ids.Pairwise fun a b =>
        edgeKey calls followeeID a < edgeKey calls followeeID b := by
  obtain ⟨ids, hids⟩ := exists_map_idText (hgood.members followeeID)
  refine ⟨ids, hids, ?_, ?_, ?_⟩
  · have hnodup := SortedSet.members_nodup
      (graph.redis (redisKey .followers followeeID))
    rw [hids] at hnodup
    exact hnodup.of_map _
  · intro userID
    rw [← Option.isSome_map (f := fun timestamp : Time =>
      timestamp.unix.toInt), ← hgood.score,
      SortedSet.isSome_score?_iff, hids]
    simp
  · have hpairwise := (graph.redis
      (redisKey .followers followeeID)).members_pairwise_score
    rw [hids, List.pairwise_map] at hpairwise
    simp only [hgood.score] at hpairwise
    exact hpairwise

/-- At any point `GetFollowers` returns the followers of the relation in
ascending order, and the reads change no store. -/
theorem getFollowers_refines (calls : List Call) (followeeID : Int64) :
    ∃ stores ids, run step Stores.empty calls = some stores ∧
      GetFollowers stores followeeID = (.ok ids, stores) ∧
      ids.Nodup ∧
      (∀ userID, userID ∈ ids ↔ ∃ timestamp,
        (actions calls userID followeeID).getLast? =
          some (.follow timestamp)) ∧
      (ids.Pairwise fun a b =>
        edgeKey calls followeeID a < edgeKey calls followeeID b) ∧
      (GetFollowees stores followeeID).2 = stores := by
  obtain ⟨ids, hmembers, hnodup, hmem, hsorted⟩ :=
    (calls_holdsRelation calls).followers followeeID
  refine ⟨_, ids, run_toStores Graph.empty calls, ?_, hnodup,
    ?_, hsorted, ?_⟩
  · rw [getFollowers_toStores, hmembers, parseIDs_map_idText]
  · intro userID
    rw [hmem, isSome_created_iff]
  · rw [getFollowees_toStores]

/-! ## After Redis has lost the sets -/

def Stores.withRedis (stores : Stores)
    (redis : String → SortedSet Int String) : Stores :=
  { stores with redis := redis }

/-- A read returns the recorded ids and leaves them in its Redis set. -/
def ReadAgrees
    (read : Stores → Int64 → Except Error (List Int64) × Stores)
    (side : Side) (stores : Stores) (userID : Int64) : Prop :=
  ∃ ids after, read stores userID = (.ok ids, after) ∧
    (∀ id, id ∈ ids ↔ stores.Recorded side userID id) ∧
    ∀ text, text ∈ (after.redis (redisKey side userID)).members ↔
      ∃ id, text = idText id ∧ stores.Recorded side userID id

def ReadsAgree (stores : Stores) (userID : Int64) : Prop :=
  ReadAgrees GetFollowers .followers stores userID ∧
    ReadAgrees GetFollowees .followees stores userID

def registered (calls : List Call) : List Int64 :=
  calls.filterMap fun
    | .insertUser userID => some userID
    | _ => none

theorem withRedis_toStores (redis : String → SortedSet Int String) :
    graph.toStores.withRedis redis =
      Graph.toStores { graph with redis := redis } := rfl

theorem not_readAgrees_followees
    (hempty : graph.redis (redisKey .followees userID) = SortedSet.empty) :
    ¬ ReadAgrees GetFollowees .followees graph.toStores userID := by
  rintro ⟨ids, after, hread, -⟩
  rw [getFollowees_toStores, hempty] at hread
  cases hread

theorem readAgrees_followers_iff
    (hempty : graph.redis (redisKey .followers userID) = SortedSet.empty) :
    ReadAgrees GetFollowers .followers graph.toStores userID ↔
      ∀ id, ¬ graph.toStores.Recorded .followers userID id := by
  have hread : GetFollowers graph.toStores userID =
      (.ok [], graph.toStores) := by
    rw [getFollowers_toStores, hempty]
    rfl
  constructor
  · rintro ⟨ids, after, hread', hids, -⟩ id hrecorded
    rw [hread, Prod.mk.injEq, Except.ok.injEq] at hread'
    have hmem := (hids id).mpr hrecorded
    rw [← hread'.1] at hmem
    exact List.not_mem_nil hmem
  · intro hnone
    refine ⟨[], _, hread, ?_, ?_⟩
    · simp [hnone]
    · intro text
      have hmembers : (graph.toStores.redis
          (redisKey .followers userID)).members = [] := by
        simp only [Graph.toStores, hempty, SortedSet.members_empty]
      simp [hmembers, hnone]

/-- Without its Redis sets no user is read back: `GetFollowees` always fails,
and `GetFollowers` is right only for a user who has no followers. -/
theorem reads_disagree (calls : List Call)
    (redis : String → SortedSet Int String) (stores : Stores)
    (userID : Int64) (hrun : run step Stores.empty calls = some stores)
    (hlost : ∀ side, redis (redisKey side userID) = SortedSet.empty) :
    ¬ ReadsAgree (stores.withRedis redis) userID ∧
      (ReadAgrees GetFollowers .followers (stores.withRedis redis) userID ↔
        ∀ id, ¬ (stores.withRedis redis).Recorded .followers userID id) := by
  have hcalls := run_toStores Graph.empty calls
  obtain rfl := Option.some.inj (hrun.symm.trans hcalls)
  rw [withRedis_toStores]
  exact ⟨fun h => not_readAgrees_followees (hlost .followees) h.2,
    readAgrees_followers_iff (hlost .followers)⟩

def followedCalls : List Call :=
  [.insertUser 1, .insertUser 2, .follow 1 2 ⟨0, "epoch"⟩ .sequential]

theorem reads_disagree_followed :
    ∃ stores, run step Stores.empty followedCalls = some stores ∧
      ¬ ReadsAgree (stores.withRedis fun _ => SortedSet.empty) 1 := by
  have hcalls := run_toStores Graph.empty followedCalls
  exact ⟨_, hcalls,
    (reads_disagree followedCalls _ _ 1 hcalls fun _ => rfl).1⟩

theorem not_reads_agree :
    ¬ ∀ (calls : List Call) (redis : String → SortedSet Int String)
      (stores : Stores) (userID : Int64), (registered calls).Nodup →
        run step Stores.empty calls = some stores →
        userID ∈ registered calls →
        (∀ side, redis (redisKey side userID) = SortedSet.empty) →
        ReadsAgree (stores.withRedis redis) userID := by
  intro hclaim
  have hcalls := run_toStores Graph.empty followedCalls
  obtain ⟨-, hfollowees⟩ := hclaim followedCalls (fun _ => SortedSet.empty)
    _ 1 (by decide) hcalls (by decide) fun _ => rfl
  rw [withRedis_toStores] at hfollowees
  exact not_readAgrees_followees rfl hfollowees

end SocialNetwork.SocialGraph
