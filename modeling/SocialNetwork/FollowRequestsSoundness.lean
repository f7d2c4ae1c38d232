import SocialNetwork.FollowRequests

/-!
# Edges come from requests

In any interleaving of the requests with the calls of the user service, and
with any commands failing, an edge connects the ids that a Follow request
named: its own ids, or those of documents registered under its usernames.
The set that `GetFollowers` reads is decided by the last commands that took
effect on it.
-/

namespace SocialNetwork.FollowRequests

open Bson Json Machine SocialGraph
open UserService (CacheInv Registered)

variable {ι κ : Type} {hashPwd : String → String}
  {deployment : Deployment ι κ} {labels : List (Label ι κ)}
  {label : Label ι κ} {state next : State ι κ}

/-- The ids are those of the request, or belong to documents with its
usernames. -/
def Ends.Names (ends : Ends) (users : List User)
    (userID followeeID : Int64) : Prop :=
  match ends with
  | .ids userID' followeeID' => userID = userID' ∧ followeeID = followeeID'
  | .usernames userUsername followeeUsername =>
      Registered users userUsername userID ∧
        Registered users followeeUsername followeeID

theorem Ends.Names.mono {ends : Ends} {users users' : List User}
    {userID followeeID : Int64} (h : ends.Names users userID followeeID)
    (hsubset : users ⊆ users') : ends.Names users' userID followeeID := by
  cases ends with
  | ids userID' followeeID' => exact h
  | usernames userUsername followeeUsername =>
      exact ⟨h.1.mono hsubset, h.2.mono hsubset⟩

/-! ## Decisions -/

def Label.service? : Label ι κ → Option (UserService.Label (Call ι κ))
  | .service label => some label
  | _ => none

/-- A command that took effect on the record of the pair sets or clears it. -/
def decision (deployment : Deployment ι κ) (userID followeeID : Int64)
    (record : Record) : Label ι κ → Option Bool
  | .update i userID' followeeID' label =>
      if userID = userID' ∧ followeeID = followeeID' ∧
          label.record = some record then
        some (deployment.request i).action.isFollow
      else none
  | _ => none

def decisions (deployment : Deployment ι κ) (labels : List (Label ι κ))
    (userID followeeID : Int64) (record : Record) : List Bool :=
  labels.filterMap (decision deployment userID followeeID record)

theorem decisions_concat_none {userID followeeID : Int64} {record : Record}
    (hlabel : decision deployment userID followeeID record label = none) :
    decisions deployment (labels ++ [label]) userID followeeID record =
      decisions deployment labels userID followeeID record := by
  rw [decisions, decisions, List.filterMap_append,
    List.filterMap_cons_none hlabel, List.filterMap_nil, List.append_nil]

theorem decisions_concat_some {userID followeeID : Int64} {record : Record}
    {decided : Bool}
    (hlabel : decision deployment userID followeeID record label =
      some decided) :
    decisions deployment (labels ++ [label]) userID followeeID record =
      decisions deployment labels userID followeeID record ++ [decided] := by
  rw [decisions, decisions, List.filterMap_append,
    List.filterMap_cons_some hlabel, List.filterMap_nil]

theorem mem_decisions_iff {userID followeeID : Int64} {record : Record}
    {decided : Bool} :
    decided ∈ decisions deployment labels userID followeeID record ↔
      ∃ i label, .update i userID followeeID label ∈ labels ∧
        label.record = some record ∧
        (deployment.request i).action.isFollow = decided := by
  unfold decisions
  rw [List.mem_filterMap]
  constructor
  · rintro ⟨label, hmem, hdecision⟩
    unfold decision at hdecision
    split at hdecision
    next i userID' followeeID' label =>
      rw [Option.ite_none_right_eq_some, Option.some.injEq] at hdecision
      obtain ⟨⟨rfl, rfl, hrecord⟩, hdecided⟩ := hdecision
      exact ⟨i, label, hmem, hrecord, hdecided⟩
    next => cases hdecision
  · rintro ⟨i, label, hmem, hrecord, hdecided⟩
    exact ⟨_, hmem, by simp [decision, hrecord, hdecided]⟩

/-! ## One command without registered owners -/

section Commands

variable {graph : Graph} {action : Action} {userID followeeID : Int64}
  {side : Side}

/-- An array gains no other member than the one that is pushed. -/
theorem recorded_of_command {side' : Side} {owner member : Int64}
    (hrecorded : (graph.command action userID followeeID
      (.mongo side)).toStores.Recorded side' owner member) :
    graph.toStores.Recorded side' owner member ∨
      side' = side ∧ owner = side.owner userID followeeID ∧
        member = side.member userID followeeID ∧
        action.isFollow = true := by
  rw [recorded_iff] at hrecorded ⊢
  have hall : ∀ user ∈ (graph.command action userID followeeID
      (.mongo side)).users, user.userID = owner →
        member ∈ user.ids side' →
      (∃ user ∈ graph.users, user.userID = owner ∧
        member ∈ user.ids side') ∨
      side' = side ∧ owner = side.owner userID followeeID ∧
        member = side.member userID followeeID ∧
        action.isFollow = true := by
    refine forall_mem_updateFirst ?_ ?_
    · intro user hmem howner hmember
      exact .inl ⟨user, hmem, howner, hmember⟩
    · intro user hmem hselects howner hmember
      rw [userID_change] at howner
      have hids : member ∈ (action.change side
            (side.member userID followeeID) user).ids side' ↔
          if side' = side ∧ user.userID = side.owner userID followeeID ∧
              member = side.member userID followeeID then
            action.isFollow = true
          else member ∈ user.ids side' := by
        rw [← mem_ids_change, if_pos hselects]
      rw [hids] at hmember
      by_cases hsame : side' = side ∧
          user.userID = side.owner userID followeeID ∧
          member = side.member userID followeeID
      · rw [if_pos hsame] at hmember
        exact .inr ⟨hsame.1, howner.symm.trans hsame.2.1, hsame.2.2,
          hmember⟩
      · rw [if_neg hsame] at hmember
        exact .inl ⟨user, hmem, howner, hmember⟩
  obtain ⟨user, hmem, howner, hmember⟩ := hrecorded
  exact hall user hmem howner hmember

theorem recorded_insertUser {side' : Side} {owner member id : Int64}
    (hrecorded : (graph.insertUser id).toStores.Recorded side' owner
      member) : graph.toStores.Recorded side' owner member := by
  rw [recorded_iff] at hrecorded ⊢
  obtain ⟨user, hmem, howner, hmember⟩ := hrecorded
  rcases List.mem_append.mp hmem with hmem | hmem
  · exact ⟨user, hmem, howner, hmember⟩
  · rw [List.mem_singleton] at hmem
    subst hmem
    exact absurd hmember List.not_mem_nil

end Commands

/-! ## The graph -/

def HoldsIDs (redis : String → SortedSet Int String) : Prop :=
  ∀ side owner, ∀ text ∈ (redis (redisKey side owner)).members,
    ∃ id, text = idText id

/-- What the records of the graph say of the commands so far. -/
structure Decided (deployment : Deployment ι κ) (labels : List (Label ι κ))
    (graph : Graph) : Prop where
  mongo : ∀ userID followeeID side,
    graph.toStores.Holds userID followeeID (.mongo side) →
      true ∈ decisions deployment labels userID followeeID (.mongo side)
  redis : ∀ userID followeeID side,
    graph.toStores.Holds userID followeeID (.redis side) ↔
      (decisions deployment labels userID followeeID
        (.redis side)).getLast? = some true
  members : HoldsIDs graph.redis

theorem Decided.initial : Decided deployment [] Graph.empty where
  mongo userID followeeID side hholds := by
    obtain ⟨doc, hdoc, -⟩ := hholds
    cases hdoc
  redis userID followeeID side := by
    simp [Stores.Holds, Graph.toStores, Graph.empty, decisions]
  members side owner text htext := by
    simp [Graph.empty] at htext

theorem Decided.skip {graph : Graph} (hgood : Decided deployment labels graph)
    (hlabel : ∀ userID followeeID record,
      decision deployment userID followeeID record label = none) :
    Decided deployment (labels ++ [label]) graph where
  mongo userID followeeID side hholds := by
    rw [decisions_concat_none (hlabel _ _ _)]
    exact hgood.mongo userID followeeID side hholds
  redis userID followeeID side := by
    rw [decisions_concat_none (hlabel _ _ _)]
    exact hgood.redis userID followeeID side
  members := hgood.members

theorem Decided.insertUser {graph : Graph}
    (hgood : Decided deployment labels graph) (id : Int64) :
    Decided deployment labels (graph.insertUser id) where
  mongo userID followeeID side hholds :=
    hgood.mongo userID followeeID side (recorded_insertUser hholds)
  redis := hgood.redis
  members := hgood.members

theorem HoldsIDs.command {graph : Graph} (hgood : HoldsIDs graph.redis)
    (action : Action) (userID followeeID : Int64) (record : Record) :
    HoldsIDs (graph.command action userID followeeID record).redis := by
  cases record with
  | mongo side => exact hgood
  | redis side =>
      intro side' owner text htext
      simp only [Graph.command] at htext
      by_cases hkey : redisKey side' owner =
          redisKey side (side.owner userID followeeID)
      · obtain ⟨rfl, rfl⟩ := redisKey_inj.mp hkey
        rw [Function.update_self] at htext
        exact members_onSet (hgood side' _) text htext
      · rw [Function.update_of_ne hkey] at htext
        exact hgood side' owner text htext

theorem decision_update {i : ι} {userID followeeID : Int64}
    {command : StoreFailures.Label} {record : Record}
    (hrecord : command.record = some record) (userID' followeeID' : Int64)
    (record' : Record) :
    decision deployment userID' followeeID' record'
        (.update i userID followeeID command) =
      if record' = record ∧ userID' = userID ∧ followeeID' = followeeID then
        some (deployment.request i).action.isFollow
      else none := by
  simp only [decision, hrecord, Option.some.injEq]
  congr 1
  rw [eq_iff_iff]
  tauto

theorem Decided.command {graph : Graph}
    (hgood : Decided deployment labels graph) {i : ι}
    {userID followeeID : Int64} {command : StoreFailures.Label}
    {record : Record} (hrecord : command.record = some record) :
    Decided deployment
      (labels ++ [.update i userID followeeID command])
      (graph.command (deployment.request i).action userID followeeID
        record) where
  mongo userID' followeeID' side hholds := by
    rw [mem_decisions_iff]
    have hold : graph.toStores.Holds userID' followeeID' (.mongo side) →
        ∃ i' label, .update i' userID' followeeID' label ∈
            labels ++ [.update i userID followeeID command] ∧
          label.record = some (.mongo side) ∧
          (deployment.request i').action.isFollow = true := by
      intro hbefore
      obtain ⟨i', label, hmem, hlabel⟩ :=
        mem_decisions_iff.mp (hgood.mongo userID' followeeID' side hbefore)
      exact ⟨i', label, List.mem_append_left _ hmem, hlabel⟩
    cases record with
    | redis side' => exact hold hholds
    | mongo side' =>
        rcases recorded_of_command hholds with hbefore | hpushed
        · exact hold hbefore
        · obtain ⟨hside, howner, hmember, hfollow⟩ := hpushed
          obtain ⟨rfl, rfl, rfl⟩ :=
            owner_member_inj.mp ⟨hside, howner, hmember⟩
          exact ⟨i, command,
            List.mem_append_right _ (List.mem_singleton_self _), hrecord,
            hfollow⟩
  redis userID' followeeID' side := by
    have hdecision : decision deployment userID' followeeID' (.redis side)
          (.update i userID followeeID command) = _ :=
      decision_update hrecord userID' followeeID' (.redis side)
    cases record with
    | mongo side' =>
        rw [if_neg (by simp)] at hdecision
        rw [decisions_concat_none hdecision]
        exact hgood.redis userID' followeeID' side
    | redis side' =>
        refine (mem_redis_command side (side.owner userID' followeeID')
          (side.member userID' followeeID')).trans ?_
        simp only [owner_member_inj]
        simp only [Record.redis.injEq] at hdecision
        by_cases hpair : side = side' ∧ userID' = userID ∧
            followeeID' = followeeID
        · rw [if_pos hpair] at hdecision ⊢
          rw [decisions_concat_some hdecision, List.getLast?_concat,
            Option.some.injEq]
        · rw [if_neg hpair] at hdecision ⊢
          rw [decisions_concat_none hdecision]
          exact hgood.redis userID' followeeID' side
  members := hgood.members.command _ _ _ _

/-- The members of a followers set are the ids for which the last command was
that of a Follow. -/
theorem Decided.followers {graph : Graph}
    (hgood : Decided deployment labels graph) (followeeID : Int64) :
    ∃ ids : List Int64,
      (graph.redis (redisKey .followers followeeID)).members =
        ids.map idText ∧ ids.Nodup ∧
      ∀ userID, userID ∈ ids ↔ (decisions deployment labels userID followeeID
        (.redis .followers)).getLast? = some true := by
  obtain ⟨ids, hids⟩ :=
    exists_map_idText (hgood.members .followers followeeID)
  refine ⟨ids, hids, ?_, ?_⟩
  · have hnodup := SortedSet.members_nodup
      (graph.redis (redisKey .followers followeeID))
    rw [hids] at hnodup
    exact hnodup.of_map _
  · intro userID
    rw [← hgood.redis userID followeeID .followers]
    change _ ↔ idText userID ∈
      (graph.redis (redisKey .followers followeeID)).members
    rw [hids]
    simp [idText_inj]

/-! ## Runs -/

structure Good (hashPwd : String → String) (deployment : Deployment ι κ)
    (labels : List (Label ι κ)) (state : State ι κ) : Prop where
  cache : CacheInv hashPwd deployment.userService
    (labels.filterMap Label.service?) state.service
  lookingUp : ∀ i, state.phase i = .lookingUp →
    ∃ userUsername followeeUsername, (deployment.request i).ends =
      .usernames userUsername followeeUsername
  updating : ∀ i userID followeeID call,
    state.phase i = .updating userID followeeID call →
      (deployment.request i).ends.Names state.service.users userID followeeID
  updated : ∀ i userID followeeID label,
    .update i userID followeeID label ∈ labels →
      ∃ call, state.phase i = .updating userID followeeID call
  graph : ∃ graph : Graph, state.graph = graph.toStores ∧
    Decided deployment labels graph

theorem Good.initial : Good hashPwd deployment [] State.initial where
  cache := CacheInv.initial
  lookingUp _ hphase := nomatch hphase
  updating _ _ _ _ hphase := nomatch hphase
  updated _ _ _ _ hmem := nomatch hmem
  graph := ⟨Graph.empty, rfl, Decided.initial⟩

section Service

variable {Call : Type} [DecidableEq Call]
  {service : UserService.Deployment Call}
  {before after : UserService.State Call} {command : UserService.Label Call}

theorem service_users (hstep : UserService.step hashPwd service before
    command = some after) : before.users ⊆ after.users := by
  cases UserService.effect_of_step hstep with
  | insertOne => exact List.subset_append_left _ _
  | _ => exact List.Subset.refl _

theorem service_graph (hstep : UserService.step hashPwd service before
      command = some after) :
    after.graph = before.graph ∨
      ∃ userID, after.graph = InsertUser before.graph userID := by
  cases UserService.effect_of_step hstep with
  | insertUser i write userID => exact .inr ⟨userID, rfl⟩
  | _ => exact .inl rfl

end Service

/-- The ids that a request goes on with are those it names. -/
theorem Good.lookups (hgood : Good hashPwd deployment labels state) {i : ι}
    {userID followeeID : Int64}
    (huser : lookupResult (state.service.call (.getUserId i .user)) =
      some (some userID))
    (hfollowee : lookupResult (state.service.call
      (.getUserId i .followee)) = some (some followeeID))
    (hphase : state.phase i = .lookingUp) :
    (deployment.request i).ends.Names state.service.users userID
      followeeID := by
  have hlookup : ∀ lookup id,
      lookupResult (state.service.call (.getUserId i lookup)) =
          some (some id) →
        Registered state.service.users
          ((deployment.request i).ends.username lookup) id := by
    intro lookup id hresult
    have hcall := hgood.cache.call (.getUserId i lookup)
    unfold lookupResult at hresult
    split at hresult
    next userID' hreturned =>
      cases hresult
      rw [hreturned] at hcall
      exact hcall
    next => cases hresult
    next => cases hresult
  have huser' := hlookup .user userID huser
  have hfollowee' := hlookup .followee followeeID hfollowee
  obtain ⟨userUsername, followeeUsername, hends⟩ :=
    hgood.lookingUp i hphase
  rw [hends] at huser' hfollowee' ⊢
  exact ⟨huser', hfollowee'⟩

/-- A decision for an edge was made by a Follow request that names its
ends. -/
theorem Good.exists_request (hgood : Good hashPwd deployment labels state)
    {userID followeeID : Int64} {record : Record}
    (hdecided : true ∈ decisions deployment labels userID followeeID
      record) :
    ∃ i, (deployment.request i).action.isFollow = true ∧
      (deployment.request i).ends.Names state.service.users userID
        followeeID := by
  obtain ⟨i, label, hmem, -, hfollow⟩ := mem_decisions_iff.mp hdecided
  obtain ⟨call, hphase⟩ := hgood.updated i userID followeeID label hmem
  exact ⟨i, hfollow, hgood.updating i userID followeeID call hphase⟩

variable [DecidableEq ι]

/-- A step that leaves the stores alone and moves one request. -/
theorem Good.setPhase (hgood : Good hashPwd deployment labels state)
    {i : ι} {phase : Phase} (hservice : label.service? = none)
    (hbefore : ∀ userID followeeID call,
      state.phase i ≠ .updating userID followeeID call)
    (hdecision : ∀ userID followeeID record,
      decision deployment userID followeeID record label = none)
    (hlabel : ∀ i userID followeeID command,
      label ≠ .update i userID followeeID command)
    (hlookingUp : phase = .lookingUp →
      ∃ userUsername followeeUsername, (deployment.request i).ends =
        .usernames userUsername followeeUsername)
    (hupdating : ∀ userID followeeID call,
      phase = .updating userID followeeID call →
        (deployment.request i).ends.Names state.service.users userID
          followeeID) :
    Good hashPwd deployment (labels ++ [label]) (state.setPhase i phase) where
  cache := by
    rw [List.filterMap_append, List.filterMap_cons_none hservice,
      List.filterMap_nil, List.append_nil]
    exact hgood.cache
  lookingUp j hj := by
    by_cases hsame : j = i
    · subst hsame
      rw [State.setPhase_self] at hj
      exact hlookingUp hj
    · rw [state.setPhase_of_ne hsame] at hj
      exact hgood.lookingUp j hj
  updating j userID followeeID call hj := by
    by_cases hsame : j = i
    · subst hsame
      rw [State.setPhase_self] at hj
      exact hupdating userID followeeID call hj
    · rw [state.setPhase_of_ne hsame] at hj
      exact hgood.updating j userID followeeID call hj
  updated j userID followeeID command hmem := by
    rcases List.mem_append.mp hmem with hmem | hmem
    · obtain ⟨call, hcall⟩ := hgood.updated j userID followeeID command hmem
      have hne : j ≠ i := by
        rintro rfl
        exact hbefore _ _ _ hcall
      exact ⟨call, by rw [state.setPhase_of_ne hne, hcall]⟩
    · exact absurd (List.mem_singleton.mp hmem).symm (hlabel _ _ _ _)
  graph := by
    obtain ⟨graph, hgraph, hdecided⟩ := hgood.graph
    exact ⟨graph, hgraph, hdecided.skip hdecision⟩

theorem Good.update (hgood : Good hashPwd deployment labels state) {i : ι}
    {userID followeeID : Int64} {call call' : StoreFailures.State}
    {command : StoreFailures.Label}
    (hphase : state.phase i = .updating userID followeeID call)
    (hstep : StoreFailures.step
      ⟨userID, followeeID, (deployment.request i).action⟩
      { call with stores := state.graph } command = some call') :
    Good hashPwd deployment
      (labels ++ [.update i userID followeeID command])
      ((state.setGraph call'.stores).setPhase i
        (.updating userID followeeID call')) where
  cache := by
    rw [List.filterMap_append, List.filterMap_cons_none rfl,
      List.filterMap_nil, List.append_nil]
    exact ⟨hgood.cache.entries, hgood.cache.call⟩
  lookingUp j hj := by
    by_cases hsame : j = i
    · subst hsame
      rw [State.setPhase_self] at hj
      cases hj
    · rw [State.setPhase_of_ne _ hsame] at hj
      exact hgood.lookingUp j hj
  updating j userID' followeeID' call'' hj := by
    by_cases hsame : j = i
    · subst hsame
      rw [State.setPhase_self] at hj
      cases hj
      exact hgood.updating j userID followeeID call hphase
    · rw [State.setPhase_of_ne _ hsame] at hj
      exact hgood.updating j userID' followeeID' call'' hj
  updated j userID' followeeID' label hmem := by
    by_cases hsame : j = i
    · subst hsame
      have hids : userID' = userID ∧ followeeID' = followeeID := by
        rcases List.mem_append.mp hmem with hmem | hmem
        · obtain ⟨call'', hcall⟩ :=
            hgood.updated j userID' followeeID' label hmem
          rw [hphase] at hcall
          cases hcall
          exact ⟨rfl, rfl⟩
        · cases List.mem_singleton.mp hmem
          exact ⟨rfl, rfl⟩
      obtain ⟨rfl, rfl⟩ := hids
      exact ⟨call', State.setPhase_self _ _ _⟩
    · rcases List.mem_append.mp hmem with hmem | hmem
      · obtain ⟨call'', hcall⟩ :=
          hgood.updated j userID' followeeID' label hmem
        exact ⟨call'', by rw [State.setPhase_of_ne _ hsame]; exact hcall⟩
      · cases List.mem_singleton.mp hmem
        exact absurd rfl hsame
  graph := by
    obtain ⟨graph, hgraph, hdecided⟩ := hgood.graph
    have hstores := StoreFailures.step_stores hstep
    cases hrecord : command.record with
    | none =>
        rw [hrecord] at hstores
        refine ⟨graph, hstores.trans hgraph, hdecided.skip ?_⟩
        intro userID' followeeID' record
        simp [decision, hrecord]
    | some record =>
        rw [hrecord] at hstores
        simp only [hgraph, command_toStores, Option.some.injEq] at hstores
        exact ⟨_, hstores.symm, hdecided.command hrecord⟩

variable [DecidableEq κ]

theorem Good.service (hgood : Good hashPwd deployment labels state)
    {command : UserService.Label (Call ι κ)}
    {service : UserService.State (Call ι κ)}
    (hstep : UserService.step hashPwd deployment.userService state.service
      command = some service) :
    Good hashPwd deployment (labels ++ [.service command])
      { state with service := service } where
  cache := by
    rw [List.filterMap_append]
    exact hgood.cache.step hstep
  lookingUp := hgood.lookingUp
  updating i userID followeeID call hcall :=
    (hgood.updating i userID followeeID call hcall).mono
      (service_users hstep)
  updated i userID followeeID label hmem := by
    rcases List.mem_append.mp hmem with hmem | hmem
    · exact hgood.updated i userID followeeID label hmem
    · cases List.mem_singleton.mp hmem
  graph := by
    obtain ⟨graph, hgraph, hdecided⟩ := hgood.graph
    have hskip : Decided deployment (labels ++ [.service command]) graph :=
      hdecided.skip fun _ _ _ => rfl
    rcases service_graph hstep with hsame | ⟨userID, hinsert⟩
    · exact ⟨graph, hsame.trans hgraph, hskip⟩
    · refine ⟨graph.insertUser userID, ?_, hskip.insertUser userID⟩
      change service.graph = _
      rw [hinsert, ← insertUser_toStores]
      exact congrArg (InsertUser · userID) hgraph

theorem Good.step (hgood : Good hashPwd deployment labels state)
    (hstep : step hashPwd deployment state label = some next) :
    Good hashPwd deployment (labels ++ [label]) next := by
  cases label with
  | service command =>
      simp only [FollowRequests.step] at hstep
      split at hstep
      next =>
        rw [Option.map_eq_some_iff] at hstep
        obtain ⟨service, hservice, rfl⟩ := hstep
        exact hgood.service hservice
      next => cases hstep
  | start i =>
      simp only [FollowRequests.step] at hstep
      split at hstep
      next userID followeeID hwaiting hends =>
        cases hstep
        refine hgood.setPhase rfl (by simp [hwaiting]) (fun _ _ _ => rfl)
          (by simp) (by simp) ?_
        intro userID' followeeID' call hphase
        cases hphase
        rw [hends]
        exact ⟨rfl, rfl⟩
      next userUsername followeeUsername hwaiting hends =>
        cases hstep
        exact hgood.setPhase rfl (by simp [hwaiting]) (fun _ _ _ => rfl)
          (by simp) (fun _ => ⟨_, _, hends⟩) (by simp)
      next => cases hstep
  | wait i =>
      simp only [FollowRequests.step] at hstep
      split at hstep
      next hphase _ _ =>
        cases hstep
        exact hgood.setPhase rfl (by simp [hphase]) (fun _ _ _ => rfl)
          (by simp) (by simp) (by simp)
      next hphase _ _ =>
        cases hstep
        exact hgood.setPhase rfl (by simp [hphase]) (fun _ _ _ => rfl)
          (by simp) (by simp) (by simp)
      next userID followeeID hphase huser hfollowee =>
        cases hstep
        refine hgood.setPhase rfl (by simp [hphase]) (fun _ _ _ => rfl)
          (by simp) (by simp) ?_
        intro userID' followeeID' call hcall
        cases hcall
        exact hgood.lookups huser hfollowee hphase
      next => cases hstep
  | update i userID followeeID command =>
      simp only [FollowRequests.step] at hstep
      split at hstep
      next userID' followeeID' call hphase =>
        split at hstep
        next hsame =>
          obtain ⟨rfl, rfl⟩ := hsame
          rw [Option.map_eq_some_iff] at hstep
          obtain ⟨call', hcall, rfl⟩ := hstep
          exact hgood.update hphase hcall
        next => cases hstep
      next => cases hstep

theorem Good.of_run
    (hrun : run (FollowRequests.step hashPwd deployment) State.initial
      labels = some state) : Good hashPwd deployment labels state :=
  run_induction (P := Good hashPwd deployment) Good.initial
    (fun _ _ _ _ _ hgood hstep => hgood.step hstep) hrun

/-- In every interleaving, whatever fails: an edge of any record was asked
for, a request whose lookup failed sent no command, and `GetFollowers` returns
the users whose last command on the set that took effect was that of a
Follow. -/
theorem follow_edges_sound
    (hrun : run (FollowRequests.step hashPwd deployment) State.initial
      labels = some state) :
    (∀ userID followeeID record, state.graph.Holds userID followeeID record →
      ∃ i, (deployment.request i).action.isFollow = true ∧
        (deployment.request i).ends.Names state.service.users userID
          followeeID) ∧
    (∀ i lookup, state.phase i = .failed lookup →
      ∀ userID followeeID command,
        .update i userID followeeID command ∉ labels) ∧
    ∀ followeeID, ∃ ids, GetFollowers state.graph followeeID =
        (.ok ids, state.graph) ∧ ids.Nodup ∧
      ∀ userID, userID ∈ ids ↔
        (decisions deployment labels userID followeeID
          (.redis .followers)).getLast? = some true := by
  have hgood := Good.of_run hrun
  obtain ⟨graph, hgraph, hdecided⟩ := hgood.graph
  refine ⟨?_, ?_, ?_⟩
  · intro userID followeeID record hholds
    rw [hgraph] at hholds
    have hasked : true ∈ decisions deployment labels userID followeeID
        record := by
      cases record with
      | mongo side => exact hdecided.mongo userID followeeID side hholds
      | redis side =>
          exact List.mem_of_getLast?
            ((hdecided.redis userID followeeID side).mp hholds)
    exact hgood.exists_request hasked
  · intro i lookup hfailed userID followeeID command hmem
    obtain ⟨call, hphase⟩ := hgood.updated i userID followeeID command hmem
    rw [hfailed] at hphase
    cases hphase
  · intro followeeID
    obtain ⟨ids, hids, hnodup, hmem⟩ := hdecided.followers followeeID
    refine ⟨ids, ?_, hnodup, hmem⟩
    rw [hgraph, getFollowers_toStores, hids, parseIDs_map_idText]

/-- Two registered users; the first follows the second by username. -/
def sampleDeployment : Deployment Unit Bool where
  request _ := ⟨.usernames "ana" "bob", .follow ⟨0, "epoch"⟩⟩
  client
    | false => .registerUserWithId ⟨"Ana", "Lima", "ana", "secret"⟩ 1
    | true => .registerUserWithId ⟨"Bob", "Reis", "bob", "hidden"⟩ 2
  replica _ := 0
  machineID _ := "a7"

def sampleRegistration (k : Bool) :
    List (UserService.Label (Call Unit Bool)) :=
  [.registerUserWithId (.client k), .findExisting (.client k) .empty,
    .insertOne (.client k) "salt" .done, .insertUser (.client k) .done]

def sampleLookup (lookup : Lookup) (user : User) :
    List (UserService.Label (Call Unit Bool)) :=
  [.get (.getUserId () lookup) true,
    .find (.getUserId () lookup) (.document user),
    .set (.getUserId () lookup) .done]

def sampleLabels : List (Label Unit Bool) :=
  (sampleRegistration false ++ sampleRegistration true).map .service ++
    .start () ::
    (sampleLookup .followee ⟨2, "Bob", "Reis", "bob", "#hiddensalt",
        "salt"⟩ ++
      sampleLookup .user ⟨1, "Ana", "Lima", "ana", "#secretsalt",
        "salt"⟩).map .service ++
    .wait () ::
    ([.pipelined (.zcard .followees) .done,
      .pipelined (.write .followees) .done,
      .updateOne .followers (.failed false),
      .pipelined (.zcard .followers) .done,
      .pipelined (.write .followers) .done] :
      List StoreFailures.Label).map (.update () 1 2)

theorem follow_edges_sound_sample :
    ∃ state, run (FollowRequests.step UserService.sampleHash
        sampleDeployment) State.initial sampleLabels = some state ∧
      ∃ ids, GetFollowers state.graph 2 = (.ok ids, state.graph) ∧
        1 ∈ ids := by
  obtain ⟨state, hrun⟩ : ∃ state, run (FollowRequests.step
      UserService.sampleHash sampleDeployment) State.initial sampleLabels =
        some state :=
    Option.isSome_iff_exists.mp (by decide +kernel)
  obtain ⟨ids, hread, -, hids⟩ := (follow_edges_sound hrun).2.2 2
  exact ⟨state, hrun, ids, hread, (hids 1).mpr (by decide +kernel)⟩

end SocialNetwork.FollowRequests
