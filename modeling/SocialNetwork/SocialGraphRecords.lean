import SocialNetwork.SocialGraph

/-!
# The social graph as typed records

Every document that the service writes is a user with two lists of edges.
`Graph` is the state of the stores at that level; its commands cannot fail,
and the commands of the service on the stores are the commands on the graph.

What one command does to the four records of all pairs is then a statement
about lists and sorted sets: it decides the record it writes for its own pair
and changes no other.
-/

namespace SocialNetwork.SocialGraph

open Bson

structure Edge where
  userID : Int64
  timestamp : String

def Edge.toValue (edge : Edge) : Value :=
  .document [("user_id", .scalar (.int64 edge.userID)),
    ("timestamp", .scalar (.string edge.timestamp))]

structure UserRecord where
  userID : Int64
  edges : Side → List Edge

def UserRecord.fresh (userID : Int64) : UserRecord := ⟨userID, fun _ => []⟩

def UserRecord.toDoc (user : UserRecord) : Document :=
  [("user_id", .scalar (.int64 user.userID)),
    ("followers", .array ((user.edges .followers).map Edge.toValue)),
    ("followees", .array ((user.edges .followees).map Edge.toValue))]

def UserRecord.ids (user : UserRecord) (side : Side) : List Int64 :=
  (user.edges side).map Edge.userID

def UserRecord.setEdges (user : UserRecord) (side : Side)
    (edges : List Edge) : UserRecord :=
  { user with edges := Function.update user.edges side edges }

def UserRecord.push (side : Side) (edge : Edge) (user : UserRecord) :
    UserRecord :=
  user.setEdges side (user.edges side ++ [edge])

def UserRecord.pull (side : Side) (member : Int64) (user : UserRecord) :
    UserRecord :=
  user.setEdges side ((user.edges side).filter fun edge =>
    edge.userID ≠ member)

variable {side : Side} {user : UserRecord} {member : Int64} {edge : Edge}

theorem UserRecord.ids_setEdges (other : Side) (edges : List Edge) :
    (user.setEdges side edges).ids other =
      if other = side then edges.map Edge.userID else user.ids other := by
  unfold UserRecord.ids UserRecord.setEdges
  simp only [Function.update_apply]
  split <;> rfl

theorem UserRecord.ids_push (other : Side) :
    (user.push side edge).ids other =
      if other = side then user.ids side ++ [edge.userID]
      else user.ids other := by
  rw [UserRecord.push, ids_setEdges, List.map_append]
  rfl

theorem UserRecord.ids_pull (other : Side) :
    (user.pull side member).ids other =
      if other = side then (user.ids side).filter (· ≠ member)
      else user.ids other := by
  rw [UserRecord.pull, ids_setEdges]
  unfold UserRecord.ids
  rw [List.filter_map]
  rfl

/-! ## Documents -/

theorem lookup_userID :
    user.toDoc.lookup "user_id" = some (.scalar (.int64 user.userID)) := rfl

theorem lookup_key :
    user.toDoc.lookup side.key =
      some (.array ((user.edges side).map Edge.toValue)) := by
  cases side <;> rfl

theorem setField_key (edges : List Edge) :
    setField side.key (.array (edges.map Edge.toValue)) user.toDoc =
      (user.setEdges side edges).toDoc := by
  cases side <;> simp [setField, UserRecord.toDoc, UserRecord.setEdges,
    Side.key, Function.update_of_ne]

theorem edgeIDs_toDoc : edgeIDs side.key user.toDoc = user.ids side := by
  unfold edgeIDs
  rw [lookup_key]
  simp only [List.filterMap_map]
  unfold UserRecord.ids
  rw [← List.filterMap_eq_map]
  rfl

theorem matches_userID (id : Int64) (user : UserRecord) :
    (Filter.eq "user_id" (.int64 id)).matches user.toDoc =
      decide (user.userID = id) := by
  simp [Filter.matches, lookup_userID, Value.isScalar]

/-- Text is never equal to a stored id. -/
theorem matches_userID_text (text : String) (user : UserRecord) :
    (Filter.eq "user_id" (.string text)).matches user.toDoc = false := by
  simp [Filter.matches, lookup_userID, Value.isScalar]

theorem matches_notElemMatch :
    (Filter.notElemMatch side.key
        (.eq "user_id" (.int64 member))).matches user.toDoc =
      decide (member ∉ user.ids side) := by
  simp only [Filter.matches, lookup_key, List.any_map]
  rw [Bool.eq_iff_iff]
  simp [Edge.toValue, UserRecord.ids, Value.isScalar]

theorem apply_push (side : Side) (edge : Edge) (user : UserRecord) :
    (Update.push side.key edge.toValue).apply user.toDoc =
      some (user.push side edge).toDoc := by
  simp only [Update.apply, lookup_key]
  rw [← List.map_singleton, ← List.map_append, setField_key]
  rfl

theorem apply_pull (side : Side) (member : Int64) (user : UserRecord) :
    (Update.pull side.key (.eq "user_id" (.int64 member))).apply user.toDoc =
      some (user.pull side member).toDoc := by
  simp only [Update.apply, lookup_key, List.filter_map]
  rw [setField_key]
  unfold UserRecord.pull
  congr 4
  funext edge
  simp [Edge.toValue, Filter.matches, Value.isScalar]

/-! ## Commands -/

inductive Action where
  | follow (timestamp : Time)
  | unfollow

def Action.command (action : Action) (userID followeeID : Int64)
    (stores : Stores) (record : Record) : Option Stores :=
  match action with
  | .follow timestamp =>
      Follow.command userID followeeID timestamp stores record
  | .unfollow => Unfollow.command userID followeeID stores record

def Action.isFollow : Action → Bool
  | .follow _ => true
  | .unfollow => false

/-- The users whose array the update of an action changes. -/
def Action.selects (action : Action) (side : Side) (owner member : Int64)
    (user : UserRecord) : Bool :=
  match action with
  | .follow _ => user.userID = owner ∧ member ∉ user.ids side
  | .unfollow => user.userID = owner

def Action.change (action : Action) (side : Side) (member : Int64)
    (user : UserRecord) : UserRecord :=
  match action with
  | .follow timestamp => user.push side ⟨member, timestamp.text⟩
  | .unfollow => user.pull side member

def Action.onSet (action : Action) (member : Int64)
    (set : SortedSet Int String) : SortedSet Int String :=
  match action with
  | .follow timestamp => set.addNX (idText member) (float64 timestamp.unix)
  | .unfollow => set.remove (idText member)

structure Graph where
  users : List UserRecord
  redis : String → SortedSet Int String

def Graph.toStores (graph : Graph) : Stores :=
  ⟨graph.users.map UserRecord.toDoc, graph.redis⟩

def Graph.empty : Graph := ⟨[], fun _ => SortedSet.empty⟩

def Graph.insertUser (graph : Graph) (userID : Int64) : Graph :=
  { graph with users := graph.users ++ [UserRecord.fresh userID] }

def Graph.command (action : Action) (userID followeeID : Int64)
    (graph : Graph) : Record → Graph
  | .mongo side =>
      let owner := side.owner userID followeeID
      let member := side.member userID followeeID
      { graph with
        users := updateFirst (action.selects side owner member)
          (action.change side member) graph.users }
  | .redis side =>
      let key := redisKey side (side.owner userID followeeID)
      { graph with
        redis := Function.update graph.redis key
          (action.onSet (side.member userID followeeID) (graph.redis key)) }

variable {graph : Graph} {action : Action} {userID followeeID : Int64}
  {record : Record}

theorem insertUser_toStores :
    InsertUser graph.toStores userID = (graph.insertUser userID).toStores := by
  simp [InsertUser, insertOne, Graph.toStores, Graph.insertUser,
    UserRecord.fresh, UserRecord.toDoc]

/-- The commands of the service refine the commands on the graph. -/
theorem command_toStores :
    action.command userID followeeID graph.toStores record =
      some (graph.command action userID followeeID record).toStores := by
  cases record with
  | redis side =>
      cases action <;> rfl
  | mongo side =>
      cases action with
      | follow timestamp =>
          have hmatches : ∀ user : UserRecord,
              (Filter.and
                (.eq "user_id" (.int64 (side.owner userID followeeID)))
                (.notElemMatch side.key (.eq "user_id"
                  (.int64 (side.member userID followeeID))))).matches
                    user.toDoc =
                (Action.follow timestamp).selects side
                  (side.owner userID followeeID)
                  (side.member userID followeeID) user := by
            intro user
            simp only [Filter.matches, Action.selects, Bool.decide_and]
            rw [← matches_userID, ← matches_notElemMatch]
            rfl
          have hupdate := updateOne_map hmatches
            (apply_push side
              ⟨side.member userID followeeID, timestamp.text⟩)
            graph.users
          unfold Action.command Follow.command Stores.updateOne
          rw [Option.map_eq_some_iff]
          exact ⟨_, hupdate, rfl⟩
      | unfollow =>
          have hupdate := updateOne_map
            (matches_userID (side.owner userID followeeID))
            (apply_pull side (side.member userID followeeID))
            graph.users
          unfold Action.command Unfollow.command Stores.updateOne
          rw [Option.map_eq_some_iff]
          exact ⟨_, hupdate, rfl⟩

/-! ## What one command decides -/

theorem owner_member_inj {side' : Side} {userID' followeeID' : Int64} :
    (side' = side ∧ side'.owner userID' followeeID' =
          side.owner userID followeeID ∧
        side'.member userID' followeeID' = side.member userID followeeID) ↔
      side' = side ∧ userID' = userID ∧ followeeID' = followeeID := by
  apply and_congr_right
  rintro rfl
  cases side' with
  | followees => exact Iff.rfl
  | followers => exact And.comm

theorem key_suffix_inj {side side' : Side}
    (h : ":" ++ side.key = ":" ++ side'.key) : side = side' := by
  revert h
  cases side <;> cases side' <;> decide +kernel

theorem redisKey_inj {side side' : Side} {owner owner' : Int64} :
    redisKey side owner = redisKey side' owner' ↔
      side = side' ∧ owner = owner' := by
  constructor
  · intro h
    have hlist : (idText owner).toList ++ (":" ++ side.key).toList =
        (idText owner').toList ++ (":" ++ side'.key).toList := by
      simpa only [redisKey, String.toList_append] using
        congrArg String.toList h
    have hlength : (":" ++ side.key).toList.length =
        (":" ++ side'.key).toList.length := by
      cases side <;> cases side' <;> decide +kernel
    obtain ⟨howner, hside⟩ := List.append_inj' hlist hlength
    exact ⟨key_suffix_inj (String.toList_inj.mp hside),
      idText_inj.mp (String.toList_inj.mp howner)⟩
  · rintro ⟨rfl, rfl⟩
    rfl

theorem recorded_iff {owner : Int64} :
    graph.toStores.Recorded side owner member ↔
      ∃ user ∈ graph.users, user.userID = owner ∧
        member ∈ user.ids side := by
  simp [Stores.Recorded, Graph.toStores, lookup_userID, edgeIDs_toDoc]

theorem userID_change (user : UserRecord) :
    (action.change side member user).userID = user.userID := by
  cases action <;> rfl

/-- The array of the owner on the request's side is decided for the member;
nothing else about any array changes. -/
theorem mem_ids_change (user : UserRecord) (other : Side) (id : Int64)
    (owner : Int64) :
    id ∈ (if action.selects side owner member user then
        action.change side member user else user).ids other ↔
      if other = side ∧ user.userID = owner ∧ id = member then
        action.isFollow = true
      else id ∈ user.ids other := by
  by_cases howner : user.userID = owner
  · by_cases hother : other = side
    · subst hother
      cases action with
      | follow timestamp =>
          by_cases hmem : member ∈ user.ids other
          · by_cases hid : id = member
            · subst hid
              simp [Action.selects, hmem, howner, Action.isFollow]
            · simp [Action.selects, hmem, hid]
          · by_cases hid : id = member
            · subst hid
              simp [Action.selects, Action.change, hmem, howner,
                UserRecord.ids_push, Action.isFollow]
            · simp [Action.selects, Action.change, hmem, howner, hid,
                UserRecord.ids_push]
      | unfollow =>
          by_cases hid : id = member
          · subst hid
            simp [Action.selects, Action.change, howner,
              UserRecord.ids_pull, Action.isFollow]
          · simp [Action.selects, Action.change, howner, hid,
              UserRecord.ids_pull]
    · simp only [hother, false_and, if_false]
      cases action with
      | follow timestamp =>
          split
          · rw [Action.change, UserRecord.ids_push, if_neg hother]
          · rfl
      | unfollow =>
          split
          · rw [Action.change, UserRecord.ids_pull, if_neg hother]
          · rfl
  · have hselects : action.selects side owner member user = false := by
      cases action <;> simp [Action.selects, howner]
    simp [hselects, howner]

theorem mem_members_onSet (id : Int64) (set : SortedSet Int String) :
    idText id ∈ (action.onSet member set).members ↔
      if id = member then action.isFollow = true
      else idText id ∈ set.members := by
  cases action with
  | follow timestamp =>
      rw [Action.onSet, SortedSet.mem_members_addNX, idText_inj]
      by_cases hid : id = member <;> simp [hid, Action.isFollow]
  | unfollow =>
      rw [Action.onSet, SortedSet.mem_members_remove, ne_eq, idText_inj]
      by_cases hid : id = member <;> simp [hid, Action.isFollow]

structure Graph.WellFormed (graph : Graph) : Prop where
  userIDs : (graph.users.map UserRecord.userID).Nodup
  ids : ∀ user ∈ graph.users, ∀ side, (user.ids side).Nodup

theorem userIDs_command :
    (graph.command action userID followeeID record).users.map
      UserRecord.userID = graph.users.map UserRecord.userID := by
  cases record with
  | mongo side => exact map_updateFirst (fun user => userID_change user) _
  | redis side => rfl

theorem ids_change_nodup {owner : Int64} {user : UserRecord}
    (hnodup : ∀ side, (user.ids side).Nodup)
    (hselects : action.selects side owner member user) (other : Side) :
    ((action.change side member user).ids other).Nodup := by
  cases action with
  | follow timestamp =>
      simp only [Action.selects, decide_eq_true_eq] at hselects
      rw [Action.change, UserRecord.ids_push]
      split
      · exact List.nodup_append_comm.mp
          (List.nodup_cons.mpr ⟨hselects.2, hnodup side⟩)
      · exact hnodup other
  | unfollow =>
      rw [Action.change, UserRecord.ids_pull]
      split
      · exact (hnodup side).filter _
      · exact hnodup other

theorem Graph.WellFormed.command (hgood : graph.WellFormed) :
    (graph.command action userID followeeID record).WellFormed where
  userIDs := by
    rw [userIDs_command]
    exact hgood.userIDs
  ids := by
    cases record with
    | mongo side =>
        exact forall_mem_updateFirst hgood.ids fun user hmem hselects =>
          ids_change_nodup (hgood.ids user hmem) hselects
    | redis side => exact hgood.ids

theorem redis_command_of_ne {key : String} (hkey :
    ∀ side, record = .redis side →
      key ≠ redisKey side (side.owner userID followeeID)) :
    (graph.command action userID followeeID record).redis key =
      graph.redis key := by
  cases record with
  | mongo side => rfl
  | redis side => exact Function.update_of_ne (hkey side rfl) _ _

theorem recorded_command (hgood : graph.WellFormed)
    (hregistered : side.owner userID followeeID ∈
      graph.users.map UserRecord.userID)
    (side' : Side) (owner' member' : Int64) :
    (graph.command action userID followeeID
        (.mongo side)).toStores.Recorded side' owner' member' ↔
      if side' = side ∧ owner' = side.owner userID followeeID ∧
          member' = side.member userID followeeID then
        action.isFollow = true
      else graph.toStores.Recorded side' owner' member' := by
  have hselects : ∀ user, action.selects side
      (side.owner userID followeeID) (side.member userID followeeID) user →
        user.userID = side.owner userID followeeID := by
    intro user hselects
    cases action with
    | follow timestamp =>
        simp only [Action.selects, decide_eq_true_eq] at hselects
        exact hselects.1
    | unfollow => exact of_decide_eq_true hselects
  have hmap := updateFirst_eq_map
    (f := action.change side (side.member userID followeeID))
    hgood.userIDs hselects
  have huserID : ∀ user, (if action.selects side
        (side.owner userID followeeID) (side.member userID followeeID) user
      then action.change side (side.member userID followeeID) user
      else user).userID = user.userID := by
    intro user
    split
    · exact userID_change user
    · rfl
  rw [recorded_iff, recorded_iff]
  simp only [Graph.command, hmap, List.mem_map, exists_exists_and_eq_and,
    huserID, mem_ids_change]
  by_cases hsame : side' = side ∧
      owner' = side.owner userID followeeID ∧
      member' = side.member userID followeeID
  · rw [if_pos hsame]
    obtain ⟨rfl, rfl, rfl⟩ := hsame
    constructor
    · rintro ⟨user, -, howner, h⟩
      rwa [if_pos ⟨rfl, howner, rfl⟩] at h
    · intro hfollow
      obtain ⟨user, hmem, howner⟩ := List.mem_map.mp hregistered
      exact ⟨user, hmem, howner, by rwa [if_pos ⟨rfl, howner, rfl⟩]⟩
  · rw [if_neg hsame]
    refine exists_congr fun user => and_congr_right fun _ =>
      and_congr_right fun howner => ?_
    rw [if_neg]
    rintro ⟨hside, howner', hmember⟩
    exact hsame ⟨hside, howner.symm.trans howner', hmember⟩

theorem mem_redis_command (side' : Side) (owner' member' : Int64) :
    idText member' ∈ ((graph.command action userID followeeID
        (.redis side)).redis (redisKey side' owner')).members ↔
      if side' = side ∧ owner' = side.owner userID followeeID ∧
          member' = side.member userID followeeID then
        action.isFollow = true
      else idText member' ∈ (graph.redis (redisKey side' owner')).members := by
  simp only [Graph.command]
  by_cases hkey : redisKey side' owner' =
      redisKey side (side.owner userID followeeID)
  · obtain ⟨rfl, rfl⟩ := redisKey_inj.mp hkey
    simp only [Function.update_self, mem_members_onSet, true_and]
  · rw [Function.update_of_ne hkey, if_neg]
    rintro ⟨rfl, rfl, -⟩
    exact hkey rfl

/-- One command decides one record of its own pair and leaves everything else
as it was. -/
theorem holds_command (action : Action) (record : Record)
    (hgood : graph.WellFormed)
    (hregistered : ∀ side : Side, side.owner userID followeeID ∈
      graph.users.map UserRecord.userID)
    (record' : Record) (userID' followeeID' : Int64) :
    (graph.command action userID followeeID record).toStores.Holds
        userID' followeeID' record' ↔
      if record' = record ∧ userID' = userID ∧ followeeID' = followeeID then
        action.isFollow = true
      else graph.toStores.Holds userID' followeeID' record' := by
  cases record with
  | mongo side =>
      cases record' with
      | redis side' => simp [Stores.Holds, Graph.toStores, Graph.command]
      | mongo side' =>
          refine (recorded_command hgood (hregistered side) _ _ _).trans ?_
          simp only [owner_member_inj, Record.mongo.injEq]
          rfl
  | redis side =>
      cases record' with
      | mongo side' => simp [Stores.Holds, Stores.Recorded, Graph.toStores,
          Graph.command]
      | redis side' =>
          refine (mem_redis_command _ _ _).trans ?_
          simp only [owner_member_inj, Record.redis.injEq]
          rfl

end SocialNetwork.SocialGraph
