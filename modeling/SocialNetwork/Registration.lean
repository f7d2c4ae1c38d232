import SocialNetwork.UserService

/-!
# Concurrent registrations

`RegisterUserWithId` looks for the username before it inserts the document,
and nothing looks for the user id.  Every document is the one that some call
has inserted, so it is unique where the id of that call is.
-/

namespace SocialNetwork.UserService

open Json Machine Users

variable {Call : Type}

/-- How far a registration is; a call that has failed is past it. -/
def Phase.stage : Phase → ℕ
  | .ready => 0
  | .registering => 1
  | .inserting => 2
  | .inserted => 3
  | _ => 4

theorem Phase.stage_eq_two_iff {phase : Phase} :
    phase.stage = 2 ↔ phase = .inserting := by
  cases phase with
  | inserting => simp [Phase.stage]
  | _ => simp [Phase.stage]

theorem Phase.stage_le (phase : Phase) : phase.stage ≤ 4 := by
  cases phase with
  | _ => simp [Phase.stage]

instance (phase : Phase) : Decidable (phase = .inserting) :=
  decidable_of_iff (phase.stage = 2) Phase.stage_eq_two_iff

/-- The request registers this username. -/
def Deployment.Registers (deployment : Deployment Call) (i : Call)
    (username : String) : Prop :=
  (deployment.request i).registration.map Registration.username =
    some username

instance (deployment : Deployment Call) (i : Call) (username : String) :
    Decidable (deployment.Registers i username) := by
  unfold Deployment.Registers
  infer_instance

/-- The call is between its `Find` and its `InsertOne`. -/
def State.Inserting (state : State Call) (deployment : Deployment Call)
    (username : String) (i : Call) : Prop :=
  state.call i = .inserting ∧ deployment.Registers i username

instance (state : State Call) (deployment : Deployment Call)
    (username : String) (i : Call) :
    Decidable (state.Inserting deployment username i) := by
  unfold State.Inserting
  infer_instance

/-- No two registrations of the username are there at once. -/
def State.Alone (state : State Call) (deployment : Deployment Call)
    (username : String) : Prop :=
  ∀ i j, state.Inserting deployment username i →
    state.Inserting deployment username j → i = j

instance [Fintype Call] [DecidableEq Call] (state : State Call)
    (deployment : Deployment Call) (username : String) :
    Decidable (state.Alone deployment username) := by
  unfold State.Alone
  infer_instance

/-- No two calls register under the id. -/
def State.Chosen (state : State Call) (userID : Int64) : Prop :=
  ∀ i j, state.userID i = some userID → state.userID j = some userID → i = j

/-! ## Progress -/

section Progress

variable [DecidableEq Call] {hashPwd : String → String}
  {deployment : Deployment Call} {state next : State Call}

theorem stage_andThen (write : Write) {phase : Phase} {n : ℕ} (hn : n ≤ 4)
    (hphase : n ≤ phase.stage) : n ≤ (write.andThen phase).stage := by
  cases write with
  | done => exact hphase
  | failed applied => exact hn

theorem stage_of_plain {phase : Phase} (hplain : phase.Plain) :
    phase.stage = 4 := by
  cases phase with
  | ready => exact hplain.elim
  | registering => exact hplain.elim
  | inserting => exact hplain.elim
  | inserted => exact hplain.elim
  | _ => rfl

theorem stage_onHit (request : Request) (value : Json) :
    (request.onHit value).stage = 4 := by
  cases request with
  | login username password =>
      simp only [Request.onHit]
      split <;> rfl
  | getUserId username =>
      simp only [Request.onHit]
      split <;> rfl
  | uploadCreatorWithUsername username =>
      simp only [Request.onHit]
      split <;> rfl
  | _ => rfl

theorem stage_onDocument (request : Request) (user : User) :
    (request.onDocument user).stage = 4 := by
  cases request with
  | _ => rfl

/-- No call goes back, and an id is given at the start. -/
structure Forward (state next : State Call) : Prop where
  stage : ∀ i, (state.call i).stage ≤ (next.call i).stage
  userID : ∀ i, 1 ≤ (state.call i).stage → next.userID i = state.userID i

theorem Forward.setCall {changed : State Call} {i : Call} {phase : Phase}
    (hcall : changed.call = state.call)
    (huserID : changed.userID = state.userID)
    (hstage : (state.call i).stage ≤ phase.stage) :
    Forward state (changed.setCall i phase) where
  stage j := by
    by_cases hj : j = i
    · subst hj
      rw [State.setCall_self]
      exact hstage
    · rw [changed.setCall_of_ne hj, hcall]
  userID j _ := congrFun huserID j

theorem forward_of_effect {label : Label Call}
    (heffect : Effect hashPwd deployment state label next) :
    Forward state next := by
  cases heffect with
  | move _ i phase service hplain =>
      refine Forward.setCall rfl rfl ?_
      rw [stage_of_plain hplain]
      exact Phase.stage_le _
  | register _ i userID service hready =>
      refine ⟨(Forward.setCall rfl rfl ?_).stage, ?_⟩
      · rw [hready]
        decide
      · intro j hj
        have hne : j ≠ i := by
          intro h
          rw [h, hready] at hj
          exact absurd hj (by decide)
        exact Function.update_of_ne hne _ _
  | findExisting i reply registration hregistration hregistering hnone =>
      refine Forward.setCall rfl rfl ?_
      rw [hregistering]
      decide
  | insertOne i salt write registration userID hregistration huserID
      hinserting =>
      refine Forward.setCall rfl rfl ?_
      rw [hinserting]
      exact stage_andThen write (by decide) (by decide)
  | insertUser i write userID huserID hinserted =>
      refine Forward.setCall rfl rfl ?_
      rw [hinserted]
      exact stage_andThen write (by decide) (by decide)
  | hit i entry username value hentry hvalue =>
      refine Forward.setCall rfl rfl ?_
      rw [stage_onHit]
      exact Phase.stage_le _
  | document i entry username user hentry huser hname =>
      refine Forward.setCall rfl rfl ?_
      rw [stage_onDocument]
      exact Phase.stage_le _
  | sign i timestamp expiresAt username password info hrequest hchecking
      hpassword =>
      exact Forward.setCall rfl rfl (Phase.stage_le _)
  | set i write entry username value result hentry hcaching =>
      refine Forward.setCall rfl rfl ?_
      exact (Phase.stage_le _).trans
        (stage_andThen write le_rfl le_rfl)
  | uploadUserMentions i usernames =>
      exact Forward.setCall rfl rfl (Phase.stage_le _)
  | getMulti i index key rest rest' result hfetching =>
      exact Forward.setCall rfl rfl (Phase.stage_le _)
  | evict key => exact ⟨fun _ => le_rfl, fun _ _ => rfl⟩

end Progress

/-! ## User ids -/

def userDocument (userID : Int64) : Bson.Document :=
  [("user_id", .scalar (.int64 userID)), ("followers", .array []),
    ("followees", .array [])]

theorem length_find_userDocument (ids : List Int64) (userID : Int64) :
    (Bson.find (.eq "user_id" (.int64 userID))
      (ids.map userDocument)).length = ids.count userID := by
  rw [Bson.find, ← List.countP_eq_length_filter, List.countP_map,
    List.count_eq_countP]
  apply List.countP_congr
  intro id _
  simp [userDocument, Bson.Filter.matches, Bson.Value.isScalar]

/-- Each id was written by a call of its own, which is past the stage. -/
def WrittenBy (state : State Call) (stage : ℕ) (ids : List Int64) : Prop :=
  ∃ calls : List Call, calls.Nodup ∧
    (∀ i ∈ calls, stage ≤ (state.call i).stage) ∧
    ids.map some = calls.map state.userID

structure IDInv (state : State Call) : Prop where
  users : WrittenBy state 3 (state.users.map User.userID)
  graph : ∃ ids, state.graph.collection = ids.map userDocument ∧
    WrittenBy state 4 ids

section UserIDs

variable {hashPwd : String → String} {deployment : Deployment Call}
  {state next : State Call} {stage : ℕ} {ids : List Int64}

theorem Forward.map_userID (hforward : Forward state next)
    {calls : List Call} (hcalls : ∀ i ∈ calls, 1 ≤ (state.call i).stage) :
    calls.map state.userID = calls.map next.userID := by
  apply List.map_congr_left
  intro i hi
  exact (hforward.userID i (hcalls i hi)).symm

theorem WrittenBy.forward (h : WrittenBy state stage ids)
    (hstage : 1 ≤ stage) (hforward : Forward state next) :
    WrittenBy next stage ids := by
  obtain ⟨calls, hnodup, hpast, hids⟩ := h
  refine ⟨calls, hnodup, ?_, ?_⟩
  · intro i hi
    exact (hpast i hi).trans (hforward.stage i)
  · rw [hids]
    exact hforward.map_userID fun i hi => hstage.trans (hpast i hi)

theorem WrittenBy.concat (h : WrittenBy state stage ids)
    (hstage : 1 ≤ stage) (hforward : Forward state next) {i : Call}
    {userID : Int64} (hbefore : (state.call i).stage < stage)
    (hafter : stage ≤ (next.call i).stage)
    (huserID : next.userID i = some userID) :
    WrittenBy next stage (ids ++ [userID]) := by
  obtain ⟨calls, hnodup, hpast, hids⟩ := h
  have hnew : i ∉ calls := fun hi => absurd (hpast i hi) (by omega)
  have hsame := hforward.map_userID fun i hi => hstage.trans (hpast i hi)
  refine ⟨calls ++ [i], ?_, ?_, ?_⟩
  · exact List.nodup_append'.mpr ⟨hnodup, List.nodup_singleton i,
      List.disjoint_singleton.mpr hnew⟩
  · intro j hj
    rcases List.mem_append.mp hj with hj | hj
    · exact (hpast j hj).trans (hforward.stage j)
    · rw [List.mem_singleton.mp hj]
      exact hafter
  · rw [List.map_append, List.map_append, hids, hsame, List.map_singleton,
      List.map_singleton, huserID]

/-- An id that one call has chosen was written at most once. -/
theorem WrittenBy.count_le_one (h : WrittenBy state stage ids)
    {userID : Int64} (hchosen : state.Chosen userID) :
    ids.count userID ≤ 1 := by
  obtain ⟨calls, hnodup, -, hids⟩ := h
  have hcount : ids.count userID =
      (calls.filter fun i => state.userID i = some userID).length := by
    rw [← List.count_map_of_injective ids some (Option.some_injective _),
      hids, List.count_eq_countP, List.countP_map,
      List.countP_eq_length_filter]
    congr 2
    funext i
    exact beq_eq_decide _ _
  classical
  rw [hcount, ← List.toFinset_card_of_nodup (hnodup.filter _),
    Finset.card_le_one]
  intro i hi j hj
  simp only [List.mem_toFinset, List.mem_filter, decide_eq_true_eq] at hi hj
  exact hchosen i j hi.2 hj.2

theorem IDInv.initial : IDInv (State.initial : State Call) where
  users := ⟨[], List.nodup_nil, by simp, rfl⟩
  graph := ⟨[], rfl, [], List.nodup_nil, by simp, rfl⟩

theorem IDInv.forward (hgood : IDInv state) (hforward : Forward state next)
    (husers : next.users = state.users) (hgraph : next.graph = state.graph) :
    IDInv next where
  users := by
    rw [husers]
    exact hgood.users.forward (by decide) hforward
  graph := by
    obtain ⟨ids, hids, hwritten⟩ := hgood.graph
    rw [hgraph]
    exact ⟨ids, hids, hwritten.forward (by decide) hforward⟩

variable [DecidableEq Call]

theorem IDInv.step (hgood : IDInv state) {label : Label Call}
    (hstep : UserService.step hashPwd deployment state label = some next) :
    IDInv next := by
  have heffect := effect_of_step hstep
  have hforward := forward_of_effect heffect
  obtain ⟨ids, hids, hwritten⟩ := hgood.graph
  cases heffect with
  | insertOne i salt write registration userID hregistration huserID
      hinserting =>
      refine ⟨?_, ids, hids, hwritten.forward (by decide) hforward⟩
      have hbefore : (state.call i).stage < 3 := by
        rw [hinserting]
        decide
      have hafter : 3 ≤ (write.andThen .inserted).stage :=
        stage_andThen write (by decide) (by decide)
      have hnext := hgood.users.concat (by decide) hforward hbefore
        (by rwa [State.setCall_self]) huserID
      change WrittenBy _ 3 ((state.users ++ [_]).map User.userID)
      rw [List.map_append]
      exact hnext
  | insertUser i write userID huserID hinserted =>
      refine ⟨hgood.users.forward (by decide) hforward, ids ++ [userID],
        ?_, ?_⟩
      · change state.graph.collection ++ [userDocument userID] = _
        rw [hids, List.map_append, List.map_singleton]
      · have hbefore : (state.call i).stage < 4 := by
          rw [hinserted]
          decide
        have hafter : 4 ≤ (write.andThen .registered).stage :=
          stage_andThen write (by decide) (by decide)
        exact hwritten.concat (by decide) hforward hbefore
          (by rwa [State.setCall_self]) huserID
  | _ => exact hgood.forward hforward rfl rfl

end UserIDs

/-! ## Usernames -/

structure UsernameInv (deployment : Deployment Call) (username : String)
    (state : State Call) : Prop where
  count : (state.users.map User.username).count username ≤ 1
  fresh : ∀ i, state.Inserting deployment username i →
    username ∉ state.users.map User.username

section Usernames

variable {hashPwd : String → String} {deployment : Deployment Call}
  {username : String} {state next : State Call}

theorem UsernameInv.initial :
    UsernameInv deployment username State.initial where
  count := Nat.zero_le 1
  fresh _ hinserting := nomatch hinserting.1

/-- No other call begins to insert. -/
theorem UsernameInv.mono (hgood : UsernameInv deployment username state)
    (husers : next.users = state.users)
    (hcall : ∀ i, next.call i = .inserting → state.call i = .inserting) :
    UsernameInv deployment username next where
  count := by
    rw [husers]
    exact hgood.count
  fresh i hinserting := by
    rw [husers]
    exact hgood.fresh i ⟨hcall i hinserting.1, hinserting.2⟩

variable [DecidableEq Call]

theorem setCall_inserting {i j : Call} {phase : Phase}
    (hstage : 3 ≤ phase.stage ∨ phase = .registering)
    (hcall : (state.setCall i phase).call j = .inserting) :
    j ≠ i ∧ state.call j = .inserting := by
  have hne : j ≠ i := by
    rintro rfl
    rw [State.setCall_self] at hcall
    subst hcall
    rcases hstage with hstage | hstage
    · exact absurd hstage (by decide)
    · cases hstage
  rw [state.setCall_of_ne hne] at hcall
  exact ⟨hne, hcall⟩

theorem UsernameInv.setCall (hgood : UsernameInv deployment username state)
    {changed : State Call} {i : Call} {phase : Phase}
    (husers : changed.users = state.users)
    (hcall : changed.call = state.call)
    (hstage : 3 ≤ phase.stage ∨ phase = .registering) :
    UsernameInv deployment username (changed.setCall i phase) := by
  refine UsernameInv.mono hgood ?_ ?_
  · exact husers
  · intro j hj
    rw [← hcall]
    exact (setCall_inserting hstage hj).2

theorem UsernameInv.findExisting
    (hgood : UsernameInv deployment username state) {i : Call}
    {registration : Registration}
    (hregistration : (deployment.request i).registration =
      some registration)
    (hnone : registration.username = username →
      ∀ user ∈ state.users, user.username ≠ registration.username) :
    UsernameInv deployment username (state.setCall i .inserting) where
  count := hgood.count
  fresh j hinserting := by
    by_cases hj : j = i
    · subst hj
      have hname : registration.username = username := by
        have hregisters := hinserting.2
        rw [Deployment.Registers, hregistration, Option.map_some,
          Option.some.injEq] at hregisters
        exact hregisters
      intro hmem
      obtain ⟨user, huser, hsame⟩ := List.mem_map.mp hmem
      exact hnone hname user huser (hsame.trans hname.symm)
    · apply hgood.fresh j
      exact ⟨(state.setCall_of_ne hj _).symm.trans hinserting.1,
        hinserting.2⟩

theorem UsernameInv.insertOne
    (hgood : UsernameInv deployment username state)
    (halone : state.Alone deployment username) {i : Call}
    {registration : Registration} {user : User} {phase : Phase}
    (hregistration : (deployment.request i).registration =
      some registration)
    (huser : user.username = registration.username)
    (hinserting : state.call i = .inserting) (hstage : 3 ≤ phase.stage) :
    UsernameInv deployment username
      ({ state with users := state.users ++ [user] }.setCall i phase) := by
  have hregisters : deployment.Registers i user.username := by
    rw [Deployment.Registers, hregistration, Option.map_some, huser]
  by_cases hname : user.username = username
  · subst hname
    have hthere : state.Inserting deployment user.username i :=
      ⟨hinserting, hregisters⟩
    refine ⟨?_, ?_⟩
    · change ((state.users ++ [user]).map User.username).count _ ≤ 1
      rw [List.map_append, List.count_append,
        List.count_eq_zero.mpr (hgood.fresh i hthere)]
      simp
    · intro j hj
      obtain ⟨hne, hcall⟩ := setCall_inserting (.inl hstage) hj.1
      exact absurd (halone j i ⟨hcall, hj.2⟩ hthere) hne
  · refine ⟨?_, ?_⟩
    · change ((state.users ++ [user]).map User.username).count _ ≤ 1
      rw [List.map_append, List.count_append]
      simpa [List.count_singleton, hname] using hgood.count
    · intro j hj hmem
      obtain ⟨hne, hcall⟩ := setCall_inserting (.inl hstage) hj.1
      apply hgood.fresh j ⟨hcall, hj.2⟩
      change username ∈ (state.users ++ [user]).map User.username at hmem
      rw [List.map_append, List.map_singleton, List.mem_append,
        List.mem_singleton] at hmem
      exact hmem.resolve_right fun h => hname h.symm

theorem UsernameInv.step (hgood : UsernameInv deployment username state)
    (halone : state.Alone deployment username) {label : Label Call}
    (hlost : ∀ i, deployment.Registers i username →
      label ≠ .findExisting i .lost)
    (hstep : UserService.step hashPwd deployment state label = some next) :
    UsernameInv deployment username next := by
  cases effect_of_step hstep with
  | move _ i phase service hplain =>
      exact hgood.setCall rfl rfl (.inl (by rw [stage_of_plain hplain]; decide))
  | register _ i userID service hready =>
      exact hgood.setCall rfl rfl (.inr rfl)
  | findExisting i reply registration hregistration hregistering hnone =>
      apply hgood.findExisting hregistration
      intro hname
      rcases hnone with hnone | hnone
      · exact hnone
      · have hregisters : deployment.Registers i username := by
          rw [Deployment.Registers, hregistration, Option.map_some, hname]
        exact absurd (hnone ▸ rfl) (hlost i hregisters)
  | insertOne i salt write registration userID hregistration huserID
      hinserting =>
      exact hgood.insertOne halone hregistration rfl hinserting
        (stage_andThen write (by decide) (by decide))
  | insertUser i write userID huserID hinserted =>
      exact hgood.setCall rfl rfl
        (.inl (stage_andThen write (by decide) (by decide)))
  | hit i entry username' value hentry hvalue =>
      exact hgood.setCall rfl rfl (.inl (by rw [stage_onHit]; decide))
  | document i entry username' user hentry huser hname =>
      exact hgood.setCall rfl rfl (.inl (by rw [stage_onDocument]; decide))
  | sign i timestamp expiresAt username' password info hrequest hchecking
      hpassword =>
      exact hgood.setCall rfl rfl (.inl (by simp [Phase.stage]))
  | set i write entry username' value result hentry hcaching =>
      exact hgood.setCall rfl rfl
        (.inl (stage_andThen write (by decide) (by simp [Phase.stage])))
  | uploadUserMentions i usernames =>
      exact hgood.setCall rfl rfl (.inl (by simp [Phase.stage]))
  | getMulti i index key rest rest' result hfetching =>
      exact hgood.setCall rfl rfl (.inl (by simp [Phase.stage]))
  | evict key => exact ⟨hgood.count, hgood.fresh⟩

theorem UsernameInv.of_run {labels : List (Label Call)}
    (halone : ∀ before middle, before <+: labels →
      run (UserService.step hashPwd deployment) State.initial before =
        some middle → middle.Alone deployment username)
    (hlost : ∀ i, deployment.Registers i username →
      .findExisting i .lost ∉ labels)
    (hrun : run (UserService.step hashPwd deployment) State.initial labels =
      some state) :
    UsernameInv deployment username state := by
  revert halone hlost
  refine Machine.run_induction (P := fun labels state =>
    (∀ before middle, before <+: labels →
      run (UserService.step hashPwd deployment) State.initial before =
        some middle → middle.Alone deployment username) →
    (∀ i, deployment.Registers i username →
      .findExisting i .lost ∉ labels) →
    UsernameInv deployment username state) ?_ ?_ hrun
  · intro _ _
    exact UsernameInv.initial
  · intro labels state label next hrun ih hstep halone hlost
    have hshorter : labels <+: labels ++ [label] := List.prefix_append _ _
    have hgood : UsernameInv deployment username state := by
      apply ih
      · intro before middle hbefore
        exact halone before middle (hbefore.trans hshorter)
      · intro i hregisters hmem
        exact hlost i hregisters (hshorter.subset hmem)
    apply hgood.step (halone labels state hshorter hrun) _ hstep
    intro i hregisters hlabel
    apply hlost i hregisters
    rw [hlabel]
    exact List.mem_append_right _ List.mem_cons_self

end Usernames

/-- A username under which registrations do not overlap, with no lost
`Find`, has one document, and an id under which one call registers has one
document in each collection. -/
theorem registration_unique [DecidableEq Call] {hashPwd : String → String}
    {deployment : Deployment Call} {labels : List (Label Call)}
    {state : State Call}
    (hrun : run (step hashPwd deployment) State.initial labels =
      some state) :
    (∀ username,
      (∀ before middle, before <+: labels →
        run (step hashPwd deployment) State.initial before = some middle →
        middle.Alone deployment username) →
      (∀ i, deployment.Registers i username →
        .findExisting i .lost ∉ labels) →
      (state.users.map User.username).count username ≤ 1) ∧
    ∀ userID, state.Chosen userID →
      (state.users.map User.userID).count userID ≤ 1 ∧
      (Bson.find (.eq "user_id" (.int64 userID))
        state.graph.collection).length ≤ 1 := by
  constructor
  · intro username halone hlost
    exact (UsernameInv.of_run halone hlost hrun).count
  · intro userID hchosen
    have hgood : IDInv state := Machine.run_invariant (P := IDInv)
      IDInv.initial (fun _ _ _ h hstep => h.step hstep) hrun
    obtain ⟨ids, hids, hwritten⟩ := hgood.graph
    refine ⟨hgood.users.count_le_one hchosen, ?_⟩
    rw [hids, length_find_userDocument]
    exact hwritten.count_le_one hchosen

def register (firstName username : String) (userID : Int64) : Request :=
  .registerUserWithId ⟨firstName, "", username, ""⟩ userID

/-- The second registration starts when the first one has returned. -/
def sequentialLabels (Call : Type) (i j : Call) : List (Label Call) :=
  [.registerUserWithId i, .findExisting i .empty, .insertOne i "" .done,
    .insertUser i .done, .registerUserWithId j, .findExisting j .empty,
    .insertOne j "" .done, .insertUser j .done]

/-- Two registrations of one username, and one of another. -/
def refusedDeployment : Deployment (Option Bool) where
  request
    | some false => register "Ana" "ana" 1
    | some true => register "Eva" "ana" 3
    | none => register "Bob" "bob" 2
  replica _ := 0
  machineID _ := ""

/-- The registrations follow each other, and the second one is refused. -/
def refusingLabels : List (Label (Option Bool)) :=
  [.registerUserWithId (some false), .findExisting (some false) .empty,
    .insertOne (some false) "" .done, .insertUser (some false) .done,
    .registerUserWithId (some true),
    .findExisting (some true) (.document ⟨1, "Ana", "", "ana", "", ""⟩),
    .registerUserWithId none, .findExisting none .empty,
    .insertOne none "" .done, .insertUser none .done]

theorem registration_unique_sequential :
    ∃ state, run (step id refusedDeployment) State.initial
        refusingLabels = some state ∧
      state.call (some true) = .failed ∧
      (state.users.map User.username).count "ana" ≤ 1 ∧
      (state.users.map User.userID).count 1 ≤ 1 := by
  obtain ⟨state, hrun, hfailed, h1, h2⟩ : ∃ state,
      run (step id refusedDeployment) State.initial refusingLabels =
        some state ∧ state.call (some true) = .failed ∧
        state.userID (some true) = some 3 ∧ state.userID none = some 2 :=
    ⟨_, rfl, rfl, rfl, rfl⟩
  obtain ⟨hnames, hids⟩ := registration_unique hrun
  have halone : ∀ before ∈ refusingLabels.inits,
      (run (step id refusedDeployment) State.initial before).all
        (fun middle => middle.Alone refusedDeployment "ana") := by
    decide +kernel
  refine ⟨state, hrun, hfailed, hnames "ana" ?_ ?_, (hids 1 ?_).1⟩
  · intro before middle hbefore hmiddle
    have hall := halone before ((List.mem_inits _ _).mpr hbefore)
    rw [hmiddle] at hall
    exact of_decide_eq_true hall
  · intro i _
    revert i
    decide
  · intro i j hi hj
    have honly : ∀ call, state.userID call = some 1 → call = some false := by
      intro call hcall
      cases call with
      | none => simp [h2] at hcall
      | some second =>
          cases second with
          | false => rfl
          | true => simp [h1] at hcall
    rw [honly i hi, honly j hj]

def oneID : Deployment ℕ where
  request
    | 0 => register "Ana" "ana" 1
    | _ => register "Bob" "bob" 1
  replica _ := 0
  machineID _ := ""

def oneUsername : Deployment ℕ where
  request
    | 0 => register "Ana" "ana" 1
    | _ => register "Ana" "ana" 2
  replica _ := 0
  machineID _ := ""

/-- Both registrations look for the username before either inserts it. -/
def overlappingLabels : List (Label ℕ) :=
  [.registerUserWithId 0, .registerUserWithId 1, .findExisting 0 .empty,
    .findExisting 1 .empty, .insertOne 0 "" .done, .insertOne 1 "" .done]

theorem not_registration_unique :
    (¬ ∀ (hashPwd : String → String) (deployment : Deployment ℕ)
        (labels : List (Label ℕ)) (state : State ℕ) (username : String),
      run (step hashPwd deployment) State.initial labels = some state →
        (state.users.map User.username).count username ≤ 1) ∧
    (¬ ∀ (hashPwd : String → String) (deployment : Deployment ℕ)
        (labels : List (Label ℕ)) (state : State ℕ) (userID : Int64),
      run (step hashPwd deployment) State.initial labels = some state →
        (state.users.map User.userID).count userID ≤ 1) ∧
    ¬ ∀ (hashPwd : String → String) (deployment : Deployment ℕ)
        (labels : List (Label ℕ)) (state : State ℕ) (userID : Int64),
      run (step hashPwd deployment) State.initial labels = some state →
        (Bson.find (.eq "user_id" (.int64 userID))
          state.graph.collection).length ≤ 1 := by
  have hrace : (run (step id oneUsername) State.initial
      overlappingLabels).any fun state =>
        (state.users.map User.username).count "ana" = 2 := by
    decide +kernel
  have hids : (run (step id oneID) State.initial
      (sequentialLabels ℕ 0 1)).any fun state =>
        (state.users.map User.userID).count 1 = 2 ∧
          (Bson.find (.eq "user_id" (.int64 1))
            state.graph.collection).length = 2 := by
    decide +kernel
  obtain ⟨raced, hrun, hrace⟩ := (Option.any_eq_true _ _).mp hrace
  obtain ⟨shared, hrun', hids⟩ := (Option.any_eq_true _ _).mp hids
  rw [decide_eq_true_eq] at hrace hids
  refine ⟨?_, ?_, ?_⟩
  · intro hclaim
    have hle := hclaim id oneUsername overlappingLabels raced "ana" hrun
    omega
  · intro hclaim
    have hle := hclaim id oneID (sequentialLabels ℕ 0 1) shared 1 hrun'
    omega
  · intro hclaim
    have hle := hclaim id oneID (sequentialLabels ℕ 0 1) shared 1 hrun'
    omega

end SocialNetwork.UserService
