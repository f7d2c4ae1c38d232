import SocialNetwork.Registration

/-!
# Registrations that fail

One call of `RegisterUserWithId` or `RegisterUser` on its own, with every
outcome of its store commands.  The two collections are written one after the
other, and nothing takes the first write back.
-/

namespace SocialNetwork.UserService

open Json Machine Users

variable {Call : Type}

/-- The call whose step it is; an eviction is no step of a call. -/
def Label.call : Label Call → Option Call
  | .registerUserWithId i => some i
  | .registerUser i _ => some i
  | .findExisting i _ => some i
  | .insertOne i _ _ => some i
  | .insertUser i _ => some i
  | .get i _ => some i
  | .find i _ => some i
  | .sign i _ _ _ => some i
  | .set i _ => some i
  | .uploadUserMentions i => some i
  | .getMulti i _ => some i
  | .getMultiFailed i => some i
  | .decode i => some i
  | .findMentioned i _ => some i
  | .all i _ => some i
  | .evict _ => none

/-- The `InsertOne` into the user collection took effect. -/
def Inserted (labels : List (Label Call)) (i : Call) : Prop :=
  ∃ salt write, .insertOne i salt write ∈ labels ∧ write.applied = true

/-- The `InsertOne` into the social-graph collection took effect. -/
def Linked (labels : List (Label Call)) (i : Call) : Prop :=
  ∃ write, .insertUser i write ∈ labels ∧ write.applied = true

theorem inserted_concat {i : Call} {labels : List (Label Call)}
    {label : Label Call} :
    Inserted (labels ++ [label]) i ↔
      Inserted labels i ∨
        ∃ salt write, label = .insertOne i salt write ∧
          write.applied = true := by
  unfold Inserted
  simp only [List.mem_append, List.mem_singleton]
  constructor
  · rintro ⟨salt, write, hmem | hlabel, happlied⟩
    · exact .inl ⟨salt, write, hmem, happlied⟩
    · exact .inr ⟨salt, write, hlabel.symm, happlied⟩
  · rintro (⟨salt, write, hmem, happlied⟩ | ⟨salt, write, rfl, happlied⟩)
    · exact ⟨salt, write, .inl hmem, happlied⟩
    · exact ⟨salt, write, .inr rfl, happlied⟩

theorem linked_concat {i : Call} {labels : List (Label Call)}
    {label : Label Call} :
    Linked (labels ++ [label]) i ↔
      Linked labels i ∨
        ∃ write, label = .insertUser i write ∧ write.applied = true := by
  unfold Linked
  simp only [List.mem_append, List.mem_singleton]
  constructor
  · rintro ⟨write, hmem | hlabel, happlied⟩
    · exact .inl ⟨write, hmem, happlied⟩
    · exact .inr ⟨write, hlabel.symm, happlied⟩
  · rintro (⟨write, hmem, happlied⟩ | ⟨write, rfl, happlied⟩)
    · exact ⟨write, .inl hmem, happlied⟩
    · exact ⟨write, .inr rfl, happlied⟩

section Failing

variable [DecidableEq Call] {hashPwd : String → String}
  {deployment : Deployment Call} {state next : State Call} {i : Call}

/-- A command of `InsertOne` is applied or not, whatever it reports. -/
theorem step_insertOne {salt : String} {write : Write}
    (hstep : step hashPwd deployment state (.insertOne i salt write) =
      some next) :
    ∃ registration userID,
      (deployment.request i).registration = some registration ∧
      state.userID i = some userID ∧ state.call i = .inserting ∧
      next = { state with
        users :=
          if write.applied then
            state.users ++ [registration.user hashPwd userID salt]
          else state.users }.setCall i (write.andThen .inserted) := by
  simp only [step, stepInsertOne] at hstep
  split at hstep
  next registration userID hregistration huserID hinserting =>
    refine ⟨registration, userID, hregistration, huserID, hinserting, ?_⟩
    split at hstep
    next happlied =>
      rw [if_pos happlied]
      exact (Option.some.inj hstep).symm
    next happlied =>
      rw [if_neg happlied]
      exact (Option.some.inj hstep).symm
  next => cases hstep

theorem step_insertUser {write : Write}
    (hstep : step hashPwd deployment state (.insertUser i write) =
      some next) :
    ∃ userID, state.userID i = some userID ∧ state.call i = .inserted ∧
      next = { state with
        graph :=
          if write.applied then SocialGraph.InsertUser state.graph userID
          else state.graph }.setCall i (write.andThen .registered) := by
  simp only [step, stepInsertUser] at hstep
  split at hstep
  next userID huserID hinserted =>
    refine ⟨userID, huserID, hinserted, ?_⟩
    split at hstep
    next happlied =>
      rw [if_pos happlied]
      exact (Option.some.inj hstep).symm
    next happlied =>
      rw [if_neg happlied]
      exact (Option.some.inj hstep).symm
  next => cases hstep

/-- Every other step leaves the collections alone, and no call becomes
`inserted` by it. -/
theorem step_of_not_insert {label : Label Call}
    (hinsertOne : ∀ j salt write, label ≠ .insertOne j salt write)
    (hinsertUser : ∀ j write, label ≠ .insertUser j write)
    (hstep : step hashPwd deployment state label = some next) :
    next.users = state.users ∧ next.graph = state.graph ∧
      ((next.call i).stage = 3 → (state.call i).stage = 3) := by
  have hsame : ∀ {changed : State Call} {j : Call} {phase : Phase},
      changed.call = state.call → phase.stage ≠ 3 →
      ((changed.setCall j phase).call i).stage = 3 →
        (state.call i).stage = 3 := by
    intro changed j phase hcall hphase hstage
    by_cases hj : i = j
    · subst hj
      rw [State.setCall_self] at hstage
      exact absurd hstage hphase
    · rwa [changed.setCall_of_ne hj, hcall] at hstage
  cases effect_of_step hstep with
  | move _ j phase service hplain =>
      refine ⟨rfl, rfl, hsame rfl ?_⟩
      rw [stage_of_plain hplain]
      decide
  | register _ j userID service hready =>
      exact ⟨rfl, rfl, hsame rfl (by decide)⟩
  | findExisting j reply registration hregistration hregistering hnone =>
      exact ⟨rfl, rfl, hsame rfl (by decide)⟩
  | insertOne j salt write => exact absurd rfl (hinsertOne j salt write)
  | insertUser j write => exact absurd rfl (hinsertUser j write)
  | hit j entry username value hentry hvalue =>
      refine ⟨rfl, rfl, hsame rfl ?_⟩
      rw [stage_onHit]
      decide
  | document j entry username user hentry huser hname =>
      refine ⟨rfl, rfl, hsame rfl ?_⟩
      rw [stage_onDocument]
      decide
  | sign j => exact ⟨rfl, rfl, hsame rfl (by simp [Phase.stage])⟩
  | set j write =>
      refine ⟨rfl, rfl, hsame rfl ?_⟩
      cases write <;> simp [Write.andThen, Phase.stage]
  | uploadUserMentions j =>
      exact ⟨rfl, rfl, hsame rfl (by simp [Phase.stage])⟩
  | getMulti j => exact ⟨rfl, rfl, hsame rfl (by simp [Phase.stage])⟩
  | evict key => exact ⟨rfl, rfl, id⟩

/-! ## The run of one call -/

/-- What the call has done to the collections that it met. -/
inductive Progressed (hashPwd : String → String)
    (registration : Registration) (start : State Call) (i : Call)
    (labels : List (Label Call)) (state : State Call) : Prop where
  | unchanged (hinserted : ¬Inserted labels i) (hlinked : ¬Linked labels i)
      (hstage : (state.call i).stage ≠ 3)
      (husers : state.users = start.users)
      (hgraph : state.graph.collection = start.graph.collection)
  | inserted (salt : String) (userID : Int64)
      (hinserted : Inserted labels i) (hlinked : ¬Linked labels i)
      (huserID : state.userID i = some userID)
      (hstage : 3 ≤ (state.call i).stage)
      (husers : state.users =
        start.users ++ [registration.user hashPwd userID salt])
      (hgraph : state.graph.collection = start.graph.collection)
  | linked (salt : String) (userID : Int64)
      (hinserted : Inserted labels i) (hlinked : Linked labels i)
      (hstage : 4 ≤ (state.call i).stage)
      (husers : state.users =
        start.users ++ [registration.user hashPwd userID salt])
      (hgraph : state.graph.collection =
        start.graph.collection ++ [userDocument userID])

variable {registration : Registration} {start : State Call}
  {labels : List (Label Call)}

theorem Progressed.frame {label : Label Call}
    (hgood : Progressed hashPwd registration start i labels state)
    (hinsertOne : ∀ j salt write, label ≠ .insertOne j salt write)
    (hinsertUser : ∀ j write, label ≠ .insertUser j write)
    (hstep : step hashPwd deployment state label = some next) :
    Progressed hashPwd registration start i (labels ++ [label]) next := by
  obtain ⟨husers, hgraph, hthree⟩ :=
    step_of_not_insert hinsertOne hinsertUser hstep
  have hforward := forward_of_effect (effect_of_step hstep)
  have hinserted : Inserted (labels ++ [label]) i ↔ Inserted labels i := by
    rw [inserted_concat, or_iff_left]
    rintro ⟨salt, write, hlabel, -⟩
    exact hinsertOne i salt write hlabel
  have hlinked : Linked (labels ++ [label]) i ↔ Linked labels i := by
    rw [linked_concat, or_iff_left]
    rintro ⟨write, hlabel, -⟩
    exact hinsertUser i write hlabel
  cases hgood with
  | unchanged hnot hnot' hstage husers' hgraph' =>
      exact .unchanged (mt hinserted.mp hnot) (mt hlinked.mp hnot')
        (mt hthree hstage) (husers.trans husers') (by rw [hgraph, hgraph'])
  | inserted salt userID hdone hnot huserID hstage husers' hgraph' =>
      have hkept := hforward.userID i (by omega)
      exact .inserted salt userID (hinserted.mpr hdone)
        (mt hlinked.mp hnot) (hkept.trans huserID)
        (hstage.trans (hforward.stage i)) (husers.trans husers')
        (by rw [hgraph, hgraph'])
  | linked salt userID hdone hdone' hstage husers' hgraph' =>
      exact .linked salt userID (hinserted.mpr hdone)
        (hlinked.mpr hdone') (hstage.trans (hforward.stage i))
        (husers.trans husers') (by rw [hgraph, hgraph'])

theorem Progressed.insertOne {salt : String} {write : Write}
    (hregistration : (deployment.request i).registration =
      some registration)
    (hgood : Progressed hashPwd registration start i labels state)
    (hstep : step hashPwd deployment state (.insertOne i salt write) =
      some next) :
    Progressed hashPwd registration start i
      (labels ++ [.insertOne i salt write]) next := by
  obtain ⟨registration', userID, hregistration', huserID, hinserting, rfl⟩ :=
    step_insertOne hstep
  obtain rfl := Option.some.inj (hregistration'.symm.trans hregistration)
  have hlinked : Linked (labels ++ [.insertOne i salt write]) i ↔
      Linked labels i := by
    rw [linked_concat, or_iff_left]
    rintro ⟨write', hlabel, -⟩
    cases hlabel
  cases hgood with
  | unchanged hnot hnot' hstage husers hgraph =>
      by_cases happlied : write.applied = true
      · refine .inserted salt userID ?_ (mt hlinked.mp hnot') huserID ?_ ?_
          hgraph
        · exact inserted_concat.mpr (.inr ⟨salt, write, rfl, happlied⟩)
        · rw [State.setCall_self]
          exact stage_andThen write (by decide) (by decide)
        · simp only [State.setCall, happlied, if_true, husers]
      · refine .unchanged ?_ (mt hlinked.mp hnot') ?_ ?_ hgraph
        · rw [inserted_concat]
          rintro (hbefore | ⟨salt', write', hlabel, happlied'⟩)
          · exact hnot hbefore
          · cases hlabel
            exact happlied happlied'
        · rw [State.setCall_self]
          cases write with
          | done => exact absurd rfl happlied
          | failed applied => simp [Write.andThen, Phase.stage]
        · simp only [State.setCall, happlied, husers]
          rfl
  | inserted salt' userID' hdone hnot huserID' hstage husers hgraph =>
      rw [hinserting] at hstage
      exact absurd hstage (by decide)
  | linked salt' userID' hdone hdone' hstage husers hgraph =>
      rw [hinserting] at hstage
      exact absurd hstage (by decide)

theorem Progressed.insertUser {write : Write}
    (hgood : Progressed hashPwd registration start i labels state)
    (hstep : step hashPwd deployment state (.insertUser i write) =
      some next) :
    Progressed hashPwd registration start i
      (labels ++ [.insertUser i write]) next := by
  obtain ⟨userID, huserID, hinserted, rfl⟩ := step_insertUser hstep
  cases hgood with
  | unchanged hnot hnot' hstage husers hgraph =>
      rw [hinserted] at hstage
      exact absurd rfl hstage
  | inserted salt userID' hdone hnot huserID' hstage husers hgraph =>
      obtain rfl := Option.some.inj (huserID.symm.trans huserID')
      have hstage' : 4 ≤ (write.andThen .registered).stage :=
        stage_andThen write le_rfl le_rfl
      by_cases happlied : write.applied = true
      · refine .linked salt userID (inserted_concat.mpr (.inl hdone))
          (linked_concat.mpr (.inr ⟨write, rfl, happlied⟩)) ?_ husers ?_
        · rw [State.setCall_self]
          exact hstage'
        · simp only [State.setCall, happlied, if_true]
          change state.graph.collection ++ [userDocument userID] = _
          rw [hgraph]
      · refine .inserted salt userID (inserted_concat.mpr (.inl hdone)) ?_
          huserID ?_ husers ?_
        · rw [linked_concat]
          rintro (hbefore | ⟨write', hlabel, happlied'⟩)
          · exact hnot hbefore
          · cases hlabel
            exact happlied happlied'
        · rw [State.setCall_self]
          omega
        · simp only [State.setCall, happlied]
          exact hgraph
  | linked salt userID' hdone hdone' hstage husers hgraph =>
      rw [hinserted] at hstage
      exact absurd hstage (by decide)

theorem Progressed.step {label : Label Call} (hown : label.call = some i)
    (hregistration : (deployment.request i).registration =
      some registration)
    (hgood : Progressed hashPwd registration start i labels state)
    (hstep : UserService.step hashPwd deployment state label = some next) :
    Progressed hashPwd registration start i (labels ++ [label]) next := by
  cases label with
  | insertOne j salt write =>
      obtain rfl := Option.some.inj hown
      exact hgood.insertOne hregistration hstep
  | insertUser j write =>
      obtain rfl := Option.some.inj hown
      exact hgood.insertUser hstep
  | _ => exact hgood.frame (by simp) (by simp) hstep

/-- The run of one registration, from any state. -/
theorem run_progressed (hready : start.call i = .ready)
    (hregistration : (deployment.request i).registration =
      some registration)
    (hown : ∀ label ∈ labels, label.call = some i)
    (hrun : run (step hashPwd deployment) start labels = some state) :
    Progressed hashPwd registration start i labels state := by
  refine run_induction_of_labels
    (P := Progressed hashPwd registration start i) ?_ ?_ hown hrun
  · refine .unchanged ?_ ?_ ?_ rfl rfl
    · rintro ⟨salt, write, hmem, -⟩
      cases hmem
    · rintro ⟨write, hmem, -⟩
      cases hmem
    · rw [hready]
      decide
  · intro labels state label next hlabel hgood hstep
    exact hgood.step hlabel hregistration hstep

/-! ## The same registration once more -/

/-- `RegisterUserWithId`, called with healthy stores, returns nil. -/
def State.Registers (state : State Call) (hashPwd : String → String)
    (deployment : Deployment Call) (j : Call) (userID : Int64) : Prop :=
  ∃ reply salt final, reply ≠ .lost ∧ reply ≠ .failed ∧
    run (step hashPwd deployment) (state.register j userID)
      [.findExisting j reply, .insertOne j salt .done,
        .insertUser j .done] = some final ∧
    final.call j = .registered

theorem registers_iff {j : Call} (hregistration :
      (deployment.request j).registration = some registration)
    (userID : Int64) :
    state.Registers hashPwd deployment j userID ↔
      ∀ user ∈ state.users, user.username ≠ registration.username := by
  have hphase : (state.register j userID).call j = .registering :=
    State.setCall_self _ _ _
  constructor
  · rintro ⟨reply, salt, final, hlost, -, hrun, -⟩
    rw [run_cons, Option.bind_eq_some_iff] at hrun
    obtain ⟨found, hfind, hrun⟩ := hrun
    rw [run_cons, Option.bind_eq_some_iff] at hrun
    obtain ⟨inserted, hinsert, -⟩ := hrun
    obtain ⟨registration', userID', -, -, hinserting, -⟩ :=
      step_insertOne hinsert
    have hmoved : ∀ {changed : State Call} {j' : Call} {phase : Phase},
        changed.call = (state.register j userID).call →
        phase.stage ≠ 2 → (changed.setCall j' phase).call j ≠ .inserting := by
      intro changed j' phase hcall hphase' hinserting
      by_cases hj : j = j'
      · subst hj
        rw [State.setCall_self] at hinserting
        exact hphase' (Phase.stage_eq_two_iff.mpr hinserting)
      · rw [changed.setCall_of_ne hj, hcall, hphase] at hinserting
        cases hinserting
    cases effect_of_step hfind with
    | move _ j' phase service hplain =>
        refine absurd hinserting (hmoved rfl ?_)
        rw [stage_of_plain hplain]
        decide
    | register _ j' userID' service hready =>
        exact absurd hinserting
          (hmoved rfl (show Phase.registering.stage ≠ 2 by decide))
    | findExisting _ _ registration' hregistration' hregistering hnone =>
        obtain rfl :=
          Option.some.inj (hregistration'.symm.trans hregistration)
        rcases hnone with hnone | hreply
        · exact hnone
        · exact absurd hreply hlost
  · intro hnone
    have hvalid : Reply.empty.Valid state.users registration.username :=
      hnone
    refine ⟨.empty, "", ?_⟩
    simp [step, stepFindExisting, stepInsertOne, stepInsertUser,
      hregistration, hvalid, Write.applied, Write.andThen,
      State.register, State.setCall]

/-- However far a registration comes, and in particular when it returns an
error: it has left both collections as they were, and can be repeated, unless
its document was inserted; then the document stays, and the registration is
refused from then on. -/
theorem failed_registration (hready : start.call i = .ready)
    (hregistration : (deployment.request i).registration =
      some registration)
    (hown : ∀ label ∈ labels, label.call = some i)
    (hrun : run (step hashPwd deployment) start labels = some state) :
    (¬Inserted labels i →
      state.users = start.users ∧
      state.graph.collection = start.graph.collection ∧
      ∀ j userID, (deployment.request j).registration = some registration →
        (state.Registers hashPwd deployment j userID ↔
          start.Registers hashPwd deployment j userID)) ∧
    (Inserted labels i →
      (∃ salt userID,
        state.users =
          start.users ++ [registration.user hashPwd userID salt] ∧
        (¬Linked labels i →
          state.graph.collection = start.graph.collection) ∧
        (Linked labels i →
          state.graph.collection =
            start.graph.collection ++ [userDocument userID])) ∧
      ∀ j userID, (deployment.request j).registration = some registration →
        ¬state.Registers hashPwd deployment j userID) := by
  have hrefused : ∀ salt userID, state.users =
        start.users ++ [registration.user hashPwd userID salt] →
      ∀ j userID', (deployment.request j).registration =
        some registration →
        ¬state.Registers hashPwd deployment j userID' := by
    intro salt userID husers j userID' hj hregisters
    rw [registers_iff hj] at hregisters
    refine hregisters (registration.user hashPwd userID salt) ?_ rfl
    rw [husers]
    exact List.mem_append_right _ (List.mem_singleton_self _)
  cases run_progressed hready hregistration hown hrun with
  | unchanged hnot hnot' hstage husers hgraph =>
      refine ⟨fun _ => ⟨husers, hgraph, ?_⟩, fun h => absurd h hnot⟩
      intro j userID hj
      rw [registers_iff hj, registers_iff hj, husers]
  | inserted salt userID hdone hnot huserID hstage husers hgraph =>
      refine ⟨fun h => absurd hdone h, fun _ => ⟨?_, ?_⟩⟩
      · exact ⟨salt, userID, husers, fun _ => hgraph, fun h => absurd h hnot⟩
      · exact hrefused salt userID husers
  | linked salt userID hdone hdone' hstage husers hgraph =>
      refine ⟨fun h => absurd hdone h, fun _ => ⟨?_, ?_⟩⟩
      · exact ⟨salt, userID, husers, fun h => absurd hdone' h,
          fun _ => hgraph⟩
      · exact hrefused salt userID husers

end Failing

/-- One user, and a registration of another that is made twice. -/
def repeatedDeployment : Deployment ℕ where
  request
    | 0 => register "Bob" "bob" 2
    | _ => register "Ana" "ana" 1
  replica _ := 0
  machineID _ := ""

/-- The first user is registered. -/
def registeredStart : State ℕ :=
  (run (step id repeatedDeployment) State.initial
    [.registerUserWithId 0, .findExisting 0 .empty, .insertOne 0 "" .done,
      .insertUser 0 .done]).getD State.initial

/-- `InsertUser` fails. -/
def failingLabels : List (Label ℕ) :=
  [.registerUserWithId 1, .findExisting 1 .empty, .insertOne 1 "" .done,
    .insertUser 1 (.failed false)]

/-- The registration fails with its document inserted, and is refused when it
is made again. -/
theorem failed_registration_refused :
    ∃ state, run (step id repeatedDeployment) registeredStart failingLabels =
        some state ∧
      state.call 1 = .failed ∧
      state.users.map User.username = ["bob", "ana"] ∧
      state.graph.collection = registeredStart.graph.collection ∧
      ∀ userID, ¬state.Registers id repeatedDeployment 2 userID := by
  obtain ⟨state, hrun, hfailed⟩ : ∃ state,
      run (step id repeatedDeployment) registeredStart failingLabels =
        some state ∧ state.call 1 = .failed :=
    ⟨_, rfl, rfl⟩
  have hinserted : Inserted failingLabels 1 :=
    ⟨"", .done, by simp [failingLabels], rfl⟩
  have hnot : ¬Linked failingLabels 1 := by
    rintro ⟨write, hmem, happlied⟩
    simp only [failingLabels, List.mem_cons, List.not_mem_nil,
      reduceCtorEq, Label.insertUser.injEq, false_or, or_false] at hmem
    rw [hmem.2] at happlied
    cases happlied
  obtain ⟨⟨salt, userID, husers, hgraph, -⟩, hrefused⟩ :=
    (failed_registration (i := 1) rfl rfl (by decide) hrun).2 hinserted
  refine ⟨state, hrun, hfailed, ?_, hgraph hnot,
    fun userID => hrefused 2 userID rfl⟩
  rw [husers, List.map_append]
  rfl

/-- The document is inserted, and then `InsertUser` fails. -/
def halfLabels : List (Label ℕ) :=
  [.registerUserWithId 0, .findExisting 0 .empty, .insertOne 0 "" .done,
    .insertUser 0 (.failed false)]

theorem not_failed_registration :
    ¬ ∀ (hashPwd : String → String) (deployment : Deployment ℕ)
        (start state : State ℕ) (i : ℕ) (registration : Registration)
        (labels : List (Label ℕ)),
      start.call i = .ready →
      (deployment.request i).registration = some registration →
      (∀ label ∈ labels, label.call = some i) →
      run (step hashPwd deployment) start labels = some state →
      state.call i = .failed →
      state.users = start.users ∧
        state.graph.collection = start.graph.collection := by
  intro hclaim
  obtain ⟨husers, -⟩ := hclaim id oneID State.initial _ 0 _ halfLabels rfl rfl
    (by decide) rfl rfl
  have hlength := congrArg List.length husers
  revert hlength
  decide +kernel

end SocialNetwork.UserService
