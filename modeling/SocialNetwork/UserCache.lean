import SocialNetwork.UserService

/-!
# The shared user cache

An entry always holds what a registered document says of its user, whatever
the order of the calls, so neither a login nor an id that is read from it can
be wrong.
-/

namespace SocialNetwork.UserService

open Json Machine Users

variable {Call : Type}

/-- The value is the one that a document of this user gives the entry. -/
def TrueEntry (users : List User) (entry : Entry) (username : String)
    (value : Json) : Prop :=
  ∃ user ∈ users, user.username = username ∧ value = entry.value user

/-- A document of the user accepts the password and has this id. -/
def Accepts (hashPwd : String → String) (users : List User)
    (username password : String) (userID : String) : Prop :=
  ∃ user ∈ users, user.username = username ∧
    user.pwdHashed = hashPwd (password ++ user.salt) ∧
    userID = idText user.userID

def Registered (users : List User) (username : String) (userID : Int64) :
    Prop :=
  ∃ user ∈ users, user.username = username ∧ user.userID = userID

def Sound (hashPwd : String → String) (users : List User) :
    Request → Result → Prop
  | .login username password, .token claims =>
      claims.username = username ∧
        Accepts hashPwd users username password claims.userID
  | .getUserId username, .userID userID => Registered users username userID
  | .uploadCreatorWithUsername username, .creator creator =>
      creator.username = username ∧
        Registered users username creator.userID
  | _, _ => False

/-- The values that `GetMulti` has returned so far. -/
def Fetched (users : List User) (result : Memcached) : Prop :=
  ∀ username value, result (userIDKey username) = some value →
    TrueEntry users .userID username value

def Good (hashPwd : String → String) (users : List User)
    (request : Request) : Phase → Prop
  | .checking info =>
      ∃ username, request.entry = some (.login, username) ∧
        ∃ user ∈ users, user.username = username ∧ info = loginInfo user
  | .caching value result =>
      (∃ entry username, request.entry = some (entry, username) ∧
        TrueEntry users entry username value) ∧
      Sound hashPwd users request result
  | .returned result => Sound hashPwd users request result
  | .fetching _ result => Fetched users result
  | _ => True

section Users

variable {hashPwd : String → String} {users users' : List User}
  {request : Request}

theorem TrueEntry.mono {entry : Entry} {username : String} {value : Json}
    (h : TrueEntry users entry username value) (hsubset : users ⊆ users') :
    TrueEntry users' entry username value := by
  obtain ⟨user, huser, hentry⟩ := h
  exact ⟨user, hsubset huser, hentry⟩

theorem Registered.mono {username : String} {userID : Int64}
    (h : Registered users username userID) (hsubset : users ⊆ users') :
    Registered users' username userID := by
  obtain ⟨user, huser, hid⟩ := h
  exact ⟨user, hsubset huser, hid⟩

theorem Sound.mono {result : Result} (h : Sound hashPwd users request result)
    (hsubset : users ⊆ users') : Sound hashPwd users' request result := by
  cases result with
  | token claims =>
      cases request with
      | login username password =>
          obtain ⟨hname, user, huser, haccepts⟩ := h
          exact ⟨hname, user, hsubset huser, haccepts⟩
      | _ => exact h.elim
  | userID userID =>
      cases request with
      | getUserId username => exact Registered.mono h hsubset
      | _ => exact h.elim
  | creator creator =>
      cases request with
      | uploadCreatorWithUsername username =>
          exact ⟨h.1, h.2.mono hsubset⟩
      | _ => exact h.elim

/-- Documents are only added, and what a call holds stays good. -/
theorem Good.mono {phase : Phase} (h : Good hashPwd users request phase)
    (hsubset : users ⊆ users') : Good hashPwd users' request phase := by
  cases phase with
  | checking info =>
      obtain ⟨username, hentry, user, huser, hinfo⟩ := h
      exact ⟨username, hentry, user, hsubset huser, hinfo⟩
  | caching value result =>
      obtain ⟨⟨entry, username, hentry, hvalue⟩, hsound⟩ := h
      exact ⟨⟨entry, username, hentry, hvalue.mono hsubset⟩,
        hsound.mono hsubset⟩
  | returned result => exact Sound.mono h hsubset
  | fetching rest result =>
      intro username value hvalue
      exact (h username value hvalue).mono hsubset
  | _ => trivial

/-! ## Replies -/

theorem good_onHit {entry : Entry} {username : String} {value : Json}
    (hentry : request.entry = some (entry, username))
    (hvalue : TrueEntry users entry username value) :
    Good hashPwd users request (request.onHit value) := by
  obtain ⟨user, huser, hname, rfl⟩ := hvalue
  cases request with
  | login username' password =>
      obtain ⟨rfl, rfl⟩ : Entry.login = entry ∧ username' = username := by
        simpa [Request.entry] using hentry
      simp only [Request.onHit, Entry.value, unmarshal_marshal]
      exact ⟨username', rfl, user, huser, hname, rfl⟩
  | getUserId username' =>
      obtain ⟨rfl, rfl⟩ : Entry.userID = entry ∧ username' = username := by
        simpa [Request.entry] using hentry
      simp only [Request.onHit, Entry.value, unmarshal_marshal]
      exact ⟨user, huser, hname, rfl⟩
  | uploadCreatorWithUsername username' =>
      obtain ⟨rfl, rfl⟩ : Entry.userID = entry ∧ username' = username := by
        simpa [Request.entry] using hentry
      simp only [Request.onHit, Entry.value, unmarshal_marshal]
      exact ⟨rfl, user, huser, hname, rfl⟩
  | _ => cases hentry

theorem good_onDocument {entry : Entry} {username : String} {user : User}
    (hentry : request.entry = some (entry, username)) (huser : user ∈ users)
    (hname : user.username = username) :
    Good hashPwd users request (request.onDocument user) := by
  cases request with
  | login username' password =>
      obtain ⟨rfl, rfl⟩ : Entry.login = entry ∧ username' = username := by
        simpa [Request.entry] using hentry
      exact ⟨username', rfl, user, huser, hname, rfl⟩
  | getUserId username' =>
      obtain ⟨rfl, rfl⟩ : Entry.userID = entry ∧ username' = username := by
        simpa [Request.entry] using hentry
      exact ⟨⟨.userID, username', rfl, user, huser, hname, rfl⟩,
        user, huser, hname, rfl⟩
  | uploadCreatorWithUsername username' =>
      obtain ⟨rfl, rfl⟩ : Entry.userID = entry ∧ username' = username := by
        simpa [Request.entry] using hentry
      exact ⟨⟨.userID, username', rfl, user, huser, hname, rfl⟩,
        rfl, user, huser, hname, rfl⟩
  | _ => cases hentry

theorem good_of_plain {phase : Phase} (hplain : phase.Plain) :
    Good hashPwd users request phase := by
  cases phase with
  | checking info => exact hplain.elim
  | caching value result => exact hplain.elim
  | returned result => exact hplain.elim
  | fetching rest result => exact hplain.elim
  | _ => trivial

theorem good_andThen {phase : Phase} (write : Write)
    (h : Good hashPwd users request phase) :
    Good hashPwd users request (write.andThen phase) := by
  cases write with
  | done => exact h
  | failed applied => trivial

end Users

/-! ## The invariant -/

/-- The entry was written for this user and this purpose. -/
def Written (deployment : Deployment Call) (labels : List (Label Call))
    (entry : Entry) (username : String) : Prop :=
  ∃ i write, .set i write ∈ labels ∧
    (deployment.request i).entry = some (entry, username)

structure CacheInv (hashPwd : String → String) (deployment : Deployment Call)
    (labels : List (Label Call)) (state : State Call) : Prop where
  entries : ∀ key value, state.cache key = some value →
    ∃ entry username, entry.key username = key ∧
      TrueEntry state.users entry username value ∧
      Written deployment labels entry username
  call : ∀ i,
    Good hashPwd state.users (deployment.request i) (state.call i)

section Invariant

variable {hashPwd : String → String} {deployment : Deployment Call}
  {labels : List (Label Call)} {state next : State Call}

theorem Written.concat {entry : Entry} {username : String}
    (h : Written deployment labels entry username) (label : Label Call) :
    Written deployment (labels ++ [label]) entry username := by
  obtain ⟨i, write, hmem, hentry⟩ := h
  exact ⟨i, write, List.mem_append_left _ hmem, hentry⟩

theorem CacheInv.initial :
    CacheInv hashPwd deployment [] State.initial where
  entries _ _ hvalue := nomatch hvalue
  call _ := trivial

/-- The entry under a key belongs to one user and one purpose. -/
theorem CacheInv.entry (hgood : CacheInv hashPwd deployment labels state)
    (entry : Entry) {username : String} {value : Json}
    (hvalue : state.cache (entry.key username) = some value) :
    TrueEntry state.users entry username value ∧
      Written deployment labels entry username := by
  obtain ⟨entry', username', hkey, hentry⟩ := hgood.entries _ _ hvalue
  obtain ⟨rfl, rfl⟩ := Entry.key_inj.mp hkey
  exact hentry

/-- A step that leaves the cache alone and moves one call. -/
theorem CacheInv.move (hgood : CacheInv hashPwd deployment labels state)
    (label : Label Call) (i : Call) (hcache : next.cache = state.cache)
    (husers : state.users ⊆ next.users)
    (hothers : ∀ j, j ≠ i → next.call j = state.call j)
    (hphase : Good hashPwd next.users (deployment.request i)
      (next.call i)) :
    CacheInv hashPwd deployment (labels ++ [label]) next where
  entries key value hvalue := by
    rw [hcache] at hvalue
    obtain ⟨entry, username, hkey, htrue, hwritten⟩ :=
      hgood.entries key value hvalue
    exact ⟨entry, username, hkey, htrue.mono husers, hwritten.concat label⟩
  call j := by
    by_cases hj : j = i
    · subst hj
      exact hphase
    · rw [hothers j hj]
      exact (hgood.call j).mono husers

theorem CacheInv.evict (hgood : CacheInv hashPwd deployment labels state)
    (key : String) :
    CacheInv hashPwd deployment (labels ++ [.evict key])
      { state with cache := Function.update state.cache key none } where
  entries key' value hvalue := by
    simp only at hvalue
    by_cases hkey : key' = key
    · rw [hkey, Function.update_self] at hvalue
      cases hvalue
    · rw [Function.update_of_ne hkey] at hvalue
      obtain ⟨entry, username, hentry, htrue, hwritten⟩ :=
        hgood.entries key' value hvalue
      exact ⟨entry, username, hentry, htrue, hwritten.concat _⟩
  call := hgood.call

theorem CacheInv.fetched (hgood : CacheInv hashPwd deployment labels state)
    {result : Memcached} (hresult : Fetched state.users result)
    (key : String) :
    Fetched state.users (addReply result key (state.cache key)) := by
  intro username value hvalue
  cases hentry : state.cache key with
  | none =>
      rw [hentry] at hvalue
      exact hresult username value hvalue
  | some found =>
      rw [hentry, addReply] at hvalue
      by_cases hkey : userIDKey username = key
      · subst hkey
        rw [Function.update_self, Option.some.injEq] at hvalue
        subst hvalue
        exact (hgood.entry .userID hentry).1
      · rw [Function.update_of_ne hkey] at hvalue
        exact hresult username value hvalue

theorem CacheInv.sign (hgood : CacheInv hashPwd deployment labels state)
    {i : Call} {username password : String} {info : LoginInfo}
    (timestamp expiresAt : Int64)
    (hrequest : deployment.request i = .login username password)
    (hchecking : state.call i = .checking info)
    (hpassword : hashPwd (password ++ info.salt) = info.password) :
    Good hashPwd state.users (deployment.request i)
      (.caching (marshal info)
        (.token ⟨username, idText info.userID, timestamp, expiresAt⟩)) := by
  have hcall := hgood.call i
  rw [hchecking] at hcall
  obtain ⟨username', hentry, user, huser, hname, rfl⟩ := hcall
  have hsame : username = username' := by
    simpa [hrequest, Request.entry] using hentry
  subst hsame
  rw [hrequest]
  exact ⟨⟨.login, username, rfl, user, huser, hname, rfl⟩, rfl,
    user, huser, hname, hpassword.symm, rfl⟩

variable [DecidableEq Call]

theorem CacheInv.setCall (hgood : CacheInv hashPwd deployment labels state)
    (label : Label Call) {i : Call} {phase : Phase}
    (hphase : Good hashPwd state.users (deployment.request i) phase) :
    CacheInv hashPwd deployment (labels ++ [label])
      (state.setCall i phase) := by
  refine hgood.move label i rfl (List.Subset.refl _) ?_ ?_
  · intro j hj
    exact state.setCall_of_ne hj phase
  · rw [State.setCall_self]
    exact hphase

/-- A write changes its part of the stores and moves its call. -/
theorem CacheInv.withSetCall
    (hgood : CacheInv hashPwd deployment labels state) (label : Label Call)
    {changed : State Call} {i : Call} {phase : Phase}
    (hcache : changed.cache = state.cache) (hcall : changed.call = state.call)
    (husers : state.users ⊆ changed.users)
    (hphase : Good hashPwd changed.users (deployment.request i) phase) :
    CacheInv hashPwd deployment (labels ++ [label])
      (changed.setCall i phase) := by
  refine hgood.move label i hcache husers ?_ ?_
  · intro j hj
    rw [changed.setCall_of_ne hj, hcall]
  · rw [State.setCall_self]
    exact hphase

/-- A call writes only its own entry, and from a registered document. -/
theorem CacheInv.set (hgood : CacheInv hashPwd deployment labels state)
    {i : Call} {write : Write} {entry : Entry} {username : String}
    {value : Json} {result : Result}
    (hentry : (deployment.request i).entry = some (entry, username))
    (hcaching : state.call i = .caching value result) :
    CacheInv hashPwd deployment (labels ++ [.set i write])
      ({ state with
        cache := Function.update state.cache (entry.key username)
          (some value) }.setCall i (write.andThen (.returned result))) := by
  have hcall := hgood.call i
  rw [hcaching] at hcall
  obtain ⟨⟨entry', username', hentry', hvalue⟩, hsound⟩ := hcall
  rw [hentry, Option.some.injEq, Prod.mk.injEq] at hentry'
  obtain ⟨rfl, rfl⟩ := hentry'
  have hphase : Good hashPwd state.users (deployment.request i)
      (write.andThen (.returned result)) := good_andThen write hsound
  have hnext := hgood.setCall (.set i write) hphase
  have hwritten : Written deployment (labels ++ [.set i write]) entry
      username := ⟨i, write, by simp, hentry⟩
  refine ⟨?_, hnext.call⟩
  intro key value' hkey
  change Function.update state.cache _ _ _ = _ at hkey
  by_cases hsame : key = entry.key username
  · subst hsame
    rw [Function.update_self, Option.some.injEq] at hkey
    subst hkey
    exact ⟨entry, username, rfl, hvalue, hwritten⟩
  · rw [Function.update_of_ne hsame] at hkey
    exact hnext.entries key value' hkey

theorem CacheInv.step (hgood : CacheInv hashPwd deployment labels state)
    {label : Label Call}
    (hstep : UserService.step hashPwd deployment state label = some next) :
    CacheInv hashPwd deployment (labels ++ [label]) next := by
  cases effect_of_step hstep with
  | move _ i phase service hplain =>
      exact hgood.withSetCall label rfl rfl (List.Subset.refl _)
        (good_of_plain hplain)
  | register _ i userID service hready =>
      exact hgood.withSetCall label rfl rfl (List.Subset.refl _) trivial
  | findExisting i reply registration hregistration hregistering hnone =>
      exact hgood.setCall _ trivial
  | insertOne i salt write registration userID hregistration huserID
      hinserting =>
      exact hgood.withSetCall _ rfl rfl (List.subset_append_left _ _)
        (good_andThen write trivial)
  | insertUser i write userID huserID hinserted =>
      exact hgood.withSetCall _ rfl rfl (List.Subset.refl _)
        (good_andThen write trivial)
  | hit i entry username value hentry hvalue =>
      exact hgood.setCall _ (good_onHit hentry (hgood.entry entry hvalue).1)
  | document i entry username user hentry huser hname =>
      exact hgood.setCall _ (good_onDocument hentry huser hname)
  | sign i timestamp expiresAt username password info hrequest hchecking
      hpassword =>
      exact hgood.setCall _ (hgood.sign timestamp expiresAt hrequest
        hchecking hpassword)
  | set i write entry username value result hentry hcaching =>
      exact hgood.set hentry hcaching
  | uploadUserMentions i usernames =>
      apply hgood.setCall
      intro username value hvalue
      cases hvalue
  | getMulti i index key rest rest' result hfetching =>
      have hcall := hgood.call i
      rw [hfetching] at hcall
      exact hgood.setCall _ (hgood.fetched hcall key)
  | evict key => exact hgood.evict key

theorem CacheInv.of_run
    (hrun : run (UserService.step hashPwd deployment) State.initial labels =
      some state) :
    CacheInv hashPwd deployment labels state :=
  Machine.run_induction (P := CacheInv hashPwd deployment) CacheInv.initial
    (fun _ _ _ _ _ hgood hstep => hgood.step hstep) hrun

end Invariant

/-- Tokens and ids are those of registered documents of the user, and every
entry was written for the user and the purpose under whose key it is read. -/
theorem userCache_sound [DecidableEq Call] {hashPwd : String → String}
    {deployment : Deployment Call} {labels : List (Label Call)}
    {state : State Call}
    (hrun : run (step hashPwd deployment) State.initial labels =
      some state) :
    (∀ i username password claims,
      deployment.request i = .login username password →
      state.call i = .returned (.token claims) →
      claims.username = username ∧
        Accepts hashPwd state.users username password claims.userID) ∧
    (∀ i username userID, deployment.request i = .getUserId username →
      state.call i = .returned (.userID userID) →
      Registered state.users username userID) ∧
    (∀ i username creator,
      deployment.request i = .uploadCreatorWithUsername username →
      state.call i = .returned (.creator creator) →
      creator.username = username ∧
        Registered state.users username creator.userID) ∧
    (∀ i rest result, state.call i = .fetching rest result →
      Fetched state.users result) ∧
    ∀ entry username value, state.cache (entry.key username) = some value →
      TrueEntry state.users entry username value ∧
      Written deployment labels entry username ∧
      ∀ entry' username', entry'.key username' = entry.key username →
        entry' = entry ∧ username' = username := by
  have hgood := CacheInv.of_run hrun
  refine ⟨?_, ?_, ?_, ?_, ?_⟩
  · intro i username password claims hrequest hreturned
    have hcall := hgood.call i
    rw [hrequest, hreturned] at hcall
    exact hcall
  · intro i username userID hrequest hreturned
    have hcall := hgood.call i
    rw [hrequest, hreturned] at hcall
    exact hcall
  · intro i username creator hrequest hreturned
    have hcall := hgood.call i
    rw [hrequest, hreturned] at hcall
    exact hcall
  · intro i rest result hfetching
    have hcall := hgood.call i
    rw [hfetching] at hcall
    exact hcall
  · intro entry username value hvalue
    obtain ⟨htrue, hwritten⟩ := hgood.entry entry hvalue
    exact ⟨htrue, hwritten, fun _ _ hkey => Entry.key_inj.mp hkey⟩

def sampleHash (pwd : String) : String := "#" ++ pwd

def sampleDeployment : Deployment ℕ where
  request
    | 0 => .registerUser ⟨"Ana", "Lima", "ana", "secret"⟩
    | 1 => .login "ana" "secret"
    | 2 => .login "ana" "secret"
    | _ => .getUserId "ana"
  replica _ := 0
  machineID _ := "a7"

/-- The first login fills the cache and the second one reads it; the id is
read from the database. -/
def sampleLabels : List (Label ℕ) :=
  [.registerUser 0 1000, .findExisting 0 .empty, .get 1 true,
    .insertOne 0 "salt" .done, .find 1 (.document
      ⟨0xa700000003e8001, "Ana", "Lima", "ana", "#secretsalt", "salt"⟩),
    .sign 1 5 6 true, .insertUser 0 (.failed true), .set 1 .done,
    .evict "ana:user_id", .get 2 true, .get 3 true, .sign 2 7 8 true,
    .set 2 (.failed false), .find 3 (.document
      ⟨0xa700000003e8001, "Ana", "Lima", "ana", "#secretsalt", "salt"⟩),
    .set 3 .done]

def Phase.result : Phase → Option Result
  | .returned result => some result
  | _ => none

theorem Phase.result_eq_some_iff {phase : Phase} {result : Result} :
    phase.result = some result ↔ phase = .returned result := by
  cases phase with
  | returned result' => simp [Phase.result]
  | _ => simp [Phase.result]

theorem userCache_sound_sample :
    ∃ state, run (step sampleHash sampleDeployment) State.initial
        sampleLabels = some state ∧
      Accepts sampleHash state.users "ana" "secret"
        (idText 0xa700000003e8001) ∧
      Registered state.users "ana" 0xa700000003e8001 := by
  have hends : (run (step sampleHash sampleDeployment) State.initial
      sampleLabels).any (fun state =>
        (state.call 1).result = some (.token
            ⟨"ana", idText 0xa700000003e8001, 5, 6⟩) ∧
          (state.call 3).result = some (.userID 0xa700000003e8001)) := by
    decide +kernel
  obtain ⟨state, hrun, hends⟩ := (Option.any_eq_true _ _).mp hends
  rw [decide_eq_true_eq, Phase.result_eq_some_iff,
    Phase.result_eq_some_iff] at hends
  obtain ⟨hlogins, hids, -⟩ := userCache_sound hrun
  exact ⟨state, hrun, (hlogins 1 "ana" "secret" _ rfl hends.1).2,
    hids 3 "ana" _ rfl hends.2⟩

end SocialNetwork.UserService
