import SocialNetwork.FollowHandlers

/-!
# Responses and the follow relation

The follow relation of a session can be read off its responses: an edge is
there when the last request for it that was answered with success was a
follow.  A request by usernames counts for the ids under which the usernames
are registered, however the lookups were answered.
-/

namespace SocialNetwork.FollowHandlers

open Json UserHandlers Users UserService
open SocialGraph (Action Call Graph)

variable {stores next : Stores} {env : FollowEnv} {username : String}

/-! ## Lookups -/

/-- Stores that a lookup leaves. -/
structure LookedUp (stores next : Stores) : Prop where
  coherent : Coherent next
  users : next.users = stores.users
  graph : next.graph = stores.graph

theorem LookedUp.refl (hgood : Coherent stores) : LookedUp stores stores :=
  ⟨hgood, rfl, rfl⟩

theorem LookedUp.trans {middle : Stores} (hfirst : LookedUp stores middle)
    (hlast : LookedUp middle next) : LookedUp stores next :=
  ⟨hlast.coherent, hlast.users.trans hfirst.users,
    hlast.graph.trans hfirst.graph⟩

theorem getUserId_graph {env : Env} {userID : Int64}
    (hget : GetUserId stores env username = .ok (userID, next)) :
    next.graph = stores.graph := by
  unfold GetUserId at hget
  obtain ⟨reply, -, hget⟩ := bind_eq_ok hget
  cases reply with
  | some value =>
      simp only at hget
      split at hget
      next =>
        rw [← (Prod.mk.inj (Except.ok.inj hget)).2]
      next => cases hget
  | none =>
      obtain ⟨found, -, hget⟩ := bind_eq_ok hget
      cases found with
      | none => cases hget
      | some user =>
          obtain ⟨written, hset, hget⟩ := bind_eq_ok hget
          rw [← (Prod.mk.inj (Except.ok.inj hget)).2, Stores.set_eq_ok hset]

/-- The id of a successful read is the one of the document. -/
theorem getUserId_registered {env : Env} (hgood : Coherent stores)
    {userID : Int64}
    (hget : GetUserId stores env username = .ok (userID, next)) :
    registeredID stores.users username = some userID := by
  rw [registeredID_eq_some_iff hgood.usernames]
  unfold GetUserId at hget
  obtain ⟨reply, hreply, hget⟩ := bind_eq_ok hget
  have hcached := Stores.get_eq_ok hreply
  cases reply with
  | some value =>
      obtain ⟨user, huser, hname, rfl⟩ :=
        hgood.entries .userID username value hcached.symm
      simp only [Entry.value, unmarshal_marshal] at hget
      exact ⟨user, huser, hname, (Prod.mk.inj (Except.ok.inj hget)).1⟩
  | none =>
      obtain ⟨found, hfind, hget⟩ := bind_eq_ok hget
      cases found with
      | none => cases hget
      | some user =>
          obtain ⟨huser, hname⟩ := Stores.find_eq_some hfind
          obtain ⟨written, -, hget⟩ := bind_eq_ok hget
          exact ⟨user, huser, hname, (Prod.mk.inj (Except.ok.inj hget)).1⟩

theorem lookUp_spec (hgood : Coherent stores) (env : Env)
    (username : String) :
    LookedUp stores (lookUp stores env username).2 ∧
      ∀ userID, (lookUp stores env username).1 = .ok userID →
        registeredID stores.users username = some userID := by
  unfold lookUp
  cases hget : GetUserId stores env username with
  | error err => exact ⟨.refl hgood, fun _ heq => nomatch heq⟩
  | ok out =>
      obtain ⟨userID, after⟩ := out
      obtain ⟨hcoherent, husers⟩ := hgood.getUserId hget
      refine ⟨⟨hcoherent, husers, getUserId_graph hget⟩, ?_⟩
      rintro userID' heq
      cases heq
      exact getUserId_registered hgood hget

theorem lookUpBoth_spec (hgood : Coherent stores) (env : FollowEnv)
    (userUsername followeeUsername : String) :
    LookedUp stores
        (lookUpBoth stores env userUsername followeeUsername).2.2 ∧
      (∀ userID, (lookUpBoth stores env userUsername
          followeeUsername).1 = .ok userID →
        registeredID stores.users userUsername = some userID) ∧
      ∀ followeeID, (lookUpBoth stores env userUsername
          followeeUsername).2.1 = .ok followeeID →
        registeredID stores.users followeeUsername = some followeeID := by
  have hboth : ∀ first second : String,
      LookedUp stores (lookUp (lookUp stores env.toEnv first).2 env.toEnv
          second).2 ∧
        ∀ userID, (lookUp (lookUp stores env.toEnv first).2 env.toEnv
            second).1 = .ok userID →
          registeredID stores.users second = some userID := by
    intro first second
    obtain ⟨hfirst, -⟩ := lookUp_spec hgood env.toEnv first
    obtain ⟨hsecond, hid⟩ := lookUp_spec hfirst.coherent env.toEnv second
    rw [hfirst.users] at hid
    exact ⟨hfirst.trans hsecond, hid⟩
  unfold lookUpBoth
  split
  · obtain ⟨-, hid⟩ := lookUp_spec hgood env.toEnv userUsername
    obtain ⟨hlookedUp, hid'⟩ := hboth userUsername followeeUsername
    exact ⟨hlookedUp, hid, hid'⟩
  · obtain ⟨-, hid⟩ := lookUp_spec hgood env.toEnv followeeUsername
    obtain ⟨hlookedUp, hid'⟩ := hboth followeeUsername userUsername
    exact ⟨hlookedUp, hid', hid⟩

/-! ## Calls of the social graph service -/

/-- The call of the sequential social graph that a call of the service
makes. -/
def graphCall (action : Action) (env : FollowEnv)
    (userID followeeID : Int64) : Call :=
  match action with
  | .follow timestamp => .follow userID followeeID timestamp env.schedule
  | .unfollow => .unfollow userID followeeID env.schedule

def byIDs (action : Action) (stores : Stores) (env : FollowEnv)
    (userID followeeID : Int64) : Except Error Unit × Stores :=
  onGraph stores
    (SocialGraph.step stores.graph (graphCall action env userID followeeID))

theorem follow_eq (env : FollowEnv) :
    Follow stores env = byIDs (.follow env.now) stores env := rfl

theorem unfollow_eq (env : FollowEnv) :
    Unfollow stores env = byIDs .unfollow stores env := rfl

theorem byIDs_toStores {graph : Graph} (hgraph : stores.graph =
      graph.toStores) (action : Action) (env : FollowEnv)
    (userID followeeID : Int64) :
    byIDs action stores env userID followeeID =
      (.ok (), { stores with graph := (graph.call
        (graphCall action env userID followeeID)).toStores }) := by
  unfold byIDs onGraph
  rw [hgraph, SocialGraph.step_toStores]

/-- The ids that a request means: those in the form, or those of the
documents with its usernames. -/
def pair (users : List User) (form : Except String Form) :
    Option (Int64 × Int64) :=
  match validateFollowParams form with
  | .error _ => none
  | .ok params =>
      if params.userID ≠ -1 ∧ params.followeeID ≠ -1 then
        some (params.userID, params.followeeID)
      else do
        let userID ← registeredID users params.username
        let followeeID ← registeredID users params.followeeName
        return (userID, followeeID)

/-- The request left the graph alone, or made its call for the pair it
means. -/
structure Served (action : Action) (env : FollowEnv)
    (form : Except String Form) (stores : Stores) (graph : Graph)
    (response : Response) (next : Stores) : Prop where
  coherent : Coherent next
  users : next.users = stores.users
  graph : (response.isSuccess = false ∧ next.graph = graph.toStores) ∨
    ∃ userID followeeID, response.isSuccess = true ∧
      pair stores.users form = some (userID, followeeID) ∧
      next.graph =
        (graph.call (graphCall action env userID followeeID)).toStores

/-- The same for the call that the handler makes. -/
structure Called (action : Action) (env : FollowEnv)
    (pair : Option (Int64 × Int64)) (stores : Stores) (graph : Graph)
    (result : Except Error Unit) (next : Stores) : Prop where
  coherent : Coherent next
  users : next.users = stores.users
  graph : ((∃ err, result = .error err) ∧ next.graph = graph.toStores) ∨
    ∃ userID followeeID, result = .ok () ∧
      pair = some (userID, followeeID) ∧
      next.graph =
        (graph.call (graphCall action env userID followeeID)).toStores

section Calls

variable {graph : Graph} {action : Action}

theorem called_byIDs (hgood : Coherent stores)
    (hgraph : stores.graph = graph.toStores) (userID followeeID : Int64) :
    Called action env (some (userID, followeeID)) stores graph
      (byIDs action stores env userID followeeID).1
      (byIDs action stores env userID followeeID).2 := by
  rw [byIDs_toStores hgraph]
  exact ⟨hgood.congr ⟨rfl, rfl⟩, rfl, .inr ⟨_, _, rfl, rfl, rfl⟩⟩

theorem called_withUsernames (hgood : Coherent stores)
    (hgraph : stores.graph = graph.toStores)
    (userUsername followeeUsername : String) :
    Called action env
      (do
        let userID ← registeredID stores.users userUsername
        let followeeID ← registeredID stores.users followeeUsername
        return (userID, followeeID)) stores graph
      (withUsernames (byIDs action) stores env userUsername
        followeeUsername).1
      (withUsernames (byIDs action) stores env userUsername
        followeeUsername).2 := by
  obtain ⟨hlookedUp, huser, hfollowee⟩ :=
    lookUpBoth_spec hgood env userUsername followeeUsername
  unfold withUsernames
  generalize lookUpBoth stores env userUsername followeeUsername = replies at *
  obtain ⟨userReply, followeeReply, after⟩ := replies
  have hafter : after.graph = graph.toStores :=
    hlookedUp.graph.trans hgraph
  cases userReply with
  | error err =>
      exact ⟨hlookedUp.coherent, hlookedUp.users, .inl ⟨⟨err, rfl⟩, hafter⟩⟩
  | ok userID =>
      cases followeeReply with
      | error err =>
          exact ⟨hlookedUp.coherent, hlookedUp.users,
            .inl ⟨⟨err, rfl⟩, hafter⟩⟩
      | ok followeeID =>
          obtain ⟨hcoherent, husers, hcalled⟩ : Called action env
              (some (userID, followeeID)) after graph _ _ :=
            called_byIDs hlookedUp.coherent hafter userID followeeID
          refine ⟨hcoherent, husers.trans hlookedUp.users, ?_⟩
          rw [huser userID rfl, hfollowee followeeID rfl]
          exact hcalled

theorem Called.component {ends : Option (Int64 × Int64)}
    {call : Except Error Unit × Stores} (hgood : Coherent stores)
    (hgraph : stores.graph = graph.toStores)
    (hcall : Called action env ends stores graph call.1 call.2) :
    Called action env ends stores graph (component stores env call).1
      (component stores env call).2 := by
  unfold FollowHandlers.component
  split
  · exact hcall
  · exact ⟨hgood, rfl, .inl ⟨⟨_, rfl⟩, hgraph⟩⟩

theorem Called.answer {form : Except String Form} {verb : Verb}
    {params : FollowParams} {ends : Option (Int64 × Int64)}
    {call : Except Error Unit × Stores}
    (hcall : Called action env ends stores graph call.1 call.2)
    (hends : ends = pair stores.users form) :
    Served action env form stores graph (verb.answer params call).1
      (verb.answer params call).2 := by
  subst hends
  obtain ⟨result, next⟩ := call
  obtain ⟨hcoherent, husers, ⟨⟨err, hresult⟩, hgraph⟩ |
    ⟨userID, followeeID, hresult, hpair, hgraph⟩⟩ := hcall
  · cases hresult
    exact ⟨hcoherent, husers, .inl ⟨rfl, hgraph⟩⟩
  · cases hresult
    exact ⟨hcoherent, husers, .inr ⟨userID, followeeID, rfl, hpair, hgraph⟩⟩

theorem edgeHandler_served {verb : Verb} (hgood : Coherent stores)
    (hgraph : stores.graph = graph.toStores)
    (hids : verb.byIDs stores env = byIDs action stores env)
    (hnames : verb.byUsernames stores env =
      withUsernames (byIDs action) stores env)
    (form : Except String Form) :
    Served action env form stores graph
      (edgeHandler verb stores env form).1
      (edgeHandler verb stores env form).2 := by
  unfold edgeHandler
  cases hvalidate : validateFollowParams form with
  | error text => exact ⟨hgood, rfl, .inl ⟨rfl, hgraph⟩⟩
  | ok params =>
      simp only
      split
      next hgiven =>
        rw [hids]
        refine ((called_byIDs hgood hgraph _ _).component hgood
          hgraph).answer ?_
        rw [pair, hvalidate]
        exact (if_pos hgiven).symm
      next hgiven =>
        split
        next =>
          rw [hnames]
          refine ((called_withUsernames hgood hgraph _ _).component hgood
            hgraph).answer ?_
          rw [pair, hvalidate]
          exact (if_neg hgiven).symm
        next => exact ⟨hgood, rfl, .inl ⟨rfl, hgraph⟩⟩

theorem followHandler_served (hgood : Coherent stores)
    (hgraph : stores.graph = graph.toStores) (form : Except String Form) :
    Served (.follow env.now) env form stores graph
      (followHandler stores env form).1 (followHandler stores env form).2 :=
  edgeHandler_served hgood hgraph rfl rfl form

theorem unfollowHandler_served (hgood : Coherent stores)
    (hgraph : stores.graph = graph.toStores) (form : Except String Form) :
    Served .unfollow env form stores graph
      (unfollowHandler stores env form).1
      (unfollowHandler stores env form).2 :=
  edgeHandler_served hgood hgraph rfl rfl form

end Calls

/-! ## The other requests -/

section Users

variable {hashPwd : String → String} {sign : UserService.Claims → Option String}
  {machineID : String}

/-- A registration inserts a user at most. -/
def GraphKept (stores next : Stores) : Prop :=
  next.graph = stores.graph ∨
    ∃ userID, next.graph = SocialGraph.InsertUser stores.graph userID

theorem registerUserWithId_graph (env : Env) (registration : Registration)
    (userID : Int64) :
    GraphKept stores
      (RegisterUserWithId hashPwd stores env registration userID).2 := by
  unfold RegisterUserWithId
  split
  next => exact .inl rfl
  next => exact .inl rfl
  next =>
    simp only
    split
    · exact .inr ⟨userID, rfl⟩
    · exact .inl rfl

theorem registerHandler_graph (env : Env) (form : Except String Form) :
    GraphKept stores (registerHandler hashPwd machineID stores env form).2 := by
  have hregister : ∀ registration, GraphKept stores
      (RegisterUser hashPwd machineID stores env registration).2 := by
    intro registration
    unfold RegisterUser
    simp only
    split
    next => exact .inl rfl
    next =>
      split
      next => exact .inl rfl
      next id _ =>
        rcases registerUserWithId_graph env registration id with
          hgraph | ⟨userID, hgraph⟩
        · exact .inl hgraph
        · exact .inr ⟨userID, hgraph⟩
  unfold registerHandler
  cases validateRegisterParams form with
  | error text => exact .inl rfl
  | ok params =>
      have hkept : GraphKept stores
          (if params.userID = -1 then
            RegisterUser hashPwd machineID stores env params.registration
          else RegisterUserWithId hashPwd stores env params.registration
            params.userID).2 := by
        split
        · exact hregister params.registration
        · exact registerUserWithId_graph env params.registration
            params.userID
      simp only
      split
      next heq => simpa only [heq] using hkept
      next heq => simpa only [heq] using hkept

theorem loginHandler_graph (env : Env) (form : Except String Form) :
    (loginHandler hashPwd sign stores env form).2.graph = stores.graph := by
  unfold loginHandler
  cases validateLoginParams form with
  | error text => rfl
  | ok params =>
      simp only
      cases hlogin : Login hashPwd sign stores env params.username
        params.password with
      | error err => rfl
      | ok out =>
          obtain ⟨token, after⟩ := out
          obtain ⟨info, -, hset⟩ := login_eq_ok hlogin
          simp only
          rw [Stores.set_eq_ok hset]

theorem serve_graph (hashPwd : String → String)
    (sign : UserService.Claims → Option String) (machineID : String)
    (request : UserHandlers.Request) :
    GraphKept stores
      (UserHandlers.serve hashPwd sign machineID stores request) := by
  cases request with
  | register env form => exact registerHandler_graph env form
  | login env form => exact .inl (loginHandler_graph env form)
  | getUserId env username =>
      simp only [UserHandlers.serve]
      cases hget : GetUserId stores env username with
      | error err => exact .inl rfl
      | ok out => exact .inl (getUserId_graph hget)
  | uploadCreatorWithUsername env username =>
      simp only [UserHandlers.serve]
      cases hupload : UploadCreatorWithUsername stores env username with
      | error err => exact .inl rfl
      | ok out =>
          obtain ⟨creator, after⟩ := out
          unfold UploadCreatorWithUsername at hupload
          obtain ⟨found, hget, hupload⟩ := bind_eq_ok hupload
          cases (Prod.mk.inj (Except.ok.inj hupload)).2
          exact .inl (getUserId_graph hget)
  | evict key => exact .inl rfl

end Users

/-! ## Sessions -/

/-- What the response to a request says about an edge. -/
def event (users : List User) (userID followeeID : Int64) :
    Request × Option Response → Option Action
  | (.follow env form, some response) =>
      if response.isSuccess ∧ pair users form = some (userID, followeeID) then
        some (.follow env.now)
      else none
  | (.unfollow _ form, some response) =>
      if response.isSuccess ∧ pair users form = some (userID, followeeID) then
        some .unfollow
      else none
  | _ => none

/-- A request that was answered with success means a pair. -/
def Means (users : List User) (entry : Request × Option Response) : Prop :=
  ∀ env form response, response.isSuccess = true →
    entry = (.follow env form, some response) ∨
      entry = (.unfollow env form, some response) →
    (pair users form).isSome

theorem pair_mono {users users' : List User} (hsubset : users ⊆ users')
    (hnodup : (users.map User.username).Nodup)
    (hnodup' : (users'.map User.username).Nodup) {form : Except String Form}
    {ends : Int64 × Int64} (hpair : pair users form = some ends) :
    pair users' form = some ends := by
  have hid : ∀ {username userID}, registeredID users username = some userID →
      registeredID users' username = some userID := by
    intro username userID hregistered
    obtain ⟨user, huser, hnamed⟩ :=
      (registeredID_eq_some_iff hnodup).mp hregistered
    exact (registeredID_eq_some_iff hnodup').mpr
      ⟨user, hsubset huser, hnamed⟩
  unfold pair at hpair ⊢
  cases hvalidate : validateFollowParams form with
  | error text => rw [hvalidate] at hpair; cases hpair
  | ok params =>
      rw [hvalidate] at hpair
      simp only at hpair ⊢
      split at hpair
      next hgiven => rwa [if_pos hgiven]
      next hgiven =>
        rw [if_neg hgiven]
        obtain ⟨userID, huser, hpair⟩ := Option.bind_eq_some_iff.mp hpair
        obtain ⟨followeeID, hfollowee, hpair⟩ :=
          Option.bind_eq_some_iff.mp hpair
        exact Option.bind_eq_some_iff.mpr ⟨userID, hid huser,
          Option.bind_eq_some_iff.mpr ⟨followeeID, hid hfollowee, hpair⟩⟩

/-- More documents change nothing that a response says. -/
theorem event_mono {users users' : List User} (hsubset : users ⊆ users')
    (hnodup : (users.map User.username).Nodup)
    (hnodup' : (users'.map User.username).Nodup)
    {entry : Request × Option Response} (hmeans : Means users entry)
    (userID followeeID : Int64) :
    event users' userID followeeID entry =
      event users userID followeeID entry := by
  have hsame : ∀ form : Except String Form, (pair users form).isSome →
      pair users' form = pair users form := by
    intro form hsome
    obtain ⟨ends, hpair⟩ := Option.isSome_iff_exists.mp hsome
    rw [hpair, pair_mono hsubset hnodup hnodup' hpair]
  obtain ⟨request, reply⟩ := entry
  cases reply with
  | none => cases request <;> rfl
  | some response =>
      cases hsuccess : response.isSuccess with
      | false => cases request <;> simp [event, hsuccess]
      | true =>
          cases request with
          | user request => rfl
          | follow env form =>
              have hpair := hsame form
                (hmeans env form response hsuccess (.inl rfl))
              simp only [event, hpair]
          | unfollow env form =>
              have hpair := hsame form
                (hmeans env form response hsuccess (.inr rfl))
              simp only [event, hpair]

/-- The graph is the one of calls that the responses tell. -/
structure Session.Told (session : Session) (calls : List Call) : Prop where
  coherent : Coherent session.stores
  graph : session.stores.graph =
    (calls.foldl Graph.call Graph.empty).toStores
  means : ∀ entry ∈ session.log, Means session.stores.users entry
  actions : ∀ userID followeeID,
    SocialGraph.actions calls userID followeeID =
      session.log.filterMap (event session.stores.users userID followeeID)

section Sessions

variable (hashPwd : String → String) (sign : UserService.Claims → Option String)
  (machineID : String) {session : Session} {calls : List Call}

theorem Session.Told.initial : Session.initial.Told [] where
  coherent := Coherent.initial
  graph := rfl
  means _ hmem := absurd hmem List.not_mem_nil
  actions _ _ := rfl

theorem Session.Told.concat (hgood : session.Told calls)
    {entry : Request × Option Response} {more : List Call}
    (hcoherent : Coherent next) (hsubset : session.stores.users ⊆ next.users)
    (hgraph : next.graph =
      (more.foldl Graph.call (calls.foldl Graph.call Graph.empty)).toStores)
    (hmeans : Means next.users entry)
    (hactions : ∀ userID followeeID,
      SocialGraph.actions more userID followeeID =
        (event next.users userID followeeID entry).toList) :
    (Session.mk (session.log ++ [entry]) next).Told (calls ++ more) where
  coherent := hcoherent
  graph := by rw [hgraph, List.foldl_append]
  means := by
    intro old hold
    rcases List.mem_append.mp hold with hold | hnew
    · intro env form response hsuccess heq
      obtain ⟨ends, hpair⟩ := Option.isSome_iff_exists.mp
        (hgood.means old hold env form response hsuccess heq)
      rw [pair_mono hsubset hgood.coherent.usernames hcoherent.usernames
        hpair]
      rfl
    · rw [List.mem_singleton.mp hnew]
      exact hmeans
  actions := by
    intro userID followeeID
    have hlog : session.log.filterMap
          (event next.users userID followeeID) =
        session.log.filterMap
          (event session.stores.users userID followeeID) :=
      List.filterMap_congr fun old hold =>
        event_mono hsubset hgood.coherent.usernames hcoherent.usernames
          (hgood.means old hold) userID followeeID
    have hmore := hactions userID followeeID
    have hcalls := hgood.actions userID followeeID
    unfold SocialGraph.actions at hmore hcalls ⊢
    rw [List.filterMap_append, List.filterMap_append, hmore, hcalls, hlog]
    congr 1

/-- A request for an edge, whose response is logged. -/
theorem Session.Told.served {action : Action}
    (hgood : session.Told calls) {form : Except String Form}
    {request : Request} {response : Response}
    (hserved : Served action env form session.stores
      (calls.foldl Graph.call Graph.empty) response next)
    (hevent : ∀ users userID followeeID,
      event users userID followeeID (request, some response) =
        if response.isSuccess ∧
          pair users form = some (userID, followeeID) then some action
        else none)
    (hrequest : ∀ env' form', request = .follow env' form' ∨
      request = .unfollow env' form' → form' = form) :
    ∃ calls', (Session.mk (session.log ++ [(request, some response)])
      next).Told calls' := by
  obtain ⟨hcoherent, husers, hcase⟩ := hserved
  have hsubset : session.stores.users ⊆ next.users :=
    husers ▸ List.Subset.refl _
  rcases hcase with ⟨hfailed, hgraph⟩ |
    ⟨userID, followeeID, hsuccess, hpair, hgraph⟩
  · refine ⟨calls ++ [], hgood.concat hcoherent hsubset hgraph ?_ ?_⟩
    · intro env' form' response' hsuccess heq
      have hresponse : response = response' := by
        rcases heq with heq | heq <;>
          exact Option.some.inj (Prod.mk.inj heq).2
      rw [hresponse, hsuccess] at hfailed
      cases hfailed
    · intro userID followeeID
      rw [hevent, hfailed]
      rfl
  · refine ⟨calls ++ [graphCall action env userID followeeID],
      hgood.concat hcoherent hsubset hgraph ?_ ?_⟩
    · intro env' form' response' _ heq
      have hform : form' = form := hrequest env' form' <| by
        rcases heq with heq | heq
        · exact .inl (Prod.mk.inj heq).1
        · exact .inr (Prod.mk.inj heq).1
      rw [hform, husers, hpair]
      rfl
    · intro userID' followeeID'
      rw [hevent, husers, hpair, hsuccess, SocialGraph.actions]
      by_cases hends : userID = userID' ∧ followeeID = followeeID'
      · obtain ⟨rfl, rfl⟩ := hends
        cases action <;> simp [graphCall, Call.action?]
      · have hne : (userID, followeeID) ≠ (userID', followeeID') :=
          fun heq => hends (Prod.mk.inj heq)
        cases action <;> simp [graphCall, Call.action?, hends]

theorem Session.Told.serve (hgood : session.Told calls)
    (request : Request) :
    ∃ calls', (session.serve hashPwd sign machineID request).Told calls' := by
  cases request with
  | follow env form =>
      refine hgood.served
        (followHandler_served hgood.coherent hgood.graph form)
        (fun _ _ _ => rfl) ?_
      rintro env' form' (heq | heq)
      · cases heq
        rfl
      · cases heq
  | unfollow env form =>
      refine hgood.served
        (unfollowHandler_served hgood.coherent hgood.graph form)
        (fun _ _ _ => rfl) ?_
      rintro env' form' (heq | heq)
      · cases heq
      · cases heq
        rfl
  | user request =>
      obtain ⟨hcoherent, hsubset⟩ :=
        hgood.coherent.serve hashPwd sign machineID request
      have hmeans : ∀ users, Means users (.user request, none) := by
        rintro users env form response - (heq | heq) <;> cases heq
      rcases serve_graph hashPwd sign machineID request with hgraph | ⟨userID, hgraph⟩
      · rw [hgood.graph] at hgraph
        exact ⟨calls ++ [], hgood.concat hcoherent hsubset hgraph
          (hmeans _) fun _ _ => rfl⟩
      · rw [hgood.graph, SocialGraph.insertUser_toStores] at hgraph
        refine ⟨calls ++ [.insertUser userID],
          hgood.concat hcoherent hsubset ?_ (hmeans _) fun _ _ => rfl⟩
        exact hgraph

theorem Session.Told.serveAll (hgood : session.Told calls)
    (requests : List Request) :
    ∃ calls', (session.serveAll hashPwd sign machineID requests).Told
      calls' := by
  induction requests generalizing session calls with
  | nil => exact ⟨calls, hgood⟩
  | cons request requests ih =>
      obtain ⟨calls', hserved⟩ := hgood.serve hashPwd sign machineID request
      exact ih hserved

end Sessions

theorem Session.Told.followers {session : Session} {calls : List Call}
    (hgood : session.Told calls) (followeeID : Int64) :
    ∃ ids, SocialGraph.GetFollowers session.stores.graph followeeID =
        (.ok ids, session.stores.graph) ∧ ids.Nodup ∧
      ∀ userID, userID ∈ ids ↔ ∃ timestamp,
        (session.log.filterMap
          (event session.stores.users userID followeeID)).getLast? =
          some (.follow timestamp) := by
  obtain ⟨ids, hmembers, hnodup, hmem, -⟩ :=
    (SocialGraph.calls_holdsRelation calls).followers followeeID
  refine ⟨ids, ?_, hnodup, ?_⟩
  · rw [hgood.graph, SocialGraph.getFollowers_toStores, hmembers,
      SocialGraph.parseIDs_map_idText]
  · intro userID
    rw [hmem, SocialGraph.isSome_created_iff, hgood.actions]

/-- After any session `GetFollowers` returns the users whose last request for
the edge that was answered with success was a follow. -/
theorem responses_tell_followers (hashPwd : String → String)
    (sign : UserService.Claims → Option String) (machineID : String)
    (requests : List Request) {session : Session}
    (hsession : Session.initial.serveAll hashPwd sign machineID requests =
      session) (followeeID : Int64) :
    ∃ ids, SocialGraph.GetFollowers session.stores.graph followeeID =
        (.ok ids, session.stores.graph) ∧ ids.Nodup ∧
      ∀ userID, userID ∈ ids ↔ ∃ timestamp,
        (session.log.filterMap
          (event session.stores.users userID followeeID)).getLast? =
          some (.follow timestamp) := by
  obtain ⟨calls, hgood⟩ :=
    Session.Told.initial.serveAll hashPwd sign machineID requests
  rw [hsession] at hgood
  exact hgood.followers followeeID

def sampleFollowEnv : FollowEnv where
  toEnv := sampleEnv
  now := ⟨5000000000, "1970-01-01T00:00:05Z"⟩
  schedule := .sequential
  userFirst := false

def sampleRegister (username userID : String) : Request :=
  .user (.register sampleEnv (.ok fun
    | "username" => username
    | "first_name" => "Ana"
    | "last_name" => "Lima"
    | "password" => "secret"
    | "user_id" => userID
    | _ => ""))

def sampleNames (username followeeName : String) : Except String Form :=
  .ok fun
    | "user_name" => username
    | "followee_name" => followeeName
    | _ => ""

def sampleSession : List Request :=
  [sampleRegister "ana" "7", sampleRegister "rui" "8",
    .follow sampleFollowEnv (sampleNames "ana" "rui"),
    .follow sampleFollowEnv (sampleNames "rui" "ana"),
    .unfollow sampleFollowEnv (sampleNames "rui" "ana"),
    .follow sampleFollowEnv (sampleNames "eva" "ana")]

theorem responses_tell_followers_sample :
    ∃ session ids, Session.initial.serveAll sampleHash sampleSign "a7"
        sampleSession = session ∧
      SocialGraph.GetFollowers session.stores.graph 8 =
        (.ok ids, session.stores.graph) ∧ 7 ∈ ids := by
  obtain ⟨ids, hget, -, hmem⟩ := responses_tell_followers sampleHash
    sampleSign "a7" sampleSession rfl 8
  have hlast : ((Session.initial.serveAll sampleHash sampleSign "a7"
      sampleSession).log.filterMap (event (Session.initial.serveAll
        sampleHash sampleSign "a7" sampleSession).stores.users 7
          8)).getLast?.map Action.isFollow = some true := by decide +kernel
  obtain ⟨action, haction, hfollow⟩ := Option.map_eq_some_iff.mp hlast
  cases action with
  | follow timestamp =>
      exact ⟨_, ids, rfl, hget, (hmem 7).mpr ⟨timestamp, haction⟩⟩
  | unfollow => cases hfollow

/-! ## Accepted requests -/

/-- A username that `GetUserId` finds when nothing fails. -/
structure Findable (users : List User) (username : String) : Prop where
  legal : LegalUsername username
  registered : (registeredID users username).isSome

/-- The ids of the form are used as they are, registered or not. -/
def Accepted (users : List User) (form : Except String Form) : Prop :=
  ∃ params, validateFollowParams form = .ok params ∧
    (params.userID ≠ -1 ∧ params.followeeID ≠ -1 ∨
      params.username ≠ "" ∧ params.followeeName ≠ "" ∧
        Findable users params.username ∧ Findable users params.followeeName)

section Accepted

variable {graph : Graph} {action : Action}

theorem lookUp_isOk_iff (hgood : Coherent stores) (hup : env.Up) :
    (lookUp stores env.toEnv username).1.isOk = true ↔
      Findable stores.users username := by
  unfold lookUp
  cases hget : GetUserId stores env.toEnv username with
  | error err =>
      refine iff_of_false Bool.false_ne_true ?_
      rintro ⟨hlegal, hsome⟩
      obtain ⟨userID, hid⟩ := Option.isSome_iff_exists.mp hsome
      obtain ⟨user, huser, rfl, -⟩ :=
        (registeredID_eq_some_iff hgood.usernames).mp hid
      have hfound := hgood.getUserId_eq hup huser
      rw [if_pos (legalKey_userIDKey_iff.mpr hlegal), hget] at hfound
      cases hfound
  | ok out =>
      obtain ⟨userID, after⟩ := out
      have hid := getUserId_registered hgood hget
      refine iff_of_true rfl ⟨?_, hid ▸ rfl⟩
      obtain ⟨user, huser, rfl, -⟩ :=
        (registeredID_eq_some_iff hgood.usernames).mp hid
      have hfound := hgood.getUserId_eq hup huser
      by_contra hillegal
      rw [if_neg (legalKey_userIDKey_iff.not.mpr hillegal), hget] at hfound
      cases hfound

/-- The order of the two lookups does not matter. -/
theorem lookUpBoth_isOk_iff (hgood : Coherent stores) (hup : env.Up)
    (userUsername followeeUsername : String) :
    (lookUpBoth stores env userUsername followeeUsername).1.isOk = true ∧
        (lookUpBoth stores env userUsername
          followeeUsername).2.1.isOk = true ↔
      Findable stores.users userUsername ∧
        Findable stores.users followeeUsername := by
  have hsecond : ∀ first second : String,
      (lookUp (lookUp stores env.toEnv first).2 env.toEnv second).1.isOk =
          true ↔
        Findable stores.users second := by
    intro first second
    obtain ⟨hfirst, -⟩ := lookUp_spec hgood env.toEnv first
    rw [lookUp_isOk_iff hfirst.coherent hup, hfirst.users]
  unfold lookUpBoth
  split
  · exact and_congr (lookUp_isOk_iff hgood hup) (hsecond _ _)
  · exact and_congr (hsecond _ _) (lookUp_isOk_iff hgood hup)

theorem withUsernames_isOk_iff (hgood : Coherent stores)
    (hgraph : stores.graph = graph.toStores) (hup : env.Up)
    (userUsername followeeUsername : String) :
    (withUsernames (byIDs action) stores env userUsername
        followeeUsername).1.isOk = true ↔
      Findable stores.users userUsername ∧
        Findable stores.users followeeUsername := by
  rw [← lookUpBoth_isOk_iff hgood hup]
  obtain ⟨hlookedUp, -⟩ :=
    lookUpBoth_spec hgood env userUsername followeeUsername
  unfold withUsernames
  generalize lookUpBoth stores env userUsername followeeUsername = replies at *
  obtain ⟨userReply, followeeReply, after⟩ := replies
  cases userReply with
  | error err => simp [Except.isOk, Except.toBool]
  | ok userID =>
      cases followeeReply with
      | error err => simp [Except.isOk, Except.toBool]
      | ok followeeID =>
          simp only [byIDs_toStores (hlookedUp.graph.trans hgraph)]
          simp [Except.isOk, Except.toBool]

theorem Verb.isSuccess_answer (verb : Verb) (params : FollowParams)
    (call : Except Error Unit × Stores) :
    (verb.answer params call).1.isSuccess = call.1.isOk := by
  obtain ⟨result, next⟩ := call
  cases result <;> rfl

theorem edgeHandler_isSuccess_iff {verb : Verb} (hgood : Coherent stores)
    (hgraph : stores.graph = graph.toStores) (hup : env.Up)
    (hids : verb.byIDs stores env = byIDs action stores env)
    (hnames : verb.byUsernames stores env =
      withUsernames (byIDs action) stores env)
    (form : Except String Form) :
    (edgeHandler verb stores env form).1.isSuccess = true ↔
      Accepted stores.users form := by
  unfold edgeHandler Accepted
  cases hvalidate : validateFollowParams form with
  | error text => simp [Response.isSuccess]
  | ok params =>
      have hparams : ∀ p : FollowParams → Prop, (∃ params',
          Except.ok (ε := String) params = .ok params' ∧ p params') ↔
            p params := by
        intro p
        simp
      rw [hparams]
      simp only
      split
      next hgiven =>
        refine iff_of_true ?_ (.inl hgiven)
        rw [Verb.isSuccess_answer, component, if_pos (hup .socialGraph),
          hids, byIDs_toStores hgraph]
        rfl
      next hgiven =>
        split
        next hnamed =>
          rw [Verb.isSuccess_answer, component, if_pos (hup .socialGraph),
            hnames, withUsernames_isOk_iff hgood hgraph hup]
          simp [hgiven, hnamed]
        next hunnamed =>
          refine iff_of_false Bool.false_ne_true ?_
          rintro (hids | ⟨huser, hfollowee, -⟩)
          · exact hgiven hids
          · exact hunnamed ⟨huser, hfollowee⟩

theorem followHandler_isSuccess_iff (hgood : Coherent stores)
    (hgraph : stores.graph = graph.toStores) (hup : env.Up)
    {form : Except String Form} :
    (followHandler stores env form).1.isSuccess = true ↔
      Accepted stores.users form :=
  edgeHandler_isSuccess_iff hgood hgraph hup (follow_eq env) rfl form

theorem unfollowHandler_isSuccess_iff (hgood : Coherent stores)
    (hgraph : stores.graph = graph.toStores) (hup : env.Up)
    {form : Except String Form} :
    (unfollowHandler stores env form).1.isSuccess = true ↔
      Accepted stores.users form :=
  edgeHandler_isSuccess_iff hgood hgraph hup (unfollow_eq env) rfl form

end Accepted

/-- When all stores are reachable, both handlers accept the same requests,
whatever was served before, and a refused request leaves the graph alone. -/
theorem follow_isSuccess_iff (hashPwd : String → String)
    (sign : UserService.Claims → Option String) (machineID : String)
    (requests : List Request) {session : Session}
    (hsession : Session.initial.serveAll hashPwd sign machineID requests =
      session) (hup : env.Up) (form : Except String Form) :
    ((followHandler session.stores env form).1.isSuccess = true ↔
        Accepted session.stores.users form) ∧
      ((unfollowHandler session.stores env form).1.isSuccess = true ↔
        Accepted session.stores.users form) ∧
      (¬ Accepted session.stores.users form →
        (followHandler session.stores env form).2.graph =
            session.stores.graph ∧
          (unfollowHandler session.stores env form).2.graph =
            session.stores.graph) := by
  obtain ⟨calls, hgood⟩ :=
    Session.Told.initial.serveAll hashPwd sign machineID requests
  rw [hsession] at hgood
  have hfollow : (followHandler session.stores env form).1.isSuccess = true ↔
      Accepted session.stores.users form :=
    followHandler_isSuccess_iff hgood.coherent hgood.graph hup
  have hunfollow :
      (unfollowHandler session.stores env form).1.isSuccess = true ↔
        Accepted session.stores.users form :=
    unfollowHandler_isSuccess_iff hgood.coherent hgood.graph hup
  refine ⟨hfollow, hunfollow, fun hrefused => ⟨?_, ?_⟩⟩
  · rcases (followHandler_served hgood.coherent hgood.graph form).graph with
      ⟨-, hgraph⟩ | ⟨_, _, hsuccess, -⟩
    · exact hgraph.trans hgood.graph.symm
    · exact absurd (hfollow.mp hsuccess) hrefused
  · rcases (unfollowHandler_served hgood.coherent hgood.graph form).graph
      with ⟨-, hgraph⟩ | ⟨_, _, hsuccess, -⟩
    · exact hgraph.trans hgood.graph.symm
    · exact absurd (hunfollow.mp hsuccess) hrefused

theorem follow_isSuccess_iff_sample :
    (followHandler (Session.initial.serveAll sampleHash sampleSign "a7"
        sampleSession).stores sampleFollowEnv
        (sampleNames "rui" "ana")).1.isSuccess = true := by
  refine (follow_isSuccess_iff sampleHash sampleSign "a7" sampleSession rfl
    (fun _ => rfl) (sampleNames "rui" "ana")).1.mpr ?_
  refine ⟨_, rfl, .inr ⟨?_, ?_, ⟨⟨?_, ?_⟩, ?_⟩, ⟨?_, ?_⟩, ?_⟩⟩ <;>
    decide +kernel

end SocialNetwork.FollowHandlers
