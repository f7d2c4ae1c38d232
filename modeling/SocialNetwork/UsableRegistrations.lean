import SocialNetwork.UserHandlers

/-!
# Use of accepted registrations

The stores stay coherent from request to request: a username has one document,
and the cache holds what the documents say.  What a login and `GetUserId`
answer then depends on their arguments alone.
-/

namespace SocialNetwork.UserHandlers

open Json Users UserService

/-! ## Keys -/

/-- The usernames whose two keys are legal: the longer suffix has eight
bytes. -/
def LegalUsername (username : String) : Prop :=
  username.utf8ByteSize ≤ 242 ∧ username.toList.all legalChar = true

theorem legalKey_iff {key : String} :
    legalKey key = true ↔
      key.utf8ByteSize ≤ 250 ∧ key.toList.all legalChar = true := by
  rw [legalKey, Bool.and_eq_true, decide_eq_true_eq]

theorem legalKey_userIDKey_iff {username : String} :
    legalKey (userIDKey username) = true ↔ LegalUsername username := by
  have hsuffix : ":user_id".toList.all legalChar = true := by decide
  have hsize : ":user_id".utf8ByteSize = 8 := by decide
  rw [legalKey_iff, LegalUsername, userIDKey, String.utf8ByteSize_append,
    hsize, String.toList_append, List.all_append, hsuffix, Bool.and_true]
  constructor
  · intro hlegal
    exact ⟨by omega, hlegal.2⟩
  · intro hlegal
    exact ⟨by omega, hlegal.2⟩

theorem LegalUsername.legalKey_loginKey {username : String}
    (h : LegalUsername username) : legalKey (loginKey username) = true := by
  have hsuffix : ":login".toList.all legalChar = true := by decide
  have hsize : ":login".utf8ByteSize = 6 := by decide
  rw [legalKey_iff, loginKey, String.utf8ByteSize_append, hsize,
    String.toList_append, List.all_append, hsuffix, Bool.and_true]
  have hbytes := h.1
  exact ⟨by omega, h.2⟩

/-! ## Coherent stores -/

structure Coherent (stores : Stores) : Prop where
  usernames : (stores.users.map User.username).Nodup
  entries : ∀ entry username value,
    stores.cache (Entry.key entry username) = some value →
      TrueEntry stores.users entry username value

section Stores

variable {stores next : Stores} {env : Env} {username : String} {user : User}

theorem Coherent.initial : Coherent Stores.initial where
  usernames := List.nodup_nil
  entries _ _ _ hvalue := nomatch hvalue

theorem Coherent.evict (hgood : Coherent stores) (key : String) :
    Coherent { stores with
      cache := Function.update stores.cache key none } where
  usernames := hgood.usernames
  entries entry username value hvalue := by
    simp only at hvalue
    by_cases hkey : entry.key username = key
    · rw [hkey, Function.update_self] at hvalue
      cases hvalue
    · rw [Function.update_of_ne hkey] at hvalue
      exact hgood.entries entry username value hvalue

/-- A document under a new username. -/
theorem Coherent.insert (hgood : Coherent stores) (user : User)
    (hnew : ∀ other ∈ stores.users, other.username ≠ user.username) :
    Coherent { stores with users := stores.users ++ [user] } where
  usernames := by
    change ((stores.users ++ [user]).map User.username).Nodup
    rw [List.map_append, List.map_singleton]
    apply List.Nodup.append hgood.usernames (List.nodup_singleton _)
    intro username hmem hlast
    obtain ⟨other, hother, rfl⟩ := List.mem_map.mp hmem
    exact hnew other hother (List.mem_singleton.mp hlast)
  entries entry username value hvalue :=
    (hgood.entries entry username value hvalue).mono
      (List.subset_append_left _ _)

theorem Stores.set_eq_ok {key : String} {value : Json}
    (hset : stores.set env key value = .ok next) :
    next = { stores with
      cache := Function.update stores.cache key (some value) } := by
  unfold Stores.set at hset
  split at hset
  next => cases hset
  next =>
    split at hset
    next => cases hset
    next => exact (Except.ok.inj hset).symm

theorem Coherent.set (hgood : Coherent stores) (entry : Entry)
    {value : Json} (htrue : TrueEntry stores.users entry username value)
    (hset : stores.set env (entry.key username) value = .ok next) :
    Coherent next ∧ next.users = stores.users := by
  have hnext := Stores.set_eq_ok hset
  subst hnext
  refine ⟨⟨hgood.usernames, ?_⟩, rfl⟩
  intro entry' username' value' hvalue
  simp only at hvalue
  by_cases hkey : entry'.key username' = entry.key username
  · obtain ⟨rfl, rfl⟩ := Entry.key_inj.mp hkey
    rw [Function.update_self, Option.some.injEq] at hvalue
    subst hvalue
    exact htrue
  · rw [Function.update_of_ne hkey] at hvalue
    exact hgood.entries entry' username' value' hvalue

theorem Stores.get_eq_ok {key : String} {reply : Option Json}
    (hget : stores.get env key = .ok reply) : reply = stores.cache key := by
  unfold Stores.get at hget
  split at hget
  next => cases hget
  next =>
    split at hget
    next => cases hget
    next => exact (Except.ok.inj hget).symm

theorem mem_find_iff (order : FindOrder) (users : List User) :
    user ∈ order.find users {username} ↔
      user ∈ users ∧ user.username = username := by
  rw [(order.perm users {username}).mem_iff, List.mem_filter,
    decide_eq_true_eq, Finset.mem_singleton]

theorem Stores.find_eq_some (hfind : stores.find env username =
      .ok (some user)) :
    user ∈ stores.users ∧ user.username = username := by
  unfold Stores.find at hfind
  split at hfind
  next =>
    have hhead := Except.ok.inj hfind
    exact (mem_find_iff env.order stores.users).mp
      (List.mem_of_head? hhead)
  next => cases hfind

theorem Stores.find_eq_none (hfind : stores.find env username = .ok none) :
    ∀ other ∈ stores.users, other.username ≠ username := by
  unfold Stores.find at hfind
  split at hfind
  next =>
    have hempty := List.head?_eq_none_iff.mp (Except.ok.inj hfind)
    intro other hother hname
    have hmem := (mem_find_iff env.order stores.users).mpr ⟨hother, hname⟩
    rw [hempty] at hmem
    exact absurd hmem List.not_mem_nil
  next => cases hfind

/-! ## Reads -/

def Env.Up (env : Env) : Prop :=
  ∀ store, env.reachable store = true

theorem Env.Up.get (hup : env.Up) {key : String} :
    stores.get env key =
      if legalKey key then .ok (stores.cache key)
      else .error .malformedKey := by
  unfold Stores.get
  cases legalKey key <;> simp [hup .memcached]

theorem Env.Up.set (hup : env.Up) {key : String}
    (hlegal : legalKey key = true) (value : Json) :
    stores.set env key value = .ok { stores with
      cache := Function.update stores.cache key (some value) } := by
  simp [Stores.set, hlegal, hup .memcached]

/-- The username has one document, so its order does not matter. -/
theorem Coherent.find (hgood : Coherent stores) (hup : env.Up)
    (huser : user ∈ stores.users) :
    stores.find env user.username = .ok (some user) := by
  have hmem : user ∈ env.order.find stores.users {user.username} :=
    (mem_find_iff env.order stores.users).mpr ⟨huser, rfl⟩
  obtain ⟨found, hfound⟩ := Option.isSome_iff_exists.mp
    (List.isSome_head?.mpr (List.ne_nil_of_mem hmem))
  obtain ⟨hstored, hname⟩ := (mem_find_iff env.order stores.users).mp
    (List.mem_of_head? hfound)
  have hsame : found = user :=
    List.inj_on_of_nodup_map hgood.usernames hstored huser hname
  rw [Stores.find, if_pos (hup .mongodb), hfound, hsame]

/-- A registered user has no other entries. -/
theorem Coherent.entry_eq (hgood : Coherent stores)
    (huser : user ∈ stores.users) (entry : Entry) {value : Json}
    (hvalue : stores.cache (entry.key user.username) = some value) :
    value = entry.value user := by
  obtain ⟨other, hother, hname, rfl⟩ :=
    hgood.entries entry user.username value hvalue
  rw [List.inj_on_of_nodup_map hgood.usernames hother huser hname]

theorem Coherent.loadLogin (hgood : Coherent stores) (hup : env.Up)
    (huser : user ∈ stores.users) :
    loadLogin stores env user.username =
      if legalKey (loginKey user.username) then .ok (loginInfo user)
      else .error .malformedKey := by
  unfold UserHandlers.loadLogin
  rw [hup.get]
  by_cases hlegal : legalKey (loginKey user.username) = true
  · rw [if_pos hlegal, if_pos hlegal]
    cases hvalue : stores.cache (loginKey user.username) with
    | none =>
        simp only [bind, Except.bind, hgood.find hup huser]
        rfl
    | some value =>
        have hentry := hgood.entry_eq huser .login hvalue
        subst hentry
        simp [bind, Except.bind, Entry.value]
        rfl
  · rw [if_neg hlegal, if_neg hlegal]
    rfl

theorem loadLogin_eq_ok (hgood : Coherent stores) {info : LoginInfo}
    (hload : loadLogin stores env username = .ok info) :
    TrueEntry stores.users .login username (marshal info) := by
  unfold loadLogin at hload
  obtain ⟨reply, hget, hload⟩ := bind_eq_ok hload
  have hreply := Stores.get_eq_ok hget
  cases reply with
  | some value =>
      have hentry := hgood.entries .login username value hreply.symm
      obtain ⟨user, huser, hname, rfl⟩ := hentry
      simp only [Entry.value, unmarshal_marshal] at hload
      have hinfo := Except.ok.inj hload
      subst hinfo
      exact ⟨user, huser, hname, rfl⟩
  | none =>
      obtain ⟨found, hfind, hload⟩ := bind_eq_ok hload
      cases found with
      | none => cases hload
      | some user =>
          have hinfo := Except.ok.inj hload
          subst hinfo
          obtain ⟨huser, hname⟩ := Stores.find_eq_some hfind
          exact ⟨user, huser, hname, rfl⟩

section Service

variable {hashPwd : String → String} {sign : Claims → Option String}
  {machineID : String} {password : String}

/-- A successful login writes back what it has read. -/
theorem login_eq_ok {token : String}
    (hlogin : Login hashPwd sign stores env username password =
      .ok (token, next)) :
    ∃ info, loadLogin stores env username = .ok info ∧
      stores.set env (loginKey username) (marshal info) = .ok next := by
  unfold Login at hlogin
  obtain ⟨info, hload, hlogin⟩ := bind_eq_ok hlogin
  split at hlogin
  next => cases hlogin
  next =>
    split at hlogin
    next => cases hlogin
    next =>
      obtain ⟨written, hset, hlogin⟩ := bind_eq_ok hlogin
      have hnext := (Prod.mk.inj (Except.ok.inj hlogin)).2
      subst hnext
      exact ⟨info, hload, hset⟩

theorem Coherent.login (hgood : Coherent stores) {token : String}
    (hlogin : Login hashPwd sign stores env username password =
      .ok (token, next)) :
    Coherent next ∧ next.users = stores.users := by
  obtain ⟨info, hload, hset⟩ := login_eq_ok hlogin
  exact hgood.set .login (loadLogin_eq_ok hgood hload) hset

theorem Coherent.getUserId (hgood : Coherent stores) {userID : Int64}
    (hget : GetUserId stores env username = .ok (userID, next)) :
    Coherent next ∧ next.users = stores.users := by
  unfold GetUserId at hget
  obtain ⟨reply, -, hget⟩ := bind_eq_ok hget
  cases reply with
  | some value =>
      simp only at hget
      split at hget
      next =>
        have hnext := (Prod.mk.inj (Except.ok.inj hget)).2
        subst hnext
        exact ⟨hgood, rfl⟩
      next => cases hget
  | none =>
      obtain ⟨found, hfind, hget⟩ := bind_eq_ok hget
      cases found with
      | none => cases hget
      | some user =>
          obtain ⟨huser, hname⟩ := Stores.find_eq_some hfind
          obtain ⟨written, hset, hget⟩ := bind_eq_ok hget
          have hnext := (Prod.mk.inj (Except.ok.inj hget)).2
          subst hnext
          exact hgood.set .userID ⟨user, huser, hname, rfl⟩ hset

theorem Coherent.uploadCreator (hgood : Coherent stores) {creator : Creator}
    (hupload : UploadCreatorWithUsername stores env username =
      .ok (creator, next)) :
    Coherent next ∧ next.users = stores.users := by
  unfold UploadCreatorWithUsername at hupload
  obtain ⟨out, hget, hupload⟩ := bind_eq_ok hupload
  have hnext := (Prod.mk.inj (Except.ok.inj hupload)).2
  subst hnext
  exact hgood.getUserId hget

/-- A login of a registered user with all stores reachable. -/
theorem Coherent.login_isOk_iff (hgood : Coherent stores)
    (hashPwd : String → String) (password : String) (hup : env.Up)
    (hsign : ∀ claims, (sign claims).isSome) (huser : user ∈ stores.users) :
    (Login hashPwd sign stores env user.username password).isOk ↔
      legalKey (loginKey user.username) = true ∧
        hashPwd (password ++ user.salt) = user.pwdHashed := by
  unfold Login
  rw [hgood.loadLogin hup huser]
  by_cases hlegal : legalKey (loginKey user.username) = true
  · rw [if_pos hlegal]
    obtain ⟨token, htoken⟩ := Option.isSome_iff_exists.mp
      (hsign ⟨user.username, idText user.userID, env.timestamp,
        env.expiresAt⟩)
    by_cases hpassword : hashPwd (password ++ user.salt) = user.pwdHashed
    · simp [bind, Except.bind, loginInfo, hpassword, htoken,
        hup.set hlegal, hlegal]
      rfl
    · simp [bind, Except.bind, loginInfo, hpassword]
      rfl
  · rw [if_neg hlegal]
    simp [bind, Except.bind, hlegal, Except.isOk, Except.toBool]

theorem Coherent.getUserId_eq (hgood : Coherent stores) (hup : env.Up)
    (huser : user ∈ stores.users) :
    (GetUserId stores env user.username).map Prod.fst =
      if legalKey (userIDKey user.username) then .ok user.userID
      else .error .malformedKey := by
  unfold GetUserId
  rw [hup.get]
  by_cases hlegal : legalKey (userIDKey user.username) = true
  · rw [if_pos hlegal, if_pos hlegal]
    cases hvalue : stores.cache (userIDKey user.username) with
    | none =>
        simp only [bind, Except.bind, hgood.find hup huser,
          hup.set hlegal]
        rfl
    | some value =>
        have hentry := hgood.entry_eq huser .userID hvalue
        subst hentry
        simp [bind, Except.bind, Entry.value]
        rfl
  · rw [if_neg hlegal, if_neg hlegal]
    rfl

/-! ## Registrations -/

/-- The registration found no document under its username and added its
own. -/
structure Inserted (hashPwd : String → String) (stores next : Stores)
    (registration : Registration) (userID : Int64) (salt : String) :
    Prop where
  unused : ∀ other ∈ stores.users, other.username ≠ registration.username
  users : next.users =
    stores.users ++ [registration.user hashPwd userID salt]
  cache : next.cache = stores.cache

structure Unchanged (stores next : Stores) : Prop where
  users : next.users = stores.users
  cache : next.cache = stores.cache

theorem Coherent.congr (hgood : Coherent stores)
    (h : Unchanged stores next) : Coherent next where
  usernames := by
    rw [h.users]
    exact hgood.usernames
  entries entry username value hvalue := by
    rw [h.cache] at hvalue
    rw [h.users]
    exact hgood.entries entry username value hvalue

theorem Coherent.inserted (hgood : Coherent stores)
    {registration : Registration} {userID : Int64} {salt : String}
    (h : Inserted hashPwd stores next registration userID salt) :
    Coherent next :=
  (hgood.insert (registration.user hashPwd userID salt)
    h.unused).congr ⟨h.users, h.cache⟩

theorem registerUserWithId_spec (registration : Registration)
    (userID : Int64) {result : Except Error Unit}
    (hregister : RegisterUserWithId hashPwd stores env registration userID =
      (result, next)) :
    (result.isOk = false ∧ Unchanged stores next) ∨
      Inserted hashPwd stores next registration userID env.salt := by
  unfold RegisterUserWithId at hregister
  cases hfind : stores.find env registration.username with
  | error err =>
      rw [hfind] at hregister
      obtain ⟨rfl, rfl⟩ := Prod.mk.inj hregister
      exact .inl ⟨rfl, rfl, rfl⟩
  | ok found =>
      rw [hfind] at hregister
      cases found with
      | some other =>
          obtain ⟨rfl, rfl⟩ := Prod.mk.inj hregister
          exact .inl ⟨rfl, rfl, rfl⟩
      | none =>
          have hunused := Stores.find_eq_none hfind
          simp only at hregister
          split at hregister
          next =>
            obtain ⟨-, rfl⟩ := Prod.mk.inj hregister
            exact .inr ⟨hunused, rfl, rfl⟩
          next =>
            obtain ⟨-, rfl⟩ := Prod.mk.inj hregister
            exact .inr ⟨hunused, rfl, rfl⟩

theorem registerUser_spec (registration : Registration)
    {result : Except Error Unit}
    (hregister : RegisterUser hashPwd machineID stores env registration =
      (result, next)) :
    (result.isOk = false ∧ Unchanged stores next) ∨
      ∃ userID,
        Inserted hashPwd stores next registration userID env.salt := by
  unfold RegisterUser at hregister
  simp only at hregister
  split at hregister
  next =>
    obtain ⟨rfl, rfl⟩ := Prod.mk.inj hregister
    exact .inl ⟨rfl, rfl, rfl⟩
  next =>
    split at hregister
    next =>
      obtain ⟨rfl, rfl⟩ := Prod.mk.inj hregister
      exact .inl ⟨rfl, rfl, rfl⟩
    next id _ =>
      rcases registerUserWithId_spec registration id hregister with
        ⟨hresult, husers, hcache⟩ | hinserted
      · exact .inl ⟨hresult, husers, hcache⟩
      · exact .inr ⟨id, hinserted.unused, hinserted.users,
          hinserted.cache⟩

/-- The id in the form, if there is one, is the one that is used. -/
theorem registerHandler_spec {form : Except String Form}
    {response : Response}
    (hregister : registerHandler hashPwd machineID stores env form =
      (response, next)) :
    (response.isSuccess = false ∧ Unchanged stores next) ∨
      ∃ params userID, validateRegisterParams form = .ok params ∧
        (params.userID ≠ -1 → userID = params.userID) ∧
        Inserted hashPwd stores next params.registration userID
          env.salt := by
  unfold registerHandler at hregister
  cases hvalidate : validateRegisterParams form with
  | error text =>
      rw [hvalidate] at hregister
      obtain ⟨rfl, rfl⟩ := Prod.mk.inj hregister
      exact .inl ⟨rfl, rfl, rfl⟩
  | ok params =>
      rw [hvalidate] at hregister
      simp only at hregister
      generalize hout : (if params.userID = -1 then
          RegisterUser hashPwd machineID stores env params.registration
        else RegisterUserWithId hashPwd stores env params.registration
          params.userID) = out at hregister
      obtain ⟨result, registered⟩ := out
      have hspec : (result.isOk = false ∧ Unchanged stores registered) ∨
          ∃ userID, (params.userID ≠ -1 → userID = params.userID) ∧
            Inserted hashPwd stores registered params.registration userID
              env.salt := by
        split at hout
        next hid =>
          rcases registerUser_spec params.registration hout with
            hunchanged | ⟨userID, hinserted⟩
          · exact .inl hunchanged
          · exact .inr ⟨userID, fun h => absurd hid h, hinserted⟩
        next =>
          rcases registerUserWithId_spec params.registration params.userID
            hout with hunchanged | hinserted
          · exact .inl hunchanged
          · exact .inr ⟨params.userID, fun _ => rfl, hinserted⟩
      cases result with
      | error err =>
          obtain ⟨rfl, rfl⟩ := Prod.mk.inj hregister
          rcases hspec with hunchanged | ⟨userID, hid, hinserted⟩
          · exact .inl ⟨rfl, hunchanged.2⟩
          · exact .inr ⟨params, userID, rfl, hid, hinserted⟩
      | ok done =>
          obtain ⟨-, rfl⟩ := Prod.mk.inj hregister
          rcases hspec with hunchanged | ⟨userID, hid, hinserted⟩
          · cases hunchanged.1
          · exact .inr ⟨params, userID, rfl, hid, hinserted⟩

theorem validateRegisterParams_eq_ok {form : Form} {params : RegisterParams}
    (hvalidate : validateRegisterParams (.ok form) = .ok params) :
    params.registration.username = form "username" ∧
      params.registration.password = form "password" ∧
      form "username" ≠ "" := by
  unfold validateRegisterParams at hvalidate
  simp only at hvalidate
  split at hvalidate
  next => cases hvalidate
  next userID _ =>
    split at hvalidate
    next => cases hvalidate
    next hname =>
      split at hvalidate
      next => cases hvalidate
      next =>
        split at hvalidate
        next => cases hvalidate
        next =>
          have hparams := Except.ok.inj hvalidate
          subst hparams
          exact ⟨rfl, rfl, hname⟩

theorem loginHandler_isSuccess_iff {form : Form} :
    (loginHandler hashPwd sign stores env (.ok form)).1.isSuccess = true ↔
      form "username" ≠ "" ∧ form "password" ≠ "" ∧
        (Login hashPwd sign stores env (form "username")
          (form "password")).isOk = true := by
  unfold loginHandler validateLoginParams
  by_cases hname : form "username" = ""
  · simp [hname, Response.isSuccess]
  · by_cases hpassword : form "password" = ""
    · simp [hname, hpassword, Response.isSuccess]
    · simp only [if_neg hname, if_neg hpassword]
      cases Login hashPwd sign stores env (form "username")
        (form "password") with
      | error err =>
          simp [Response.isSuccess, Except.isOk, Except.toBool]
      | ok out =>
          simp [Response.isSuccess, Except.isOk, Except.toBool, hname,
            hpassword]

theorem Coherent.loginHandler (hgood : Coherent stores)
    (form : Except String Form) :
    Coherent (loginHandler hashPwd sign stores env form).2 ∧
      (loginHandler hashPwd sign stores env form).2.users =
        stores.users := by
  unfold UserHandlers.loginHandler
  cases validateLoginParams form with
  | error text => exact ⟨hgood, rfl⟩
  | ok params =>
      simp only
      cases hlogin : Login hashPwd sign stores env params.username
        params.password with
      | error err => exact ⟨hgood, rfl⟩
      | ok out => exact hgood.login hlogin

/-! ## Runs -/

theorem Coherent.register (hgood : Coherent stores)
    (form : Except String Form) :
    Coherent (registerHandler hashPwd machineID stores env form).2 ∧
      stores.users ⊆
        (registerHandler hashPwd machineID stores env form).2.users := by
  rcases registerHandler_spec
    (Prod.mk.eta (p := registerHandler hashPwd machineID stores env form)
      |>.symm) with ⟨-, hunchanged⟩ | ⟨params, userID, -, -, hinserted⟩
  · refine ⟨hgood.congr hunchanged, ?_⟩
    rw [hunchanged.users]
    exact List.Subset.refl _
  · refine ⟨hgood.inserted hinserted, ?_⟩
    rw [hinserted.users]
    exact List.subset_append_left _ _

/-- Stores stay coherent, and no document is lost. -/
theorem Coherent.serve (hgood : Coherent stores)
    (hashPwd : String → String) (sign : Claims → Option String)
    (machineID : String) (request : Request) :
    Coherent (serve hashPwd sign machineID stores request) ∧
      stores.users ⊆
        (serve hashPwd sign machineID stores request).users := by
  have hread : ∀ {after : Stores}, Coherent after ∧
      after.users = stores.users →
      Coherent after ∧ stores.users ⊆ after.users := by
    intro after hafter
    rw [hafter.2]
    exact ⟨hafter.1, List.Subset.refl _⟩
  have hsame : Coherent stores ∧ stores.users ⊆ stores.users :=
    ⟨hgood, List.Subset.refl _⟩
  cases request with
  | register env form => exact hgood.register form
  | login env form => exact hread (hgood.loginHandler form)
  | getUserId env username =>
      simp only [UserHandlers.serve]
      cases hget : GetUserId stores env username with
      | error err => exact hsame
      | ok out => exact hread (hgood.getUserId hget)
  | uploadCreatorWithUsername env username =>
      simp only [UserHandlers.serve]
      cases hupload : UploadCreatorWithUsername stores env username with
      | error err => exact hsame
      | ok out => exact hread (hgood.uploadCreator hupload)
  | evict key => exact ⟨hgood.evict key, List.Subset.refl _⟩

theorem Coherent.serveAll (hgood : Coherent stores)
    (hashPwd : String → String) (sign : Claims → Option String)
    (machineID : String) (requests : List Request) :
    Coherent (serveAll hashPwd sign machineID stores requests) ∧
      stores.users ⊆
        (serveAll hashPwd sign machineID stores requests).users := by
  induction requests generalizing stores with
  | nil => exact ⟨hgood, List.Subset.refl _⟩
  | cons request requests ih =>
      obtain ⟨hserved, hsubset⟩ :=
        hgood.serve hashPwd sign machineID request
      obtain ⟨hlast, hsubset'⟩ := ih hserved
      exact ⟨hlast, List.Subset.trans hsubset hsubset'⟩

end Service

end Stores

/-! ## Accepted registrations -/

/-- A login with the name and the password succeeds, and the name gives the
id. -/
def Usable (hashPwd : String → String) (sign : Claims → Option String)
    (stores : Stores) (env : Env) (form : Form) (userID : Int64) : Prop :=
  (loginHandler hashPwd sign stores env (.ok form)).1.isSuccess = true ∧
    (GetUserId stores env (form "username")).map Prod.fst = .ok userID

/-- An accepted registration can be used, at any later time, exactly when its
password is not empty and its username fits into the cache keys. -/
theorem registered_usable_iff (hashPwd : String → String)
    (sign : Claims → Option String) (machineID : String)
    (hsign : ∀ claims, (sign claims).isSome) (before after : List Request)
    (env env' : Env) (form form' : Form) {response : Response}
    {registered : Stores}
    (hregister : registerHandler hashPwd machineID
      (serveAll hashPwd sign machineID Stores.initial before) env
      (.ok form) = (response, registered))
    (hsuccess : response.isSuccess = true) (hup : env'.Up)
    (hname : form' "username" = form "username")
    (hpassword : form' "password" = form "password") :
    ∃ params user, validateRegisterParams (.ok form) = .ok params ∧
      registered.users =
        (serveAll hashPwd sign machineID Stores.initial before).users ++
          [user] ∧
      user.username = form "username" ∧
      (params.userID ≠ -1 → user.userID = params.userID) ∧
      (Usable hashPwd sign
          (serveAll hashPwd sign machineID registered after) env' form'
          user.userID ↔
        form "password" ≠ "" ∧ LegalUsername (form "username")) := by
  have hbefore : Coherent
      (serveAll hashPwd sign machineID Stores.initial before) :=
    (Coherent.initial.serveAll hashPwd sign machineID before).1
  rcases registerHandler_spec hregister with ⟨hfailed, -⟩ |
    ⟨params, userID, hvalidate, hid, hinserted⟩
  · rw [hsuccess] at hfailed
    cases hfailed
  · obtain ⟨hparams, hparams', hnonempty⟩ :=
      validateRegisterParams_eq_ok hvalidate
    refine ⟨params, params.registration.user hashPwd userID env.salt,
      hvalidate, hinserted.users, hparams, hid, ?_⟩
    obtain ⟨hlater, hsubset⟩ :=
      (hbefore.inserted hinserted).serveAll hashPwd sign machineID after
    have huser : params.registration.user hashPwd userID env.salt ∈
        (serveAll hashPwd sign machineID registered after).users := by
      apply hsubset
      rw [hinserted.users]
      exact List.mem_append_right _ List.mem_cons_self
    have hlogin := hlater.login_isOk_iff hashPwd (form "password") hup
      hsign huser
    have hget := hlater.getUserId_eq hup huser
    have husername : (params.registration.user hashPwd userID
        env.salt).username = form "username" := hparams
    rw [husername] at hlogin hget
    rw [Usable, loginHandler_isSuccess_iff, hname, hpassword, hlogin, hget]
    constructor
    · intro husable
      obtain ⟨⟨-, hgiven, -⟩, hid⟩ := husable
      refine ⟨hgiven, legalKey_userIDKey_iff.mp ?_⟩
      by_contra hillegal
      rw [if_neg hillegal] at hid
      cases hid
    · intro hlegal
      refine ⟨⟨hnonempty, hlegal.1, hlegal.2.legalKey_loginKey, ?_⟩, ?_⟩
      · change _ = hashPwd (params.registration.password ++ env.salt)
        rw [hparams']
        rfl
      · rw [if_pos (legalKey_userIDKey_iff.mpr hlegal.2)]

def sampleEnv : Env where
  reachable _ := true
  order := FindOrder.natural
  timestamp := 1000
  expiresAt := 0
  salt := "salt"

def sampleForm (username password : String) : Form
  | "username" => username
  | "first_name" => "Ana"
  | "last_name" => "Lima"
  | "password" => password
  | "user_id" => "7"
  | _ => ""

def sampleSign (claims : Claims) : Option String :=
  some (claims.username ++ "/" ++ claims.userID)

theorem registered_usable_iff_sample :
    ∃ registered user, registered.users = [user] ∧ user.username = "ana" ∧
      Usable sampleHash sampleSign
        (serveAll sampleHash sampleSign "a7" registered
          [.login sampleEnv (.ok (sampleForm "ana" "secret")),
            .evict "ana:login"]) sampleEnv (sampleForm "ana" "secret")
        user.userID := by
  obtain ⟨params, user, -, husers, hname, -, husable⟩ :=
    registered_usable_iff sampleHash sampleSign "a7" (fun _ => rfl) []
      [.login sampleEnv (.ok (sampleForm "ana" "secret")),
        .evict "ana:login"] sampleEnv sampleEnv (sampleForm "ana" "secret")
      (sampleForm "ana" "secret") rfl (by decide +kernel) (fun _ => rfl) rfl
      rfl
  refine ⟨_, user, husers, hname, husable.mpr ⟨by decide, ?_⟩⟩
  exact ⟨by decide, by decide⟩

/-- The registration accepts an empty password, which no login may use. -/
theorem not_registered_usable :
    ¬ ∀ (hashPwd : String → String) (sign : Claims → Option String)
        (machineID : String) (before after : List Request) (env env' : Env)
        (form form' : Form) (response : Response) (registered : Stores),
      (∀ claims, (sign claims).isSome) →
      registerHandler hashPwd machineID
          (serveAll hashPwd sign machineID Stores.initial before) env
          (.ok form) = (response, registered) →
      response.isSuccess = true → env'.Up →
      form' "username" = form "username" →
      form' "password" = form "password" →
      ∃ user ∈ registered.users, user.username = form "username" ∧
        Usable hashPwd sign
          (serveAll hashPwd sign machineID registered after) env' form'
          user.userID := by
  intro hclaim
  obtain ⟨user, -, -, hlogin, -⟩ :=
    hclaim sampleHash sampleSign "a7" [] [] sampleEnv sampleEnv
      (sampleForm "ana" "") (sampleForm "ana" "") _ _ (fun _ => rfl) rfl
      (by decide +kernel) (fun _ => rfl) rfl rfl
  revert hlogin
  decide +kernel

end SocialNetwork.UserHandlers
