import SocialNetwork.Users

/-!
# Mentioned users

`UploadUserMentions` of `usermention.go` with all store calls succeeding.  The
ids found in memcached are collected in a list without the names they belong
to, and are then given to the first names of the input.
-/

namespace SocialNetwork.UserMentions

open Json Users

/-- `revLookup` after the first loop: the later assignment to a key stays. -/
def revLookup (usernames : List String) : String → String :=
  usernames.foldl
    (fun lookup name => Function.update lookup (userIDKey name) name)
    fun _ => ""

/-- The loop over the keys that decodes the ids found in memcached. -/
def userIDsCached (result : Memcached) : List String → Option (List Int64)
  | [] => some []
  | key :: keys =>
      match result key with
      | none => userIDsCached result keys
      | some val =>
          match unmarshal val with
          | none => none
          | some userID => (userIDsCached result keys).map (userID :: ·)

def mention (user : User) : UserMention := ⟨user.userID, user.username⟩

/-- The mentions that are passed to `ComposePostService`; `none` when the
function returns without a call. -/
def UploadUserMentions (order : FindOrder) (users : List User)
    (cache : Memcached) (usernames : List String) :
    Option (List UserMention) :=
  let keys := usernames.map userIDKey
  match userIDsCached (getMulti cache keys) keys with
  | none => none
  | some userIDs =>
      -- The `i`-th cached id is given to the `i`-th key.
      let userMentions := List.zipWith
        (fun key userID =>
          (⟨userID, revLookup usernames key⟩ : UserMention)) keys userIDs
      let usersNotCached := usernames.toFinset \
        (userMentions.map UserMention.username).toFinset
      if usersNotCached.card ≠ 0 then
        some (userMentions ++
          (order.find users usersNotCached).map mention)
      else some userMentions

/-- The mentions that the first loop over the ids builds. -/
def cachedMentions (usernames : List String) (userIDs : List Int64) :
    List UserMention :=
  List.zipWith (fun key userID => ⟨userID, revLookup usernames key⟩)
    (usernames.map userIDKey) userIDs

/-- The names that this loop leaves in `usersNotCached`. -/
def usersNotCached (usernames : List String)
    (userMentions : List UserMention) : Finset String :=
  usernames.toFinset \ (userMentions.map UserMention.username).toFinset

/-! ## The cached ids -/

section Upload

variable {users : List User} {cache : Memcached} {usernames : List String}

def CachedName (cache : Memcached) (username : String) : Prop :=
  (cache (userIDKey username)).isSome

instance (cache : Memcached) : DecidablePred (CachedName cache) :=
  fun username => by
    unfold CachedName
    infer_instance

def cachedNames (cache : Memcached) (usernames : List String) :
    List String :=
  usernames.filter fun username => CachedName cache username

theorem revLookup_concat (usernames : List String) (name : String) :
    revLookup (usernames ++ [name]) =
      Function.update (revLookup usernames) (userIDKey name) name := by
  rw [revLookup, List.foldl_append]
  rfl

theorem revLookup_userIDKey {name : String} (hname : name ∈ usernames) :
    revLookup usernames (userIDKey name) = name := by
  induction usernames using List.reverseRecOn with
  | nil => exact absurd hname List.not_mem_nil
  | append_singleton usernames last ih =>
      rw [revLookup_concat]
      by_cases hlast : name = last
      · subst hlast
        rw [Function.update_self]
      · have hkey : userIDKey name ≠ userIDKey last :=
          fun h => hlast (userIDKey_inj.mp h)
        rw [Function.update_of_ne hkey]
        apply ih
        rcases List.mem_append.mp hname with hname | hname
        · exact hname
        · exact absurd (List.mem_singleton.mp hname) hlast

/-- The decoded ids are those of the cached names, in their order. -/
theorem userIDsCached_eq (hdistinct : (users.map User.username).Nodup)
    (hcache : HoldsTrueIDs users cache) {keys : List String}
    (hkeys : ∀ name ∈ usernames, userIDKey name ∈ keys) :
    ∃ userIDs,
      userIDsCached (getMulti cache keys) (usernames.map userIDKey) =
        some userIDs ∧
      userIDs.map some =
        (cachedNames cache usernames).map (registeredID users) := by
  induction usernames with
  | nil => exact ⟨[], rfl, rfl⟩
  | cons name usernames ih =>
      obtain ⟨userIDs, hdecode, hids⟩ :=
        ih fun other hother => hkeys other (List.mem_cons_of_mem name hother)
      have hget : getMulti cache keys (userIDKey name) =
          cache (userIDKey name) := if_pos (hkeys name List.mem_cons_self)
      cases hentry : cache (userIDKey name) with
      | none =>
          have hnot : ¬CachedName cache name := by
            simp [CachedName, hentry]
          refine ⟨userIDs, ?_, ?_⟩
          · simp only [List.map_cons, userIDsCached, hget, hentry, hdecode]
          · rw [hids, cachedNames, cachedNames,
              List.filter_cons_of_neg (by simpa using hnot)]
      | some json =>
          obtain ⟨user, huser, hname, rfl⟩ := hcache name json hentry
          have hregistered : registeredID users name = some user.userID :=
            (registeredID_eq_some_iff hdistinct).mpr
              ⟨user, huser, hname, rfl⟩
          have hcached : CachedName cache name := by
            simp [CachedName, hentry]
          refine ⟨user.userID :: userIDs, ?_, ?_⟩
          · simp [List.map_cons, userIDsCached, hget, hentry, hdecode]
          · rw [cachedNames, List.filter_cons_of_pos (by simpa using hcached),
              List.map_cons, List.map_cons, hregistered, hids, cachedNames]

/-! ## The first mentions -/

theorem map_username_zipWith {lookup : String → String}
    {names : List String} {userIDs : List Int64}
    (hlookup : ∀ name ∈ names, lookup (userIDKey name) = name)
    (hlength : userIDs.length ≤ names.length) :
    (List.zipWith (fun key userID =>
      (⟨userID, lookup key⟩ : UserMention)) (names.map userIDKey)
        userIDs).map UserMention.username = names.take userIDs.length := by
  induction names generalizing userIDs with
  | nil =>
      have hnil : userIDs = [] :=
        List.length_eq_zero_iff.mp (Nat.le_zero.mp hlength)
      subst hnil
      rfl
  | cons name names ih =>
      cases userIDs with
      | nil => rfl
      | cons userID userIDs =>
          have hrest := ih
            (fun other hother => hlookup other (List.mem_cons_of_mem _ hother))
            (Nat.le_of_succ_le_succ hlength)
          rw [List.map_cons, List.zipWith_cons_cons, List.map_cons, hrest,
            hlookup name List.mem_cons_self]
          rfl

theorem map_userID_zipWith (lookup : String → String) {keys : List String}
    {userIDs : List Int64} (hlength : userIDs.length ≤ keys.length) :
    (List.zipWith (fun key userID =>
      (⟨userID, lookup key⟩ : UserMention)) keys userIDs).map
        UserMention.userID = userIDs := by
  induction keys generalizing userIDs with
  | nil =>
      have hnil : userIDs = [] :=
        List.length_eq_zero_iff.mp (Nat.le_zero.mp hlength)
      subst hnil
      rfl
  | cons key keys ih =>
      cases userIDs with
      | nil => rfl
      | cons userID userIDs =>
          rw [List.zipWith_cons_cons, List.map_cons,
            ih (Nat.le_of_succ_le_succ hlength)]

theorem mem_map_mention_iff {names : List String}
    (hdistinct : (users.map User.username).Nodup) {m : UserMention} :
    m ∈ (users.filter fun user => user.username ∈ names).map mention ↔
      m.username ∈ names ∧
        registeredID users m.username = some m.userID := by
  rw [List.mem_map, registeredID_eq_some_iff hdistinct]
  simp only [List.mem_filter, decide_eq_true_eq]
  constructor
  · intro hmem
    obtain ⟨user, ⟨huser, hname⟩, rfl⟩ := hmem
    exact ⟨hname, user, huser, rfl, rfl⟩
  · intro hmem
    obtain ⟨hname, user, huser, husername, hid⟩ := hmem
    refine ⟨user, ⟨huser, husername ▸ hname⟩, ?_⟩
    rw [mention, hid, husername]

/-- Mentions are those of the registered users among their names exactly when
no name repeats and every id is the one of its name. -/
theorem perm_mention_iff (hdistinct : (users.map User.username).Nodup)
    (mentions : List UserMention) :
    mentions.Perm ((users.filter fun user =>
      user.username ∈ mentions.map UserMention.username).map mention) ↔
      (mentions.map UserMention.username).Nodup ∧
        (mentions.map UserMention.username).map (registeredID users) =
          (mentions.map UserMention.userID).map some := by
  have hnames : (((users.filter fun user =>
      user.username ∈ mentions.map UserMention.username).map
        mention).map UserMention.username).Nodup := by
    rw [List.map_map]
    exact hdistinct.sublist (List.filter_sublist.map _)
  constructor
  · intro hperm
    refine ⟨(hperm.map _).nodup_iff.mpr hnames, ?_⟩
    rw [List.map_map, List.map_map, List.map_inj_left]
    intro m hm
    exact ((mem_map_mention_iff hdistinct).mp (hperm.mem_iff.mp hm)).2
  · intro hgood
    obtain ⟨hnodup, hids⟩ := hgood
    rw [List.map_map, List.map_map, List.map_inj_left] at hids
    refine (List.perm_ext_iff_of_nodup (hnodup.of_map _)
      (hnames.of_map _)).mpr ?_
    intro m
    rw [mem_map_mention_iff hdistinct]
    constructor
    · intro hm
      exact ⟨List.mem_map_of_mem hm, hids m hm⟩
    · intro hm
      obtain ⟨other, hother, hname⟩ := List.mem_map.mp hm.1
      have hid := hids other hother
      simp only [Function.comp_apply] at hid
      rw [hname, hm.2, Option.some.injEq] at hid
      have hsame : m = other := by
        cases m
        cases other
        simp only at hname hid
        rw [hname, hid]
      exact hsame ▸ hother

/-! ## Exactness -/

/-- One mention for each registered user whose name is in the input, with the
true id, and nothing else. -/
def Exact (order : FindOrder) (users : List User) (cache : Memcached)
    (usernames : List String) : Prop :=
  ∃ mentions, UploadUserMentions order users cache usernames =
      some mentions ∧
    mentions.Perm ((users.filter fun user =>
      user.username ∈ usernames).map mention)

theorem find_perm (order : FindOrder) (users : List User)
    (usernames : List String) {names : List String}
    (hnames : ∀ name ∈ names, name ∈ usernames) :
    ((users.filter fun user => user.username ∈ names) ++
      order.find users (usernames.toFinset \ names.toFinset)).Perm
        (users.filter fun user => user.username ∈ usernames) := by
  have hsplit := List.filter_append_perm
    (fun user : User => decide (user.username ∈ names))
    (users.filter fun user => user.username ∈ usernames)
  rw [List.filter_filter, List.filter_filter] at hsplit
  have hfirst : (users.filter fun user =>
      decide (user.username ∈ names) &&
        decide (user.username ∈ usernames)) =
      users.filter fun user => user.username ∈ names := by
    apply List.filter_congr
    intro user _
    by_cases hname : user.username ∈ names
    · simp [hname, hnames _ hname]
    · simp [hname]
  have hsecond : (users.filter fun user =>
      !decide (user.username ∈ names) &&
        decide (user.username ∈ usernames)) =
      users.filter fun user =>
        user.username ∈ usernames.toFinset \ names.toFinset := by
    apply List.filter_congr
    intro user _
    simp [Bool.and_comm]
  rw [hfirst, hsecond] at hsplit
  exact ((List.Perm.refl _).append (order.perm _ _)).trans hsplit

theorem uploadUserMentions_of_decoded (order : FindOrder)
    (users : List User) {userIDs : List Int64}
    (hdecode : userIDsCached (getMulti cache (usernames.map userIDKey))
      (usernames.map userIDKey) = some userIDs) :
    UploadUserMentions order users cache usernames =
      if (usersNotCached usernames
          (cachedMentions usernames userIDs)).card ≠ 0 then
        some (cachedMentions usernames userIDs ++
          (order.find users (usersNotCached usernames
            (cachedMentions usernames userIDs))).map mention)
      else some (cachedMentions usernames userIDs) := by
  unfold UploadUserMentions
  simp only [hdecode]
  rfl

/-- The two parts of what is uploaded. -/
theorem uploadUserMentions_eq (order : FindOrder)
    (hdistinct : (users.map User.username).Nodup)
    (hcache : HoldsTrueIDs users cache) (usernames : List String) :
    ∃ mentions : List UserMention,
      UploadUserMentions order users cache usernames =
        some (mentions ++ (order.find users (usernames.toFinset \
          (mentions.map UserMention.username).toFinset)).map mention) ∧
      mentions.map UserMention.username =
        usernames.take (cachedNames cache usernames).length ∧
      (mentions.map UserMention.userID).map some =
        (cachedNames cache usernames).map (registeredID users) := by
  have hkeys : ∀ name ∈ usernames, userIDKey name ∈
      usernames.map userIDKey := fun name hname => List.mem_map_of_mem hname
  obtain ⟨userIDs, hdecode, hids⟩ :=
    userIDsCached_eq hdistinct hcache hkeys
  have hlength : userIDs.length = (cachedNames cache usernames).length := by
    simpa using congrArg List.length hids
  have hle : userIDs.length ≤ usernames.length := by
    rw [hlength]
    exact List.length_filter_le _ _
  refine ⟨cachedMentions usernames userIDs, ?_, ?_, ?_⟩
  · rw [uploadUserMentions_of_decoded order users hdecode]
    split
    next => rfl
    next hcard =>
      have hempty := Finset.card_eq_zero.mp (not_not.mp hcard)
      have hnone : order.find users ∅ = [] := by
        apply List.Perm.eq_nil
        simpa using order.perm users ∅
      rw [usersNotCached] at hempty
      rw [hempty, hnone, List.map_nil, List.append_nil]
  · rw [← hlength]
    exact map_username_zipWith
      (fun name hname => revLookup_userIDKey hname) hle
  · rw [cachedMentions, map_userID_zipWith _ (by rwa [List.length_map])]
    exact hids

/-- What is uploaded is exact only when the names that get the cached ids are
pairwise distinct and registered under those ids. -/
theorem uploadUserMentions_exact_iff (order : FindOrder)
    (users : List User) (cache : Memcached) (usernames : List String)
    (hdistinct : (users.map User.username).Nodup)
    (hcache : HoldsTrueIDs users cache) :
    Exact order users cache usernames ↔
      (usernames.take (cachedNames cache usernames).length).Nodup ∧
        (usernames.take (cachedNames cache usernames).length).map
            (registeredID users) =
          (cachedNames cache usernames).map (registeredID users) := by
  obtain ⟨mentions, hupload, hnames, hids⟩ :=
    uploadUserMentions_eq order hdistinct hcache usernames
  have hsub : ∀ name ∈ mentions.map UserMention.username,
      name ∈ usernames := by
    intro name hname
    rw [hnames] at hname
    exact List.mem_of_mem_take hname
  have hsplit := (find_perm order users usernames hsub).map mention
  rw [List.map_append] at hsplit
  rw [← hnames, ← hids, ← perm_mention_iff hdistinct mentions, Exact]
  simp only [hupload, Option.some.injEq, exists_eq_left']
  constructor
  · intro hperm
    exact (List.perm_append_right_iff _).mp (hperm.trans hsplit.symm)
  · intro hperm
    exact ((List.perm_append_right_iff _).mpr hperm).trans hsplit

end Upload

def ana : User := ⟨1, "Ana", "", "ana", "", ""⟩

def bob : User := ⟨2, "Bob", "", "bob", "", ""⟩

/-- Only the id of the user is cached. -/
def cacheOf (user : User) : Memcached :=
  Function.update (fun _ => none) (userIDKey user.username)
    (some (marshal user.userID))

theorem cacheOf_holdsTrueIDs {users : List User} {user : User}
    (hmem : user ∈ users) : HoldsTrueIDs users (cacheOf user) := by
  intro username json hjson
  by_cases hname : username = user.username
  · subst hname
    rw [cacheOf, Function.update_self, Option.some.injEq] at hjson
    exact ⟨user, hmem, rfl, hjson.symm⟩
  · have hkey : userIDKey username ≠ userIDKey user.username :=
      fun h => hname (userIDKey_inj.mp h)
    rw [cacheOf, Function.update_of_ne hkey] at hjson
    cases hjson

theorem uploadUserMentions_exact_iff_cachedFirst :
    Exact FindOrder.natural [ana, bob] (cacheOf ana)
      ["ana", "bob", "eve", "bob"] := by
  apply (uploadUserMentions_exact_iff FindOrder.natural [ana, bob]
    (cacheOf ana) ["ana", "bob", "eve", "bob"] (by decide)
    (cacheOf_holdsTrueIDs (by decide))).mpr
  decide +kernel

/-- With only the second name cached, the first name gets its id. -/
theorem not_uploadUserMentions_exact :
    ¬ ∀ (order : FindOrder) (users : List User) (cache : Memcached)
        (usernames : List String),
      (users.map User.username).Nodup → HoldsTrueIDs users cache →
        Exact order users cache usernames := by
  intro hclaim
  obtain ⟨mentions, hupload, hperm⟩ :=
    hclaim FindOrder.natural [ana, bob] (cacheOf bob) ["ana", "bob"]
      (by decide) (cacheOf_holdsTrueIDs (by decide))
  have hresult : UploadUserMentions FindOrder.natural [ana, bob]
      (cacheOf bob) ["ana", "bob"] = some [⟨2, "ana"⟩, ⟨2, "bob"⟩] := by
    decide +kernel
  rw [hresult, Option.some.injEq] at hupload
  subst hupload
  have hmem := hperm.mem_iff.mp List.mem_cons_self
  revert hmem
  decide

end SocialNetwork.UserMentions
