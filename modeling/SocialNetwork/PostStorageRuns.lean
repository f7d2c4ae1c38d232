import SocialNetwork.Machine
import SocialNetwork.PostStorage

/-!
# Concurrent calls of the post storage

`StorePost`, `ReadPost` and `ReadPosts` of `poststorage.go`, one store command
at a time.  A read of several keys or documents takes them one by one, in any
order, so other calls and evictions come between them; every command may fail.
-/

namespace SocialNetwork.PostStorage

open Json Machine

inductive Request where
  | storePost (post : Post)
  | readPost (postID : Int64)
  | readPosts (postIDs : List Int64)

/-- Where a call is. -/
inductive Phase where
  | ready
  /-- `ReadPost` has missed the cache. -/
  | querying
  /-- `GetMulti` has still to read the keys of `rest`. -/
  | fetching (rest : List Int64) (result : Memcached)
  | finding (posts : List Post) (notCached : Finset Int64)
  /-- The cursor is open; `due` are the documents it must return. -/
  | probing (posts : List Post) (notCached : Finset Int64) (due : List Post)
  | draining (posts : List Post) (notCached : Finset Int64)
      (due : List Post) (first : Post) (postsToCache : List Post)
  | caching (posts toCache : List Post)
  | failed
  | stored
  | readOne (post : Post)
  | readMany (posts : List Post)

structure State (Call : Type) extends Stores where
  call : Call → Phase

variable {Call : Type}

def State.initial : State Call where
  posts := []
  cache _ := none
  call _ := .ready

inductive Label (Call : Type) where
  | insertOne (i : Call) (inserted : Bool)
  | get (i : Call) (ok : Bool)
  | findOne (i : Call) (ok : Bool)
  | readPosts (i : Call)
  | getMulti (i : Call) (index : ℕ)
  | getMultiFailed (i : Call)
  | decode (i : Call)
  | find (i : Call) (ok : Bool)
  | tryNext (i : Call) (doc : Option Post)
  | next (i : Call) (doc : Post)
  | all (i : Call) (ok : Bool)
  | set (i : Call) (index : ℕ) (done : Bool)
  | wait (i : Call)
  | evict (key : String)

section Step

variable [DecidableEq Call]

def State.setCall (state : State Call) (i : Call) (phase : Phase) :
    State Call :=
  { state with call := Function.update state.call i phase }

/-- The document matches the filter of `Find`. -/
def State.Matches (state : State Call) (notCached : Finset Int64)
    (doc : Post) : Prop :=
  doc ∈ state.posts ∧ doc.postID ∈ notCached

instance (state : State Call) (notCached : Finset Int64) (doc : Post) :
    Decidable (state.Matches notCached doc) := by
  unfold State.Matches
  infer_instance

def step (request : Call → Request) (state : State Call) :
    Label Call → Option (State Call)
  | .insertOne i inserted =>
      match request i, state.call i with
      | .storePost post, .ready =>
          if inserted then
            some ({ state with
              posts := state.posts ++ [post] }.setCall i .stored)
          else some (state.setCall i .failed)
      | _, _ => none
  | .get i ok =>
      match request i, state.call i with
      | .readPost postID, .ready =>
          if ok then
            match state.cache (idText postID) with
            | some val =>
                match unmarshal val with
                | some post => some (state.setCall i (.readOne post))
                | none => some (state.setCall i .failed)
            | none => some (state.setCall i .querying)
          else some (state.setCall i .failed)
      | _, _ => none
  | .findOne i ok =>
      match request i, state.call i with
      | .readPost postID, .querying =>
          if ok then
            match state.posts.find? fun post => post.postID = postID with
            | some post => some (state.setCall i (.readOne post))
            -- The error returned here is the cache miss.
            | none => some (state.setCall i .failed)
          else some (state.setCall i .failed)
      | _, _ => none
  | .readPosts i =>
      match request i, state.call i with
      | .readPosts postIDs, .ready =>
          if postIDs.length = 0 then some (state.setCall i (.readMany []))
          else some (state.setCall i (.fetching postIDs fun _ => none))
      | _, _ => none
  | .getMulti i index =>
      match state.call i with
      | .fetching rest result =>
          match rest[index]? with
          | some postID =>
              let key := idText postID
              let result :=
                match state.cache key with
                | some val => Function.update result key (some val)
                | none => result
              some (state.setCall i (.fetching (rest.eraseIdx index) result))
          | none => none
      | _ => none
  | .getMultiFailed i =>
      match state.call i with
      | .fetching _ _ => some (state.setCall i .failed)
      | _ => none
  | .decode i =>
      match request i, state.call i with
      | .readPosts postIDs, .fetching [] result =>
          match decodeCached result (postIDs.map idText) with
          | .error _ => some (state.setCall i .failed)
          | .ok posts =>
              let notCached := postIDsNotCached postIDs posts
              if notCached.card ≠ 0 then
                some (state.setCall i (.finding posts notCached))
              else some (state.setCall i (.readMany posts))
      | _, _ => none
  | .find i ok =>
      match state.call i with
      | .finding posts notCached =>
          if ok then
            some (state.setCall i (.probing posts notCached
              (state.posts.filter fun post => post.postID ∈ notCached)))
          else some (state.setCall i .failed)
      | _ => none
  | .tryNext i doc =>
      match state.call i with
      | .probing posts notCached due =>
          match doc with
          | some doc =>
              if state.Matches notCached doc then
                some (state.setCall i (.draining posts notCached due doc []))
              else none
          -- No document, or an error that is not looked at.
          | none => some (state.setCall i (.readMany posts))
      | _ => none
  | .next i doc =>
      match state.call i with
      | .draining posts notCached due first postsToCache =>
          if state.Matches notCached doc ∧ doc ∉ first :: postsToCache then
            some (state.setCall i
              (.draining posts notCached due first (postsToCache ++ [doc])))
          else none
      | _ => none
  | .all i ok =>
      match state.call i with
      | .draining posts _ due first postsToCache =>
          if ok then
            if ∀ doc ∈ due, doc ∈ first :: postsToCache then
              some (state.setCall i
                (.caching (posts ++ postsToCache) postsToCache))
            else none
          else some (state.setCall i .failed)
      | _ => none
  | .set i index done =>
      match state.call i with
      | .caching posts toCache =>
          match toCache[index]? with
          | some newPost =>
              let next :=
                state.setCall i (.caching posts (toCache.eraseIdx index))
              -- The error of `Set` is not looked at.
              if done then
                some { next with cache := cachePost state.cache newPost }
              else some next
          | none => none
      | _ => none
  | .wait i =>
      match state.call i with
      | .caching posts [] => some (state.setCall i (.readMany posts))
      | _ => none
  | .evict key =>
      some { state with cache := Function.update state.cache key none }

end Step

/-! ## What a call may hold -/

/-- The decoded posts before the database is asked. -/
structure CachedPart (stores : Stores) (postIDs : List Int64)
    (posts : List Post) : Prop where
  stored : ∀ post ∈ posts, post ∈ stores.posts
  sublist : (posts.map Post.postID).Sublist postIDs

/-- Stored posts, each at most as often as its id was requested. -/
def Requested (stores : Stores) (postIDs : List Int64) (posts : List Post) :
    Prop :=
  ∀ post ∈ posts, post ∈ stores.posts ∧
    posts.count post ≤ postIDs.count post.postID

/-- The values that `GetMulti` has returned so far. -/
def Fetched (stores : Stores) (result : Memcached) : Prop :=
  ∀ id json, result (idText id) = some json →
    ∃ post ∈ stores.posts, post.postID = id ∧ json = marshal post

/-- The documents taken from a cursor. -/
structure Taken (stores : Stores) (notCached : Finset Int64)
    (docs : List Post) : Prop where
  stored : ∀ doc ∈ docs, doc ∈ stores.posts
  matching : ∀ doc ∈ docs, doc.postID ∈ notCached
  nodup : docs.Nodup

def Phase.ReadsMany : Phase → Prop
  | .fetching _ _ => True
  | .finding _ _ => True
  | .probing _ _ _ => True
  | .draining _ _ _ _ _ => True
  | .caching _ _ => True
  | _ => False

def Good (stores : Stores) : Request → Phase → Prop
  | _, .ready => True
  | _, .failed => True
  | .storePost _, .stored => True
  | .readPost _, .querying => True
  | .readPost postID, .readOne post =>
      post ∈ stores.posts ∧ post.postID = postID
  | .readPosts _, .fetching _ result => Fetched stores result
  | .readPosts postIDs, .finding posts notCached =>
      CachedPart stores postIDs posts ∧
        notCached = postIDsNotCached postIDs posts
  | .readPosts postIDs, .probing posts notCached _ =>
      CachedPart stores postIDs posts ∧
        notCached = postIDsNotCached postIDs posts
  | .readPosts postIDs, .draining posts notCached _ first postsToCache =>
      CachedPart stores postIDs posts ∧
        notCached = postIDsNotCached postIDs posts ∧
        Taken stores notCached (first :: postsToCache)
  | .readPosts postIDs, .caching posts toCache =>
      Requested stores postIDs posts ∧ ∀ post ∈ toCache, post ∈ stores.posts
  | .readPosts postIDs, .readMany posts => Requested stores postIDs posts
  | _, _ => False

section Parts

variable {stores next : Stores} {postIDs : List Int64} {posts : List Post}

theorem CachedPart.requested (hposts : CachedPart stores postIDs posts) :
    Requested stores postIDs posts := by
  intro post hpost
  refine ⟨hposts.stored post hpost, ?_⟩
  calc
    posts.count post ≤ (posts.map Post.postID).count post.postID :=
      List.count_le_count_map
    _ ≤ postIDs.count post.postID := hposts.sublist.count_le _

theorem mem_postIDsNotCached {id : Int64} :
    id ∈ postIDsNotCached postIDs posts ↔
      id ∈ postIDs ∧ id ∉ posts.map Post.postID := by
  rw [postIDsNotCached, Finset.mem_sdiff, List.mem_toFinset,
    List.mem_toFinset]

/-- An id that the cache has answered is not asked of the database. -/
theorem CachedPart.append (hposts : CachedPart stores postIDs posts)
    {docs : List Post}
    (hdocs : Taken stores (postIDsNotCached postIDs posts) docs) :
    Requested stores postIDs (posts ++ docs) := by
  intro post hpost
  rw [List.count_append]
  rcases List.mem_append.mp hpost with hmem | hmem
  · have hnone : post ∉ docs := by
      intro hdoc
      have hid := hdocs.matching post hdoc
      exact (mem_postIDsNotCached.mp hid).2 (List.mem_map_of_mem hmem)
    have hcount := (hposts.requested post hmem).2
    rw [List.count_eq_zero.mpr hnone, Nat.add_zero]
    exact ⟨hposts.stored post hmem, hcount⟩
  · have hid := mem_postIDsNotCached.mp (hdocs.matching post hmem)
    have hnone : post ∉ posts := fun h => hid.2 (List.mem_map_of_mem h)
    have hone := List.nodup_iff_count_le_one.mp hdocs.nodup post
    have hpos : 0 < postIDs.count post.postID :=
      List.count_pos_iff.mpr hid.1
    rw [List.count_eq_zero.mpr hnone, Nat.zero_add]
    exact ⟨hdocs.stored post hmem, by omega⟩

theorem Taken.tail {notCached : Finset Int64} {first : Post}
    {docs : List Post} (h : Taken stores notCached (first :: docs)) :
    Taken stores notCached docs where
  stored doc hdoc := h.stored doc (List.mem_cons_of_mem first hdoc)
  matching doc hdoc := h.matching doc (List.mem_cons_of_mem first hdoc)
  nodup := (List.nodup_cons.mp h.nodup).2

/-- The posts in MongoDB only grow, and what a call holds stays good. -/
theorem Good.extends {request : Request} {phase : Phase}
    (hgood : Good stores request phase)
    (hsubset : stores.posts ⊆ next.posts) : Good next request phase := by
  have hcached : ∀ {postIDs posts}, CachedPart stores postIDs posts →
      CachedPart next postIDs posts :=
    fun h => ⟨fun post hpost => hsubset (h.stored post hpost), h.sublist⟩
  have hrequested : ∀ {postIDs posts}, Requested stores postIDs posts →
      Requested next postIDs posts :=
    fun h post hpost => ⟨hsubset (h post hpost).1, (h post hpost).2⟩
  cases request with
  | storePost post =>
      cases phase <;> trivial
  | readPost postID =>
      cases phase with
      | readOne post => exact ⟨hsubset hgood.1, hgood.2⟩
      | ready => trivial
      | querying => trivial
      | failed => trivial
      | _ => exact hgood.elim
  | readPosts postIDs =>
      cases phase with
      | ready => trivial
      | failed => trivial
      | fetching rest result =>
          intro id json hjson
          obtain ⟨post, hpost, hid, hmarshal⟩ := hgood id json hjson
          exact ⟨post, hsubset hpost, hid, hmarshal⟩
      | finding posts notCached => exact ⟨hcached hgood.1, hgood.2⟩
      | probing posts notCached due => exact ⟨hcached hgood.1, hgood.2⟩
      | draining posts notCached due first postsToCache =>
          obtain ⟨hposts, hids, htaken⟩ := hgood
          exact ⟨hcached hposts, hids,
            fun doc hdoc => hsubset (htaken.stored doc hdoc),
            htaken.matching, htaken.nodup⟩
      | caching posts toCache =>
          exact ⟨hrequested hgood.1,
            fun post hpost => hsubset (hgood.2 post hpost)⟩
      | readMany posts => exact hrequested hgood
      | _ => exact hgood.elim

/-- Only `ReadPosts` fetches several posts. -/
theorem Good.exists_readPosts {request : Request} {phase : Phase}
    (hgood : Good stores request phase) (hphase : phase.ReadsMany) :
    ∃ postIDs, request = .readPosts postIDs := by
  cases request with
  | readPosts postIDs => exact ⟨postIDs, rfl⟩
  | storePost post =>
      cases phase with
      | ready => exact hphase.elim
      | failed => exact hphase.elim
      | stored => exact hphase.elim
      | _ => exact hgood.elim
  | readPost postID =>
      cases phase with
      | ready => exact hphase.elim
      | failed => exact hphase.elim
      | querying => exact hphase.elim
      | readOne post => exact hphase.elim
      | _ => exact hgood.elim

theorem Fetched.decode {result : Memcached} (hresult : Fetched stores result)
    (postIDs : List Int64) :
    ∃ posts, decodeCached result (postIDs.map idText) = .ok posts ∧
      CachedPart stores postIDs posts := by
  induction postIDs with
  | nil => exact ⟨[], rfl, by simp, by simp⟩
  | cons id postIDs ih =>
      obtain ⟨posts, hdecode, hposts⟩ := ih
      cases hentry : result (idText id) with
      | none =>
          refine ⟨posts, ?_, hposts.stored, hposts.sublist.cons id⟩
          simp only [List.map_cons, decodeCached, hentry, hdecode]
      | some json =>
          obtain ⟨post, hpost, rfl, rfl⟩ := hresult id json hentry
          refine ⟨post :: posts, ?_, ?_, hposts.sublist.cons_cons _⟩
          · simp [decodeCached, hentry, hdecode, Except.map]
          · rw [List.forall_mem_cons]
            exact ⟨hpost, hposts.stored⟩

end Parts

/-! ## The invariant -/

structure Inv (request : Call → Request) (state : State Call) : Prop where
  posts : ∀ post ∈ state.posts, ∃ i,
    request i = .storePost post ∧ state.call i = .stored
  coherent : state.toStores.Coherent
  call : ∀ i, Good state.toStores (request i) (state.call i)

/-- No two calls store posts with one id. -/
def DistinctIDs (request : Call → Request) : Prop :=
  ∀ i j post post', request i = .storePost post →
    request j = .storePost post' → post.postID = post'.postID → i = j

section Invariant

variable {request : Call → Request} {state next : State Call}

theorem Inv.initial : Inv request State.initial where
  posts _ hpost := absurd hpost List.not_mem_nil
  coherent := ⟨List.nodup_nil, fun _ _ hjson => nomatch hjson⟩
  call i := by
    unfold State.initial
    cases request i <;> trivial

theorem Inv.evict (hgood : Inv request state) (key : String) :
    Inv request
      { state with cache := Function.update state.cache key none } where
  posts := hgood.posts
  coherent := by
    refine ⟨hgood.coherent.ids, ?_⟩
    intro id json hjson
    simp only at hjson
    by_cases hkey : idText id = key
    · rw [hkey, Function.update_self] at hjson
      cases hjson
    · rw [Function.update_of_ne hkey] at hjson
      exact hgood.coherent.cache id json hjson
  call i := (hgood.call i).extends fun _ hpost => hpost

theorem Inv.cachePost (hgood : Inv request state) {post : Post}
    (hpost : post ∈ state.posts) :
    Inv request
      { state with cache := PostStorage.cachePost state.cache post } where
  posts := hgood.posts
  coherent := by
    refine ⟨hgood.coherent.ids, ?_⟩
    intro id json hjson
    simp only at hjson
    by_cases hid : id = post.postID
    · subst hid
      rw [cachePost_self, Option.some.injEq] at hjson
      exact ⟨post, hpost, rfl, hjson.symm⟩
    · rw [cachePost_of_ne hid] at hjson
      exact hgood.coherent.cache id json hjson
  call i := (hgood.call i).extends fun _ hpost => hpost

variable [DecidableEq Call]

@[simp] theorem State.setCall_self (i : Call) (phase : Phase) :
    (state.setCall i phase).call i = phase :=
  Function.update_self _ _ _

theorem State.setCall_of_ne {i j : Call} (hne : j ≠ i) (phase : Phase) :
    (state.setCall i phase).call j = state.call j :=
  Function.update_of_ne hne _ _

theorem Inv.setCall (hgood : Inv request state) {i : Call} {phase : Phase}
    (hstored : state.call i ≠ .stored)
    (hphase : Good state.toStores (request i) phase) :
    Inv request (state.setCall i phase) where
  posts post hpost := by
    obtain ⟨j, hj, hcall⟩ := hgood.posts post hpost
    have hne : j ≠ i := fun h => hstored (h ▸ hcall)
    exact ⟨j, hj, (State.setCall_of_ne hne phase).trans hcall⟩
  coherent := hgood.coherent
  call j := by
    by_cases hj : j = i
    · subst hj
      rw [State.setCall_self]
      exact hphase
    · rw [State.setCall_of_ne hj]
      exact hgood.call j

/-- A step that only moves a call. -/
theorem Inv.move (hgood : Inv request state) {i : Call} {phase : Phase}
    (hstored : state.call i ≠ .stored)
    (hstep : some (state.setCall i phase) = some next)
    (hphase : Good state.toStores (request i) phase) : Inv request next := by
  rw [Option.some.injEq] at hstep
  subst hstep
  exact hgood.setCall hstored hphase

theorem Inv.fail (hgood : Inv request state) {i : Call}
    (hstored : state.call i ≠ .stored)
    (hstep : some (state.setCall i .failed) = some next) :
    Inv request next :=
  hgood.move hstored hstep (by cases request i <;> trivial)

theorem Inv.insertOne (hgood : Inv request state)
    (hdistinct : DistinctIDs request) {i : Call} {post : Post}
    (hrequest : request i = .storePost post)
    (hready : state.call i = .ready) :
    Inv request
      ({ state with posts := state.posts ++ [post] }.setCall i .stored) := by
  have hnew : ∀ other ∈ state.posts, other.postID ≠ post.postID := by
    intro other hother hid
    obtain ⟨j, hj, hcall⟩ := hgood.posts other hother
    have hsame := hdistinct j i other post hj hrequest hid
    rw [hsame, hready] at hcall
    cases hcall
  have hsubset : state.posts ⊆ state.posts ++ [post] :=
    List.subset_append_left _ _
  refine ⟨?_, ⟨?_, ?_⟩, ?_⟩
  · intro other hother
    rcases List.mem_append.mp hother with hother | hother
    · obtain ⟨j, hj, hcall⟩ := hgood.posts other hother
      by_cases hji : j = i
      · subst hji
        exact ⟨j, hj, State.setCall_self j _⟩
      · exact ⟨j, hj, (State.setCall_of_ne hji _).trans hcall⟩
    · rw [List.mem_singleton.mp hother]
      exact ⟨i, hrequest, State.setCall_self i _⟩
  · change ((state.posts ++ [post]).map Post.postID).Nodup
    rw [List.map_append, List.map_singleton]
    apply List.Nodup.append hgood.coherent.ids (List.nodup_singleton _)
    intro id hid hlast
    obtain ⟨other, hother, rfl⟩ := List.mem_map.mp hid
    exact hnew other hother (List.mem_singleton.mp hlast)
  · intro id json hjson
    obtain ⟨other, hother, hid, hmarshal⟩ :=
      hgood.coherent.cache id json hjson
    exact ⟨other, hsubset hother, hid, hmarshal⟩
  · intro j
    by_cases hji : j = i
    · subst hji
      rw [State.setCall_self, hrequest]
      trivial
    · rw [State.setCall_of_ne hji]
      exact (hgood.call j).extends hsubset

/-! ## Steps -/

theorem Inv.get (hgood : Inv request state) {i : Call} {ok : Bool}
    (hstep : step request state (.get i ok) = some next) :
    Inv request next := by
  simp only [step] at hstep
  split at hstep
  next postID hrequest hready =>
    have hstored : state.call i ≠ .stored := by simp [hready]
    split at hstep
    next =>
      split at hstep
      next val hval =>
        obtain ⟨post, hpost, hid, rfl⟩ :=
          hgood.coherent.cache postID val hval
        simp only [unmarshal_marshal, Option.some.injEq] at hstep
        subst hstep
        apply hgood.setCall hstored
        rw [hrequest]
        exact ⟨hpost, hid⟩
      next =>
        apply hgood.move hstored hstep
        rw [hrequest]
        trivial
    next => exact hgood.fail hstored hstep
  next => cases hstep

theorem Inv.findOne (hgood : Inv request state) {i : Call} {ok : Bool}
    (hstep : step request state (.findOne i ok) = some next) :
    Inv request next := by
  simp only [step] at hstep
  split at hstep
  next postID hrequest hquerying =>
    have hstored : state.call i ≠ .stored := by simp [hquerying]
    split at hstep
    next =>
      split at hstep
      next post hfind =>
        apply hgood.move hstored hstep
        have hid := List.find?_some hfind
        rw [decide_eq_true_eq] at hid
        rw [hrequest]
        exact ⟨List.mem_of_find?_eq_some hfind, hid⟩
      next =>
        exact hgood.fail hstored hstep
    next => exact hgood.fail hstored hstep
  next => cases hstep

theorem Inv.readPosts (hgood : Inv request state) {i : Call}
    (hstep : step request state (.readPosts i) = some next) :
    Inv request next := by
  simp only [step] at hstep
  split at hstep
  next postIDs hrequest hready =>
    have hstored : state.call i ≠ .stored := by simp [hready]
    split at hstep
    next =>
      apply hgood.move hstored hstep
      rw [hrequest]
      intro post hpost
      exact absurd hpost List.not_mem_nil
    next =>
      apply hgood.move hstored hstep
      rw [hrequest]
      intro id json hjson
      cases hjson
  next => cases hstep

theorem Inv.getMulti (hgood : Inv request state) {i : Call} {index : ℕ}
    (hstep : step request state (.getMulti i index) = some next) :
    Inv request next := by
  simp only [step] at hstep
  split at hstep
  next rest result hfetching =>
    have hcall := hgood.call i
    have hstored : state.call i ≠ .stored := by simp [hfetching]
    rw [hfetching] at hcall
    obtain ⟨postIDs, hrequest⟩ := hcall.exists_readPosts trivial
    rw [hrequest] at hcall
    split at hstep
    next postID _ =>
      apply hgood.move hstored hstep
      rw [hrequest]
      intro id json hjson
      split at hjson
      next val hval =>
        by_cases hid : id = postID
        · subst hid
          rw [Function.update_self, Option.some.injEq] at hjson
          subst hjson
          exact hgood.coherent.cache id val hval
        · have hkey : idText id ≠ idText postID :=
            fun h => hid (idText_inj.mp h)
          rw [Function.update_of_ne hkey] at hjson
          exact hcall id json hjson
      next => exact hcall id json hjson
    next => cases hstep
  next => cases hstep

theorem Inv.decode (hgood : Inv request state) {i : Call}
    (hstep : step request state (.decode i) = some next) :
    Inv request next := by
  simp only [step] at hstep
  split at hstep
  next postIDs result hrequest hfetching =>
    have hstored : state.call i ≠ .stored := by simp [hfetching]
    have hcall := hgood.call i
    rw [hrequest, hfetching] at hcall
    obtain ⟨posts, hdecode, hposts⟩ := Fetched.decode hcall postIDs
    simp only [hdecode] at hstep
    split at hstep
    next =>
      apply hgood.move hstored hstep
      rw [hrequest]
      exact ⟨hposts, rfl⟩
    next =>
      apply hgood.move hstored hstep
      rw [hrequest]
      exact hposts.requested
  next => cases hstep

theorem Inv.find (hgood : Inv request state) {i : Call} {ok : Bool}
    (hstep : step request state (.find i ok) = some next) :
    Inv request next := by
  simp only [step] at hstep
  split at hstep
  next posts notCached hfinding =>
    have hcall := hgood.call i
    have hstored : state.call i ≠ .stored := by simp [hfinding]
    rw [hfinding] at hcall
    obtain ⟨postIDs, hrequest⟩ := hcall.exists_readPosts trivial
    rw [hrequest] at hcall
    split at hstep
    next =>
      apply hgood.move hstored hstep
      rw [hrequest]
      exact hcall
    next => exact hgood.fail hstored hstep
  next => cases hstep

theorem Inv.tryNext (hgood : Inv request state) {i : Call}
    {doc : Option Post}
    (hstep : step request state (.tryNext i doc) = some next) :
    Inv request next := by
  simp only [step] at hstep
  split at hstep
  next posts notCached due hprobing =>
    have hcall := hgood.call i
    have hstored : state.call i ≠ .stored := by simp [hprobing]
    rw [hprobing] at hcall
    obtain ⟨postIDs, hrequest⟩ := hcall.exists_readPosts trivial
    rw [hrequest] at hcall
    obtain ⟨hposts, hids⟩ := hcall
    split at hstep
    next first =>
      split at hstep
      next hmatches =>
        apply hgood.move hstored hstep
        rw [hrequest]
        refine ⟨hposts, hids, ?_, ?_, List.nodup_singleton first⟩
        · exact List.forall_mem_singleton.mpr hmatches.1
        · exact List.forall_mem_singleton.mpr hmatches.2
      next => cases hstep
    next =>
      apply hgood.move hstored hstep
      rw [hrequest]
      exact hposts.requested
  next => cases hstep

theorem Taken.concat {stores : Stores} {notCached : Finset Int64}
    {docs : List Post} (h : Taken stores notCached docs) {doc : Post}
    (hstored : doc ∈ stores.posts) (hid : doc.postID ∈ notCached)
    (hnew : doc ∉ docs) : Taken stores notCached (docs ++ [doc]) where
  stored other hother := by
    rcases List.mem_append.mp hother with hother | hother
    · exact h.stored other hother
    · rw [List.mem_singleton.mp hother]
      exact hstored
  matching other hother := by
    rcases List.mem_append.mp hother with hother | hother
    · exact h.matching other hother
    · rw [List.mem_singleton.mp hother]
      exact hid
  nodup := List.nodup_append'.mpr ⟨h.nodup, List.nodup_singleton doc,
    List.disjoint_singleton.mpr hnew⟩

theorem Inv.nextDoc (hgood : Inv request state) {i : Call} {doc : Post}
    {after : State Call}
    (hstep : step request state (.next i doc) = some after) :
    Inv request after := by
  simp only [step] at hstep
  split at hstep
  next posts notCached due first postsToCache hdraining =>
    have hcall := hgood.call i
    have hstored : state.call i ≠ .stored := by simp [hdraining]
    rw [hdraining] at hcall
    obtain ⟨postIDs, hrequest⟩ := hcall.exists_readPosts trivial
    rw [hrequest] at hcall
    obtain ⟨hposts, hids, htaken⟩ := hcall
    split at hstep
    next hmatches =>
      apply hgood.move hstored hstep
      rw [hrequest]
      exact ⟨hposts, hids, htaken.concat hmatches.1.1 hmatches.1.2
        hmatches.2⟩
    next => cases hstep
  next => cases hstep

theorem Inv.all (hgood : Inv request state) {i : Call} {ok : Bool}
    (hstep : step request state (.all i ok) = some next) :
    Inv request next := by
  simp only [step] at hstep
  split at hstep
  next posts notCached due first postsToCache hdraining =>
    have hcall := hgood.call i
    have hstored : state.call i ≠ .stored := by simp [hdraining]
    rw [hdraining] at hcall
    obtain ⟨postIDs, hrequest⟩ := hcall.exists_readPosts trivial
    rw [hrequest] at hcall
    obtain ⟨hposts, rfl, htaken⟩ := hcall
    split at hstep
    next =>
      split at hstep
      next =>
        apply hgood.move hstored hstep
        rw [hrequest]
        exact ⟨hposts.append htaken.tail, htaken.tail.stored⟩
      next => cases hstep
    next => exact hgood.fail hstored hstep
  next => cases hstep

theorem Inv.set (hgood : Inv request state) {i : Call} {index : ℕ}
    {done : Bool}
    (hstep : step request state (.set i index done) = some next) :
    Inv request next := by
  simp only [step] at hstep
  split at hstep
  next posts toCache hcaching =>
    have hcall := hgood.call i
    have hstored : state.call i ≠ .stored := by simp [hcaching]
    rw [hcaching] at hcall
    obtain ⟨postIDs, hrequest⟩ := hcall.exists_readPosts trivial
    rw [hrequest] at hcall
    obtain ⟨hposts, htoCache⟩ := hcall
    split at hstep
    next newPost hget =>
      have hnext : Inv request
          (state.setCall i (.caching posts (toCache.eraseIdx index))) := by
        apply hgood.setCall hstored
        rw [hrequest]
        exact ⟨hposts, fun post hpost =>
          htoCache post (List.mem_of_mem_eraseIdx hpost)⟩
      split at hstep
      next =>
        rw [Option.some.injEq] at hstep
        subst hstep
        exact hnext.cachePost (htoCache newPost (List.mem_of_getElem? hget))
      next =>
        rw [Option.some.injEq] at hstep
        subst hstep
        exact hnext
    next => cases hstep
  next => cases hstep

theorem Inv.wait (hgood : Inv request state) {i : Call}
    (hstep : step request state (.wait i) = some next) :
    Inv request next := by
  simp only [step] at hstep
  split at hstep
  next posts hcaching =>
    have hcall := hgood.call i
    have hstored : state.call i ≠ .stored := by simp [hcaching]
    rw [hcaching] at hcall
    obtain ⟨postIDs, hrequest⟩ := hcall.exists_readPosts trivial
    rw [hrequest] at hcall
    apply hgood.move hstored hstep
    rw [hrequest]
    exact hcall.1
  next => cases hstep

theorem Inv.step (hgood : Inv request state)
    (hdistinct : DistinctIDs request) {label : Label Call}
    (hstep : PostStorage.step request state label = some next) :
    Inv request next := by
  cases label with
  | insertOne i inserted =>
      simp only [PostStorage.step] at hstep
      split at hstep
      next post hrequest hready =>
        split at hstep
        next =>
          rw [Option.some.injEq] at hstep
          subst hstep
          exact hgood.insertOne hdistinct hrequest hready
        next =>
          exact hgood.fail (by simp [hready]) hstep
      next => cases hstep
  | get i ok => exact hgood.get hstep
  | findOne i ok => exact hgood.findOne hstep
  | readPosts i => exact hgood.readPosts hstep
  | getMulti i index => exact hgood.getMulti hstep
  | getMultiFailed i =>
      simp only [PostStorage.step] at hstep
      split at hstep
      next hfetching =>
        exact hgood.fail (by simp [hfetching]) hstep
      next => cases hstep
  | decode i => exact hgood.decode hstep
  | find i ok => exact hgood.find hstep
  | tryNext i doc => exact hgood.tryNext hstep
  | next i doc => exact hgood.nextDoc hstep
  | all i ok => exact hgood.all hstep
  | set i index done => exact hgood.set hstep
  | wait i => exact hgood.wait hstep
  | evict key =>
      simp only [PostStorage.step, Option.some.injEq] at hstep
      subst hstep
      exact hgood.evict key

end Invariant

/-- In every reachable state the cache holds stored posts under their ids,
`ReadPost` has returned the stored post, and `ReadPosts` only requested ones,
each at most as often as its id was asked for. -/
theorem reads_sound [DecidableEq Call] {request : Call → Request}
    (hdistinct : DistinctIDs request) {labels : List (Label Call)}
    {state : State Call}
    (hrun : run (step request) State.initial labels = some state) :
    (∀ postID json, state.cache (idText postID) = some json →
      ∃ post ∈ state.posts, post.postID = postID ∧
        unmarshal json = some post) ∧
    (∀ i postID post, request i = .readPost postID →
      state.call i = .readOne post →
      state.posts.find? (fun post => post.postID = postID) = some post) ∧
    ∀ i postIDs posts, request i = .readPosts postIDs →
      state.call i = .readMany posts →
      ∀ post ∈ posts, post ∈ state.posts ∧ post.postID ∈ postIDs ∧
        posts.count post ≤ postIDs.count post.postID := by
  have hgood : Inv request state := Machine.run_invariant
    (P := Inv request) Inv.initial
    (fun _ _ _ h hstep => h.step hdistinct hstep) hrun
  refine ⟨?_, ?_, ?_⟩
  · intro postID json hjson
    obtain ⟨post, hpost, hid, rfl⟩ :=
      hgood.coherent.cache postID json hjson
    exact ⟨post, hpost, hid, unmarshal_marshal post⟩
  · intro i postID post hrequest hcall
    have hread := hgood.call i
    rw [hrequest, hcall] at hread
    obtain ⟨hpost, hid⟩ := hread
    cases hfind : state.posts.find? fun post => post.postID = postID with
    | none =>
        have hnot := List.find?_eq_none.mp hfind post hpost
        rw [decide_eq_true_eq] at hnot
        exact absurd hid hnot
    | some found =>
        have hfound := List.find?_some hfind
        rw [decide_eq_true_eq] at hfound
        rw [hgood.coherent.eq_of_postID (List.mem_of_find?_eq_some hfind)
          hpost (hfound.trans hid.symm)]
  · intro i postIDs posts hrequest hcall post hpost
    have hread := hgood.call i
    rw [hrequest, hcall] at hread
    obtain ⟨hstored, hcount⟩ := hread post hpost
    have hpos : 0 < posts.count post := List.count_pos_iff.mpr hpost
    exact ⟨hstored, List.count_pos_iff.mp (by omega), hcount⟩

def otherPost : Post := { samplePost with postID := 8 }

def sampleRequest : Fin 4 → Request
  | 0 => .storePost samplePost
  | 1 => .storePost otherPost
  | 2 => .readPosts [7, 8]
  | 3 => .readPosts [8, 8]

/-- The first read caches post 8, and the second finds it. -/
def sampleLabels : List (Label (Fin 4)) :=
  [.insertOne 0 true, .readPosts 2, .getMulti 2 1, .insertOne 1 true,
    .getMulti 2 0, .decode 2, .find 2 true, .tryNext 2 (some samplePost),
    .next 2 otherPost, .all 2 true, .evict "7", .set 2 0 true, .wait 2,
    .readPosts 3, .getMulti 3 0, .getMulti 3 0, .decode 3]

theorem sampleRequest_distinctIDs : DistinctIDs sampleRequest := by
  have hstore : ∀ i post, sampleRequest i = .storePost post →
      (i = 0 ∧ post = samplePost) ∨ (i = 1 ∧ post = otherPost) := by
    intro i post h
    match i with
    | 0 => exact .inl ⟨rfl, (Request.storePost.inj h).symm⟩
    | 1 => exact .inr ⟨rfl, (Request.storePost.inj h).symm⟩
    | 2 => cases h
    | 3 => cases h
  have hne : samplePost.postID ≠ otherPost.postID := by decide
  intro i j post post' hi hj hid
  rcases hstore i post hi with ⟨rfl, rfl⟩ | ⟨rfl, rfl⟩ <;>
    rcases hstore j post' hj with ⟨rfl, rfl⟩ | ⟨rfl, rfl⟩
  · rfl
  · exact absurd hid hne
  · exact absurd hid.symm hne
  · rfl

theorem reads_sound_sample :
    ∃ state posts, run (step sampleRequest) State.initial sampleLabels =
        some state ∧ state.call 3 = .readMany posts ∧ posts.length = 2 ∧
      ∀ post ∈ posts, post ∈ state.posts ∧ post.postID ∈ [8, 8] ∧
        posts.count post ≤ [8, 8].count post.postID := by
  have hends : (run (step sampleRequest) State.initial sampleLabels).any
      (fun state =>
        match state.call 3 with
        | .readMany posts => posts.length = 2
        | _ => false) := by decide +kernel
  obtain ⟨state, hrun, hends⟩ := (Option.any_eq_true _ _).mp hends
  cases hcall : state.call 3 with
  | readMany posts =>
      rw [hcall] at hends
      obtain ⟨-, -, hposts⟩ := reads_sound sampleRequest_distinctIDs hrun
      exact ⟨state, posts, hrun, hcall, of_decide_eq_true hends,
        hposts 3 [8, 8] posts rfl hcall⟩
  | _ =>
      rw [hcall] at hends
      cases hends

end SocialNetwork.PostStorage
