import SocialNetwork.Model

/-!
# Reading posts

`ReadPosts` of `poststorage.go` with all store calls succeeding.  The posts
that memcached does not return are looked up in MongoDB, through a cursor
which is first probed with `TryNext` and then drained with `All`.
-/

namespace SocialNetwork.PostStorage

open Json

abbrev Memcached := String → Option Json

structure Stores where
  posts : List Post
  cache : Memcached

/-- `Find` with the filter `post_id ∈ ids`.  MongoDB chooses the order of the
matching documents. -/
structure FindOrder where
  find : List Post → Finset Int64 → List Post
  perm : ∀ posts ids,
    (find posts ids).Perm (posts.filter fun post => post.postID ∈ ids)

def FindOrder.natural : FindOrder where
  find posts ids := posts.filter fun post => post.postID ∈ ids
  perm _ _ := List.Perm.refl _

/-- The documents that have not been iterated. -/
structure Cursor where
  rest : List Post

/-- `TryNext` moves past the document it finds. -/
def Cursor.tryNext (cur : Cursor) : Bool × Cursor :=
  match cur.rest with
  | [] => (false, cur)
  | _ :: rest => (true, ⟨rest⟩)

/-- `All` decodes what is left. -/
def Cursor.all (cur : Cursor) : List Post := cur.rest

def getMulti (cache : Memcached) (keys : List String) : Memcached :=
  fun key => if key ∈ keys then cache key else none

def cachePost (cache : Memcached) (post : Post) : Memcached :=
  Function.update cache (idText post.postID) (some (marshal post))

@[simp] theorem cachePost_self (cache : Memcached) (post : Post) :
    cachePost cache post (idText post.postID) = some (marshal post) :=
  Function.update_self _ _ _

theorem cachePost_of_ne {id : Int64} {post : Post}
    (hne : id ≠ post.postID) (cache : Memcached) :
    cachePost cache post (idText id) = cache (idText id) :=
  Function.update_of_ne (fun h => hne (idText_inj.mp h)) _ _

inductive Error where
  | unmarshal (key : String)
  deriving DecidableEq, Repr

/-- The loop over the keys that decodes the values found in memcached. -/
def decodeCached (result : Memcached) :
    List String → Except Error (List Post)
  | [] => .ok []
  | key :: keys =>
      match result key with
      | none => decodeCached result keys
      | some val =>
          match unmarshal val with
          | none => .error (.unmarshal key)
          | some cachedPost =>
              (decodeCached result keys).map (cachedPost :: ·)

/-- The key set of `postIDsNotCached` after the deletions. -/
def postIDsNotCached (postIDs : List Int64) (posts : List Post) :
    Finset Int64 :=
  postIDs.toFinset \ (posts.map Post.postID).toFinset

def ReadPosts (order : FindOrder) (stores : Stores) (postIDs : List Int64) :
    Except Error (List Post) × Stores :=
  if postIDs.length = 0 then (.ok [], stores)
  else
    let keys := postIDs.map idText
    match decodeCached (getMulti stores.cache keys) keys with
    | .error err => (.error err, stores)
    | .ok posts =>
        let notCached := postIDsNotCached postIDs posts
        if notCached.card ≠ 0 then
          match Cursor.tryNext ⟨order.find stores.posts notCached⟩ with
          | (false, _) => (.ok posts, stores)
          | (true, cur) =>
              let postsToCache := cur.all
              (.ok (posts ++ postsToCache),
                { stores with
                  cache := postsToCache.foldl cachePost stores.cache })
        else (.ok posts, stores)

/-! ## The cached part -/

def Stores.CacheHolds (stores : Stores) : Prop :=
  ∀ id json, stores.cache (idText id) = some json →
    ∃ post ∈ stores.posts, post.postID = id ∧ json = marshal post

def Stores.Cached (stores : Stores) (post : Post) : Prop :=
  (stores.cache (idText post.postID)).isSome

/-- A collection with distinct post ids and a cache for some of its posts. -/
structure Stores.Coherent (stores : Stores) : Prop where
  ids : (stores.posts.map Post.postID).Nodup
  cache : stores.CacheHolds

variable {stores : Stores} {order : FindOrder} {postIDs : List Int64}
  {posts : List Post}

theorem cacheHolds_foldl {cached : List Post} (hsubset : cached ⊆ posts)
    {cache : Memcached} (hcache : Stores.CacheHolds ⟨posts, cache⟩) :
    Stores.CacheHolds ⟨posts, cached.foldl cachePost cache⟩ := by
  induction cached generalizing cache with
  | nil => exact hcache
  | cons post cached ih =>
      apply ih fun other hother => hsubset (List.mem_cons_of_mem _ hother)
      intro id json hjson
      dsimp only at hjson ⊢
      by_cases hid : id = post.postID
      · subst hid
        rw [cachePost_self, Option.some.injEq] at hjson
        exact ⟨post, hsubset List.mem_cons_self, rfl, hjson.symm⟩
      · rw [cachePost_of_ne hid] at hjson
        exact hcache id json hjson

/-- The posts are stored and some of them cached. -/
def Stores.caching (posts cached : List Post) : Stores :=
  ⟨posts, cached.foldl cachePost fun _ => none⟩

theorem coherent_caching {cached : List Post}
    (hids : (posts.map Post.postID).Nodup) (hsubset : cached ⊆ posts) :
    (Stores.caching posts cached).Coherent where
  ids := hids
  cache := by
    apply cacheHolds_foldl hsubset
    intro id json hjson
    cases hjson

theorem Stores.Coherent.eq_of_postID (hgood : stores.Coherent)
    {post post' : Post} (hmem : post ∈ stores.posts)
    (hmem' : post' ∈ stores.posts) (hid : post.postID = post'.postID) :
    post = post' :=
  List.inj_on_of_nodup_map hgood.ids hmem hmem' hid

theorem Stores.Coherent.cache_eq (hgood : stores.Coherent) {post : Post}
    (hmem : post ∈ stores.posts) (hcached : stores.Cached post) :
    stores.cache (idText post.postID) = some (marshal post) := by
  obtain ⟨json, hjson⟩ := Option.isSome_iff_exists.mp hcached
  obtain ⟨post', hmem', hid, rfl⟩ := hgood.cache post.postID json hjson
  rw [hjson, hgood.eq_of_postID hmem' hmem hid]

structure DecodedPosts (stores : Stores) (postIDs : List Int64)
    (posts : List Post) : Prop where
  mem_iff : ∀ post, post ∈ posts ↔
    post ∈ stores.posts ∧ post.postID ∈ postIDs ∧ stores.Cached post
  sublist : (posts.map Post.postID).Sublist postIDs

theorem decodeCached_eq (postIDs : List Int64) (hgood : stores.Coherent)
    {keys : List String}
    (hkeys : ∀ id ∈ postIDs, idText id ∈ keys) :
    ∃ posts,
      decodeCached (getMulti stores.cache keys) (postIDs.map idText) =
        .ok posts ∧ DecodedPosts stores postIDs posts := by
  induction postIDs with
  | nil => exact ⟨[], rfl, by simp, by simp⟩
  | cons id postIDs ih =>
      obtain ⟨posts, hdecode, hmem, hsublist⟩ :=
        ih fun id' h => hkeys id' (List.mem_cons_of_mem id h)
      have hget : getMulti stores.cache keys (idText id) =
          stores.cache (idText id) := if_pos (hkeys id List.mem_cons_self)
      cases hcache : stores.cache (idText id) with
      | none =>
          refine ⟨posts, ?_, ?_, hsublist.cons id⟩
          · simp only [List.map_cons, decodeCached, hget, hcache, hdecode]
          · intro post
            rw [hmem, List.mem_cons]
            constructor
            · rintro ⟨hstored, hid, hcached⟩
              exact ⟨hstored, .inr hid, hcached⟩
            · rintro ⟨hstored, rfl | hid, hcached⟩
              · simp [Stores.Cached, hcache] at hcached
              · exact ⟨hstored, hid, hcached⟩
      | some json =>
          obtain ⟨cachedPost, hstored, rfl, rfl⟩ :=
            hgood.cache id json hcache
          refine ⟨cachedPost :: posts, ?_, ?_, hsublist.cons_cons _⟩
          · simp [List.map_cons, decodeCached, hget, hcache, hdecode,
              Except.map]
          · intro post
            rw [List.mem_cons, hmem, List.mem_cons]
            constructor
            · rintro (rfl | ⟨hstored', hid, hcached⟩)
              · exact ⟨hstored, .inl rfl, by simp [Stores.Cached, hcache]⟩
              · exact ⟨hstored', .inr hid, hcached⟩
            · rintro ⟨hstored', hid | hid, hcached⟩
              · exact .inl (hgood.eq_of_postID hstored' hstored hid)
              · exact .inr ⟨hstored', hid, hcached⟩

/-! ## The two parts together -/

def Stores.requested (stores : Stores) (postIDs : List Int64) : List Post :=
  stores.posts.filter fun post => post.postID ∈ postIDs

/-- The documents `Find` returns once the cached posts are known. -/
def uncached (order : FindOrder) (stores : Stores) (postIDs : List Int64)
    (posts : List Post) : List Post :=
  order.find stores.posts (postIDsNotCached postIDs posts)

theorem mem_uncached_iff (order : FindOrder) (hgood : stores.Coherent)
    (hposts : DecodedPosts stores postIDs posts) (post : Post) :
    post ∈ uncached order stores postIDs posts ↔
      post ∈ stores.requested postIDs ∧ ¬ stores.Cached post := by
  have hcached : post ∈ stores.posts → post.postID ∈ postIDs →
      (post.postID ∈ posts.map Post.postID ↔ stores.Cached post) := by
    intro hstored hid
    constructor
    · intro hmem
      obtain ⟨post', hmem', hsame⟩ := List.mem_map.mp hmem
      obtain ⟨hstored', -, hcached⟩ := (hposts.mem_iff post').mp hmem'
      rwa [← hgood.eq_of_postID hstored' hstored hsame]
    · intro hcached
      exact List.mem_map_of_mem
        ((hposts.mem_iff post).mpr ⟨hstored, hid, hcached⟩)
  rw [uncached, (order.perm _ _).mem_iff, List.mem_filter,
    Stores.requested, List.mem_filter]
  simp only [postIDsNotCached, Finset.mem_sdiff, List.mem_toFinset,
    decide_eq_true_eq]
  constructor
  · rintro ⟨hstored, hid, hnot⟩
    exact ⟨⟨hstored, hid⟩, fun h => hnot ((hcached hstored hid).mpr h)⟩
  · rintro ⟨⟨hstored, hid⟩, hnot⟩
    exact ⟨hstored, hid, fun h => hnot ((hcached hstored hid).mp h)⟩

/-- The cached posts and the documents of the cursor are the requested
posts, each once. -/
theorem append_uncached_perm (order : FindOrder) (hgood : stores.Coherent)
    (hids : postIDs.Nodup) (hposts : DecodedPosts stores postIDs posts) :
    (posts ++ uncached order stores postIDs posts).Perm
      (stores.requested postIDs) := by
  have hstored : stores.posts.Nodup := hgood.ids.of_map _
  refine (List.perm_ext_iff_of_nodup ?_ (hstored.filter _)).mpr ?_
  rotate_left
  · intro post
    rw [List.mem_append, hposts.mem_iff, mem_uncached_iff order hgood hposts,
      Stores.requested, List.mem_filter, decide_eq_true_eq]
    by_cases hcached : stores.Cached post <;> simp [hcached]
  · apply List.Nodup.append
    · exact (hids.sublist hposts.sublist).of_map _
    · exact (order.perm _ _).nodup_iff.mpr (hstored.filter _)
    · intro post hmem hmem'
      exact ((mem_uncached_iff order hgood hposts post).mp hmem').2
        ((hposts.mem_iff post).mp hmem).2.2

/-- The call returns the cached posts and all documents of the cursor but
the first, and caches the latter. -/
theorem readPosts_eq (order : FindOrder) (postIDs : List Int64)
    (hgood : stores.Coherent) :
    ∃ posts, DecodedPosts stores postIDs posts ∧
      ReadPosts order stores postIDs =
        (.ok (posts ++ (uncached order stores postIDs posts).tail),
          { stores with
            cache := (uncached order stores postIDs posts).tail.foldl
              cachePost stores.cache }) := by
  have hkeys : ∀ id ∈ postIDs, idText id ∈ postIDs.map idText :=
    fun id hid => List.mem_map_of_mem hid
  obtain ⟨posts, hdecode, hposts⟩ := decodeCached_eq postIDs hgood hkeys
  refine ⟨posts, hposts, ?_⟩
  have hnone : postIDsNotCached postIDs posts = ∅ →
      uncached order stores postIDs posts = [] := by
    intro hempty
    apply List.Perm.eq_nil
    rw [uncached, hempty]
    simpa using order.perm stores.posts ∅
  unfold ReadPosts
  by_cases hlength : postIDs.length = 0
  · obtain rfl := List.length_eq_zero_iff.mp hlength
    obtain rfl := List.map_eq_nil_iff.mp (List.sublist_nil.mp hposts.sublist)
    rw [if_pos hlength, hnone rfl]
    rfl
  · rw [if_neg hlength]
    simp only [hdecode]
    by_cases hcard : (postIDsNotCached postIDs posts).card ≠ 0
    · rw [if_pos hcard]
      change (match Cursor.tryNext ⟨uncached order stores postIDs posts⟩ with
        | (false, _) => _
        | (true, cur) => _) = _
      cases huncached : uncached order stores postIDs posts with
      | nil => simp [Cursor.tryNext]
      | cons post rest => rfl
    · rw [if_neg hcard]
      have hempty := Finset.card_eq_zero.mp (not_not.mp hcard)
      rw [hnone hempty]
      simp

/-- The call returns exactly the requested posts, each once, and leaves all
of them cached. -/
def Exact (order : FindOrder) (stores : Stores) (postIDs : List Int64) :
    Prop :=
  ∃ posts, (ReadPosts order stores postIDs).1 = .ok posts ∧
    posts.Perm (stores.requested postIDs) ∧
    ∀ post ∈ stores.requested postIDs,
      (ReadPosts order stores postIDs).2.cache (idText post.postID) =
        some (marshal post)

/-- `ReadPosts` returns the requested posts exactly when the cache already
holds all of them: otherwise the first document of the cursor is lost. -/
theorem readPosts_exact_iff (order : FindOrder) (stores : Stores)
    (postIDs : List Int64) (hgood : stores.Coherent)
    (hids : postIDs.Nodup) :
    Exact order stores postIDs ↔
      ∀ post ∈ stores.posts, post.postID ∈ postIDs → stores.Cached post := by
  obtain ⟨posts, hposts, hread⟩ := readPosts_eq order postIDs hgood
  have hperm := append_uncached_perm order hgood hids hposts
  have hmem : ∀ post, post ∈ stores.requested postIDs ↔
      post ∈ stores.posts ∧ post.postID ∈ postIDs := by
    intro post
    rw [Stores.requested, List.mem_filter, decide_eq_true_eq]
  constructor
  · rintro ⟨posts', hok, hexact, -⟩ post hstored hid
    rw [hread, Except.ok.injEq] at hok
    subst hok
    by_contra hnot
    have huncached := (mem_uncached_iff order hgood hposts
      post).mpr ⟨(hmem post).mpr ⟨hstored, hid⟩, hnot⟩
    have hlength := hperm.length_eq.trans hexact.length_eq.symm
    have hpos := List.length_pos_of_mem huncached
    rw [List.length_append, List.length_append, List.length_tail] at hlength
    omega
  · intro hall
    have hempty : uncached order stores postIDs posts = [] := by
      rw [List.eq_nil_iff_forall_not_mem]
      intro post huncached
      obtain ⟨hrequested, hnot⟩ :=
        (mem_uncached_iff order hgood hposts post).mp huncached
      obtain ⟨hstored, hid⟩ := (hmem post).mp hrequested
      exact hnot (hall post hstored hid)
    rw [hempty, List.append_nil] at hperm
    rw [hempty] at hread
    refine ⟨posts, by simp [hread], hperm, ?_⟩
    intro post hrequested
    obtain ⟨hstored, hid⟩ := (hmem post).mp hrequested
    rw [hread]
    exact hgood.cache_eq hstored (hall post hstored hid)

def samplePost : Post :=
  ⟨7, 1, ⟨3, "ana"⟩, "hello", [], [], [], 0, 0⟩

def cachedStores : Stores := .caching [samplePost] [samplePost]

/-- Of four posts the first and the third are cached. -/
def fourPosts : List Post :=
  [samplePost, { samplePost with postID := 8 },
    { samplePost with postID := 9 }, { samplePost with postID := 10 }]

/-- The id 4 is that of no post. -/
theorem readPosts_exact_iff_cached :
    Exact FindOrder.natural
      (.caching fourPosts [samplePost, { samplePost with postID := 9 }])
      [9, 4, 7] := by
  refine (readPosts_exact_iff FindOrder.natural _ [9, 4, 7]
    (coherent_caching (by decide) ?_) (by decide)).mpr ?_
  · simp [fourPosts]
  · intro post hmem hid
    have hpost : post = samplePost ∨
        post = { samplePost with postID := 9 } := by
      simp only [Stores.caching, fourPosts, List.mem_cons,
        List.not_mem_nil, or_false] at hmem
      rcases hmem with rfl | rfl | rfl | rfl
      · exact .inl rfl
      · exact absurd hid (by decide)
      · exact .inr rfl
      · exact absurd hid (by decide)
    unfold Stores.Cached
    rcases hpost with rfl | rfl
    · decide +kernel
    · decide +kernel

/-- With an empty cache the only requested post is consumed by `TryNext`. -/
theorem not_readPosts_exact :
    ¬ ∀ (order : FindOrder) (stores : Stores) (postIDs : List Int64),
      stores.Coherent → postIDs.Nodup → Exact order stores postIDs := by
  intro hclaim
  have hcoherent : Stores.Coherent ⟨[samplePost], fun _ => none⟩ :=
    ⟨by simp, fun id json hjson => by cases hjson⟩
  obtain ⟨posts, hok, hperm, -⟩ :=
    hclaim FindOrder.natural _ [7] hcoherent (by decide)
  have hempty : (ReadPosts FindOrder.natural
      ⟨[samplePost], fun _ => none⟩ [7]).1 = .ok [] := by decide +kernel
  rw [hempty, Except.ok.injEq] at hok
  subst hok
  have hlength := hperm.length_eq
  revert hlength
  decide +kernel

end SocialNetwork.PostStorage
