import SocialNetwork.UserTimeline

/-!
# The order of the posts of a timeline

`hometimeline.go` with all store calls succeeding.  Both timeline services
pass the ids of a window, newest first, to `ReadPosts`, which returns the
cached posts in the order of the ids and after them the documents of an
unordered query without the first.
-/

namespace SocialNetwork.HomeTimeline

open Strconv

inductive Error where
  | parse (err : NumError)
  | readPosts (err : PostStorage.Error)
  deriving DecidableEq, Repr

def readCachedTimeline (redis : String → SortedSet Int String)
    (userID start stop : Int64) : Except NumError (List Int64) :=
  let userIDStr := idText userID
  ((redis userIDStr).revRange start.toInt (stop - 1).toInt).mapM parseID

def ReadHomeTimeline (order : PostStorage.FindOrder)
    (posts : PostStorage.Stores) (redis : String → SortedSet Int String)
    (userID start stop : Int64) :
    Except Error (List Post) × PostStorage.Stores :=
  if stop ≤ start ∨ start < 0 then (.ok [], posts)
  else
    match readCachedTimeline redis userID start stop with
    | .error err => (.error (.parse err), posts)
    | .ok postIDs =>
        let reply := PostStorage.ReadPosts order posts postIDs
        (reply.1.mapError .readPosts, reply.2)

end SocialNetwork.HomeTimeline

namespace SocialNetwork.PostStorage

/-! ## Lists split by a predicate -/

theorem eq_filter_of_sublist {α : Type*} {p : α → Prop} [DecidablePred p]
    {l l' : List α} (hsublist : l'.Sublist l) (hnodup : l.Nodup)
    (hmem : ∀ a, a ∈ l' ↔ a ∈ l ∧ p a) : l' = l.filter p := by
  have hperm : l'.Perm (l.filter p) := by
    refine (List.perm_ext_iff_of_nodup (hnodup.sublist hsublist)
      (hnodup.filter _)).mpr ?_
    intro a
    rw [hmem, List.mem_filter, decide_eq_true_eq]
  have hfilter : l'.filter p = l' := by
    rw [List.filter_eq_self]
    intro a ha
    rw [decide_eq_true_eq]
    exact ((hmem a).mp ha).2
  have hsub : l'.Sublist (l.filter p) := by
    rw [← hfilter]
    exact hsublist.filter _
  exact hsub.eq_of_length hperm.length_eq

/-- When each element without `p` comes after all elements with `p`, the list
is split in two. -/
theorem eq_append_of_sublist {α : Type*} {p : α → Prop} [DecidablePred p]
    {l : List α} (hnodup : l.Nodup)
    (hafter : ∀ a ∈ l, ¬p a →
      ((l.filter fun a => p a) ++ [a]).Sublist l) :
    (l.filter fun a => p a) ++ (l.filter fun a => ¬p a) = l := by
  induction l with
  | nil => rfl
  | cons b l ih =>
      rw [List.nodup_cons] at hnodup
      by_cases hb : p b
      · have hrest := ih hnodup.2 fun a ha hnot => by
          have hsublist := hafter a (List.mem_cons_of_mem b ha) hnot
          rw [List.filter_cons_of_pos (by simpa using hb),
            List.cons_append] at hsublist
          exact List.cons_sublist_cons.mp hsublist
        rw [List.filter_cons_of_pos (by simpa using hb),
          List.filter_cons_of_neg (by simpa using hb), List.cons_append,
          hrest]
      · have hnone : (l.filter fun a => p a) = [] := by
          have hsublist := hafter b List.mem_cons_self hb
          rw [List.filter_cons_of_neg (by simpa using hb)] at hsublist
          cases hfilter : l.filter fun a => p a with
          | nil => rfl
          | cons c cs =>
              rw [hfilter, List.cons_append] at hsublist
              have hc : c ∈ l.filter fun a => p a :=
                hfilter ▸ List.mem_cons_self
              have hpc : p c := by simpa using (List.mem_filter.mp hc).2
              cases hsublist with
              | cons _ hsublist =>
                  have hmem : b ∈ l := hsublist.subset
                    (List.mem_cons_of_mem c
                      (List.mem_append_right cs List.mem_cons_self))
                  exact absurd hmem hnodup.1
              | cons_cons => exact absurd hpc hb
        have hall : (l.filter fun a => ¬p a) = l := by
          rw [List.filter_eq_self]
          intro a ha
          have hnot := List.filter_eq_nil_iff.mp hnone a ha
          simpa using hnot
        rw [List.filter_cons_of_neg (by simpa using hb),
          List.filter_cons_of_pos (by simpa using hb), hnone, hall]
        rfl

/-! ## The ids that `ReadPosts` returns -/

def Stores.CachedID (stores : Stores) (id : Int64) : Prop :=
  (stores.cache (idText id)).isSome

instance (stores : Stores) : DecidablePred stores.CachedID := fun id => by
  unfold Stores.CachedID
  infer_instance

def cachedIDs (stores : Stores) (ids : List Int64) : List Int64 :=
  ids.filter fun id => stores.CachedID id

def uncachedIDs (stores : Stores) (ids : List Int64) : List Int64 :=
  ids.filter fun id => ¬stores.CachedID id

/-- A coherent post storage that has all posts of a window. -/
structure Stores.HasWindow (stores : Stores) (ids : List Int64) : Prop where
  coherent : stores.Coherent
  nodup : ids.Nodup
  stored : ∀ id ∈ ids, ∃ post ∈ stores.posts, post.postID = id

section Window

variable {stores : Stores} {ids : List Int64} {order : FindOrder}
  {posts : List Post}

theorem mem_uncachedIDs {id : Int64} :
    id ∈ uncachedIDs stores ids ↔ id ∈ ids ∧ ¬stores.CachedID id := by
  rw [uncachedIDs, List.mem_filter, decide_eq_true_eq]

theorem Stores.HasWindow.map_decoded (hwindow : stores.HasWindow ids)
    (hposts : DecodedPosts stores ids posts) :
    posts.map Post.postID = cachedIDs stores ids := by
  apply eq_filter_of_sublist hposts.sublist hwindow.nodup
  intro id
  constructor
  · intro hmem
    obtain ⟨post, hpost, rfl⟩ := List.mem_map.mp hmem
    obtain ⟨-, hid, hcached⟩ := (hposts.mem_iff post).mp hpost
    exact ⟨hid, hcached⟩
  · intro hmem
    obtain ⟨post, hstored, rfl⟩ := hwindow.stored id hmem.1
    exact List.mem_map_of_mem
      ((hposts.mem_iff post).mpr ⟨hstored, hmem.1, hmem.2⟩)

/-- The documents that `Find` returns for the uncached ids. -/
def found (order : FindOrder) (stores : Stores) (ids : List Int64) :
    List Post :=
  order.find stores.posts (uncachedIDs stores ids).toFinset

theorem Stores.HasWindow.uncached_eq (hwindow : stores.HasWindow ids)
    (hposts : DecodedPosts stores ids posts) :
    uncached order stores ids posts = found order stores ids := by
  have hids : postIDsNotCached ids posts =
      (uncachedIDs stores ids).toFinset := by
    ext id
    rw [postIDsNotCached, hwindow.map_decoded hposts, Finset.mem_sdiff,
      List.mem_toFinset, List.mem_toFinset, List.mem_toFinset,
      mem_uncachedIDs, cachedIDs, List.mem_filter, decide_eq_true_eq]
    tauto
  rw [uncached, hids, found]

theorem Stores.HasWindow.readPosts_ids (hwindow : stores.HasWindow ids)
    (order : FindOrder) :
    ∃ read, (ReadPosts order stores ids).1 = .ok read ∧
      read.map Post.postID = cachedIDs stores ids ++
        ((found order stores ids).map Post.postID).tail := by
  obtain ⟨posts, hposts, hread⟩ :=
    readPosts_eq order ids hwindow.coherent
  refine ⟨_, congrArg Prod.fst hread, ?_⟩
  rw [List.map_append, hwindow.map_decoded hposts, List.map_tail,
    hwindow.uncached_eq hposts]

theorem Stores.HasWindow.stored_perm (hwindow : stores.HasWindow ids) :
    ((stores.posts.filter fun post =>
      post.postID ∈ (uncachedIDs stores ids).toFinset).map
        Post.postID).Perm (uncachedIDs stores ids) := by
  have hnodup : (uncachedIDs stores ids).Nodup := hwindow.nodup.filter _
  refine (List.perm_ext_iff_of_nodup
    (hwindow.coherent.ids.sublist (List.filter_sublist.map _))
    hnodup).mpr ?_
  intro id
  constructor
  · intro hmem
    obtain ⟨post, hpost, rfl⟩ := List.mem_map.mp hmem
    simpa using (List.mem_filter.mp hpost).2
  · intro hid
    obtain ⟨post, hstored, rfl⟩ :=
      hwindow.stored id (mem_uncachedIDs.mp hid).1
    exact List.mem_map_of_mem
      (List.mem_filter.mpr ⟨hstored, by simpa using hid⟩)

theorem Stores.HasWindow.found_perm (hwindow : stores.HasWindow ids)
    (order : FindOrder) :
    ((found order stores ids).map Post.postID).Perm
      (uncachedIDs stores ids) :=
  ((order.perm _ _).map _).trans hwindow.stored_perm

/-- An order that answers one query as chosen and all others naturally. -/
def FindOrder.choose (posts : List Post) (ids : Finset Int64)
    (docs : List Post)
    (hperm : docs.Perm (posts.filter fun post => post.postID ∈ ids)) :
    FindOrder where
  find posts' ids' :=
    if posts' = posts ∧ ids' = ids then docs
    else posts'.filter fun post => post.postID ∈ ids'
  perm posts' ids' := by
    split
    next hquery =>
      rw [hquery.1, hquery.2]
      exact hperm
    next => exact List.Perm.refl _

/-- MongoDB may return the uncached posts in any order. -/
theorem Stores.HasWindow.exists_order (hwindow : stores.HasWindow ids)
    {target : List Int64} (htarget : target.Perm (uncachedIDs stores ids)) :
    ∃ order, (found order stores ids).map Post.postID = target := by
  obtain ⟨docs, hdocs, hmap⟩ : ∃ docs : List Post,
      docs.Perm (stores.posts.filter fun post =>
        post.postID ∈ (uncachedIDs stores ids).toFinset) ∧
      docs.map Post.postID = target := by
    have hcomp := congrFun (congrFun
      (List.eq_map_comp_perm Post.postID) target)
      (stores.posts.filter fun post =>
        post.postID ∈ (uncachedIDs stores ids).toFinset)
    obtain ⟨docs, hmap, hdocs⟩ :=
      hcomp.mpr (htarget.trans hwindow.stored_perm.symm)
    exact ⟨docs, hdocs, hmap.symm⟩
  refine ⟨FindOrder.choose _ _ docs hdocs, ?_⟩
  rw [found, FindOrder.choose]
  simp only [and_self, if_true]
  exact hmap

/-! ## When the order survives -/

/-- The posts whose ids are in the list come in its order. -/
def InOrder (ids : List Int64) (posts : List Post) : Prop :=
  ((posts.map Post.postID).filter fun id => id ∈ ids).Sublist ids

/-- At most one post of the window is uncached, or there are two and both
come after all cached ones. -/
def Stores.KeepsOrder (stores : Stores) (ids : List Int64) : Prop :=
  (uncachedIDs stores ids).length ≤ 1 ∨
    (uncachedIDs stores ids).length = 2 ∧
      cachedIDs stores ids ++ uncachedIDs stores ids = ids

instance (stores : Stores) (ids : List Int64) :
    Decidable (stores.KeepsOrder ids) := by
  unfold Stores.KeepsOrder
  infer_instance

theorem Stores.HasWindow.inOrder_iff (hwindow : stores.HasWindow ids)
    (hread : posts.map Post.postID = cachedIDs stores ids ++
      ((found order stores ids).map Post.postID).tail) :
    InOrder ids posts ↔ (cachedIDs stores ids ++
      ((found order stores ids).map Post.postID).tail).Sublist ids := by
  have hall : ((posts.map Post.postID).filter fun id => id ∈ ids) =
      posts.map Post.postID := by
    rw [List.filter_eq_self]
    intro id hid
    rw [decide_eq_true_eq]
    rw [hread] at hid
    rcases List.mem_append.mp hid with hid | hid
    · exact List.mem_of_mem_filter hid
    · have hmem := (hwindow.found_perm order).mem_iff.mp
        (List.mem_of_mem_tail hid)
      exact (mem_uncachedIDs.mp hmem).1
  rw [InOrder, hall, hread]

theorem Stores.KeepsOrder.sublist (hkeeps : stores.KeepsOrder ids)
    (hwindow : stores.HasWindow ids) (order : FindOrder) :
    (cachedIDs stores ids ++
      ((found order stores ids).map Post.postID).tail).Sublist ids := by
  have hperm := hwindow.found_perm order
  have hlength := hperm.length_eq
  rcases hkeeps with hone | ⟨htwo, hsplit⟩
  · have hnil : ((found order stores ids).map Post.postID).tail = [] := by
      apply List.eq_nil_of_length_eq_zero
      rw [List.length_tail]
      omega
    rw [hnil, List.append_nil]
    exact List.filter_sublist
  · have hlast : (((found order stores ids).map
        Post.postID).tail).length = 1 := by
      rw [List.length_tail]
      omega
    obtain ⟨id, hid⟩ := List.length_eq_one_iff.mp hlast
    have hmem : id ∈ uncachedIDs stores ids := by
      apply hperm.mem_iff.mp
      apply List.mem_of_mem_tail
      rw [hid]
      exact List.mem_singleton_self id
    rw [hid]
    calc
      (cachedIDs stores ids ++ [id]).Sublist
          (cachedIDs stores ids ++ uncachedIDs stores ids) :=
        List.Sublist.append_left (List.singleton_sublist.mpr hmem) _
      _ = ids := hsplit

/-- With three uncached posts MongoDB can return the last two in the wrong
order. -/
theorem Stores.HasWindow.length_uncachedIDs_le
    (hwindow : stores.HasWindow ids)
    (hall : ∀ target : List Int64, target.Perm (uncachedIDs stores ids) →
      (cachedIDs stores ids ++ target.tail).Sublist ids) :
    (uncachedIDs stores ids).length ≤ 2 := by
  have hnodup : (uncachedIDs stores ids).Nodup := hwindow.nodup.filter _
  have htail : ∀ target : List Int64,
      target.Perm (uncachedIDs stores ids) →
        target.tail.Sublist (uncachedIDs stores ids) := by
    intro target htarget
    have hsublist := (List.sublist_append_right _ _).trans
      (hall target htarget)
    have hfilter : (target.tail.filter fun id => ¬stores.CachedID id) =
        target.tail := by
      rw [List.filter_eq_self]
      intro id hid
      have hmem := htarget.mem_iff.mp (List.mem_of_mem_tail hid)
      simpa using (mem_uncachedIDs.mp hmem).2
    rw [← hfilter]
    exact hsublist.filter _
  rcases hlist : uncachedIDs stores ids with _ | ⟨a, _ | ⟨b, _ | ⟨c, rest⟩⟩⟩
  · simp
  · simp
  · simp
  · rw [hlist] at htail hnodup
    have hswap : (c :: b :: rest).Sublist (a :: b :: c :: rest) :=
      htail (a :: c :: b :: rest) ((List.Perm.swap b c rest).cons a)
    have hne : a ∉ c :: b :: rest := by
      have hhead := (List.nodup_cons.mp hnodup).1
      simp only [List.mem_cons, not_or] at hhead ⊢
      exact ⟨hhead.2.1, hhead.1, hhead.2.2⟩
    cases hswap with
    | cons _ hrest =>
        have heq := hrest.eq_of_length (by simp)
        have hcb : c = b := (List.cons.inj heq).1
        simp [hcb] at hnodup
    | cons_cons => simp at hne

theorem Stores.HasWindow.keepsOrder_iff (hwindow : stores.HasWindow ids) :
    (∀ order, ∃ read, (ReadPosts order stores ids).1 = .ok read ∧
      InOrder ids read) ↔ stores.KeepsOrder ids := by
  constructor
  · intro hclaim
    have hall : ∀ target : List Int64,
        target.Perm (uncachedIDs stores ids) →
          (cachedIDs stores ids ++ target.tail).Sublist ids := by
      intro target htarget
      obtain ⟨order, hfound⟩ := hwindow.exists_order htarget
      obtain ⟨read, hok, hinOrder⟩ := hclaim order
      obtain ⟨read', hok', hids⟩ := hwindow.readPosts_ids order
      rw [hok, Except.ok.injEq] at hok'
      subst hok'
      rw [hwindow.inOrder_iff hids, hfound] at hinOrder
      exact hinOrder
    have hlength := hwindow.length_uncachedIDs_le hall
    by_cases hone : (uncachedIDs stores ids).length ≤ 1
    · exact .inl hone
    · refine .inr ⟨by omega, ?_⟩
      apply eq_append_of_sublist hwindow.nodup
      intro id hid hnot
      obtain ⟨a, b, hpair⟩ := List.length_eq_two.mp
        (by omega : (uncachedIDs stores ids).length = 2)
      have hmem : id ∈ uncachedIDs stores ids :=
        mem_uncachedIDs.mpr ⟨hid, hnot⟩
      rw [hpair] at hmem hall
      rcases List.mem_cons.mp hmem with rfl | hmem
      · exact hall [b, id] (List.Perm.swap _ _ _)
      · rw [List.mem_singleton] at hmem
        subst hmem
        exact hall [a, id] (List.Perm.refl _)
  · intro hkeeps order
    obtain ⟨read, hok, hids⟩ := hwindow.readPosts_ids order
    exact ⟨read, hok, (hwindow.inOrder_iff hids).mpr
      (hkeeps.sublist hwindow order)⟩

end Window

end SocialNetwork.PostStorage

namespace SocialNetwork.HomeTimeline

open PostStorage UserTimeline

/-! ## Reads of a timeline -/

/-- The members of a timeline are ids, as both services write them. -/
def HoldsIDs (set : SortedSet Int String) : Prop :=
  ∀ text ∈ set.members, ∃ id, text = idText id

theorem HoldsIDs.exists_timeline {set : SortedSet Int String}
    (hset : HoldsIDs set) :
    ∃ timeline : List Int64,
      set.members.reverse = timeline.map idText ∧ timeline.Nodup := by
  obtain ⟨timeline, htimeline⟩ := exists_map_idText
    fun text htext => hset text (List.mem_reverse.mp htext)
  refine ⟨timeline, htimeline, ?_⟩
  have hnodup := set.members_nodup
  rw [← List.nodup_reverse, htimeline] at hnodup
  exact hnodup.of_map _

theorem nodup_window {timeline : List Int64} (hnodup : timeline.Nodup)
    (start stop : Int64) : (window timeline start stop).Nodup :=
  hnodup.sublist ((List.take_sublist _ _).trans (List.drop_sublist _ _))

theorem mapError_eq_ok {ε ε' α : Type} {f : ε → ε'} {reply : Except ε α}
    {a : α} : reply.mapError f = .ok a ↔ reply = .ok a := by
  cases reply with
  | error err => simp [Except.mapError]
  | ok b => simp [Except.mapError]

section Reads

variable {posts : PostStorage.Stores} {userID start stop : Int64}
  {redis : String → SortedSet Int String} {stores : UserTimeline.Stores}
  {writes : List Write} {timeline : List Int64}

theorem readHomeTimeline_eq (order : FindOrder)
    (htimeline : (redis (idText userID)).members.reverse =
      timeline.map idText)
    (hstart : 0 ≤ start) (hstop : start < stop) :
    (ReadHomeTimeline order posts redis userID start stop).1 =
      (ReadPosts order posts (window timeline start stop)).1.mapError
        .readPosts := by
  have hvalid : ¬(stop ≤ start ∨ start < 0) := by
    rw [not_or, Int64.not_le, Int64.not_lt]
    exact ⟨hstop, hstart⟩
  have hcached : readCachedTimeline redis userID start stop =
      .ok (window timeline start stop) :=
    UserTimeline.readCachedTimeline_eq htimeline hstart hstop
  unfold ReadHomeTimeline
  rw [if_neg hvalid]
  simp only [hcached]

theorem readHomeTimeline_inOrder_iff
    (htimeline : (redis (idText userID)).members.reverse =
      timeline.map idText)
    (hstart : 0 ≤ start) (hstop : start < stop)
    (hwindow : posts.HasWindow (window timeline start stop)) :
    (∀ order, ∃ read,
      (ReadHomeTimeline order posts redis userID start stop).1 = .ok read ∧
        InOrder (window timeline start stop) read) ↔
      posts.KeepsOrder (window timeline start stop) := by
  rw [← hwindow.keepsOrder_iff]
  simp only [readHomeTimeline_eq _ htimeline hstart hstop, mapError_eq_ok]

/-- The user has no document although Redis could not fill the window: the
read ends before it asks for posts. -/
def Unread (writes : List Write) (userID start stop : Int64)
    (ids : List Int64) : Prop :=
  start.toInt + ids.length < stop.toInt ∧
    ∀ write ∈ writes, write.userID ≠ userID

theorem not_unread_of_find {write : Write} (start stop : Int64)
    (ids : List Int64)
    (hfind : writes.find? (fun write => write.userID = userID) =
      some write) : ¬Unread writes userID start stop ids := by
  intro hunread
  have huser := List.find?_some hfind
  rw [decide_eq_true_eq] at huser
  exact hunread.2 write (List.mem_of_find?_eq_some hfind) huser

theorem readUserTimeline_inOrder_iff (hwrote : stores.Wrote writes)
    (htimeline : (stores.redis (idText userID)).members.reverse =
      timeline.map idText)
    (hstart : 0 ≤ start) (hstop : start < stop)
    (hwindow : posts.HasWindow (window timeline start stop)) :
    (∀ order, ∃ read,
      (ReadUserTimeline order posts stores userID start stop).result =
          .ok read ∧
        InOrder (window timeline start stop) read) ↔
      posts.KeepsOrder (window timeline start stop) ∨
        Unread writes userID start stop (window timeline start stop) := by
  have hlength := length_window_le timeline start stop
  have hbound := stop.toInt_lt
  have hstop' := Int64.lt_iff_toInt_lt.mp hstop
  have hsum := toInt_add_ofNat hstart
    (by omega : start.toInt + (window timeline start stop).length < 2 ^ 63)
  simp only [readUserTimeline_eq hwrote htimeline hstart hstop]
  by_cases hfull : start + Int64.ofNat (window timeline start stop).length <
      stop
  · simp only [if_pos hfull]
    cases hfind : writes.find? fun write => write.userID = userID with
    | none =>
        have hunread : Unread writes userID start stop
            (window timeline start stop) := by
          refine ⟨by rw [← hsum]; exact Int64.lt_iff_toInt_lt.mp hfull, ?_⟩
          intro write hwrite
          simpa using List.find?_eq_none.mp hfind write hwrite
        constructor
        · intro _
          exact .inr hunread
        · intro _ order
          exact ⟨[], rfl, List.nil_sublist _⟩
    | some write =>
        have hread := not_unread_of_find start stop
          (window timeline start stop) hfind
        rw [or_iff_left hread]
        simp only
        by_cases hmissing : window timeline start stop = [] ∧ start = 0
        · have hkeeps : posts.KeepsOrder (window timeline start stop) := by
            rw [hmissing.1]
            exact .inl (Nat.zero_le 1)
          refine iff_of_true ?_ hkeeps
          intro order
          obtain ⟨cached, -, hok⟩ := readPosts_eq order
            (window timeline start stop ++ [write.postID]) hwindow.coherent
          have hinOrder : ∀ read, InOrder (window timeline start stop)
              read := by
            intro read
            rw [InOrder, hmissing.1]
            simp
          simp only [if_pos hmissing, fetch, hok]
          exact ⟨_, rfl, hinOrder _⟩
        · rw [← hwindow.keepsOrder_iff]
          simp only [if_neg hmissing, List.append_nil, fetch,
            mapError_eq_ok]
  · have hread : ¬Unread writes userID start stop
        (window timeline start stop) := by
      intro hunread
      apply hfull
      rw [Int64.lt_iff_toInt_lt, hsum]
      exact hunread.1
    rw [or_iff_left hread, ← hwindow.keepsOrder_iff]
    simp only [if_neg hfull, fetch, mapError_eq_ok]

end Reads

/-- Whatever order MongoDB chooses, the posts of a window come newest first
exactly when the cache keeps the order. -/
theorem timelines_inOrder_iff {posts : PostStorage.Stores}
    (hposts : posts.Coherent) {userID start stop : Int64}
    (hstart : 0 ≤ start) (hstop : start < stop) :
    (∀ redis : String → SortedSet Int String,
      HoldsIDs (redis (idText userID)) → ∃ ids,
        readCachedTimeline redis userID start stop = .ok ids ∧
        ((∀ id ∈ ids, ∃ post ∈ posts.posts, post.postID = id) →
          ((∀ order, ∃ read,
              (ReadHomeTimeline order posts redis userID start stop).1 =
                .ok read ∧ InOrder ids read) ↔
            posts.KeepsOrder ids))) ∧
    ∀ (stores : UserTimeline.Stores) (writes : List Write),
      stores.Wrote writes → HoldsIDs (stores.redis (idText userID)) →
        ∃ ids,
          UserTimeline.readCachedTimeline stores.redis (idText userID) start
            stop = .ok ids ∧
          ((∀ id ∈ ids, ∃ post ∈ posts.posts, post.postID = id) →
            ((∀ order, ∃ read,
                (ReadUserTimeline order posts stores userID start
                  stop).result = .ok read ∧ InOrder ids read) ↔
              posts.KeepsOrder ids ∨
                Unread writes userID start stop ids)) := by
  constructor
  · intro redis hset
    obtain ⟨timeline, htimeline, hnodup⟩ := hset.exists_timeline
    refine ⟨_, UserTimeline.readCachedTimeline_eq htimeline hstart hstop, ?_⟩
    intro hstored
    exact readHomeTimeline_inOrder_iff htimeline hstart hstop
      ⟨hposts, nodup_window hnodup start stop, hstored⟩
  · intro stores writes hwrote hset
    obtain ⟨timeline, htimeline, hnodup⟩ := hset.exists_timeline
    refine ⟨_, UserTimeline.readCachedTimeline_eq htimeline hstart hstop, ?_⟩
    intro hstored
    exact readUserTimeline_inOrder_iff hwrote htimeline hstart hstop
      ⟨hposts, nodup_window hnodup start stop, hstored⟩

/-- The sorted set of user 5 with the posts 7, 8 and 9. -/
def sampleTimelines : String → SortedSet Int String :=
  Function.update (fun _ => SortedSet.empty) (idText 5)
    (((SortedSet.empty.addNX (idText 7) 100).addNX (idText 8) 200).addNX
      (idText 9) 300)

theorem holdsIDs_sampleTimelines :
    HoldsIDs (sampleTimelines (idText 5)) := by
  intro text htext
  rw [sampleTimelines, Function.update_self] at htext
  simp only [SortedSet.mem_members_addNX, SortedSet.members_empty,
    List.not_mem_nil, or_false] at htext
  rcases htext with rfl | rfl | rfl
  · exact ⟨9, rfl⟩
  · exact ⟨8, rfl⟩
  · exact ⟨7, rfl⟩

def storedPosts : List Post :=
  [samplePost, { samplePost with postID := 8 },
    { samplePost with postID := 9 }]

/-- The newest post is cached. -/
def newestCached : PostStorage.Stores :=
  .caching storedPosts [{ samplePost with postID := 9 }]

/-- The same timeline as that of the user's own posts. -/
def sampleWrites : List Write := [⟨7, 5, 100⟩, ⟨8, 5, 200⟩, ⟨9, 5, 300⟩]

def sampleUserTimelines : UserTimeline.Stores :=
  ⟨sampleWrites.map fun write => write.timeline.toDocument, sampleTimelines⟩

theorem readCachedTimeline_sampleTimelines :
    readCachedTimeline sampleTimelines 5 0 3 = .ok [9, 8, 7] := by
  have hids : (readCachedTimeline sampleTimelines 5 0 3).toOption =
      some [9, 8, 7] := by decide +kernel
  cases hreply : readCachedTimeline sampleTimelines 5 0 3 with
  | error err =>
      rw [hreply] at hids
      cases hids
  | ok ids =>
      rw [hreply] at hids
      simpa [Except.toOption] using hids

theorem timelines_inOrder_iff_cached :
    (∃ read, (ReadHomeTimeline FindOrder.natural newestCached
        sampleTimelines 5 0 3).1 = .ok read ∧ InOrder [9, 8, 7] read) ∧
    ∃ read, (ReadUserTimeline FindOrder.natural newestCached
        sampleUserTimelines 5 0 3).result = .ok read ∧
      InOrder [9, 8, 7] read := by
  have hcoherent : newestCached.Coherent :=
    coherent_caching (by decide) (by simp [storedPosts])
  have hstored : ∀ id ∈ [9, 8, 7], ∃ post ∈ newestCached.posts,
      post.postID = id := by
    simp [newestCached, Stores.caching, storedPosts, samplePost]
  have hkeeps : newestCached.KeepsOrder [9, 8, 7] :=
    .inr (by decide +kernel)
  obtain ⟨hhome, huser⟩ := timelines_inOrder_iff hcoherent
    (by decide : (0 : Int64) ≤ 0) (by decide : (0 : Int64) < 3)
  constructor
  · obtain ⟨ids, hids, hiff⟩ :=
      hhome sampleTimelines holdsIDs_sampleTimelines
    obtain rfl : [9, 8, 7] = ids := by
      rw [readCachedTimeline_sampleTimelines] at hids
      exact Except.ok.inj hids
    exact (hiff hstored).mpr hkeeps FindOrder.natural
  · obtain ⟨ids, hids, hiff⟩ := huser sampleUserTimelines sampleWrites rfl
      holdsIDs_sampleTimelines
    obtain rfl : [9, 8, 7] = ids :=
      Except.ok.inj (readCachedTimeline_sampleTimelines.symm.trans hids)
    exact (hiff hstored).mpr (.inl hkeeps) FindOrder.natural

/-- The oldest post is cached. -/
def threePosts : PostStorage.Stores := .caching storedPosts [samplePost]

theorem threePosts_coherent : threePosts.Coherent :=
  coherent_caching (by decide) (by simp [storedPosts])

/-- Only the oldest post is cached: it is returned first. -/
theorem not_timelines_inOrder :
    ¬ ∀ (order : FindOrder) (posts : PostStorage.Stores)
        (redis : String → SortedSet Int String)
        (userID start stop : Int64) (ids : List Int64),
      posts.Coherent → HoldsIDs (redis (idText userID)) →
      0 ≤ start → start < stop →
      readCachedTimeline redis userID start stop = .ok ids →
      (∀ id ∈ ids, ∃ post ∈ posts.posts, post.postID = id) →
      ∃ read, (ReadHomeTimeline order posts redis userID start stop).1 =
        .ok read ∧ InOrder ids read := by
  intro hclaim
  obtain ⟨read, hread, hinOrder⟩ := hclaim FindOrder.natural threePosts
    sampleTimelines 5 0 3 [9, 8, 7] threePosts_coherent
    holdsIDs_sampleTimelines (by decide) (by decide)
    readCachedTimeline_sampleTimelines
    (by simp [threePosts, Stores.caching, storedPosts, samplePost])
  have hresult : ((ReadHomeTimeline FindOrder.natural threePosts
      sampleTimelines 5 0 3).1.map (List.map Post.postID)).toOption =
        some [7, 9] := by decide +kernel
  rw [hread] at hresult
  have hposts : read.map Post.postID = [7, 9] := by
    simpa [Except.map, Except.toOption] using hresult
  rw [InOrder, hposts] at hinOrder
  revert hinOrder
  decide

end SocialNetwork.HomeTimeline
