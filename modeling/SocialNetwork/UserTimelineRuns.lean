import SocialNetwork.Machine
import SocialNetwork.UserTimeline

/-!
# User timelines over sequences of calls

Every write inserts a document with one post, so the collection is the list
of the writes, and the sorted set of a user has the posts written for the
user with the timestamps of their first writes.  A read finds all of them in
Redis and changes nothing.
-/

namespace SocialNetwork.UserTimeline

open Bson Machine

inductive Call where
  | write (write : Write)
  | read (order : PostStorage.FindOrder) (posts : PostStorage.Stores)
      (userID start stop : Int64)

def step (stores : Stores) : Call → Option Stores
  | .write write =>
      WriteUserTimeline stores write.postID write.userID write.timestamp
  | .read order posts userID start stop =>
      some (ReadUserTimeline order posts stores userID start stop).stores

def written (calls : List Call) : List Write :=
  calls.filterMap fun
    | .write write => some write
    | .read .. => none

@[simp] theorem written_map_write (writes : List Write) :
    written (writes.map Call.write) = writes := by
  induction writes with
  | nil => rfl
  | cons write writes ih => simp [written]

theorem written_concat (calls : List Call) (call : Call) :
    written (calls ++ [call]) = written calls ++ written [call] :=
  List.filterMap_append

/-- The timestamp of the first write of the post for the user. -/
def firstTimestamp (writes : List Write) (userID postID : Int64) :
    Option Int64 :=
  (writes.find? fun write =>
    write.userID = userID ∧ write.postID = postID).map Write.timestamp

theorem firstTimestamp_concat_of_ne {write : Write}
    {userID postID : Int64}
    (hne : ¬(write.userID = userID ∧ write.postID = postID))
    (writes : List Write) :
    firstTimestamp (writes ++ [write]) userID postID =
      firstTimestamp writes userID postID := by
  have hlast : [write].find? (fun write =>
      write.userID = userID ∧ write.postID = postID) = none := by
    rw [List.find?_cons_of_neg (by simpa using hne)]
    rfl
  rw [firstTimestamp, List.find?_append, hlast, Option.or_none]
  rfl

theorem firstTimestamp_concat_self (writes : List Write) (write : Write) :
    firstTimestamp (writes ++ [write]) write.userID write.postID =
      some ((firstTimestamp writes write.userID write.postID).getD
        write.timestamp) := by
  have hlast : [write].find? (fun other =>
      other.userID = write.userID ∧ other.postID = write.postID) =
        some write :=
    List.find?_cons_of_pos (by simp)
  rw [firstTimestamp, List.find?_append, hlast]
  unfold firstTimestamp
  cases writes.find? fun other =>
      other.userID = write.userID ∧ other.postID = write.postID with
  | none => rfl
  | some first => rfl

theorem isSome_firstTimestamp_iff {writes : List Write}
    {userID postID : Int64} :
    (firstTimestamp writes userID postID).isSome ↔
      ∃ write ∈ writes, write.userID = userID ∧ write.postID = postID := by
  rw [firstTimestamp, Option.isSome_map, List.find?_isSome]
  simp only [decide_eq_true_eq]

/-! ## The invariant -/

/-- What the two stores hold after the writes. -/
structure Stores.Holds (stores : Stores) (writes : List Write) : Prop where
  wrote : stores.Wrote writes
  score : ∀ userID postID,
    (stores.redis (idText userID)).score? (idText postID) =
      (firstTimestamp writes userID postID).map float64
  members : ∀ userID, ∀ text ∈ (stores.redis (idText userID)).members,
    ∃ id, text = idText id

theorem Stores.Holds.empty : Stores.empty.Holds [] where
  wrote := rfl
  score _ _ := rfl
  members _ _ htext := absurd htext List.not_mem_nil

theorem Stores.Holds.write {stores : Stores} {writes : List Write}
    (hgood : stores.Holds writes) (write : Write) :
    ∃ next, WriteUserTimeline stores write.postID write.userID
        write.timestamp = some next ∧ next.Holds (writes ++ [write]) := by
  refine ⟨_, writeUserTimeline_eq stores write, ?_, ?_, ?_⟩
  · have hwrote := hgood.wrote
    unfold Stores.Wrote at hwrote ⊢
    simp only [Stores.zaddNX, hwrote, List.map_append, List.map_cons,
      List.map_nil]
  · intro userID postID
    simp only [Stores.zaddNX]
    by_cases huser : userID = write.userID
    · subst huser
      rw [Function.update_self]
      by_cases hpost : postID = write.postID
      · subst hpost
        rw [Write.info, SortedSet.score?_addNX_self, hgood.score,
          firstTimestamp_concat_self, Option.map_some]
        cases firstTimestamp writes write.userID write.postID with
        | none => rfl
        | some timestamp => rfl
      · have hne : idText postID ≠ idText write.info.postID :=
          fun h => hpost (idText_inj.mp h)
        rw [SortedSet.score?_addNX_of_ne hne, hgood.score,
          firstTimestamp_concat_of_ne fun h => hpost h.2.symm]
    · have hne : idText userID ≠ idText write.userID :=
        fun h => huser (idText_inj.mp h)
      rw [Function.update_of_ne hne, hgood.score,
        firstTimestamp_concat_of_ne fun h => huser h.1.symm]
  · intro userID text htext
    simp only [Stores.zaddNX] at htext
    by_cases huser : idText userID = idText write.userID
    · rw [huser, Function.update_self,
        SortedSet.mem_members_addNX] at htext
      rcases htext with rfl | htext
      · exact ⟨write.info.postID, rfl⟩
      · exact hgood.members write.userID text htext
    · rw [Function.update_of_ne huser] at htext
      exact hgood.members userID text htext

section Reads

variable {stores : Stores} {writes : List Write}
  {order : PostStorage.FindOrder} {posts : PostStorage.Stores}
  {userID start stop : Int64}

theorem Stores.Holds.exists_timeline (hgood : stores.Holds writes)
    (userID : Int64) :
    ∃ timeline : List Int64,
      (stores.redis (idText userID)).members.reverse =
        timeline.map idText := by
  apply exists_map_idText
  intro text htext
  exact hgood.members userID text (List.mem_reverse.mp htext)

theorem Stores.Holds.mem_timeline_iff (hgood : stores.Holds writes)
    {timeline : List Int64}
    (htimeline : (stores.redis (idText userID)).members.reverse =
      timeline.map idText) (postID : Int64) :
    postID ∈ timeline ↔
      ∃ write ∈ writes, write.userID = userID ∧ write.postID = postID := by
  have hmember : postID ∈ timeline ↔
      idText postID ∈ (stores.redis (idText userID)).members := by
    rw [← List.mem_map_of_injective idText_injective, ← htimeline,
      List.mem_reverse]
  rw [hmember, ← SortedSet.isSome_score?_iff, hgood.score,
    Option.isSome_map, isSome_firstTimestamp_iff]

theorem Stores.zaddNX_of_mem {key : String} {info : TimelinePostInfo}
    (hmem : idText info.postID ∈ (stores.redis key).members) :
    stores.zaddNX key info = stores := by
  unfold Stores.zaddNX
  rw [SortedSet.addNX_of_mem hmem, Function.update_eq_self]

/-- The post that a read would take from MongoDB is in the sorted set, so
the window is only empty past its end, and adding the post again has no
effect. -/
theorem Stores.Holds.read (hgood : stores.Holds writes)
    {timeline : List Int64}
    (htimeline : (stores.redis (idText userID)).members.reverse =
      timeline.map idText)
    (hstart : 0 ≤ start) (hstop : start < stop) :
    ReadUserTimeline order posts stores userID start stop =
      if timeline = [] then ⟨.ok [], none, stores, posts⟩
      else
        fetch order posts stores (idText userID)
          (window timeline start stop) [] := by
  have hmem := hgood.mem_timeline_iff htimeline
  rw [readUserTimeline_eq hgood.wrote htimeline hstart hstop]
  cases hfind : writes.find? fun write => write.userID = userID with
  | none =>
      have hnone : timeline = [] := by
        rw [List.eq_nil_iff_forall_not_mem]
        intro postID hpost
        obtain ⟨write, hwrite, huser, -⟩ := (hmem postID).mp hpost
        have hnot := List.find?_eq_none.mp hfind write hwrite
        rw [decide_eq_true_eq] at hnot
        exact hnot huser
      have hempty : window timeline start stop = [] := by
        rw [hnone, window, List.drop_nil, List.take_nil]
      have hlt : start + Int64.ofNat (0 : ℕ) < stop := by
        have hzero : Int64.ofNat 0 = 0 := rfl
        rwa [hzero, Int64.add_zero]
      rw [if_pos hnone, hempty, List.length_nil, if_pos hlt]
  | some write =>
      have huser : write.userID = userID := by
        simpa using List.find?_some hfind
      have hpost : write.postID ∈ timeline :=
        (hmem write.postID).mpr
          ⟨write, List.mem_of_find?_eq_some hfind, huser, rfl⟩
      have hne : timeline ≠ [] := List.ne_nil_of_mem hpost
      have hcached : idText write.info.postID ∈
          (stores.redis (idText userID)).members := by
        rw [← List.mem_reverse, htimeline]
        exact List.mem_map_of_mem hpost
      have hnone : ¬(window timeline start stop = [] ∧ start = 0) := by
        intro hmissing
        have hlength := congrArg List.length hmissing.1
        have hpos := List.length_pos_of_ne_nil hne
        have hzero : (0 : Int64).toInt = 0 := rfl
        rw [Int64.lt_iff_toInt_lt] at hstop
        rw [hmissing.2] at hlength hstop
        rw [window, List.length_take, List.length_drop,
          List.length_nil] at hlength
        omega
      rw [if_neg hne]
      simp only [if_neg hnone, List.append_nil]
      split
      next =>
        simp only [fetch, List.foldl_cons, List.foldl_nil,
          Stores.zaddNX_of_mem hcached]
      next => rfl

theorem Stores.Holds.read_stores (hgood : stores.Holds writes) :
    (ReadUserTimeline order posts stores userID start stop).stores =
      stores := by
  by_cases hvalid : stop ≤ start ∨ start < 0
  · rw [ReadUserTimeline, if_pos hvalid]
  · rw [not_or, Int64.not_le, Int64.not_lt] at hvalid
    obtain ⟨timeline, htimeline⟩ := hgood.exists_timeline userID
    rw [hgood.read htimeline hvalid.2 hvalid.1]
    split <;> rfl

end Reads

theorem run_holds (calls : List Call) :
    ∃ stores, run step Stores.empty calls = some stores ∧
      stores.Holds (written calls) := by
  induction calls using List.reverseRecOn with
  | nil => exact ⟨_, rfl, Stores.Holds.empty⟩
  | append_singleton calls call ih =>
      obtain ⟨stores, hrun, hgood⟩ := ih
      rw [written_concat]
      cases call with
      | write write =>
          obtain ⟨next, hnext, hnextGood⟩ := hgood.write write
          exact ⟨next, run_concat_eq_some.mpr ⟨stores, hrun, hnext⟩,
            hnextGood⟩
      | read order posts userID start stop =>
          have hstep : step stores (.read order posts userID start stop) =
              some stores := congrArg some hgood.read_stores
          refine ⟨stores, run_concat_eq_some.mpr ⟨stores, hrun, hstep⟩, ?_⟩
          have hnone : written [.read order posts userID start stop] = [] :=
            rfl
          rw [hnone, List.append_nil]
          exact hgood

/-! ## Windows of the timeline -/

/-- The order of the posts of a user: the timestamp of the first write, then
the decimal text. -/
def sortKey (writes : List Write) (userID postID : Int64) :
    Lex (Int × String) :=
  toLex (((firstTimestamp writes userID postID).map Int64.toInt).getD 0,
    idText postID)

/-- The callers pass `UnixMilli`. -/
def Exact (writes : List Write) : Prop :=
  ∀ write ∈ writes, 0 ≤ write.timestamp.toInt ∧
    write.timestamp.toInt < 2 ^ 53

theorem Exact.map_float64 {writes : List Write} (hexact : Exact writes)
    (userID postID : Int64) :
    (firstTimestamp writes userID postID).map float64 =
      (firstTimestamp writes userID postID).map Int64.toInt := by
  unfold firstTimestamp
  cases hfind : writes.find? fun write =>
      write.userID = userID ∧ write.postID = postID with
  | none => rfl
  | some write =>
      have hbound := hexact write (List.mem_of_find?_eq_some hfind)
      have hscore : float64 write.timestamp = write.timestamp.toInt :=
        float64_eq (by omega)
      rw [Option.map_some, Option.map_some, Option.map_some, hscore]

theorem Stores.Holds.pairwise {stores : Stores} {writes : List Write}
    (hgood : stores.Holds writes) (hexact : Exact writes)
    {userID : Int64} {timeline : List Int64}
    (htimeline : (stores.redis (idText userID)).members.reverse =
      timeline.map idText) :
    timeline.Pairwise fun a b =>
      sortKey writes userID b < sortKey writes userID a := by
  have hkey : ∀ postID, sortKey writes userID postID =
      toLex (((stores.redis (idText userID)).score?
        (idText postID)).getD default, idText postID) := by
    intro postID
    rw [hgood.score, hexact.map_float64]
    rfl
  have hsorted :=
    (stores.redis (idText userID)).members_pairwise_score
  rw [← List.pairwise_reverse, htimeline, List.pairwise_map] at hsorted
  simp only [hkey]
  exact hsorted

/-- After any calls a read requests its window of the posts written for the
user, in descending order, and neither store changes. -/
theorem readUserTimeline_window (calls : List Call)
    (hexact : Exact (written calls)) :
    ∃ stores, run step Stores.empty calls = some stores ∧
      ∀ userID, ∃ timeline : List Int64,
        timeline.Nodup ∧
        (∀ postID, postID ∈ timeline ↔ ∃ write ∈ written calls,
          write.userID = userID ∧ write.postID = postID) ∧
        (timeline.Pairwise fun a b =>
          sortKey (written calls) userID b <
            sortKey (written calls) userID a) ∧
        ∀ order posts start stop, 0 ≤ start → start < stop →
          readCachedTimeline stores.redis (idText userID) start stop =
            .ok (window timeline start stop) ∧
          (ReadUserTimeline order posts stores userID start stop).requested =
            (if timeline = [] then none
              else some (window timeline start stop)) ∧
          (ReadUserTimeline order posts stores userID start stop).stores =
            stores ∧
          (posts.Coherent → ∃ read,
            (ReadUserTimeline order posts stores userID start stop).result =
              .ok read) := by
  obtain ⟨stores, hrun, hgood⟩ := run_holds calls
  refine ⟨stores, hrun, ?_⟩
  intro userID
  obtain ⟨timeline, htimeline⟩ := hgood.exists_timeline userID
  have hnodup : timeline.Nodup := by
    have hmembers :=
      (stores.redis (idText userID)).members_nodup
    rw [← List.nodup_reverse, htimeline] at hmembers
    exact hmembers.of_map _
  refine ⟨timeline, hnodup, hgood.mem_timeline_iff htimeline,
    hgood.pairwise hexact htimeline, ?_⟩
  intro order posts start stop hstart hstop
  refine ⟨readCachedTimeline_eq htimeline hstart hstop, ?_,
    hgood.read_stores, ?_⟩
  · rw [hgood.read htimeline hstart hstop]
    split <;> rfl
  · intro hposts
    rw [hgood.read htimeline hstart hstop]
    split
    next => exact ⟨[], rfl⟩
    next =>
      obtain ⟨cached, -, hread⟩ := PostStorage.readPosts_eq order
        (window timeline start stop) hposts
      simp only [fetch, hread]
      exact ⟨_, rfl⟩

def sampleWrites : List Write :=
  [⟨10, 1, 5⟩, ⟨11, 1, 7⟩, ⟨10, 1, 9⟩]

theorem readUserTimeline_window_sample :
    ∃ stores, run step Stores.empty (sampleWrites.map Call.write) =
        some stores ∧
      ∀ order posts,
        (ReadUserTimeline order posts stores 1 0 2).requested =
          some [11, 10] := by
  have hexact : Exact (written (sampleWrites.map Call.write)) := by
    rw [written_map_write]
    unfold Exact
    decide
  obtain ⟨stores, hrun, hreads⟩ := readUserTimeline_window _ hexact
  rw [written_map_write] at hreads
  obtain ⟨timeline, -, -, -, hread⟩ := hreads 1
  refine ⟨stores, hrun, ?_⟩
  intro order posts
  have hcached : (run step Stores.empty (sampleWrites.map Call.write)).map
      (fun stores => (readCachedTimeline stores.redis (idText 1) 0 2).toOption)
        = some (some [11, 10]) := by decide +kernel
  obtain ⟨hwindow, hrequested, -, -⟩ :=
    hread order posts 0 2 (by decide) (by decide)
  rw [hrun, Option.map_some, hwindow] at hcached
  have hids : window timeline 0 2 = [11, 10] := by
    simpa [Except.toOption] using hcached
  have hne : timeline ≠ [] := by
    intro hnil
    rw [hnil] at hids
    cases hids
  rw [hrequested, if_neg hne, hids]

/-! ## The documents of MongoDB -/

def documentsOf (stores : Stores) (userID : Int64) : List Document :=
  find (.eq "user_id" (.int64 userID)) stores.collection

/-- The posts written for the user, the last one first. -/
def postsOf (writes : List Write) (userID : Int64) :
    List TimelinePostInfo :=
  ((writes.filter fun write => write.userID = userID).map
    Write.info).reverse

/-- Every user has one document, and a read decodes from it the posts written
for the user. -/
structure Stores.Represents (stores : Stores) (writes : List Write) :
    Prop where
  unique : ∀ userID, (documentsOf stores userID).length ≤ 1
  decodes : ∀ userID, ∀ doc ∈ documentsOf stores userID,
    decodeTimeline doc = some ⟨userID, postsOf writes userID⟩
  complete : ∀ write ∈ writes, documentsOf stores write.userID ≠ []

theorem Stores.Wrote.documentsOf {stores : Stores} {writes : List Write}
    (hwrote : stores.Wrote writes) (userID : Int64) :
    documentsOf stores userID =
      (writes.filter fun write => write.userID = userID).map
        fun write => write.timeline.toDocument := by
  rw [UserTimeline.documentsOf, find, hwrote, List.filter_map]
  congr 2
  funext write
  exact matches_toDocument write.timeline userID

theorem length_filter_userID (writes : List Write) (userID : Int64) :
    (writes.filter fun write => write.userID = userID).length =
      (writes.map Write.userID).count userID := by
  rw [List.count, List.countP_map, List.countP_eq_length_filter]
  rfl

theorem Stores.Wrote.represents_iff_nodup {stores : Stores}
    {writes : List Write} (hwrote : stores.Wrote writes) :
    stores.Represents writes ↔ (writes.map Write.userID).Nodup := by
  have hlength : ∀ userID, (UserTimeline.documentsOf stores userID).length =
      (writes.map Write.userID).count userID := by
    intro userID
    rw [hwrote.documentsOf, List.length_map, length_filter_userID]
  rw [List.nodup_iff_count_le_one]
  constructor
  · intro hrepresents userID
    rw [← hlength]
    exact hrepresents.unique userID
  · intro hcount
    refine ⟨fun userID => (hlength userID).trans_le (hcount userID), ?_, ?_⟩
    · intro userID doc hdoc
      rw [hwrote.documentsOf] at hdoc
      obtain ⟨write, hwrite, rfl⟩ := List.mem_map.mp hdoc
      have hone : (writes.filter
          fun write => write.userID = userID).length = 1 := by
        have hpos := List.length_pos_of_mem hwrite
        have hle := hcount userID
        rw [← length_filter_userID] at hle
        omega
      obtain ⟨only, honly⟩ := List.length_eq_one_iff.mp hone
      have huser : write.userID = userID := by
        simpa using (List.mem_filter.mp hwrite).2
      rw [honly, List.mem_singleton] at hwrite
      rw [decodeTimeline_toDocument, postsOf, honly, ← hwrite, ← huser]
      rfl
    · intro write hwrite
      rw [hwrote.documentsOf]
      apply List.ne_nil_of_mem
      apply List.mem_map_of_mem
      exact List.mem_filter.mpr ⟨hwrite, by simp⟩

/-- The documents represent the writes after every call exactly when no user
is written twice: a second write does not find the first document. -/
theorem represents_iff (writes : List Write) :
    (∀ before, before <+: writes → ∃ stores,
      run step Stores.empty (before.map Call.write) = some stores ∧
        stores.Represents before) ↔
      (writes.map Write.userID).Nodup := by
  constructor
  · intro hall
    obtain ⟨stores, hrun, hrepresents⟩ := hall writes (List.prefix_refl _)
    obtain ⟨stores', hrun', hgood⟩ := run_holds (writes.map Call.write)
    rw [hrun, Option.some.injEq] at hrun'
    subst hrun'
    have hwrote := hgood.wrote
    rw [written_map_write] at hwrote
    exact hwrote.represents_iff_nodup.mp hrepresents
  · intro hnodup before hbefore
    obtain ⟨stores, hrun, hgood⟩ := run_holds (before.map Call.write)
    have hwrote := hgood.wrote
    rw [written_map_write] at hwrote
    have hbeforeNodup : (before.map Write.userID).Nodup :=
      hnodup.sublist (hbefore.sublist.map _)
    exact ⟨stores, hrun, hwrote.represents_iff_nodup.mpr hbeforeNodup⟩

/-- A second post of one user becomes a second document. -/
theorem not_represents :
    ¬ ∀ writes : List Write, (writes.map Write.postID).Nodup →
      writes.Pairwise (fun a b => a.timestamp ≤ b.timestamp) →
      ∀ before, before <+: writes → ∃ stores,
        run step Stores.empty (before.map Call.write) = some stores ∧
          stores.Represents before := by
  intro hclaim
  have hall := hclaim [⟨10, 1, 5⟩, ⟨11, 1, 7⟩] (by decide) (by decide)
  obtain ⟨stores, hrun, hrepresents⟩ := hall _ (List.prefix_refl _)
  have hlength : (run step Stores.empty
      ([⟨10, 1, 5⟩, ⟨11, 1, 7⟩].map Call.write)).map
        (fun stores => (documentsOf stores 1).length) = some 2 := by
    decide +kernel
  rw [hrun, Option.map_some, Option.some.injEq] at hlength
  have hunique := hrepresents.unique 1
  omega

end SocialNetwork.UserTimeline
