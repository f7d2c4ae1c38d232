import SocialNetwork.UserTimelineRequests

/-!
# What concurrent user timelines hold

A sorted set only holds posts that were written for its user and have their
document, with the timestamp of that write, and a read only asks for such
posts.  When no key is lost, the sets do not depend on the order in which the
writes and the cache updates of the reads were executed.
-/

namespace SocialNetwork.UserTimeline.Concurrent

open Bson Machine

variable {ι : Type*}

/-! ## The invariant -/

section Invariant

variable (requests : ι → Request)

/-- A write for the user whose document has been inserted. -/
def Recorded (collection : Collection) (userID : Int64)
    (info : TimelinePostInfo) : Prop :=
  (∃ i, requests i = .write ⟨info.postID, userID, info.timestamp⟩) ∧
    Timeline.toDocument ⟨userID, [info]⟩ ∈ collection

def AllRecorded (collection : Collection) (userID : Int64)
    (postIDs : List Int64) : Prop :=
  ∀ postID ∈ postIDs, ∃ info, Recorded requests collection userID info ∧
    info.postID = postID

/-- What the stores hold of a request: a write that has succeeded has its
member when the key was not lost after its `ZADD NX`. -/
def Sound (labels : List (Label ι)) (stores : Stores) (i : ι) :
    Request → Phase → Prop
  | _, .waiting => True
  | .write _, .found timelines => timelines = []
  | .write write, .stored =>
      Recorded requests stores.collection write.userID write.info
  | .write write, .wrote (.ok ()) =>
      Recorded requests stores.collection write.userID write.info ∧
        ∃ before after, labels = before ++ .zaddNX i .done :: after ∧
          (.lose (idText write.userID) ∉ after → idText write.postID ∈
            (stores.redis (idText write.userID)).members)
  | .write _, .wrote (.error _) => True
  | .read userID _ _, .ranged postIDs =>
      AllRecorded requests stores.collection userID postIDs
  | .read userID _ _, .fetching postIDs postsToCache =>
      AllRecorded requests stores.collection userID postIDs ∧
        ∀ info ∈ postsToCache,
          Recorded requests stores.collection userID info
  | .read userID _ _, .fetched postIDs =>
      AllRecorded requests stores.collection userID postIDs
  | .read _ _ _, .returned _ => True
  | _, _ => False

/-- Every document and every member is that of a write. -/
structure StoresGood (stores : Stores) : Prop where
  collection : ∀ doc ∈ stores.collection, ∃ userID info,
    doc = Timeline.toDocument ⟨userID, [info]⟩ ∧
      Recorded requests stores.collection userID info
  score : ∀ userID text score,
    (stores.redis (idText userID)).score? text = some score →
      ∃ info, Recorded requests stores.collection userID info ∧
        text = idText info.postID ∧ score = float64 info.timestamp

structure Good (labels : List (Label ι)) (state : State ι) : Prop where
  stores : StoresGood requests state.stores
  phases : ∀ i,
    Sound requests labels state.stores i (requests i) (state.phase i)

end Invariant

variable {requests : ι → Request} {labels : List (Label ι)}
  {state next : State ι} {userID : Int64}

theorem Good.initial : Good requests [] State.initial where
  stores := ⟨fun _ hdoc => (nomatch hdoc), fun _ _ _ hscore => nomatch hscore⟩
  phases _ := by simp only [State.initial, Sound]

theorem Recorded.mono {collection collection' : Collection}
    (hsubset : collection ⊆ collection') {info : TimelinePostInfo}
    (h : Recorded requests collection userID info) :
    Recorded requests collection' userID info :=
  ⟨h.1, hsubset h.2⟩

theorem AllRecorded.mono {collection collection' : Collection}
    (hsubset : collection ⊆ collection') {postIDs : List Int64}
    (h : AllRecorded requests collection userID postIDs) :
    AllRecorded requests collection' userID postIDs := by
  intro postID hmem
  obtain ⟨info, hrecorded, hid⟩ := h postID hmem
  exact ⟨info, hrecorded.mono hsubset, hid⟩

/-- Stores with more documents, and with all members but those of a key that
was lost. -/
structure Grows (label : Label ι) (stores stores' : Stores) : Prop where
  collection : stores.collection ⊆ stores'.collection
  members : ∀ key, label ≠ .lose key →
    (stores.redis key).members ⊆ (stores'.redis key).members

theorem Sound.mono {label : Label ι} {stores stores' : Stores}
    (hgrows : Grows label stores stores') {i : ι} {request : Request}
    {phase : Phase} (h : Sound requests labels stores i request phase) :
    Sound requests (labels ++ [label]) stores' i request phase := by
  unfold Sound at h ⊢
  split at h <;> try trivial
  next => exact h.mono hgrows.collection
  next write =>
    obtain ⟨hrecorded, before, after, hlabels, hmember⟩ := h
    refine ⟨hrecorded.mono hgrows.collection, before, after ++ [label], ?_,
      ?_⟩
    · rw [hlabels, List.append_assoc, List.cons_append]
    · intro hkept
      rw [List.mem_append, not_or, List.mem_singleton] at hkept
      exact hgrows.members _ (fun heq => hkept.2 heq.symm)
        (hmember hkept.1)
  next => exact h.mono hgrows.collection
  next =>
    exact ⟨h.1.mono hgrows.collection,
      fun info hmem => (h.2 info hmem).mono hgrows.collection⟩
  next => exact h.mono hgrows.collection

/-! ## Moves -/

theorem Grows.refl {label : Label ι} {stores : Stores} :
    Grows label stores stores :=
  ⟨List.Subset.refl _, fun _ _ => List.Subset.refl _⟩

theorem StoresGood.zaddNX {stores : Stores} {info : TimelinePostInfo}
    (hgood : StoresGood requests stores)
    (hrecorded : Recorded requests stores.collection userID info) :
    StoresGood requests (stores.zaddNX (idText userID) info) where
  collection := hgood.collection
  score := by
    intro userID' text score hscore
    simp only [Stores.zaddNX] at hscore ⊢
    by_cases huser : userID' = userID
    · subst huser
      rw [Function.update_self] at hscore
      by_cases htext : text = idText info.postID
      · rw [htext, SortedSet.score?_addNX_self, Option.some.injEq] at hscore
        cases hold : (stores.redis (idText userID')).score?
            (idText info.postID) with
        | none =>
            rw [hold] at hscore
            exact ⟨info, hrecorded, htext, hscore.symm⟩
        | some old =>
            rw [hold] at hscore
            obtain ⟨first, hfirst, hid, hsame⟩ :=
              hgood.score userID' _ old hold
            exact ⟨first, hfirst, htext.trans hid,
              hscore.symm.trans hsame⟩
      · rw [SortedSet.score?_addNX_of_ne htext] at hscore
        exact hgood.score userID' text score hscore
    · rw [Function.update_of_ne (idText_inj.not.mpr huser)] at hscore
      exact hgood.score userID' text score hscore

theorem members_zaddNX {stores : Stores} {key : String}
    {info : TimelinePostInfo} (other : String) :
    (stores.redis other).members ⊆
      ((stores.zaddNX key info).redis other).members := by
  intro text htext
  simp only [Stores.zaddNX]
  by_cases hkey : other = key
  · subst hkey
    rw [Function.update_self, SortedSet.mem_members_addNX]
    exact .inr htext
  · rwa [Function.update_of_ne hkey]

theorem mem_members_zaddNX (stores : Stores) (key : String)
    (info : TimelinePostInfo) :
    idText info.postID ∈ ((stores.zaddNX key info).redis key).members := by
  simp only [Stores.zaddNX]
  rw [Function.update_self, SortedSet.mem_members_addNX]
  exact .inl rfl

theorem grows_zaddNX {label : Label ι} {stores : Stores} {key : String}
    {info : TimelinePostInfo} :
    Grows label stores (stores.zaddNX key info) :=
  ⟨List.Subset.refl _, fun other _ => members_zaddNX other⟩

/-- The update of the cache by a read. -/
theorem StoresGood.cache (label : Label ι) {stores : Stores}
    {infos : List TimelinePostInfo} (hgood : StoresGood requests stores)
    (hrecorded : ∀ info ∈ infos,
      Recorded requests stores.collection userID info) :
    StoresGood requests (infos.foldl (fun stores info =>
        stores.zaddNX (idText userID) info) stores) ∧
      Grows label stores (infos.foldl (fun stores info =>
        stores.zaddNX (idText userID) info) stores) := by
  induction infos generalizing stores with
  | nil => exact ⟨hgood, .refl⟩
  | cons info infos ih =>
      rw [List.forall_mem_cons] at hrecorded
      obtain ⟨hlast, hgrows⟩ := ih (hgood.zaddNX hrecorded.1) hrecorded.2
      refine ⟨hlast, hgrows.collection, fun key hkey => ?_⟩
      exact List.Subset.trans (members_zaddNX key) (hgrows.members key hkey)

theorem storeTimeline_nil (write : Write) (collection : Collection) :
    storeTimeline [] write collection =
      some (collection ++ [write.timeline.toDocument]) := rfl

theorem StoresGood.insert {stores : Stores}
    (hgood : StoresGood requests stores) {i : ι} {write : Write}
    (hrequest : requests i = .write write) :
    StoresGood requests { stores with
        collection := stores.collection ++ [write.timeline.toDocument] } ∧
      Recorded requests (stores.collection ++ [write.timeline.toDocument])
        write.userID write.info := by
  have hrecorded : Recorded requests
      (stores.collection ++ [write.timeline.toDocument]) write.userID
      write.info :=
    ⟨⟨i, hrequest⟩, List.mem_append_right _ (List.mem_singleton_self _)⟩
  have hsubset : stores.collection ⊆
      stores.collection ++ [write.timeline.toDocument] :=
    List.subset_append_left _ _
  refine ⟨⟨?_, ?_⟩, hrecorded⟩
  · intro doc hdoc
    rcases List.mem_append.mp hdoc with hdoc | hdoc
    · obtain ⟨userID, info, heq, hold⟩ := hgood.collection doc hdoc
      exact ⟨userID, info, heq, hold.mono hsubset⟩
    · rw [List.mem_singleton.mp hdoc]
      exact ⟨write.userID, write.info, rfl, hrecorded⟩
  · intro userID text score hscore
    obtain ⟨info, hold, heq⟩ := hgood.score userID text score hscore
    exact ⟨info, hold.mono hsubset, heq⟩

theorem Good.lose (hgood : Good requests labels state) (key : String) :
    Good requests (labels ++ [.lose key])
      { state with stores := { state.stores with
        redis := Function.update state.stores.redis key
          SortedSet.empty } } where
  stores := by
    refine ⟨hgood.stores.collection, ?_⟩
    intro userID text score hscore
    simp only at hscore
    by_cases hkey : idText userID = key
    · rw [hkey, Function.update_self] at hscore
      cases hscore
    · rw [Function.update_of_ne hkey] at hscore
      exact hgood.stores.score userID text score hscore
  phases i := by
    have hgrows : Grows (.lose key : Label ι) state.stores
        { state.stores with
          redis := Function.update state.stores.redis key
            SortedSet.empty } := by
      refine ⟨List.Subset.refl _, ?_⟩
      intro other hother
      have hne : other ≠ key := fun h => hother (h ▸ rfl)
      simp only [Function.update_of_ne hne]
      exact List.Subset.refl _
    exact (hgood.phases i).mono hgrows

/-- The members are ids of recorded posts, so they are read back. -/
theorem StoresGood.readCachedTimeline {stores : Stores}
    (hgood : StoresGood requests stores) {start stop : Int64}
    {postIDs : List Int64}
    (hread : UserTimeline.readCachedTimeline stores.redis (idText userID)
      start stop = .ok postIDs) :
    AllRecorded requests stores.collection userID postIDs := by
  have htexts : ∀ text ∈ (stores.redis (idText userID)).revRange
      start.toInt (stop - 1).toInt, ∃ info,
        Recorded requests stores.collection userID info ∧
          text = idText info.postID := by
    intro text htext
    have hmem : text ∈ (stores.redis (idText userID)).members := by
      unfold SortedSet.revRange at htext
      exact List.mem_reverse.mp (List.mem_of_mem_drop
        (List.mem_of_mem_take htext))
    obtain ⟨score, hscore⟩ := Option.isSome_iff_exists.mp
      (SortedSet.isSome_score?_iff.mpr hmem)
    obtain ⟨info, hrecorded, hid, -⟩ := hgood.score userID text score hscore
    exact ⟨info, hrecorded, hid⟩
  obtain ⟨ids, hids⟩ := exists_map_idText fun text htext =>
    have ⟨info, _, hid⟩ := htexts text htext
    ⟨info.postID, hid⟩
  unfold UserTimeline.readCachedTimeline at hread
  rw [hids, mapM_parseID_map_idText, Except.ok.injEq] at hread
  subst hread
  intro postID hmem
  obtain ⟨info, hrecorded, hid⟩ := htexts (idText postID)
    (hids ▸ List.mem_map_of_mem hmem)
  exact ⟨info, hrecorded, (idText_inj.mp hid).symm⟩

/-- The document that `FindOne` returns has one post, which is recorded. -/
theorem StoresGood.afterFindOne {stores : Stores}
    (hgood : StoresGood requests stores) {start stop : Int64}
    {postIDs : List Int64} (labels : List (Label ι)) (i : ι)
    (hrecorded : AllRecorded requests stores.collection userID postIDs) :
    Sound requests labels stores i (.read userID start stop)
      (Concurrent.afterFindOne stores.collection userID start stop
        postIDs) := by
  unfold Concurrent.afterFindOne
  cases hfind : Bson.findOne (.eq "user_id" (.int64 userID))
      stores.collection with
  | none => trivial
  | some doc =>
      obtain ⟨owner, info, rfl, hinfo⟩ :=
        hgood.collection doc (List.mem_of_find?_eq_some hfind)
      have hmatches := List.find?_some hfind
      rw [matches_toDocument, decide_eq_true_eq] at hmatches
      obtain rfl : owner = userID := hmatches
      simp only [sliceField_toDocument, decodeTimeline_toDocument]
      have hposts : ∀ post ∈ [info].take stop.toInt.toNat, post = info :=
        fun post hpost => List.mem_singleton.mp (List.mem_of_mem_take hpost)
      have hall : AllRecorded requests stores.collection owner
          (postIDs ++ ((([info].take stop.toInt.toNat).zipIdx.filter
            fun entry => start + Int64.ofNat postIDs.length ≤
              Int64.ofNat entry.2).map fun entry => entry.1.postID)) := by
        intro postID hmem
        rcases List.mem_append.mp hmem with hmem | hmem
        · exact hrecorded postID hmem
        · obtain ⟨entry, hentry, rfl⟩ := List.mem_map.mp hmem
          have hpost := List.fst_mem_of_mem_zipIdx
            (List.mem_of_mem_filter hentry)
          exact ⟨info, hinfo, by rw [hposts _ hpost]⟩
      split
      · exact ⟨hall, fun post hpost => by rw [hposts post hpost]; exact hinfo⟩
      · exact hall

section Moves

variable [DecidableEq ι]

theorem Good.move (hgood : Good requests labels state) {label : Label ι}
    {stores : Stores} {i : ι} {phase : Phase}
    (hstores : StoresGood requests stores)
    (hgrows : Grows label state.stores stores)
    (hsound : Sound requests (labels ++ [label]) stores i (requests i)
      phase) :
    Good requests (labels ++ [label])
      (State.setPhase { state with stores := stores } i phase) where
  stores := hstores
  phases j := by
    simp only [State.setPhase]
    by_cases hij : j = i
    · subst hij
      rw [Function.update_self]
      exact hsound
    · rw [Function.update_of_ne hij]
      exact (hgood.phases j).mono hgrows

/-- A step that leaves the stores alone. -/
theorem Good.setPhase (hgood : Good requests labels state)
    {label : Label ι} {i : ι} {phase : Phase}
    (hsound : Sound requests (labels ++ [label]) state.stores i (requests i)
      phase) :
    Good requests (labels ++ [label]) (state.setPhase i phase) :=
  hgood.move hgood.stores .refl hsound

theorem findTimelines_eq (stores : Stores) (userID : Int64) :
    findTimelines stores userID = [] := rfl

/-! ## Steps -/

theorem Good.find (hgood : Good requests labels state) {i : ι} {ok : Bool}
    (hstep : Concurrent.step requests state (.find i ok) = some next) :
    Good requests (labels ++ [.find i ok]) next := by
  simp only [Concurrent.step] at hstep
  cases hrequest : requests i with
  | read userID start stop => simp [hrequest] at hstep
  | write write =>
      rw [hrequest] at hstep
      cases hstate : state.phase i with
      | waiting =>
          simp only [hstate, Option.some.injEq] at hstep
          subst hstep
          refine hgood.setPhase ?_
          rw [hrequest]
          cases ok with
          | false => trivial
          | true => exact findTimelines_eq state.stores write.userID
      | _ => simp [hstate] at hstep

theorem Good.store (hgood : Good requests labels state) {i : ι}
    {outcome : UserService.Write}
    (hstep : Concurrent.step requests state (.store i outcome) =
      some next) : Good requests (labels ++ [.store i outcome]) next := by
  simp only [Concurrent.step] at hstep
  cases hrequest : requests i with
  | read userID start stop => simp [hrequest] at hstep
  | write write =>
      have hphase := hgood.phases i
      rw [hrequest] at hphase hstep
      cases hstate : state.phase i with
      | found timelines =>
          rw [hstate] at hphase hstep
          have hnone : timelines = [] := hphase
          subst hnone
          obtain ⟨hinserted, hrecorded⟩ :=
            hgood.stores.insert hrequest
          simp only [storeTimeline_nil, Option.some.injEq] at hstep
          subst hstep
          have hgrows : Grows (.store i outcome : Label ι) state.stores
              { state.stores with collection := state.stores.collection ++
                [write.timeline.toDocument] } :=
            ⟨List.subset_append_left _ _, fun _ _ => List.Subset.refl _⟩
          cases outcome with
          | done =>
              refine hgood.move hinserted hgrows ?_
              rw [hrequest]
              exact hrecorded
          | failed applied =>
              cases applied with
              | true =>
                  refine hgood.move hinserted hgrows ?_
                  rw [hrequest]
                  trivial
              | false =>
                  refine hgood.setPhase ?_
                  rw [hrequest]
                  trivial
      | _ => simp [hstate] at hstep

theorem Good.zaddNX (hgood : Good requests labels state) {i : ι}
    {outcome : UserService.Write}
    (hstep : Concurrent.step requests state (.zaddNX i outcome) =
      some next) : Good requests (labels ++ [.zaddNX i outcome]) next := by
  simp only [Concurrent.step] at hstep
  cases hrequest : requests i with
  | read userID start stop => simp [hrequest] at hstep
  | write write =>
      have hphase := hgood.phases i
      rw [hrequest] at hphase hstep
      cases hstate : state.phase i with
      | stored =>
          rw [hstate] at hphase hstep
          have hrecorded : Recorded requests state.stores.collection
            write.userID write.info := hphase
          simp only [Option.some.injEq] at hstep
          subst hstep
          cases outcome with
          | done =>
              refine hgood.move (hgood.stores.zaddNX hrecorded)
                grows_zaddNX ?_
              rw [hrequest]
              exact ⟨hrecorded, labels, [], rfl, fun _ =>
                mem_members_zaddNX state.stores (idText write.userID)
                  write.info⟩
          | failed applied =>
              cases applied with
              | true =>
                  refine hgood.move (hgood.stores.zaddNX hrecorded)
                    grows_zaddNX ?_
                  rw [hrequest]
                  trivial
              | false =>
                  refine hgood.setPhase ?_
                  rw [hrequest]
                  trivial
      | _ => simp [hstate] at hstep

theorem Good.zrevRange (hgood : Good requests labels state) {i : ι}
    {ok : Bool} (hstep : Concurrent.step requests state (.zrevRange i ok) =
      some next) : Good requests (labels ++ [.zrevRange i ok]) next := by
  simp only [Concurrent.step] at hstep
  cases hrequest : requests i with
  | write write => simp [hrequest] at hstep
  | read userID start stop =>
      rw [hrequest] at hstep
      cases hstate : state.phase i with
      | waiting =>
          simp only [hstate] at hstep
          split at hstep
          next => cases hstep
          next =>
            simp only [Option.some.injEq] at hstep
            subst hstep
            refine hgood.setPhase ?_
            rw [hrequest]
            cases ok with
            | false => trivial
            | true =>
                rw [if_pos rfl]
                cases hread : UserTimeline.readCachedTimeline
                  state.stores.redis (idText userID) start stop with
                | error err => trivial
                | ok postIDs =>
                    have hrecorded :=
                      hgood.stores.readCachedTimeline hread
                    simp only [afterRange]
                    split
                    · exact hrecorded
                    · exact hrecorded
      | _ => simp [hstate] at hstep

theorem Good.findOne (hgood : Good requests labels state) {i : ι}
    {ok : Bool} (hstep : Concurrent.step requests state (.findOne i ok) =
      some next) : Good requests (labels ++ [.findOne i ok]) next := by
  simp only [Concurrent.step] at hstep
  cases hrequest : requests i with
  | write write => simp [hrequest] at hstep
  | read userID start stop =>
      have hphase := hgood.phases i
      rw [hrequest] at hphase hstep
      cases hstate : state.phase i with
      | ranged postIDs =>
          rw [hstate] at hphase hstep
          simp only [Option.some.injEq] at hstep
          subst hstep
          refine hgood.setPhase ?_
          rw [hrequest]
          cases ok with
          | false => trivial
          | true => exact hgood.stores.afterFindOne _ _ hphase
      | _ => simp [hstate] at hstep

theorem Good.cache (hgood : Good requests labels state) {i : ι}
    {outcome : UserService.Write}
    (hstep : Concurrent.step requests state (.cache i outcome) =
      some next) : Good requests (labels ++ [.cache i outcome]) next := by
  simp only [Concurrent.step] at hstep
  cases hrequest : requests i with
  | write write => simp [hrequest] at hstep
  | read userID start stop =>
      have hphase := hgood.phases i
      rw [hrequest] at hphase hstep
      cases hstate : state.phase i with
      | fetching postIDs postsToCache =>
          rw [hstate] at hphase hstep
          obtain ⟨hall, hinfos⟩ := hphase
          simp only [Option.some.injEq] at hstep
          subst hstep
          split
          next =>
            obtain ⟨hstores, hgrows⟩ :=
              hgood.stores.cache (.cache i outcome) hinfos
            refine hgood.move hstores hgrows ?_
            rw [hrequest]
            exact hall.mono hgrows.collection
          next =>
            refine hgood.setPhase ?_
            rw [hrequest]
            exact hall
      | _ => simp [hstate] at hstep

theorem Good.step (hgood : Good requests labels state) {label : Label ι}
    (hstep : Concurrent.step requests state label = some next) :
    Good requests (labels ++ [label]) next := by
  cases label with
  | find i ok => exact hgood.find hstep
  | store i outcome => exact hgood.store hstep
  | zaddNX i outcome => exact hgood.zaddNX hstep
  | zrevRange i ok => exact hgood.zrevRange hstep
  | findOne i ok => exact hgood.findOne hstep
  | cache i outcome => exact hgood.cache hstep
  | lose key =>
      obtain rfl := Option.some.inj hstep
      exact hgood.lose key

theorem Good.of_run
    (hrun : run (Concurrent.step requests) State.initial labels =
      some state) : Good requests labels state :=
  run_induction (P := Good requests) Good.initial
    (fun _ _ _ _ _ hgood hstep => hgood.step hstep) hrun

/-- In every interleaving, whatever fails or is lost: a member of a sorted
set has the timestamp of a write whose document is there, a read asks for
such posts only, and a write that succeeds has its document, and its member
as long as the key is not lost after its `ZADD NX`. -/
theorem userTimelines_sound
    (hrun : run (Concurrent.step requests) State.initial labels =
      some state) :
    (∀ userID text score,
      (state.stores.redis (idText userID)).score? text = some score →
      ∃ info, Recorded requests state.stores.collection userID info ∧
        text = idText info.postID ∧ score = float64 info.timestamp) ∧
    (∀ i postIDs, (state.phase i).requested = some postIDs →
      ∃ userID start stop, requests i = .read userID start stop ∧
        AllRecorded requests state.stores.collection userID postIDs) ∧
    ∀ i write, requests i = .write write →
      state.phase i = .wrote (.ok ()) →
      write.timeline.toDocument ∈ state.stores.collection ∧
        ∃ before after, labels = before ++ .zaddNX i .done :: after ∧
          (.lose (idText write.userID) ∉ after → idText write.postID ∈
            (state.stores.redis (idText write.userID)).members) := by
  have hgood := Good.of_run hrun
  refine ⟨hgood.stores.score, ?_, ?_⟩
  · intro i postIDs hrequested
    have hphase := hgood.phases i
    cases hrequest : requests i with
    | write write =>
        rw [hrequest] at hphase
        cases hstate : state.phase i with
        | fetching _ _ => rw [hstate] at hphase; cases hphase
        | fetched _ => rw [hstate] at hphase; cases hphase
        | _ => simp [hstate, Phase.requested] at hrequested
    | read userID start stop =>
        rw [hrequest] at hphase
        refine ⟨userID, start, stop, rfl, ?_⟩
        cases hstate : state.phase i with
        | fetching _ _ =>
            rw [hstate] at hphase hrequested
            obtain rfl := Option.some.inj hrequested
            exact hphase.1
        | fetched _ =>
            rw [hstate] at hphase hrequested
            obtain rfl := Option.some.inj hrequested
            exact hphase
        | _ => simp [hstate, Phase.requested] at hrequested
  · intro i write hrequest hstate
    have hphase := hgood.phases i
    rw [hrequest, hstate] at hphase
    exact ⟨hphase.1.2, hphase.2⟩

end Moves

/-! ## Convergence -/

/-- A write for the user. -/
def Posted (requests : ι → Request) (userID postID timestamp : Int64) :
    Prop :=
  ∃ i, requests i = .write ⟨postID, userID, timestamp⟩

/-- All writes have succeeded, and no key was lost. -/
structure Settled [DecidableEq ι] (requests : ι → Request)
    (labels : List (Label ι)) (state : State ι) : Prop where
  run : run (Concurrent.step requests) State.initial labels = some state
  wrote : ∀ i write, requests i = .write write →
    state.phase i = .wrote (.ok ())
  kept : ∀ key, .lose key ∉ labels

/-- A set that holds the posts written for a user lists them newest first. -/
theorem exists_timeline_of_score {set : SortedSet Int String}
    {posted : Int64 → Int64 → Prop}
    (hscore : ∀ text score, set.score? text = some score ↔
      ∃ postID timestamp, posted postID timestamp ∧ text = idText postID ∧
        score = float64 timestamp) :
    ∃ timeline : List Int64, set.members.reverse = timeline.map idText ∧
      timeline.Nodup ∧
      (∀ postID, postID ∈ timeline ↔
        ∃ timestamp, posted postID timestamp) ∧
      timeline.Pairwise fun a b => ∀ s t, posted a s → posted b t →
        float64 t ≤ float64 s := by
  have hmem : ∀ text, text ∈ set.members ↔
      ∃ postID timestamp, posted postID timestamp ∧
        text = idText postID := by
    intro text
    rw [← SortedSet.isSome_score?_iff, Option.isSome_iff_exists]
    constructor
    · rintro ⟨score, h⟩
      obtain ⟨postID, timestamp, hposted, htext, -⟩ := (hscore text _).mp h
      exact ⟨postID, timestamp, hposted, htext⟩
    · rintro ⟨postID, timestamp, hposted, htext⟩
      exact ⟨_, (hscore text _).mpr ⟨postID, timestamp, hposted, htext, rfl⟩⟩
  have htexts : ∀ text ∈ set.members.reverse, ∃ postID,
      text = idText postID := by
    intro text htext
    obtain ⟨postID, -, -, heq⟩ := (hmem text).mp (List.mem_reverse.mp htext)
    exact ⟨postID, heq⟩
  obtain ⟨timeline, htimeline⟩ := exists_map_idText htexts
  refine ⟨timeline, htimeline, ?_, ?_, ?_⟩
  · have hnodup := set.members_nodup
    rw [← List.nodup_reverse, htimeline] at hnodup
    exact hnodup.of_map _
  · intro postID
    rw [← List.mem_map_of_injective idText_injective, ← htimeline,
      List.mem_reverse, hmem]
    constructor
    · rintro ⟨other, timestamp, hposted, hid⟩
      rw [idText_inj.mp hid]
      exact ⟨timestamp, hposted⟩
    · rintro ⟨timestamp, hposted⟩
      exact ⟨postID, timestamp, hposted, rfl⟩
  · have hsorted := set.members_pairwise_score
    rw [← List.pairwise_reverse, htimeline, List.pairwise_map] at hsorted
    refine hsorted.imp ?_
    intro a b hlt s t ha hb
    rw [(hscore _ _).mpr ⟨a, s, ha, rfl, rfl⟩,
      (hscore _ _).mpr ⟨b, t, hb, rfl, rfl⟩, Prod.Lex.toLex_lt_toLex] at hlt
    rcases hlt with hlt | ⟨heq, -⟩
    · exact hlt.le
    · exact heq.le

section Convergence

variable [DecidableEq ι]

theorem Settled.score (hsettled : Settled requests labels state)
    (hagree : ∀ userID postID s t, Posted requests userID postID s →
      Posted requests userID postID t → s = t)
    (text : String) (score : Int) :
    (state.stores.redis (idText userID)).score? text = some score ↔
      ∃ postID timestamp, Posted requests userID postID timestamp ∧
        text = idText postID ∧ score = float64 timestamp := by
  have hgood := Good.of_run hsettled.run
  constructor
  · intro hscore
    obtain ⟨info, hrecorded, htext, heq⟩ :=
      hgood.stores.score userID text score hscore
    exact ⟨info.postID, info.timestamp, hrecorded.1, htext, heq⟩
  · rintro ⟨postID, timestamp, ⟨i, hrequest⟩, rfl, rfl⟩
    have hphase := hgood.phases i
    rw [hrequest, hsettled.wrote i _ hrequest] at hphase
    obtain ⟨-, before, after, hlabels, hmember⟩ := hphase
    have hkept : .lose (idText userID) ∉ after := by
      intro hlose
      apply hsettled.kept (idText userID)
      rw [hlabels]
      exact List.mem_append_right _ (List.mem_cons_of_mem _ hlose)
    obtain ⟨score, hscore⟩ := Option.isSome_iff_exists.mp
      (SortedSet.isSome_score?_iff.mpr (hmember hkept))
    obtain ⟨info, hrecorded, hid, heq⟩ :=
      hgood.stores.score userID (idText postID) score hscore
    have hsame : info.timestamp = timestamp := by
      refine hagree userID postID _ _ ?_ ⟨i, hrequest⟩
      rw [idText_inj.mp hid]
      exact hrecorded.1
    rw [hscore, heq, hsame]

/-- Two runs in which all writes succeed leave the same sorted sets, whatever
their order and whatever the reads did: the posts of each user, newest
first. -/
theorem userTimelines_converge {labels' : List (Label ι)} {state' : State ι}
    (hsettled : Settled requests labels state)
    (hsettled' : Settled requests labels' state')
    (hagree : ∀ userID postID s t, Posted requests userID postID s →
      Posted requests userID postID t → s = t) (userID : Int64) :
    state.stores.redis (idText userID) =
        state'.stores.redis (idText userID) ∧
      ∃ timeline : List Int64, timeline.Nodup ∧
        (∀ postID, postID ∈ timeline ↔
          ∃ timestamp, Posted requests userID postID timestamp) ∧
        (timeline.Pairwise fun a b => ∀ s t, Posted requests userID a s →
          Posted requests userID b t → float64 t ≤ float64 s) ∧
        ∀ start stop, 0 ≤ start → start < stop →
          readCachedTimeline state.stores.redis (idText userID) start
            stop = .ok (window timeline start stop) := by
  constructor
  · refine SortedSet.ext_score? fun text score => ?_
    rw [hsettled.score hagree, hsettled'.score hagree]
  · obtain ⟨timeline, htimeline, hnodup, hmem, hordered⟩ :=
      exists_timeline_of_score (hsettled.score hagree)
    refine ⟨timeline, hnodup, hmem, hordered, ?_⟩
    intro start stop hstart hstop
    exact readCachedTimeline_eq htimeline hstart hstop

end Convergence

def sampleRequests : Fin 3 → Request
  | 0 => .write ⟨10, 1, 5⟩
  | 1 => .write ⟨11, 1, 7⟩
  | 2 => .read 1 0 5

/-- The later post is stored first, and the read brings it to Redis. -/
def sampleLabels : List (Label (Fin 3)) :=
  [.find 0 true, .find 1 true, .store 1 .done, .zrevRange 2 true,
    .findOne 2 true, .cache 2 .done, .store 0 .done, .zaddNX 0 .done,
    .zaddNX 1 .done]

def serialLabels : List (Label (Fin 3)) :=
  [.find 0 true, .store 0 .done, .zaddNX 0 .done, .find 1 true,
    .store 1 .done, .zaddNX 1 .done]

/-- The state after a sample run. -/
def sampleState (labels : List (Label (Fin 3))) : State (Fin 3) :=
  (run (Concurrent.step sampleRequests) State.initial labels).getD
    State.initial

/-- The same run with a loss before the last command. -/
def lossLabels : List (Label (Fin 3)) :=
  (sampleLabels.take 8 ++ [.lose "1"]) ++ [.zaddNX 1 .done]

/-- The member of the second write comes after the loss. -/
theorem userTimelines_sound_sample :
    run (Concurrent.step sampleRequests) State.initial lossLabels =
      some (sampleState lossLabels) ∧
    AllRecorded sampleRequests (sampleState lossLabels).stores.collection 1
      [11] ∧
    "11" ∈ ((sampleState lossLabels).stores.redis "1").members := by
  have hrun : run (Concurrent.step sampleRequests) State.initial lossLabels =
      some (sampleState lossLabels) := rfl
  obtain ⟨-, hread, hwrite⟩ := userTimelines_sound hrun
  obtain ⟨userID, start, stop, hrequest, hall⟩ := hread 2 [11] rfl
  obtain ⟨rfl, -, -⟩ := Request.read.inj hrequest
  obtain ⟨-, before, after, hlabels, hmember⟩ := hwrite 1 _ rfl rfl
  refine ⟨hrun, hall, hmember ?_⟩
  rcases after.eq_nil_or_concat with rfl | ⟨after, last, rfl⟩
  · exact List.not_mem_nil
  · rw [List.concat_eq_append, ← List.cons_append, ← List.append_assoc]
      at hlabels
    have hinit := (List.append_inj' hlabels rfl).1
    have htwice : Label.zaddNX 1 .done ∈
        sampleLabels.take 8 ++ [Label.lose "1"] := by
      rw [hinit]
      exact List.mem_append_right _ List.mem_cons_self
    simp [sampleLabels] at htwice

theorem sampleLabels_settled :
    Settled sampleRequests sampleLabels (sampleState sampleLabels) where
  run := rfl
  wrote i write h := by
    fin_cases i
    · rfl
    · rfl
    · cases h
  kept key hmem := by simp [sampleLabels] at hmem

theorem serialLabels_settled :
    Settled sampleRequests serialLabels (sampleState serialLabels) where
  run := rfl
  wrote i write h := by
    fin_cases i
    · rfl
    · rfl
    · cases h
  kept key hmem := by simp [serialLabels] at hmem

theorem userTimelines_converge_sample :
    (sampleState sampleLabels).stores.redis "1" =
      (sampleState serialLabels).stores.redis "1" := by
  refine (userTimelines_converge sampleLabels_settled serialLabels_settled
    ?_ 1).1
  rintro userID postID s t ⟨i, hi⟩ ⟨j, hj⟩
  fin_cases i <;> fin_cases j <;> cases hi <;> cases hj <;> rfl

end SocialNetwork.UserTimeline.Concurrent
