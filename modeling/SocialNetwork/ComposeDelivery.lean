import SocialNetwork.ComposePostHandler

/-!
# Delivery of a composed post

Every run of one compose request, with any store calls failing.  The method
whose increment is the sixth composes the post; when all six have returned
nil, it has gone through `composeAndUpload` to its end.

What is missing then was lost where an error is dropped: by a publication, in
the user timeline, or with a cached id that cannot be decoded.
-/

namespace SocialNetwork.ComposePostHandler

open Json Redis Machine ComposePost
open UserService (Write)

/-! ## The steps of one method -/

variable {deployment : Deployment} {request : Request} {method : Method}
  {stores stores' : Stores} {phase phase' : Phase} {action : Action}

theorem act_cases (hact : act deployment request method stores phase action =
      some (stores', phase')) :
    match action with
    | .call answers =>
        phase = .notCalled ∧ stores' = stores ∧
          ((∃ err, upload deployment request answers method = .error err ∧
              phase' = .returned (some err)) ∨
            (upload deployment request answers method = .ok none ∧
              phase' = .returned none) ∨
            ∃ fieldsValues,
              upload deployment request answers method =
                .ok (some fieldsValues) ∧
              phase' = .called fieldsValues)
    | .hset write =>
        ∃ fieldsValues, phase = .called fieldsValues ∧
          stores' = { stores with
            hash := if write.applied then
              Redis.hset stores.hash fieldsValues else stores.hash } ∧
          phase' = .wroteFields (errOf write .hset)
    | .hincrBy write =>
        ∃ err, phase = .wroteFields err ∧
          ∀ numComponents counted,
            Redis.hincrBy stores.hash "num_components" 1 =
              some (numComponents, counted) →
            stores' = { stores with
              hash := if write.applied then counted else stores.hash } ∧
            phase' = .counted numComponents (err <|> errOf write .hincrBy)
    | .expire ok =>
        ∃ numComponents err, phase = .counted numComponents err ∧
          stores' = stores ∧
          phase' = afterPipeline numComponents
            (err <|> if ok then none else some .expire)
    | .hget key ok =>
        ∃ replies, phase = .composing replies ∧
          key ∈ componentKeys ∧ replies key = none ∧ stores' = stores ∧
          phase' = .composing (Function.update replies key
            (some (if ok then Redis.hget stores.hash key else none)))
    | .join timestamp =>
        ∃ replies, phase = .composing replies ∧
          (∀ key ∈ componentKeys, (replies key).isSome) ∧ stores' = stores ∧
          ((∃ err, buildPost request.params.reqID timestamp
                (fun key => (replies key).join) = .error err ∧
              phase' = .returned (some (.compose err))) ∨
            ∃ post, buildPost request.params.reqID timestamp
                (fun key => (replies key).join) = .ok post ∧
              phase' = .storing post)
    | .insertOne write =>
        ∃ post, phase = .storing post ∧
          (write ≠ .done ∧ stores'.hash = stores.hash ∧
              phase' = .returned (some .panicked) ∨
            write = .done ∧
              stores' = { stores with posts := stores.posts ++ [post] } ∧
              phase' = .stored post)
    | .pop ok =>
        ∃ post, phase = .stored post ∧ stores' = stores ∧
          phase' = if ok then .popped post else .returned (some .panicked)
    | .exchangeDeclare ok =>
        ∃ post, phase = .popped post ∧ stores' = stores ∧
          phase' = if ok then .publishing post deployment.regions
            else .returned (some .panicked)
    | .publish write =>
        ∃ post region regions, phase = .publishing post (region :: regions) ∧
          stores' = { stores with
            published := if write.applied then
              stores.published ++ [(routingKey region, message post)]
              else stores.published } ∧
          phase' = .publishing post regions
    | .writeUserTimeline calls =>
        ∃ post, phase = .publishing post [] ∧
          stores' = { stores with
            timelines := (UserTimeline.WriteUserTimelineWith calls
              stores.timelines post.postID post.creator.userID
              post.timestamp).2 } ∧
          phase' = .returned none := by
  cases action with
  | call answers =>
      cases phase with
      | notCalled =>
          simp only [act] at hact
          cases hupload : upload deployment request answers method with
          | error err =>
              simp only [hupload, Option.some.injEq, Prod.mk.injEq] at hact
              exact ⟨rfl, hact.1.symm, .inl ⟨err, hupload, hact.2.symm⟩⟩
          | ok fieldsValues =>
              cases fieldsValues with
              | none =>
                  simp only [hupload, Option.some.injEq, Prod.mk.injEq]
                    at hact
                  exact ⟨rfl, hact.1.symm, .inr (.inl ⟨hupload, hact.2.symm⟩)⟩
              | some fieldsValues =>
                  simp only [hupload, Option.some.injEq, Prod.mk.injEq]
                    at hact
                  exact ⟨rfl, hact.1.symm,
                    .inr (.inr ⟨fieldsValues, hupload, hact.2.symm⟩)⟩
      | _ => cases hact
  | hset write =>
      cases phase with
      | called fieldsValues =>
          cases hact
          exact ⟨fieldsValues, rfl, rfl, rfl⟩
      | _ => cases hact
  | hincrBy write =>
      cases phase with
      | wroteFields err =>
          refine ⟨err, rfl, ?_⟩
          intro numComponents counted hcounted
          simp only [act, hcounted, Option.some.injEq, Prod.mk.injEq] at hact
          exact ⟨hact.1.symm, hact.2.symm⟩
      | _ => cases hact
  | expire ok =>
      cases phase with
      | counted numComponents err =>
          cases hact
          exact ⟨numComponents, err, rfl, rfl, rfl⟩
      | _ => cases hact
  | hget key ok =>
      cases phase with
      | composing replies =>
          simp only [act] at hact
          split at hact
          next hready =>
            cases hact
            exact ⟨replies, rfl, hready.1, hready.2, rfl, rfl⟩
          next => cases hact
      | _ => cases hact
  | join timestamp =>
      cases phase with
      | composing replies =>
          simp only [act] at hact
          split at hact
          next hready =>
            refine ⟨replies, rfl, hready, ?_⟩
            cases hbuild : buildPost request.params.reqID timestamp
                fun key => (replies key).join with
            | error err =>
                simp only [hbuild, Option.some.injEq, Prod.mk.injEq] at hact
                exact ⟨hact.1.symm, .inl ⟨err, rfl, hact.2.symm⟩⟩
            | ok post =>
                simp only [hbuild, Option.some.injEq, Prod.mk.injEq] at hact
                exact ⟨hact.1.symm, .inr ⟨post, rfl, hact.2.symm⟩⟩
          next => cases hact
      | _ => cases hact
  | insertOne write =>
      cases phase with
      | storing post =>
          refine ⟨post, rfl, ?_⟩
          cases write with
          | done =>
              cases hact
              exact .inr ⟨rfl, rfl, rfl⟩
          | failed applied =>
              cases hact
              exact .inl ⟨Write.noConfusion, rfl, rfl⟩
      | _ => cases hact
  | pop ok =>
      cases phase with
      | stored post =>
          cases hact
          exact ⟨post, rfl, rfl, rfl⟩
      | _ => cases hact
  | exchangeDeclare ok =>
      cases phase with
      | popped post =>
          cases hact
          exact ⟨post, rfl, rfl, rfl⟩
      | _ => cases hact
  | publish write =>
      cases phase with
      | publishing post regions =>
          cases regions with
          | nil => cases hact
          | cons region regions =>
              cases hact
              exact ⟨post, region, regions, rfl, rfl, rfl⟩
      | _ => cases hact
  | writeUserTimeline calls =>
      cases phase with
      | publishing post regions =>
          cases regions with
          | nil =>
              cases hact
              exact ⟨post, rfl, rfl, rfl⟩
          | cons region regions => cases hact
      | _ => cases hact

theorem step_cases {state next : State} {label : Label}
    (hstep : step deployment request state label = some next) :
    ∃ stores phase,
      act deployment request label.method state.stores
        (state.phase label.method) label.action = some (stores, phase) ∧
      next = state.set label.method stores phase := by
  unfold step at hstep
  split at hstep
  next =>
    rw [Option.map_eq_some_iff] at hstep
    obtain ⟨⟨stores, phase⟩, hact, hnext⟩ := hstep
    exact ⟨stores, phase, hact, hnext.symm⟩
  next => cases hstep

/-! ## The fields of a request -/

/-- The fields that the parameters of a request determine. -/
def Request.component (request : Request) (key : String) : Option Json :=
  match key with
  | "text" => some (marshal request.uploads.text)
  | "media" =>
      (ComposeParams.UploadMedia request.params.mediaTypes
        request.params.mediaIDs).toOption.map marshal
  | "post_type" => some (marshal request.params.postType)
  | "urls" => some (marshal request.uploads.urls)
  | "creator" => some (marshal request.creator)
  | _ => none

def Request.Holds (request : Request) (key : String) (json : Json) : Prop :=
  ∀ value, request.component key = some value → json = value

/-- The post is made of the parameters of the request. -/
structure Request.Composes (request : Request) (post : Post) : Prop where
  reqID : post.reqID = request.params.reqID
  creator : post.creator = request.creator
  text : post.text = request.uploads.text
  urls : post.urls = request.uploads.urls
  postType : post.postType = request.params.postType
  media : ∀ medias, ComposeParams.UploadMedia request.params.mediaTypes
    request.params.mediaIDs = .ok medias → post.media = medias

theorem upload_holds {answers : Answers} {fieldsValues : FieldsValues}
    (hupload : upload deployment request answers method =
      .ok (some fieldsValues)) :
    ∀ entry ∈ fieldsValues, entry.1 ≠ "num_components" ∧
      request.Holds entry.1 entry.2 := by
  cases method with
  | text =>
      cases hupload
      simp [uploadText, Request.Holds, Request.component]
  | media =>
      unfold upload at hupload
      cases hmedia : ComposeParams.UploadMedia request.params.mediaTypes
          request.params.mediaIDs with
      | error err => simp [hmedia] at hupload
      | ok medias =>
          simp only [hmedia, Except.ok.injEq, Option.some.injEq] at hupload
          subst hupload
          simp [uploadMedia, Request.Holds, Request.component, hmedia,
            Except.toOption]
  | uniqueId =>
      unfold upload at hupload
      cases hid : uniqueID deployment answers with
      | error err => simp [hid] at hupload
      | ok id =>
          simp only [hid, Except.ok.injEq, Option.some.injEq] at hupload
          subst hupload
          simp [uploadUniqueId, Request.Holds, Request.component]
  | urls =>
      simp only [upload] at hupload
      split at hupload
      next => cases hupload
      next =>
        cases hupload
        simp [uploadUrls, Request.Holds, Request.component]
  | userMentions =>
      unfold upload at hupload
      cases hmentions : UploadUserMentionsWith answers
          request.uploads.usernames with
      | error err => simp [hmentions] at hupload
      | ok userMentions =>
          cases userMentions with
          | none => simp [hmentions] at hupload
          | some userMentions =>
              simp only [hmentions, Except.ok.injEq, Option.some.injEq]
                at hupload
              subst hupload
              simp [uploadUserMentions, Request.Holds, Request.component]
  | creator =>
      cases hupload
      simp [uploadCreator, Request.Holds, Request.component]

theorem hset_holds {hash : Hash} {fieldsValues : FieldsValues}
    (hhash : ∀ key json, hash key = some json → request.Holds key json)
    (hfields : ∀ entry ∈ fieldsValues, request.Holds entry.1 entry.2) :
    ∀ key json, Redis.hset hash fieldsValues key = some json →
      request.Holds key json := by
  induction fieldsValues generalizing hash with
  | nil => exact hhash
  | cons entry entries ih =>
      refine ih ?_ fun other hother =>
        hfields other (List.mem_cons_of_mem entry hother)
      intro key json hkey
      change Function.update hash entry.1 (some entry.2) key = some json
        at hkey
      by_cases heq : key = entry.1
      · subst heq
        rw [Function.update_self, Option.some.injEq] at hkey
        subst hkey
        exact hfields entry List.mem_cons_self
      · rw [Function.update_of_ne heq] at hkey
        exact hhash key json hkey

theorem loadComponent_eq {α : Type} [JsonCodec α]
    {reply : String → Option Json} {key : String} {value expected : α}
    (hload : loadComponent reply key = .ok value)
    (hreply : ∀ json, reply key = some json → json = marshal expected) :
    value = expected := by
  unfold loadComponent at hload
  cases hkey : reply key with
  | none => simp [hkey] at hload
  | some json =>
      rw [hreply json hkey] at hkey
      simpa [hkey] using hload.symm

theorem buildPost_composes {timestamp : Int64}
    {reply : String → Option Json} {post : Post}
    (hbuild : buildPost request.params.reqID timestamp reply = .ok post)
    (hreply : ∀ key json, reply key = some json →
      request.Holds key json) : request.Composes post := by
  unfold buildPost at hbuild
  obtain ⟨text, htext, hbuild⟩ := bind_eq_ok hbuild
  obtain ⟨creator, hcreator, hbuild⟩ := bind_eq_ok hbuild
  obtain ⟨media, hmedia, hbuild⟩ := bind_eq_ok hbuild
  obtain ⟨postID, -, hbuild⟩ := bind_eq_ok hbuild
  obtain ⟨urls, hurls, hbuild⟩ := bind_eq_ok hbuild
  obtain ⟨userMentions, -, hbuild⟩ := bind_eq_ok hbuild
  obtain ⟨postType, hpostType, hbuild⟩ := bind_eq_ok hbuild
  cases hbuild
  exact {
    reqID := rfl
    creator := loadComponent_eq hcreator fun json hjson =>
      hreply _ json hjson _ rfl
    text := loadComponent_eq htext fun json hjson =>
      hreply _ json hjson _ rfl
    urls := loadComponent_eq hurls fun json hjson =>
      hreply _ json hjson _ rfl
    postType := loadComponent_eq hpostType fun json hjson =>
      hreply _ json hjson _ rfl
    media := fun medias hmedias => loadComponent_eq hmedia fun json hjson =>
      hreply _ json hjson _ (by
        simp [Request.component, hmedias, Except.toOption]) }

/-! ## Increments -/

def Label.increment (label : Label) : Option Method :=
  match label.action with
  | .hincrBy write => if write.applied then some label.method else none
  | _ => none

/-- The methods whose `HINCRBY` took effect, in the order of the commands. -/
def increments (labels : List Label) : List Method :=
  labels.filterMap Label.increment

theorem increments_concat (labels : List Label) (label : Label) :
    increments (labels ++ [label]) =
      increments labels ++ label.increment.toList := by
  unfold increments
  rw [List.filterMap_append]
  cases hlabel : label.increment with
  | none => simp [hlabel]
  | some method => simp [hlabel]

theorem increments_concat_of_none {labels : List Label} {label : Label}
    (hincrement : label.increment = none) :
    increments (labels ++ [label]) = increments labels := by
  rw [increments_concat, hincrement, Option.toList_none, List.append_nil]

theorem increments_concat_hincrBy (labels : List Label) (method : Method)
    {write : Write} (happlied : write.applied = true) :
    increments (labels ++ [⟨method, .hincrBy write⟩]) =
      increments labels ++ [method] := by
  simp [increments_concat, Label.increment, happlied]

theorem increment_lost (method : Method) {write : Write}
    (happlied : write.applied = false) :
    Label.increment ⟨method, .hincrBy write⟩ = none := by
  simp [Label.increment, happlied]

theorem getElem?_concat {methods : List Method} {method other : Method}
    {i : ℕ} (hget : methods[i]? = some method) :
    (methods ++ [other])[i]? = some method := by
  rw [List.getElem?_append_left (List.getElem?_eq_some_iff.mp hget).1]
  exact hget

/-- What the phase of a method says about the increments and the fields. -/
def Phase.Good (request : Request) (incremented : List Method)
    (method : Method) : Phase → Prop
  | .notCalled => method ∉ incremented
  | .called fieldsValues =>
      method ∉ incremented ∧
        ∀ entry ∈ fieldsValues, entry.1 ≠ "num_components" ∧
          request.Holds entry.1 entry.2
  | .wroteFields _ => method ∉ incremented
  | .counted numComponents err =>
      err = none → ∃ i : ℕ, incremented[i]? = some method ∧
        numComponents = ((i + 1 : ℕ) : Int)
  | .composing replies =>
      incremented[5]? = some method ∧
        ∀ key json, replies key = some (some json) → request.Holds key json
  | .storing post | .stored post | .popped post | .publishing post _ =>
      incremented[5]? = some method ∧ request.Composes post
  | .returned err => err = none → method ∈ incremented

theorem Phase.good_failed (request : Request) (incremented : List Method)
    (method : Method) (err : Error) :
    (Phase.returned (some err)).Good request incremented method :=
  fun herr => nomatch herr

theorem Phase.Good.concat {incremented : List Method} {other : Method}
    (hgood : phase.Good request incremented method) (hne : method ≠ other) :
    phase.Good request (incremented ++ [other]) method := by
  have hnot : method ∉ incremented → method ∉ incremented ++ [other] := by
    simp [hne]
  cases phase with
  | notCalled => exact hnot hgood
  | called fieldsValues => exact ⟨hnot hgood.1, hgood.2⟩
  | wroteFields err => exact hnot hgood
  | counted numComponents err =>
      intro herr
      obtain ⟨i, hget, hnum⟩ := hgood herr
      exact ⟨i, getElem?_concat hget, hnum⟩
  | composing replies => exact ⟨getElem?_concat hgood.1, hgood.2⟩
  | storing post => exact ⟨getElem?_concat hgood.1, hgood.2⟩
  | stored post => exact ⟨getElem?_concat hgood.1, hgood.2⟩
  | popped post => exact ⟨getElem?_concat hgood.1, hgood.2⟩
  | publishing post regions => exact ⟨getElem?_concat hgood.1, hgood.2⟩
  | returned err => exact fun herr => List.mem_append_left _ (hgood herr)

/-- The counter counts the increments, and the hash holds the fields of the
request. -/
structure Accounting (request : Request) (labels : List Label)
    (state : State) : Prop where
  nodup : (increments labels).Nodup
  counter : CounterIs state.stores.hash "num_components"
    (increments labels).length
  hash : ∀ key json, state.stores.hash key = some json →
    request.Holds key json
  phase : ∀ method,
    (state.phase method).Good request (increments labels) method

theorem State.start_accounting (request : Request) (posts : List Post)
    (published : List (String × Message)) (timelines : UserTimeline.Stores) :
    Accounting request [] (.start posts published timelines) where
  nodup := List.nodup_nil
  counter := counterIs_empty _
  hash key json hkey := by cases hkey
  phase method := List.not_mem_nil

variable {labels : List Label} {state next : State} {label : Label}

/-- A step of a method that increments nothing. -/
theorem Accounting.update (hgood : Accounting request labels state)
    (hincrement : label.increment = none)
    (hcounter : stores'.hash "num_components" =
      state.stores.hash "num_components")
    (hhash : ∀ key json, stores'.hash key = some json →
      request.Holds key json)
    (hphase : phase'.Good request (increments labels) label.method) :
    Accounting request (labels ++ [label])
      (state.set label.method stores' phase') := by
  have hsame : increments (labels ++ [label]) = increments labels :=
    increments_concat_of_none hincrement
  refine ⟨?_, ?_, hhash, ?_⟩
  · rw [hsame]
    exact hgood.nodup
  · rw [hsame]
    exact hgood.counter.congr hcounter
  · intro method
    rw [hsame]
    by_cases hmethod : method = label.method
    · subst hmethod
      rw [State.set_phase_self]
      exact hphase
    · rw [State.set_phase_of_ne state hmethod]
      exact hgood.phase method

theorem Accounting.hset {write : Write} {fieldsValues : FieldsValues}
    (hgood : Accounting request labels state)
    (hphase : state.phase method = .called fieldsValues) :
    Accounting request (labels ++ [⟨method, .hset write⟩])
      (state.set method
        { state.stores with
          hash := if write.applied then
            Redis.hset state.stores.hash fieldsValues
            else state.stores.hash }
        (.wroteFields (errOf write .hset))) := by
  have hcalled := hgood.phase method
  rw [hphase] at hcalled
  obtain ⟨hnot, hfields⟩ := hcalled
  refine hgood.update rfl ?_ ?_ hnot
  · split
    next =>
      apply hset_of_not_mem
      intro hmem
      obtain ⟨entry, hentry, hkey⟩ := List.mem_map.mp hmem
      exact (hfields entry hentry).1 hkey
    next => rfl
  · split
    next =>
      exact hset_holds hgood.hash fun entry hentry =>
        (hfields entry hentry).2
    next => exact hgood.hash

theorem Accounting.hincrBy {write : Write} {err : Option Error}
    (hgood : Accounting request labels state)
    (hphase : state.phase method = .wroteFields err) :
    Accounting request (labels ++ [⟨method, .hincrBy write⟩])
      (state.set method
        { state.stores with
          hash := if write.applied then
            Function.update state.stores.hash "num_components"
              (some (.num (((increments labels).length + 1 : ℕ) : Int)))
            else state.stores.hash }
        (.counted (((increments labels).length + 1 : ℕ) : Int)
          (err <|> errOf write .hincrBy))) := by
  have hnot := hgood.phase method
  rw [hphase] at hnot
  cases happlied : write.applied with
  | false =>
      refine hgood.update (increment_lost method happlied) rfl hgood.hash ?_
      intro herr
      cases write with
      | done => cases happlied
      | failed applied => cases err <;> cases herr
  | true =>
      have hincrements :=
        increments_concat_hincrBy labels method happlied
      refine ⟨?_, ?_, ?_, ?_⟩
      · rw [hincrements, List.nodup_append]
        refine ⟨hgood.nodup, List.nodup_singleton method, ?_⟩
        intro other hother last hlast heq
        rw [List.mem_singleton.mp hlast] at heq
        exact hnot (heq ▸ hother)
      · rw [hincrements, List.length_append, List.length_singleton]
        exact counterIs_update_self _ _ _
      · intro key json hkey
        by_cases hcounter : key = "num_components"
        · subst hcounter
          intro value hvalue
          cases hvalue
        · apply hgood.hash key json
          exact (Function.update_of_ne hcounter _ _).symm.trans hkey
      · intro other
        rw [hincrements]
        by_cases hother : other = method
        · subst hother
          rw [State.set_phase_self]
          intro _
          exact ⟨(increments labels).length, by simp, rfl⟩
        · rw [State.set_phase_of_ne state hother]
          exact (hgood.phase other).concat hother

/-! ## The composer -/

theorem eq_none_of_orElse {err err' : Option Error}
    (herr : (err <|> err') = none) : err = none := by
  cases err with
  | none => rfl
  | some err => cases herr

theorem Accounting.afterPipeline {numComponents : Int} {err : Option Error}
    (hgood : Accounting request labels state)
    (hphase : state.phase method = .counted numComponents err)
    (err' : Option Error) :
    (afterPipeline numComponents (err <|> err')).Good request
      (increments labels) method := by
  have hcounted := hgood.phase method
  rw [hphase] at hcounted
  unfold ComposePostHandler.afterPipeline
  split
  next => exact fun herr => nomatch herr
  next herr =>
    have hnone := eq_none_of_orElse herr
    obtain ⟨i, hget, hnum⟩ := hcounted hnone
    split
    next hsix =>
      have hi : i = 5 := by
        rw [hnum] at hsix
        unfold NUM_COMPONENTS at hsix
        omega
      subst hi
      exact ⟨hget, fun key json hkey => nomatch hkey⟩
    next => exact fun _ => List.mem_of_getElem? hget

/-- The step loses nothing: the cached ids can be decoded, the message is
published, and the post is written to the user timeline. -/
def Label.Delivers (request : Request) (label : Label) : Prop :=
  match label.action with
  | .call answers =>
      let keys := request.uploads.usernames.map Users.userIDKey
      label.method = .userMentions → answers.getMulti = true →
        (UserMentions.userIDsCached (Users.getMulti answers.cache keys)
          keys).isSome
  | .publish write => write.applied = true
  | .writeUserTimeline calls =>
      calls.find = true ∧ calls.insertOne = .done ∧
        calls.zaddNX.applied = true
  | _ => True

theorem upload_ne_none {answers : Answers}
    (hdelivers : Label.Delivers request ⟨method, .call answers⟩) :
    upload deployment request answers method ≠ .ok none := by
  intro hupload
  cases method with
  | text => cases hupload
  | media =>
      simp only [upload] at hupload
      split at hupload <;> cases hupload
  | uniqueId =>
      simp only [upload] at hupload
      split at hupload <;> cases hupload
  | urls =>
      simp only [upload] at hupload
      split at hupload <;> cases hupload
  | userMentions =>
      simp only [upload] at hupload
      split at hupload
      next => cases hupload
      next hmentions =>
        unfold UploadUserMentionsWith at hmentions
        simp only at hmentions
        split at hmentions
        next => cases hmentions
        next hgetMulti =>
          have hsome := hdelivers rfl (by simpa using hgetMulti)
          split at hmentions
          next hnone => simp [hnone] at hsome
          next =>
            split at hmentions
            next =>
              split at hmentions
              next => cases hmentions
              next => split at hmentions <;> cases hmentions
            next => cases hmentions
      next => cases hupload
  | creator => cases hupload

theorem Accounting.step (hgood : Accounting request labels state)
    (hdelivers : label.Delivers request)
    (hstep : step deployment request state label = some next) :
    Accounting request (labels ++ [label]) next := by
  obtain ⟨stores, phase, hact, rfl⟩ := step_cases hstep
  obtain ⟨method, action⟩ := label
  have hphase := hgood.phase method
  have hcases := act_cases hact
  dsimp only at hact hcases ⊢
  cases action with
  | call answers =>
      obtain ⟨hready, rfl, hnext⟩ := hcases
      rw [hready] at hphase
      refine hgood.update rfl rfl hgood.hash ?_
      rcases hnext with ⟨err, -, rfl⟩ | ⟨hskip, -⟩ |
        ⟨fieldsValues, hupload, rfl⟩
      · exact Phase.good_failed _ _ _ _
      · exact absurd hskip (upload_ne_none hdelivers)
      · exact ⟨hphase, upload_holds hupload⟩
  | hset write =>
      obtain ⟨fieldsValues, hcalled, rfl, rfl⟩ := hcases
      exact hgood.hset hcalled
  | hincrBy write =>
      obtain ⟨err, hwrote, hnext⟩ := hcases
      obtain ⟨rfl, rfl⟩ := hnext _ _ hgood.counter.hincrBy
      exact hgood.hincrBy hwrote
  | expire ok =>
      obtain ⟨numComponents, err, hcounted, rfl, rfl⟩ := hcases
      exact hgood.update rfl rfl hgood.hash
        (hgood.afterPipeline hcounted _)
  | hget key ok =>
      obtain ⟨replies, hcomposing, -, -, rfl, rfl⟩ := hcases
      rw [hcomposing] at hphase
      refine hgood.update rfl rfl hgood.hash ⟨hphase.1, ?_⟩
      intro key' json hreply
      by_cases hkey : key' = key
      · subst hkey
        rw [Function.update_self, Option.some.injEq] at hreply
        split at hreply
        next => exact hgood.hash key' json hreply
        next => cases hreply
      · rw [Function.update_of_ne hkey] at hreply
        exact hphase.2 key' json hreply
  | join timestamp =>
      obtain ⟨replies, hcomposing, -, rfl, hnext⟩ := hcases
      rw [hcomposing] at hphase
      refine hgood.update rfl rfl hgood.hash ?_
      rcases hnext with ⟨err, -, rfl⟩ | ⟨post, hbuild, rfl⟩
      · exact Phase.good_failed _ _ _ _
      · refine ⟨hphase.1, buildPost_composes hbuild ?_⟩
        intro key json hreply
        rw [Option.join_eq_some_iff] at hreply
        exact hphase.2 key json hreply
  | insertOne write =>
      obtain ⟨post, hstoring, hnext⟩ := hcases
      rw [hstoring] at hphase
      rcases hnext with ⟨-, hhash, rfl⟩ | ⟨-, rfl, rfl⟩
      · refine hgood.update rfl (by rw [hhash]) ?_ (Phase.good_failed _ _ _ _)
        rw [hhash]
        exact hgood.hash
      · exact hgood.update rfl rfl hgood.hash hphase
  | pop ok =>
      obtain ⟨post, hstored, rfl, rfl⟩ := hcases
      rw [hstored] at hphase
      refine hgood.update rfl rfl hgood.hash ?_
      cases ok with
      | true => exact hphase
      | false => exact Phase.good_failed _ _ _ _
  | exchangeDeclare ok =>
      obtain ⟨post, hpopped, rfl, rfl⟩ := hcases
      rw [hpopped] at hphase
      refine hgood.update rfl rfl hgood.hash ?_
      cases ok with
      | true => exact hphase
      | false => exact Phase.good_failed _ _ _ _
  | publish write =>
      obtain ⟨post, region, regions, hpublishing, rfl, rfl⟩ := hcases
      rw [hpublishing] at hphase
      exact hgood.update rfl rfl hgood.hash hphase
  | writeUserTimeline calls =>
      obtain ⟨post, hpublishing, rfl, rfl⟩ := hcases
      rw [hpublishing] at hphase
      exact hgood.update rfl rfl hgood.hash fun _ =>
        List.mem_of_getElem? hphase.1

/-! ## What the composer has done -/

theorem writeUserTimelineWith_delivers {calls : UserTimeline.WriteCalls}
    (hfind : calls.find = true) (hinsertOne : calls.insertOne = .done)
    (hzaddNX : calls.zaddNX.applied = true)
    (timelines : UserTimeline.Stores) (postID userID timestamp : Int64) :
    let next := (UserTimeline.WriteUserTimelineWith calls timelines postID
      userID timestamp).2
    UserTimeline.Timeline.toDocument ⟨userID, [⟨postID, timestamp⟩]⟩ ∈
        next.collection ∧
      idText postID ∈ (next.redis (idText userID)).members := by
  have hnext : (UserTimeline.WriteUserTimelineWith calls timelines postID
      userID timestamp).2 =
        { timelines with
          collection := Bson.insertOne
            (UserTimeline.Timeline.toDocument
              ⟨userID, [⟨postID, timestamp⟩]⟩)
            timelines.collection }.zaddNX (idText userID)
              ⟨postID, timestamp⟩ := by
    unfold UserTimeline.WriteUserTimelineWith
    rw [hfind, hinsertOne]
    cases hwrite : calls.zaddNX with
    | done => rfl
    | failed applied =>
        rw [hwrite] at hzaddNX
        cases hzaddNX
        rfl
  rw [hnext]
  constructor
  · exact List.mem_append_right _ (List.mem_singleton_self _)
  · simp [UserTimeline.Stores.zaddNX, SortedSet.mem_members_addNX]

/-- The post is in the author's timeline of MongoDB. -/
def InMongoDB (timelines : UserTimeline.Stores) (post : Post) : Prop :=
  ∃ timeline : UserTimeline.Timeline, timeline.userID = post.creator.userID ∧
    timeline.toDocument ∈ timelines.collection ∧
    ∃ info ∈ timeline.posts, info.postID = post.postID

def InRedis (timelines : UserTimeline.Stores) (post : Post) : Prop :=
  idText post.postID ∈
    (timelines.redis (idText post.creator.userID)).members

/-- The stored post is published for every region and in both timelines. -/
structure Delivered (deployment : Deployment) (request : Request)
    (posts : List Post) (stores : Stores) (post : Post) : Prop where
  composed : request.Composes post
  stored : stores.posts = posts ++ [post]
  published : ∀ region ∈ deployment.regions,
    (routingKey region, message post) ∈ stores.published
  mongoDB : InMongoDB stores.timelines post
  redis : InRedis stores.timelines post

/-- What the stores hold in a phase of the composer; `posts` are the posts
before the request. -/
def Phase.Delivering (deployment : Deployment) (request : Request)
    (posts : List Post) (stores : Stores) : Phase → Prop
  | .stored post | .popped post => stores.posts = posts ++ [post]
  | .publishing post regions =>
      stores.posts = posts ++ [post] ∧
        ∀ region ∈ deployment.regions, region ∈ regions ∨
          (routingKey region, message post) ∈ stores.published
  | .returned none => ∃ post, Delivered deployment request posts stores post
  | .returned (some _) => True
  | _ => stores.posts = posts

/-- Only the method with the sixth increment writes to the other stores. -/
structure Effects (deployment : Deployment) (request : Request)
    (posts : List Post) (labels : List Label) (state : State) : Prop where
  waiting : (increments labels)[5]? = none → state.stores.posts = posts
  composer : ∀ method, (increments labels)[5]? = some method →
    (state.phase method).Delivering deployment request posts state.stores

variable {posts : List Post}

theorem State.start_effects (deployment : Deployment) (request : Request)
    (posts : List Post) (published : List (String × Message))
    (timelines : UserTimeline.Stores) :
    Effects deployment request posts []
      (.start posts published timelines) where
  waiting _ := rfl
  composer method hget := by cases hget

theorem Phase.Delivering.congr
    (hdelivering : phase.Delivering deployment request posts stores)
    (hposts : stores'.posts = stores.posts)
    (hpublished : stores'.published = stores.published)
    (htimelines : stores'.timelines = stores.timelines) :
    phase.Delivering deployment request posts stores' := by
  cases phase with
  | publishing post regions =>
      unfold Phase.Delivering at hdelivering ⊢
      rw [hposts, hpublished]
      exact hdelivering
  | returned err =>
      cases err with
      | none =>
          obtain ⟨post, hpost⟩ := hdelivering
          refine ⟨post, hpost.composed, ?_, ?_, ?_, ?_⟩
          · rw [hposts]
            exact hpost.stored
          · rw [hpublished]
            exact hpost.published
          · rw [htimelines]
            exact hpost.mongoDB
          · rw [htimelines]
            exact hpost.redis
      | some err => trivial
  | _ =>
      unfold Phase.Delivering at hdelivering ⊢
      rw [hposts]
      exact hdelivering

/-- A step before `StorePost`, which leaves the other stores alone. -/
theorem Effects.update (hgood : Effects deployment request posts labels state)
    (hincrement : label.increment = none)
    (hposts : stores'.posts = state.stores.posts)
    (hpublished : stores'.published = state.stores.published)
    (htimelines : stores'.timelines = state.stores.timelines)
    (hphase : (increments labels)[5]? = some label.method →
      phase'.Delivering deployment request posts stores') :
    Effects deployment request posts (labels ++ [label])
      (state.set label.method stores' phase') := by
  have hsame : increments (labels ++ [label]) = increments labels :=
    increments_concat_of_none hincrement
  refine ⟨?_, ?_⟩
  · intro hnone
    rw [hsame] at hnone
    exact hposts.trans (hgood.waiting hnone)
  · intro method hget
    rw [hsame] at hget
    by_cases hmethod : method = label.method
    · subst hmethod
      rw [State.set_phase_self]
      exact hphase hget
    · rw [State.set_phase_of_ne state hmethod]
      exact (hgood.composer method hget).congr hposts hpublished htimelines

/-- A step of the composer. -/
theorem Effects.compose (hincrement : label.increment = none)
    (hget : (increments labels)[5]? = some label.method)
    (hphase : phase'.Delivering deployment request posts stores') :
    Effects deployment request posts (labels ++ [label])
      (state.set label.method stores' phase') := by
  have hsame : increments (labels ++ [label]) = increments labels :=
    increments_concat_of_none hincrement
  refine ⟨?_, ?_⟩
  · intro hnone
    rw [hsame, hget] at hnone
    cases hnone
  · intro method hmethod
    rw [hsame, hget, Option.some.injEq] at hmethod
    subst hmethod
    rw [State.set_phase_self]
    exact hphase

theorem Effects.hincrBy {write : Write} {numComponents : Int}
    {err : Option Error}
    (hgood : Effects deployment request posts labels state)
    (hnot : method ∉ increments labels)
    (hposts : stores'.posts = state.stores.posts)
    (hpublished : stores'.published = state.stores.published)
    (htimelines : stores'.timelines = state.stores.timelines) :
    Effects deployment request posts
      (labels ++ [⟨method, .hincrBy write⟩])
      (state.set method stores' (.counted numComponents err)) := by
  cases happlied : write.applied with
  | false =>
      refine hgood.update (increment_lost method happlied) hposts hpublished
        htimelines ?_
      intro hget
      exact absurd (List.mem_of_getElem? hget) hnot
  | true =>
      have hincrements :=
        increments_concat_hincrBy labels method happlied
      have hbefore : ∀ other, (increments labels ++ [method])[5]? =
          some other → other ≠ method →
          (increments labels)[5]? = some other := by
        intro other hget hne
        rw [List.getElem?_append] at hget
        split at hget
        next => exact hget
        next =>
          have hmem := List.mem_of_getElem? hget
          exact absurd (List.mem_singleton.mp hmem) hne
      have hearlier : (increments labels)[5]? = none ∨
          ∃ other, other ≠ method ∧
            (increments labels)[5]? = some other := by
        cases hget : (increments labels)[5]? with
        | none => exact .inl rfl
        | some other =>
            refine .inr ⟨other, ?_, rfl⟩
            intro heq
            subst heq
            exact hnot (List.mem_of_getElem? hget)
      refine ⟨?_, ?_⟩
      · intro hnone
        rw [hincrements, List.getElem?_eq_none_iff] at hnone
        apply hposts.trans
        apply hgood.waiting
        rw [List.getElem?_eq_none_iff]
        rw [List.length_append, List.length_singleton] at hnone
        omega
      · intro other hget
        rw [hincrements] at hget
        by_cases hother : other = method
        · subst hother
          rw [State.set_phase_self]
          rcases hearlier with hnone | ⟨composer, hne, hcomposer⟩
          · exact hposts.trans (hgood.waiting hnone)
          · rw [getElem?_concat hcomposer, Option.some.injEq] at hget
            exact absurd hget hne
        · rw [State.set_phase_of_ne state hother]
          exact (hgood.composer other (hbefore other hget hother)).congr
            hposts hpublished htimelines

theorem Accounting.afterPipeline_delivering {numComponents : Int}
    {err : Option Error} (haccounting : Accounting request labels state)
    (hphase : state.phase method = .counted numComponents err)
    (hget : (increments labels)[5]? = some method)
    (hposts : state.stores.posts = posts) (err' : Option Error) :
    (ComposePostHandler.afterPipeline numComponents
      (err <|> err')).Delivering deployment request posts state.stores := by
  have hcounted := haccounting.phase method
  rw [hphase] at hcounted
  unfold ComposePostHandler.afterPipeline
  split
  next => trivial
  next herr =>
    have hnone := eq_none_of_orElse herr
    obtain ⟨i, hindex, hnum⟩ := hcounted hnone
    have hi : i = 5 :=
      (List.getElem?_inj (List.getElem?_eq_some_iff.mp hindex).1
        haccounting.nodup).mp (hindex.trans hget.symm)
    have hsix : numComponents = NUM_COMPONENTS := by
      rw [hnum, hi]
      rfl
    rw [if_pos hsix]
    exact hposts

theorem Effects.step (haccounting : Accounting request labels state)
    (hgood : Effects deployment request posts labels state)
    (hdelivers : label.Delivers request)
    (hstep : step deployment request state label = some next) :
    Effects deployment request posts (labels ++ [label]) next := by
  obtain ⟨stores, phase, hact, rfl⟩ := step_cases hstep
  obtain ⟨method, action⟩ := label
  have hphase := haccounting.phase method
  have hcomposer := hgood.composer method
  have hcases := act_cases hact
  dsimp only at hact hcases ⊢
  cases action with
  | call answers =>
      obtain ⟨hready, rfl, -⟩ := hcases
      rw [hready] at hphase
      refine hgood.update rfl rfl rfl rfl ?_
      intro hget
      exact absurd (List.mem_of_getElem? hget) hphase
  | hset write =>
      obtain ⟨fieldsValues, hcalled, rfl, rfl⟩ := hcases
      rw [hcalled] at hphase
      refine hgood.update rfl rfl rfl rfl ?_
      intro hget
      exact absurd (List.mem_of_getElem? hget) hphase.1
  | hincrBy write =>
      obtain ⟨err, hwrote, hnext⟩ := hcases
      obtain ⟨rfl, rfl⟩ := hnext _ _ haccounting.counter.hincrBy
      rw [hwrote] at hphase
      exact hgood.hincrBy hphase rfl rfl rfl
  | expire ok =>
      obtain ⟨numComponents, err, hcounted, rfl, rfl⟩ := hcases
      rw [hcounted] at hcomposer
      refine hgood.update rfl rfl rfl rfl ?_
      intro hget
      exact haccounting.afterPipeline_delivering hcounted hget
        (hcomposer hget) _
  | hget key ok =>
      obtain ⟨replies, hcomposing, -, -, rfl, rfl⟩ := hcases
      rw [hcomposing] at hcomposer
      exact hgood.update rfl rfl rfl rfl hcomposer
  | join timestamp =>
      obtain ⟨replies, hcomposing, -, rfl, hnext⟩ := hcases
      rw [hcomposing] at hcomposer
      refine hgood.update rfl rfl rfl rfl ?_
      intro hget
      rcases hnext with ⟨err, -, rfl⟩ | ⟨post, -, rfl⟩
      · trivial
      · exact hcomposer hget
  | insertOne write =>
      obtain ⟨post, hstoring, hnext⟩ := hcases
      rw [hstoring] at hphase hcomposer
      have hposts := hcomposer hphase.1
      refine Effects.compose rfl hphase.1 ?_
      rcases hnext with ⟨-, -, rfl⟩ | ⟨-, rfl, rfl⟩
      · trivial
      · exact congrArg (· ++ [post]) hposts
  | pop ok =>
      obtain ⟨post, hstored, rfl, rfl⟩ := hcases
      rw [hstored] at hphase hcomposer
      refine Effects.compose rfl hphase.1 ?_
      cases ok with
      | true => exact hcomposer hphase.1
      | false => trivial
  | exchangeDeclare ok =>
      obtain ⟨post, hpopped, rfl, rfl⟩ := hcases
      rw [hpopped] at hphase hcomposer
      refine Effects.compose rfl hphase.1 ?_
      cases ok with
      | true => exact ⟨hcomposer hphase.1, fun region hregion => .inl hregion⟩
      | false => trivial
  | publish write =>
      obtain ⟨post, region, regions, hpublishing, rfl, rfl⟩ := hcases
      rw [hpublishing] at hphase hcomposer
      obtain ⟨hposts, hpublished⟩ := hcomposer hphase.1
      have happlied : write.applied = true := hdelivers
      refine Effects.compose rfl hphase.1 ⟨hposts, ?_⟩
      intro other hother
      simp only [happlied, if_true, List.mem_append, List.mem_singleton]
      rcases hpublished other hother with hrest | hdone
      · rcases List.mem_cons.mp hrest with rfl | hrest
        · exact .inr (.inr rfl)
        · exact .inl hrest
      · exact .inr (.inl hdone)
  | writeUserTimeline calls =>
      obtain ⟨post, hpublishing, rfl, rfl⟩ := hcases
      rw [hpublishing] at hphase hcomposer
      obtain ⟨hposts, hpublished⟩ := hcomposer hphase.1
      obtain ⟨hfind, hinsertOne, hzaddNX⟩ := hdelivers
      obtain ⟨hmongoDB, hredis⟩ := writeUserTimelineWith_delivers hfind
        hinsertOne hzaddNX state.stores.timelines post.postID
        post.creator.userID post.timestamp
      refine Effects.compose rfl hphase.1 ⟨post, hphase.2, hposts, ?_, ?_, ?_⟩
      · intro region hregion
        rcases hpublished region hregion with hrest | hdone
        · cases hrest
        · exact hdone
      · exact ⟨_, rfl, hmongoDB, _, List.mem_singleton_self _, rfl⟩
      · exact hredis

/-! ## A success reply -/

variable {published : List (String × Message)}
  {timelines : UserTimeline.Stores}

theorem run_good (hdelivers : ∀ label ∈ labels, label.Delivers request)
    (hrun : run (step deployment request) (.start posts published timelines)
      labels = some state) :
    Accounting request labels state ∧
      Effects deployment request posts labels state := by
  refine run_induction_of_labels
    (P := fun labels state => Accounting request labels state ∧
      Effects deployment request posts labels state) ?_ ?_ hdelivers hrun
  · exact ⟨State.start_accounting _ _ _ _, State.start_effects _ _ _ _ _⟩
  · intro labels state label next hlabel hgood hstep
    obtain ⟨haccounting, heffects⟩ := hgood
    exact ⟨haccounting.step hlabel hstep,
      heffects.step haccounting hlabel hstep⟩

theorem exists_sixth {methods : List Method} (hnodup : methods.Nodup)
    (hall : ∀ method, method ∈ methods) :
    ∃ method, methods[5]? = some method := by
  have hfinset : methods.toFinset = Finset.univ :=
    Finset.eq_univ_iff_forall.mpr fun method =>
      List.mem_toFinset.mpr (hall method)
  have hlength : methods.length = 6 := by
    rw [← List.toFinset_card_of_nodup hnodup, hfinset, Finset.card_univ,
      Method.card]
  exact ⟨methods[5], List.getElem?_eq_getElem (by omega)⟩

/-- In a run that loses nothing, a success reply means that exactly one post
was stored for the request, published for every region and written to both
timelines of its author. -/
theorem composePostHandler_delivered {response : String}
    (hdelivers : ∀ label ∈ labels, label.Delivers request)
    (hrun : run (step deployment request) (.start posts published timelines)
      labels = some state)
    (hreply : composePostHandler request state = some (.ok response)) :
    ∃ post, Delivered deployment request posts state.stores post := by
  obtain ⟨haccounting, heffects⟩ := run_good hdelivers hrun
  have hreturned : ∀ method, state.phase method = .returned none := by
    intro method
    have hresult := result_of_success hreply method
    unfold State.result Phase.result at hresult
    split at hresult
    next err hphase =>
      rw [Option.some.injEq] at hresult
      rw [hphase, hresult]
    next => cases hresult
  have hincremented : ∀ method, method ∈ increments labels := by
    intro method
    have hphase := haccounting.phase method
    rw [hreturned] at hphase
    exact hphase rfl
  obtain ⟨method, hget⟩ := exists_sixth haccounting.nodup hincremented
  have hcomposer := heffects.composer method hget
  rw [hreturned] at hcomposer
  exact hcomposer

def sampleDeployment : Deployment := ⟨["eu"], "c0"⟩

def sampleRequest : Request where
  params := ⟨"hello", 7, "ana", 3, [], [], 0⟩
  random := TextService.sampleRandom

def sampleAnswers : Answers where
  service := UniqueId.Service.init
  timestamp := 5
  users := []
  cache _ := none
  order := Users.FindOrder.natural
  insertMany := true
  getMulti := true
  find := true
  all := true

def uploadActions : List Action :=
  [.call sampleAnswers, .hset .done, .hincrBy .done, .expire true]

def composeActions (publish : Write) : List Action :=
  componentKeys.map (Action.hget · true) ++
    ([.join 9, .insertOne .done, .pop true, .exchangeDeclare true,
      .publish publish, .writeUserTimeline .succeed] : List Action)

/-- One method after the other; the last one composes the post. -/
def sampleLabels (publish : Write) : List Label :=
  ([.urls, .userMentions, .text, .media, .uniqueId, .creator] :
    List Method).flatMap (fun method => uploadActions.map (Label.mk method)) ++
  (composeActions publish).map (Label.mk .creator)

def sampleRun (publish : Write) : Option State :=
  run (step sampleDeployment sampleRequest)
    (.start [] [] UserTimeline.Stores.empty) (sampleLabels publish)

theorem sampleRun_reply (publish : Write) :
    ∃ state, sampleRun publish = some state ∧
      composePostHandler sampleRequest state =
        some (.ok "success! user ana (id=7) composed post: hello\n") := by
  apply Option.bind_eq_some_iff.mp
  cases publish with
  | done => decide +kernel
  | failed applied => cases applied <;> decide +kernel

theorem composePostHandler_delivered_sample :
    ∃ state, sampleRun .done = some state ∧
      ∃ post, Delivered sampleDeployment sampleRequest [] state.stores
        post := by
  obtain ⟨state, hrun, hreply⟩ := sampleRun_reply .done
  refine ⟨state, hrun, composePostHandler_delivered ?_ hrun hreply⟩
  have husernames : sampleRequest.uploads.usernames = [] := by
    decide +kernel
  have hupload : ∀ method, ∀ action ∈ uploadActions,
      Label.Delivers sampleRequest ⟨method, action⟩ := by
    simp [uploadActions, Label.Delivers, husernames,
      UserMentions.userIDsCached]
  have hcompose : ∀ action ∈ composeActions .done,
      Label.Delivers sampleRequest ⟨.creator, action⟩ := by
    intro action haction
    rcases List.mem_append.mp haction with haction | haction
    · obtain ⟨key, -, rfl⟩ := List.mem_map.mp haction
      trivial
    · simp only [List.mem_cons, List.not_mem_nil, or_false] at haction
      rcases haction with rfl | rfl | rfl | rfl | rfl | rfl
      · trivial
      · trivial
      · trivial
      · trivial
      · rfl
      · exact ⟨rfl, rfl, rfl⟩
  intro label hlabel
  rcases List.mem_append.mp hlabel with hlabel | hlabel
  · obtain ⟨method, -, hlabel⟩ := List.mem_flatMap.mp hlabel
    obtain ⟨action, haction, rfl⟩ := List.mem_map.mp hlabel
    exact hupload method action haction
  · obtain ⟨action, haction, rfl⟩ := List.mem_map.mp hlabel
    exact hcompose action haction

/-- The publication fails, and the reply is the same. -/
theorem not_composePostHandler_delivered :
    ¬ ∀ (deployment : Deployment) (request : Request) (posts : List Post)
        (published : List (String × Message))
        (timelines : UserTimeline.Stores) (labels : List Label)
        (state : State) (response : String),
      run (step deployment request) (.start posts published timelines)
        labels = some state →
      composePostHandler request state = some (.ok response) →
      ∃ post, Delivered deployment request posts state.stores post := by
  intro hclaim
  obtain ⟨state, hrun, hreply⟩ := sampleRun_reply (.failed false)
  obtain ⟨post, hpost⟩ := hclaim _ _ _ _ _ _ state _ hrun hreply
  have hpublished := hpost.published "eu" List.mem_cons_self
  have hnone : (sampleRun (.failed false)).map
      (fun state => state.stores.published) = some [] := by
    decide +kernel
  rw [hrun, Option.map_some, Option.some.injEq] at hnone
  rw [hnone] at hpublished
  cases hpublished

end SocialNetwork.ComposePostHandler
