import SocialNetwork.ComposePost

/-!
# Reading a compose-post schedule

What a list of executed labels says about one request: which executions have
incremented its counter, whether a field has been written since the key last
expired, and which `HGET` commands came too early.  These notions mention no
state; the invariants of the machine relate them to the state.
-/

namespace SocialNetwork.ComposePost

open Json Redis Machine

/-! ## Fields -/

def Method.keys : Method → List String
  | .text => ["text"]
  | .media => ["media"]
  | .uniqueId => ["post_id", "post_type"]
  | .urls => ["urls"]
  | .userMentions => ["user_mentions"]
  | .creator => ["creator"]

/-- The JSON that the upload methods of a request write under a key. -/
def Request.component (request : Request) (key : String) : Json :=
  if key = "text" then marshal request.text
  else if key = "creator" then marshal request.creator
  else if key = "media" then marshal request.media
  else if key = "post_id" then marshal request.postID
  else if key = "urls" then marshal request.urls
  else if key = "user_mentions" then marshal request.userMentions
  else marshal request.postType

def Request.post (request : Request) (reqID timestamp : Int64) : Post where
  postID := request.postID
  reqID := reqID
  creator := request.creator
  text := request.text
  userMentions := request.userMentions
  media := request.media
  urls := request.urls
  timestamp := timestamp
  postType := request.postType

theorem Request.upload_keys (request : Request) (method : Method) :
    (request.upload method).map Prod.fst = method.keys := by
  cases method <;> rfl

theorem Method.keys_nodup (method : Method) : method.keys.Nodup := by
  cases method <;> decide

theorem numComponents_not_mem_keys (method : Method) :
    "num_components" ∉ method.keys := by
  cases method <;> decide

theorem numComponents_not_mem_componentKeys :
    "num_components" ∉ componentKeys := by decide

theorem exists_method_of_mem_componentKeys {key : String}
    (hkey : key ∈ componentKeys) : ∃ method : Method, key ∈ method.keys := by
  simp only [componentKeys, List.mem_cons, List.not_mem_nil, or_false] at hkey
  rcases hkey with rfl | rfl | rfl | rfl | rfl | rfl | rfl
  exacts [⟨.text, by decide⟩, ⟨.creator, by decide⟩, ⟨.media, by decide⟩,
    ⟨.uniqueId, by decide⟩, ⟨.urls, by decide⟩, ⟨.userMentions, by decide⟩,
    ⟨.uniqueId, by decide⟩]

/-- No field is written by two methods. -/
theorem Method.eq_of_mem_keys {method method' : Method} {key : String}
    (hkey : key ∈ method.keys) (hkey' : key ∈ method'.keys) :
    method = method' := by
  have hkeys : ∀ method method' : Method, ∀ key ∈ method.keys,
      key ∈ method'.keys → method = method' := by decide
  exact hkeys method method' key hkey hkey'

theorem Request.mem_upload {request : Request} {method : Method}
    {key : String} (hkey : key ∈ method.keys) :
    (key, request.component key) ∈ request.upload method := by
  cases method <;>
    simp only [Method.keys, List.mem_cons, List.not_mem_nil, or_false] at hkey
  case uniqueId =>
    rcases hkey with rfl | rfl <;> simp [upload, uploadUniqueId, component]
  all_goals
    subst hkey
    simp [upload, uploadText, uploadMedia, uploadUrls, uploadUserMentions,
      uploadCreator, component]

theorem Request.buildPost_eq (request : Request) (reqID timestamp : Int64)
    {reply : String → Option Json}
    (hreply : ∀ key ∈ componentKeys,
      reply key = some (request.component key)) :
    buildPost reqID timestamp reply = .ok (request.post reqID timestamp) := by
  simp only [componentKeys, List.mem_cons, List.not_mem_nil, or_false,
    forall_eq_or_imp, forall_eq] at hreply
  obtain ⟨h1, h2, h3, h4, h5, h6, h7⟩ := hreply
  simp [buildPost, loadComponent, h1, h2, h3, h4, h5, h6, h7, component,
    Request.post, pure, Except.pure, bind, Except.bind]

theorem loadComponent_isSome {α : Type} [JsonCodec α]
    {reply : String → Option Json} {key : String} {value : α}
    (h : loadComponent reply key = .ok value) : (reply key).isSome := by
  unfold loadComponent at h
  split at h
  next => cases h
  next hreply => simp [hreply]

/-- `composeAndUpload` builds a post only from seven present replies. -/
theorem isSome_of_buildPost {reqID timestamp : Int64}
    {reply : String → Option Json} {post : Post}
    (h : buildPost reqID timestamp reply = .ok post) :
    ∀ key ∈ componentKeys, (reply key).isSome := by
  unfold buildPost at h
  obtain ⟨_, h1, h⟩ := bind_eq_ok h
  obtain ⟨_, h2, h⟩ := bind_eq_ok h
  obtain ⟨_, h3, h⟩ := bind_eq_ok h
  obtain ⟨_, h4, h⟩ := bind_eq_ok h
  obtain ⟨_, h5, h⟩ := bind_eq_ok h
  obtain ⟨_, h6, h⟩ := bind_eq_ok h
  obtain ⟨_, h7, -⟩ := bind_eq_ok h
  simp only [componentKeys, List.mem_cons, List.not_mem_nil, or_false,
    forall_eq_or_imp, forall_eq]
  exact ⟨loadComponent_isSome h1, loadComponent_isSome h2,
    loadComponent_isSome h3, loadComponent_isSome h4,
    loadComponent_isSome h5, loadComponent_isSome h6,
    loadComponent_isSome h7⟩

/-! ## Labels -/

/-- The executions of a request that have incremented its counter, in
order. -/
def increments (reqID : Int64) (labels : List Label) : List Execution :=
  labels.filterMap fun
    | .hincrBy e => if e.reqID = reqID then some e else none
    | _ => none

/-- The field was written for the request and its key has not expired
since. -/
def written (reqID : Int64) (key : String) (labels : List Label) : Bool :=
  labels.foldl
    (fun present label =>
      match label with
      | .hset e => present || (e.reqID = reqID && key ∈ e.method.keys)
      | .keyExpired expired => present && expired ≠ idText reqID
      | _ => present)
    false

/-- The execution sent an `HGET` for a field that was not there. -/
def Missed (e : Execution) (labels : List Label) : Prop :=
  ∃ before key, before ++ [.hget e key] <+: labels ∧
    written e.reqID key before = false

/-- No increment of the request's counter comes after an expiry. -/
def CountsExact (reqID : Int64) (labels : List Label) : Prop :=
  ∀ before e, before ++ [.hincrBy e] <+: labels → e.reqID = reqID →
    .keyExpired (idText reqID) ∉ before

@[simp] theorem increments_nil (reqID : Int64) : increments reqID [] = [] :=
  rfl

@[simp] theorem increments_append (reqID : Int64)
    (before after : List Label) :
    increments reqID (before ++ after) =
      increments reqID before ++ increments reqID after :=
  List.filterMap_append ..

theorem increments_length_le_of_prefix (reqID : Int64)
    {before labels : List Label} (hpre : before <+: labels) :
    (increments reqID before).length ≤ (increments reqID labels).length := by
  obtain ⟨after, rfl⟩ := hpre
  simp

theorem increments_concat_hincrBy (reqID : Int64)
    (labels : List Label) (e : Execution) :
    increments reqID (labels ++ [.hincrBy e]) =
      increments reqID labels ++ if e.reqID = reqID then [e] else [] := by
  unfold increments
  rw [List.filterMap_append]
  by_cases hreq : e.reqID = reqID <;> simp [hreq]

theorem increments_concat_of_ne (reqID : Int64) (labels : List Label)
    {label : Label} (hlabel : ∀ e, label ≠ .hincrBy e) :
    increments reqID (labels ++ [label]) = increments reqID labels := by
  unfold increments
  rw [List.filterMap_append]
  cases label with
  | hincrBy e => exact absurd rfl (hlabel e)
  | _ => simp

@[simp] theorem written_nil (reqID : Int64) (key : String) :
    written reqID key [] = false := rfl

@[simp] theorem written_concat_hset (reqID : Int64) (key : String)
    (labels : List Label) (e : Execution) :
    written reqID key (labels ++ [.hset e]) =
      (written reqID key labels ||
        (e.reqID = reqID && key ∈ e.method.keys)) := by
  simp [written, List.foldl_append]

@[simp] theorem written_concat_keyExpired (reqID : Int64) (key : String)
    (labels : List Label) (expired : String) :
    written reqID key (labels ++ [.keyExpired expired]) =
      (written reqID key labels && expired ≠ idText reqID) := by
  simp [written, List.foldl_append]

theorem written_concat_of_ne (reqID : Int64) (key : String)
    (labels : List Label) {label : Label} (hset : ∀ e, label ≠ .hset e)
    (hexpired : ∀ expired, label ≠ .keyExpired expired) :
    written reqID key (labels ++ [label]) = written reqID key labels := by
  cases label with
  | hset e => exact absurd rfl (hset e)
  | keyExpired expired => exact absurd rfl (hexpired expired)
  | _ => simp [written, List.foldl_append]

/-- Without an expiry of the key, written means that some `HSET` of the
request wrote the field. -/
theorem written_iff_of_not_expired {reqID : Int64} {labels : List Label}
    (hexpired : .keyExpired (idText reqID) ∉ labels) (key : String) :
    written reqID key labels = true ↔
      ∃ e, .hset e ∈ labels ∧ e.reqID = reqID ∧ key ∈ e.method.keys := by
  induction labels using List.reverseRecOn with
  | nil => simp
  | append_singleton labels label ih =>
      have hbefore : .keyExpired (idText reqID) ∉ labels :=
        fun hmem => hexpired (List.mem_append_left _ hmem)
      cases label with
      | hset e =>
          rw [written_concat_hset, Bool.or_eq_true, ih hbefore]
          simp only [Bool.and_eq_true, decide_eq_true_eq, List.mem_append,
            List.mem_singleton, Label.hset.injEq]
          constructor
          · rintro (⟨e', hmem, hrest⟩ | hrest)
            · exact ⟨e', .inl hmem, hrest⟩
            · exact ⟨e, .inr rfl, hrest⟩
          · rintro ⟨e', hmem | rfl, hrest⟩
            · exact .inl ⟨e', hmem, hrest⟩
            · exact .inr hrest
      | keyExpired expired =>
          have hne : expired ≠ idText reqID := by
            rintro rfl
            exact hexpired (by simp)
          simp [ih hbefore, hne]
      | _ =>
          rw [written_concat_of_ne _ _ _ (by simp) (by simp), ih hbefore]
          simp

theorem Missed.concat_iff {e : Execution} {labels : List Label}
    {label : Label} :
    Missed e (labels ++ [label]) ↔
      Missed e labels ∨
        ∃ key, label = .hget e key ∧ written e.reqID key labels = false := by
  constructor
  · rintro ⟨before, key, hpre, hwritten⟩
    rcases List.prefix_concat_iff.mp hpre with heq | hpre
    · obtain ⟨rfl, hlabel⟩ := List.append_inj' heq rfl
      exact .inr ⟨key, (List.singleton_inj.mp hlabel).symm, hwritten⟩
    · exact .inl ⟨before, key, hpre, hwritten⟩
  · rintro (⟨before, key, hpre, hwritten⟩ | ⟨key, rfl, hwritten⟩)
    · exact ⟨before, key, hpre.trans (List.prefix_append _ _), hwritten⟩
    · exact ⟨labels, key, List.prefix_rfl, hwritten⟩

theorem not_missed_nil (e : Execution) : ¬ Missed e [] := by
  rintro ⟨before, key, hpre, -⟩
  simp at hpre

theorem CountsExact.of_concat {reqID : Int64} {labels : List Label}
    {label : Label} (hexact : CountsExact reqID (labels ++ [label])) :
    CountsExact reqID labels :=
  fun before e hpre =>
    hexact before e (hpre.trans (List.prefix_append _ _))

theorem CountsExact.not_expired {e : Execution} {labels : List Label}
    (hexact : CountsExact e.reqID (labels ++ [.hincrBy e])) :
    .keyExpired (idText e.reqID) ∉ labels :=
  hexact labels e List.prefix_rfl rfl

end SocialNetwork.ComposePost
