import SocialNetwork.Json
import SocialNetwork.Strconv
import Mathlib.Tactic

/-!
# Data model

The records of `pkg/model/models.go` with their JSON form, and the decimal
text under which ids appear in cache and Redis keys.  `weaver.AutoMarshal`
carries no data.  Strings are valid UTF-8.
-/

namespace SocialNetwork

open Json Strconv

theorem bind_eq_ok {ε α β : Type} {x : Except ε α} {f : α → Except ε β}
    {b : β} (h : x >>= f = .ok b) : ∃ a, x = .ok a ∧ f a = .ok b := by
  cases x with
  | error err => cases h
  | ok a => exact ⟨a, rfl, h⟩

structure Creator where
  userID : Int64
  username : String
  deriving DecidableEq, Repr

structure Media where
  mediaID : Int64
  mediaType : String
  deriving DecidableEq, Repr

structure URL where
  expandedUrl : String
  shortenedUrl : String
  deriving DecidableEq, Repr

structure User where
  userID : Int64
  firstName : String
  lastName : String
  username : String
  pwdHashed : String
  salt : String
  deriving DecidableEq, Repr

structure UserMention where
  userID : Int64
  username : String
  deriving DecidableEq, Repr

abbrev PostType := Int64

structure Post where
  postID : Int64
  reqID : Int64
  creator : Creator
  text : String
  userMentions : List UserMention
  media : List Media
  urls : List URL
  timestamp : Int64
  postType : PostType
  deriving DecidableEq, Repr

/-- The message of the write-home-timeline queue.  The span context and the
send time only feed traces and metrics. -/
structure Message where
  reqID : Int64
  userID : Int64
  postID : Int64
  timestamp : Int64
  userMentionIDs : List Int64
  deriving DecidableEq, Repr

instance : JsonCodec Creator where
  zero := ⟨0, ""⟩
  marshal creator :=
    .obj [("UserID", marshal creator.userID),
      ("Username", marshal creator.username)]
  unmarshal
    | .null => some ⟨0, ""⟩
    | .obj fields => do
        return ⟨← field fields "UserID", ← field fields "Username"⟩
    | _ => none
  unmarshal_marshal creator := by simp

instance : JsonCodec Media where
  zero := ⟨0, ""⟩
  marshal media :=
    .obj [("MediaID", marshal media.mediaID),
      ("MediaType", marshal media.mediaType)]
  unmarshal
    | .null => some ⟨0, ""⟩
    | .obj fields => do
        return ⟨← field fields "MediaID", ← field fields "MediaType"⟩
    | _ => none
  unmarshal_marshal media := by simp

instance : JsonCodec URL where
  zero := ⟨"", ""⟩
  marshal url :=
    .obj [("ExpandedUrl", marshal url.expandedUrl),
      ("ShortenedUrl", marshal url.shortenedUrl)]
  unmarshal
    | .null => some ⟨"", ""⟩
    | .obj fields => do
        return ⟨← field fields "ExpandedUrl", ← field fields "ShortenedUrl"⟩
    | _ => none
  unmarshal_marshal url := by simp

instance : JsonCodec UserMention where
  zero := ⟨0, ""⟩
  marshal mention :=
    .obj [("UserID", marshal mention.userID),
      ("Username", marshal mention.username)]
  unmarshal
    | .null => some ⟨0, ""⟩
    | .obj fields => do
        return ⟨← field fields "UserID", ← field fields "Username"⟩
    | _ => none
  unmarshal_marshal mention := by simp

instance : JsonCodec Post where
  zero := ⟨0, 0, ⟨0, ""⟩, "", [], [], [], 0, 0⟩
  marshal post :=
    .obj [("PostID", marshal post.postID), ("ReqID", marshal post.reqID),
      ("Creator", marshal post.creator), ("Text", marshal post.text),
      ("UserMentions", marshal post.userMentions),
      ("Media", marshal post.media), ("URLs", marshal post.urls),
      ("Timestamp", marshal post.timestamp),
      ("PostType", marshal post.postType)]
  unmarshal
    | .null => some ⟨0, 0, ⟨0, ""⟩, "", [], [], [], 0, 0⟩
    | .obj fields => do
        return ⟨← field fields "PostID", ← field fields "ReqID",
          ← field fields "Creator", ← field fields "Text",
          ← field fields "UserMentions", ← field fields "Media",
          ← field fields "URLs", ← field fields "Timestamp",
          ← field fields "PostType"⟩
    | _ => none
  unmarshal_marshal post := by simp

instance : JsonCodec Message where
  zero := ⟨0, 0, 0, 0, []⟩
  marshal msg :=
    .obj [("req_id", marshal msg.reqID), ("user_id", marshal msg.userID),
      ("post_id", marshal msg.postID), ("timestamp", marshal msg.timestamp),
      ("user_mention_ids", marshal msg.userMentionIDs)]
  unmarshal
    | .null => some ⟨0, 0, 0, 0, []⟩
    | .obj fields => do
        return ⟨← field fields "req_id", ← field fields "user_id",
          ← field fields "post_id", ← field fields "timestamp",
          ← field fields "user_mention_ids"⟩
    | _ => none
  unmarshal_marshal msg := by simp

/-! ## Ids as text -/

/-- `strconv.FormatInt(id, 10)`. -/
def idText (id : Int64) : String := formatInt id.toInt 10

theorem idText_injective : Function.Injective idText := by
  intro a b h
  exact Int64.toInt_inj.mp
    (formatInt_injective (by norm_num) (by norm_num) h)

@[simp] theorem idText_inj {a b : Int64} : idText a = idText b ↔ a = b :=
  idText_injective.eq_iff

/-- `strconv.ParseInt(text, 10, 64)`. -/
def parseID (text : String) : Except NumError Int64 :=
  (parseInt text 10).map Int64.ofInt

@[simp] theorem parseID_idText (id : Int64) :
    parseID (idText id) = .ok id := by
  unfold parseID idText
  rw [parseInt_formatInt (by norm_num) (by norm_num) id.le_toInt id.toInt_lt]
  simp [Except.map]

theorem mapM_parseID_map_idText (ids : List Int64) :
    (ids.map idText).mapM parseID = Except.ok ids := by
  induction ids with
  | nil => rfl
  | cons id ids ih =>
      rw [List.map_cons, List.mapM_cons, parseID_idText, ih]
      rfl

theorem exists_map_idText {texts : List String}
    (htexts : ∀ text ∈ texts, ∃ id, text = idText id) :
    ∃ ids : List Int64, texts = ids.map idText := by
  induction texts with
  | nil => exact ⟨[], rfl⟩
  | cons text texts ih =>
      obtain ⟨id, rfl⟩ := htexts text List.mem_cons_self
      obtain ⟨ids, rfl⟩ :=
        ih fun other hother => htexts other (List.mem_cons_of_mem _ hother)
      exact ⟨id :: ids, rfl⟩

/-! ## Scores -/

/-- `float64(n)`: the nearest double, ties to the even significand.  A double
near an `int64` is an integer. -/
def float64 (n : Int64) : Int :=
  let m := n.toInt.natAbs
  let ulp := 2 ^ (m.log2 - 52)
  let q := m / ulp
  let r := m % ulp
  let significand :=
    if 2 * r < ulp ∨ (2 * r = ulp ∧ q % 2 = 0) then q else q + 1
  n.toInt.sign * (significand * ulp : ℕ)

theorem float64_eq {n : Int64} (hn : n.toInt.natAbs < 2 ^ 53) :
    float64 n = n.toInt := by
  have hlog : n.toInt.natAbs.log2 - 52 = 0 := by
    by_cases hzero : n.toInt.natAbs = 0
    · rw [hzero]
      rfl
    · have := (Nat.log2_lt hzero).mpr hn
      omega
  simp [float64, hlog, Nat.mod_one, Int.sign_mul_abs]

end SocialNetwork
