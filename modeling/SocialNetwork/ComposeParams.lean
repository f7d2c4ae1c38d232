import SocialNetwork.Strings
import SocialNetwork.UserHandlers

/-!
# The form of a post

`validateComposePostParams` of `wrk2.go` and `UploadMedia` of `media.go`.  The
media ids and the media types of a post come as two texts, which are parsed
one by one; only their lengths are compared.
-/

namespace SocialNetwork.ComposeParams

open Strings Strconv UserHandlers

inductive Error where
  | parseForm (text : String)
  | text (text : String)
  /-- `error parsing media ids`, with the error of `ParseInt`. -/
  | mediaIDs (idStr : String) (err : NumError)
  deriving DecidableEq, Repr

structure ComposePostParams where
  text : String
  userID : Int64
  username : String
  reqID : Int64
  mediaTypes : List String
  mediaIDs : List Int64
  postType : PostType
  deriving DecidableEq, Repr

def invalidPostType : String :=
  "invalid post_type. Available types: 0-POST, 1-REPOST, 2-REPLY, 3-DM"

/-- The value of an integer field; an empty field is `-1`. -/
def parseField (value message : String) : Except Error Int64 :=
  if value ≠ "" then (parseID value).mapError fun _ => .text message
  else .ok (-1)

/-- The elements of a text in brackets. -/
def splitMedia (value : String) : List String :=
  if value ≠ "" ∧ value ≠ "[]" then
    split (trimSuffix (trimPrefix value "[") "]") ','
  else []

def parseMediaIDs (value : String) : Except Error (List Int64) :=
  (splitMedia value).mapM fun idStr =>
    (parseID idStr).mapError (.mediaIDs idStr)

/-- The form is the error of `ParseForm` when it cannot be parsed. -/
def validateComposePostParams (reqID : Int64) :
    Except String Form → Except Error ComposePostParams
  | .error err => .error (.parseForm err)
  | .ok form => do
      let userID ← parseField (form "user_id") "invalid user_id"
      let postType ← parseField (form "post_type") invalidPostType
      let mediaTypes := splitMedia (form "media_types")
      let mediaIDs ← parseMediaIDs (form "media_ids")
      if form "username" = "" then
        throw (.text "must provide a valid username")
      else if form "text" = "" then
        throw (.text "must provide a valid text")
      else if userID = -1 then throw (.text "must provide a user_id")
      else if postType < 0 ∨ 3 < postType then
        throw (.text invalidPostType)
      else
        return {
          text := form "text"
          userID := userID
          username := form "username"
          reqID := reqID
          mediaTypes := mediaTypes
          mediaIDs := mediaIDs
          postType := postType }

inductive MediaError where
  | text (text : String)
  deriving DecidableEq, Repr

/-- The list that is passed to `ComposePostService`, or the error that is
returned without a call. -/
def UploadMedia (mediaTypes : List String) (mediaIDs : List Int64) :
    Except MediaError (List Media) :=
  if mediaTypes.length ≠ mediaIDs.length then
    .error (.text
      "the lengths of media_id list and media_type list are not equal")
  else
    .ok (mediaIDs.zipIdx.map fun entry =>
      ⟨entry.1, mediaTypes.getD entry.2 ""⟩)

/-! ## Texts of lists -/

/-- The elements in brackets, joined with commas. -/
def mediaText (elements : List String) : String :=
  "[" ++ (",".intercalate elements ++ "]")

theorem splitMedia_mediaText {elements : List String}
    (hcomma : ∀ element ∈ elements, ',' ∉ element.toList)
    (hempty : elements ≠ [""]) :
    splitMedia (mediaText elements) = elements := by
  have hvalue : mediaText elements ≠ "" := by
    simp [mediaText, ← String.toList_inj]
  have hempty_iff : mediaText elements = "[]" ↔
      ",".intercalate elements = "" := by
    simp [mediaText, ← String.toList_inj]
  unfold splitMedia
  by_cases hnil : elements = []
  · subst hnil
    simp [mediaText]
  · have hsplit : split (",".intercalate elements) ',' = elements :=
      split_intercalate hcomma hnil
    have hbrackets : mediaText elements ≠ "[]" := by
      intro htext
      rw [hempty_iff.mp htext] at hsplit
      exact hempty hsplit.symm
    rw [if_pos ⟨hvalue, hbrackets⟩, mediaText, trimPrefix_append,
      trimSuffix_append, hsplit]

theorem comma_not_mem_idText (id : Int64) : ',' ∉ (idText id).toList := by
  intro hmem
  rcases mem_formatInt (by norm_num) hmem with hminus | ⟨d, hd, hdigit⟩
  · revert hminus
    decide
  · have hne : ∀ d < 10, ',' ≠ Nat.digitChar d := by decide
    exact hne d hd hdigit

theorem idText_ne_empty (id : Int64) : idText id ≠ "" := by
  intro hempty
  have hparse := parseID_idText id
  rw [hempty] at hparse
  cases hparse

theorem mapM_parseID_mediaIDs (ids : List Int64) :
    ((ids.map idText).mapM fun idStr =>
      (parseID idStr).mapError (Error.mediaIDs idStr)) = .ok ids := by
  induction ids with
  | nil => rfl
  | cons id ids ih =>
      rw [List.map_cons, List.mapM_cons, parseID_idText, ih]
      rfl

theorem parseMediaIDs_mediaText (ids : List Int64) :
    parseMediaIDs (mediaText (ids.map idText)) = .ok ids := by
  have hcomma : ∀ element ∈ ids.map idText, ',' ∉ element.toList := by
    intro element hmem
    obtain ⟨id, -, rfl⟩ := List.mem_map.mp hmem
    exact comma_not_mem_idText id
  have hempty : ids.map idText ≠ [""] := by
    intro heq
    obtain ⟨id, -, hid⟩ :=
      List.mem_map.mp (heq ▸ List.mem_singleton_self "")
    exact idText_ne_empty id hid
  rw [parseMediaIDs, splitMedia_mediaText hcomma hempty]
  exact mapM_parseID_mediaIDs ids

/-! ## The other fields -/

/-- What `validateComposePostParams` asks of the other fields. -/
structure ValidFields (form : Form) (userID : Int64) (postType : PostType) :
    Prop where
  username : form "username" ≠ ""
  text : form "text" ≠ ""
  parse_userID : parseID (form "user_id") = .ok userID
  userID_ne : userID ≠ -1
  parse_postType : parseID (form "post_type") = .ok postType
  postType_nonneg : 0 ≤ postType
  postType_le : postType ≤ 3

theorem parseField_of_parseID {value : String} {id : Int64}
    (hparse : parseID value = .ok id) (message : String) :
    parseField value message = .ok id := by
  have hne : value ≠ "" := by
    rintro rfl
    cases hparse
  rw [parseField, if_pos hne, hparse]
  rfl

theorem ValidFields.validate {form : Form} {userID : Int64}
    {postType : PostType} (hform : ValidFields form userID postType)
    (reqID : Int64) {mediaIDs : List Int64}
    (hmediaIDs : parseMediaIDs (form "media_ids") = .ok mediaIDs) :
    validateComposePostParams reqID (.ok form) =
      .ok {
        text := form "text"
        userID := userID
        username := form "username"
        reqID := reqID
        mediaTypes := splitMedia (form "media_types")
        mediaIDs := mediaIDs
        postType := postType } := by
  have hrange : ¬(postType < 0 ∨ 3 < postType) := by
    rw [not_or, Int64.not_lt, Int64.not_lt]
    exact ⟨hform.postType_nonneg, hform.postType_le⟩
  simp only [validateComposePostParams,
    parseField_of_parseID hform.parse_userID,
    parseField_of_parseID hform.parse_postType, hmediaIDs, bind, Except.bind,
    if_neg hform.username, if_neg hform.text, if_neg hform.userID_ne,
    if_neg hrange]
  rfl

/-! ## Pairs -/

theorem uploadMedia_of_length_eq {mediaTypes : List String}
    {mediaIDs : List Int64} (hlength : mediaIDs.length = mediaTypes.length) :
    UploadMedia mediaTypes mediaIDs =
      .ok (List.zipWith Media.mk mediaIDs mediaTypes) := by
  rw [UploadMedia, if_neg (not_not.mpr hlength.symm), Except.ok.injEq]
  apply List.ext_getElem
  · simp [hlength]
  · intro i hleft hright
    simp only [List.length_map, List.length_zipIdx] at hleft
    simp [List.getElem_zipWith, List.getD_eq_getElem?_getD,
      List.getElem?_eq_getElem (hlength ▸ hleft)]

/-- The ids and types that were joined are those that are uploaded, pair by
pair; lists of different lengths are refused. -/
theorem media_roundTrip (reqID : Int64) {form : Form} {userID : Int64}
    {postType : PostType} (hform : ValidFields form userID postType)
    {ids : List Int64} {types : List String}
    (hcomma : ∀ mediaType ∈ types, ',' ∉ mediaType.toList)
    (hempty : types ≠ [""])
    (hids : form "media_ids" = mediaText (ids.map idText))
    (htypes : form "media_types" = mediaText types) :
    ∃ params, validateComposePostParams reqID (.ok form) = .ok params ∧
      params.mediaIDs = ids ∧ params.mediaTypes = types ∧
      (ids.length = types.length →
        UploadMedia params.mediaTypes params.mediaIDs =
          .ok (List.zipWith Media.mk ids types)) ∧
      (ids.length ≠ types.length →
        ∃ err, UploadMedia params.mediaTypes params.mediaIDs =
          .error err) := by
  have hparse : parseMediaIDs (form "media_ids") = .ok ids := by
    rw [hids, parseMediaIDs_mediaText]
  have hsplit : splitMedia (form "media_types") = types := by
    rw [htypes, splitMedia_mediaText hcomma hempty]
  refine ⟨_, hform.validate reqID hparse, rfl, hsplit, ?_, ?_⟩
  · intro hlength
    simp only [hsplit]
    exact uploadMedia_of_length_eq hlength
  · intro hlength
    simp only [hsplit]
    rw [UploadMedia, if_pos (Ne.symm hlength)]
    exact ⟨_, rfl⟩

def sampleForm : Form
  | "username" => "ana"
  | "text" => "hello"
  | "user_id" => "7"
  | "post_type" => "0"
  | "media_ids" => "[5,-1]"
  | "media_types" => "[[png],]"
  | _ => ""

theorem sampleForm_valid : ValidFields sampleForm 7 0 where
  username := by decide
  text := by decide
  parse_userID := rfl
  userID_ne := by decide
  parse_postType := rfl
  postType_nonneg := by decide
  postType_le := by decide

theorem media_roundTrip_sample :
    ∃ params, validateComposePostParams 1 (.ok sampleForm) = .ok params ∧
      UploadMedia params.mediaTypes params.mediaIDs =
        .ok [⟨5, "[png]"⟩, ⟨-1, ""⟩] := by
  obtain ⟨params, hparams, -, -, hupload, -⟩ :=
    media_roundTrip 1 sampleForm_valid (by decide) (by decide)
      (show sampleForm "media_ids" = mediaText ([5, -1].map idText) from rfl)
      (show sampleForm "media_types" = mediaText ["[png]", ""] from rfl)
  exact ⟨params, hparams, hupload rfl⟩

end SocialNetwork.ComposeParams
