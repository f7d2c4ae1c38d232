import SocialNetwork.Model
import SocialNetwork.Strings

/-!
# Texts and shortened urls

`UploadText` of `text.go` and `UploadUrls` of `urlshorten.go` with all store
and component calls succeeding.  The urls of a text are matched with a regular
expression and shortened by another service, which uploads the pairs itself.
-/

namespace SocialNetwork.TextService

open Strings

/-! ## The url shorten service -/

def letterRunes : List Char :=
  "abcdefghijklmnopqrstuvwxyzABCDEFGHIJKLMNOPQRSTUVWXYZ".toList

/-- What `rand.Intn(len(letterRunes))` returns in the loop of
`genRandomStr(10)`. -/
abbrev Draws := Fin 10 → Fin letterRunes.length

def genRandomStr (draws : Draws) : String :=
  String.ofList (List.ofFn fun i => letterRunes.get (draws i))

/-- The field is never assigned. -/
def hostname : String := ""

/-- The urls component; `random i` are the draws for the `i`-th url. -/
def UploadUrls (random : ℕ → Draws) (urls : List String) : List URL :=
  urls.zipIdx.map fun entry =>
    ⟨entry.1, hostname ++ genRandomStr (random entry.2)⟩

/-! ## The text service -/

def isUsernameChar (c : Char) : Bool :=
  c.isAlphanum || c ∈ ['-', '_']

def isUrlChar (c : Char) : Bool :=
  c.isAlphanum || c ∈ ['_', '!', '~', '*', '\'', '(', ')', '.', '&', '=', '+',
    '$', '%', '-']

/-- `@[a-zA-Z0-9-_]+`. -/
def mentionRe : Pattern := literalThen ['@'] isUsernameChar

/-- `(http://|https://)([a-zA-Z0-9_!~*'().&=+$%-]+)`. -/
def urlRe : Pattern :=
  alternative (literalThen "http://".toList isUrlChar)
    (literalThen "https://".toList isUrlChar)

/-- The loop over `url_strings`; `none` when `urls[idx]` is out of range. -/
def replaceUrls (text : String) (urlStrings : List String)
    (urls : List URL) : Option String :=
  if urls.length ≠ 0 then
    urlStrings.zipIdx.foldlM (fun updatedText entry =>
      urls[entry.2]?.map fun url =>
        replaceAll updatedText entry.1 url.shortenedUrl) text
  else some text

/-- What `UploadText` hands to the user mention service, and the components
that are uploaded for the text. -/
structure Uploads where
  usernames : List String
  urls : List URL
  text : String
  deriving DecidableEq, Repr

def UploadText (random : ℕ → Draws) (text : String) : Option Uploads := do
  let usernames := (findAllString mentionRe text).map fun m =>
    String.ofList m.toList.tail
  let urlStrings := findAllString urlRe text
  -- The variable is declared, and no result is ever assigned to it.
  let urls : List URL := []
  let targetUrls := UploadUrls random urlStrings
  let updatedText ← replaceUrls text urlStrings urls
  return ⟨usernames, targetUrls, updatedText⟩

theorem uploadText_eq (random : ℕ → Draws) (text : String) :
    UploadText random text =
      some ⟨(findAllString mentionRe text).map fun m =>
          String.ofList m.toList.tail,
        UploadUrls random (findAllString urlRe text), text⟩ := rfl

/-! ## What the uploaded text should be -/

/-- Every match of the text is replaced by a shortened url that is paired
with it, and the rest is as it was. -/
def Replaced (text : String) (urls : List URL) (updatedText : String) :
    Prop :=
  ∃ shortened : List String,
    List.Forall₂ (fun url short => (⟨url, short⟩ : URL) ∈ urls)
      (findAllString urlRe text) shortened ∧
    updatedText.toList = substitute (segments urlRe text) shortened

theorem colon_not_mem_genRandomStr (draws : Draws) :
    ':' ∉ (genRandomStr draws).toList := by
  have hletters : ':' ∉ letterRunes := by decide
  intro hmem
  rw [genRandomStr, String.toList_ofList, List.mem_ofFn] at hmem
  obtain ⟨i, hi⟩ := hmem
  exact hletters (hi ▸ List.get_mem _ _)

theorem colon_not_mem_shortenedUrl {random : ℕ → Draws}
    {urlStrings : List String} {url : URL}
    (hurl : url ∈ UploadUrls random urlStrings) :
    ':' ∉ url.shortenedUrl.toList := by
  obtain ⟨entry, -, rfl⟩ := List.mem_map.mp hurl
  simpa [hostname] using colon_not_mem_genRandomStr (random entry.2)

theorem colon_mem_of_urlRe {text : List Char} (hmatch : urlRe text ≠ 0) :
    ':' ∈ text.take (urlRe text) := by
  have hscheme : ∀ scheme : List Char, ':' ∈ scheme →
      literalThen scheme isUrlChar text ≠ 0 →
      ':' ∈ text.take (literalThen scheme isUrlChar text) :=
    fun scheme hcolon hne => (isPrefix_take_literalThen hne).subset hcolon
  unfold urlRe alternative at hmatch ⊢
  split at hmatch
  next hfirst =>
    rw [if_pos hfirst]
    exact hscheme _ (by decide) hfirst
  next hfirst =>
    rw [if_neg hfirst]
    exact hscheme _ (by decide) hmatch

/-- Every match has a colon and no shortened url has one, so a text with
matches does not equal the text in which they are replaced. -/
theorem findAllString_eq_nil_of_replaced {random : ℕ → Draws}
    {text : String}
    (hreplaced : Replaced text
      (UploadUrls random (findAllString urlRe text)) text) :
    findAllString urlRe text = [] := by
  obtain ⟨shortened, hpairs, htext⟩ := hreplaced
  obtain ⟨hlength, hpairs⟩ := List.forall₂_iff_get.mp hpairs
  have hmatches : ∀ chars, .found chars ∈ segments urlRe text →
      ':' ∈ chars := by
    intro chars hmem
    obtain ⟨rest, hmatch, rfl⟩ := exists_match_of_mem_scan hmem
    exact colon_mem_of_urlRe hmatch
  have hshort : ∀ short ∈ shortened, ':' ∉ short.toList := by
    intro short hmem
    obtain ⟨i, hi, rfl⟩ := List.mem_iff_getElem.mp hmem
    exact colon_not_mem_shortenedUrl (hpairs i (hlength ▸ hi) hi)
  have hcount := count_substitute_le hmatches hshort hlength.symm
  rw [← htext, flatMap_chars_segments] at hcount
  apply List.length_eq_zero_iff.mp
  omega

/-- The matches are replaced in the uploaded text only when there are
none. -/
theorem uploadText_replaced_iff (random : ℕ → Draws) (text : String) :
    (∃ uploads, UploadText random text = some uploads ∧
      Replaced text uploads.urls uploads.text) ↔
        findAllString urlRe text = [] := by
  simp only [uploadText_eq, Option.some.injEq, exists_eq_left']
  constructor
  · exact findAllString_eq_nil_of_replaced
  · intro hnone
    refine ⟨[], ?_, ?_⟩
    · rw [hnone]
      exact .nil
    · rw [substitute_nil, flatMap_chars_segments]

def sampleRandom : ℕ → Draws := fun _ _ => ⟨0, by decide +kernel⟩

/-- A url stays as it is in the text. -/
theorem not_uploadText_replaced :
    ¬ ∀ (random : ℕ → Draws) (text : String),
      ((UploadUrls random (findAllString urlRe text)).map
        URL.shortenedUrl).Nodup →
      ∃ uploads, UploadText random text = some uploads ∧
        Replaced text uploads.urls uploads.text := by
  intro hclaim
  have hmatches : findAllString urlRe "see http://a" = ["http://a"] := by
    decide +kernel
  have hnodup : ((UploadUrls sampleRandom
      (findAllString urlRe "see http://a")).map URL.shortenedUrl).Nodup := by
    rw [hmatches]
    exact List.nodup_singleton _
  obtain ⟨uploads, hupload, hreplaced⟩ :=
    hclaim sampleRandom "see http://a" hnodup
  rw [uploadText_eq, Option.some.injEq] at hupload
  subst hupload
  have hnone := findAllString_eq_nil_of_replaced hreplaced
  rw [hmatches] at hnone
  cases hnone

end SocialNetwork.TextService
