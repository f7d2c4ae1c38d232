import Mathlib.Tactic

/-!
# Strings and leftmost matches

The functions of Go's `strings` and the `FindAllString` of its `regexp`.  A
pattern says how long its match at the beginning of a text is, where zero
means none; matches are taken from the left, without overlap.
-/

namespace SocialNetwork.Strings

/-- `strings.TrimPrefix`. -/
def trimPrefix (text lead : String) : String :=
  if lead.toList <+: text.toList then
    String.ofList (text.toList.drop lead.toList.length)
  else text

/-- `strings.TrimSuffix`. -/
def trimSuffix (text trail : String) : String :=
  if trail.toList <:+ text.toList then
    String.ofList
      (text.toList.take (text.toList.length - trail.toList.length))
  else text

/-- `strings.Split` with a separator of one character. -/
def split (text : String) (separator : Char) : List String :=
  (text.toList.splitOn separator).map String.ofList

@[simp] theorem trimPrefix_append (lead text : String) :
    trimPrefix (lead ++ text) lead = text := by
  simp [trimPrefix]

@[simp] theorem trimSuffix_append (text trail : String) :
    trimSuffix (text ++ trail) trail = text := by
  simp [trimSuffix]

theorem split_intercalate {pieces : List String} {separator : Char}
    (hpieces : ∀ piece ∈ pieces, separator ∉ piece.toList)
    (hne : pieces ≠ []) :
    split ((String.singleton separator).intercalate pieces) separator =
      pieces := by
  have hchars : ∀ chars ∈ pieces.map String.toList, separator ∉ chars := by
    intro chars hmem
    obtain ⟨piece, hpiece, rfl⟩ := List.mem_map.mp hmem
    exact hpieces piece hpiece
  have hne' : pieces.map String.toList ≠ [] := by simpa using hne
  rw [split, String.toList_intercalate, String.toList_singleton,
    List.splitOn_intercalate separator hchars hne', List.map_map]
  simp [Function.comp_def]

/-! ## Patterns -/

abbrev Pattern := List Char → ℕ

/-- A literal and then one character or more of a class. -/
def literalThen (literal : List Char) (charClass : Char → Bool) : Pattern :=
  fun text =>
    let chars := (text.drop literal.length).takeWhile charClass
    if literal <+: text ∧ chars ≠ [] then literal.length + chars.length else 0

/-- The first alternative that matches. -/
def alternative (first second : Pattern) : Pattern :=
  fun text => if first text ≠ 0 then first text else second text

inductive Segment where
  | plain (c : Char)
  | found (chars : List Char)
  deriving DecidableEq, Repr

def Segment.chars : Segment → List Char
  | .plain c => [c]
  | .found chars => chars

def Segment.isMatch : Segment → Option String
  | .plain _ => none
  | .found chars => some (String.ofList chars)

/-- The matches and what is between them; the fuel bounds their number. -/
def scan (pattern : Pattern) : ℕ → List Char → List Segment
  | 0, _ => []
  | _ + 1, [] => []
  | fuel + 1, c :: text =>
      let length := pattern (c :: text)
      if length = 0 then .plain c :: scan pattern fuel text
      else .found ((c :: text).take length) ::
        scan pattern fuel ((c :: text).drop length)

def segments (pattern : Pattern) (text : String) : List Segment :=
  scan pattern text.toList.length text.toList

def findAllString (pattern : Pattern) (text : String) : List String :=
  (segments pattern text).filterMap Segment.isMatch

theorem flatMap_chars_scan (pattern : Pattern) {fuel : ℕ} {text : List Char}
    (hfuel : text.length ≤ fuel) :
    (scan pattern fuel text).flatMap Segment.chars = text := by
  induction fuel generalizing text with
  | zero =>
      obtain rfl := List.length_eq_zero_iff.mp (Nat.le_zero.mp hfuel)
      rfl
  | succ fuel ih =>
      cases text with
      | nil => rfl
      | cons c text =>
          simp only [scan]
          split
          next =>
            have hrest := ih (Nat.le_of_succ_le_succ hfuel)
            rw [List.flatMap_cons, hrest]
            rfl
          next hlength =>
            have hdrop : ((c :: text).drop (pattern (c :: text))).length ≤
                fuel := by
              rw [List.length_drop]
              omega
            rw [List.flatMap_cons, ih hdrop]
            exact List.take_append_drop _ _

theorem flatMap_chars_segments (pattern : Pattern) (text : String) :
    (segments pattern text).flatMap Segment.chars = text.toList :=
  flatMap_chars_scan pattern le_rfl

/-- What is found is a match at the beginning of some text. -/
theorem exists_match_of_mem_scan {pattern : Pattern} {fuel : ℕ}
    {text chars : List Char} (hmem : .found chars ∈ scan pattern fuel text) :
    ∃ rest, pattern rest ≠ 0 ∧ chars = rest.take (pattern rest) := by
  induction fuel generalizing text with
  | zero => cases hmem
  | succ fuel ih =>
      cases text with
      | nil => cases hmem
      | cons c text =>
          simp only [scan] at hmem
          split at hmem
          next =>
            rcases List.mem_cons.mp hmem with heq | hmem
            · cases heq
            · exact ih hmem
          next hlength =>
            rcases List.mem_cons.mp hmem with heq | hmem
            · rw [Segment.found.injEq] at heq
              exact ⟨c :: text, hlength, heq⟩
            · exact ih hmem

theorem isPrefix_take_literalThen {literal : List Char}
    {charClass : Char → Bool} {text : List Char}
    (hmatch : literalThen literal charClass text ≠ 0) :
    literal <+: text.take (literalThen literal charClass text) := by
  unfold literalThen at hmatch ⊢
  simp only at hmatch ⊢
  split at hmatch
  next hcond =>
    rw [if_pos hcond]
    exact List.prefix_take_iff.mpr ⟨hcond.1, Nat.le_add_right _ _⟩
  next => exact absurd rfl hmatch

/-! ## Replacing matches -/

def literal (chars : List Char) : Pattern :=
  fun text => if chars <+: text then chars.length else 0

/-- `strings.ReplaceAll` for a nonempty `old`. -/
def replaceAll (text old new : String) : String :=
  String.ofList ((segments (literal old.toList) text).flatMap fun
    | .plain c => [c]
    | .found _ => new.toList)

/-- The text in which the matches have been replaced in turn. -/
def substitute : List Segment → List String → List Char
  | [], _ => []
  | .plain c :: rest, replacements => c :: substitute rest replacements
  | .found chars :: rest, [] => chars ++ substitute rest []
  | .found _ :: rest, replacement :: replacements =>
      replacement.toList ++ substitute rest replacements

theorem substitute_nil (segments : List Segment) :
    substitute segments [] = segments.flatMap Segment.chars := by
  induction segments with
  | nil => rfl
  | cons segment rest ih =>
      cases segment with
      | plain c => rw [substitute, ih, List.flatMap_cons]; rfl
      | found chars => rw [substitute, ih, List.flatMap_cons]; rfl

/-- When all matches are replaced, a character that is in every match and in
no replacement remains only between the matches. -/
theorem count_substitute_le {segments : List Segment}
    {replacements : List String} {c : Char}
    (hmatches : ∀ chars, .found chars ∈ segments → c ∈ chars)
    (hreplacements : ∀ text ∈ replacements, c ∉ text.toList)
    (hlength : replacements.length =
      (segments.filterMap Segment.isMatch).length) :
    (substitute segments replacements).count c + replacements.length ≤
      (segments.flatMap Segment.chars).count c := by
  induction segments generalizing replacements with
  | nil =>
      obtain rfl := List.length_eq_zero_iff.mp hlength
      simp [substitute]
  | cons segment rest ih =>
      have hrest : ∀ chars, .found chars ∈ rest → c ∈ chars :=
        fun chars hmem => hmatches chars (List.mem_cons_of_mem _ hmem)
      cases segment with
      | plain d =>
          have hle := ih hrest hreplacements hlength
          rw [substitute, List.flatMap_cons, List.count_append,
            List.count_cons]
          simp only [Segment.chars, List.count_singleton]
          omega
      | found chars =>
          cases replacements with
          | nil => simp [Segment.isMatch] at hlength
          | cons replacement replacements =>
              have hle := ih hrest
                (fun text hmem => hreplacements text
                  (List.mem_cons_of_mem _ hmem))
                (by simpa [Segment.isMatch] using hlength)
              have hzero : replacement.toList.count c = 0 :=
                List.count_eq_zero.mpr
                  (hreplacements replacement List.mem_cons_self)
              have hpos : 0 < chars.count c :=
                List.count_pos_iff.mpr (hmatches chars List.mem_cons_self)
              rw [substitute, List.flatMap_cons, List.count_append,
                List.count_append, hzero, List.length_cons]
              simp only [Segment.chars]
              omega

end SocialNetwork.Strings
