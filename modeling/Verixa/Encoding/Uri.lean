import Mathlib.Data.List.TakeWhile
import Mathlib.Tactic

/-!
# Splitting a URI

The components of a URI reference by the generic syntax, and the authority that a browser reads,
which takes a backslash for a slash, any number of slashes for two, and no notice of tabs and line
ends.  `splitUri_of_authority` and `browserAuthority_of_authority` say what becomes of a scheme, an
authority and a target that are put one behind the other.
-/

namespace Encoding

/-- The components of a URI reference. -/
structure UriComponents where
  scheme : Option (List Char)
  authority : Option (List Char)
  path : List Char
  query : Option (List Char)
  fragment : Option (List Char)

/-- The path, and the query behind it. -/
def UriComponents.pathAndQuery (components : UriComponents) : List Char :=
  components.path ++ components.query.elim [] fun query => '?' :: query

/-- What ends a scheme. -/
def endsScheme (c : Char) : Bool := c == ':' || c == '/' || c == '?' || c == '#'

/-- What ends an authority. -/
def endsAuthority (c : Char) : Bool := c == '/' || c == '?' || c == '#'

/-- What ends a path. -/
def endsPath (c : Char) : Bool := c == '?' || c == '#'

/-- The scheme, if there is one, and the text behind its colon. -/
def readScheme (text : List Char) : Option (List Char) × List Char :=
  let scheme := text.takeWhile (!endsScheme ·)
  match text.dropWhile (!endsScheme ·) with
  | [] => (none, text)
  | c :: rest => if c = ':' ∧ scheme ≠ [] then (some scheme, rest) else (none, text)

/-- The authority, if there is one, and the text behind it. -/
def readAuthority (text : List Char) : Option (List Char) × List Char :=
  if ['/', '/'].isPrefixOf text then
    (some ((text.drop 2).takeWhile (!endsAuthority ·)), (text.drop 2).dropWhile (!endsAuthority ·))
  else (none, text)

/-- The query, if there is one, and the text behind it. -/
def readQuery (text : List Char) : Option (List Char) × List Char :=
  if text.head? = some '?' then
    (some (text.tail.takeWhile (· ≠ '#')), text.tail.dropWhile (· ≠ '#'))
  else (none, text)

/-- The components of a URI reference. -/
def splitUri (text : List Char) : UriComponents :=
  let (scheme, text) := readScheme text
  let (authority, text) := readAuthority text
  let (query, rest) := readQuery (text.dropWhile (!endsPath ·))
  { scheme := scheme
    authority := authority
    path := text.takeWhile (!endsPath ·)
    query := query
    fragment := if rest.head? = some '#' then some rest.tail else none }

/-- A slash, as a browser sees it. -/
def isSlash (c : Char) : Bool := c == '/' || c == '\\'

/-- What a browser takes out of a URI. -/
def isTabOrLineEnd (c : Char) : Bool := c == '\t' || c == '\n' || c == '\r'

/-- The authority that a browser reads behind a scheme of the web. -/
def browserAuthority (text : List Char) : List Char :=
  ((readScheme (text.filter (!isTabOrLineEnd ·))).2.dropWhile isSlash).takeWhile fun c => !isSlash c && !endsPath c

/-- Up to a fragment there are the path and the query. -/
theorem takeWhile_path_append_query (text : List Char) :
    text.takeWhile (!endsPath ·) ++
        (readQuery (text.dropWhile (!endsPath ·))).1.elim [] (fun query => '?' :: query) =
      text.takeWhile (· ≠ '#') := by
  induction text with
  | nil => rfl
  | cons c text ih =>
    by_cases hpath : endsPath c = true
    · rw [List.takeWhile_cons_of_neg (by simp [hpath]), List.dropWhile_cons_of_neg (by simp [hpath]),
        List.nil_append]
      have hc : c = '?' ∨ c = '#' := by simpa [endsPath] using hpath
      rcases hc with rfl | rfl
      · rw [List.takeWhile_cons_of_pos (by decide)]
        rfl
      · rw [List.takeWhile_cons_of_neg (by decide)]
        rfl
    · have hother : ¬ c = '#' := by
        rintro rfl
        exact hpath rfl
      rw [List.takeWhile_cons_of_pos (by simp [hpath]), List.dropWhile_cons_of_pos (by simp [hpath]),
        List.takeWhile_cons_of_pos (by simp [hother]), List.cons_append, ih]

section Parts

variable {scheme authority target : List Char}

/-- A scheme and its colon. -/
theorem readScheme_append (hne : scheme ≠ []) (hscheme : ∀ c ∈ scheme, endsScheme c = false)
    (rest : List Char) : readScheme (scheme ++ ':' :: rest) = (some scheme, rest) := by
  have hall : ∀ c ∈ scheme, (!endsScheme c) = true := by
    intro c hc
    rw [hscheme c hc]
    rfl
  have htake : (scheme ++ ':' :: rest).takeWhile (!endsScheme ·) = scheme := by
    rw [List.takeWhile_append_of_pos hall, List.takeWhile_cons_of_neg (by decide), List.append_nil]
  have hdrop : (scheme ++ ':' :: rest).dropWhile (!endsScheme ·) = ':' :: rest := by
    rw [List.dropWhile_append_of_pos hall, List.dropWhile_cons_of_neg (by decide)]
  simp only [readScheme, htake, hdrop]
  exact if_pos ⟨trivial, hne⟩

/-- An authority between two slashes and a target that begins with one. -/
theorem readAuthority_append (hauthority : ∀ c ∈ authority, endsAuthority c = false) :
    readAuthority ('/' :: '/' :: (authority ++ '/' :: target)) =
      (some authority, '/' :: target) := by
  have hall : ∀ c ∈ authority, (!endsAuthority c) = true := by
    intro c hc
    rw [hauthority c hc]
    rfl
  have hslashes : ['/', '/'].isPrefixOf ('/' :: '/' :: (authority ++ '/' :: target)) = true := by
    simp [List.isPrefixOf]
  rw [readAuthority, if_pos hslashes, List.drop_succ_cons, List.drop_succ_cons, List.drop_zero,
    List.takeWhile_append_of_pos hall, List.takeWhile_cons_of_neg (by decide), List.append_nil,
    List.dropWhile_append_of_pos hall, List.dropWhile_cons_of_neg (by decide)]

/-- A scheme, an authority and a target are found again, the target up to its fragment. -/
theorem splitUri_of_authority (hne : scheme ≠ []) (hscheme : ∀ c ∈ scheme, endsScheme c = false)
    (hauthority : ∀ c ∈ authority, endsAuthority c = false) :
    (splitUri (scheme ++ ':' :: '/' :: '/' :: (authority ++ '/' :: target))).scheme =
        some scheme ∧
      (splitUri (scheme ++ ':' :: '/' :: '/' :: (authority ++ '/' :: target))).authority =
        some authority ∧
      (splitUri (scheme ++ ':' :: '/' :: '/' :: (authority ++ '/' :: target))).pathAndQuery =
        ('/' :: target).takeWhile (· ≠ '#') := by
  simp only [splitUri, readScheme_append hne hscheme, readAuthority_append hauthority,
    UriComponents.pathAndQuery, takeWhile_path_append_query, and_self]

/-- A browser reads the authority, if nothing in it is a slash for a browser or is taken out. -/
theorem browserAuthority_of_authority (hne : scheme ≠ [])
    (hscheme : ∀ c ∈ scheme, endsScheme c = false ∧ isTabOrLineEnd c = false)
    (hnonempty : authority ≠ [])
    (hauthority : ∀ c ∈ authority,
      isSlash c = false ∧ endsPath c = false ∧ isTabOrLineEnd c = false) :
    browserAuthority (scheme ++ ':' :: '/' :: '/' :: (authority ++ '/' :: target)) =
      authority := by
  have hscheme' : scheme.filter (!isTabOrLineEnd ·) = scheme := by
    refine List.filter_eq_self.mpr fun c hc => ?_
    rw [(hscheme c hc).2]
    rfl
  have hauthority' : authority.filter (!isTabOrLineEnd ·) = authority := by
    refine List.filter_eq_self.mpr fun c hc => ?_
    rw [(hauthority c hc).2.2]
    rfl
  have hfilter : (scheme ++ ':' :: '/' :: '/' :: (authority ++ '/' :: target)).filter
      (!isTabOrLineEnd ·) =
      scheme ++ ':' :: '/' :: '/' :: (authority ++ '/' :: target.filter (!isTabOrLineEnd ·)) := by
    rw [List.filter_append, hscheme', List.filter_cons_of_pos (by decide),
      List.filter_cons_of_pos (by decide), List.filter_cons_of_pos (by decide),
      List.filter_append, hauthority', List.filter_cons_of_pos (by decide)]
  have hall : ∀ c ∈ authority, (!isSlash c && !endsPath c) = true := by
    intro c hc
    rw [(hauthority c hc).1, (hauthority c hc).2.1]
    rfl
  have hslashes : ('/' :: '/' :: (authority ++ '/' :: target.filter (!isTabOrLineEnd ·))).dropWhile
      isSlash = authority ++ '/' :: target.filter (!isTabOrLineEnd ·) := by
    obtain ⟨first, others, rfl⟩ := List.exists_cons_of_ne_nil hnonempty
    have hfirst : ¬ isSlash first = true := by
      rw [(hauthority first List.mem_cons_self).1]
      exact Bool.false_ne_true
    rw [List.dropWhile_cons_of_pos (by decide), List.dropWhile_cons_of_pos (by decide),
      List.cons_append, List.dropWhile_cons_of_neg hfirst]
  rw [browserAuthority, hfilter, readScheme_append hne fun c hc => (hscheme c hc).1, hslashes,
    List.takeWhile_append_of_pos hall, List.takeWhile_cons_of_neg (by decide), List.append_nil]

end Parts

end Encoding
