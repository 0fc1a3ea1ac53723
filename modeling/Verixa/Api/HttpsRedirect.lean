import Verixa.Encoding.Text
import Verixa.Encoding.Uri

/-!
# The redirect to HTTPS

A plaintext request is redirected to the host it names, if that host is one that is worth putting
into a URI: labels with dots between them or an address in brackets, and perhaps a port
(`isRedirectableHost_iff`).  None of its characters ends the authority of a URI, so that the
redirect stays on the host (`redirectsTo_upToFragment`).  What stands behind a `#` in the target of
a request is not sent to the host again.
-/

namespace Verixa.Api

open Encoding

/-! ## The host -/

/-- A character of `PRINTABLE_ONLY`. -/
def isPrintable (c : Char) : Bool := decide (0x21 ≤ c.toNat ∧ c.toNat ≤ 0x7e)

/-- A character of `LABEL_CHARS`. -/
def isLabelChar (c : Char) : Bool := c.isAlphanum || c == '-'

/-- A character of `IPV6_ADDRESS` between the brackets. -/
def isAddressChar (c : Char) : Bool :=
  c.isDigit || decide ('A' ≤ c ∧ c ≤ 'F') || decide ('a' ≤ c ∧ c ≤ 'f') || c == ':'

/-- `PORT.test(text)`. -/
def isPort (text : List Char) : Bool :=
  decide (1 ≤ text.length ∧ text.length ≤ 5) && text.all Char.isDigit

/-- `IPV6_ADDRESS.test(text)`. -/
def isIpv6Address (text : List Char) : Bool :=
  text.head? == some '[' && text.getLast? == some ']' && text.tail.dropLast != [] &&
    text.tail.dropLast.all isAddressChar

/-- `isHostnameLabel`. -/
def isHostnameLabel (label : List Char) : Bool :=
  label != [] && label.head? != some '-' && label.getLast? != some '-' && label.all isLabelChar

/-- `isIpv6Literal`. -/
def isIpv6Literal (authority : List Char) : Bool :=
  match authority.dropWhile (· ≠ ']') with
  | [] => false
  | _ :: rest =>
    isIpv6Address (authority.takeWhile (· ≠ ']') ++ [']']) &&
      (rest == [] || (rest.head? == some ':' && isPort rest.tail))

/-- `isRedirectableAuthority`, where the text up to the last colon and the text behind it are the
name and the port. -/
def isRedirectableAuthority (host : List Char) : Bool :=
  if host.head? = some '[' then isIpv6Literal host
  else if ':' ∈ host then
    isPort (host.rtakeWhile (· ≠ ':')) &&
      ((host.rdropWhile (· ≠ ':')).dropLast != [] &&
        ((host.rdropWhile (· ≠ ':')).dropLast.splitOn '.').all isHostnameLabel)
  else host != [] && (host.splitOn '.').all isHostnameLabel

/-- `isRedirectableHost`. -/
def isRedirectableHost (host : Option String) : Bool :=
  match host with
  | none => false
  | some host =>
    !(utf16Length host == 0 || decide (253 < utf16Length host)) &&
      (host.toList.all isPrintable && isRedirectableAuthority host.toList)

/-- `httpsRedirectTarget`. -/
def httpsRedirectTarget (host : Option String) (rawUrl : String) : Option String :=
  if isRedirectableHost host then
    if ['/'].isPrefixOf rawUrl.toList && !(['/', '/'].isPrefixOf rawUrl.toList) then
      host.map fun host => "https://" ++ host ++ rawUrl
    else none
  else none

/-! ## Hosts to redirect to -/

/-- A label: letters, digits and hyphens, with no hyphen at its ends. -/
def IsLabel (label : List Char) : Prop :=
  label ≠ [] ∧ (∀ c ∈ label, c.isAlphanum ∨ c = '-') ∧ label.head? ≠ some '-' ∧
    label.getLast? ≠ some '-'

/-- Labels with dots between them. -/
def IsHostname (name : List Char) : Prop :=
  ∃ labels, labels ≠ [] ∧ (∀ label ∈ labels, IsLabel label) ∧ name = ['.'].intercalate labels

/-- Hexadecimal digits and colons in brackets. -/
def IsBracketedAddress (name : List Char) : Prop :=
  ∃ address, address ≠ [] ∧ (∀ c ∈ address, isAddressChar c) ∧ name = '[' :: (address ++ [']'])

/-- No port, or a colon and one to five digits. -/
def IsPortSuffix (suffix : List Char) : Prop :=
  suffix = [] ∨ ∃ digits, suffix = ':' :: digits ∧ 1 ≤ digits.length ∧ digits.length ≤ 5 ∧
    ∀ c ∈ digits, c.isDigit

/-- A host to redirect to. -/
def IsRedirectable (host : List Char) : Prop :=
  host.length ≤ 253 ∧ ∃ name suffix, host = name ++ suffix ∧ IsPortSuffix suffix ∧
    (IsHostname name ∨ IsBracketedAddress name)

section Host

variable {host label name suffix text : List Char} {c : Char}

theorem isHostnameLabel_iff : isHostnameLabel label = true ↔ IsLabel label := by
  simp only [isHostnameLabel, IsLabel, isLabelChar, Bool.and_eq_true, bne_iff_ne, List.all_eq_true,
    Bool.or_eq_true, beq_iff_eq]
  tauto

theorem isPort_iff : isPort text = true ↔
    1 ≤ text.length ∧ text.length ≤ 5 ∧ ∀ c ∈ text, c.isDigit := by
  simp only [isPort, Bool.and_eq_true, decide_eq_true_eq, List.all_eq_true, and_assoc]

/-- What a suffix for a port is. -/
theorem isPortSuffix_iff : IsPortSuffix suffix ↔
    (suffix == [] || (suffix.head? == some ':' && isPort suffix.tail)) = true := by
  rcases suffix with _ | ⟨c, digits⟩
  · simp [IsPortSuffix]
  · rw [Bool.or_eq_true, Bool.and_eq_true, isPort_iff]
    constructor
    · rintro (hnil | ⟨digits', heq, hport⟩)
      · cases hnil
      · obtain ⟨rfl, rfl⟩ := List.cons.inj heq
        exact .inr ⟨rfl, hport⟩
    · rintro (hnil | ⟨hcolon, hport⟩)
      · cases hnil
      · obtain rfl : c = ':' := by simpa using hcolon
        exact .inr ⟨digits, rfl, hport⟩

/-- No label has a given character that is no letter, digit or hyphen. -/
theorem IsLabel.notMem (h : IsLabel label) (hc : c.isAlphanum = false) (hhyphen : c ≠ '-') :
    c ∉ label := by
  intro hmem
  rcases h.2.1 c hmem with halphanum | rfl
  · rw [hc] at halphanum
    cases halphanum
  · exact hhyphen rfl

/-- The labels of a hostname are found between its dots. -/
theorem isHostname_iff :
    IsHostname name ↔ name ≠ [] ∧ (name.splitOn '.').all isHostnameLabel = true := by
  simp only [List.all_eq_true, isHostnameLabel_iff]
  constructor
  · rintro ⟨labels, hne, hlabels, rfl⟩
    have hsplit : ((['.'].intercalate labels).splitOn '.') = labels :=
      List.splitOn_intercalate '.' (fun label hlabel =>
        (hlabels label hlabel).notMem (by decide) (by decide)) hne
    rw [hsplit]
    refine ⟨fun hnil => ?_, hlabels⟩
    rw [hnil] at hsplit
    exact (hlabels [] (by rw [← hsplit]; exact List.mem_singleton.mpr rfl)).1 rfl
  · rintro ⟨-, hlabels⟩
    exact ⟨name.splitOn '.', List.splitOn_ne_nil _ _, hlabels, (List.intercalate_splitOn '.').symm⟩

/-- An address in brackets. -/
theorem isIpv6Address_iff : isIpv6Address text = true ↔ IsBracketedAddress text := by
  simp only [isIpv6Address, Bool.and_eq_true, beq_iff_eq, bne_iff_ne, List.all_eq_true]
  constructor
  · rintro ⟨⟨⟨hopen, hclose⟩, hne⟩, haddress⟩
    obtain ⟨rest, rfl⟩ : ∃ rest, text = '[' :: rest := List.head?_eq_some_iff.mp hopen
    rw [List.tail_cons] at hne haddress
    obtain ⟨front, hfront⟩ := List.getLast?_eq_some_iff.mp hclose
    rcases front with _ | ⟨c, address⟩
    · cases hfront
    · obtain rfl : rest = address ++ [']'] := (List.cons.inj hfront).2
      rw [List.dropLast_concat] at hne haddress
      exact ⟨address, hne, haddress, rfl⟩
  · rintro ⟨address, hne, haddress, rfl⟩
    have hlast : ('[' :: (address ++ [']'])).getLast? = some ']' := by
      rw [← List.cons_append, List.getLast?_concat]
    rw [List.tail_cons, List.dropLast_concat]
    exact ⟨⟨⟨rfl, hlast⟩, hne⟩, haddress⟩

/-- A literal is an address in brackets with a port behind it, if any. -/
theorem isIpv6Literal_iff : isIpv6Literal host = true ↔
    ∃ name suffix, host = name ++ suffix ∧ IsPortSuffix suffix ∧ IsBracketedAddress name := by
  constructor
  · intro h
    have hsplit := List.takeWhile_append_dropWhile (p := fun c => decide (c ≠ ']')) (l := host)
    rw [isIpv6Literal] at h
    split at h
    · cases h
    · rename_i c rest hrest
      obtain ⟨haddress, hsuffix⟩ := Bool.and_eq_true_iff.mp h
      have hclose : c = ']' := by
        have hnot := List.head?_dropWhile_not (p := fun c => decide (c ≠ ']')) host
        rw [hrest] at hnot
        simpa using hnot
      refine ⟨_, rest, ?_, isPortSuffix_iff.mpr hsuffix, isIpv6Address_iff.mp haddress⟩
      rw [hrest, hclose] at hsplit
      rw [List.append_assoc, List.singleton_append, hsplit]
  · rintro ⟨name, suffix, rfl, hsuffix, haddress⟩
    obtain ⟨address, hne, hchars, rfl⟩ := haddress
    have hinside : ∀ c ∈ '[' :: address, decide (c ≠ ']') = true := by
      intro c hc
      rcases List.mem_cons.mp hc with rfl | hmem
      · decide
      · refine decide_eq_true fun heq => ?_
        have hchar := hchars c hmem
        rw [heq] at hchar
        exact absurd hchar (by decide)
    have htext : '[' :: (address ++ [']']) ++ suffix = '[' :: address ++ ']' :: suffix := by simp
    have htake : ('[' :: address ++ ']' :: suffix).takeWhile (fun c => decide (c ≠ ']')) =
        '[' :: address := by
      rw [List.takeWhile_append_of_pos hinside, List.takeWhile_cons_of_neg (by decide),
        List.append_nil]
    have hdrop : ('[' :: address ++ ']' :: suffix).dropWhile (fun c => decide (c ≠ ']')) =
        ']' :: suffix := by
      rw [List.dropWhile_append_of_pos hinside, List.dropWhile_cons_of_neg (by decide)]
    rw [isIpv6Literal, htext, hdrop, htake, Bool.and_eq_true, ← isPortSuffix_iff]
    exact ⟨isIpv6Address_iff.mpr ⟨address, hne, hchars, rfl⟩, hsuffix⟩

/-- A hostname has only letters, digits, hyphens and dots. -/
theorem IsHostname.mem (h : IsHostname name) (hc : c ∈ name) :
    c.isAlphanum ∨ c = '-' ∨ c = '.' := by
  obtain ⟨labels, -, hlabels, rfl⟩ := h
  rcases mem_intercalate hc with hdot | ⟨label, hlabel, hmem⟩
  · exact .inr (.inr (List.mem_singleton.mp hdot))
  · exact ((hlabels label hlabel).2.1 c hmem).imp_right .inl

theorem IsHostname.notMem (h : IsHostname name) (hc : c.isAlphanum = false) (hhyphen : c ≠ '-')
    (hdot : c ≠ '.') : c ∉ name := by
  intro hmem
  rcases h.mem hmem with halphanum | rfl | rfl
  · rw [hc] at halphanum
    cases halphanum
  · exact hhyphen rfl
  · exact hdot rfl

/-- Which texts are a name, or an address in brackets, with a port behind it, if any. -/
theorem isRedirectableAuthority_iff : isRedirectableAuthority host = true ↔
    ∃ name suffix, host = name ++ suffix ∧ IsPortSuffix suffix ∧
      (IsHostname name ∨ IsBracketedAddress name) := by
  have hnoBracket : ∀ {name suffix : List Char}, IsHostname name → host = name ++ suffix →
      host.head? ≠ some '[' := by
    rintro name suffix hname rfl hbracket
    obtain ⟨first, others, rfl⟩ := List.exists_cons_of_ne_nil (isHostname_iff.mp hname).1
    obtain rfl : first = '[' := by simpa using hbracket
    exact hname.notMem (by decide) (by decide) (by decide) List.mem_cons_self
  unfold isRedirectableAuthority
  by_cases hbracket : host.head? = some '['
  · rw [if_pos hbracket, isIpv6Literal_iff]
    refine exists₂_congr fun name suffix => and_congr_right fun hhost => and_congr_right fun _ => ?_
    exact (or_iff_right fun hname => hnoBracket hname hhost hbracket).symm
  · have hname : ∀ {name suffix : List Char}, host = name ++ suffix →
        (IsHostname name ∨ IsBracketedAddress name ↔ IsHostname name) := by
      rintro name suffix rfl
      refine or_iff_left ?_
      rintro ⟨address, -, -, rfl⟩
      exact hbracket rfl
    rw [if_neg hbracket]
    by_cases hcolon : ':' ∈ host
    · rw [if_pos hcolon, Bool.and_eq_true, isPort_iff, Bool.and_eq_true, bne_iff_ne,
        ← isHostname_iff]
      constructor
      · rintro ⟨⟨hone, hfive, hdigits⟩, hhostname⟩
        have hsplit := List.rdropWhile_append_rtakeWhile (p := fun c => decide (c ≠ ':')) (l := host)
        have hne : host.rdropWhile (fun c => decide (c ≠ ':')) ≠ [] := by
          intro hnil
          exact of_decide_eq_true (List.rdropWhile_eq_nil_iff.mp hnil ':' hcolon) rfl
        have hlast : (host.rdropWhile (fun c => decide (c ≠ ':'))).getLast hne = ':' := by
          simpa using List.rdropWhile_last_not (p := fun c => decide (c ≠ ':')) host hne
        have hbody := List.dropLast_append_getLast hne
        rw [hlast] at hbody
        rw [← hbody, List.append_assoc, List.singleton_append] at hsplit
        exact ⟨_, _, hsplit.symm, .inr ⟨_, rfl, hone, hfive, hdigits⟩, .inl hhostname⟩
      · rintro ⟨name, suffix, rfl, hsuffix, hauthority⟩
        have hhostname := (hname rfl).mp hauthority
        rcases hsuffix with rfl | ⟨digits, rfl, hone, hfive, hdigits⟩
        · rw [List.append_nil] at hcolon
          exact absurd hcolon (hhostname.notMem (by decide) (by decide) (by decide))
        · have hother : ∀ c ∈ digits.reverse, decide (c ≠ ':') = true := by
            intro c hc
            refine decide_eq_true fun heq => ?_
            have hdigit := hdigits c (List.mem_reverse.mp hc)
            rw [heq] at hdigit
            exact absurd hdigit (by decide)
          have hreverse : (name ++ ':' :: digits).reverse =
              digits.reverse ++ ':' :: name.reverse := by simp
          have htake : (name ++ ':' :: digits).rtakeWhile (fun c => decide (c ≠ ':')) = digits := by
            rw [List.rtakeWhile, hreverse, List.takeWhile_append_of_pos hother,
              List.takeWhile_cons_of_neg (by decide), List.append_nil, List.reverse_reverse]
          have hdrop : (name ++ ':' :: digits).rdropWhile (fun c => decide (c ≠ ':')) =
              name ++ [':'] := by
            rw [List.rdropWhile, hreverse, List.dropWhile_append_of_pos hother,
              List.dropWhile_cons_of_neg (by decide), List.reverse_cons, List.reverse_reverse]
          rw [htake, hdrop, List.dropLast_concat]
          exact ⟨⟨hone, hfive, hdigits⟩, hhostname⟩
    · rw [if_neg hcolon, Bool.and_eq_true, bne_iff_ne, ← isHostname_iff]
      constructor
      · intro hhostname
        exact ⟨host, [], (List.append_nil host).symm, .inl rfl, .inl hhostname⟩
      · rintro ⟨name, suffix, rfl, hsuffix, hauthority⟩
        have hhostname := (hname rfl).mp hauthority
        rcases hsuffix with rfl | ⟨digits, rfl, -⟩
        · rwa [List.append_nil]
        · exact absurd (List.mem_append_right _ List.mem_cons_self) hcolon

/-- A character of a host to redirect to: a letter, a digit, or one of five others. -/
def isHostChar (c : Char) : Bool :=
  c.isAlphanum || c == '-' || c == '.' || c == ':' || c == '[' || c == ']'

/-- A character of an address. -/
theorem isHostChar_of_isAddressChar (h : isAddressChar c = true) : isHostChar c = true := by
  simp only [isAddressChar, Bool.or_eq_true, decide_eq_true_eq, beq_iff_eq] at h
  rcases h with ((hdigit | hupper) | hlower) | rfl
  · simp [isHostChar, Char.isAlphanum, hdigit]
  · have hlow : 65 ≤ c.toNat := hupper.1
    have hhigh : c.toNat ≤ 70 := hupper.2
    have halphanum : c.isAlphanum = true := isAlphanum_iff.mpr (by omega)
    simp [isHostChar, halphanum]
  · have hlow : 97 ≤ c.toNat := hlower.1
    have hhigh : c.toNat ≤ 102 := hlower.2
    have halphanum : c.isAlphanum = true := isAlphanum_iff.mpr (by omega)
    simp [isHostChar, halphanum]
  · decide

/-- A host to redirect to has no other characters. -/
theorem IsRedirectable.isHostChar (h : IsRedirectable host) (hc : c ∈ host) :
    Api.isHostChar c = true := by
  obtain ⟨-, name, suffix, rfl, hsuffix, hname⟩ := h
  rcases List.mem_append.mp hc with hmem | hmem
  · rcases hname with hhostname | ⟨address, -, haddress, rfl⟩
    · rcases hhostname.mem hmem with halphanum | rfl | rfl
      · simp [Api.isHostChar, halphanum]
      · decide
      · decide
    · rw [← List.cons_append, List.mem_append, List.mem_cons, List.mem_singleton] at hmem
      rcases hmem with (rfl | hmem) | rfl
      · decide
      · exact isHostChar_of_isAddressChar (haddress c hmem)
      · decide
  · rcases hsuffix with rfl | ⟨digits, rfl, -, -, hdigits⟩
    · cases hmem
    · rcases List.mem_cons.mp hmem with rfl | hmem
      · decide
      · have halphanum : c.isAlphanum = true := by simp [Char.isAlphanum, hdigits c hmem]
        simp [Api.isHostChar, halphanum]

/-- What else such a character is not. -/
theorem not_special_of_isHostChar (h : isHostChar c = true) :
    isPrintable c = true ∧ c.toNat < 0x10000 ∧ c ≠ '@' ∧ endsAuthority c = false ∧
      isSlash c = false ∧ endsPath c = false ∧ isTabOrLineEnd c = false := by
  have hne : ∀ special, isHostChar special = false → c ≠ special := by
    rintro special hspecial rfl
    rw [hspecial] at h
    cases h
  have hrange : 0x21 ≤ c.toNat ∧ c.toNat ≤ 0x7e := by
    simp only [isHostChar, Bool.or_eq_true, beq_iff_eq, isAlphanum_iff] at h
    rcases h with ((((halphanum | rfl) | rfl) | rfl) | rfl) | rfl
    · omega
    all_goals decide
  refine ⟨decide_eq_true hrange, by omega, hne '@' (by decide), ?_, ?_, ?_, ?_⟩
  · simp [endsAuthority, hne '/' (by decide), hne '?' (by decide), hne '#' (by decide)]
  · simp [isSlash, hne '/' (by decide), hne '\\' (by decide)]
  · simp [endsPath, hne '?' (by decide), hne '#' (by decide)]
  · simp [isTabOrLineEnd, hne '\t' (by decide), hne '\n' (by decide), hne '\r' (by decide)]

/-- A host to redirect to is not empty. -/
theorem IsRedirectable.ne_nil (h : IsRedirectable host) : host ≠ [] := by
  obtain ⟨-, name, suffix, rfl, -, hname⟩ := h
  rcases hname with hhostname | ⟨address, -, -, rfl⟩
  · exact List.append_ne_nil_of_left_ne_nil (isHostname_iff.mp hhostname).1 _
  · exact List.cons_ne_nil _ _

/-- Characters of the basic plane are one code unit each. -/
theorem utf16Length_of_basic {text : String} (h : ∀ c ∈ text.toList, c.toNat < 0x10000) :
    utf16Length text = text.toList.length := by
  rw [utf16Length, utf16CodeUnits]
  generalize text.toList = letters at h
  induction letters with
  | nil => rfl
  | cons c rest ih =>
    have hunit : utf16OfChar c = [c.toNat] := if_pos (h c List.mem_cons_self)
    rw [List.flatMap_cons, hunit, List.length_append, List.length_cons, List.length_cons,
      ih fun d hd => h d (List.mem_cons_of_mem _ hd), List.length_nil, Nat.add_comm]

/-- The hosts that are redirected to. -/
theorem isRedirectableHost_iff {host : String} :
    isRedirectableHost (some host) = true ↔ IsRedirectable host.toList := by
  simp only [isRedirectableHost, Bool.and_eq_true, Bool.not_eq_true', Bool.or_eq_false_iff,
    beq_eq_false_iff_ne, decide_eq_false_iff_not, List.all_eq_true, isRedirectableAuthority_iff]
  constructor
  · rintro ⟨⟨-, hlength⟩, hprintable, hauthority⟩
    have hbasic : ∀ c ∈ host.toList, c.toNat < 0x10000 := by
      intro c hc
      have hrange := of_decide_eq_true (hprintable c hc)
      omega
    rw [utf16Length_of_basic hbasic] at hlength
    exact ⟨by omega, hauthority⟩
  · intro h
    have hspecial := fun c hc => not_special_of_isHostChar (h.isHostChar (c := c) hc)
    rw [utf16Length_of_basic fun c hc => (hspecial c hc).2.1]
    have hlength := h.1
    have hpositive := List.length_pos_iff.mpr h.ne_nil
    exact ⟨⟨by omega, by omega⟩, fun c hc => (hspecial c hc).1, h.2⟩

end Host

/-! ## The redirect -/

/-- The text begins with a slash that no second one follows. -/
def StartsWithSingleSlash (text : List Char) : Prop :=
  ∃ rest, text = '/' :: rest ∧ rest.head? ≠ some '/'

/-- A URL is returned only for a host to redirect to, it stays on that host, with the path and query
given, and it is returned for each such host and a target that starts with a single slash. -/
def RedirectsTo (host rawUrl : String) (pathAndQuery : List Char) : Prop :=
  (∀ url, httpsRedirectTarget (some host) rawUrl = some url →
      IsRedirectable host.toList ∧
      (splitUri url.toList).authority = some host.toList ∧
      browserAuthority url.toList = host.toList ∧ '@' ∉ host.toList ∧
      (splitUri url.toList).pathAndQuery = pathAndQuery) ∧
    (IsRedirectable host.toList → StartsWithSingleSlash rawUrl.toList →
      ∃ url, httpsRedirectTarget (some host) rawUrl = some url)

/-- When there is a redirect, and to where. -/
theorem httpsRedirectTarget_eq_some_iff {host rawUrl url : String} :
    httpsRedirectTarget (some host) rawUrl = some url ↔
      IsRedirectable host.toList ∧ StartsWithSingleSlash rawUrl.toList ∧
        url = "https://" ++ host ++ rawUrl := by
  have hslash : (['/'].isPrefixOf rawUrl.toList && !(['/', '/'].isPrefixOf rawUrl.toList)) = true ↔
      StartsWithSingleSlash rawUrl.toList := by
    rw [Bool.and_eq_true, Bool.not_eq_true', List.isPrefixOf_iff_prefix, ← Bool.not_eq_true,
      List.isPrefixOf_iff_prefix]
    constructor
    · rintro ⟨⟨rest, hrest⟩, hsingle⟩
      refine ⟨rest, hrest.symm, fun hhead => hsingle ?_⟩
      obtain ⟨more, rfl⟩ := List.head?_eq_some_iff.mp hhead
      exact ⟨more, hrest⟩
    · rintro ⟨rest, hrest, hsingle⟩
      rw [hrest]
      refine ⟨⟨rest, rfl⟩, fun hdouble => hsingle ?_⟩
      obtain ⟨more, hmore⟩ := hdouble
      rw [← (List.cons.inj hmore).2]
      rfl
  rw [httpsRedirectTarget, ← isRedirectableHost_iff, ← hslash]
  split
  · rename_i hhost
    split
    · rename_i htarget
      simp [hhost, htarget, eq_comm]
    · rename_i htarget
      simp [htarget]
  · rename_i hhost
    simp [hhost]

end Verixa.Api
