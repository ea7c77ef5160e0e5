import Gatehouse.Http.Cookie
import Gatehouse.Proofs.Text.Blanks
import Gatehouse.Proofs.Text.Pieces

/-! # The cookie of a session, sent and read again

The cookie that a login sends begins with its name and its token, and neither has a character that stands for
something in a header. A client sends that pair back among others, between blanks, in whatever header. The first
part with the name counts, and so the token is found as long as no part before it has the same name. Headers that
cannot be read have no parts.
-/

namespace Gatehouse.Http

open Gatehouse.Text

/-! ## Printable values -/

variable {s : String}

theorem utf8_of_printable (h : ∀ c ∈ s.toList, IsPrintable c) :
    utf8 s = s.toList.map fun c => UInt8.ofNat c.toNat := by
  have octets := utf8_of_ascii fun c hc => (h c hc).ascii
  rwa [String.ofList_toList] at octets

theorem isReadable_of_isPrintable {c : Char} (h : IsPrintable c) : isReadable (UInt8.ofNat c.toNat) = true := by
  obtain ⟨above, below⟩ := h
  have same : (UInt8.ofNat c.toNat).toNat = c.toNat := by
    rw [UInt8.toNat_ofNat']
    exact Nat.mod_eq_of_lt (by omega)
  have bounds : 0x20 ≤ UInt8.ofNat c.toNat ∧ UInt8.ofNat c.toNat < 0x7F := by
    rw [UInt8.le_iff_toNat_le, UInt8.lt_iff_toNat_lt, same]
    exact ⟨above, Nat.lt_succ_of_le below⟩
  simp [isReadable, bounds]

theorem isSendable_of_isReadable {o : UInt8} (h : isReadable o = true) : isSendable o = true := by
  simp only [isReadable, isSendable, Bool.or_eq_true, Bool.and_eq_true, decide_eq_true_eq, bne_iff_ne] at h ⊢
  rcases h with ⟨above, below⟩ | tab
  · left
    refine ⟨above, ?_⟩
    rintro rfl
    exact absurd below (by decide)
  · exact Or.inr tab

/-- Printable text is read as it was sent. -/
theorem readable?_utf8 (h : ∀ c ∈ s.toList, IsPrintable c) : readable? (utf8 s) = some s.toList := by
  have all_readable : (utf8 s).all isReadable = true := by
    rw [utf8_of_printable h, List.all_map, List.all_eq_true]
    exact fun c hc => isReadable_of_isPrintable (h c hc)
  rw [readable?, if_pos all_readable, utf8_of_printable h, List.map_map]
  congr 1
  have back : ∀ c ∈ s.toList, Char.ofNat (UInt8.ofNat c.toNat).toNat = c := by
    intro c hc
    have ascii := (h c hc).ascii
    rw [UInt8.toNat_ofNat', Nat.mod_eq_of_lt (by omega), Char.ofNat_toNat]
  exact (List.map_congr_left back).trans (List.map_id _)

/-! ## What is sent -/

variable {session : Settings.SessionSection} {token : String}

def pairText (name token : String) : List Char :=
  name.toList ++ '=' :: token.toList

theorem pairText_eq (name token : String) : pairText name token = (name ++ "=" ++ token).toList := by
  simp [pairText]

/-- What follows the pair, attribute by attribute. -/
def attributes (session : Settings.SessionSection) (seconds : Int) : List (List Char) :=
  " Path=/".toList :: (" Max-Age=".toList ++ Decimal.ofInt seconds) ::
    ((if session.cookieSecure then [" Secure".toList] else []) ++
      if session.cookieHttpOnly then [" HttpOnly".toList] else [])

theorem isSafe_of_isCookieName {name : String} (h : Settings.isCookieName name = true) :
    ∀ c ∈ name.toList, isSafe c = true := by
  rw [Settings.isCookieName, Bool.and_eq_true, List.all_eq_true] at h
  exact h.2

theorem isSafe_tokenOf (octets : List UInt8) : ∀ c ∈ (Auth.tokenOf octets).toList, isSafe c = true := by
  rw [Auth.tokenOf, String.toList_ofList]
  exact fun c hc => Base64.isSafe_of_mem_encode hc

theorem cookieText_eq (session : Settings.SessionSection) (token : String) (seconds : Int) :
    (cookieText session token seconds).toList =
      [';'].intercalate (pairText session.cookieName token :: attributes session seconds) := by
  simp only [cookieText, attributes, pairText, String.toList_append, Decimal.intText, String.toList_ofList]
  cases session.cookieSecure <;> cases session.cookieHttpOnly <;> simp [List.intercalate_cons_cons]

theorem isPrintable_cookieText (named : Settings.isCookieName session.cookieName = true)
    (safe : ∀ c ∈ token.toList, isSafe c = true) (seconds : Int) :
    ∀ c ∈ (cookieText session token seconds).toList, IsPrintable c := by
  have between : ∀ c ∈ "; Path=/; Max-Age=".toList, IsPrintable c := isPrintable_of_all (by decide)
  have secure : ∀ c ∈ "; Secure".toList, IsPrintable c := isPrintable_of_all (by decide)
  have httpOnly : ∀ c ∈ "; HttpOnly".toList, IsPrintable c := isPrintable_of_all (by decide)
  intro c hc
  simp only [cookieText, String.toList_append, List.mem_append, Decimal.intText, String.toList_ofList] at hc
  rcases hc with (((((in_name | equals) | in_token) | fixed) | in_seconds) | flag) | flag
  · exact (isVisible_of_isSafe (isSafe_of_isCookieName named c in_name)).isPrintable
  · rw [List.mem_singleton.mp equals]
    decide
  · exact (isVisible_of_isSafe (safe c in_token)).isPrintable
  · exact between c fixed
  · exact (isVisible_of_isSafe (isSafe_of_mem_ofInt in_seconds)).isPrintable
  · split at flag
    · exact secure c flag
    · cases flag
  · split at flag
    · exact httpOnly c flag
    · cases flag

/-- With such a name and such a token the cookie can always be sent. -/
theorem sessionCookie_eq (named : Settings.isCookieName session.cookieName = true)
    (safe : ∀ c ∈ token.toList, isSafe c = true) (seconds : Int) :
    sessionCookie session token seconds = some (cookieText session token seconds) := by
  have sendable : (utf8 (cookieText session token seconds)).all isSendable = true := by
    have printable := isPrintable_cookieText named safe seconds
    rw [utf8_of_printable printable, List.all_map, List.all_eq_true]
    exact fun c hc => isSendable_of_isReadable (isReadable_of_isPrintable (printable c hc))
  rw [sessionCookie, if_pos sendable]

/-- The pair and the attributes are what stands between the semicolons. -/
theorem pieces_cookieText (named : Settings.isCookieName session.cookieName = true)
    (safe : ∀ c ∈ token.toList, isSafe c = true) (seconds : Int) :
    pieces ';' (cookieText session token seconds).toList =
      pairText session.cookieName token :: attributes session seconds := by
  rw [cookieText_eq]
  apply pieces_intercalate _ (List.cons_ne_nil _ _)
  have apart {cs : List Char} (h : ∀ c ∈ cs, isSafe c = true) : ';' ∉ cs := not_mem_of_class h (by decide)
  have pair : ';' ∉ pairText session.cookieName token := by
    rw [pairText, List.mem_append, List.mem_cons, not_or, not_or]
    exact ⟨apart (isSafe_of_isCookieName named), by decide, apart safe⟩
  have maxAge : ';' ∉ " Max-Age=".toList ++ Decimal.ofInt seconds := by
    rw [List.mem_append, not_or]
    exact ⟨by decide, apart fun c hc => isSafe_of_mem_ofInt hc⟩
  intro p hp
  simp only [attributes, List.mem_cons, List.mem_append] at hp
  rcases hp with rfl | rfl | rfl | flag | flag
  · exact pair
  · decide
  · exact maxAge
  · split at flag
    · rw [List.mem_singleton.mp flag]
      decide
    · cases flag
  · split at flag
    · rw [List.mem_singleton.mp flag]
      decide
    · cases flag

/-! ## What is read -/

namespace Headers

/-- The parts of all readable cookie headers, in order. -/
def parts (headers : Headers) : List (List Char) :=
  ((headers.values "cookie").filterMap readable?).flatMap (pieces ';')

/-- What stands before the first equals sign of a part, once blanks have been dropped. -/
def partName? (part : List Char) : Option (List Char) :=
  (cut '=' (trimChars part)).map Prod.fst

variable {headers : Headers} {name : String}

theorem cookies_eq (headers : Headers) :
    headers.cookies = headers.parts.filterMap fun part => cut '=' (trimChars part) :=
  rfl

theorem cookie_eq (headers : Headers) (name : String) :
    headers.cookie name =
      (headers.parts.find? fun part => partName? part = some name.toList).bind fun part =>
        (cut '=' (trimChars part)).bind fun pair => nonEmpty pair.2 := by
  have named : (fun part => (cut '=' (trimChars part)).any fun pair => decide (pair.1 = name.toList)) =
      fun part => decide (partName? part = some name.toList) := by
    funext part
    rw [partName?]
    cases cut '=' (trimChars part) <;> simp
  have looked : headers.cookie name =
      (headers.cookies.find? fun pair => decide (pair.1 = name.toList)).bind fun pair => nonEmpty pair.2 := rfl
  rw [looked, cookies_eq, List.find?_filterMap, named, Option.bind_assoc]

theorem nonEmpty_toList {s : String} (filled : s ≠ "") : nonEmpty s.toList = some s := by
  have some_chars : s.toList ≠ [] := by
    rwa [ne_eq, String.toList_eq_nil_iff]
  rw [nonEmpty, if_neg some_chars, String.ofList_toList]

/-- The first part of the name is what counts. -/
theorem cookie_of_first {before after : List (List Char)} {part : List Char}
    (parts : headers.parts = before ++ part :: after)
    (first : ∀ part ∈ before, partName? part ≠ some name.toList) {value : String} (filled : value ≠ "")
    (pair : cut '=' (trimChars part) = some (name.toList, value.toList)) : headers.cookie name = some value := by
  have this_one : partName? part = some name.toList := by
    rw [partName?, pair]
    rfl
  have none_before : before.find? (fun part => partName? part = some name.toList) = none := by
    rw [List.find?_eq_none]
    simpa using first
  have found : headers.parts.find? (fun part => partName? part = some name.toList) = some part := by
    rw [parts, List.find?_append, none_before, List.find?_cons_of_pos (by simp [this_one])]
    rfl
  rw [cookie_eq, found, Option.bind_some, pair, Option.bind_some, nonEmpty_toList filled]

theorem cookie_of_none (none_named : ∀ part ∈ headers.parts, partName? part ≠ some name.toList) :
    headers.cookie name = none := by
  have none_found : headers.parts.find? (fun part => partName? part = some name.toList) = none := by
    rw [List.find?_eq_none]
    simpa using none_named
  rw [cookie_eq, none_found]
  rfl

/-- A token after the word for a bearer is read as it was sent. -/
theorem bearerToken_of_sent {token : String} (filled : token ≠ "") (safe : ∀ c ∈ token.toList, isSafe c = true)
    (sent : (headers.values "authorization").head? = some (utf8 ("Bearer " ++ token))) :
    headers.bearerToken = some token := by
  have printable : ∀ c ∈ ("Bearer " ++ token).toList, IsPrintable c := by
    intro c hc
    rw [String.toList_append, List.mem_append] at hc
    rcases hc with in_word | in_token
    · have word : ∀ c ∈ "Bearer ".toList, IsPrintable c := isPrintable_of_all (by decide)
      exact word c in_word
    · exact (isVisible_of_isSafe (safe c in_token)).isPrintable
  have read : headers.text? "authorization" = some ("Bearer ".toList ++ token.toList) := by
    rw [text?, sent, Option.bind_some, readable?_utf8 printable, String.toList_append]
  have trimmed : trimChars token.toList = token.toList :=
    (trimmed_of_visible fun c hc => isVisible_of_isSafe (safe c hc)).trimChars_eq
  have starts : "Bearer ".toList.isPrefixOf ("Bearer ".toList ++ token.toList) = true :=
    List.isPrefixOf_iff_prefix.mpr (List.prefix_append _ _)
  have asked : headers.bearerToken = (headers.text? "authorization").bind fun authorization =>
      if "Bearer ".toList.isPrefixOf authorization then
        nonEmpty (trimChars (authorization.drop "Bearer ".toList.length))
      else none := rfl
  rw [asked, read, Option.bind_some, if_pos starts, List.drop_left, trimmed, nonEmpty_toList filled]

end Headers

/-! ## Both together -/

theorem trimmed_pairText {name token : String} (named : Settings.isCookieName name = true)
    (safe : ∀ c ∈ token.toList, isSafe c = true) : Trimmed (pairText name token) := by
  apply trimmed_of_visible
  intro c hc
  rcases List.mem_append.mp hc with in_name | rest
  · exact isVisible_of_isSafe (isSafe_of_isCookieName named c in_name)
  · rcases List.mem_cons.mp rest with rfl | in_token
    · decide
    · exact isVisible_of_isSafe (safe c in_token)

theorem cut_pairText {name token : String} (named : Settings.isCookieName name = true) :
    cut '=' (pairText name token) = some (name.toList, token.toList) :=
  cut_append token.toList (not_mem_of_class (isSafe_of_isCookieName named) (by decide))

/--
The cookie of a session can be sent whatever its life time and its flags, and begins with name and token. Sent
back as a part of some cookie header, with no part of that name before it, the pair yields the token, whatever the
authorization is. Where no part has the name, the token of a bearer does.
-/
theorem cookie_round_trip {session : Settings.SessionSection}
    (named : Settings.isCookieName session.cookieName = true) {token : String} (filled : token ≠ "")
    (alphabet : ∀ c ∈ token.toList,
      'A' ≤ c ∧ c ≤ 'Z' ∨ 'a' ≤ c ∧ c ≤ 'z' ∨ '0' ≤ c ∧ c ≤ '9' ∨ c = '-' ∨ c = '_') (seconds : Int) :
    let name := session.cookieName
    let pair := (name ++ "=" ++ token).toList
    (∃ h, sessionCookie session token seconds = some h ∧ (h.toList.takeWhile fun c => c ≠ ';') = pair) ∧
    (∀ (headers : Headers) before left right after, headers.parts = before ++ (left ++ pair ++ right) :: after →
      (∀ c ∈ left ++ right, c = ' ' ∨ c = '\t') →
      (∀ part ∈ before, Headers.partName? part ≠ some name.toList) →
      headers.cookie name = some token ∧ headers.sessionToken name = some token) ∧
    (∀ headers : Headers, (∀ part ∈ headers.parts, Headers.partName? part ≠ some name.toList) →
      (headers.values "authorization").head? = some (utf8 ("Bearer " ++ token)) →
      headers.sessionToken name = some token) ∧
    ∀ octets : List UInt8, octets.length = 32 → (Auth.tokenOf octets).toList.length = 43 ∧
      ∀ c ∈ (Auth.tokenOf octets).toList,
        'A' ≤ c ∧ c ≤ 'Z' ∨ 'a' ≤ c ∧ c ≤ 'z' ∨ '0' ≤ c ∧ c ≤ '9' ∨ c = '-' ∨ c = '_' := by
  intro name pair
  have safe : ∀ c ∈ token.toList, isSafe c = true := fun c hc => isSafe_iff.mpr (alphabet c hc)
  have pair_eq : pair = pairText name token := (pairText_eq name token).symm
  refine ⟨?_, ?_, ?_, ?_⟩
  · refine ⟨_, sessionCookie_eq named safe seconds, ?_⟩
    have first := head?_pieces ';' (cookieText session token seconds).toList
    rw [pieces_cookieText named safe] at first
    rw [pair_eq]
    exact (Option.some.inj first).symm
  · intro headers before left right after parts spaces first
    have blank : ∀ c ∈ left ++ right, isBlank c = true := by
      intro c hc
      rcases spaces c hc with rfl | rfl <;> decide
    have trimmed : trimChars (left ++ pair ++ right) = pairText name token := by
      rw [pair_eq]
      apply (trimmed_pairText named safe).trimChars_between
      · exact fun c hc => blank c (List.mem_append_left right hc)
      · exact fun c hc => blank c (List.mem_append_right left hc)
    have found : headers.cookie name = some token := by
      apply Headers.cookie_of_first parts first filled
      rw [trimmed, cut_pairText named]
    refine ⟨found, ?_⟩
    rw [Headers.sessionToken, found]
    rfl
  · intro headers none_named sent
    rw [Headers.sessionToken, Headers.cookie_of_none none_named, Headers.bearerToken_of_sent filled safe sent]
    rfl
  · intro octets size
    refine ⟨?_, fun c hc => isSafe_iff.mp (isSafe_tokenOf octets c hc)⟩
    rw [Auth.tokenOf, String.toList_ofList, Base64.length_encode, size]

/-- A second cookie between blanks, and a bearer who counts only where no cookie has the name. -/
theorem cookie_round_trip_themed :
    let headers : Headers :=
      [.named "Cookie" (utf8 "theme=dark;\tauth-user-token=YWRh_w "), .named "Authorization" (utf8 "Bearer b2s-")]
    headers.sessionToken "auth-user-token" = some "YWRh_w" ∧ headers.sessionToken "another" = some "b2s-" := by
  intro headers
  have parts : headers.parts = ["theme=dark".toList] ++
      (['\t'] ++ ("auth-user-token" ++ "=" ++ "YWRh_w").toList ++ [' ']) :: [] := by decide +kernel
  have named : Settings.isCookieName ({} : Settings.SessionSection).cookieName = true := by decide
  have named' : Settings.isCookieName ({ cookieName := "another" } : Settings.SessionSection).cookieName = true := by
    decide
  have safe : "YWRh_w".toList.all isSafe = true := by decide
  have safe' : "b2s-".toList.all isSafe = true := by decide
  have blanks : ∀ c ∈ ['\t'] ++ [' '], c = ' ' ∨ c = '\t' := by simp
  have none_before : ∀ part ∈ ["theme=dark".toList], Headers.partName? part ≠ some "auth-user-token".toList := by
    decide +kernel
  have none_named : ∀ part ∈ headers.parts, Headers.partName? part ≠ some "another".toList := by decide +kernel
  obtain ⟨_, by_cookie, _⟩ :=
    cookie_round_trip named (by decide) (fun c hc => isSafe_iff.mp (List.all_eq_true.mp safe c hc)) 0
  obtain ⟨_, _, by_bearer, _⟩ :=
    cookie_round_trip named' (by decide) (fun c hc => isSafe_iff.mp (List.all_eq_true.mp safe' c hc)) 0
  exact ⟨(by_cookie headers _ _ _ _ parts blanks none_before).2, by_bearer headers none_named (by decide +kernel)⟩

end Gatehouse.Http
