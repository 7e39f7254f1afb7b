import SoftwareEntitlement.ResponseContract
import SoftwareEntitlement.TokenDisclosure

/-!
# Which URLs the native client accepts

The checks of `GetEntitlement` follow the slashes of the URL by position, and
compare the positions with the last one.  They leave a slash at the end, and
let through an empty host, or an empty segment in front of the last slash.
libcurl is given the result as a `char*`, which ends at a null character.
-/

namespace SoftwareEntitlement

def afterScheme (url : String) : List Char := url.toList.drop 8

/-! ## The URLs which are meant -/

/-- What may come after the host: nothing, or a slash, or a slash, a segment and
possibly another slash. -/
inductive PathShape : List Char → Prop where
  | empty : PathShape []
  | slash : PathShape ['/']
  | segment {segment : List Char} : segment ≠ [] → '/' ∉ segment →
      PathShape ('/' :: segment)
  | segmentSlash {segment : List Char} : segment ≠ [] → '/' ∉ segment →
      PathShape ('/' :: (segment ++ ['/']))

def WellFormedUrl (url : String) : Prop :=
  "https://".toList <+: url.toList ∧ '?' ∉ url.toList ∧
    ∃ host path, afterScheme url = host ++ path ∧ host ≠ [] ∧ '/' ∉ host ∧
      PathShape path

def HasDoubleSlash (text : List Char) : Prop := ['/', '/'] <:+: text

/-- The client rejects exactly the URLs which are not well formed, and where it
accepts one, every body is posted to the URL, with a slash at its end, and the
path of the service, which has no two slashes in a row. -/
def TreatsUrl (url : String) : Prop :=
  ((∃ exception, checkUrl url = .error exception) ↔ ¬WellFormedUrl url) ∧
    ∀ (call : ClientCall) exchanges n posted body, call.url = url →
      .bodySent posted body ∈ call.eventsOf exchanges n →
        posted =
            (if (afterScheme url).getLast? = some '/' then url else url ++ "/") ++
              "softwareEntitlements?api-version=2017-05-01.5.0" ∧
          ¬HasDoubleSlash (afterScheme posted)

/-- The URL is rejected for its scheme, its query or its third slash; or else
its host is not empty, it does not end with two slashes, and it has no null
character. -/
def SafelyPosted (url : String) : Prop :=
  ¬"https://".toList <+: url.toList ∨ '?' ∈ url.toList ∨
    2 ≤ (afterScheme url).dropLast.count '/' ∨
      (afterScheme url ≠ [] ∧ (afterScheme url).head? ≠ some '/' ∧
        ¬['/', '/'] <:+ afterScheme url ∧ ¬HasNull url)

/-! ## The checks -/

section Checks

variable {url : String}

theorem findChar_eq_none {text : String} {c : Char} {pos : ℕ}
    (habsent : c ∉ text.toList.drop pos) : findChar text c pos = none := by
  unfold findChar
  rw [Option.map_eq_none_iff, List.findIdx?_eq_none_iff]
  intro other hother
  simp only [beq_eq_false_iff_ne, ne_eq]
  rintro rfl
  exact habsent hother

theorem findChar_eq_some {text : String} {c : Char} {pos : ℕ}
    {before after : List Char}
    (htext : text.toList.drop pos = before ++ c :: after)
    (hbefore : c ∉ before) :
    findChar text c pos = some (pos + before.length) := by
  have hnone : before.findIdx? (· == c) = none := by
    rw [List.findIdx?_eq_none_iff]
    intro other hother
    simp only [beq_eq_false_iff_ne, ne_eq]
    rintro rfl
    exact hbefore hother
  unfold findChar
  rw [htext, List.findIdx?_append, hnone]
  simp [List.findIdx?_cons, Nat.add_comm]

theorem length_eq_afterScheme (hscheme : "https://".toList <+: url.toList) :
    url.length = 8 + (afterScheme url).length := by
  have hlength : 8 ≤ url.toList.length := hscheme.length_le
  rw [afterScheme, List.length_drop, ← String.length_toList]
  omega

theorem checkUrl_of_no_slash (hscheme : "https://".toList <+: url.toList)
    (hquery : '?' ∉ url.toList) (hslash : '/' ∉ afterScheme url) :
    checkUrl url = .ok (url ++ "/") := by
  have hpos : findChar url '/' 8 = none := findChar_eq_none hslash
  unfold checkUrl
  rw [if_neg (not_not.mpr hscheme), if_neg (by simpa using hquery)]
  simp [hpos, precedes, pure, Except.pure, bind, Except.bind]

theorem checkUrl_of_last_slash (hscheme : "https://".toList <+: url.toList)
    (hquery : '?' ∉ url.toList) {host : List Char}
    (hurl : afterScheme url = host ++ ['/']) (hhost : '/' ∉ host) :
    checkUrl url = .ok url := by
  have hpos : findChar url '/' 8 = some (8 + host.length) :=
    findChar_eq_some hurl hhost
  have hlength : url.length = 8 + (host.length + 1) := by
    rw [length_eq_afterScheme hscheme, hurl]
    simp
  have hprecedes : precedes (some (8 + host.length)) (url.length - 1) =
      false := by
    simp only [precedes, hlength, decide_eq_false_iff_not]
    omega
  unfold checkUrl
  rw [if_neg (not_not.mpr hscheme), if_neg (by simpa using hquery)]
  simp [hpos, hprecedes, pure, Except.pure, bind, Except.bind]

/-- The first search finds a slash with something behind it, and the second one
searches there. -/
theorem checkUrl_of_inner_slash (hscheme : "https://".toList <+: url.toList)
    (hquery : '?' ∉ url.toList) {host path : List Char}
    (hurl : afterScheme url = host ++ '/' :: path) (hhost : '/' ∉ host)
    (hpath : path ≠ []) :
    checkUrl url =
      if precedes (findChar url '/' (8 + host.length + 1)) (url.length - 1) then
        .error (.exception ("Invalid input URL: should not include more than " ++
          "one slash after the hostname (excluding trailing slash)."))
      else if (findChar url '/' (8 + host.length + 1)).isNone then
        .ok (url ++ "/")
      else
        .ok url := by
  have hpos : findChar url '/' 8 = some (8 + host.length) :=
    findChar_eq_some hurl hhost
  have hlength : url.length = 8 + (host.length + (path.length + 1)) := by
    rw [length_eq_afterScheme hscheme, hurl]
    simp
  have hpositive := List.length_pos_of_ne_nil hpath
  have hprecedes : precedes (some (8 + host.length)) (url.length - 1) =
      true := by
    simp only [precedes, hlength, decide_eq_true_eq]
    omega
  unfold checkUrl
  rw [if_neg (not_not.mpr hscheme), if_neg (by simpa using hquery)]
  simp only [hpos, hprecedes, if_true, Option.getD_some]
  split
  · rfl
  · split <;> simp_all [pure, Except.pure, bind, Except.bind]

theorem drop_afterScheme {host path : List Char}
    (hurl : afterScheme url = host ++ '/' :: path) :
    url.toList.drop (8 + host.length + 1) = path := by
  have hdrop := congrArg (List.drop (host.length + 1)) hurl
  rw [afterScheme, List.drop_drop] at hdrop
  simpa [Nat.add_assoc] using hdrop

theorem count_dropLast_of_slash {before after : List Char}
    (hbefore : '/' ∉ before) (hafter : after ≠ []) :
    (before ++ '/' :: after).dropLast.count '/' =
      after.dropLast.count '/' + 1 := by
  rw [List.dropLast_append_of_ne_nil (by simp),
    List.dropLast_cons_of_ne_nil hafter, List.count_append,
    List.count_eq_zero.mpr hbefore]
  simp

theorem getLast?_of_slash {before after : List Char} (hafter : after ≠ []) :
    (before ++ '/' :: after).getLast? = after.getLast? := by
  obtain ⟨front, last, rfl⟩ := (List.eq_nil_or_concat' after).resolve_left hafter
  have happend : before ++ '/' :: (front ++ [last]) =
      (before ++ '/' :: front) ++ [last] := by simp
  rw [happend, List.getLast?_concat, List.getLast?_concat]

theorem count_dropLast_of_no_slash {text : List Char} (hslash : '/' ∉ text) :
    text.dropLast.count '/' = 0 :=
  List.count_eq_zero.mpr fun hmem => hslash (List.mem_of_mem_dropLast hmem)

theorem getLast?_of_no_slash {text : List Char} (hslash : '/' ∉ text) :
    text.getLast? ≠ some '/' :=
  fun hlast => hslash (List.mem_of_getLast? hlast)

section SecondSearch

variable (hscheme : "https://".toList <+: url.toList)
  (hquery : '?' ∉ url.toList) {host segment rest : List Char}
  (hhost : '/' ∉ host) (hsegment : '/' ∉ segment)

include hscheme hquery hhost hsegment

/-- The second search finds no slash. -/
theorem checkUrl_of_segment (hurl : afterScheme url = host ++ '/' :: segment)
    (hne : segment ≠ []) : checkUrl url = .ok (url ++ "/") := by
  have hpos : findChar url '/' (8 + host.length + 1) = none :=
    findChar_eq_none (by rwa [drop_afterScheme hurl])
  rw [checkUrl_of_inner_slash hscheme hquery hurl hhost hne, hpos]
  simp [precedes]

/-- The second search finds a slash, and compares its position with that of the
last character. -/
theorem checkUrl_of_second_slash
    (hurl : afterScheme url = host ++ '/' :: (segment ++ '/' :: rest)) :
    (rest = [] ∧ checkUrl url = .ok url) ∨
      (rest ≠ [] ∧ ∃ exception, checkUrl url = .error exception) := by
  have hpos : findChar url '/' (8 + host.length + 1) =
      some (8 + host.length + 1 + segment.length) :=
    findChar_eq_some (drop_afterScheme hurl) hsegment
  have hlength : url.length =
      8 + (host.length + (segment.length + (rest.length + 1) + 1)) := by
    rw [length_eq_afterScheme hscheme, hurl]
    simp
  rw [checkUrl_of_inner_slash hscheme hquery hurl hhost (by simp), hpos]
  by_cases hrest : rest = []
  · have hprecedes : precedes (some (8 + host.length + 1 + segment.length))
        (url.length - 1) = false := by
      simp only [precedes, hlength, hrest, List.length_nil,
        decide_eq_false_iff_not]
      omega
    exact .inl ⟨hrest, by simp [hprecedes]⟩
  · have hpositive := List.length_pos_of_ne_nil hrest
    have hprecedes : precedes (some (8 + host.length + 1 + segment.length))
        (url.length - 1) = true := by
      simp only [precedes, hlength, decide_eq_true_eq]
      omega
    exact .inr ⟨hrest, _, if_pos hprecedes⟩

end SecondSearch

/-- In closed form: a second slash is refused unless it is the last character,
and a slash is added unless there is one at the end. -/
theorem checkUrl_cases (hscheme : "https://".toList <+: url.toList)
    (hquery : '?' ∉ url.toList) :
    (2 ≤ (afterScheme url).dropLast.count '/' ∧
      ∃ exception, checkUrl url = .error exception) ∨
    ((afterScheme url).dropLast.count '/' < 2 ∧
      checkUrl url = .ok
        (if (afterScheme url).getLast? = some '/' then url else url ++ "/")) := by
  by_cases hslash : '/' ∈ afterScheme url
  · obtain ⟨host, path, hurl, hhost⟩ := List.eq_append_cons_of_mem hslash
    by_cases hpath : path = []
    · subst hpath
      rw [checkUrl_of_last_slash hscheme hquery hurl hhost, hurl]
      simp [List.count_eq_zero.mpr hhost]
    · by_cases hsecond : '/' ∈ path
      · obtain ⟨segment, rest, rfl, hsegment⟩ :=
          List.eq_append_cons_of_mem hsecond
        have hcases :=
          checkUrl_of_second_slash hscheme hquery hhost hsegment hurl
        rw [hurl, count_dropLast_of_slash hhost hpath, getLast?_of_slash hpath]
        rcases hcases with ⟨rfl, haccepted⟩ | ⟨hrest, hrejected⟩
        · rw [haccepted]
          simp [List.count_eq_zero.mpr hsegment]
        · rw [count_dropLast_of_slash hsegment hrest]
          exact .inl ⟨by omega, hrejected⟩
      · rw [checkUrl_of_segment hscheme hquery hhost hsecond hurl hpath, hurl,
          count_dropLast_of_slash hhost hpath, getLast?_of_slash hpath]
        simp [count_dropLast_of_no_slash hsecond,
          getLast?_of_no_slash hsecond]
  · rw [checkUrl_of_no_slash hscheme hquery hslash]
    simp [count_dropLast_of_no_slash hslash, getLast?_of_no_slash hslash]

end Checks

/-! ## The shape of an accepted URL -/

section Shape

variable {url : String}

theorem PathShape.count_lt {host path : List Char} (hhost : '/' ∉ host)
    (hshape : PathShape path) : (host ++ path).dropLast.count '/' < 2 := by
  cases hshape with
  | empty =>
      rw [List.append_nil, count_dropLast_of_no_slash hhost]
      decide
  | slash =>
      rw [List.dropLast_concat, List.count_eq_zero.mpr hhost]
      decide
  | @segment segment hne hsegment =>
      rw [count_dropLast_of_slash hhost hne, count_dropLast_of_no_slash hsegment]
      decide
  | @segmentSlash segment hne hsegment =>
      rw [count_dropLast_of_slash hhost (by simp), List.dropLast_concat,
        List.count_eq_zero.mpr hsegment]
      decide

/-- The slashes which the checks leave, apart from each other, are those of a
well-formed path. -/
theorem exists_pathShape {text : List Char} (hcount : text.dropLast.count '/' < 2)
    (hne : text ≠ []) (hhead : text.head? ≠ some '/')
    (hend : ¬['/', '/'] <:+ text) :
    ∃ host path, text = host ++ path ∧ host ≠ [] ∧ '/' ∉ host ∧
      PathShape path := by
  by_cases hslash : '/' ∈ text
  · obtain ⟨host, path, rfl, hhost⟩ := List.eq_append_cons_of_mem hslash
    have hhostNe : host ≠ [] := by
      rintro rfl
      exact hhead rfl
    by_cases hpath : path = []
    · subst hpath
      exact ⟨host, ['/'], rfl, hhostNe, hhost, .slash⟩
    · rw [count_dropLast_of_slash hhost hpath] at hcount
      have hfront : '/' ∉ path.dropLast := by
        rw [← List.count_eq_zero]
        omega
      obtain ⟨front, last, rfl⟩ :=
        (List.eq_nil_or_concat' path).resolve_left hpath
      rw [List.dropLast_concat] at hfront
      by_cases hlast : last = '/'
      · subst hlast
        have hfrontNe : front ≠ [] := by
          rintro rfl
          exact hend ⟨host, by simp⟩
        exact ⟨host, _, rfl, hhostNe, hhost, .segmentSlash hfrontNe hfront⟩
      · refine ⟨host, _, rfl, hhostNe, hhost, .segment (by simp) ?_⟩
        simp only [List.mem_append, List.mem_singleton, not_or]
        exact ⟨hfront, fun h => hlast h.symm⟩
  · exact ⟨text, [], by simp, hne, hslash, .empty⟩

theorem head?_append_of_no_slash {before after : List Char}
    (hne : before ≠ []) (hbefore : '/' ∉ before) :
    (before ++ after).head? ≠ some '/' := by
  obtain ⟨c, rest, rfl⟩ := List.exists_cons_of_ne_nil hne
  have hc : c ≠ '/' := by
    rintro rfl
    exact hbefore List.mem_cons_self
  simpa using hc

theorem not_hasDoubleSlash_of_slash {before after : List Char}
    (hbefore : '/' ∉ before) (hhead : after.head? ≠ some '/')
    (hafter : ¬HasDoubleSlash after) :
    ¬HasDoubleSlash (before ++ '/' :: after) := by
  unfold HasDoubleSlash at hafter ⊢
  induction before with
  | nil =>
      rw [List.nil_append, List.infix_cons_iff, not_or]
      refine ⟨?_, hafter⟩
      rintro ⟨rest, hrest⟩
      obtain rfl := List.tail_eq_of_cons_eq hrest
      exact hhead rfl
  | cons c before ih =>
      rw [List.mem_cons, not_or] at hbefore
      obtain ⟨hc, hbefore⟩ := hbefore
      rw [List.cons_append, List.infix_cons_iff, not_or]
      refine ⟨?_, ih hbefore⟩
      rintro ⟨rest, hrest⟩
      exact hc (List.head_eq_of_cons_eq hrest)

theorem PathShape.not_hasDoubleSlash {host path service : List Char}
    (hhost : '/' ∉ host) (hshape : PathShape path)
    (hhead : service.head? ≠ some '/') (hservice : ¬HasDoubleSlash service) :
    ¬HasDoubleSlash (host ++ path ++
      (if (host ++ path).getLast? = some '/' then [] else ['/']) ++
        service) := by
  have hafterHost := not_hasDoubleSlash_of_slash hhost hhead hservice
  cases hshape with
  | empty => simpa [getLast?_of_no_slash hhost] using hafterHost
  | slash => simpa using hafterHost
  | @segment segment hne hsegment =>
      have hafterSegment := not_hasDoubleSlash_of_slash hhost
        (head?_append_of_no_slash hne hsegment)
        (not_hasDoubleSlash_of_slash hsegment hhead hservice)
      rw [getLast?_of_slash hne, if_neg (getLast?_of_no_slash hsegment)]
      simpa using hafterSegment
  | @segmentSlash segment hne hsegment =>
      have hafterSegment := not_hasDoubleSlash_of_slash hhost
        (head?_append_of_no_slash hne hsegment)
        (not_hasDoubleSlash_of_slash hsegment hhead hservice)
      rw [getLast?_of_slash (by simp), List.getLast?_concat, if_pos rfl]
      simpa using hafterSegment

theorem PathShape.apart {host path : List Char} (hne : host ≠ [])
    (hhost : '/' ∉ host) (hshape : PathShape path) :
    (host ++ path).head? ≠ some '/' ∧ ¬['/', '/'] <:+ host ++ path := by
  constructor
  · exact head?_append_of_no_slash hne hhost
  · intro hsuffix
    have hnone : ¬HasDoubleSlash [] := by
      simp [HasDoubleSlash]
    have hposted := hshape.not_hasDoubleSlash hhost (by simp) hnone
    rw [List.append_nil] at hposted
    exact hposted (hsuffix.isInfix.trans (List.prefix_append _ _).isInfix)

theorem wellFormedUrl_iff :
    WellFormedUrl url ↔ "https://".toList <+: url.toList ∧ '?' ∉ url.toList ∧
      (afterScheme url).dropLast.count '/' < 2 ∧ afterScheme url ≠ [] ∧
        (afterScheme url).head? ≠ some '/' ∧
          ¬['/', '/'] <:+ afterScheme url := by
  refine and_congr_right fun _ => and_congr_right fun _ => ?_
  constructor
  · rintro ⟨host, path, hurl, hne, hhost, hshape⟩
    rw [hurl]
    exact ⟨hshape.count_lt hhost, by simp [hne], hshape.apart hne hhost⟩
  · rintro ⟨hcount, hne, hhead, hend⟩
    exact exists_pathShape hcount hne hhead hend

end Shape

/-! ## What the client does with a URL -/

section Treatment

variable {url normalised : String}

theorem checkUrl_eq_ok_iff :
    checkUrl url = .ok normalised ↔ "https://".toList <+: url.toList ∧
      '?' ∉ url.toList ∧ (afterScheme url).dropLast.count '/' < 2 ∧
        normalised =
          if (afterScheme url).getLast? = some '/' then url else url ++ "/" := by
  by_cases hscheme : "https://".toList <+: url.toList
  · by_cases hquery : '?' ∈ url.toList
    · have hrejected : ∃ exception, checkUrl url = .error exception := by
        unfold checkUrl
        rw [if_neg (not_not.mpr hscheme), if_pos (by simpa using hquery)]
        exact ⟨_, rfl⟩
      obtain ⟨exception, hexception⟩ := hrejected
      simp [hexception, hquery]
    · rcases checkUrl_cases hscheme hquery with
        ⟨hcount, exception, hexception⟩ | ⟨hcount, haccepted⟩
      · simp [hexception, not_lt.mpr hcount]
      · rw [haccepted, Except.ok.injEq]
        simp only [hscheme, hquery, hcount, not_false_eq_true, true_and]
        exact eq_comm
  · have hrejected : ∃ exception, checkUrl url = .error exception := by
      unfold checkUrl
      rw [if_pos hscheme]
      exact ⟨_, rfl⟩
    obtain ⟨exception, hexception⟩ := hrejected
    rw [hexception]
    exact iff_of_false (by simp) fun h => hscheme h.1

theorem checkUrl_eq_error_iff :
    (∃ exception, checkUrl url = .error exception) ↔
      ¬("https://".toList <+: url.toList ∧ '?' ∉ url.toList ∧
        (afterScheme url).dropLast.count '/' < 2) := by
  cases houtcome : checkUrl url with
  | ok normalised =>
      obtain ⟨hscheme, hquery, hcount, -⟩ := checkUrl_eq_ok_iff.mp houtcome
      exact iff_of_false (by simp) (not_not.mpr ⟨hscheme, hquery, hcount⟩)
  | error exception =>
      refine iff_of_true ⟨exception, rfl⟩ ?_
      rintro ⟨hscheme, hquery, hcount⟩
      rw [checkUrl_eq_ok_iff.mpr ⟨hscheme, hquery, hcount, rfl⟩] at houtcome
      cases houtcome

/-- Every body is posted to the service at the normalised URL, as far as libcurl
reads it. -/
theorem posted_of_mem_eventsOf {call : ClientCall} {exchanges : ℕ → Exchange}
    {n : ℕ} {posted : String} {body : Json}
    (hposted : .bodySent posted body ∈ call.eventsOf exchanges n) :
    ∃ normalised, checkUrl call.url = .ok normalised ∧
      posted = cString
        (normalised ++ "softwareEntitlements?api-version=2017-05-01.5.0") := by
  obtain ⟨normalised, hchecked, hmakes⟩ :=
    ClientCall.makes_of_mem_eventsOf hposted
  refine ⟨normalised, hchecked, ?_⟩
  rw [ClientCall.eventsOf_of_makes hchecked hmakes] at hposted
  by_cases hsends : (exchanges n).SendsRequest
  · obtain ⟨examined, hevents, hexamined⟩ := Curl.events_of_sendsRequest hsends
    rw [ClientCall.attempt, hevents] at hposted
    rcases List.mem_cons.mp hposted with hfirst | hlater
    · injection hfirst
    · cases hexamined _ hlater
  · cases Curl.events_of_not_sendsRequest hsends _ hposted

/-- A URL which passes the checks is posted to if the server is reached. -/
theorem exists_posted (hchecked : checkUrl url = .ok normalised) :
    ∃ (call : ClientCall) (exchanges : ℕ → Exchange) (body : Json),
      call.url = url ∧
        .bodySent (cString
          (normalised ++ "softwareEntitlements?api-version=2017-05-01.5.0"))
            body ∈ call.eventsOf exchanges 0 := by
  let call : ClientCall := ⟨.reference, false, [], url, "token", "app", 0⟩
  have hmakes : call.Makes normalised (fun _ => emptyResponse) 0 :=
    ⟨fun k hk => absurd hk (Nat.not_lt_zero k), .inl (Nat.zero_le _)⟩
  have hsends : emptyResponse.SendsRequest := by
    refine ⟨⟨rfl, ?_, rfl, rfl, rfl, rfl⟩, rfl⟩
    exact fun res hres => absurd hres List.not_mem_nil
  refine ⟨call, fun _ => emptyResponse, requestBody "token" "app", rfl, ?_⟩
  rw [ClientCall.eventsOf_of_makes hchecked hmakes]
  obtain ⟨examined, hevents, -⟩ := Curl.events_of_sendsRequest hsends
  exact hevents ▸ List.mem_cons_self

theorem not_hasDoubleSlash_posted (hurl : WellFormedUrl url) :
    ¬HasDoubleSlash (afterScheme
      ((if (afterScheme url).getLast? = some '/' then url else url ++ "/") ++
        "softwareEntitlements?api-version=2017-05-01.5.0")) := by
  obtain ⟨hscheme, -, host, path, hafter, -, hhost, hshape⟩ := hurl
  have hhead : "softwareEntitlements?api-version=2017-05-01.5.0".toList.head? ≠
      some '/' := by decide
  have hservice : ¬HasDoubleSlash
      "softwareEntitlements?api-version=2017-05-01.5.0".toList := by
    unfold HasDoubleSlash
    decide
  have hposted := hshape.not_hasDoubleSlash hhost hhead hservice
  rw [← hafter] at hposted
  have hlength : 8 ≤ url.toList.length := hscheme.length_le
  by_cases hlast : (afterScheme url).getLast? = some '/'
  · rw [if_pos hlast, List.append_nil] at hposted
    rw [if_pos hlast, afterScheme, String.toList_append,
      List.drop_append_of_le_length hlength]
    exact hposted
  · rw [if_neg hlast] at hposted
    rw [if_neg hlast, afterScheme, String.toList_append, String.toList_append,
      List.append_assoc, List.drop_append_of_le_length hlength,
      ← List.append_assoc]
    exact hposted

/-- What libcurl reads of the posted URL is all of it exactly where the URL has
no null character. -/
theorem cString_posted_eq_iff :
    cString ((if (afterScheme url).getLast? = some '/' then url
        else url ++ "/") ++ "softwareEntitlements?api-version=2017-05-01.5.0") =
      (if (afterScheme url).getLast? = some '/' then url else url ++ "/") ++
        "softwareEntitlements?api-version=2017-05-01.5.0" ↔ ¬HasNull url := by
  have hslash : ¬HasNull "/" := by decide
  have hservice :
      ¬HasNull "softwareEntitlements?api-version=2017-05-01.5.0" := by decide
  rw [cString_eq_self_iff, hasNull_append]
  split <;> simp only [hasNull_append, hslash, hservice, or_false]

theorem rejects_iff_of_slashes
    (hslashes : afterScheme url ≠ [] ∧ (afterScheme url).head? ≠ some '/' ∧
      ¬['/', '/'] <:+ afterScheme url) :
    (∃ exception, checkUrl url = .error exception) ↔ ¬WellFormedUrl url := by
  rw [checkUrl_eq_error_iff, wellFormedUrl_iff]
  exact not_congr ⟨fun h => ⟨h.1, h.2.1, h.2.2, hslashes⟩,
    fun h => ⟨h.1, h.2.1, h.2.2.1⟩⟩

/-- A URL which the checks reject is treated as it should be. -/
theorem treatsUrl_of_rejected {exception : NativeException}
    (hrejected : checkUrl url = .error exception) : TreatsUrl url := by
  have hurl : ¬WellFormedUrl url := by
    intro hurl
    obtain ⟨hscheme, hquery, hcount, -⟩ := wellFormedUrl_iff.mp hurl
    exact checkUrl_eq_error_iff.mp ⟨exception, hrejected⟩
      ⟨hscheme, hquery, hcount⟩
  refine ⟨iff_of_true ⟨exception, hrejected⟩ hurl, ?_⟩
  rintro call exchanges n posted body rfl hposted
  obtain ⟨normalised, hchecked, -⟩ := posted_of_mem_eventsOf hposted
  rw [hrejected] at hchecked
  cases hchecked

/-- The client treats a URL as it should if and only if the checks reject it, or
its slashes are apart and libcurl reads all of it. -/
theorem treatsUrl_iff (url : String) : TreatsUrl url ↔ SafelyPosted url := by
  by_cases hchecks : "https://".toList <+: url.toList ∧ '?' ∉ url.toList ∧
      (afterScheme url).dropLast.count '/' < 2
  · have haccepted := checkUrl_eq_ok_iff.mpr
      ⟨hchecks.1, hchecks.2.1, hchecks.2.2, rfl⟩
    have hsafely : SafelyPosted url ↔
        (afterScheme url ≠ [] ∧ (afterScheme url).head? ≠ some '/' ∧
          ¬['/', '/'] <:+ afterScheme url) ∧ ¬HasNull url := by
      simp only [SafelyPosted, hchecks.1, hchecks.2.1,
        not_le.mpr hchecks.2.2, not_true_eq_false, false_or, and_assoc]
    rw [hsafely]
    constructor
    · rintro ⟨hrejects, hposts⟩
      constructor
      · by_contra hslashes
        obtain ⟨exception, hexception⟩ := hrejects.mpr fun hurl =>
          hslashes (wellFormedUrl_iff.mp hurl).2.2.2
        rw [haccepted] at hexception
        cases hexception
      · obtain ⟨call, exchanges, body, hcall, hposted⟩ := exists_posted haccepted
        exact cString_posted_eq_iff.mp
          (hposts call exchanges 0 _ body hcall hposted).1
    · rintro ⟨hslashes, hnull⟩
      refine ⟨rejects_iff_of_slashes hslashes, ?_⟩
      rintro call exchanges n posted body rfl hposted
      obtain ⟨normalised, hchecked, rfl⟩ := posted_of_mem_eventsOf hposted
      obtain ⟨-, -, -, rfl⟩ := checkUrl_eq_ok_iff.mp hchecked
      rw [cString_posted_eq_iff.mpr hnull]
      refine ⟨rfl, not_hasDoubleSlash_posted ?_⟩
      exact wellFormedUrl_iff.mpr
        ⟨hchecks.1, hchecks.2.1, hchecks.2.2, hslashes⟩
  · obtain ⟨exception, hrejected⟩ := checkUrl_eq_error_iff.mpr hchecks
    refine iff_of_true (treatsUrl_of_rejected hrejected) ?_
    simp only [not_and_or, not_lt, not_not] at hchecks
    exact hchecks.imp_right fun hlater => hlater.imp_right .inl

end Treatment

/-- A second slash behind the first one is accepted where it is the last
character, and is posted. -/
theorem not_treatsUrl_doubleSlash :
    checkUrl "https://demo.westus.batch.azure.com//" =
        .ok "https://demo.westus.batch.azure.com//" ∧
      ¬TreatsUrl "https://demo.westus.batch.azure.com//" := by
  have haccepted : checkUrl "https://demo.westus.batch.azure.com//" =
      .ok "https://demo.westus.batch.azure.com//" := by decide
  refine ⟨haccepted, fun htreats => ?_⟩
  have hurl : ¬WellFormedUrl "https://demo.westus.batch.azure.com//" :=
    fun hurl => (wellFormedUrl_iff.mp hurl).2.2.2.2.2 (by decide)
  obtain ⟨exception, hexception⟩ := htreats.1.mpr hurl
  rw [haccepted] at hexception
  cases hexception

end SoftwareEntitlement
