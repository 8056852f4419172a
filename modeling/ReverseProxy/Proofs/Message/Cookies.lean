import ReverseProxy.Message.RequestHead
import ReverseProxy.Proofs.Text.Cutting
import ReverseProxy.Proofs.Text.Trimming

/-!
# Cookies

A `Cookie` header lists pairs of a name and a value.  There may be white space around the names and
the values, and a value may stand in quotes (`CookiePair`).  Whatever pairs of that kind a request
carries, they are found again (`RequestHead.CarriesCookies.cookies_eq`).
-/

namespace ReverseProxy.Message

/-- A character that may stand in the name and in the value of a cookie. -/
def isCookieChar (c : Char) : Bool := !(Text.isBlank c || c == ';' || c == ',' || c == '"')

theorem isBlank_of_isCookieChar {c : Char} (h : isCookieChar c = true) :
    Text.isBlank c = false := by
  simp only [isCookieChar, Bool.not_eq_true', Bool.or_eq_false_iff] at h
  exact h.1.1.1

/-- A pair of a `name` and a `value`, with the white space and the quotes in which it is written. -/
structure CookiePair where
  name : String
  value : String
  beforeName : List Char := []
  afterName : List Char := []
  beforeValue : List Char := []
  afterValue : List Char := []
  /-- The value stands in quotes. -/
  quoted : Bool := false
  name_safe : ∀ c ∈ name.toList, isCookieChar c = true
  equals_notMem : '=' ∉ name.toList
  value_safe : ∀ c ∈ value.toList, isCookieChar c = true
  blank : ∀ c ∈ beforeName ++ afterName ++ beforeValue ++ afterValue, Text.isBlank c = true

namespace CookiePair

/-- What stands before and after the value itself. -/
def quotes (p : CookiePair) : List Char := if p.quoted then ['"'] else []

/-- The pair as it is written. -/
def text (p : CookiePair) : List Char :=
  p.beforeName ++ p.name.toList ++ p.afterName ++
    '=' :: (p.beforeValue ++ (p.quotes ++ p.value.toList ++ p.quotes) ++ p.afterValue)

/-- The name and the value of the pair. -/
def entry (p : CookiePair) : String × String := (p.name, p.value)

variable (p : CookiePair)

theorem mem_quotes {c : Char} (h : c ∈ p.quotes) : c = '"' := by
  unfold quotes at h
  split at h
  · exact List.mem_singleton.1 h
  · cases h

/-- A pair is read as its `entry`. -/
theorem cookie?_text : RequestHead.cookie? p.text = some p.entry := by
  have hblank := p.blank
  simp only [List.forall_mem_append] at hblank
  obtain ⟨⟨⟨hbeforeName, hafterName⟩, hbeforeValue⟩, hafterValue⟩ := hblank
  have hname :
      Text.trim (String.ofList (p.beforeName ++ p.name.toList ++ p.afterName)) = p.name := by
    rw [Text.trim_append hbeforeName
      (fun c hc => isBlank_of_isCookieChar (p.name_safe c hc)) hafterName,
      String.ofList_toList]
  have hquoted : ∀ c ∈ p.quotes ++ p.value.toList ++ p.quotes, Text.isBlank c = false := by
    have hquotes : ∀ c ∈ p.quotes, Text.isBlank c = false := fun c hc => p.mem_quotes hc ▸ by decide
    simp only [List.forall_mem_append]
    exact ⟨⟨hquotes, fun c hc => isBlank_of_isCookieChar (p.value_safe c hc)⟩, hquotes⟩
  have hvalue : RequestHead.unquote (p.quotes ++ p.value.toList ++ p.quotes) = p.value.toList := by
    have hquotes : ∀ c ∈ p.quotes, (c == '"') = true := fun c hc => beq_iff_eq.2 (p.mem_quotes hc)
    refine Text.dropEndWhile_dropWhile hquotes ?_ hquotes
    intro c hc
    have hsafe := p.value_safe c hc
    simp only [isCookieChar, Bool.not_eq_true', Bool.or_eq_false_iff] at hsafe
    exact hsafe.2
  have hequals : '=' ∉ p.beforeName ++ p.name.toList ++ p.afterName := by
    simp only [List.mem_append, not_or]
    have hnotBlank {cs : List Char} (h : ∀ c ∈ cs, Text.isBlank c = true) : '=' ∉ cs :=
      fun hmem => absurd (h '=' hmem) (by decide)
    exact ⟨⟨hnotBlank hbeforeName, p.equals_notMem⟩, hnotBlank hafterName⟩
  rw [RequestHead.cookie?, text, Text.cut?_eq_some_iff.2 ⟨rfl, hequals⟩, Option.map_some]
  simp only [hname, Text.trim_append hbeforeValue hquoted hafterValue, String.toList_ofList, hvalue,
    String.ofList_toList]
  rfl

/-- Pairs are told apart. -/
theorem semicolon_notMem : ';' ∉ p.text := by
  have hblank : ';' ∉ p.beforeName ++ p.afterName ++ p.beforeValue ++ p.afterValue :=
    fun h => absurd (p.blank ';' h) (by decide)
  have hname : ';' ∉ p.name.toList := fun h => absurd (p.name_safe ';' h) (by decide)
  have hvalue : ';' ∉ p.value.toList := fun h => absurd (p.value_safe ';' h) (by decide)
  have hquotes : ';' ∉ p.quotes := fun h => absurd (p.mem_quotes h) (by decide)
  simp only [List.mem_append, not_or] at hblank
  simp [text, hblank, hname, hvalue, hquotes]

end CookiePair

/-- The value of a `Cookie` header that lists pairs. -/
def cookieHeader (pairs : List CookiePair) : String :=
  String.ofList ([';'].intercalate (pairs.map CookiePair.text))

theorem cookies_cookieHeader (pairs : List CookiePair) :
    (Text.pieces ';' (cookieHeader pairs).toList).filterMap RequestHead.cookie? =
      pairs.map CookiePair.entry := by
  cases pairs with
  | nil => rfl
  | cons p pairs =>
    have hpieces : Text.pieces ';' ([';'].intercalate (p.text :: pairs.map CookiePair.text)) =
        p.text :: pairs.map CookiePair.text := by
      apply Text.pieces_intercalate
      rw [List.forall_mem_cons, List.forall_mem_map]
      exact ⟨p.semicolon_notMem, fun q _ => q.semicolon_notMem⟩
    rw [cookieHeader, String.toList_ofList, List.map_cons, hpieces, ← List.map_cons,
      List.filterMap_map]
    have hread : RequestHead.cookie? ∘ CookiePair.text = some ∘ CookiePair.entry :=
      funext CookiePair.cookie?_text
    rw [hread, List.filterMap_eq_map]

namespace RequestHead

variable {request : RequestHead} {pairs : List CookiePair}

/-- The `Cookie` headers of a request, which may be several, list these pairs. -/
def CarriesCookies (request : RequestHead) (pairs : List CookiePair) : Prop :=
  ∃ groups : List (List CookiePair), groups.flatten = pairs ∧
    (request.headers.filter fun x => x.name == "cookie").map Header.value = groups.map cookieHeader

/-- The cookies of the request are the entries of its `pairs`. -/
theorem CarriesCookies.cookies_eq (h : request.CarriesCookies pairs) :
    request.cookies = pairs.map CookiePair.entry := by
  obtain ⟨groups, rfl, hvalues⟩ := h
  have hcookies : request.cookies =
    ((request.headers.filter fun x => x.name == "cookie").map Header.value).flatMap
      fun value => (Text.pieces ';' value.toList).filterMap cookie? := by
    rw [List.flatMap_map]
    rfl
  rw [hcookies, hvalues, List.flatMap_map, List.map_flatten]
  have hread : (fun group => (Text.pieces ';' (cookieHeader group).toList).filterMap cookie?) =
      List.map CookiePair.entry := funext cookies_cookieHeader
  rw [hread, List.flatMap_def]

/-- A cookie that all `pairs` of its name agree upon is found. -/
theorem CarriesCookies.cookieValue?_eq (h : request.CarriesCookies pairs) {name value : String}
    (hmem : ∃ p ∈ pairs, p.name = name) (hvalue : ∀ p ∈ pairs, p.name = name → p.value = value) :
    request.cookieValue? name = some value := by
  rw [cookieValue?, h.cookies_eq, List.find?_map]
  obtain ⟨p, hp, hname⟩ := hmem
  have hsome : (pairs.find? ((fun c => c.1 == name) ∘ CookiePair.entry)).isSome = true :=
    List.find?_isSome.2 ⟨p, hp, beq_iff_eq.2 hname⟩
  obtain ⟨q, hq⟩ := Option.isSome_iff_exists.1 hsome
  have hfound := List.find?_some hq
  have hqname : q.name = name := eq_of_beq hfound
  rw [hq, Option.map_some, Option.map_some, ← hvalue q (List.mem_of_find?_eq_some hq) hqname]
  rfl

end RequestHead

end ReverseProxy.Message
