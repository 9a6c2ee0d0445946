import WebIndexer.Crawl.Loop
import WebIndexer.Fetcher.RobotsCheck
import WebIndexer.Store.SearchIndex

/-! From a chain of redirects to the search page: the address that `fetchHtmlRaw` resolves with is
stored by `saveNode`, and `doSearch` of `src/html.ts` writes it into the `href` of a result. Its
`esc` serialises a text node, and keeps double quotes.
-/

namespace WebIndexer.Server

open WebIndexer.Crawl
open WebIndexer.Fetcher
open WebIndexer.Runtime
open WebIndexer.Store

/-- The serialisation of a character of a text node. -/
def escChar (char : Char) : List Char :=
  if char = '&' then
    "&amp;".toList
  else if char = '<' then
    "&lt;".toList
  else if char = '>' then
    "&gt;".toList
  else if char = '\u00A0' then
    "&nbsp;".toList
  else
    [char]

/-- `esc`. -/
def esc (s : String) : List Char := s.toList.flatMap escChar

/-- What `doSearch` writes before the address of a result. -/
def resultOpening : List Char := "<div class=\"res\"><a class=\"res-t\" href=\"".toList

/-- The markup that `doSearch` adds for a result, where `hl` highlights the words of the search. -/
def resultHtml (hl : List Nat → List Char) (r : FtsRow) : List Char :=
  let sn := if r.metaDescription ≠ "" then r.metaDescription else r.ogDescription
  let ti := if r.title ≠ "" then r.title else if r.ogTitle ≠ "" then r.ogTitle else r.url
  resultOpening ++ esc r.url ++ "\" target=\"_blank\">".toList ++ hl (codeUnits ti)
  ++ "</a><div class=\"res-u\">".toList ++ esc r.domain ++ " &middot; ".toList ++ esc r.url
  ++ "</div><div class=\"res-s\">".toList ++ hl ((codeUnits sn).take 250)
  ++ "</div></div>".toList

/-- The value of the `href` of a result, as an HTML parser delimits it: up to the next double
quote.
-/
def hrefValue (html : List Char) : List Char :=
  (html.drop resultOpening.length).takeWhile fun char => char != '"'

/-- The search row of a fetched page, as `saveNode` stores it. -/
def storedRow (env : Env) (shared : Shared) (job : FrontierItem) (page : FetchResult) : FtsRow :=
  let data := shared.pageData env job page.finalUrl (env.parsePage page.html page.finalUrl)
  Tables.indexRow data.url (Tables.nodeRow data)

/-- The redirects that `fetchHtmlRaw` follows, with the `Location` of each and the address that was
answered with it.
-/
def redirects (api : UrlApi) (servers : Servers) (url : String) : Nat → List (String × String)
  | 0 => []
  | requests + 1 =>
      if requestable api url then
        match servers url with
        | none => []
        | some res =>
            if 300 ≤ res.statusCode ∧ res.statusCode < 400 ∧ res.location ≠ "" then
              match redirectTarget api res.location url with
              | none => []
              | some target => (res.location, url) :: redirects api servers target requests
            else
              []
      else
        []

/-- A text has no double quote. -/
def Unquoted (text : String) : Prop := '"' ∉ text.toList

instance (text : String) : Decidable (Unquoted text) := inferInstanceAs (Decidable (¬ _))

/-- Serialised web addresses have no double quote outside their host name: the parser
percent-encodes it in every other part.
-/
def EncodesQuotes (api : UrlApi) : Prop :=
  ∀ text base parsed, api.resolve text base = some parsed →
    requestable api parsed.href = true → (Unquoted parsed.href ↔ Unquoted parsed.hostname)

/-- The last redirect of a chain, if there is one, leads to an address without a double quote: its
`Location` has none, where that is kept as it is, and the host name has none, where the `Location`
is resolved.
-/
def EndsUnquoted (api : UrlApi) (url : String) : Option (String × String) → Prop
  | none => Unquoted url
  | some (location, base) =>
      if startsWith location "http" then
        Unquoted location
      else
        ∀ parsed, api.resolve location base = some parsed → Unquoted parsed.hostname

-----------------------------------------------------------------------------------------
-- The search page
-----------------------------------------------------------------------------------------

/-- A double quote is the serialisation of a double quote alone. -/
theorem quote_mem_escChar {char : Char} : '"' ∈ escChar char ↔ char = '"' := by
  unfold escChar
  split_ifs with special special special special
  · rw [special]
    decide
  · rw [special]
    decide
  · rw [special]
    decide
  · rw [special]
    decide
  · rw [List.mem_singleton, eq_comm]

/-- Serialising a text keeps its double quotes, and adds none. -/
theorem quote_mem_esc {s : String} : '"' ∈ esc s ↔ '"' ∈ s.toList := by
  rw [esc, List.mem_flatMap]
  constructor
  · rintro ⟨char, member, quoted⟩
    rwa [quote_mem_escChar.mp quoted] at member
  · intro member
    exact ⟨'"', member, quote_mem_escChar.mpr rfl⟩

/-- What stands before a double quote is read whole when it has none itself. -/
theorem takeWhile_unquoted_iff {text rest : List Char}
    : (text ++ '"' :: rest).takeWhile (fun char => char != '"') = text ↔ '"' ∉ text := by
  induction text with
  | nil => simp
  | cons char text ih =>
      by_cases quote : char = '"'
      · simp [quote]
      · simp [quote, Ne.symm quote, ih]

/-- The address of a result stays inside its attribute exactly when it has no double quote. -/
theorem hrefValue_iff (hl : List Nat → List Char) (r : FtsRow)
    : hrefValue (resultHtml hl r) = esc r.url ↔ '"' ∉ esc r.url := by
  unfold hrefValue resultHtml
  simp only [List.append_assoc, List.drop_left]
  exact takeWhile_unquoted_iff

-----------------------------------------------------------------------------------------
-- The fetch
-----------------------------------------------------------------------------------------

variable {api : UrlApi} {servers : Servers} {url : String} {page : FetchResult}

/-- A fetch that resolves has issued its request, and ends there or follows a redirect. -/
theorem fetched_cases {requests : Nat}
    (fetched : fetchHtmlRaw api servers url (requests + 1) = some (some page))
    : requestable api url = true
      ∧ (page.finalUrl = url ∧ redirects api servers url (requests + 1) = []
        ∨ ∃ location target,
          redirectTarget api location url = some target
          ∧ fetchHtmlRaw api servers target requests = some (some page)
          ∧ redirects api servers url (requests + 1)
            = (location, url) :: redirects api servers target requests) := by
  unfold fetchHtmlRaw at fetched
  rw [redirects]
  by_cases issued : requestable api url = true
  · refine ⟨issued, ?_⟩
    rw [if_pos issued] at fetched ⊢
    cases served : servers url with
    | none => simp [served] at fetched
    | some res =>
        simp only [served] at fetched ⊢
        by_cases redirected : 300 ≤ res.statusCode ∧ res.statusCode < 400 ∧ res.location ≠ ""
        · rw [if_pos redirected] at fetched ⊢
          obtain ⟨target, leads, later⟩ := Option.bind_eq_some_iff.mp fetched
          exact .inr ⟨res.location, target, leads, later, by rw [leads]⟩
        · rw [if_neg redirected] at fetched ⊢
          split at fetched
          · cases fetched
          split at fetched
          · obtain rfl := Option.some.inj (Option.some.inj fetched)
            exact .inl ⟨rfl, rfl⟩
          · cases fetched
  · rw [if_neg issued] at fetched
    cases fetched

/-- A fetch resolves with the address that its last redirect leads to, by induction on the number
of requests.
-/
theorem finalUrl_of_fetched {requests : Nat}
    (fetched : fetchHtmlRaw api servers url requests = some (some page))
    : requestable api page.finalUrl = true
      ∧ match (redirects api servers url requests).getLast? with
        | none => page.finalUrl = url
        | some (location, base) => redirectTarget api location base = some page.finalUrl := by
  induction requests generalizing url with
  | zero => cases fetched
  | succ requests ih =>
      obtain ⟨issued, ⟨here, none_⟩ | ⟨location, target, leads, later, hops⟩⟩ :=
        fetched_cases fetched
      · rw [none_, here]
        exact ⟨issued, rfl⟩
      · obtain ⟨final, last⟩ := ih later
        refine ⟨final, ?_⟩
        rw [hops, List.getLast?_cons]
        cases earlier : (redirects api servers target requests).getLast? with
        | none =>
            rw [earlier] at last
            rw [last]
            exact leads
        | some hop =>
            rw [earlier] at last
            exact last

/-- The address has no double quote exactly when the last redirect leads to one without. -/
theorem unquoted_finalUrl_iff (encodes : EncodesQuotes api) {requests : Nat}
    (fetched : fetchHtmlRaw api servers url requests = some (some page))
    : Unquoted page.finalUrl
      ↔ EndsUnquoted api url (redirects api servers url requests).getLast? := by
  obtain ⟨final, last⟩ := finalUrl_of_fetched fetched
  cases hop : (redirects api servers url requests).getLast? with
  | none =>
      rw [hop] at last
      rw [last]
      exact Iff.rfl
  | some hop' =>
      obtain ⟨location, base⟩ := hop'
      rw [hop] at last
      change redirectTarget api location base = some page.finalUrl at last
      change _ ↔ if startsWith location "http" = true then Unquoted location
        else ∀ parsed, api.resolve location base = some parsed → Unquoted parsed.hostname
      unfold redirectTarget at last
      by_cases absolute : startsWith location "http" = true
      · rw [if_pos absolute] at last ⊢
        rw [Option.some.inj last]
      · simp only [if_neg absolute] at last ⊢
        obtain ⟨parsed, resolved, href⟩ := Option.map_eq_some_iff.mp last
        rw [← href] at final ⊢
        rw [encodes location base parsed resolved final, resolved]
        simp

/-- The address of a fetched page has no double quote on the search page, and stays inside its
attribute there, exactly when the last redirect leads to an address without one: an absolute
`Location` is stored as the server wrote it, a relative one as the parser serialises it.
-/
theorem finalUrl_contained_iff {env : Env} {shared : Shared} {job : FrontierItem}
    (hl : List Nat → List Char) (encodes : EncodesQuotes env.api)
    (fetched : fetchHtmlRaw env.api servers url 6 = some (some page))
    : ('"' ∉ esc page.finalUrl
        ∧ hrefValue (resultHtml hl (storedRow env shared job page)) = esc page.finalUrl)
      ↔ EndsUnquoted env.api url (redirects env.api servers url 6).getLast? := by
  have stored : (storedRow env shared job page).url = page.finalUrl := rfl
  have inside := hrefValue_iff hl (storedRow env shared job page)
  rw [stored] at inside
  rw [inside, and_self, quote_mem_esc]
  exact unquoted_finalUrl_iff encodes fetched

-----------------------------------------------------------------------------------------
-- A redirect to a quoted address
-----------------------------------------------------------------------------------------

/-- Percent-encode the double quotes of a path. -/
def encodeQuotes (text : String) : String :=
  String.ofList (text.toList.flatMap fun char => if char = '"' then "%22".toList else [char])

/-- The constructor's result on plain web addresses whose paths may have double quotes. -/
def encodedUrl (text : String) : Option Url :=
  ((plainUrl text).filter fun url => url.protocol ∈ ["http:", "https:"]).map fun url => {
    url with
    href := url.protocol ++ "//" ++ url.hostname ++ encodeQuotes url.pathname
    pathname := encodeQuotes url.pathname
  }

/-- The `URL` class on such addresses, and on absolute paths. -/
def encodingApi : UrlApi where
  parse := encodedUrl
  resolve text base :=
    if startsWith text "/" then
      (plainUrl base).bind fun parsed => encodedUrl (parsed.origin ++ text)
    else
      encodedUrl text

/-- The encoding leaves no double quote. -/
theorem unquoted_encodeQuotes (text : String) : Unquoted (encodeQuotes text) := by
  unfold Unquoted encodeQuotes
  rw [String.toList_ofList, List.mem_flatMap]
  rintro ⟨char, -, quoted⟩
  split at quoted
  · exact absurd quoted (by decide)
  · rename_i other
    exact other (List.mem_singleton.mp quoted).symm

/-- The addresses of this class have double quotes in their host names alone. -/
theorem encodingApi_encodesQuotes : EncodesQuotes encodingApi := by
  have encoded {text : String} {parsed : Url} (result : encodedUrl text = some parsed)
      : Unquoted parsed.href ↔ Unquoted parsed.hostname := by
    obtain ⟨url, web, rfl⟩ := Option.map_eq_some_iff.mp result
    obtain ⟨-, scheme⟩ := Option.filter_eq_some_iff.mp web
    have plain : '"' ∉ url.protocol.toList := by
      obtain http | https := List.mem_pair.mp (of_decide_eq_true scheme)
      · rw [http]
        decide
      · rw [https]
        decide
    have path : '"' ∉ (encodeQuotes url.pathname).toList := unquoted_encodeQuotes url.pathname
    simp [Unquoted, plain, path]
  intro text base parsed resolved _
  unfold encodingApi at resolved
  simp only at resolved
  split at resolved
  · obtain ⟨_, -, result⟩ := Option.bind_eq_some_iff.mp resolved
    exact encoded result
  · exact encoded resolved

/-- A server that redirects its front page to `location`, and serves every other address. -/
def redirectingServers (location : String) : Servers := fun url =>
  if url = "https://a.example/" then
    some ⟨301, location, "", ""⟩
  else
    some ⟨200, "", "text/html", "<title>page</title>"⟩

/-- The crawl of plain addresses, with this class. -/
def encodingEnv : Env := { State.plainEnv with api := encodingApi }

/-- The page that the front page leads to. -/
def quotedPage (finalUrl : String) : FetchResult := ⟨"<title>page</title>", finalUrl⟩

theorem finalUrl_contained_of_path
    : '"' ∉ esc "https://a.example/%22x"
      ∧ hrefValue (resultHtml (fun _ => []) (storedRow encodingEnv (State.plainCrawl []).shared
          ⟨"https://a.example/", 0, none⟩ (quotedPage "https://a.example/%22x")))
        = esc "https://a.example/%22x" := by
  have fetched
      : fetchHtmlRaw encodingEnv.api (redirectingServers "/\"x") "https://a.example/" 6
        = some (some (quotedPage "https://a.example/%22x")) := by
    decide +kernel
  have last
      : (redirects encodingEnv.api (redirectingServers "/\"x") "https://a.example/" 6).getLast?
        = some ("/\"x", "https://a.example/") := by
    decide +kernel
  have host
      : (encodingEnv.api.resolve "/\"x" "https://a.example/").map Url.hostname
        = some "a.example" := by
    decide +kernel
  refine (finalUrl_contained_iff _ encodingApi_encodesQuotes fetched).mpr ?_
  rw [last]
  intro parsed resolved
  rw [resolved, Option.map_some, Option.some.injEq] at host
  rw [host]
  decide

/-- An absolute `Location` brings its double quotes into the attribute. -/
theorem finalUrl_contained_fails_for_location
    : ¬∀ (env : Env) (servers : Servers) (url : String) (page : FetchResult),
        EncodesQuotes env.api →
          fetchHtmlRaw env.api servers url 6 = some (some page) → '"' ∉ esc page.finalUrl := by
  intro contained
  have fetched
      : fetchHtmlRaw encodingEnv.api (redirectingServers "https://a.example/\"x")
          "https://a.example/" 6
        = some (some (quotedPage "https://a.example/\"x")) := by
    decide +kernel
  exact contained encodingEnv _ _ _ encodingApi_encodesQuotes fetched (by decide)

end WebIndexer.Server
