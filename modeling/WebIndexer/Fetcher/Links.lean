import WebIndexer.Fetcher.Domain

/-! The link loop of `parsePage` in `src/fetcher.ts`. -/

namespace WebIndexer.Fetcher

open WebIndexer.Runtime

/-- The quotes that `["']` matches. -/
def isQuote (char : Char) : Bool := char = '"' || char = '\''

/-- The text that `/href=["']([^"'#]+)/gi` captures when it matches at the head of a text. -/
def hrefAt (text : List Char) : Option (List Char) :=
  match afterHead? "href=".toList text with
  | some (quote :: rest) =>
      let captured := rest.takeWhile fun char => ¬ (isQuote char ∨ char = '#')
      if isQuote quote ∧ captured ≠ [] then some captured else none
  | _ => none

/-- The captures of all matches, from the left. The search goes on behind a match: the next
`skip` characters belong to the last one, whose head takes six.
-/
def hrefsFrom (skip : Nat) : List Char → List (List Char)
  | [] => []
  | char :: rest =>
      match skip with
      | skip + 1 => hrefsFrom skip rest
      | 0 =>
          match hrefAt (char :: rest) with
          | some captured => captured :: hrefsFrom (captured.length + 5) rest
          | none => hrefsFrom 0 rest

/-- The address that a capture becomes, if it can be resolved and its text begins with `http`.
-/
def pageLink (api : UrlApi) (url : String) (captured : List Char) : Option String :=
  ((api.resolve (String.ofList captured) url).map Url.href).filter (startsWith · "http")

/-- The `links` of `parsePage(html, url)`. -/
def pageLinks (api : UrlApi) (html url : String) : List String :=
  (hrefsFrom 0 html.toList).filterMap (pageLink api url)

/-- A link is the text of a resolved address. -/
theorem resolved_of_mem_pageLinks {api : UrlApi} {html url link : String}
    (member : link ∈ pageLinks api html url)
    : ∃ text parsed, api.resolve text url = some parsed ∧ parsed.href = link := by
  obtain ⟨captured, _, found⟩ := List.mem_filterMap.mp member
  obtain ⟨resolved, _⟩ := Option.filter_eq_some_iff.mp found
  obtain ⟨parsed, resolves, same⟩ := Option.map_eq_some_iff.mp resolved
  exact ⟨_, parsed, resolves, same⟩

/-- The target of a redirect is its `Location`, or the text of a resolved address. -/
theorem resolved_of_redirectTarget {api : UrlApi} {location current target : String}
    (relative : startsWith location "http" = false)
    (followed : redirectTarget api location current = some target)
    : ∃ parsed, api.resolve location current = some parsed ∧ parsed.href = target := by
  rw [redirectTarget, if_neg (by simp [relative])] at followed
  exact Option.map_eq_some_iff.mp followed

example
    : pageLinks plainUrlApi "<a HREF='https://b.example/2#top'>" "https://a.example/"
      = ["https://b.example/2"] := by
  decide +kernel

end WebIndexer.Fetcher
