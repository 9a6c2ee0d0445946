import WebIndexer.Fetcher.Links

/-! The link loop of `parsePage` in `src/fetcher.ts`, with the `lastIndex` that its global regular
expression carries from one match to the next. It ends, takes the links in the order of the text,
and keeps every resolved address whose text begins with `http`, whatever scheme that is.
-/

namespace WebIndexer.Fetcher

open WebIndexer.Runtime

/-- A match of `/href=["']([^"'#]+)/gi`: where it stands, and what it captures. -/
structure HrefMatch where
  position : Nat
  captured : List Char

/-- The position behind a match: its head takes six characters. -/
def HrefMatch.lastIndex (found : HrefMatch) : Nat := found.position + 6 + found.captured.length

/-- The first match in a text that stands at the given position. -/
def execFrom (position : Nat) : List Char → Option HrefMatch
  | [] => none
  | char :: rest =>
      match hrefAt (char :: rest) with
      | some captured => some ⟨position, captured⟩
      | none => execFrom (position + 1) rest

/-- `re.exec(html)`: the first match from `lastIndex` on. -/
def exec (html : List Char) (lastIndex : Nat) : Option HrefMatch :=
  execFrom lastIndex (html.drop lastIndex)

/-- The loop of `parsePage` over the matches, as far as its fuel lasts. -/
def linkLoop (api : UrlApi) (url : String) (html : List Char)
    : Nat → Nat → List String → Option (List String)
  | 0, _, _ => none
  | fuel + 1, lastIndex, links =>
      match exec html lastIndex with
      | none => some links
      | some found =>
          linkLoop api url html fuel found.lastIndex
            (links ++ (pageLink api url found.captured).toList)

/-- The resolved addresses are written as the standard has it: the scheme comes first, up to the
first colon, the parser reads back what it has written, and there is no fragment without a `#`.
-/
structure Serialises (api : UrlApi) : Prop where
  scheme
    : ∀ {text base parsed}, api.resolve text base = some parsed →
      ∃ name rest,
        ':' ∉ name
        ∧ parsed.protocol.toList = name ++ [':']
        ∧ parsed.href.toList = name ++ ':' :: rest
  reparses
    : ∀ {text base parsed}, api.resolve text base = some parsed →
      api.parse parsed.href = some parsed
  fragment
    : ∀ {text base parsed}, api.resolve text base = some parsed →
      '#' ∉ text.toList → '#' ∉ parsed.href.toList

/-- A link is an absolute address whose scheme is `http` or `https`, without a fragment. -/
def Crawlable (api : UrlApi) (link : String) : Prop :=
  ∃ parsed,
    api.parse link = some parsed
    ∧ parsed.href = link
    ∧ (parsed.protocol = "http:" ∨ parsed.protocol = "https:")
    ∧ '#' ∉ link.toList

/-- The links come from matches in the text, in the order of their positions. -/
def InTextOrder (api : UrlApi) (html url : String) (links : List String) : Prop :=
  ∃ found : List HrefMatch,
    found.Pairwise (fun earlier later => earlier.lastIndex ≤ later.position)
    ∧ (∀ m ∈ found, hrefAt (html.toList.drop m.position) = some m.captured)
    ∧ links = found.filterMap fun m => pageLink api url m.captured

/-- The link loop ends, with crawlable links in the order of the text. -/
def LinksCrawlable (api : UrlApi) (html url : String) : Prop :=
  ∃ links,
    (∀ fuel, html.toList.length < fuel → linkLoop api url html.toList fuel 0 [] = some links)
    ∧ InTextOrder api html url links
    ∧ ∀ link ∈ links, Crawlable api link

/-- An address in an `href` of the page whose scheme begins with `http` has the scheme `http` or
`https`.
-/
def OnlyWebSchemes (api : UrlApi) (html url : String) : Prop :=
  ∀ captured ∈ hrefsFrom 0 html.toList, ∀ parsed,
    api.resolve (String.ofList captured) url = some parsed →
    startsWith parsed.protocol "http" = true →
    parsed.protocol = "http:" ∨ parsed.protocol = "https:"

-----------------------------------------------------------------------------------------
-- One match
-----------------------------------------------------------------------------------------

/-- The characters of a match that are still to be skipped are not searched, by induction on the
text.
-/
theorem hrefsFrom_drop (skip : Nat) (text : List Char)
    : hrefsFrom skip text = hrefsFrom 0 (text.drop skip) := by
  induction text generalizing skip with
  | nil => rw [List.drop_nil]; rfl
  | cons char rest ih =>
      cases skip with
      | zero => rfl
      | succ skip => exact ih skip

/-- Behind a match at the head of a text the search goes on where it ends. -/
theorem hrefsFrom_of_hrefAt {text captured : List Char} (found : hrefAt text = some captured)
    : hrefsFrom 0 text = captured :: hrefsFrom 0 (text.drop (6 + captured.length)) := by
  cases text with
  | nil => cases found
  | cons char rest =>
      have behind : 6 + captured.length = (captured.length + 5) + 1 := by omega
      simp only [hrefsFrom, found, hrefsFrom_drop (captured.length + 5) rest, behind,
        List.drop_succ_cons]

/-- Without a match there is nothing to capture, by induction on the text. -/
theorem hrefsFrom_of_execFrom_none {position : Nat} {text : List Char}
    (none_found : execFrom position text = none)
    : hrefsFrom 0 text = [] := by
  induction text generalizing position with
  | nil => rfl
  | cons char rest ih =>
      unfold execFrom at none_found
      cases here : hrefAt (char :: rest) with
      | some captured => simp [here] at none_found
      | none =>
          simp only [here] at none_found
          simp only [hrefsFrom, here]
          exact ih none_found

/-- What is found from a position on: a match at it or later, which is the first capture, and
behind which the other captures are. By induction on the text.
-/
theorem execFrom_spec {position : Nat} {text : List Char} {found : HrefMatch}
    (first : execFrom position text = some found)
    : position ≤ found.position
      ∧ hrefAt (text.drop (found.position - position)) = some found.captured
      ∧ hrefsFrom 0 text
        = found.captured :: hrefsFrom 0 (text.drop (found.lastIndex - position)) := by
  induction text generalizing position with
  | nil => cases first
  | cons char rest ih =>
      unfold execFrom at first
      cases here : hrefAt (char :: rest) with
      | some captured =>
          simp only [here, Option.some.injEq] at first
          subst first
          have behind : position + 6 + captured.length - position = 6 + captured.length := by
            omega
          refine ⟨Nat.le_refl _, ?_, ?_⟩
          · rw [Nat.sub_self, List.drop_zero, here]
          · rw [hrefsFrom_of_hrefAt here, HrefMatch.lastIndex, behind]
      | none =>
          simp only [here] at first
          obtain ⟨after, matches_there, captures⟩ := ih first
          have shift : found.position - position = found.position - (position + 1) + 1 := by
            omega
          have behind : found.lastIndex - position = found.lastIndex - (position + 1) + 1 := by
            unfold HrefMatch.lastIndex
            omega
          refine ⟨Nat.le_of_succ_le after, ?_, ?_⟩
          · rw [shift, List.drop_succ_cons, matches_there]
          · rw [behind, List.drop_succ_cons, ← captures]
            simp only [hrefsFrom, here]

/-- What a match captures holds no `#`. -/
theorem not_mem_of_hrefAt {text captured : List Char} (found : hrefAt text = some captured)
    : '#' ∉ captured := by
  unfold hrefAt at found
  split at found
  · rename_i quote rest _
    simp only at found
    split at found
    · obtain rfl := Option.some.inj found
      intro member
      simpa using List.all_eq_true.mp List.all_takeWhile _ member
    · cases found
  · cases found

-----------------------------------------------------------------------------------------
-- The loop
-----------------------------------------------------------------------------------------

/-- With fuel for the rest of the text the loop ends. It appends the links of matches behind
`lastIndex`, in the order of their positions, which are all captures there. By induction on the
fuel.
-/
theorem linkLoop_spec (api : UrlApi) (url : String) (html : List Char) {fuel lastIndex : Nat}
    (links : List String) (enough : html.length - lastIndex < fuel)
    : ∃ found : List HrefMatch,
        linkLoop api url html fuel lastIndex links
          = some (links ++ found.filterMap fun m => pageLink api url m.captured)
        ∧ found.map HrefMatch.captured = hrefsFrom 0 (html.drop lastIndex)
        ∧ found.Pairwise (fun earlier later => earlier.lastIndex ≤ later.position)
        ∧ ∀ m ∈ found,
            lastIndex ≤ m.position ∧ hrefAt (html.drop m.position) = some m.captured := by
  induction fuel generalizing lastIndex links with
  | zero => exact absurd enough (Nat.not_lt_zero _)
  | succ fuel ih =>
      unfold linkLoop exec
      cases next : execFrom lastIndex (html.drop lastIndex) with
      | none =>
          refine ⟨[], by simp, ?_, .nil, by simp⟩
          rw [hrefsFrom_of_execFrom_none next, List.map_nil]
      | some found =>
          obtain ⟨after, matches_there, captures⟩ := execFrom_spec next
          have progress : lastIndex < found.lastIndex := by
            unfold HrefMatch.lastIndex
            omega
          have inside : lastIndex < html.length := by
            by_contra outside
            rw [List.drop_eq_nil_of_le (Nat.not_lt.mp outside)] at next
            cases next
          obtain ⟨others, same, captured, ordered, matched⟩ :=
            @ih found.lastIndex (links ++ (pageLink api url found.captured).toList) (by omega)
          rw [List.drop_drop] at matches_there captures
          rw [Nat.add_sub_cancel' after] at matches_there
          rw [Nat.add_sub_cancel' (Nat.le_of_lt progress)] at captures
          refine ⟨found :: others, ?_, ?_, List.pairwise_cons.mpr ⟨?_, ordered⟩, ?_⟩
          · simp only [same, List.append_assoc, List.filterMap_cons]
            cases pageLink api url found.captured <;> rfl
          · rw [List.map_cons, captured, captures]
          · exact fun m member => (matched m member).1
          · refine List.forall_mem_cons.mpr ⟨⟨after, matches_there⟩, fun m member => ?_⟩
            exact ⟨progress.le.trans (matched m member).1, (matched m member).2⟩

/-- The loop ends with the links of the page, which are in the order of the text. -/
theorem linkLoop_eq (api : UrlApi) (html url : String)
    : (∀ fuel, html.toList.length < fuel →
        linkLoop api url html.toList fuel 0 [] = some (pageLinks api html url))
      ∧ InTextOrder api html url (pageLinks api html url) := by
  have links {found : List HrefMatch}
      (captured : found.map HrefMatch.captured = hrefsFrom 0 (html.toList.drop 0))
      : pageLinks api html url = found.filterMap fun m => pageLink api url m.captured := by
    rw [pageLinks, ← @List.drop_zero _ html.toList, ← captured, List.filterMap_map]
    rfl
  constructor
  · intro fuel enough
    obtain ⟨found, same, captured, -, -⟩ := linkLoop_spec api url html.toList []
      ((Nat.sub_le _ 0).trans_lt enough)
    rw [same, List.nil_append, links captured]
  · obtain ⟨found, -, captured, ordered, matched⟩ := linkLoop_spec api url html.toList []
      (Nat.lt_succ_of_le (Nat.sub_le html.toList.length 0))
    exact ⟨found, ordered, fun m member => (matched m member).2, links captured⟩

-----------------------------------------------------------------------------------------
-- The links
-----------------------------------------------------------------------------------------

/-- The captures are free of `#`, by induction on the text. -/
theorem not_mem_of_mem_hrefsFrom {skip : Nat} {text captured : List Char}
    (member : captured ∈ hrefsFrom skip text)
    : '#' ∉ captured := by
  induction text generalizing skip with
  | nil => exact absurd member List.not_mem_nil
  | cons char rest ih =>
      cases skip with
      | succ skip => exact ih member
      | zero =>
          cases here : hrefAt (char :: rest) with
          | none =>
              simp only [hrefsFrom, here] at member
              exact ih member
          | some first =>
              simp only [hrefsFrom, here] at member
              rcases List.mem_cons.mp member with rfl | later
              · exact not_mem_of_hrefAt here
              · exact ih later

/-- The text of a resolved address begins with `http` when its scheme does. -/
theorem Serialises.startsWith_iff {api : UrlApi} {text base : String} {parsed : Url}
    (serialises : Serialises api) (resolves : api.resolve text base = some parsed)
    : startsWith parsed.href "http" = true ↔ startsWith parsed.protocol "http" = true := by
  obtain ⟨name, rest, -, protocol, href⟩ := serialises.scheme resolves
  have parts : parsed.protocol.toList <+: parsed.href.toList := by
    rw [protocol, href]
    exact ⟨rest, by simp⟩
  unfold startsWith
  rw [List.isPrefixOf_iff_prefix, List.isPrefixOf_iff_prefix]
  constructor
  · intro starts
    rcases List.prefix_or_prefix_of_prefix starts parts with short | long
    · exact short
    · -- the scheme would end inside of `http`, which has no colon
      have colon : ':' ∈ "http".toList := long.subset (by simp [protocol])
      exact absurd colon (by decide)
  · exact fun starts => starts.trans parts

/-- A link of the page is an address that an `href` resolves to, with a scheme that begins with
`http`.
-/
theorem mem_pageLinks_iff {api : UrlApi} {html url link : String} (serialises : Serialises api)
    : link ∈ pageLinks api html url
      ↔ ∃ captured ∈ hrefsFrom 0 html.toList, ∃ parsed,
          api.resolve (String.ofList captured) url = some parsed
          ∧ startsWith parsed.protocol "http" = true ∧ parsed.href = link := by
  rw [pageLinks, List.mem_filterMap]
  refine exists_congr fun captured => and_congr_right fun _ => ?_
  rw [pageLink, Option.filter_eq_some_iff, Option.map_eq_some_iff]
  constructor
  · rintro ⟨⟨parsed, resolves, rfl⟩, starts⟩
    exact ⟨parsed, resolves, (serialises.startsWith_iff resolves).mp starts, rfl⟩
  · rintro ⟨parsed, resolves, starts, rfl⟩
    exact ⟨⟨parsed, resolves, rfl⟩, (serialises.startsWith_iff resolves).mpr starts⟩

/-- A resolved address of a capture is crawlable when its scheme is `http` or `https`. -/
theorem Serialises.crawlable_iff {api : UrlApi} {captured : List Char} {base : String}
    {parsed : Url} (serialises : Serialises api) (clear : '#' ∉ captured)
    (resolves : api.resolve (String.ofList captured) base = some parsed)
    : Crawlable api parsed.href ↔ parsed.protocol = "http:" ∨ parsed.protocol = "https:" := by
  have again := serialises.reparses resolves
  constructor
  · rintro ⟨other, parses, -, scheme, -⟩
    obtain rfl := Option.some.inj (again.symm.trans parses)
    exact scheme
  · intro scheme
    exact ⟨parsed, again, rfl, scheme, serialises.fragment resolves (by simpa using clear)⟩

/-- The link loop ends for every page, with links in the order of the text. They are all
crawlable if and only if no `href` of the page resolves to an address whose scheme begins with
`http` and is neither `http` nor `https`.
-/
theorem linksCrawlable_iff (api : UrlApi) (serialises : Serialises api) (html url : String)
    : LinksCrawlable api html url ↔ OnlyWebSchemes api html url := by
  obtain ⟨ends, ordered⟩ := linkLoop_eq api html url
  constructor
  · rintro ⟨links, same, -, crawlable⟩ captured member parsed resolves starts
    have found := (same _ (Nat.lt_succ_self _)).symm.trans (ends _ (Nat.lt_succ_self _))
    have link : parsed.href ∈ links := by
      rw [Option.some.inj found]
      exact (mem_pageLinks_iff serialises).mpr
        ⟨captured, member, parsed, resolves, starts, rfl⟩
    exact (serialises.crawlable_iff (not_mem_of_mem_hrefsFrom member) resolves).mp
      (crawlable _ link)
  · intro web
    refine ⟨_, ends, ordered, fun link member => ?_⟩
    obtain ⟨captured, listed, parsed, resolves, starts, rfl⟩ :=
      (mem_pageLinks_iff serialises).mp member
    exact (serialises.crawlable_iff (not_mem_of_mem_hrefsFrom listed) resolves).mpr
      (web captured listed parsed resolves starts)

/-- A plain address that has been parsed begins with its scheme, and keeps its text. -/
theorem plainUrl_spec {text : String} {parsed : Url} (parses : plainUrl text = some parsed)
    : parsed.href = text
      ∧ ∃ name rest,
          ':' ∉ name
          ∧ parsed.protocol.toList = name ++ [':']
          ∧ text.toList = name ++ ':' :: rest := by
  have parts {rest : List Char} (behind : (splitAtFirst ':' text.toList).2 = '/' :: rest)
      : text.toList = (splitAtFirst ':' text.toList).1 ++ ':' :: '/' :: rest := by
    rw [← behind]
    exact (splitAtFirst_parts (by rw [behind]; exact List.cons_ne_nil _ _)).symm
  unfold plainUrl at parses
  simp only at parses
  split at parses
  · rename_i rest address
    split at parses
    · cases parses
    · obtain rfl := Option.some.inj parses
      exact ⟨rfl, _, _, not_mem_splitAtFirst ':' text.toList, by simp, parts address⟩
  · cases parses

/-- Plain addresses are written as the standard has it. -/
theorem plainUrlApi_serialises : Serialises plainUrlApi where
  scheme := by
    intro text base parsed resolves
    obtain ⟨same, parts⟩ := plainUrl_spec resolves
    rwa [same]
  reparses := by
    intro text base parsed resolves
    rw [(plainUrl_spec resolves).1]
    exact resolves
  fragment := by
    intro text base parsed resolves clear
    rwa [(plainUrl_spec resolves).1]

/-- A page with two links. -/
theorem linksCrawlable_of_two
    : LinksCrawlable plainUrlApi "<a href='https://b.example/'>b</a><a href='mailto:c'>c</a>"
        "https://a.example/" := by
  refine (linksCrawlable_iff _ plainUrlApi_serialises _ _).mpr fun captured member => ?_
  have captures : captured ∈ ["https://b.example/".toList, "mailto:c".toList] := by
    revert member
    have same : hrefsFrom 0 "<a href='https://b.example/'>b</a><a href='mailto:c'>c</a>".toList
        = ["https://b.example/".toList, "mailto:c".toList] := by
      decide +kernel
    rw [same]
    exact id
  rcases List.mem_pair.mp captures with rfl | rfl
  · intro parsed resolves _
    obtain rfl := Option.some.inj resolves
    exact .inr (by decide)
  · intro parsed resolves
    cases resolves

/-- An address whose scheme merely begins with `http` becomes a link. -/
theorem linksCrawlable_fails_for_scheme
    : ¬ ∀ api, Serialises api → ∀ html url, LinksCrawlable api html url := by
  intro claim
  obtain ⟨links, ends, -, crawlable⟩ := claim plainUrlApi plainUrlApi_serialises
    "<a href='httpx://b.example/'>b</a>" "https://a.example/"
  have found : linkLoop plainUrlApi "https://a.example/"
      "<a href='httpx://b.example/'>b</a>".toList 35 0 [] = some ["httpx://b.example/"] := by
    decide +kernel
  obtain rfl := Option.some.inj ((ends 35 (by decide)).symm.trans found)
  obtain ⟨parsed, parses, -, scheme, -⟩ := crawlable _ (List.mem_singleton_self _)
  obtain rfl := Option.some.inj parses
  exact absurd scheme (by decide +kernel)

end WebIndexer.Fetcher
