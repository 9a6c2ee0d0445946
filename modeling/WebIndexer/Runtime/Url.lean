import WebIndexer.Runtime.Text

/-! The WHATWG `URL` class of the runtime, as far as the program reads it. The parser itself
is a parameter of the model.
-/

namespace WebIndexer.Runtime

/-- The fields of a parsed `URL`. -/
structure Url where
  href : String
  protocol : String
  origin : String
  hostname : String
  pathname : String
  deriving DecidableEq, Repr

/-- The `URL` constructor: `new URL(text)` and `new URL(text, base)`, with `none` where it
throws.
-/
structure UrlApi where
  parse : String → Option Url
  resolve : String → String → Option Url

/-- The parser keeps the text of an address that it has resolved. -/
def UrlApi.Canonicalises (api : UrlApi) : Prop :=
  ∀ text base parsed again,
    api.resolve text base = some parsed → api.parse parsed.href = some again →
    again.href = parsed.href

/-- The part of a character list before and after the first `separator`. -/
def splitAtFirst (separator : Char) : List Char → List Char × List Char
  | [] => ([], [])
  | head :: rest =>
      if head = separator then
        ([], rest)
      else
        (head :: (splitAtFirst separator rest).1, (splitAtFirst separator rest).2)

/-- The constructor's result on plain addresses, of the form `https://host/path` in lower
case, which the parser keeps as they are; other texts count as unparseable.
-/
def plainUrl (text : String) : Option Url :=
  let (scheme, address) := splitAtFirst ':' text.toList
  let protocol := String.ofList (scheme ++ [':'])
  match address with
  | '/' :: '/' :: rest =>
      let (host, path) := splitAtFirst '/' rest
      if host = [] then
        none
      else
        some {
          href := text
          protocol := protocol
          origin := protocol ++ "//" ++ String.ofList host
          hostname := String.ofList host
          pathname := String.ofList ('/' :: path)
        }
  | _ => none

/-- The `URL` class on plain addresses. -/
def plainUrlApi : UrlApi where
  parse := plainUrl
  resolve text _ := plainUrl text

/-- A text is split at the separator that follows a part without one, by induction on that
part.
-/
theorem splitAtFirst_append {separator : Char} {head : List Char} (rest : List Char)
    (clear : separator ∉ head)
    : splitAtFirst separator (head ++ separator :: rest) = (head, rest) := by
  induction head with
  | nil => simp [splitAtFirst]
  | cons char head ih =>
      have differs : char ≠ separator := (List.ne_of_not_mem_cons clear).symm
      have clear : separator ∉ head := List.not_mem_of_not_mem_cons clear
      simp [splitAtFirst, ih clear, differs]

/-- The part before the first separator has none, by induction over the text. -/
theorem not_mem_splitAtFirst (separator : Char) (text : List Char)
    : separator ∉ (splitAtFirst separator text).1 := by
  induction text with
  | nil => simp [splitAtFirst]
  | cons char rest ih =>
      unfold splitAtFirst
      split
      · simp
      · rename_i differs
        simp [ih, Ne.symm differs]

/-- The two parts around the first separator make up the text, by induction over it. -/
theorem splitAtFirst_parts {separator : Char} {text : List Char}
    (found : (splitAtFirst separator text).2 ≠ [])
    : (splitAtFirst separator text).1 ++ separator :: (splitAtFirst separator text).2 = text := by
  induction text with
  | nil => exact absurd rfl found
  | cons char rest ih =>
      unfold splitAtFirst at found ⊢
      split
      · rename_i same
        rw [same, List.nil_append]
      · rename_i differs
        rw [if_neg differs] at found
        rw [List.cons_append, ih found]

/-- The constructor's result on addresses of the form `https://host/path` in lower case, whose
path may be missing: the text that it writes has one.
-/
def pathedUrl (text : String) : Option Url :=
  (plainUrl text).map fun url =>
    { url with href := url.origin ++ url.pathname }

/-- The `URL` class on such addresses. -/
def pathedUrlApi : UrlApi where
  parse := pathedUrl
  resolve text _ := pathedUrl text

/-- The address that some parts write. -/
def address (scheme host path : List Char) : String :=
  String.ofList (scheme ++ ':' :: '/' :: '/' :: (host ++ '/' :: path))

/-- A plain address that has been parsed writes its parts, with the path that may be missing. -/
theorem pathed_of_plainUrl {text : String} {url : Url} (plain : plainUrl text = some url)
    : ∃ scheme host path,
        ':' ∉ scheme ∧ '/' ∉ host ∧ host ≠ []
        ∧ url.origin ++ url.pathname = address scheme host path := by
  unfold plainUrl at plain
  simp only at plain
  split at plain
  · rename_i rest _
    split at plain
    · cases plain
    · rename_i named
      obtain rfl := Option.some.inj plain
      refine ⟨_, _, (splitAtFirst '/' rest).2, not_mem_splitAtFirst ':' text.toList,
        not_mem_splitAtFirst '/' rest, named, ?_⟩
      apply String.toList_injective
      simp [address]
  · cases plain

/-- The parts of an address are found again. -/
theorem plainUrl_address {scheme host path : List Char} {url : Url} (noColon : ':' ∉ scheme)
    (noSlash : '/' ∉ host) (named : host ≠ [])
    (plain : plainUrl (address scheme host path) = some url)
    : url.origin ++ url.pathname = address scheme host path := by
  simp only [plainUrl, address, String.toList_ofList, splitAtFirst_append _ noColon,
    splitAtFirst_append _ noSlash, named, if_false] at plain
  obtain rfl := Option.some.inj plain
  apply String.toList_injective
  simp [address]

/-- The parser keeps the path that it has written. -/
theorem pathedUrlApi_canonicalises : pathedUrlApi.Canonicalises := by
  intro text base parsed again resolves parses
  obtain ⟨url, plain, rfl⟩ := Option.map_eq_some_iff.mp resolves
  obtain ⟨other, replain, rfl⟩ := Option.map_eq_some_iff.mp parses
  obtain ⟨scheme, host, path, noColon, noSlash, named, writes⟩ := pathed_of_plainUrl plain
  simp only [writes] at replain ⊢
  exact plainUrl_address noColon noSlash named replain

example : (plainUrl "https://www.a.example/news").map Url.hostname = some "www.a.example" := by
  decide

end WebIndexer.Runtime
