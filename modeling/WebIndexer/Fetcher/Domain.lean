import WebIndexer.Config
import WebIndexer.Runtime.Url

/-! The address functions of `src/fetcher.ts`. -/

namespace WebIndexer.Fetcher

open WebIndexer.Runtime

/-- `getDomain`: the host name without the first `www.` in it, or the empty string. -/
def getDomain (api : UrlApi) (url : String) : String :=
  match api.parse url with
  | some parsed => replaceFirst parsed.hostname "www." ""
  | none => ""

/-- `isBlacklisted`. -/
def isBlacklisted (api : UrlApi) (url : String) : Bool :=
  match api.parse url with
  | some parsed =>
      let host := replaceFirst parsed.hostname "www." ""
      Config.blacklist.any fun entry => host = entry || endsWith host ("." ++ entry)
  | none => true

/-- `fetchHtmlRaw` picks `https.get` or `http.get` by the text of the address, and either
throws unless the parsed address has its own protocol. Only then is a request issued.
-/
def requestable (api : UrlApi) (url : String) : Bool :=
  match api.parse url with
  | some parsed => parsed.protocol = if startsWith url "https" then "https:" else "http:"
  | none => false

/-- The address that `fetchHtmlRaw` follows a `Location` header to; `new URL` may throw. -/
def redirectTarget (api : UrlApi) (location current : String) : Option String :=
  if startsWith location "http" then
    some location
  else
    (api.resolve location current).map Url.href

end WebIndexer.Fetcher
