import WebIndexer.Runtime.Text

/-! `parseRobotsTxt` of `src/fetcher.ts`. -/

namespace WebIndexer.Fetcher

open WebIndexer.Runtime

/-- The loop over the lines. A line that names a user agent decides whether the rules that
follow apply, by whether the name starts with a star. A line `disallow:` counts when some
text follows: that is when its trimmed path is not empty.
-/
def robotsLines (inOurAgent : Bool) : List (List Char) → List String
  | [] => []
  | line :: rest =>
      let trimmed := trim line
      match afterHead? "user-agent:".toList trimmed with
      | some agent => robotsLines ((agent.dropWhile isSpace).head? = some '*') rest
      | none =>
          match inOurAgent, afterHead? "disallow:".toList trimmed with
          | true, some path =>
              if trim path = [] then
                robotsLines inOurAgent rest
              else
                String.ofList (trim path) :: robotsLines inOurAgent rest
          | _, _ => robotsLines inOurAgent rest

/-- `parseRobotsTxt`: the blocked paths. -/
def parseRobotsTxt (body : String) : List String :=
  robotsLines false (splitOn '\n' body.toList)

example : parseRobotsTxt "User-agent: *\nDisallow: /private\nAllow: /" = ["/private"] := by
  decide

end WebIndexer.Fetcher
