/-! The constants of `src/config.ts` that the crawl reads, and its backend switch. -/

namespace WebIndexer.Config

def maxNodes : Nat := 50000000
def maxFrontier : Nat := 10000000
def concurrency : Nat := 2
def domainLimit : Nat := 2
def domainMax : Nat := 200
def queueLowWater : Nat := 10000
def minDiskMb : Nat := 500
def diskMaxUsagePct : Nat := 80
def maxDepth : Int := 10
def frontierMax : Nat := 50000

/-- `FETCH_TIMEOUT`, in milliseconds. -/
def fetchTimeout : Nat := 1500

/-- `ROBOTS_CACHE_MAX`, which `src/fetcher.ts` defines. -/
def robotsCacheMax : Nat := 10000

/-- The hosts whose pages, and whose subdomains' pages, are never crawled. -/
def blacklist : List String := [
  "facebook.com", "instagram.com", "twitter.com", "x.com", "tiktok.com", "snapchat.com",
  "linkedin.com", "pinterest.com", "reddit.com", "threads.net", "mastodon.social",
  "doubleclick.net", "googlesyndication.com", "google-analytics.com",
  "googletagmanager.com", "ads.yahoo.com", "advertising.com", "facebook.net", "fbcdn.net",
  "amazon-adsystem.com", "adservice.google.com", "pagead2.googlesyndication.com",
  "adnxs.com", "adsrvr.org", "demdex.net", "casalemedia.com",
  "cloudflareinsights.com", "bat.bing.com", "mc.yandex.ru",
  "amazonaws.com", "cloudfront.net", "akamaihd.net",
  "quantserve.com", "scorecardresearch.com", "bluekai.com",
  "rubiconproject.com", "pubmatic.com", "openx.net",
  "criteo.com", "criteo.net", "taboola.com", "outbrain.com"
]

/-- `DB_BACKEND`. -/
inductive Backend where
  | sqlite
  | pg
  deriving DecidableEq, Repr

end WebIndexer.Config
