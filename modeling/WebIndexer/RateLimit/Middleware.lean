import WebIndexer.Library.InsertionMap

/-! The rate limiters of `src/ratelimit.ts`. Both count the requests of an address in one
record of the map `clients`, each in its own counter, and either starts the record's window
anew once it has run out.
-/

namespace WebIndexer.RateLimit

open WebIndexer.Library

def rateLimitWindowMs : Nat := 60000
def rateLimitMax : Nat := 100
def rateLimitSearchMax : Nat := 30

/-- A record of `clients`. -/
structure Client where
  start : Nat
  count : Nat
  searchCount : Nat
  deriving DecidableEq, Repr

/-- The map `clients`, by the address of the client. -/
abbrev Clients := InsertionMap String Client

/-- The counter of a record that a limiter uses. -/
inductive Counter where
  | count
  | searchCount
  deriving DecidableEq, Repr

/-- The value of a counter. -/
def Client.read (client : Client) : Counter → Nat
  | .count => client.count
  | .searchCount => client.searchCount

/-- `c.count++`, or `c.searchCount++`. -/
def Client.bump (client : Client) : Counter → Client
  | .count => { client with count := client.count + 1 }
  | .searchCount => { client with searchCount := client.searchCount + 1 }

/-- The answer to a request: it is passed on, or it is rejected with status 429, a
`Retry-After` header in seconds and the text of an error.
-/
inductive Reply where
  | next
  | tooMany (retryAfter : Int) (error : String)
  deriving DecidableEq, Repr

/-- `getClient`: the record of an address, which is replaced once its window has run out. -/
def getClient (clients : Clients) (ip : String) (now : Nat) : Client × Clients :=
  let fresh : Client := ⟨now, 0, 0⟩
  match clients.get? ip with
  | some client =>
      if rateLimitWindowMs < now - client.start then
        (fresh, clients.set ip fresh)
      else
        (client, clients)
  | none => (fresh, clients.set ip fresh)

/-- `Math.ceil((RATE_LIMIT_WINDOW_MS - (Date.now() - c.start)) / 1000)`. -/
def retryAfter (client : Client) (now : Nat) : Int :=
  -(-((rateLimitWindowMs : Int) - ((now : Int) - client.start)) / 1000)

/-- What both limiters do. A Redis limiter decides if there is one and it answers; otherwise
the counter of the client does, with the clock read once more for the header.
-/
def limit (counter : Counter) (max : Nat) (error : String) (redis : Option Bool)
    (clients : Clients) (ip : String) (now later : Nat)
    : Reply × Clients :=
  match redis with
  | some true => (.next, clients)
  | some false => (.tooMany 60 error, clients)
  | none =>
      let (client, opened) := getClient clients ip now
      let counted := client.bump counter
      let stored := opened.set ip counted
      if max < counted.read counter then
        (.tooMany (retryAfter counted later) error, stored)
      else
        (.next, stored)

/-- `rateLimit`. -/
def rateLimit : Option Bool → Clients → String → Nat → Nat → Reply × Clients :=
  limit .count rateLimitMax "Too many requests. Try again later."

/-- `searchRateLimit`. -/
def searchRateLimit : Option Bool → Clients → String → Nat → Nat → Reply × Clients :=
  limit .searchCount rateLimitSearchMax "Search rate limit exceeded. Try again later."

/-- `cleanupClients`, which the timer runs. -/
def cleanupClients (clients : Clients) (now : Nat) : Clients :=
  clients.filter fun entry => ¬ rateLimitWindowMs * 2 < now - entry.2.start

end WebIndexer.RateLimit
