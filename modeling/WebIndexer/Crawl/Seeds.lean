import Mathlib.Data.List.Basic

/-! `getRandomSeeds` of `src/seeds.ts`. What `Math.random()` decides is given: the two shuffled
lists, and the choices of languages, topics and pages.
-/

namespace WebIndexer.Crawl

/-- `SEED_BATCH` -/
def seedBatch : Nat := 500

/-- `SEEDS`, `WIKI_LANGS` and `WIKI_TOPICS` of `src/config.ts`. -/
structure SeedLists where
  seeds : List String
  langs : List String
  topics : List String

/-- What is drawn: `SEEDS` and `WIKI_TOPICS` as they were shuffled, and the languages, topics and
pages that each round of the last two loops has picked.
-/
structure Draw (lists : SeedLists) where
  shuffledExtra : List String
  shuffledWiki : List String
  articles : Nat → String × String
  pages : Nat → Nat
  extra : shuffledExtra.Perm lists.seeds
  wiki : shuffledWiki.Perm lists.topics
  articles_listed : ∀ i, (articles i).1 ∈ lists.langs ∧ (articles i).2 ∈ lists.topics
  pages_bounded : ∀ i, 1 ≤ pages i ∧ pages i ≤ 5000

variable {lists : SeedLists}

/-- The address of an English article. -/
def wikiUrl (topic : String) : String := "https://en.wikipedia.org/wiki/" ++ topic

/-- The address of an article. -/
def articleUrl (article : String × String) : String :=
  "https://" ++ article.1 ++ ".wikipedia.org/wiki/" ++ article.2

/-- The address of a page of recent changes. -/
def changesUrl (page : Nat) : String :=
  "https://en.wikipedia.org/w/index.php?special=recentchanges&limit=50&offset="
    ++ toString (page * 50)

/-- `getRandomSeeds(count)` -/
def getRandomSeeds (draw : Draw lists) (count : Nat) : List String :=
  draw.shuffledExtra.take (min count draw.shuffledExtra.length)
    ++ (draw.shuffledWiki.take (min count draw.shuffledWiki.length)).map wikiUrl
    ++ (List.range (min count 80)).map (fun i => articleUrl (draw.articles i))
    ++ (List.range (min count 30)).map fun i => changesUrl (draw.pages i)

/-- The addresses that can be seeds. -/
inductive IsSeed (lists : SeedLists) : String → Prop
  | listed {url : String} (member : url ∈ lists.seeds) : IsSeed lists url
  | wiki {topic : String} (member : topic ∈ lists.topics) : IsSeed lists (wikiUrl topic)
  | article {article : String × String} (lang : article.1 ∈ lists.langs)
    (topic : article.2 ∈ lists.topics)
    : IsSeed lists (articleUrl article)
  | changes {page : Nat} (first : 1 ≤ page) (last : page ≤ 5000)
    : IsSeed lists (changesUrl page)

/-- Each of the drawn addresses can be a seed. -/
theorem isSeed_of_mem {draw : Draw lists} {count : Nat} {url : String}
    (member : url ∈ getRandomSeeds draw count)
    : IsSeed lists url := by
  unfold getRandomSeeds at member
  rcases List.mem_append.mp member with member | changes
  · rcases List.mem_append.mp member with member | articles
    · rcases List.mem_append.mp member with extra | wiki
      · exact .listed (draw.extra.mem_iff.mp (List.mem_of_mem_take extra))
      · obtain ⟨topic, taken, rfl⟩ := List.mem_map.mp wiki
        exact .wiki (draw.wiki.mem_iff.mp (List.mem_of_mem_take taken))
    · obtain ⟨i, _, rfl⟩ := List.mem_map.mp articles
      exact .article (draw.articles_listed i).1 (draw.articles_listed i).2
  · obtain ⟨i, _, rfl⟩ := List.mem_map.mp changes
    exact .changes (draw.pages_bounded i).1 (draw.pages_bounded i).2

end WebIndexer.Crawl
