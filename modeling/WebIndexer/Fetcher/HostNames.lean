import WebIndexer.Fetcher.Domain
import WebIndexer.Library.Occurrences

/-! What `getDomain` and `isBlacklisted` of `src/fetcher.ts` make of a host name. Both remove the
first `www.` from it, wherever it stands: at the start that is the usual prefix, further inside it
makes another name of the host's.
-/

namespace WebIndexer.Fetcher

open WebIndexer.Runtime WebIndexer.Library

/-- The characters `www.`. -/
def www : List Char := ['w', 'w', 'w', '.']

/-- A host name without its first `www.`. -/
def withoutWww (host : List Char) : List Char :=
  replaceFirstIn www [] host

/-- A host name without a `www.` at its start. -/
def withoutPrefix (host : List Char) : List Char :=
  if www.isPrefixOf host then host.drop 4 else host

/-- The first `www.` of a host name stands inside it. -/
def Inner (front back host : List Char) : Prop :=
  front ≠ [] ∧ FirstAt www front back host

/-- Removing the first occurrence joins what is around it, by induction on the occurrence. -/
theorem replaceFirstIn_of_firstAt {pattern replacement front back text : List Char}
    (first : FirstAt pattern front back text)
    : replaceFirstIn pattern replacement text = front ++ (replacement ++ back) := by
  induction first with
  | @here back =>
      cases whole : pattern ++ back with
      | nil =>
          obtain ⟨rfl, rfl⟩ := List.append_eq_nil_iff.mp whole
          simp [replaceFirstIn]
      | cons char text =>
          have starts : pattern.isPrefixOf (char :: text) = true := by
            rw [List.isPrefixOf_iff_prefix, ← whole]
            exact List.prefix_append _ _
          rw [replaceFirstIn, if_pos starts, ← whole, List.drop_left, List.nil_append]
  | later absent _ ih =>
      rw [← List.isPrefixOf_iff_prefix] at absent
      rw [replaceFirstIn, if_neg absent, ih, List.cons_append]

/-- Where the pattern does not occur nothing is replaced, by induction on the text. -/
theorem replaceFirstIn_of_absent {pattern replacement text : List Char}
    (absent : ¬pattern <:+: text)
    : replaceFirstIn pattern replacement text = text := by
  induction text with
  | nil =>
      have some_char : pattern ≠ [] := fun empty => absent (by simp [empty])
      simp [replaceFirstIn, some_char]
  | cons char text ih =>
      rw [List.infix_cons_iff, not_or] at absent
      have starts : ¬pattern.isPrefixOf (char :: text) = true := by
        rw [List.isPrefixOf_iff_prefix]
        exact absent.1
      rw [replaceFirstIn, if_neg starts, ih absent.2]

/-- A host name has a first `www.` inside it, or both ways of removing one agree on it. -/
theorem inner_or_agree (host : List Char)
    : (∃ front back, Inner front back host)
      ∨ ((∀ front back, ¬Inner front back host) ∧ withoutWww host = withoutPrefix host) := by
  by_cases occurs : www <:+: host
  · obtain ⟨front, back, first⟩ := exists_firstAt occurs
    cases front with
    | nil =>
        refine .inr ⟨fun front' back' inner => inner.1 (inner.2.unique first).1, ?_⟩
        have parts := first.parts
        rw [List.nil_append] at parts
        have starts : www.isPrefixOf host = true := by
          rw [List.isPrefixOf_iff_prefix, parts]
          exact List.prefix_append _ _
        rw [withoutWww, replaceFirstIn_of_firstAt first, withoutPrefix, if_pos starts, parts]
        rfl
    | cons char front => exact .inl ⟨char :: front, back, by simp, first⟩
  · refine .inr ⟨fun front back inner => occurs inner.2.occurs, ?_⟩
    have starts : ¬www.isPrefixOf host = true := by
      rw [List.isPrefixOf_iff_prefix]
      exact fun starts => occurs starts.isInfix
    rw [withoutWww, replaceFirstIn_of_absent occurs, withoutPrefix, if_neg starts]

/-- Of a name with a `www.` inside, the part before and the part after are left. -/
theorem Inner.withoutWww {front back host : List Char} (inner : Inner front back host)
    : withoutWww host = front ++ back :=
  replaceFirstIn_of_firstAt inner.2

/-- A name with its first `www.` inside has none at its start. -/
theorem Inner.withoutPrefix {front back host : List Char} (inner : Inner front back host)
    : withoutPrefix host = host := by
  obtain ⟨some_char, first⟩ := inner
  cases first with
  | here => exact absurd rfl some_char
  | later absent _ =>
      rw [← List.isPrefixOf_iff_prefix] at absent
      rw [Fetcher.withoutPrefix, if_neg absent]

/-- Such a name loses the `www.` inside it to one of the two removals only. -/
theorem Inner.withoutWww_ne {front back host : List Char} (inner : Inner front back host)
    : Fetcher.withoutWww host ≠ Fetcher.withoutPrefix host := by
  rw [inner.withoutWww, inner.withoutPrefix, inner.2.parts]
  intro same
  have lengths := congrArg List.length (List.append_cancel_left same)
  rw [List.length_append] at lengths
  have some_char : www.length = 4 := rfl
  omega

@[simp] theorem toList_replaceFirst_www (host : String)
    : (replaceFirst host "www." "").toList = withoutWww host.toList := by
  simp [replaceFirst, withoutWww, www]

section Blacklist

/-- The entries of the blacklist, as characters. -/
def entries : List (List Char) :=
  Config.blacklist.map String.toList

/-- A host name is an entry, or ends with a dot and an entry. -/
def Listed (host : List Char) : Prop :=
  ∃ entry ∈ entries, IsTail '.' entry host

/-- The test of an address is exact: it is true of listed hosts, and of what is no address. -/
def BlacklistExact (api : UrlApi) (url : String) : Prop :=
  isBlacklisted api url = true
  ↔ ∀ parsed, api.parse url = some parsed → Listed parsed.hostname.toList

/-- What is before a `www.` and what is after it make up an entry across it: the entry consists
of whole labels from before it, and all that is after it.
-/
def Crosses (front back : List Char) : Prop :=
  ∃ labels, labels ≠ [] ∧ IsTail '.' labels front ∧ labels ++ back ∈ entries

/-- What is around a `www.` inside a host name does not change whether the name is listed. What
follows is a subdomain of an entry; or it is an entry, and is one still, or makes up another one,
without the `www.` before it; or it is none, and makes up none.
-/
def Harmless (front back : List Char) : Prop :=
  (∃ entry ∈ entries, '.' :: entry <:+ back)
  ∨ (back ∈ entries ∧ (['.'] <:+ front ∨ Crosses front back))
  ∨ (back ∉ entries ∧ ¬Crosses front back)

/-- No entry holds a `www.`. -/
theorem www_not_infix_entry : ∀ entry ∈ entries, ¬www <:+: entry := by
  decide +kernel

theorem dot_not_mem_www : '.' ∉ ['w', 'w', 'w'] := by
  decide

/-- The test looks at the host without its first `www.`. -/
theorem isBlacklisted_iff {api : UrlApi} {url : String} {parsed : Url}
    (parses : api.parse url = some parsed)
    : isBlacklisted api url = true ↔ Listed (withoutWww parsed.hostname.toList) := by
  have same (entry : String)
      : (replaceFirst parsed.hostname "www." "" = entry
          ∨ endsWith (replaceFirst parsed.hostname "www." "") ("." ++ entry) = true)
        ↔ IsTail '.' entry.toList (withoutWww parsed.hostname.toList) := by
    rw [← toList_replaceFirst_www, endsWith, List.isSuffixOf_iff_suffix, IsTail,
      String.toList_inj, String.toList_append]
    exact or_congr_left eq_comm
  simp only [isBlacklisted, parses, List.any_eq_true, Bool.or_eq_true, decide_eq_true_eq, same,
    Listed, entries, List.mem_map, exists_exists_and_eq_and]

/-- With a `www.` inside, a host is listed by what follows it. -/
theorem listed_iff_of_inner {front back host : List Char} (inner : Inner front back host)
    : Listed host ↔ (∃ entry ∈ entries, '.' :: entry <:+ back) ∨ back ∈ entries := by
  have tail_iff (entry : List Char) (member : entry ∈ entries)
      : IsTail '.' entry host ↔ '.' :: entry <:+ back ∨ entry = back := by
    rw [inner.2.parts]
    exact isTail_append_word_iff dot_not_mem_www (www_not_infix_entry entry member)
  constructor
  · rintro ⟨entry, member, tail⟩
    obtain inside | rfl := (tail_iff entry member).mp tail
    · exact .inl ⟨entry, member, inside⟩
    · exact .inr member
  · rintro (⟨entry, member, inside⟩ | member)
    · exact ⟨entry, member, (tail_iff entry member).mpr (.inl inside)⟩
    · exact ⟨back, member, (tail_iff back member).mpr (.inr rfl)⟩

/-- Without the `www.` inside it, a host is listed by what follows, or by what is around. -/
theorem listed_withoutWww_iff_of_inner {front back host : List Char}
    (inner : Inner front back host)
    : Listed (withoutWww host)
      ↔ (∃ entry ∈ entries, '.' :: entry <:+ back)
        ∨ (back ∈ entries ∧ ['.'] <:+ front) ∨ Crosses front back := by
  rw [inner.withoutWww, Listed]
  simp only [isTail_append_iff, inner.1, false_or]
  constructor
  · rintro ⟨entry, member, inside | ⟨rfl, ends⟩ | ⟨labels, some_label, tail, rfl⟩⟩
    · exact .inl ⟨entry, member, inside⟩
    · exact .inr (.inl ⟨member, ends⟩)
    · exact .inr (.inr ⟨labels, some_label, tail, member⟩)
  · rintro (⟨entry, member, inside⟩ | ⟨member, ends⟩ | ⟨labels, some_label, tail, member⟩)
    · exact ⟨entry, member, .inl inside⟩
    · exact ⟨back, member, .inr (.inl ⟨rfl, ends⟩)⟩
    · exact ⟨labels ++ back, member, .inr (.inr ⟨labels, some_label, tail, rfl⟩)⟩

/-- A `www.` at the start of a name does not change whether it is listed. -/
theorem listed_withoutPrefix (host : List Char) : Listed (withoutPrefix host) ↔ Listed host := by
  unfold withoutPrefix
  split
  · rename_i starts
    obtain ⟨back, rfl⟩ := List.isPrefixOf_iff_prefix.mp starts
    have tail_iff (entry : List Char) (member : entry ∈ entries)
        : IsTail '.' entry (www ++ back) ↔ IsTail '.' entry back := by
      have whole
          : IsTail '.' entry ([] ++ (['w', 'w', 'w'] ++ ['.'] ++ back))
            ↔ '.' :: entry <:+ back ∨ entry = back :=
        isTail_append_word_iff dot_not_mem_www (www_not_infix_entry entry member)
      exact whole.trans or_comm
    have dropped : (www ++ back).drop 4 = back := rfl
    rw [dropped]
    exact exists_congr fun entry => and_congr_right fun member => (tail_iff entry member).symm
  · exact Iff.rfl

/-- The test of an address is exact when it is no address, when the host has no `www.` inside, and
otherwise exactly when the first one there is harmless.
-/
theorem blacklistExact_iff (api : UrlApi) (url : String)
    : BlacklistExact api url
      ↔ ∀ parsed, api.parse url = some parsed
        → ∀ front back, Inner front back parsed.hostname.toList → Harmless front back := by
  unfold BlacklistExact
  cases parses : api.parse url with
  | none => simp [isBlacklisted, parses]
  | some parsed =>
      simp only [isBlacklisted_iff parses, Option.some.injEq, forall_eq']
      obtain ⟨front, back, inner⟩ | ⟨plain, agree⟩ := inner_or_agree parsed.hostname.toList
      · have only : (∀ front' back', Inner front' back' parsed.hostname.toList
            → Harmless front' back') ↔ Harmless front back := by
          constructor
          · intro all
            exact all front back inner
          · intro harmless front' back' inner'
            obtain ⟨rfl, rfl⟩ := inner.2.unique inner'.2
            exact harmless
        rw [only, listed_iff_of_inner inner, listed_withoutWww_iff_of_inner inner, Harmless]
        by_cases listed : back ∈ entries <;> by_cases crosses : Crosses front back
          <;> simp [listed, crosses]
      · have harmless front back (inner : Inner front back parsed.hostname.toList)
            : Harmless front back := absurd inner (plain front back)
        rw [agree, listed_withoutPrefix]
        exact iff_of_true Iff.rfl harmless

/-- A host that ends with a dot and an entry passes the test when a `www.` stands before the
entry.
-/
theorem not_blacklistExact : ¬∀ api url, BlacklistExact api url := by
  intro exact_test
  have listed : Listed "awww.doubleclick.net".toList :=
    ⟨"doubleclick.net".toList, by decide, .inr ⟨['a', 'w', 'w', 'w'], rfl⟩⟩
  have blacklisted := (exact_test plainUrlApi "https://awww.doubleclick.net/").mpr (by
    intro parsed parses
    obtain rfl := Option.some.inj parses
    exact listed)
  exact absurd blacklisted (by decide +kernel)

end Blacklist

section Keys

/-- The keys of two addresses tell their sites apart: they are the same exactly when the hosts are,
up to a `www.` at the start.
-/
def KeysTellSites (api : UrlApi) (u v : String) : Prop :=
  ∀ parsed other, api.parse u = some parsed → api.parse v = some other →
    (getDomain api u = getDomain api v
      ↔ withoutPrefix parsed.hostname.toList = withoutPrefix other.hostname.toList)

/-- A host that has a `www.` anywhere begins with one. -/
def PlainHost (host : List Char) : Prop :=
  www <:+: host → www <+: host

/-- The two removals agree on such a host. -/
theorem PlainHost.removals_agree {host : List Char} (plain : PlainHost host)
    : withoutWww host = withoutPrefix host := by
  obtain ⟨front, back, some_char, first⟩ | ⟨_, agree⟩ := inner_or_agree host
  · obtain ⟨rest, starts⟩ := plain first.occurs
    have here : FirstAt www [] rest host := by
      rw [← starts]
      exact .here
    exact absurd (first.unique here).1 some_char
  · exact agree

/-- Any other host has its first `www.` inside. -/
theorem exists_inner_of_not_plain {host : List Char} (mistaken : ¬PlainHost host)
    : ∃ front back, Inner front back host := by
  obtain ⟨occurs, starts⟩ := Classical.not_imp.mp mistaken
  obtain ⟨front, back, first⟩ := exists_firstAt occurs
  refine ⟨front, back, ?_, first⟩
  rintro rfl
  exact starts ⟨back, first.parts.symm⟩

/-- The keys of two addresses are the same when their hosts are, without their first `www.`. -/
theorem getDomain_eq_iff {api : UrlApi} {u v : String} {parsed other : Url}
    (parses : api.parse u = some parsed) (other_parses : api.parse v = some other)
    : getDomain api u = getDomain api v
      ↔ withoutWww parsed.hostname.toList = withoutWww other.hostname.toList := by
  simp only [getDomain, parses, other_parses, ← toList_replaceFirst_www, String.toList_inj]

/-- The keys of two addresses tell their sites apart when each host that has a `www.` begins with
one.
-/
theorem keysTellSites_of_plain (api : UrlApi) (u v : String)
    (plain : ∀ parsed, api.parse u = some parsed → PlainHost parsed.hostname.toList)
    (other_plain : ∀ other, api.parse v = some other → PlainHost other.hostname.toList)
    : KeysTellSites api u v := by
  intro parsed other parses other_parses
  rw [getDomain_eq_iff parses other_parses, (plain parsed parses).removals_agree,
    (other_plain other other_parses).removals_agree]

/-- Two sites with and without the prefix, one below the other. -/
theorem keysTellSites_of_two
    : KeysTellSites plainUrlApi "https://www.a.example/" "https://b.a.example/" :=
  keysTellSites_of_plain plainUrlApi _ _
    (fun _ parses _ => Option.some.inj parses ▸ ⟨"a.example".toList, by decide⟩)
    (fun _ parses occurs => absurd (Option.some.inj parses ▸ occurs) (by decide))

/-- A host with its first `www.` inside shares its key with another site: the name without it, with
the prefix.
-/
theorem not_keysTellSites_of_inner {api : UrlApi} {u v : String} {parsed other : Url}
    (parses : api.parse u = some parsed) (other_parses : api.parse v = some other)
    (mistaken : ¬PlainHost parsed.hostname.toList)
    (same : other.hostname.toList = www ++ withoutWww parsed.hostname.toList)
    : ¬KeysTellSites api u v := by
  obtain ⟨front, back, inner⟩ := exists_inner_of_not_plain mistaken
  have plain : PlainHost other.hostname.toList := fun _ => ⟨_, same.symm⟩
  have site : withoutPrefix other.hostname.toList = withoutWww parsed.hostname.toList := by
    rw [same, withoutPrefix, if_pos (List.isPrefixOf_iff_prefix.mpr (List.prefix_append _ _))]
    rfl
  intro tells
  have keys : getDomain api u = getDomain api v := by
    rw [getDomain_eq_iff parses other_parses, plain.removals_agree, site]
  have sites := (tells parsed other parses other_parses).mp keys
  exact inner.withoutWww_ne (site.symm.trans sites.symm)

/-- Two sites share a key when the one is the other with a `www.` inside. -/
theorem not_keysTellSites : ¬∀ api u v, KeysTellSites api u v := by
  intro tells
  have same := (tells plainUrlApi "https://a.www.b.example/" "https://a.b.example/" _ _ rfl rfl).mp
    (by decide)
  exact absurd same (by decide)

end Keys

end WebIndexer.Fetcher
