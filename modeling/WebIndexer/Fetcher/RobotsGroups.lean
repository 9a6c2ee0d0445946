import WebIndexer.Fetcher.Robots
import WebIndexer.Library.Scans
import WebIndexer.Library.Trimming

/-! The groups of a robots.txt, and what `parseRobotsTxt` of `src/fetcher.ts` makes of them. The
format lets several user-agent lines stand before the rules of one group; the parser goes by the
last of them.
-/

namespace WebIndexer.Fetcher

open WebIndexer.Runtime WebIndexer.Library

section Format

/-- A rule of a group. -/
inductive Rule where
  | disallow (path : List Char)
  | allow (path : List Char)
  deriving DecidableEq, Repr

/-- What a line of a robots.txt is; blank lines and unknown fields are `other`. -/
inductive Line where
  | agent (name : List Char)
  | rule (rule : Rule)
  | other
  deriving DecidableEq, Repr

/-- A line up to its comment. -/
def uncommented (line : List Char) : List Char :=
  line.takeWhile fun char => char ≠ '#'

/-- Read a line without its comment. -/
def lineOf (line : List Char) : Line :=
  let text := trim (uncommented line)
  match afterHead? "user-agent:".toList text, afterHead? "disallow:".toList text,
      afterHead? "allow:".toList text with
  | some name, _, _ => .agent (trim name)
  | none, some path, _ => .rule (.disallow (trim path))
  | none, none, some path => .rule (.allow (trim path))
  | none, none, none => .other

/-- A run of user-agent lines, and the rules that follow it. -/
structure Group where
  agents : List (List Char)
  rules : List Rule
  deriving DecidableEq, Repr

/-- The start of a text, which belongs to no user agent. -/
def Group.empty : Group where
  agents := []
  rules := []

/-- The group of a line, given that of the lines before it: a user-agent line that follows a rule
begins another one.
-/
def Group.read (group : Group) : Line → Group
  | .agent name =>
      if group.rules = [] then
        { group with agents := group.agents ++ [name] }
      else
        { agents := [name], rules := [] }
  | .rule rule => { group with rules := group.rules ++ [rule] }
  | .other => group

/-- The groups of the lines that follow a group's first ones. -/
def groupsFrom (group : Group) : List Line → List Group
  | [] => [group]
  | .agent name :: rest =>
      if group.rules = [] then
        groupsFrom (group.read (.agent name)) rest
      else
        group :: groupsFrom (group.read (.agent name)) rest
  | line :: rest => groupsFrom (group.read line) rest

/-- The group applies to every crawler. -/
def Group.applies (group : Group) : Bool :=
  group.agents.contains ['*']

/-- The path that a rule blocks; an empty one blocks nothing. -/
def Rule.blocks? : Rule → Option String
  | .disallow path => if path = [] then none else some (String.ofList path)
  | .allow _ => none

/-- The paths that a group blocks for every crawler. -/
def Group.blocked (group : Group) : List String :=
  if group.applies then group.rules.filterMap Rule.blocks? else []

/-- The lines of a text. -/
def linesOf (body : String) : List (List Char) :=
  splitOn '\n' body.toList

/-- The paths that the groups for every crawler disallow, in the order of the text. -/
def blockedForAll (body : String) : List String :=
  (groupsFrom .empty ((linesOf body).map lineOf)).flatMap Group.blocked

end Format

section Condition

/-- What follows a head in a line, the head after blanks only. -/
def valueOf? (head line : List Char) : Option (List Char) :=
  afterHead? head (line.dropWhile isSpace)

/-- The text after `user-agent:`. -/
def agentOf? (line : List Char) : Option (List Char) :=
  valueOf? "user-agent:".toList line

/-- The text after `disallow:`. -/
def pathOf? (line : List Char) : Option (List Char) :=
  valueOf? "disallow:".toList line

/-- The last user-agent line names an agent that begins with a star. -/
def LastIsStar (before : List (List Char)) : Prop :=
  ∃ agent ∈ (before.filterMap agentOf?).getLast?, (agent.dropWhile isSpace).head? = some '*'

/-- The group that the lines end in. -/
def groupAfter (before : List (List Char)) : Group :=
  (before.map lineOf).foldl Group.read .empty

/-- Each line that disallows some text is read as the format has it: the last user-agent line
before it names the star exactly when the line's group applies to every crawler and the text is not
all comment, and then it has no comment.
-/
def ReadByLastAgent (body : String) : Prop :=
  ∀ before line after, linesOf body = before ++ line :: after
    → ∀ path, pathOf? line = some path → trim path ≠ []
      → (LastIsStar before
          ↔ (groupAfter before).applies = true ∧ trim (uncommented path) ≠ [])
        ∧ (LastIsStar before → '#' ∉ path)

/-- What a line may block: its path, with its comment or without. -/
def MayBlock (line : List Char) (blocked : String) : Prop :=
  ∃ path, pathOf? line = some path
    ∧ (blocked = String.ofList (trim path) ∨ blocked = String.ofList (trim (uncommented path)))

end Condition

section Heads

variable {head text line : List Char}

/-- The characters of a head are no blanks and start no comment. -/
def Plain (head : List Char) : Prop :=
  ∀ char ∈ head, isSpace char = false ∧ char ≠ '#'

instance : DecidablePred Plain :=
  fun head => List.decidableBAll (fun char => isSpace char = false ∧ char ≠ '#') head

theorem plain_userAgent : Plain "user-agent:".toList := by
  decide

theorem plain_disallow : Plain "disallow:".toList := by
  decide

/-- Blanks have no lower case. -/
theorem toLower_of_isSpace {char : Char} (space : isSpace char = true) : char.toLower = char := by
  unfold Char.toLower
  split
  · rename_i upper
    have low : 65 ≤ char.toNat := upper.1
    have high : char.toNat ≤ 90 := upper.2
    simp only [isSpace, Bool.or_eq_true, Bool.and_eq_true, decide_eq_true_eq] at space
    simp at space
    omega
  · rfl

/-- A head is found before the end of the text is trimmed, by induction on the head. -/
theorem afterHead?_rdropWhile (plain : Plain head)
    : afterHead? head (text.rdropWhile isSpace)
      = (afterHead? head text).map fun rest => rest.rdropWhile isSpace := by
  induction head generalizing text with
  | nil => rfl
  | cons expected head ih =>
      obtain ⟨⟨no_space, -⟩, plain⟩ := List.forall_mem_cons.mp plain
      cases text with
      | nil => simp [afterHead?]
      | cons char text =>
          rw [rdropWhile_cons, afterHead?]
          by_cases found : char.toLower = expected
          · have sound : isSpace char = false := by
              rw [← Bool.not_eq_true]
              intro space
              rw [← found, toLower_of_isSpace space, space] at no_space
              cases no_space
            rw [if_neg (by simp [sound]), if_pos found, afterHead?, if_pos found, ih plain]
          · rw [if_neg found]
            split
            · rfl
            · rw [afterHead?, if_neg found]
              rfl

/-- A head is found before the comment, by induction on the head. -/
theorem afterHead?_uncommented (plain : Plain head)
    : afterHead? head (uncommented text) = (afterHead? head text).map uncommented := by
  induction head generalizing text with
  | nil => rfl
  | cons expected head ih =>
      obtain ⟨⟨-, no_mark⟩, plain⟩ := List.forall_mem_cons.mp plain
      cases text with
      | nil => rfl
      | cons char text =>
          rw [afterHead?]
          by_cases found : char.toLower = expected
          · have kept : char ≠ '#' := by
              rintro rfl
              exact no_mark (found.symm.trans (by decide))
            rw [if_pos found, ← ih plain, uncommented,
              List.takeWhile_cons_of_pos (by simpa using kept), afterHead?, if_pos found]
            rfl
          · rw [if_neg found, uncommented, List.takeWhile_cons]
            split
            · rw [afterHead?, if_neg found]
              rfl
            · rfl

/-- The parser finds a value when it is there. -/
theorem afterHead?_trim (plain : Plain head) (line : List Char)
    : afterHead? head (trim line)
      = (valueOf? head line).map fun value => value.rdropWhile isSpace :=
  afterHead?_rdropWhile plain

/-- The format has the value up to its comment. -/
theorem afterHead?_trim_uncommented (plain : Plain head) (line : List Char)
    : afterHead? head (trim (uncommented line))
      = (valueOf? head line).map fun value => (uncommented value).rdropWhile isSpace := by
  have commuted : (uncommented line).dropWhile isSpace = uncommented (line.dropWhile isSpace) := by
    refine dropWhile_takeWhile (fun char space => ?_) line
    have other : char ≠ '#' := by
      rintro rfl
      exact absurd space (by decide)
    simpa using other
  change afterHead? head (((uncommented line).dropWhile isSpace).rdropWhile isSpace) = _
  rw [afterHead?_rdropWhile plain, commuted, afterHead?_uncommented plain, Option.map_map]
  rfl

/-- What starts with a head starts with its first character. -/
theorem exists_of_afterHead? {expected : Char} {rest : List Char}
    (found : afterHead? (expected :: head) text = some rest)
    : ∃ char more, text = char :: more ∧ char.toLower = expected := by
  cases text with
  | nil => cases found
  | cons char more =>
      by_cases same : char.toLower = expected
      · exact ⟨char, more, rfl, same⟩
      · rw [afterHead?, if_neg same] at found
        cases found

/-- A line that names a user agent disallows nothing. -/
theorem pathOf?_of_agentOf? {agent : List Char} (found : agentOf? line = some agent)
    : pathOf? line = none := by
  obtain ⟨char, more, starts, lower⟩ := exists_of_afterHead? found
  rw [pathOf?, valueOf?, starts]
  exact if_neg (by rw [lower]; decide)

/-- What the format makes of a line that has a value. -/
theorem lineOf_of_agentOf? {agent : List Char} (found : agentOf? line = some agent)
    : lineOf line = .agent (trim (uncommented agent)) := by
  have value := afterHead?_trim_uncommented plain_userAgent line
  rw [← agentOf?, found] at value
  simp only [lineOf, value, Option.map_some]
  exact congrArg Line.agent (trimmed_rdropWhile isSpace _)

theorem lineOf_of_pathOf? {path : List Char} (found : pathOf? line = some path)
    : lineOf line = .rule (.disallow (trim (uncommented path))) := by
  have value := afterHead?_trim_uncommented plain_disallow line
  have agent := afterHead?_trim_uncommented plain_userAgent line
  have no_agent : agentOf? line = none := by
    cases named : agentOf? line with
    | none => rfl
    | some agent => exact absurd (pathOf?_of_agentOf? named) (by simp [found])
  rw [← pathOf?, found] at value
  rw [← agentOf?, no_agent] at agent
  simp only [lineOf, agent, value, Option.map_some, Option.map_none]
  exact congrArg (Line.rule ∘ Rule.disallow) (trimmed_rdropWhile isSpace _)

/-- A line that has neither value is another rule or no line of a group. -/
theorem lineOf_of_none (no_agent : agentOf? line = none) (no_path : pathOf? line = none)
    : (∃ path, lineOf line = .rule (.allow path)) ∨ lineOf line = .other := by
  have agent := afterHead?_trim_uncommented plain_userAgent line
  have path := afterHead?_trim_uncommented plain_disallow line
  rw [← agentOf?, no_agent] at agent
  rw [← pathOf?, no_path] at path
  simp only [lineOf, agent, path, Option.map_none]
  cases afterHead? "allow:".toList (trim (uncommented line)) with
  | some allowed => exact .inl ⟨trim allowed, rfl⟩
  | none => exact .inr rfl

end Heads

section Scans

/-- The parser as a scan of the lines. -/
def codeScan : Scan Bool (List Char) String where
  next inOurAgent line :=
    match agentOf? line with
    | some agent => (agent.dropWhile isSpace).head? = some '*'
    | none => inOurAgent
  emit inOurAgent line :=
    match inOurAgent, pathOf? line with
    | true, some path => if trim path = [] then none else some (String.ofList (trim path))
    | _, _ => none

/-- The format as a scan of the lines. -/
def formatScan : Scan Group (List Char) String where
  next group line := group.read (lineOf line)
  emit group line :=
    match group.applies, pathOf? line with
    | true, some path =>
        if trim (uncommented path) = [] then
          none
        else
          some (String.ofList (trim (uncommented path)))
    | _, _ => none

/-- The parser is its scan, by induction on the lines. -/
theorem robotsLines_eq_run (inOurAgent : Bool) (lines : List (List Char))
    : robotsLines inOurAgent lines = codeScan.run inOurAgent lines := by
  induction lines generalizing inOurAgent with
  | nil => rfl
  | cons line lines ih =>
      have agent := afterHead?_trim plain_userAgent line
      have path := afterHead?_trim plain_disallow line
      rw [← agentOf?] at agent
      rw [← pathOf?] at path
      rw [Scan.run, ← ih]
      conv_lhs => unfold robotsLines
      simp only [agent, path]
      cases named : agentOf? line with
      | some agent =>
          have silent := pathOf?_of_agentOf? named
          simp [codeScan, named, silent, head?_dropWhile_rdropWhile]
      | none =>
          cases found : pathOf? line with
          | none => simp [codeScan, named, found]
          | some path =>
              have trims : trim (path.rdropWhile isSpace) = trim path :=
                trimmed_rdropWhile isSpace path
              cases inOurAgent with
              | false => simp [codeScan, named]
              | true =>
                  simp only [codeScan, named, found, Option.map_some, Option.map_none, trims]
                  split <;> rfl

/-- A group that begins with a user agent blocks nothing yet. -/
theorem read_agent (group : Group) (name : List Char)
    : (group.read (.agent name)).rules = [] := by
  simp only [Group.read]
  split
  · assumption
  · rfl

/-- A rule may add a path to those that its group blocks. -/
theorem blocked_read_rule (group : Group) (rule : Rule)
    : (group.read (.rule rule)).blocked
      = group.blocked ++ (if group.applies then rule.blocks? else none).toList := by
  have applies : (group.read (.rule rule)).applies = group.applies := rfl
  simp only [Group.blocked, applies]
  cases group.applies with
  | true => cases blocks : rule.blocks? <;> simp [Group.read, blocks]
  | false => rfl

/-- A group without rules blocks nothing. -/
theorem blocked_of_unruled {group : Group} (unruled : group.rules = []) : group.blocked = [] := by
  simp [Group.blocked, unruled]

/-- The groups of a text block what the scan of the format writes, by induction on the lines. -/
theorem groupsFrom_eq_run (group : Group) (lines : List (List Char))
    : (groupsFrom group (lines.map lineOf)).flatMap Group.blocked
      = group.blocked ++ formatScan.run group lines := by
  induction lines generalizing group with
  | nil => simp [groupsFrom, Scan.run]
  | cons line lines ih =>
      rw [List.map_cons, Scan.run]
      cases named : agentOf? line with
      | some agent =>
          have silent : formatScan.emit group line = none := by
            simp [formatScan, pathOf?_of_agentOf? named]
          have next : formatScan.next group line
              = group.read (.agent (trim (uncommented agent))) := by
            rw [← lineOf_of_agentOf? named]
            rfl
          have fresh := blocked_of_unruled (read_agent group (trim (uncommented agent)))
          rw [lineOf_of_agentOf? named, silent, next, groupsFrom]
          split
          · rename_i unruled
            rw [ih, fresh, blocked_of_unruled unruled]
            rfl
          · rw [List.flatMap_cons, ih, fresh]
            rfl
      | none =>
          have step : groupsFrom group (lineOf line :: lines.map lineOf)
              = groupsFrom (formatScan.next group line) (lines.map lineOf) := by
            cases found : pathOf? line with
            | some path =>
                simp only [formatScan, lineOf_of_pathOf? found]
                rfl
            | none =>
                obtain ⟨path, allowed⟩ | unknown := lineOf_of_none named found
                · simp only [formatScan, allowed]
                  rfl
                · simp only [formatScan, unknown]
                  rfl
          rw [step, ih, ← List.append_assoc]
          congr 1
          cases found : pathOf? line with
          | some path =>
              simp only [formatScan, lineOf_of_pathOf? found, found]
              rw [blocked_read_rule]
              cases group.applies with
              | true => rfl
              | false => rfl
          | none =>
              obtain ⟨path, allowed⟩ | unknown := lineOf_of_none named found
              · simp only [formatScan, allowed, found]
                rw [blocked_read_rule]
                simp [Rule.blocks?]
              · simp only [formatScan, unknown, found]
                simp [Group.read]

/-- What the parser goes by after some lines is their last user agent, by induction on the lines
from the last one.
-/
theorem codeScan_after (before : List (List Char))
    : codeScan.after false before = true ↔ LastIsStar before := by
  induction before using List.reverseRecOn with
  | nil => simp [Scan.after, LastIsStar]
  | append_singleton before line ih =>
      rw [Scan.after, List.foldl_concat, ← Scan.after]
      cases named : agentOf? line with
      | some agent => simp [codeScan, LastIsStar, named]
      | none =>
          simp only [codeScan, named, LastIsStar, List.filterMap_append, List.filterMap_cons,
            List.filterMap_nil, List.append_nil]
          exact ih

/-- The format goes by the group that the lines end in. -/
theorem formatScan_after (before : List (List Char))
    : formatScan.after .empty before = groupAfter before := by
  rw [Scan.after, groupAfter, List.foldl_map]
  rfl

/-- A path is the same without its comment exactly when it has none. -/
theorem trim_uncommented_eq_iff (path : List Char)
    : trim (uncommented path) = trim path ↔ '#' ∉ path := by
  constructor
  · intro same marked
    have kept : '#' ∈ trim path := mem_trimmed (by decide) marked
    rw [← same] at kept
    have inside : '#' ∈ uncommented path := mem_of_mem_trimmed kept
    exact absurd (List.mem_takeWhile_imp inside) (by decide)
  · intro clear
    have whole : uncommented path = path := by
      refine List.takeWhile_eq_self_iff.mpr fun char member => ?_
      have other : char ≠ '#' := by
        rintro rfl
        exact clear member
      simpa using other
    rw [whole]

/-- A blank path has no text before its comment either. -/
theorem trim_uncommented_eq_nil {path : List Char} (empty : trim path = [])
    : trim (uncommented path) = [] := by
  rw [← empty, trim_uncommented_eq_iff]
  intro marked
  have kept : '#' ∈ trim path := mem_trimmed (by decide) marked
  rw [empty] at kept
  cases kept

/-- The parser blocks what the format does for a line exactly when it takes the line's group for one
that applies as the format does, up to lines that are all comment, and the path has no comment.
-/
theorem emit_eq_iff (inOurAgent : Bool) (group : Group) (line : List Char)
    : codeScan.emit inOurAgent line = formatScan.emit group line
      ↔ ∀ path, pathOf? line = some path → trim path ≠ []
        → (inOurAgent = true ↔ group.applies = true ∧ trim (uncommented path) ≠ [])
          ∧ (inOurAgent = true → '#' ∉ path) := by
  cases found : pathOf? line with
  | none => simp [codeScan, formatScan, found]
  | some path =>
      have bare : trim path = [] → trim (uncommented path) = [] := trim_uncommented_eq_nil
      have same_iff := trim_uncommented_eq_iff path
      simp only [codeScan, formatScan, found, Option.some.injEq, forall_eq']
      by_cases empty : trim path = []
      · cases inOurAgent <;> cases group.applies <;> simp [empty, bare empty]
      · by_cases comment : trim (uncommented path) = []
        · have marked : '#' ∈ path := by
            by_contra clear
            exact empty ((same_iff.mpr clear).symm.trans comment)
          cases inOurAgent <;> cases group.applies <;> simp [empty, comment, marked]
        · cases inOurAgent <;> cases group.applies
            <;> simp [empty, comment, String.ofList_inj, eq_comm (a := trim path), same_iff]

/-- Each line may write its path, with its comment or without. -/
theorem codeScan_covers (inOurAgent : Bool) (line : List Char)
    : ∀ blocked ∈ codeScan.emit inOurAgent line, MayBlock line blocked := by
  intro blocked writes
  simp only [codeScan, Option.mem_def] at writes
  split at writes
  · rename_i path found
    split at writes
    · cases writes
    · exact ⟨path, found, .inl (Option.some.inj writes).symm⟩
  · cases writes

theorem formatScan_covers (group : Group) (line : List Char)
    : ∀ blocked ∈ formatScan.emit group line, MayBlock line blocked := by
  intro blocked writes
  simp only [formatScan, Option.mem_def] at writes
  split at writes
  · rename_i path _ found
    split at writes
    · cases writes
    · exact ⟨path, found, .inr (Option.some.inj writes).symm⟩
  · cases writes

end Scans

/-- The two scans agree on a text exactly when each line is read as the format has it. -/
theorem agreeOn_iff (body : String)
    : AgreeOn codeScan formatScan false .empty (linesOf body) ↔ ReadByLastAgent body := by
  unfold AgreeOn ReadByLastAgent
  simp only [emit_eq_iff, codeScan_after, formatScan_after]

/-- The parser returns the paths that the groups for every crawler disallow when each line is read
as the format has it, and only then, up to paths that stand in two lines of the text.
-/
theorem parseRobotsTxt_eq_blockedForAll (body : String)
    : (ReadByLastAgent body → parseRobotsTxt body = blockedForAll body)
      ∧ (parseRobotsTxt body = blockedForAll body
          → ReadByLastAgent body ∨ Repeats MayBlock (linesOf body)) := by
  have code : parseRobotsTxt body = codeScan.run false (linesOf body) := robotsLines_eq_run _ _
  have format : blockedForAll body = formatScan.run .empty (linesOf body) := groupsFrom_eq_run _ _
  rw [code, format, ← agreeOn_iff]
  exact ⟨run_eq_of_agreeOn, agreeOn_or_repeats codeScan_covers formatScan_covers⟩

/-- A group for two agents, of which the first is the star, is passed over. -/
theorem parseRobotsTxt_ne_blockedForAll
    : ¬∀ body, parseRobotsTxt body = blockedForAll body := by
  intro same
  have texts := same "User-agent: *\nUser-agent: a\nDisallow: /b"
  exact absurd texts (by decide)

end WebIndexer.Fetcher
