import Mathlib.Data.List.Infix

/-! How much of a response's body `fetchHtmlRaw` of `src/fetcher.ts` keeps. The network cuts the
body into chunks as it likes, and each of them comes as one `data` event.
-/

namespace WebIndexer.Fetcher

/-- The part of a body that one `data` event brings. -/
abbrev Chunk := List UInt8

/-- The most bytes that a body may have. -/
def bodyLimit : Nat := 512 * 1024

/-- What the `data` handler of a response keeps, and whether it has destroyed the response. -/
structure Body where
  chunks : List Chunk
  sz : Nat
  destroyed : Bool
  deriving DecidableEq, Repr

/-- The `data` handler. It compares after the size is increased, and destroys the response when
the size before was the limit itself.
-/
def Body.onData (body : Body) (c : Chunk) : Body :=
  let sz := body.sz + c.length
  if sz < bodyLimit then
    { body with sz := sz, chunks := body.chunks ++ [c] }
  else if sz = c.length + bodyLimit then
    { body with sz := sz, destroyed := true }
  else
    { body with sz := sz }

/-- A `data` event, of which a destroyed response has no more. -/
def Body.receive (body : Body) (c : Chunk) : Body :=
  if body.destroyed then body else body.onData c

/-- The start of a response's body. -/
def Body.empty : Body where
  chunks := []
  sz := 0
  destroyed := false

/-- The body once its first chunks have come. -/
def received (chunks : List Chunk) : Body :=
  chunks.foldl Body.receive Body.empty

/-- `Buffer.concat(chunks)`: the bytes that the `end` handler decodes. -/
def Body.buffer (body : Body) : List UInt8 :=
  body.chunks.flatten

/-- The bytes of some chunks, counted. -/
def total (chunks : List Chunk) : Nat :=
  chunks.flatten.length

@[simp] theorem total_nil : total [] = 0 := rfl

@[simp] theorem total_append (front back : List Chunk)
    : total (front ++ back) = total front + total back := by
  simp [total]

@[simp] theorem total_cons (c : Chunk) (chunks : List Chunk)
    : total (c :: chunks) = c.length + total chunks := by
  simp [total]

theorem received_concat (chunks : List Chunk) (c : Chunk)
    : received (chunks ++ [c]) = (received chunks).receive c := by
  simp [received]

/-- Some chunk begins where the bytes before it are as many as the limit. -/
def BeginsAtLimit (chunks : List Chunk) : Prop :=
  ∃ before c after, chunks = before ++ c :: after ∧ total before = bodyLimit

theorem not_beginsAtLimit_nil : ¬BeginsAtLimit [] := by
  rintro ⟨before, c, after, parts, -⟩
  simp at parts

/-- The chunk at the limit is the last one or an earlier one. -/
theorem beginsAtLimit_concat {chunks : List Chunk} {c : Chunk}
    : BeginsAtLimit (chunks ++ [c]) ↔ BeginsAtLimit chunks ∨ total chunks = bodyLimit := by
  constructor
  · rintro ⟨before, d, after, parts, full⟩
    obtain rfl | ⟨after, last, rfl⟩ := after.eq_nil_or_concat
    · obtain ⟨rfl, -⟩ := List.append_inj' parts rfl
      exact .inr full
    · refine .inl ⟨before, d, after, ?_, full⟩
      have shape : chunks ++ [c] = (before ++ d :: after) ++ [last] := by simpa using parts
      exact (List.append_inj' shape rfl).1
  · rintro (⟨before, d, after, rfl, full⟩ | full)
    · exact ⟨before, d, after ++ [c], by simp, full⟩
    · exact ⟨chunks, c, [], rfl, full⟩

/-- Before some chunk begins at the limit there are as many bytes as the limit. -/
theorem bodyLimit_le_of_beginsAtLimit {chunks : List Chunk} (begins : BeginsAtLimit chunks)
    : bodyLimit ≤ total chunks := by
  obtain ⟨before, c, after, rfl, full⟩ := begins
  rw [total_append, full]
  exact Nat.le_add_right _ _

/-- What a handler has kept of the chunks that have come: the size counts every chunk while the
response lives, the response is destroyed by the chunk that begins at the limit, and the kept
chunks are the first ones, all of them below the limit and less than the limit ever.
-/
structure Body.Keeps (body : Body) (chunks : List Chunk) : Prop where
  counted : body.destroyed = false → body.sz = total chunks
  destroyed_iff : body.destroyed = true ↔ BeginsAtLimit chunks
  kept : body.chunks <+: chunks
  short : total body.chunks < bodyLimit
  complete : total chunks < bodyLimit → body.chunks = chunks

/-- The handler keeps what it should of one more chunk. -/
theorem Body.Keeps.onData {body : Body} {chunks : List Chunk} {c : Chunk}
    (keeps : body.Keeps chunks) (alive : body.destroyed = false)
    : (body.onData c).Keeps (chunks ++ [c]) := by
  have counted := keeps.counted alive
  have unfilled : ¬BeginsAtLimit chunks := by
    rw [← keeps.destroyed_iff, alive]
    exact Bool.false_ne_true
  have longer := total_append chunks [c]
  simp only [total_cons, total_nil, Nat.add_zero] at longer
  unfold Body.onData
  simp only
  split
  · rename_i below
    have all : body.chunks = chunks := keeps.complete (by omega)
    have short : total (chunks ++ [c]) < bodyLimit := by omega
    refine ⟨fun _ => ?_, ?_, by rw [all], by rw [all]; exact short, fun _ => by rw [all]⟩
    · simp only [counted, longer]
    have none : ¬BeginsAtLimit (chunks ++ [c]) := fun begins =>
      absurd (bodyLimit_le_of_beginsAtLimit begins) (by omega)
    simp [alive, none]
  · rename_i reached
    have kept : body.chunks <+: chunks ++ [c] := keeps.kept.trans (List.prefix_append _ _)
    have past : ¬total (chunks ++ [c]) < bodyLimit := by omega
    split
    · rename_i exact_limit
      refine ⟨fun alive => Bool.noConfusion alive, ?_, kept, keeps.short,
        fun below => absurd below past⟩
      have full : total chunks = bodyLimit := by omega
      simp [beginsAtLimit_concat, full]
    · rename_i stepped
      refine ⟨fun _ => ?_, ?_, kept, keeps.short, fun below => absurd below past⟩
      · simp only [counted, longer]
      have other : total chunks ≠ bodyLimit := by omega
      simp [beginsAtLimit_concat, alive, unfilled, other]

/-- A destroyed response keeps what it has kept. -/
theorem Body.Keeps.afterwards {body : Body} {chunks : List Chunk} {c : Chunk}
    (keeps : body.Keeps chunks) (gone : body.destroyed = true)
    : body.Keeps (chunks ++ [c]) := by
  have begins := keeps.destroyed_iff.mp gone
  have full := bodyLimit_le_of_beginsAtLimit begins
  have past : ¬total (chunks ++ [c]) < bodyLimit := by
    rw [total_append]
    omega
  exact {
    counted := fun alive => absurd (alive.symm.trans gone) Bool.false_ne_true
    destroyed_iff := by simp [gone, beginsAtLimit_concat, begins]
    kept := keeps.kept.trans (List.prefix_append _ _)
    short := keeps.short
    complete := fun below => absurd below past
  }

/-- Every body is kept so, by induction on its chunks from the last one. -/
theorem received_keeps (chunks : List Chunk) : (received chunks).Keeps chunks := by
  induction chunks using List.reverseRecOn with
  | nil =>
      exact ⟨fun _ => rfl, by simp [received, Body.empty, not_beginsAtLimit_nil],
        List.prefix_refl _, by decide, fun _ => rfl⟩
  | append_singleton chunks c ih =>
      rw [received_concat, Body.receive]
      cases gone : (received chunks).destroyed with
      | true => simpa using ih.afterwards gone
      | false => simpa using ih.onData gone

/-- The chunks `before` and then `c` come within the limit and past it. -/
def PassesLimit (chunks before : List Chunk) (c : Chunk) : Prop :=
  (∃ after, chunks = before ++ c :: after)
  ∧ total before ≤ bodyLimit ∧ bodyLimit < total before + c.length

/-- The body is limited: what is kept is a part of its beginning that is shorter than the limit,
and the chunk that passes the limit destroys the response.
-/
structure Limited (chunks : List Chunk) : Prop where
  kept : (received chunks).buffer <+: chunks.flatten
  short : (received chunks).buffer.length < bodyLimit
  cut : ∀ before c, PassesLimit chunks before c
    → (received before).destroyed = false ∧ (received (before ++ [c])).destroyed = true

/-- A beginning of the chunks is a beginning of the body. -/
theorem flatten_isPrefix {front chunks : List Chunk} (parts : front <+: chunks)
    : front.flatten <+: chunks.flatten := by
  obtain ⟨back, rfl⟩ := parts
  rw [List.flatten_append]
  exact List.prefix_append _ _

/-- A response is not yet destroyed within the limit exactly when the bytes are below the limit
or the chunk that reaches it has some.
-/
theorem not_beginsAtLimit_iff {before : List Chunk} (within : total before ≤ bodyLimit)
    : ¬BeginsAtLimit before
      ↔ total before < bodyLimit ∨ before.getLast? ≠ some [] := by
  obtain rfl | ⟨front, last, rfl⟩ := before.eq_nil_or_concat
  · simp [not_beginsAtLimit_nil]
  · have reaches (begins : BeginsAtLimit front) := bodyLimit_le_of_beginsAtLimit begins
    simp only [List.concat_eq_append, beginsAtLimit_concat, total_append, total_cons, total_nil,
      List.getLast?_concat, ne_eq, Option.some.injEq, ← List.length_eq_zero_iff] at within ⊢
    constructor
    · intro unfilled
      have other : total front ≠ bodyLimit := fun full => unfilled (.inr full)
      omega
    · rintro bounds (begins | full)
      · have := reaches begins
        omega
      · omega

/-- A body is limited exactly when the chunk that passes the limit begins there, and is the first
one that does.
-/
theorem limited_iff (chunks : List Chunk)
    : Limited chunks
      ↔ ∀ before c, PassesLimit chunks before c
        → total before = bodyLimit ∧ before.getLast? ≠ some [] := by
  have keeps := received_keeps chunks
  have cut_iff {before : List Chunk} {c : Chunk} (within : total before ≤ bodyLimit)
      : (received before).destroyed = false ∧ (received (before ++ [c])).destroyed = true
        ↔ total before = bodyLimit ∧ before.getLast? ≠ some [] := by
    rw [← Bool.not_eq_true, (received_keeps before).destroyed_iff,
      (received_keeps (before ++ [c])).destroyed_iff, beginsAtLimit_concat]
    constructor
    · rintro ⟨unfilled, begins | full⟩
      · exact absurd begins unfilled
      · refine ⟨full, ((not_beginsAtLimit_iff within).mp unfilled).resolve_left ?_⟩
        omega
    · rintro ⟨full, some_last⟩
      exact ⟨(not_beginsAtLimit_iff within).mpr (.inr some_last), .inr full⟩
  constructor
  · intro limited before c passes
    exact (cut_iff passes.2.1).mp (limited.cut before c passes)
  · intro begins
    exact ⟨flatten_isPrefix keeps.kept, keeps.short, fun before c passes =>
      (cut_iff passes.2.1).mpr (begins before c passes)⟩

/-- One chunk that is longer than the limit is not cut off. -/
theorem not_limited : ¬∀ chunks, Limited chunks := by
  intro limited
  have cut := (limited [List.replicate (bodyLimit + 1) 0]).cut [] (List.replicate (bodyLimit + 1) 0)
    ⟨⟨[], rfl⟩, Nat.zero_le _, by simp [total]⟩
  have begins := (received_keeps _).destroyed_iff.mp cut.2
  rw [List.nil_append, ← List.nil_append [_], beginsAtLimit_concat] at begins
  obtain begins | full := begins
  · exact not_beginsAtLimit_nil begins
  · exact absurd full (by decide)

end WebIndexer.Fetcher
