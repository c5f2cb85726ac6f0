import Mathlib.Data.List.Basic

/-!
# Scanners of a stream that arrives in chunks

A scanner looks at the front of its buffer.  It waits for more input, keeping what
it may still need, or it emits a result and goes on with the rest.  The scanner is
incremental when input that arrives later changes neither a result it has emitted
nor what it would make of the part it dropped; then the results do not depend on
how the stream is cut into chunks.

A cursor counts what has left the buffer, so that each result has a position in the
stream: the one at which the scan resumed after it.
-/

namespace MicroEmu
namespace Library

universe u v w

/-- What a look at the buffer says. -/
inductive Verdict (α : Type u) (β : Type v) where
  /-- More input is needed; this part of the buffer is kept. -/
  | wait (kept : List α)
  /-- A result, and where the scan goes on. -/
  | emit (result : β) (rest : List α)
  deriving DecidableEq, Repr

/-- The same look with other results. -/
def Verdict.map {α : Type u} {β : Type v} {γ : Type w} (f : β → γ) : Verdict α β → Verdict α γ
  | .wait kept => .wait kept
  | .emit result rest => .emit (f result) rest

/-- A scanner.  A result takes something from the buffer, and what is kept or goes
on is no longer than the buffer. -/
structure Scanner (α : Type u) (β : Type v) where
  look : List α → Verdict α β
  rest_lt : ∀ {buffer result rest}, look buffer = .emit result rest →
    rest.length < buffer.length
  kept_le : ∀ {buffer kept}, look buffer = .wait kept → kept.length ≤ buffer.length

/-- A buffer, and how much of the stream has left it. -/
structure Cursor (α : Type u) where
  position : Nat
  buffer : List α
  deriving DecidableEq, Repr

/-- The cursor at the start of a stream. -/
def Cursor.start {α : Type u} : Cursor α := ⟨0, []⟩

namespace Scanner

variable {α : Type u} {β : Type v} (scanner : Scanner α β)

/-- The cursor that goes on with a later part of the buffer. -/
def advance (cursor : Cursor α) (rest : List α) : Cursor α :=
  ⟨cursor.position + (cursor.buffer.length - rest.length), rest⟩

/-- At most so many turns of the loop, which ends with the first `wait`. -/
def turns : Nat → Cursor α → Option (List (β × Nat) × Cursor α)
  | 0, _ => none
  | fuel + 1, cursor =>
      match scanner.look cursor.buffer with
      | .wait kept => some ([], advance cursor kept)
      | .emit result rest =>
          (turns fuel (advance cursor rest)).map fun last =>
            ((result, (advance cursor rest).position) :: last.1, last.2)

/-- The loop, with more turns than it can take. -/
def scan (cursor : Cursor α) : List (β × Nat) × Cursor α :=
  (scanner.turns (cursor.buffer.length + 1) cursor).getD ([], cursor)

/-- New input goes to the end of the buffer. -/
def feed (cursor : Cursor α) (chunk : List α) : List (β × Nat) × Cursor α :=
  scanner.scan ⟨cursor.position, cursor.buffer ++ chunk⟩

/-- The results of one chunk after another. -/
def feedAll : List (List α) → Cursor α → List (β × Nat) × Cursor α
  | [], cursor => ([], cursor)
  | chunk :: chunks, cursor =>
      let first := scanner.feed cursor chunk
      let last := feedAll chunks first.2
      (first.1 ++ last.1, last.2)

theorem feedAll_append (chunks more : List (List α)) (cursor : Cursor α) :
    scanner.feedAll (chunks ++ more) cursor =
      ((scanner.feedAll chunks cursor).1 ++
        (scanner.feedAll more (scanner.feedAll chunks cursor).2).1,
        (scanner.feedAll more (scanner.feedAll chunks cursor).2).2) := by
  induction chunks generalizing cursor with
  | nil => rfl
  | cons chunk chunks ih =>
      rw [List.cons_append, feedAll, feedAll, ih, List.append_assoc]

theorem advance_position (cursor : Cursor α) {rest : List α}
    (h : rest.length ≤ cursor.buffer.length) :
    (advance cursor rest).position + (advance cursor rest).buffer.length =
      cursor.position + cursor.buffer.length := by
  show cursor.position + (cursor.buffer.length - rest.length) + rest.length = _
  omega

/-! ## The loop ends -/

/-- The loop ends before it has taken as many turns as the buffer is long, and one. -/
theorem exists_turns (fuel : Nat) (cursor : Cursor α) (h : cursor.buffer.length < fuel) :
    ∃ last, scanner.turns fuel cursor = some last := by
  induction fuel generalizing cursor with
  | zero => exact absurd h (Nat.not_lt_zero _)
  | succ fuel ih =>
      simp only [turns]
      cases hlook : scanner.look cursor.buffer with
      | wait kept => exact ⟨_, rfl⟩
      | emit result rest =>
          have hshorter := scanner.rest_lt hlook
          obtain ⟨last, hlast⟩ := ih (advance cursor rest)
            (show rest.length < fuel by omega)
          refine ⟨((result, (advance cursor rest).position) :: last.1, last.2), ?_⟩
          simp only [hlast, Option.map_some]

/-- More turns change nothing. -/
theorem turns_mono {fuel : Nat} {cursor : Cursor α} {last : List (β × Nat) × Cursor α}
    (h : scanner.turns fuel cursor = some last) {more : Nat} (hmore : fuel ≤ more) :
    scanner.turns more cursor = some last := by
  induction fuel generalizing cursor last more with
  | zero => cases h
  | succ fuel ih =>
      obtain ⟨more, rfl⟩ := Nat.exists_eq_add_of_le' (Nat.le_trans (Nat.succ_pos fuel) hmore)
      simp only [turns] at h ⊢
      cases hlook : scanner.look cursor.buffer with
      | wait kept => simpa only [hlook] using h
      | emit result rest =>
          simp only [hlook] at h ⊢
          obtain ⟨inner, hinner, rfl⟩ := Option.map_eq_some_iff.mp h
          rw [ih hinner (Nat.le_of_succ_le_succ hmore)]
          rfl

theorem turns_eq_scan {fuel : Nat} {cursor : Cursor α} (h : cursor.buffer.length < fuel) :
    scanner.turns fuel cursor = some (scanner.scan cursor) := by
  obtain ⟨last, hlast⟩ := scanner.exists_turns _ cursor (Nat.lt_succ_self _)
  rw [scan, hlast, Option.getD_some]
  exact scanner.turns_mono hlast h

/-! ## One turn -/

variable {scanner}

theorem scan_of_wait (cursor : Cursor α) {kept : List α}
    (h : scanner.look cursor.buffer = .wait kept) :
    scanner.scan cursor = ([], advance cursor kept) := by
  simp only [scan, turns, h, Option.getD_some]

theorem scan_of_emit (cursor : Cursor α) {result : β} {rest : List α}
    (h : scanner.look cursor.buffer = .emit result rest) :
    scanner.scan cursor =
      ((result, (advance cursor rest).position) :: (scanner.scan (advance cursor rest)).1,
        (scanner.scan (advance cursor rest)).2) := by
  have hturns : scanner.turns cursor.buffer.length (advance cursor rest) =
      some (scanner.scan (advance cursor rest)) :=
    scanner.turns_eq_scan (scanner.rest_lt h)
  rw [scan, turns]
  simp only [h, hturns, Option.map_some, Option.getD_some]

/-- What holds of the empty scan, and of a scan when it holds of the scan after its
first result, holds of every scan. -/
theorem scan_induction (scanner : Scanner α β) (motive : Cursor α → Prop)
    (wait : ∀ cursor kept, scanner.look cursor.buffer = .wait kept → motive cursor)
    (emit : ∀ cursor result rest, scanner.look cursor.buffer = .emit result rest →
      motive (advance cursor rest) → motive cursor) (cursor : Cursor α) : motive cursor := by
  induction hlength : cursor.buffer.length using Nat.strongRecOn generalizing cursor with
  | ind length ih =>
      subst hlength
      cases hlook : scanner.look cursor.buffer with
      | wait kept => exact wait cursor kept hlook
      | emit result rest =>
          exact emit cursor result rest hlook (ih _ (scanner.rest_lt hlook) _ rfl)

/-- After a scan the scanner waits. -/
theorem look_scan (hkept : ∀ {buffer kept}, scanner.look buffer = .wait kept →
    scanner.look kept = .wait kept) (cursor : Cursor α) :
    scanner.look (scanner.scan cursor).2.buffer = .wait (scanner.scan cursor).2.buffer := by
  induction cursor using scan_induction scanner with
  | wait cursor kept h =>
      rw [scan_of_wait _ h]
      exact hkept h
  | emit cursor result rest h ih =>
      rw [scan_of_emit _ h]
      exact ih

/-- A scan neither adds to the stream nor loses a part of it. -/
theorem scan_position (scanner : Scanner α β) (cursor : Cursor α) :
    (scanner.scan cursor).2.position + (scanner.scan cursor).2.buffer.length =
      cursor.position + cursor.buffer.length := by
  induction cursor using scan_induction scanner with
  | wait cursor kept h =>
      rw [scan_of_wait _ h]
      exact advance_position cursor (scanner.kept_le h)
  | emit cursor result rest h ih =>
      rw [scan_of_emit _ h]
      exact ih.trans (advance_position cursor (Nat.le_of_lt (scanner.rest_lt h)))

/-! ## Chunks -/

variable (scanner)

/-- Later input changes neither a result nor what becomes of what was kept. -/
structure Incremental : Prop where
  emit_append : ∀ {buffer result rest}, scanner.look buffer = .emit result rest →
    ∀ more, scanner.look (buffer ++ more) = .emit result (rest ++ more)
  wait_append : ∀ {buffer kept}, scanner.look buffer = .wait kept →
    ∀ more, scanner.look (buffer ++ more) = scanner.look (kept ++ more)

variable {scanner}

theorem Incremental.look_kept (h : scanner.Incremental) {buffer kept : List α}
    (hwait : scanner.look buffer = .wait kept) : scanner.look kept = .wait kept := by
  have hsame := h.wait_append hwait []
  rwa [List.append_nil, List.append_nil, hwait, eq_comm] at hsame

theorem advance_append (cursor : Cursor α) {rest : List α}
    (h : rest.length ≤ cursor.buffer.length) (more : List α) :
    advance ⟨cursor.position, cursor.buffer ++ more⟩ (rest ++ more) =
      ⟨(advance cursor rest).position, rest ++ more⟩ := by
  simp only [advance, List.length_append, Cursor.mk.injEq, and_true]
  omega

theorem advance_advance (cursor : Cursor α) {kept more rest : List α}
    (hkept : kept.length ≤ cursor.buffer.length)
    (hrest : rest.length ≤ (kept ++ more).length) :
    advance ⟨cursor.position, cursor.buffer ++ more⟩ rest =
      advance ⟨(advance cursor kept).position, kept ++ more⟩ rest := by
  simp only [advance, List.length_append, Cursor.mk.injEq, and_true] at hrest ⊢
  omega

/-- Scanning a longer buffer is scanning the shorter one and then feeding the rest. -/
theorem Incremental.scan_append (h : scanner.Incremental) (cursor : Cursor α)
    (more : List α) :
    scanner.scan ⟨cursor.position, cursor.buffer ++ more⟩ =
      ((scanner.scan cursor).1 ++ (scanner.feed (scanner.scan cursor).2 more).1,
        (scanner.feed (scanner.scan cursor).2 more).2) := by
  induction cursor using scan_induction scanner with
  | wait cursor kept hwait =>
      have hsame := h.wait_append hwait more
      have hkept := scanner.kept_le hwait
      rw [scan_of_wait _ hwait, List.nil_append]
      -- the longer buffer and what was kept of it meet the same verdict
      show _ = ((scanner.scan ⟨(advance cursor kept).position, kept ++ more⟩).1,
        (scanner.scan ⟨(advance cursor kept).position, kept ++ more⟩).2)
      cases hlook : scanner.look (kept ++ more) with
      | wait later =>
          rw [hlook] at hsame
          rw [scan_of_wait ⟨_, _⟩ hsame, scan_of_wait ⟨_, _⟩ hlook,
            advance_advance cursor hkept (scanner.kept_le hlook)]
      | emit result rest =>
          rw [hlook] at hsame
          rw [scan_of_emit ⟨_, _⟩ hsame, scan_of_emit ⟨_, _⟩ hlook,
            advance_advance cursor hkept (Nat.le_of_lt (scanner.rest_lt hlook))]
  | emit cursor result rest hemit ih =>
      have hlonger := h.emit_append hemit more
      have hrest := Nat.le_of_lt (scanner.rest_lt hemit)
      rw [scan_of_emit ⟨_, _⟩ hlonger, advance_append cursor hrest,
        scan_of_emit _ hemit]
      have hrestart := ih
      simp only [advance] at hrestart ⊢
      rw [hrestart, List.cons_append]

theorem Incremental.feed_append (h : scanner.Incremental) (cursor : Cursor α)
    (chunk more : List α) :
    scanner.feed cursor (chunk ++ more) =
      ((scanner.feed cursor chunk).1 ++ (scanner.feed (scanner.feed cursor chunk).2 more).1,
        (scanner.feed (scanner.feed cursor chunk).2 more).2) := by
  have hscan := h.scan_append ⟨cursor.position, cursor.buffer ++ chunk⟩ more
  rwa [List.append_assoc] at hscan

theorem feed_nil {cursor : Cursor α} (h : scanner.look cursor.buffer = .wait cursor.buffer) :
    scanner.feed cursor [] = ([], cursor) := by
  rw [feed, List.append_nil, scan_of_wait _ h, advance, Nat.sub_self, Nat.add_zero]

/-- However the stream is cut, the results are those of the whole stream. -/
theorem Incremental.feedAll_eq (h : scanner.Incremental) {cursor : Cursor α}
    (hcursor : scanner.look cursor.buffer = .wait cursor.buffer) (chunks : List (List α)) :
    scanner.feedAll chunks cursor = scanner.feed cursor chunks.flatten := by
  induction chunks generalizing cursor with
  | nil => rw [feedAll, List.flatten_nil, feed_nil hcursor]
  | cons chunk chunks ih =>
      have hnext := look_scan h.look_kept ⟨cursor.position, cursor.buffer ++ chunk⟩
      rw [feedAll, List.flatten_cons, h.feed_append]
      exact congrArg (fun last => ((scanner.feed cursor chunk).1 ++ last.1, last.2)) (ih hnext)

/-- With a chunk there is, the buffer may also start with results that are due. -/
theorem Incremental.feedAll_cons_eq (h : scanner.Incremental) (cursor : Cursor α)
    (chunk : List α) (chunks : List (List α)) :
    scanner.feedAll (chunk :: chunks) cursor = scanner.feed cursor (chunk :: chunks).flatten := by
  have hnext := look_scan h.look_kept ⟨cursor.position, cursor.buffer ++ chunk⟩
  rw [feedAll, List.flatten_cons, h.feed_append]
  exact congrArg (fun last => ((scanner.feed cursor chunk).1 ++ last.1, last.2))
    (h.feedAll_eq hnext chunks)

end Scanner
end Library
end MicroEmu
