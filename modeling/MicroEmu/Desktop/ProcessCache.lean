import Mathlib.Data.List.Infix
import MicroEmu.Json
import MicroEmu.Library.Memo

/-!
# Whose process is it

The probes of the desktop applications ask of the processes that own a window whether they are
the application of an agent.  The answer comes from the path of the executable and is kept for a
moment, for all threads of the bridge; an id may belong to another process by then.
-/

namespace MicroEmu
namespace Desktop

open Library (MemoState MemoInput runFrom Along)
open Library.MemoState (Rules Sound Spaced Alone FoundSince)

/-- The agents with a desktop application that is looked for by its windows. -/
inductive DesktopAgent where
  | zcode
  | hermes
  | claude
  deriving DecidableEq

/-- The path as it is compared. -/
def comparedPath (path : String) : String :=
  Json.toAsciiLowercase (String.ofList (path.toList.map fun char =>
    if char = '/' then '\\' else char))

/-- `is_zcode_desktop_executable`, `is_hermes_desktop_executable` and
`is_claude_desktop_executable`. -/
def isDesktopExecutable (agent : DesktopAgent) (path : String) : Bool :=
  let path := (comparedPath path).toList
  let endsWith (text : String) : Bool := text.toList.isSuffixOf path
  let contains (text : String) : Bool := decide (text.toList <:+: path)
  match agent with
  | .zcode => endsWith "\\zcode.exe"
  | .hermes => endsWith "\\hermes.exe"
  | .claude =>
      endsWith "\\claude.exe" && !contains "\\claude-code\\" && !contains "\\.local\\bin\\" &&
        !contains "\\node_modules\\"

/-- `TTL`, in milliseconds. -/
def cacheTtl : Nat := 5000

/-- The check behind `cached`: the executable of a process at a time is that of the agent. -/
def processIs (imagePath : Nat → Nat → Option String) (process : DesktopAgent × Nat)
    (time : Nat) : Bool :=
  (imagePath process.2 time).any (isDesktopExecutable process.1)

/-- `CACHE`, with what it is asked for. -/
def processCache (imagePath : Nat → Nat → Option String) : Rules (DesktopAgent × Nat) Bool where
  span := cacheTtl
  limit := 4096
  truth := processIs imagePath

/-- Any number of threads that ask at the same time, in turns as they come. -/
def cacheRun (imagePath : Nat → Nat → Option String)
    (inputs : List (MemoInput (DesktopAgent × Nat))) : MemoState (DesktopAgent × Nat) Bool :=
  runFrom (MemoState.step (processCache imagePath)) inputs .empty

/-- However the threads take turns: what a thread is answered about a process was so at a time
that lies less than five seconds before the thread asked, or between that and its answer, also
if the id has gone to another process since.  And as long as no two threads ask for the same
process at a time, a process is looked at again at the earliest five seconds after the thread
that had it looked at before asked. -/
theorem process_cache_fresh (imagePath : Nat → Nat → Option String)
    (inputs : List (MemoInput (DesktopAgent × Nat))) :
    (∀ caller ∈ (cacheRun imagePath inputs).callers, ∀ value, caller.turn = .done value →
        ∃ time, caller.takenAt < time + 5000 ∧ time ≤ (cacheRun imagePath inputs).now ∧
          (imagePath caller.key.2 time).any (isDesktopExecutable caller.key.1) = value) ∧
      (Along (MemoState.step (processCache imagePath)) Alone inputs .empty →
        (cacheRun imagePath inputs).findings.Pairwise fun earlier later =>
          earlier.key = later.key → earlier.takenAt + 5000 ≤ later.foundAt) := by
  have hspan : 0 < (processCache imagePath).span := Nat.succ_pos 4999
  constructor
  · intro caller hcaller value hdone
    have hholds := ((MemoState.sound_run hspan inputs).callers caller hcaller).2
    unfold MemoState.TurnHolds at hholds
    rw [hdone] at hholds
    obtain ⟨time, hafter, hbefore, htrue⟩ := hholds
    have hrecent : caller.takenAt + 1 - 5000 ≤ time := hafter
    exact ⟨time, by omega, hbefore, htrue⟩
  · intro halone
    exact (MemoState.spaced_run hspan halone).apart

/-- The process 7 is ZCode's for six seconds, and then another's. -/
def samplePaths (process time : Nat) : Option String :=
  if process = 7 ∧ time < 6000 then some "C:/Apps/ZCode.exe" else some "C:/Apps/other.exe"

/-- Three threads ask about it one after another, three seconds apart. -/
def sampleAskings : List (MemoInput (DesktopAgent × Nat)) :=
  [.enter (.zcode, 7), .advance 0, .advance 0, .advance 0, .pass 3000,
    .enter (.zcode, 7), .advance 1, .pass 3000,
    .enter (.zcode, 7), .advance 2, .advance 2, .advance 2]

/-- The second of them is answered from the cache, and the third has the process looked at
again. -/
theorem process_cache_fresh_alone :
    (cacheRun samplePaths sampleAskings).findings.map (·.foundAt) = [0, 6000] ∧
      (cacheRun samplePaths sampleAskings).findings.Pairwise fun earlier later =>
        earlier.key = later.key → earlier.takenAt + 5000 ≤ later.foundAt :=
  ⟨by decide +kernel, (process_cache_fresh samplePaths sampleAskings).2 (by decide +kernel)⟩

end Desktop
end MicroEmu
