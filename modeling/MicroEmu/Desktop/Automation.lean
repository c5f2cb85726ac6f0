import MicroEmu.Desktop.Scripts
import MicroEmu.Library.LatestWins

/-!
# The queues of the desktop automation

A press of a task key asks Hermes or ZCode to show a session.  The request goes into a queue
that keeps only the latest one, and a thread of its own takes it from there and runs it, up to
three times.  Hermes numbers its requests: one that has been overtaken by a later press is not
started any more, and its script is killed when it runs.
-/

namespace MicroEmu
namespace Desktop

open Feeds.ClaudeState (textLines)
open Library (runFrom Along LatestRules LatestSlot LatestInput WorkerPlace)

/-! ## What is asked for -/

/-- The wrapper of a task id, in any case. -/
def startsWithHermes (id : List Char) : Bool :=
  decide ((id.take 7).map Char.toLower = ['h', 'e', 'r', 'm', 'e', 's', ':'])

/-- The loop of `normalize_session_id`, with at most so many turns. -/
def unwrapSessionId : Nat → List Char → List Char
  | 0, id => id
  | turns + 1, id =>
      if startsWithHermes id then
        unwrapSessionId turns (Library.strip Json.isWhitespace (id.drop 7))
      else id

/-- `normalize_session_id`.  Each turn takes characters away. -/
def normalizeSessionId (sessionId : String) : String :=
  let trimmed := (Json.trim sessionId).toList
  String.ofList (unwrapSessionId trimmed.length trimmed)

/-- What a press of a Hermes card asks for: the id of the session and its title. -/
structure HermesRequest where
  sessionId : String
  title : String
  deriving DecidableEq, Repr

inductive ZCodeRequest where
  | selectSession (title : String)
  | newTask
  deriving DecidableEq, Repr

/-- `request_session_selection` of Hermes, up to the queue. -/
def requestHermesSession (sessionId title : String) : Option HermesRequest :=
  let sessionId := normalizeSessionId sessionId
  if sessionId = "" ∨ Json.trim title = "" then none else some ⟨sessionId, Json.trim title⟩

/-- A press that asks ZCode for the session with a title, or for a new task. -/
inductive ZCodePress where
  | session (title : String)
  | newTask
  deriving DecidableEq, Repr

/-- `request_session_selection` and `request_new_task` of ZCode, up to the queue. -/
def requestZCode : ZCodePress → Option ZCodeRequest
  | .session title => if Json.trim title = "" then none else some (.selectSession (Json.trim title))
  | .newTask => some .newTask

/-! ## How it is run -/

/-- What becomes of a script that is handed to PowerShell. -/
inductive ScriptEnd where
  | notStarted (error : String)
  | noInput
  | notSent (error : String)
  | unfinished (error : String)
  | exited (success : Bool) (stdout stderr : String)
  deriving DecidableEq, Repr

/-- The two `run_automation`s.  That of Hermes also takes a run for failed that has written to
its error stream: a script that fails goes on to its last line all the same. -/
def runAutomation (agent : String) (readsErrors : Bool) (marker : String) :
    ScriptEnd → Except String Unit
  | .notStarted error => .error ("could not start " ++ agent ++ " sidebar automation: " ++ error)
  | .noInput => .error ("could not open " ++ agent ++ " sidebar automation input")
  | .notSent error => .error ("could not send " ++ agent ++ " sidebar automation: " ++ error)
  | .unfinished error => .error (agent ++ " sidebar automation did not finish: " ++ error)
  | .exited success stdout stderr =>
      if !success || (readsErrors && decide (Json.trim stderr ≠ "")) then
        .error (agent ++ " sidebar automation failed: " ++ Json.trim stderr)
      else if (textLines stdout).any fun line => decide (Json.trim line = marker) then .ok ()
      else
        .error (agent ++ " sidebar automation returned an unexpected result: " ++
          Json.trim stdout)

/-- A run is taken for a success by Hermes if it would be by ZCode and has written nothing to its
error stream. -/
theorem runAutomation_readsErrors (agent other marker : String) (ending : ScriptEnd) :
    (runAutomation agent true marker ending).toBool = true ↔
      (runAutomation other false marker ending).toBool = true ∧
        ∀ success stdout stderr, ending = .exited success stdout stderr →
          Json.trim stderr = "" := by
  cases ending with
  | notStarted | noInput | notSent | unfinished => simp [runAutomation, Except.toBool]
  | exited success stdout stderr =>
      by_cases hstderr : Json.trim stderr = ""
      · cases success with
        | false => simp [runAutomation, Except.toBool]
        | true =>
            by_cases hmarker : ∃ line ∈ textLines stdout, Json.trim line = marker
            · simp [runAutomation, hstderr, hmarker, Except.toBool]
            · simp [runAutomation, hstderr, hmarker, Except.toBool]
      · simp [runAutomation, hstderr, Except.toBool]

/-- What an attempt finds: the window, whether links are registered, what becomes of a link
(whether its launch succeeds, and its status), and what becomes of a script. -/
structure DesktopWorld where
  window : Option Int
  deepLinkRegistered : Bool
  openLink : String → Except String (Bool × String)
  powershell : String → ScriptEnd

/-- The scripts that are part of the program. -/
structure IncludedScripts where
  selectHermes : String
  selectZCode : String
  newTaskZCode : String

/-- `open_session_deep_link`. -/
def openSessionDeepLink (world : DesktopWorld) (sessionId : String) : Except String Unit :=
  match world.openLink (sessionDeepLink sessionId) with
  | .error error => .error ("could not launch the Hermes deep link: " ++ error)
  | .ok (true, _) => .ok ()
  | .ok (false, status) => .error ("the Hermes deep link launch exited with " ++ status)

/-- `run_request` of Hermes, unless it is overtaken: the link, or else the script. -/
def runHermesRequest (scripts : IncludedScripts) (world : DesktopWorld)
    (request : HermesRequest) : Except String Unit :=
  match world.window with
  | none => .error "no Hermes Desktop window was found"
  | some window =>
      let script := runAutomation "Hermes" true "selected" (world.powershell
        (hermesScript scripts.selectHermes window request.sessionId request.title))
      if world.deepLinkRegistered then
        match openSessionDeepLink world request.sessionId with
        | .ok () => .ok ()
        | .error _ => script
      else script

/-- `run_request` of ZCode. -/
def runZCodeRequest (scripts : IncludedScripts) (world : DesktopWorld) (request : ZCodeRequest) :
    Except String Unit :=
  match world.window with
  | none => .error "no ZCode desktop window was found"
  | some window =>
      match request with
      | .selectSession title =>
          runAutomation "ZCode" false "selected"
            (world.powershell (zcodeSelectScript scripts.selectZCode window title))
      | .newTask =>
          runAutomation "ZCode" false "created"
            (world.powershell (zcodeNewTaskScript scripts.newTaskZCode window))

/-! ## The queue -/

/-- What the two queues differ in. -/
structure AutomationApp (Press Request : Type) where
  /-- The requests have generations. -/
  generations : Bool
  request : Press → Option Request
  run : IncludedScripts → DesktopWorld → Request → Except String Unit

def hermesAutomation : AutomationApp (String × String) HermesRequest where
  generations := true
  request press := requestHermesSession press.1 press.2
  run := runHermesRequest

def zcodeAutomation : AutomationApp ZCodePress ZCodeRequest where
  generations := false
  request := requestZCode
  run := runZCodeRequest

theorem hermesAutomation_request (press : String × String) :
    hermesAutomation.request press = requestHermesSession press.1 press.2 := by
  simp only [hermesAutomation]

namespace AutomationApp

variable {Press Request : Type} (app : AutomationApp Press Request) (scripts : IncludedScripts)

/-- `MAX_ATTEMPTS`, and how requests are given up. -/
def rules : LatestRules := ⟨3, by decide, app.generations⟩

/-- What the threads around the queue do next. -/
inductive Input (Press : Type) where
  /-- A key is pressed; its request gets its generation and the worker is started. -/
  | press (press : Press)
  /-- The request of the press is put into the queue. -/
  | queue
  | wake
  /-- A turn of the worker, other than the end of a run. -/
  | look
  | start
  | superseded
  | rested
  /-- A run comes to its end in such a world. -/
  | ran (world : DesktopWorld)

/-- The turn of the queue that an input is. -/
def turn (queue : LatestSlot Request) : Input Press → Option (LatestInput Request)
  | .press press => (app.request press).map .call
  | .queue => some .file
  | .wake => some .wake
  | .look => some .look
  | .start => some .check
  | .superseded => some .cancel
  | .rested => some .rested
  | .ran world =>
      match queue.worker with
      | some (.running request _) =>
          some (.finish (app.run scripts world request.value).toBool)
      | _ => none

/-- The worker's own turns. -/
def Input.ofWorker : Input Press → Bool
  | .press _ | .queue | .wake => false
  | _ => true

def step (queue : LatestSlot Request) (input : Input Press) : LatestSlot Request :=
  match app.turn scripts queue input with
  | none => queue
  | some turn => queue.step app.rules turn

def after (inputs : List (Input Press)) : LatestSlot Request :=
  runFrom (app.step scripts) inputs .empty

/-! ## Over whole runs -/

variable {app scripts} {queue : LatestSlot Request}

theorem Valid.step (h : LatestSlot.Valid app.rules queue) (input : Input Press) :
    LatestSlot.Valid app.rules (app.step scripts queue input) := by
  rw [AutomationApp.step]
  split
  · exact h
  · exact h.step _

theorem after_valid (app : AutomationApp Press Request) (scripts : IncludedScripts)
    (inputs : List (Input Press)) :
    LatestSlot.Valid app.rules (app.after scripts inputs) :=
  Library.runFrom_invariant (LatestSlot.Valid app.rules) (fun input h => Valid.step h input)
    LatestSlot.empty_valid

theorem after_concat (inputs : List (Input Press)) (input : Input Press) :
    app.after scripts (inputs ++ [input]) = app.step scripts (app.after scripts inputs) input := by
  rw [after, Library.runFrom_append, after]
  rfl

/-- A request is called for by a press. -/
theorem exists_press (inputs : List (Input Press)) {request : Request}
    (hrequest : request ∈ (app.after scripts inputs).calls) :
    ∃ press, app.request press = some request := by
  induction inputs using List.reverseRecOn with
  | nil => cases hrequest
  | append_singleton inputs input ih =>
      rw [after_concat, AutomationApp.step] at hrequest
      split at hrequest
      next => exact ih hrequest
      next turn hturn =>
        rcases LatestSlot.step_calls app.rules (app.after scripts inputs) turn
          with hsame | ⟨value, rfl, hcalls⟩
        · rw [hsame] at hrequest
          exact ih hrequest
        · rw [hcalls, List.mem_append, List.mem_singleton] at hrequest
          rcases hrequest with hrequest | rfl
          · exact ih hrequest
          · cases input with
            | press press =>
                refine ⟨press, ?_⟩
                simpa [turn] using hturn
            | ran world =>
                simp only [turn] at hturn
                split at hturn <;> cases hturn
            | queue | wake | look | start | superseded | rested => cases hturn

/-- A request ends as its last run did. -/
theorem exists_ran (inputs : List (Input Press)) {last : Library.LatestRequest Request × Nat × Bool}
    (hlast : last ∈ (app.after scripts inputs).ended) :
    ∃ world, .ran world ∈ inputs ∧
      (app.run scripts world last.1.value).toBool = last.2.2 := by
  induction inputs using List.reverseRecOn with
  | nil => cases hlast
  | append_singleton inputs input ih =>
      have hearlier (h : last ∈ (app.after scripts inputs).ended) :
          ∃ world, .ran world ∈ inputs ++ [input] ∧
            (app.run scripts world last.1.value).toBool = last.2.2 := by
        obtain ⟨world, hworld, hrun⟩ := ih h
        exact ⟨world, List.mem_append_left _ hworld, hrun⟩
      rw [after_concat, AutomationApp.step] at hlast
      split at hlast
      next => exact hearlier hlast
      next turn hturn =>
        rcases LatestSlot.step_ended app.rules (app.after scripts inputs) turn
          with hsame | ⟨request, attempt, success, hworker, rfl, hended⟩
        · rw [hsame] at hlast
          exact hearlier hlast
        · rw [hended, List.mem_cons] at hlast
          rcases hlast with rfl | hlast
          · cases input with
            | ran world =>
                simp only [turn, hworker, Option.some.injEq, LatestInput.finish.injEq] at hturn
                exact ⟨world, List.mem_append_right _ List.mem_cons_self, hturn⟩
            | press press =>
                obtain ⟨value, -, hvalue⟩ := Option.map_eq_some_iff.mp hturn
                cases hvalue
            | queue | wake | look | start | superseded | rested => cases hturn
          · exact hearlier hlast

theorem turn_ofWorker {input : Input Press} (hturn : input.ofWorker = true)
    {turn : LatestInput Request} (h : app.turn scripts queue input = some turn) :
    turn.ofWorker = true := by
  cases input with
  | press | queue | wake => cases hturn
  | look | start | superseded | rested =>
      obtain rfl := Option.some.inj h
      rfl
  | ran world =>
      simp only [AutomationApp.turn] at h
      split at h
      · obtain rfl := Option.some.inj h
        rfl
      · cases h

/-- The worker's own turns that do something come to an end. -/
theorem length_add_rank_le (h : LatestSlot.Valid app.rules queue) {turns : List (Input Press)}
    (hturns : Along (app.step scripts) (fun queue input =>
      input.ofWorker = true ∧ app.step scripts queue input ≠ queue) turns queue) :
    turns.length + (runFrom (app.step scripts) turns queue).rank app.rules ≤
      queue.rank app.rules := by
  induction turns generalizing queue with
  | nil => exact Nat.le_of_eq (Nat.zero_add _)
  | cons input turns ih =>
      obtain ⟨⟨hturn, hdoes⟩, hrest⟩ := hturns
      have hnext := ih (Valid.step h input) hrest
      have hlt : (app.step scripts queue input).rank app.rules < queue.rank app.rules := by
        revert hdoes
        rw [AutomationApp.step]
        split
        · exact fun hdoes => absurd rfl hdoes
        · next taken htaken => exact h.rank_step (turn_ofWorker hturn htaken)
      show turns.length + 1 +
        (runFrom (app.step scripts) turns (app.step scripts queue input)).rank app.rules ≤ _
      omega

/-- A worker that was started has a turn to take unless it sleeps. -/
theorem asleep_of_turns {place : WorkerPlace Request} (hworker : queue.worker = some place)
    (hrest : ∀ input, input.ofWorker = true → app.step scripts queue input = queue) :
    place = .asleep := by
  refine LatestSlot.asleep_of_turns app.rules hworker (hrest .look rfl)
    (hrest .start rfl) (fun request attempt hplace => ?_) (hrest .rested rfl)
  have hran := hrest (.ran ⟨none, false, fun _ => .error "", fun _ => .noInput⟩) rfl
  rw [AutomationApp.step, turn, hworker, hplace] at hran
  exact ⟨_, hran⟩

/-- What a queue does for the presses that come to it.  The calls of a queue are the requests of
the presses, in their order. -/
structure Settles (app : AutomationApp Press Request) (scripts : IncludedScripts)
    (inputs : List (Input Press)) (queue : LatestSlot Request) : Prop where
  /-- A run is for what a press asked for, and no more than the third for it. -/
  runs : ∀ run ∈ queue.runs, queue.calls[run.request.number - 1]? = some run.request.value ∧
    0 < run.attempt ∧ run.attempt ≤ 3
  /-- Runs are in the order of the presses, the runs of a press in a row. -/
  ordered : queue.runs.Pairwise LatestSlot.Behind
  /-- With generations a run starts only for the press that is the latest one then. -/
  latest : app.generations = true → ∀ run ∈ queue.runs, run.calls = run.request.number
  /-- Nothing waits while the worker sleeps. -/
  awake : queue.worker = some .asleep → queue.pending = none
  /-- What is taken for the end of a request is the end of a run of its script. -/
  honest : ∀ last ∈ queue.ended, ∃ world, Input.ran world ∈ inputs ∧
    (app.run scripts world last.1.value).toBool = last.2.2
  /-- The worker takes eighteen turns at most in a row, with no press, filing or wake-up between
  them. -/
  bounded : ∀ turns, Along (app.step scripts) (fun queue input =>
    input.ofWorker = true ∧ app.step scripts queue input ≠ queue) turns queue → turns.length ≤ 18
  /-- When it has none left, the request of the latest press has ended: it was run from the
  first time on, until a run succeeded or the third one failed. -/
  done : queue.underWay = false →
    (∀ input, input.ofWorker = true → app.step scripts queue input = queue) →
    ∀ request, queue.calls.getLast? = some request →
      ∃ attempts success, (⟨queue.calls.length, request⟩, attempts, success) ∈ queue.ended ∧
        (success = false → attempts = 3) ∧
        ∀ attempt, (∃ run ∈ queue.runs, run.request = ⟨queue.calls.length, request⟩ ∧
          run.attempt = attempt) ↔ 0 < attempt ∧ attempt ≤ attempts

theorem settles (app : AutomationApp Press Request) (scripts : IncludedScripts)
    (inputs : List (Input Press)) : Settles app scripts inputs (app.after scripts inputs) := by
  have hvalid := after_valid app scripts inputs
  exact
    { runs := fun run hrun => by
        obtain ⟨htold, -, hattempt⟩ := hvalid.runs run hrun
        exact ⟨htold.value, hattempt⟩
      ordered := hvalid.ordered
      latest := hvalid.latest
      awake := hvalid.asleep
      honest := fun last hlast => exists_ran inputs hlast
      bounded := fun turns hturns => by
        have hlength := length_add_rank_le hvalid hturns
        have hrank : (app.after scripts inputs).rank app.rules ≤ 6 * 3 := hvalid.rank_le
        omega
      done := fun hreturned hrest request hlatest => by
        cases hworker : (app.after scripts inputs).worker with
        | none =>
            rw [hvalid.started hworker] at hlatest
            cases hlatest
        | some place =>
            obtain rfl := asleep_of_turns hworker hrest
            obtain ⟨⟨_, attempts, success⟩, hlast, rfl⟩ :=
              hvalid.ended_latest hworker hreturned hlatest
            exact ⟨attempts, success, hlast, (hvalid.ended _ hlast).2.2,
              hvalid.attempted_iff hlast⟩ }

end AutomationApp

/-! ## Ids without wrappers -/

theorem length_strip_le (text : List Char) :
    (Library.strip Json.isWhitespace text).length ≤ text.length :=
  (List.rdropWhile_prefix _ _).length_le.trans (List.dropWhile_suffix _).length_le

theorem length_of_startsWithHermes {id : List Char} (h : startsWithHermes id = true) :
    7 ≤ id.length := by
  have hmap := congrArg List.length (of_decide_eq_true h)
  simp at hmap
  omega

/-- No wrapper is left in front of an id. -/
theorem startsWithHermes_unwrapSessionId {turns : Nat} {id : List Char}
    (h : id.length ≤ turns) : startsWithHermes (unwrapSessionId turns id) = false := by
  induction turns generalizing id with
  | zero =>
      obtain rfl := List.eq_nil_of_length_eq_zero (Nat.le_zero.mp h)
      rfl
  | succ turns ih =>
      rw [unwrapSessionId]
      split
      next hstarts =>
        have hlong := length_of_startsWithHermes hstarts
        have hshort := length_strip_le (id.drop 7)
        rw [List.length_drop] at hshort
        exact ih (by omega)
      next hstarts => simpa using hstarts

theorem startsWithHermes_normalizeSessionId (sessionId : String) :
    startsWithHermes (normalizeSessionId sessionId).toList = false := by
  rw [normalizeSessionId, String.toList_ofList]
  exact startsWithHermes_unwrapSessionId (Nat.le_refl _)

theorem requestHermesSession_spec {sessionId title : String} {request : HermesRequest}
    (h : requestHermesSession sessionId title = some request) :
    request.sessionId ≠ "" ∧ startsWithHermes request.sessionId.toList = false ∧
      request.title ≠ "" ∧ Json.trim request.title = request.title := by
  simp only [requestHermesSession] at h
  split at h
  next => cases h
  next hnonempty =>
    obtain rfl := Option.some.inj h
    exact ⟨fun hid => hnonempty (.inl hid), startsWithHermes_normalizeSessionId sessionId,
      fun htitle => hnonempty (.inr htitle), trim_trim title⟩

end Desktop
end MicroEmu
