import MicroEmu.Bridge.Runtime
import MicroEmu.Tasks.Preferences
import MicroEmu.Tasks.Ranges
import MicroEmu.Tasks.Titles

/-!
# The context of the selected card

The board composes the display context of the selected card from three places: the fields of the
card, its interaction, and the context it was published with, which is stored as it came.  The
controllers read the context through a validator with limits of its own; where a field fails it
there, the whole context is dropped and the one of before is shown.
-/

namespace MicroEmu
namespace Tasks
namespace TaskBoard

open Json (Value)

theorem lookup_insertOptional (fields : List (String × Value)) (key other : String)
    (value : Option Value) : (insertOptional fields key value).lookup other =
      if other = key then value.or (fields.lookup other) else fields.lookup other := by
  cases value with
  | none => simp [insertOptional]
  | some value => simp [insertOptional, Json.lookup_insertField]

/-- Insert some fields that may be missing, one after the other. -/
def insertFields (fields : List (String × Value)) (inserts : List (String × Option Value)) :
    List (String × Value) :=
  inserts.foldl (fun fields insert => insertOptional fields insert.1 insert.2) fields

theorem lookup_insertFields (fields : List (String × Value))
    {inserts : List (String × Option Value)} (hnodup : (inserts.map Prod.fst).Nodup)
    (key : String) : (insertFields fields inserts).lookup key =
      (inserts.lookup key).join.or (fields.lookup key) := by
  induction inserts generalizing fields with
  | nil => simp [insertFields]
  | cons insert inserts ih =>
      obtain ⟨hfresh, hrest⟩ := List.nodup_cons.mp hnodup
      have hstep : insertFields fields (insert :: inserts) =
          insertFields (insertOptional fields insert.1 insert.2) inserts := rfl
      rw [hstep, ih _ hrest, lookup_insertOptional, List.lookup_cons]
      by_cases hkey : key = insert.1
      · subst hkey
        have hnone : inserts.lookup insert.1 = none := by
          rw [List.lookup_eq_none_iff]
          intro later hlater
          simpa using fun h : insert.1 = later.1 =>
            hfresh (List.mem_map.mpr ⟨later, hlater, h.symm⟩)
        simp [hnone]
      · have hne : (key == insert.1) = false := by simpa using hkey
        simp [hkey, hne]

/-! ## What the board shows of a card -/

/-- The fields of the context of a card. -/
theorem lookup_sourceContext (task : TaskCard) (key : String) : (sourceContext task).lookup key =
    if key ∈ contextKeys then task.context.get? key else none := by
  have hfold : sourceContext task =
      insertFields [] (contextKeys.map fun key => (key, task.context.get? key)) := by
    unfold sourceContext insertFields
    rw [List.foldl_map]
  have hkeys : (contextKeys.map fun key => (key, task.context.get? key)).map Prod.fst =
      contextKeys := by simp [Function.comp_def]
  have hnodup : contextKeys.Nodup := by decide
  rw [hfold, lookup_insertFields [] (by rw [hkeys]; exact hnodup)]
  have hlookup : ∀ keys : List String,
      (keys.map fun key => (key, task.context.get? key)).lookup key =
        if key ∈ keys then some (task.context.get? key) else none := by
    intro keys
    induction keys with
    | nil => rfl
    | cons name keys ih =>
        rw [List.map_cons, List.lookup_cons]
        by_cases hname : key = name
        · simp [hname]
        · have hne : (key == name) = false := by simpa using hname
          simp [hne, hname, ih]
  rw [hlookup]
  split
  · simp
  · rfl

/-- The title of a card as its context has it, else its own. -/
def sourceTitle (task : TaskCard) : String :=
  ((task.context.get? "task").bind Value.asStr).getD task.title

/-- The fields of a card that the display context has in place of those of its context. -/
def cardFields (slot : Nat) (task : TaskCard) : List (String × Option Value) :=
  [("project", task.project.map .string), ("model", task.model.map .string),
    ("effort", task.effort.map .string),
    ("task", some (.string (displayTaskTitle slot (sourceTitle task)))),
    ("status", some (.string task.state.asStr)),
    ("wait_reason", task.interaction.map fun interaction => .string interaction.kind),
    ("prompt", task.interaction.map fun interaction => .string interaction.prompt),
    ("interaction_id", task.interaction.map fun interaction => .string interaction.id),
    ("short_action", (task.interaction.bind (·.short)).map fun action => .string action.label),
    ("long_action", (task.interaction.bind (·.long)).map fun action => .string action.label),
    ("progress", task.progress.map .ofNat)]

/-- The display context is made of the two lists of fields, and the id of the card where the
context has none. -/
theorem taskDisplayContext_eq (slot : Nat) (task : TaskCard) :
    let fields := insertFields (sourceContext task) (cardFields slot task)
    taskDisplayContext slot task =
      .object (if fields.any (·.1 == "task_id") then fields
        else fields ++ [("task_id", .string task.taskId)]) := by
  have htitle : contextTitle (insertOptional (insertOptional (insertOptional (sourceContext task)
      "project" (task.project.map .string)) "model" (task.model.map .string)) "effort"
        (task.effort.map .string)) task = sourceTitle task := by
    unfold contextTitle sourceTitle
    rw [lookup_insertOptional, lookup_insertOptional, lookup_insertOptional, lookup_sourceContext]
    rfl
  unfold taskDisplayContext
  simp only [htitle]
  cases hinteraction : task.interaction with
  | none =>
      simp only [cardFields, insertFields, hinteraction]
      rfl
  | some interaction =>
      simp only [cardFields, insertFields, hinteraction]
      rfl

/-- The field of a display context. -/
def displayField (slot : Nat) (task : TaskCard) (key : String) : Option Value :=
  (((cardFields slot task).lookup key).join.or
    (if key ∈ contextKeys then task.context.get? key else none)).or
      (if key = "task_id" then some (.string task.taskId) else none)

theorem get?_taskDisplayContext (slot : Nat) (task : TaskCard) (key : String) :
    (taskDisplayContext slot task).get? key = displayField slot task key := by
  have hnodup : ((cardFields slot task).map Prod.fst).Nodup := by
    simp [cardFields]
  have hfields := lookup_insertFields (sourceContext task) hnodup key
  rw [lookup_sourceContext] at hfields
  unfold displayField
  rw [taskDisplayContext_eq, ← hfields]
  show List.lookup key (if _ then _ else _) = _
  by_cases hkey : key = "task_id"
  · subst hkey
    cases hid : (insertFields (sourceContext task) (cardFields slot task)).lookup "task_id" with
    | none =>
        have habsent := (Json.any_key_eq_false_iff _ _).mpr hid
        simp [habsent, List.lookup_append, hid]
    | some id =>
        have hpresent : (insertFields (sourceContext task) (cardFields slot task)).any
            (·.1 == "task_id") = true := by
          rw [← Bool.not_eq_false, Json.any_key_eq_false_iff, hid]
          simp
        simp [hpresent, hid]
  · have hne : (key == "task_id") = false := by simpa using hkey
    split
    · simp
    · simp [List.lookup_append, List.lookup_cons, hne]

end TaskBoard
end Tasks

namespace Bridge

open Json (Value charCount)
open Library
open Tasks (TaskBoard TaskCard)

namespace DisplayContext

/-! ## What the validator accepts -/

/-- A text field the validator accepts. -/
def TextFits : Option Value → Prop
  | none | some .null => True
  | some (.string text) => charCount text ≤ 160
  | some _ => False

/-- A percentage the validator accepts. -/
def PercentFits : Option Value → Prop
  | none | some .null => True
  | some (.number number) => ∃ percent, number.asU64 = some percent ∧ percent ≤ 100
  | some _ => False

theorem exists_stringField_iff (fields : List (String × Value)) (name : String) :
    (∃ text, stringField fields name = .ok text) ↔ TextFits (fields.lookup name) := by
  unfold stringField
  split
  next hfield => simp [hfield, TextFits]
  next hfield => simp [hfield, TextFits]
  next text hfield =>
    rw [hfield]
    by_cases hle : charCount text ≤ 160
    · simp [TextFits, hle]
    · simp [TextFits, hle]
  next value hnull hstring hfield =>
    rw [hfield]
    cases value with
    | null => exact absurd rfl hnull
    | string text => exact absurd rfl (hstring text)
    | _ => simp [TextFits]

theorem exists_percentageField_iff (fields : List (String × Value)) (name label : String) :
    (∃ percent, percentageField fields name label = .ok percent) ↔
      PercentFits (fields.lookup name) := by
  unfold percentageField
  split
  next hfield => simp [hfield, PercentFits]
  next hfield => simp [hfield, PercentFits]
  next number hfield =>
    rw [hfield]
    cases hnumber : number.asU64 with
    | none => simp [PercentFits, hnumber]
    | some percent =>
        by_cases hle : percent > 100
        · simp [PercentFits, hnumber, hle]
        · simp only [if_neg hle]
          exact iff_of_true ⟨_, rfl⟩ ⟨percent, hnumber, by omega⟩
  next value hnull hnumber hfield =>
    rw [hfield]
    cases value with
    | null => exact absurd rfl hnull
    | number number => exact absurd rfl (hnumber number)
    | _ => simp [PercentFits]

/-- The fields the validator reads as texts. -/
def textFields : List String :=
  ["task_id", "project", "task", "model", "effort", "status", "wait_reason", "prompt",
    "interaction_id", "short_action", "long_action"]

/-- The fields a card has nothing for. -/
def usageFields : List String :=
  ["weekly_remaining", "five_hour_remaining", "weekly_reset_at", "five_hour_reset_at",
    "pending_wait_count"]

/-- What an accepted object is read as. -/
structure ReadFrom (fields : List (String × Value)) (context : DisplayContext) : Prop where
  taskId : stringField fields "task_id" = .ok context.taskId
  project : stringField fields "project" = .ok context.project
  task : stringField fields "task" = .ok context.task
  model : stringField fields "model" = .ok context.model
  effort : stringField fields "effort" = .ok context.effort
  status : stringField fields "status" = .ok context.status
  waitReason : stringField fields "wait_reason" = .ok context.waitReason
  prompt : stringField fields "prompt" = .ok context.prompt
  interactionId : stringField fields "interaction_id" = .ok context.interactionId
  shortAction : stringField fields "short_action" = .ok context.shortAction
  longAction : stringField fields "long_action" = .ok context.longAction
  progress : percentageField fields "progress" "progress" = .ok context.progress

theorem readFrom_of_fromValue {fields : List (String × Value)} {context : DisplayContext}
    (h : fromValue (.object fields) = .ok context) : ReadFrom fields context := by
  unfold fromValue at h
  simp only [Value.asObject] at h
  split at h
  · cases h
  obtain ⟨_, htaskId, h⟩ := bind_eq_ok.mp h
  obtain ⟨_, -, h⟩ := bind_eq_ok.mp h
  obtain ⟨_, -, h⟩ := bind_eq_ok.mp h
  obtain ⟨_, -, h⟩ := bind_eq_ok.mp h
  obtain ⟨_, -, h⟩ := bind_eq_ok.mp h
  obtain ⟨_, -, h⟩ := bind_eq_ok.mp h
  obtain ⟨_, hprogress, h⟩ := bind_eq_ok.mp h
  obtain ⟨_, hproject, h⟩ := bind_eq_ok.mp h
  obtain ⟨_, htask, h⟩ := bind_eq_ok.mp h
  obtain ⟨_, hmodel, h⟩ := bind_eq_ok.mp h
  obtain ⟨_, heffort, h⟩ := bind_eq_ok.mp h
  obtain ⟨_, hstatus, h⟩ := bind_eq_ok.mp h
  obtain ⟨_, hwait, h⟩ := bind_eq_ok.mp h
  obtain ⟨_, hprompt, h⟩ := bind_eq_ok.mp h
  obtain ⟨_, hinteraction, h⟩ := bind_eq_ok.mp h
  obtain ⟨_, hshort, h⟩ := bind_eq_ok.mp h
  obtain ⟨_, hlong, h⟩ := bind_eq_ok.mp h
  obtain rfl := pure_eq_ok.mp h
  exact ⟨htaskId, hproject, htask, hmodel, heffort, hstatus, hwait, hprompt, hinteraction, hshort,
    hlong, hprogress⟩

/-- An object of known fields without usage is accepted exactly when its texts and its progress
fit. -/
theorem exists_fromValue_iff {fields : List (String × Value)} (hknown : unknownField fields = none)
    (husage : ∀ name ∈ usageFields, fields.lookup name = none) :
    (∃ context, fromValue (.object fields) = .ok context) ↔
      (∀ name ∈ textFields, TextFits (fields.lookup name)) ∧
        PercentFits (fields.lookup "progress") := by
  constructor
  · rintro ⟨context, h⟩
    have hread := readFrom_of_fromValue h
    have htext : ∀ {name : String} {text : Option String},
        stringField fields name = .ok text → TextFits (fields.lookup name) :=
      fun h => (exists_stringField_iff fields _).mp ⟨_, h⟩
    refine ⟨?_, (exists_percentageField_iff fields _ _).mp ⟨_, hread.progress⟩⟩
    simp only [textFields, List.forall_mem_cons]
    exact ⟨htext hread.taskId, htext hread.project, htext hread.task, htext hread.model,
      htext hread.effort, htext hread.status, htext hread.waitReason, htext hread.prompt,
      htext hread.interactionId, htext hread.shortAction, htext hread.longAction, by simp⟩
  · rintro ⟨htexts, hprogress⟩
    have htext : ∀ name ∈ textFields, ∃ text, stringField fields name = .ok text :=
      fun name hname => (exists_stringField_iff fields name).mpr (htexts name hname)
    simp only [textFields, List.forall_mem_cons] at htext
    obtain ⟨⟨taskId, htaskId⟩, ⟨project, hproject⟩, ⟨task, htask⟩, ⟨model, hmodel⟩,
      ⟨effort, heffort⟩, ⟨status, hstatus⟩, ⟨waitReason, hwait⟩, ⟨prompt, hprompt⟩,
      ⟨interactionId, hinteraction⟩, ⟨shortAction, hshort⟩, ⟨longAction, hlong⟩, -⟩ := htext
    obtain ⟨progress, hprogress⟩ := (exists_percentageField_iff fields _ "progress").mpr hprogress
    have hpercent : ∀ {name label : String}, fields.lookup name = none →
        percentageField fields name label = .ok none := by
      intro name label hnone
      rw [percentageField, hnone]
    have htimestamp : ∀ {name : String}, fields.lookup name = none →
        timestampField fields name = .ok none := by
      intro name hnone
      rw [timestampField, hnone]
    simp only [usageFields, List.forall_mem_cons] at husage
    obtain ⟨hweekly, hfive, hweeklyReset, hfiveReset, hpending, -⟩ := husage
    refine ⟨{ project, task, model, effort, status, progress, taskId, waitReason, prompt
              interactionId, shortAction, longAction }, ?_⟩
    unfold fromValue
    simp only [Value.asObject, hknown]
    rw [htaskId, hpercent hweekly, hpercent hfive, htimestamp hweeklyReset, htimestamp hfiveReset,
      hpercent hpending, hprogress, hproject, htask, hmodel, heffort, hstatus, hwait, hprompt,
      hinteraction, hshort, hlong]
    rfl

theorem unknownField_eq_none {fields : List (String × Value)}
    (h : ∀ key, fields.lookup key ≠ none → key ∈ knownFields) : unknownField fields = none := by
  unfold unknownField
  rw [List.find?_eq_none]
  intro key hkey
  obtain ⟨⟨key, value⟩, hfield, rfl⟩ := List.mem_map.mp hkey
  have hstored := Std.ExtTreeMap.mem_toList_iff_getElem?_eq_some.mp hfield
  have hmem : (key, value) ∈ fields := mem_of_getElem?_ofList hstored
  have hpresent : fields.lookup key ≠ none := by
    rw [Ne, List.lookup_eq_none_iff]
    exact fun habsent => by simpa using habsent _ hmem
  simpa using h key hpresent

end DisplayContext

/-! ## The context of a card -/

open DisplayContext (TextFits PercentFits)

/-- A text field fits: the text of the card where it has one, else what its context stores. -/
def FieldFits (own : Option String) (stored : Option Value) : Prop :=
  match own with
  | some text => charCount text ≤ 160
  | none => TextFits stored

/-- What the validator asks of a card beyond what the board has checked. -/
structure Displayable (slot : Nat) (card : TaskCard) : Prop where
  project : card.project = none → TextFits (card.context.get? "project")
  effort : card.effort = none → TextFits (card.context.get? "effort")
  model : FieldFits card.model (card.context.get? "model")
  title : Tasks.codexTaskSlots ≤ slot → charCount (TaskBoard.sourceTitle card) ≤ 160
  taskId : TextFits (card.context.get? "task_id")
  waiting : card.interaction = none →
    ∀ name ∈ ["wait_reason", "prompt", "interaction_id"], TextFits (card.context.get? name)
  short : FieldFits ((card.interaction.bind (·.short)).map (·.label))
    (card.context.get? "short_action")
  long : FieldFits ((card.interaction.bind (·.long)).map (·.label))
    (card.context.get? "long_action")
  progress : ∀ progress, card.progress = some progress → progress ≤ 100
  stored : card.progress = none → PercentFits (card.context.get? "progress")

/-- The texts of a card that the board has cut or checked. -/
structure Worded (card : TaskCard) : Prop where
  project : ∀ project, card.project = some project → charCount project ≤ 160
  effort : ∀ effort, card.effort = some effort → charCount effort ≤ 160
  interaction : ∀ interaction, card.interaction = some interaction →
    charCount interaction.kind ≤ 160 ∧ charCount interaction.prompt ≤ 160 ∧
      charCount interaction.id ≤ 160

theorem unknownField_taskDisplayContext {slot : Nat} {card : TaskCard}
    {fields : List (String × Value)}
    (hfields : ∀ key, fields.lookup key = TaskBoard.displayField slot card key) :
    DisplayContext.unknownField fields = none := by
  refine DisplayContext.unknownField_eq_none fun key hpresent => ?_
  rw [hfields] at hpresent
  by_contra hunknown
  refine hpresent ?_
  have hcard : (TaskBoard.cardFields slot card).lookup key = none := by
    rw [List.lookup_eq_none_iff]
    intro field hfield
    have hnames : (TaskBoard.cardFields slot card).map Prod.fst ⊆ DisplayContext.knownFields := by
      simp [TaskBoard.cardFields, DisplayContext.knownFields]
    have hknown := hnames (List.mem_map.mpr ⟨field, hfield, rfl⟩)
    simpa using fun h : key = field.1 => hunknown (h ▸ hknown)
  have hcontext : key ∉ TaskBoard.contextKeys := by
    have hnames : TaskBoard.contextKeys ⊆ DisplayContext.knownFields := by decide
    exact fun hkey => hunknown (hnames hkey)
  have hid : key ≠ "task_id" := by
    rintro rfl
    exact hunknown (by decide)
  simp [TaskBoard.displayField, hcard, hcontext, hid]

/-- A text of the card stands before the one its context stores. -/
theorem textFits_or_iff {own : Option String} {stored : Option Value} :
    TextFits ((own.map Value.string).or stored) ↔ FieldFits own stored := by
  cases own with
  | none => exact Iff.rfl
  | some text => exact Iff.rfl

theorem fieldFits_iff_of_le {own : Option String} {stored : Option Value}
    (h : ∀ text, own = some text → charCount text ≤ 160) :
    FieldFits own stored ↔ (own = none → TextFits stored) := by
  cases own with
  | none => exact ⟨fun hfits _ => hfits, fun hfits => hfits rfl⟩
  | some text => exact iff_of_true (h text rfl) fun hnone => by cases hnone

theorem percentFits_ofNat {percent : Nat} (hbyte : percent ≤ 255) :
    PercentFits (some (.ofNat percent)) ↔ percent ≤ 100 := by
  have hmod : percent % 18446744073709551616 = percent := Nat.mod_eq_of_lt (by omega)
  simp [PercentFits, Value.ofNat, Json.Number.asU64, hmod]

theorem charCount_asStr (state : Tasks.TaskState) : charCount state.asStr ≤ 160 := by
  cases state <;> decide

/-- The fields of the display context of a card, by their names. -/
theorem displayField_texts (slot : Nat) (card : TaskCard) :
    TaskBoard.displayField slot card "project" =
        (card.project.map Value.string).or (card.context.get? "project") ∧
      TaskBoard.displayField slot card "model" =
        (card.model.map Value.string).or (card.context.get? "model") ∧
      TaskBoard.displayField slot card "effort" =
        (card.effort.map Value.string).or (card.context.get? "effort") ∧
      TaskBoard.displayField slot card "task" =
        some (.string (Tasks.displayTaskTitle slot (TaskBoard.sourceTitle card))) ∧
      TaskBoard.displayField slot card "status" = some (.string card.state.asStr) ∧
      TaskBoard.displayField slot card "short_action" =
        (((card.interaction.bind (·.short)).map (·.label)).map Value.string).or
          (card.context.get? "short_action") ∧
      TaskBoard.displayField slot card "long_action" =
        (((card.interaction.bind (·.long)).map (·.label)).map Value.string).or
          (card.context.get? "long_action") := by
  simp [TaskBoard.displayField, TaskBoard.cardFields, TaskBoard.contextKeys, List.lookup_cons,
    Function.comp_def]

theorem displayField_rest (slot : Nat) (card : TaskCard) :
    TaskBoard.displayField slot card "wait_reason" =
        ((card.interaction.map (·.kind)).map Value.string).or (card.context.get? "wait_reason") ∧
      TaskBoard.displayField slot card "prompt" =
        ((card.interaction.map (·.prompt)).map Value.string).or (card.context.get? "prompt") ∧
      TaskBoard.displayField slot card "interaction_id" =
        ((card.interaction.map (·.id)).map Value.string).or
          (card.context.get? "interaction_id") ∧
      TaskBoard.displayField slot card "task_id" =
        (card.context.get? "task_id").or (some (.string card.taskId)) ∧
      TaskBoard.displayField slot card "progress" =
        (card.progress.map Value.ofNat).or (card.context.get? "progress") ∧
      ∀ name ∈ DisplayContext.usageFields, TaskBoard.displayField slot card name = none := by
  simp [TaskBoard.displayField, TaskBoard.cardFields, TaskBoard.contextKeys, List.lookup_cons,
    Function.comp_def, DisplayContext.usageFields]

/-- The title is cut below the ninth slot only. -/
theorem textFits_title_iff (slot : Nat) (title : String) :
    TextFits (some (.string (Tasks.displayTaskTitle slot title))) ↔
      (Tasks.codexTaskSlots ≤ slot → charCount title ≤ 160) := by
  show charCount (Tasks.displayTaskTitle slot title) ≤ 160 ↔ _
  by_cases hslot : slot < Tasks.codexTaskSlots
  · exact iff_of_true (Tasks.charCount_displayTaskTitle hslot title)
      fun hbeyond => absurd hslot (Nat.not_lt.mpr hbeyond)
  · have hbeyond : Tasks.codexTaskSlots ≤ slot := Nat.not_lt.mp hslot
    unfold Tasks.displayTaskTitle
    rw [if_pos hbeyond]
    simp [hbeyond]

theorem textFits_taskId_iff {stored : Option Value} {taskId : String}
    (hid : charCount taskId ≤ 160) :
    TextFits (stored.or (some (.string taskId))) ↔ TextFits stored := by
  cases stored with
  | none => exact iff_of_true hid trivial
  | some value => exact Iff.rfl

theorem percentFits_progress_iff {own : Option Nat} {stored : Option Value}
    (hbyte : ∀ progress, own = some progress → progress ≤ 255) :
    PercentFits ((own.map Value.ofNat).or stored) ↔
      (∀ progress, own = some progress → progress ≤ 100) ∧ (own = none → PercentFits stored) := by
  cases own with
  | none => simp
  | some progress =>
      have hfits := percentFits_ofNat (hbyte progress rfl)
      simpa using hfits

/-- The context of a card that the board stores is accepted exactly when the card is
displayable. -/
theorem exists_fromValue_taskDisplayContext_iff {slot : Nat} {card : TaskCard}
    (hbounded : card.Bounded 255) (hworded : Worded card) :
    (∃ context, DisplayContext.fromValue (TaskBoard.taskDisplayContext slot card) = .ok context) ↔
      Displayable slot card := by
  obtain ⟨fields, hobject⟩ : ∃ fields, TaskBoard.taskDisplayContext slot card = .object fields :=
    ⟨_, rfl⟩
  have hfields : ∀ key, fields.lookup key = TaskBoard.displayField slot card key := by
    intro key
    rw [← TaskBoard.get?_taskDisplayContext, hobject]
    rfl
  obtain ⟨hproject, hmodel, heffort, htask, hstatus, hshort, hlong⟩ := displayField_texts slot card
  obtain ⟨hwait, hprompt, hinteraction, htaskId, hprogress, husage⟩ := displayField_rest slot card
  -- a text of the interaction stands for all three of them
  have hwaiting : ∀ {stored : Option Value} (text : Tasks.TaskInteraction → String),
      (∀ interaction, card.interaction = some interaction → charCount (text interaction) ≤ 160) →
        (FieldFits (card.interaction.map text) stored ↔
          (card.interaction = none → TextFits stored)) := by
    intro stored text hle
    rw [fieldFits_iff_of_le]
    · rw [Option.map_eq_none_iff]
    · intro shown hshown
      obtain ⟨interaction, hpresent, rfl⟩ := Option.map_eq_some_iff.mp hshown
      exact hle interaction hpresent
  have hstate : TextFits (some (.string card.state.asStr)) := charCount_asStr card.state
  rw [hobject, DisplayContext.exists_fromValue_iff (unknownField_taskDisplayContext hfields)
    fun name hname => (hfields name).trans (husage name hname)]
  simp only [DisplayContext.textFields, List.forall_mem_cons, hfields, hproject, hmodel, heffort,
    htask, hstatus, hshort, hlong, hwait, hprompt, hinteraction, htaskId, hprogress,
    textFits_or_iff, fieldFits_iff_of_le hworded.project, fieldFits_iff_of_le hworded.effort,
    hwaiting (·.kind) fun interaction h => (hworded.interaction interaction h).1,
    hwaiting (·.prompt) fun interaction h => (hworded.interaction interaction h).2.1,
    hwaiting (·.id) fun interaction h => (hworded.interaction interaction h).2.2,
    textFits_title_iff, textFits_taskId_iff hbounded.taskId.2,
    percentFits_progress_iff hbounded.progress]
  constructor
  · rintro ⟨⟨hid, hproject, htitle, hmodel, heffort, -, hkind, hprompt, hinteraction, hshort, hlong,
      -⟩, hprogress, hstored⟩
    refine ⟨hproject, heffort, hmodel, htitle, hid, fun hnone => ?_, hshort, hlong, hprogress,
      hstored⟩
    simp only [List.forall_mem_cons]
    exact ⟨hkind hnone, hprompt hnone, hinteraction hnone, by simp⟩
  · intro h
    have hwaits := fun hnone => h.waiting hnone
    simp only [List.forall_mem_cons] at hwaits
    exact ⟨⟨h.taskId, h.project, h.title, h.model, h.effort, hstate, fun hnone => (hwaits hnone).1,
      fun hnone => (hwaits hnone).2.1, fun hnone => (hwaits hnone).2.2.1, h.short, h.long,
      by simp⟩, h.progress, h.stored⟩

/-! ## The texts over whole runs -/

theorem charCount_interactionText {object : Value} {key : String} {required : Bool}
    {text : Option String} (h : Tasks.interactionText object key required = .ok text) :
    charCount (text.getD "") ≤ 160 := by
  unfold Tasks.interactionText at h
  split at h
  · split at h
    next hfits =>
      obtain rfl := Except.ok.inj h
      exact hfits.1
    · cases h
  · split at h
    · cases h
    · obtain rfl := Except.ok.inj h
      exact Nat.zero_le _
  · cases h

theorem charCount_parseInteraction {field : Option Value} {interaction : Tasks.TaskInteraction}
    (h : Tasks.parseInteraction field = .ok (some interaction)) :
    charCount interaction.kind ≤ 160 ∧ charCount interaction.prompt ≤ 160 ∧
      charCount interaction.id ≤ 160 := by
  unfold Tasks.parseInteraction at h
  split at h
  · cases h
  · split at h
    · cases h
    · obtain ⟨_, hid, h⟩ := bind_eq_ok.mp h
      obtain ⟨_, hkind, h⟩ := bind_eq_ok.mp h
      obtain ⟨_, hprompt, h⟩ := bind_eq_ok.mp h
      obtain ⟨_, -, h⟩ := bind_eq_ok.mp h
      obtain ⟨_, -, h⟩ := bind_eq_ok.mp h
      obtain ⟨_, -, h⟩ := bind_eq_ok.mp h
      obtain rfl := Option.some.inj (pure_eq_ok.mp h)
      exact ⟨charCount_interactionText hkind, charCount_interactionText hprompt,
        charCount_interactionText hid⟩

/-- The parser checks the texts of an interaction and cuts the others. -/
theorem worded_of_parseTask {session nowMs : Nat} {agent : Routing.AgentId} {item : Value}
    {legacy : Option (String × String)} {card : TaskCard}
    (h : Tasks.parseTask session agent item nowMs legacy = .ok card) : Worded card := by
  unfold Tasks.parseTask at h
  split at h
  · cases h
  obtain ⟨⟨taskId, key⟩, -, h⟩ := bind_eq_ok.mp h
  obtain ⟨_, -, h⟩ := bind_eq_ok.mp h
  obtain ⟨_, hinteraction, h⟩ := bind_eq_ok.mp h
  obtain ⟨_, -, h⟩ := bind_eq_ok.mp h
  obtain ⟨_, -, h⟩ := bind_eq_ok.mp h
  obtain ⟨_, -, h⟩ := bind_eq_ok.mp h
  obtain ⟨_, -, h⟩ := bind_eq_ok.mp h
  obtain ⟨_, -, h⟩ := bind_eq_ok.mp h
  obtain ⟨_, -, h⟩ := bind_eq_ok.mp h
  obtain ⟨_, -, h⟩ := bind_eq_ok.mp h
  obtain rfl := pure_eq_ok.mp h
  refine ⟨fun _ hproject => Tasks.charCount_textField hproject,
    fun _ heffort => Tasks.charCount_textField heffort, ?_⟩
  rintro interaction rfl
  exact charCount_parseInteraction hinteraction

theorem kept_worded : Tasks.Kept Worded where
  timed := fun _ _ h => ⟨h.project, h.effort, h.interaction⟩
  acknowledged := fun h => ⟨h.project, h.effort, h.interaction⟩
  leased := fun _ h => ⟨h.project, h.effort, h.interaction⟩
  remodelled := fun _ h => ⟨h.project, h.effort, h.interaction⟩

theorem worded_run (steps : List (Tasks.WalkOrder × Tasks.Op)) {id : String} {card : TaskCard}
    (h : (TaskBoard.run steps default).tasks[id]? = some card) : Worded card := by
  refine kept_worded.run steps (fun before step after _ _ => ?_) h
  intro cards nowMs hmerged card hcard
  obtain ⟨_, _, _, _, parsed, -, hparse, hsettled⟩ :=
    TaskBoard.mergedCards_parsed hmerged card hcard
  have hparsed := worded_of_parseTask hparse
  rcases hsettled with rfl | ⟨previous, -, rfl⟩
  · exact hparsed
  · exact ⟨hparsed.project, hparsed.effort, hparsed.interaction⟩

/-! ## The selected card of a controller -/

/-- A selected task that is shown on a controller is a stored card at a slot of it. -/
theorem selectedOn_card {board : TaskBoard} (hplaced : board.Placed) {deviceId id : String}
    (hselected : board.selectedOn deviceId = some id) :
    ∃ card slot, board.tasks[id]? = some card ∧
      board.assignments[id]? = some ⟨⟨deviceId, slot⟩⟩ ∧
        board.selectedDisplayContext deviceId =
          some (TaskBoard.taskDisplayContext slot card) := by
  have hshown := (Option.filter_eq_some_iff.mp hselected).2
  obtain ⟨⟨slot⟩, hassigned, hdevice⟩ := (Option.any_eq_true _ _).mp hshown
  obtain ⟨card, hcard, -⟩ := hplaced.complies hassigned
  obtain rfl : slot.deviceId = deviceId := by simpa using hdevice
  refine ⟨card, slot.slot, hcard, hassigned, ?_⟩
  have hslot : board.selectedSlot slot.deviceId = some slot.slot := by
    unfold TaskBoard.selectedSlot
    rw [hselected, Option.bind_some, hassigned]
    rfl
  unfold TaskBoard.selectedDisplayContext
  rw [hselected, Option.bind_some, hcard, hslot]

/-- An accepted context has the title and the state of its card. -/
theorem shows_of_fromValue {slot : Nat} {card : TaskCard} {selected : DisplayContext}
    (h : DisplayContext.fromValue (TaskBoard.taskDisplayContext slot card) = .ok selected) :
    selected.task = some (Tasks.displayTaskTitle slot (TaskBoard.sourceTitle card)) ∧
      selected.status = some card.state.asStr := by
  obtain ⟨fields, hobject⟩ : ∃ fields, TaskBoard.taskDisplayContext slot card = .object fields :=
    ⟨_, rfl⟩
  have hfields : ∀ key, fields.lookup key = TaskBoard.displayField slot card key := by
    intro key
    rw [← TaskBoard.get?_taskDisplayContext, hobject]
    rfl
  have hread : ∀ {name text : String} {shown : Option String},
      fields.lookup name = some (.string text) →
        DisplayContext.stringField fields name = .ok shown → shown = some text := by
    intro name text shown hfield hstring
    unfold DisplayContext.stringField at hstring
    rw [hfield] at hstring
    simp only at hstring
    split at hstring
    · exact (Except.ok.inj hstring).symm
    · cases hstring
  obtain ⟨-, -, -, htask, hstatus, -⟩ := displayField_texts slot card
  rw [hobject] at h
  have hcontext := DisplayContext.readFrom_of_fromValue h
  exact ⟨hread ((hfields _).trans htask) hcontext.task,
    hread ((hfields _).trans hstatus) hcontext.status⟩

/-- The display context of the selected card of a controller is the one of a stored card at the
slot it is assigned to; the validator accepts it, and the controller shows it, exactly when the
card is displayable there. -/
theorem selected_context_valid_iff (steps : List (Tasks.WalkOrder × Tasks.Op))
    (deviceId id : String)
    (hselected : (TaskBoard.run steps default).selectedOn deviceId = some id) :
    ∃ card slot value, (TaskBoard.run steps default).tasks[id]? = some card ∧
      (TaskBoard.run steps default).assignments[id]? = some ⟨⟨deviceId, slot⟩⟩ ∧
      (TaskBoard.run steps default).selectedDisplayContext deviceId = some value ∧
      ((∃ selected, DisplayContext.fromValue value = .ok selected) ↔ Displayable slot card) ∧
      ∀ (World : Type) (bridge : BridgeRuntime World) (context : DisplayContext),
        bridge.taskBoard = TaskBoard.run steps default →
          (Displayable slot card → ∃ selected, DisplayContext.fromValue value = .ok selected ∧
            selected.task =
              some (Tasks.displayTaskTitle slot (TaskBoard.sourceTitle card)) ∧
            selected.status = some card.state.asStr ∧
            bridge.displayContextForController context deviceId =
              { context.overlay selected with
                agentsUsage := some bridge.usageCache.usageMap }) ∧
          (¬Displayable slot card → bridge.displayContextForController context deviceId =
            { context with agentsUsage := some bridge.usageCache.usageMap }) := by
  obtain ⟨card, slot, hcard, hassigned, hvalue⟩ :=
    selectedOn_card (TaskBoard.placed_run steps) hselected
  have hbounded := TaskBoard.bounded_run steps
    (fun _ step _ _ _ => step.2.progressWithin_byte) hcard
  have haccepted := @exists_fromValue_taskDisplayContext_iff slot card hbounded
    (worded_run steps hcard)
  refine ⟨card, slot, _, hcard, hassigned, hvalue, haccepted, fun World bridge context hboard => ?_⟩
  have hresolved : (bridge.taskBoard.selectedDisplayContext deviceId).bind
      (fun value => (DisplayContext.fromValue value).toOption) =
        (DisplayContext.fromValue (TaskBoard.taskDisplayContext slot card)).toOption := by
    rw [hboard, hvalue, Option.bind_some]
  unfold BridgeRuntime.displayContextForController
  rw [hresolved]
  constructor
  · intro hdisplayable
    obtain ⟨selected, hok⟩ := haccepted.mpr hdisplayable
    obtain ⟨htask, hstatus⟩ := shows_of_fromValue hok
    refine ⟨selected, hok, htask, hstatus, ?_⟩
    rw [hok]
    rfl
  · intro hnot
    cases hparsed : DisplayContext.fromValue (TaskBoard.taskDisplayContext slot card) with
    | error message => rfl
    | ok selected => exact absurd (haccepted.mp ⟨selected, hparsed⟩) hnot

/-- A controller with one slot, and a selected task published with a context. -/
def selectedWith (context : List (String × Value)) : List (Tasks.WalkOrder × Tasks.Op) :=
  [(.ascending, .setDevice "deck" 1 true),
    (.ascending, .publishTasks 1 .zCode (.object [("tasks", .array [.object
      [("task_id", .string "a"), ("title", .string "Build"), ("context", .object context)]])]) 10),
    (.ascending, .selectTask "a" 20)]

/-- A task with a text for its prompt is shown. -/
theorem selected_context_valid_prompt :
    ∃ card slot value, (TaskBoard.run (selectedWith [("prompt", .string "Go?")])
        default).selectedDisplayContext "deck" = some value ∧
      Displayable slot card ∧ ∃ selected, DisplayContext.fromValue value = .ok selected := by
  obtain ⟨card, slot, value, -, -, hvalue, haccepted, -⟩ :=
    selected_context_valid_iff (selectedWith [("prompt", .string "Go?")]) "deck" "a"
      (by decide +kernel)
  have hshown : ((TaskBoard.run (selectedWith [("prompt", .string "Go?")])
      default).selectedDisplayContext "deck").any fun value =>
        (DisplayContext.fromValue value).toOption.isSome := by decide +kernel
  rw [hvalue, Option.any_some, Option.isSome_iff_exists] at hshown
  obtain ⟨selected, hselected⟩ := hshown
  have hok := toOption_eq_some_iff.mp hselected
  exact ⟨card, slot, value, hvalue, haccepted.mp ⟨selected, hok⟩, selected, hok⟩

/-- A number stored for a prompt is accepted by the board and refused by the validator. -/
theorem stored_prompt_hides_selection :
    let board := TaskBoard.run (selectedWith [("prompt", .ofNat 5)]) default
    board.selectedOn "deck" = some "a" ∧ (board.selectedDisplayContext "deck").isSome = true ∧
      ((board.selectedDisplayContext "deck").bind fun value =>
        (DisplayContext.fromValue value).toOption).isSome = false := by
  decide +kernel

end Bridge
end MicroEmu
