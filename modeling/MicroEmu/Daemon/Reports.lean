import MicroEmu.Bridge.Decks
import MicroEmu.Daemon.PluginController

/-!
# What a plugin has reported

A plugin reports a number of slots in its hello, and a `capacity` message may report another
number and the agents of the slots.  The controller takes over what it receives.  While the
messages of a connection repeat the number of its hello, the controller keeps the number it was
made with, and the agents it holds are those of the last report it has received.
-/

namespace MicroEmu
namespace Daemon

open Json (Value)
open Routing (AgentId)
open Bridge (Call ControllerKind Device FallibleCall Outside WorldStep)
open Std (ExtTreeMap)

/-! ## Reports -/

/-- The line is a `capacity` message. -/
def isCapacity (line : Value) : Bool := ((line.get? "type").bind Value.asStr).getD "" == "capacity"

/-- The number of slots that a line reports. -/
def reportedSlots (line : Value) : Option Nat :=
  if isCapacity line then (line.get? "taskSlots").bind Value.asU64 else none

/-- The agents that a line reports for the slots. -/
def reportedAgents (line : Value) : Option (List (String × Value)) :=
  if isCapacity line then (line.get? "slotAgents").bind Value.asObject else none

/-- The number of slots reported last, in the hello or in one of the lines. -/
def latestSlots (hello : Nat) (lines : List Value) : Nat :=
  min ((lines.filterMap reportedSlots).getLast?.getD hello) maxPluginTaskSlots

/-- The agents reported last, of the slots that exist. -/
def latestAgents (taskSlots : Nat) (lines : List Value) : ExtTreeMap Nat AgentId :=
  match (lines.filterMap reportedAgents).getLast? with
  | none => ∅
  | some agents => PluginController.slotAgentsOf taskSlots agents

/-- The line reports the number of slots of the hello, or none. -/
def Repeats (hello : Nat) (line : Value) : Prop :=
  ∀ slots, reportedSlots line = some slots →
    min slots maxPluginTaskSlots = min hello maxPluginTaskSlots

/-- Lines that repeat the hello report nothing new. -/
theorem latestSlots_of_repeats {hello : Nat} {lines : List Value}
    (h : ∀ line ∈ lines, Repeats hello line) :
    latestSlots hello lines = min hello maxPluginTaskSlots := by
  unfold latestSlots
  cases hlast : (lines.filterMap reportedSlots).getLast? with
  | none => rfl
  | some slots =>
      obtain ⟨line, hline, hreported⟩ := List.mem_filterMap.mp (List.mem_of_getLast? hlast)
      exact h line hline slots hreported

theorem latestAgents_concat (taskSlots : Nat) (lines : List Value) (line : Value) :
    latestAgents taskSlots (lines ++ [line]) =
      match reportedAgents line with
      | none => latestAgents taskSlots lines
      | some agents => PluginController.slotAgentsOf taskSlots agents := by
  unfold latestAgents
  rw [List.filterMap_append]
  cases hreported : reportedAgents line with
  | none => rw [List.filterMap_cons_none hreported, List.filterMap_nil, List.append_nil]
  | some agents =>
      rw [List.filterMap_cons_some hreported, List.filterMap_nil, List.getLast?_concat]

/-- Agents are taken over for existing slots only. -/
theorem lt_of_slotAgentsOf {taskSlots : Nat} {map : List (String × Value)} {slot : Nat}
    {agent : AgentId} (h : (PluginController.slotAgentsOf taskSlots map)[slot]? = some agent) :
    slot < taskSlots := by
  have hfold : ∀ (entries : List (String × Value)) (agents : ExtTreeMap Nat AgentId),
      (∀ slot agent, agents[slot]? = some agent → slot < taskSlots) →
        ∀ slot agent, (entries.foldl (PluginController.addSlotAgent taskSlots) agents)[slot]? =
          some agent → slot < taskSlots := by
    intro entries
    induction entries with
    | nil => exact fun agents hagents => hagents
    | cons entry entries ih =>
        intro agents hagents
        refine ih _ fun slot agent hslot => ?_
        unfold PluginController.addSlotAgent at hslot
        split at hslot
        · exact hagents slot agent hslot
        · split at hslot
          · exact hagents slot agent hslot
          next hthere =>
            split at hslot
            · exact hagents slot agent hslot
            · rw [Library.getElem?_insert_eq_ite] at hslot
              split at hslot
              next heq => exact heq ▸ Nat.lt_of_not_le hthere
              · exact hagents slot agent hslot
  refine hfold _ ∅ (fun slot agent hslot => ?_) slot agent h
  rw [ExtTreeMap.getElem?_empty] at hslot
  cases hslot

theorem lt_of_latestAgents {taskSlots slot : Nat} {lines : List Value} {agent : AgentId}
    (h : (latestAgents taskSlots lines)[slot]? = some agent) : slot < taskSlots := by
  unfold latestAgents at h
  split at h
  · rw [ExtTreeMap.getElem?_empty] at h
    cases h
  · exact lt_of_slotAgentsOf h

namespace PluginController

/-- A `capacity` message that repeats the number of slots changes the agents only. -/
theorem takeCapacity_of_repeats {controller : PluginController} {hello : Nat} {line : Value}
    {before : List Value} (hcapacity : isCapacity line = true) (hrepeats : Repeats hello line)
    (hslots : controller.taskSlots = min hello maxPluginTaskSlots)
    (hagents : controller.slotAgents = latestAgents controller.taskSlots before) :
    (controller.takeCapacity line).session = controller.session ∧
      (controller.takeCapacity line).taskSlots = controller.taskSlots ∧
      (controller.takeCapacity line).slotAgents =
        latestAgents controller.taskSlots (before ++ [line]) := by
  have hsame : (controller.takeCapacity line).taskSlots = controller.taskSlots := by
    unfold takeCapacity
    cases hreported : (line.get? "taskSlots").bind Value.asU64 with
    | none => rfl
    | some slots =>
        rw [hslots]
        exact hrepeats slots (by rw [reportedSlots, if_pos hcapacity, hreported])
  have hheld : (controller.takeCapacity line).slotAgents =
      match (line.get? "slotAgents").bind Value.asObject with
      | none => controller.slotAgents
      | some agents => slotAgentsOf (controller.takeCapacity line).taskSlots agents := rfl
  refine ⟨rfl, hsame, ?_⟩
  rw [latestAgents_concat, reportedAgents, if_pos hcapacity, hheld, hsame, hagents]

/-- What the controller has taken over, and from which session. -/
def held (controller : PluginController) : Nat × Nat × ExtTreeMap Nat AgentId :=
  (controller.session, controller.taskSlots, controller.slotAgents)

end PluginController

/-! ## The worlds of a run -/

namespace PluginWorld

open PluginController (held)

variable {Rest : Type} {windows : Windows Rest} {world after : PluginWorld Rest}

@[simp] theorem channels_setChannel_self (session : Nat) (channel : Channel)
    (world : PluginWorld Rest) : (world.setChannel session channel).channels session = channel :=
  Function.update_self ..

@[simp] theorem channels_setChannel_of_ne {session other : Nat} (h : other ≠ session)
    (channel : Channel) (world : PluginWorld Rest) :
    (world.setChannel session channel).channels other = world.channels other :=
  Function.update_of_ne h ..

@[simp] theorem controllers_setChannel (session : Nat) (channel : Channel)
    (world : PluginWorld Rest) :
    (world.setChannel session channel).controllers = world.controllers := rfl

@[simp] theorem channels_setController (instanceId : String) (controller : PluginController)
    (world : PluginWorld Rest) :
    (world.setController instanceId controller).channels = world.channels := rfl

@[simp] theorem controllers_setController_self (instanceId : String)
    (controller : PluginController) (world : PluginWorld Rest) :
    (world.setController instanceId controller).controllers instanceId = some controller :=
  Function.update_self ..

@[simp] theorem controllers_setController_of_ne {instanceId other : String}
    (h : other ≠ instanceId) (controller : PluginController) (world : PluginWorld Rest) :
    (world.setController instanceId controller).controllers other = world.controllers other :=
  Function.update_of_ne h ..

/-- The controllers hold the same, and nothing has come or been taken. -/
structure Alike (world after : PluginWorld Rest) : Prop where
  controllers : ∀ instanceId,
    (after.controllers instanceId).map held = (world.controllers instanceId).map held
  lines : ∀ session, (after.channels session).lines = (world.channels session).lines
  received : ∀ session, (after.channels session).received = (world.channels session).received

theorem Alike.refl (world : PluginWorld Rest) : Alike world world :=
  ⟨fun _ => rfl, fun _ => rfl, fun _ => rfl⟩

theorem Alike.trans {last : PluginWorld Rest} (h : Alike world after) (hlast : Alike after last) :
    Alike world last where
  controllers instanceId := (hlast.controllers instanceId).trans (h.controllers instanceId)
  lines session := (hlast.lines session).trans (h.lines session)
  received session := (hlast.received session).trans (h.received session)

theorem alike_onRest {α : Type} (ask : Call Rest α) (world : PluginWorld Rest) :
    Alike world (onRest ask world).2 := ⟨fun _ => rfl, fun _ => rfl, fun _ => rfl⟩

theorem alike_write (session : Nat) (line : Value) (world : PluginWorld Rest) :
    Alike world (world.write session line) := by
  refine ⟨fun _ => rfl, fun other => ?_, fun other => ?_⟩
  · by_cases hother : other = session
    · subst hother
      simp [write]
    · simp [write, hother]
  · by_cases hother : other = session
    · subst hother
      simp [write]
    · simp [write, hother]

/-- A controller that holds the same may be put back. -/
theorem alike_setController {instanceId : String} {kept : PluginController}
    (hheld : (world.controllers instanceId).map held = some kept.held) :
    Alike world (world.setController instanceId kept) := by
  refine ⟨fun other => ?_, fun _ => rfl, fun _ => rfl⟩
  by_cases hother : other = instanceId
  · subst hother
    simp [hheld]
  · simp [hother]

theorem alike_send (controller : PluginController) (message : Value)
    (world : PluginWorld Rest) : Alike world (send controller message world).2 := by
  unfold send
  split
  · exact .refl world
  · split
    · exact .refl world
    · exact alike_write _ _ world

theorem alike_reply (controller : PluginController) (message : Value)
    (world : PluginWorld Rest) :
    Alike world (reply controller message world).2 ∧
      (reply controller message world).1.held = controller.held := by
  have hsent := alike_send controller message world
  unfold reply
  simp only
  split
  · exact ⟨hsent, rfl⟩
  · exact ⟨hsent, rfl⟩

theorem alike_startNewTask (windows : Windows Rest) (world : PluginWorld Rest) :
    Alike world (startNewTask windows world).2 := by
  have hzcode := alike_onRest (windows.isForeground .zCode) world
  unfold startNewTask
  simp only
  split
  · exact hzcode.trans (alike_onRest _ _)
  · have hhermes := hzcode.trans (alike_onRest (windows.isForeground .hermes) _)
    split
    · exact hhermes.trans (alike_onRest _ _)
    · exact hhermes

theorem alike_applyRender {render : String} {last : PluginController → Option Value}
    {keep : Value → PluginController → PluginController}
    (hkeep : ∀ value controller, (keep value controller).held = controller.held)
    (instanceId : String) (value : Value) (world : PluginWorld Rest) :
    Alike world (applyRender render last keep instanceId value world).2 := by
  unfold applyRender
  split
  · exact .refl world
  next controller hcontroller =>
    split
    · exact .refl world
    · have hsent := alike_send controller
        (.object [("type", .string "render"), ("render", .string render), (render, value)]) world
      simp only
      split
      · exact hsent
      · refine hsent.trans (alike_setController ?_)
        rw [hsent.controllers, hcontroller, Option.map_some, hkeep]

theorem alike_shutdown (instanceId : String) (world : PluginWorld Rest) :
    Alike world (shutdown instanceId world).2 := by
  unfold shutdown
  split
  · exact .refl world
  next controller hcontroller =>
    have htold : Alike world (if (world.channels controller.session).writerClosed then world
        else world.write controller.session (.object [("type", .string "goodbye")])) := by
      split
      · exact .refl world
      · exact alike_write _ _ world
    refine htold.trans (alike_setController ?_)
    rw [htold.controllers, hcontroller]
    rfl

theorem alike_byKind {α : Type} (device : Device) {plugin : String → Call (PluginWorld Rest) α}
    {hardware : Call Rest α} (hplugin : ∀ instanceId, Alike world (plugin instanceId world).2) :
    Alike world (byKind device plugin hardware world).2 := by
  obtain ⟨kind, model, serial⟩ := device
  cases kind with
  | streamDeckPlugin => exact hplugin _
  | ajazz | streamDeckPlus | streamDeckPlusXl | streamDeckXl | none =>
      exact alike_onRest hardware world

/-! ## Polling -/

/-- What the controllers know is what the messages they have taken say: the number of slots is
that of the hello, and the agents are those reported last. -/
structure Informed (greeting : Nat → String × Nat) (world : PluginWorld Rest) : Prop where
  repeats : ∀ session, ∀ line ∈ (world.channels session).lines,
    Repeats (greeting session).2 line
  taken : ∀ session,
    (world.channels session).received ≤ (world.channels session).lines.length
  controllers : ∀ instanceId controller, world.controllers instanceId = some controller →
    (greeting controller.session).1 = instanceId ∧
      controller.taskSlots = min (greeting controller.session).2 maxPluginTaskSlots ∧
      controller.slotAgents = latestAgents controller.taskSlots
        ((world.channels controller.session).lines.take
          (world.channels controller.session).received)

/-- The number of slots that the controller of a plugin holds. -/
def slotsOf (world : PluginWorld Rest) (instanceId : String) : Option Nat :=
  (world.controllers instanceId).map (·.taskSlots)

theorem Alike.slotsOf (h : Alike world after) (instanceId : String) :
    after.slotsOf instanceId = world.slotsOf instanceId := by
  have hheld := congrArg (Option.map fun held : Nat × Nat × ExtTreeMap Nat AgentId => held.2.1)
    (h.controllers instanceId)
  rwa [Option.map_map, Option.map_map] at hheld

theorem Alike.informed {greeting : Nat → String × Nat} (h : Alike world after)
    (hinformed : Informed greeting world) : Informed greeting after where
  repeats session line hline := hinformed.repeats session line (h.lines session ▸ hline)
  taken session := by
    rw [h.lines, h.received]
    exact hinformed.taken session
  controllers instanceId controller hcontroller := by
    have hheld := h.controllers instanceId
    rw [hcontroller, Option.map_some] at hheld
    obtain ⟨before, hbefore, heq⟩ := Option.map_eq_some_iff.mp hheld.symm
    simp only [held, Prod.mk.injEq] at heq
    obtain ⟨hsession, hslots, hagents⟩ := heq
    rw [← hsession, ← hslots, ← hagents, h.lines, h.received]
    exact hinformed.controllers instanceId before hbefore

/-- Handling one message takes it over. -/
theorem handleInbound_spec {greeting : Nat → String × Nat} {controller : PluginController}
    {line : Value} {before : List Value} (hrepeats : Repeats (greeting controller.session).2 line)
    (hslots : controller.taskSlots =
      min (greeting controller.session).2 maxPluginTaskSlots)
    (hagents : controller.slotAgents = latestAgents controller.taskSlots before)
    (world : PluginWorld Rest) :
    Alike world (handleInbound windows line controller world).2.2 ∧
      (handleInbound windows line controller world).2.1.held =
        (controller.session, controller.taskSlots,
          latestAgents controller.taskSlots (before ++ [line])) := by
  have hquiet (h : isCapacity line = false) : controller.held = (controller.session,
      controller.taskSlots, latestAgents controller.taskSlots (before ++ [line])) := by
    rw [latestAgents_concat, reportedAgents, h, ← hagents]
    rfl
  unfold handleInbound
  split
  next hkind =>
    exact ⟨.refl world, hquiet (by rw [isCapacity, hkind]; decide)⟩
  next hkind =>
    have hcapacity : isCapacity line = true := by rw [isCapacity, hkind]; decide
    obtain ⟨hsession, hsame, htaken⟩ :=
      PluginController.takeCapacity_of_repeats hcapacity hrepeats hslots hagents
    exact ⟨.refl world, by rw [held, hsession, hsame, htaken]⟩
  next hkind =>
    have hreplied := alike_reply controller (.object [("type", .string "pong"),
      ("timestamp", (line.get? "timestamp").getD .null)]) world
    exact ⟨hreplied.1, hreplied.2.trans (hquiet (by rw [isCapacity, hkind]; decide))⟩
  next hkind =>
    have hstarted := alike_startNewTask windows world
    have hreplied := alike_reply controller (.object [("type", .string "new-task-result"),
      ("handled", .bool (startNewTask windows world).1)]) (startNewTask windows world).2
    exact ⟨hstarted.trans hreplied.1,
      hreplied.2.trans (hquiet (by rw [isCapacity, hkind]; decide))⟩
  next _ hcapacity _ _ => exact ⟨.refl world, hquiet (beq_eq_false_iff_ne.mpr hcapacity)⟩

/-- Handling the messages that wait takes them all over. -/
theorem receive_spec {greeting : Nat → String × Nat} {controller : PluginController}
    {lines before : List Value}
    (hrepeats : ∀ line ∈ lines, Repeats (greeting controller.session).2 line)
    (hslots : controller.taskSlots =
      min (greeting controller.session).2 maxPluginTaskSlots)
    (hagents : controller.slotAgents = latestAgents controller.taskSlots before)
    (world : PluginWorld Rest) :
    Alike world (receive windows lines controller world).2.2 ∧
      (receive windows lines controller world).2.1.held =
        (controller.session, controller.taskSlots,
          latestAgents controller.taskSlots (before ++ lines)) := by
  induction lines generalizing controller before world with
  | nil =>
      rw [List.append_nil, ← hagents]
      exact ⟨.refl world, rfl⟩
  | cons line lines ih =>
      obtain ⟨hline, hlines⟩ := List.forall_mem_cons.mp hrepeats
      obtain ⟨halike, hheld⟩ := @handleInbound_spec Rest windows greeting controller line before
        hline hslots hagents world
      obtain ⟨hsession, hsame, htaken⟩ : _ ∧ _ ∧ _ := by
        simpa only [held, Prod.mk.injEq] using hheld
      rw [← hsession] at hlines
      obtain ⟨halike', hheld'⟩ := ih hlines (by rw [hsame, hsession, hslots])
        (htaken.trans (by rw [hsame])) (handleInbound windows line controller world).2.2
      refine ⟨halike.trans halike', ?_⟩
      rw [hsession, hsame, List.append_assoc, List.singleton_append] at hheld'
      exact hheld'

/-- A controller that has taken over the lines of its session is put back. -/
theorem informed_setController {greeting : Nat → String × Nat} (h : Informed greeting world)
    {instanceId : String} {controller kept : PluginController} {channel : Channel}
    (hcontroller : world.controllers instanceId = some controller) (halike : Alike world after)
    (hlines : channel.lines = (world.channels controller.session).lines)
    (hreceived : channel.received = channel.lines.length)
    (hkept : kept.held = (controller.session, controller.taskSlots,
      latestAgents controller.taskSlots channel.lines)) :
    Informed greeting ((after.setChannel controller.session channel).setController instanceId
        kept) ∧
      ∀ other, slotsOf ((after.setChannel controller.session channel).setController instanceId
        kept) other = world.slotsOf other := by
  obtain ⟨hgreeted, hslots, -⟩ := h.controllers instanceId controller hcontroller
  obtain ⟨hsession, hsame, htaken⟩ : _ ∧ _ ∧ _ := by
    simpa only [held, Prod.mk.injEq] using hkept
  have hinformed := halike.informed h
  refine ⟨⟨fun session line hline => ?_, fun session => ?_, fun other known hknown => ?_⟩,
    fun other => ?_⟩
  · by_cases hhere : session = controller.session
    · subst hhere
      rw [channels_setController, channels_setChannel_self, hlines] at hline
      exact h.repeats _ line hline
    · rw [channels_setController, channels_setChannel_of_ne hhere] at hline
      exact hinformed.repeats session line hline
  · by_cases hhere : session = controller.session
    · subst hhere
      rw [channels_setController, channels_setChannel_self, hreceived]
    · rw [channels_setController, channels_setChannel_of_ne hhere]
      exact hinformed.taken session
  · by_cases hother : other = instanceId
    · subst hother
      rw [controllers_setController_self] at hknown
      obtain rfl := Option.some.inj hknown
      rw [hsession, hsame, htaken, channels_setController, channels_setChannel_self, hreceived,
        List.take_length]
      exact ⟨hgreeted, hslots, rfl⟩
    · rw [controllers_setController_of_ne hother, controllers_setChannel] at hknown
      have hforeign := hinformed.controllers other known hknown
      -- two plugins have two sessions
      have hne : known.session ≠ controller.session := by
        intro heq
        rw [heq, hgreeted] at hforeign
        exact hother hforeign.1.symm
      rw [channels_setController, channels_setChannel_of_ne hne]
      exact hforeign
  · by_cases hother : other = instanceId
    · subst hother
      rw [slotsOf, slotsOf, controllers_setController_self, hcontroller, Option.map_some,
        Option.map_some, hsame]
    · rw [← halike.slotsOf other, slotsOf, slotsOf, controllers_setController_of_ne hother,
        controllers_setChannel]

/-- A poll takes everything that has come. -/
theorem informed_poll {greeting : Nat → String × Nat} (h : Informed greeting world)
    (instanceId : String) :
    Informed greeting (poll windows instanceId world).2 ∧
      ∀ other, (poll windows instanceId world).2.slotsOf other = world.slotsOf other := by
  unfold poll
  split
  · exact ⟨h, fun _ => rfl⟩
  next controller hcontroller =>
    obtain ⟨-, hslots, hagents⟩ := h.controllers instanceId controller hcontroller
    obtain ⟨halike, hheld⟩ := @receive_spec Rest windows greeting controller
      ((world.channels controller.session).lines.drop (world.channels controller.session).received)
      _ (fun line hline => h.repeats _ line (List.mem_of_mem_drop hline)) hslots hagents world
    rw [List.take_append_drop] at hheld
    simp only
    split
    · exact informed_setController h hcontroller halike (halike.lines _)
        (by rw [halike.lines]) (by rw [halike.lines]; exact hheld)
    · exact informed_setController h hcontroller halike (halike.lines _)
        (by rw [halike.lines]) (by rw [halike.lines]; exact hheld)

/-- A call keeps what the controllers know and their numbers of slots. -/
theorem informed_worldStep {greeting : Nat → String × Nat} (h : Informed greeting world)
    (hstep : WorldStep (host windows).toOutside world after) :
    Informed greeting after ∧
      ∀ instanceId, after.slotsOf instanceId = world.slotsOf instanceId := by
  have hquiet {after : PluginWorld Rest} (halike : Alike world after) :
      Informed greeting after ∧
        ∀ instanceId, after.slotsOf instanceId = world.slotsOf instanceId :=
    ⟨halike.informed h, halike.slotsOf⟩
  cases hstep with
  | poll device =>
      obtain ⟨kind, model, serial⟩ := device
      cases kind with
      | streamDeckPlugin => exact informed_poll h _
      | ajazz | streamDeckPlus | streamDeckPlusXl | streamDeckXl | none =>
          exact hquiet (alike_onRest _ world)
  | applyTaskCards device cards =>
      refine hquiet (alike_byKind device fun instanceId => ?_)
      unfold applyTaskCards
      refine alike_applyRender ?_ instanceId _ world
      exact fun _ _ => rfl
  | applyThreadStatus device status =>
      refine hquiet (alike_byKind device fun instanceId => ?_)
      unfold applyThreadStatus
      refine alike_applyRender ?_ instanceId _ world
      exact fun _ _ => rfl
  | applyDisplayContext device context =>
      refine hquiet (alike_byKind device fun instanceId => ?_)
      unfold applyDisplayContext
      refine alike_applyRender ?_ instanceId _ world
      exact fun _ _ => rfl
  | applyRgbConfig device config =>
      refine hquiet (alike_byKind device fun instanceId => ?_)
      unfold applyRgbConfig
      refine alike_applyRender ?_ instanceId _ world
      exact fun _ _ => rfl
  | shutdown device => exact hquiet (alike_byKind device fun _ => alike_shutdown _ world)
  | systemTime | instant | writeFrame | isForeground | minimize | showAndFocus
  | microphoneActive | setMicrophone | requestSessionSelection | searchTasks | toggleTerminal
  | cycleModel | readCodexConfig | readLatestCodexSessionCwd | fetchUsage =>
      exact hquiet (alike_onRest _ world)

/-! ## Arrivals -/

/-- Lines have come for some sessions, and nothing else has happened to the controllers. -/
structure Arrives (greeting : Nat → String × Nat) (world after : PluginWorld Rest) : Prop where
  controllers : after.controllers = world.controllers
  lines : ∀ session, ∃ more,
    (after.channels session).lines = (world.channels session).lines ++ more ∧
      ∀ line ∈ more, Repeats (greeting session).2 line
  received : ∀ session, (after.channels session).received = (world.channels session).received

theorem Arrives.of_alike {greeting : Nat → String × Nat} (halike : Alike world after)
    (hcontrollers : after.controllers = world.controllers) : Arrives greeting world after where
  controllers := hcontrollers
  lines session := ⟨[], by rw [halike.lines, List.append_nil], fun _ hline => nomatch hline⟩
  received := halike.received

theorem Arrives.slotsOf {greeting : Nat → String × Nat} (h : Arrives greeting world after)
    (instanceId : String) : after.slotsOf instanceId = world.slotsOf instanceId := by
  rw [PluginWorld.slotsOf, h.controllers, PluginWorld.slotsOf]

theorem Arrives.informed {greeting : Nat → String × Nat} (h : Arrives greeting world after)
    (hinformed : Informed greeting world) : Informed greeting after where
  repeats session line hline := by
    obtain ⟨more, hlines, hmore⟩ := h.lines session
    rw [hlines] at hline
    rcases List.mem_append.mp hline with hold | hnew
    · exact hinformed.repeats session line hold
    · exact hmore line hnew
  taken session := by
    obtain ⟨more, hlines, -⟩ := h.lines session
    have htaken := hinformed.taken session
    rw [hlines, h.received, List.length_append]
    omega
  controllers instanceId controller hcontroller := by
    obtain ⟨more, hlines, -⟩ := h.lines controller.session
    rw [h.controllers] at hcontroller
    have hheld := hinformed.controllers instanceId controller hcontroller
    rw [hlines, h.received, List.take_append_of_le_length (hinformed.taken controller.session)]
    exact hheld

/-- A hello makes a controller that has received nothing yet. -/
theorem informed_attach {greeting : Nat → String × Nat} (h : Informed greeting world)
    {session : Nat} {instanceId : String} {slots : Nat}
    (hinstance : (greeting session).1 = instanceId)
    (hslots : slots = min (greeting session).2 maxPluginTaskSlots) :
    Informed greeting (attach session instanceId slots world) ∧
      (attach session instanceId slots world).slotsOf instanceId = some slots ∧
      ∀ other, other ≠ instanceId →
        (attach session instanceId slots world).slotsOf other = world.slotsOf other := by
  have hcapped : min slots maxPluginTaskSlots = slots := by omega
  unfold attach
  refine ⟨⟨fun other line hline => ?_, fun other => ?_, fun other known hknown => ?_⟩, ?_,
    fun other hother => ?_⟩
  · by_cases hhere : other = session
    · subst hhere
      rw [channels_setController, channels_setChannel_self] at hline
      exact h.repeats _ line hline
    · rw [channels_setController, channels_setChannel_of_ne hhere] at hline
      exact h.repeats other line hline
  · by_cases hhere : other = session
    · subst hhere
      rw [channels_setController, channels_setChannel_self]
      exact Nat.zero_le _
    · rw [channels_setController, channels_setChannel_of_ne hhere]
      exact h.taken other
  · by_cases hother : other = instanceId
    · subst hother
      rw [controllers_setController_self] at hknown
      obtain rfl := Option.some.inj hknown
      rw [channels_setController, PluginController.new, channels_setChannel_self, hcapped]
      exact ⟨hinstance, hslots, rfl⟩
    · rw [controllers_setController_of_ne hother, controllers_setChannel] at hknown
      have hforeign := h.controllers other known hknown
      have hne : known.session ≠ session := by
        intro heq
        rw [heq, hinstance] at hforeign
        exact hother hforeign.1.symm
      rw [channels_setController, channels_setChannel_of_ne hne]
      exact hforeign
  · rw [slotsOf, controllers_setController_self, Option.map_some, PluginController.new, hcapped]
  · rw [slotsOf, controllers_setController_of_ne hother, controllers_setChannel, slotsOf]

/-- Before the first session nothing is known. -/
theorem informed_initial (greeting : Nat → String × Nat) (rest : Rest) :
    Informed greeting ⟨fun _ => .empty, fun _ => none, rest⟩ where
  repeats _ _ hline := nomatch hline
  taken _ := le_rfl
  controllers _ _ hcontroller := nomatch hcontroller

end PluginWorld

end Daemon
end MicroEmu
