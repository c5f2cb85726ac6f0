import MicroEmu.Firmware.Loop

/-!
# What passes through the queues

Every part of a turn is a run of pushes and flushes.  What they bring into the two queues
and take out of them adds up along a run: so what has been written to the bridge and what
still waits are the frames that were accepted, numbered one after another.
-/

namespace MicroEmu
namespace Firmware

open Library (Block Fifo)

/-! ## Operations of a run -/

theorem State.performAll_append (state : State) (first second : List Op) :
    state.performAll (first ++ second) = (state.performAll first).bind fun front =>
      (front.2.performAll second).map fun last => (front.1 ++ last.1, last.2) := by
  induction first generalizing state with
  | nil => cases hsecond : state.performAll second <;> simp [State.performAll, hsecond]
  | cons op first ih =>
      rw [List.cons_append, State.performAll, State.performAll]
      cases hop : state.perform op with
      | none => rfl
      | some next =>
          simp only [Option.bind_eq_bind, Option.bind_some, ih]
          cases hfront : next.2.performAll first with
          | none => rfl
          | some front =>
              simp only [Option.bind_some]
              cases hlast : front.2.performAll second <;> rfl

/-- A push of a frame that is not one of the log, and is of a type that the bridge knows. -/
def Op.Known : Op → Prop
  | .bridgeTxPush type _ => type = bridgeFrameCodexOutputReport ∨ type = bridgeFrameStatus
  | _ => True

/-- The frames that steps bring into their queue, those of the log apart, and the bytes that
they write. -/
structure Traffic where
  frames : List (UInt8 × List UInt8)
  bytes : List (List UInt8)

namespace Traffic

def none : Traffic := ⟨[], []⟩

def append (first second : Traffic) : Traffic :=
  ⟨first.frames ++ second.frames, first.bytes ++ second.bytes⟩

/-- The traffic of operations with their outcomes. -/
def ofSteps (steps : List (Op × Outcome)) : Traffic :=
  ⟨pushedFrames steps, steps.filterMap (·.2.bytes)⟩

theorem ofSteps_append (first second : List (Op × Outcome)) :
    ofSteps (first ++ second) = (ofSteps first).append (ofSteps second) := by
  simp only [ofSteps, append, pushedFrames, List.filterMap_append]

theorem append_none (traffic : Traffic) : traffic.append none = traffic := by
  simp only [append, none, List.append_nil]

end Traffic

/-- From one state operations with this traffic lead to another. -/
def Acts (before : State) (traffic : Traffic) (after : State) : Prop :=
  ∃ steps, before.performAll (steps.map Prod.fst) = some (steps.map Prod.snd, after) ∧
    (∀ step ∈ steps, Op.Known step.1) ∧ Traffic.ofSteps steps = traffic

namespace Acts

variable {before middle after : State} {traffic later : Traffic}

theorem refl (state : State) : Acts state .none state :=
  ⟨[], rfl, fun _ h => absurd h List.not_mem_nil, rfl⟩

theorem trans (h : Acts before traffic middle) (h' : Acts middle later after) :
    Acts before (traffic.append later) after := by
  obtain ⟨steps, hrun, hknown, rfl⟩ := h
  obtain ⟨steps', hrun', hknown', rfl⟩ := h'
  refine ⟨steps ++ steps', ?_, ?_, Traffic.ofSteps_append steps steps'⟩
  · rw [List.map_append, State.performAll_append, hrun, Option.bind_some, hrun', Option.map_some,
      List.map_append]
  · intro step hstep
    exact (List.mem_append.mp hstep).elim (hknown step) (hknown' step)

/-- Behind something that leaves no trace. -/
theorem behind (h' : Acts middle traffic after) (h : Acts before .none middle) :
    Acts before traffic after := h.trans h'

/-- Before something that leaves no trace. -/
theorem ahead (h : Acts before traffic middle) (h' : Acts middle .none after) :
    Acts before traffic after := by
  have hacts := h.trans h'
  rwa [Traffic.append_none] at hacts

/-- One operation. -/
theorem of_perform (op : Op) (outcome : Outcome)
    (h : before.perform op = some (outcome, after)) (hknown : op.Known) :
    Acts before (.ofSteps [(op, outcome)]) after := by
  refine ⟨[(op, outcome)], ?_, ?_, rfl⟩
  · show (do let first ← before.perform op
             let last ← first.2.performAll []
             some (first.1 :: last.1, last.2)) = _
    rw [h]
    rfl
  · intro step hstep
    obtain rfl := List.mem_singleton.mp hstep
    exact hknown

/-! ## The operations -/

theorem bridgeLog {text : String} (h : Firmware.bridgeLog before text = some after) :
    Acts before .none after :=
  of_perform (.bridgeLog text) {} (by rw [State.perform, h]; rfl) trivial

theorem bridgeTxPush {type : UInt8} {payload : List UInt8} {pushed : Bool}
    (hknown : type = bridgeFrameCodexOutputReport ∨ type = bridgeFrameStatus)
    (h : Firmware.bridgeTxPush before type payload = some (pushed, after)) :
    Acts before ⟨if pushed then [(type, payload)] else [], []⟩ after := by
  have hacts := of_perform (.bridgeTxPush type payload) { pushed := some pushed }
    (by rw [State.perform, h]; rfl) hknown
  cases pushed <;> exact hacts

theorem reportQueuePush {report : Report} {pushed : Bool} {queue : ReportQueue}
    (h : Firmware.reportQueuePush before.inputReports report = some (pushed, queue)) :
    Acts before .none { before with inputReports := queue } :=
  of_perform (.reportQueuePush report) { pushed := some pushed }
    (by rw [State.perform, h]; rfl) trivial

theorem bridgeTxFlush {connected : Bool} {available : Nat} {written : Option (List UInt8)}
    (h : Firmware.bridgeTxFlush before connected available = some (written, after)) :
    Acts before ⟨[], written.toList⟩ after := by
  have hacts := of_perform (.bridgeTxFlush connected available)
    { bytes := written } (by rw [State.perform, h]; rfl) trivial
  cases written <;> exact hacts

theorem hidInputFlush {ready accepted : Bool} {sent : Option (List UInt8)}
    (h : Firmware.hidInputFlush before ready accepted = some (sent, after)) :
    Acts before .none after :=
  of_perform (.hidInputFlush ready accepted) { report := sent }
    (by rw [State.perform, h]; rfl) trivial

end Acts

/-! ## The ledger -/

/-- What frames say, those of the log apart. -/
def spoken (contents : List FrameContent) : List (UInt8 × List UInt8) :=
  (contents.filter fun content => content.type != bridgeFrameLog).map
    fun content => (content.type, content.payload)

theorem spoken_append (first second : List FrameContent) :
    spoken (first ++ second) = spoken first ++ spoken second := by
  rw [spoken, List.filter_append, List.map_append]
  rfl

/-- The frames of the log. -/
def logs (contents : List FrameContent) : List FrameContent :=
  contents.filter fun content => content.type == bridgeFrameLog

theorem length_logs_add_spoken (contents : List FrameContent) :
    (logs contents).length + (spoken contents).length = contents.length := by
  rw [spoken, List.length_map, logs]
  exact (List.length_eq_length_filter_add _).symm

/-- The most frames of the log that wait at a time: a line is logged only where four places
are left. -/
def maxLogs : Nat := bridgeTxQueueCapacity - 3

/-- A content that the bridge can be sent: its type is known, and it fits a frame. -/
def FrameContent.Known (content : FrameContent) : Prop :=
  (content.type = bridgeFrameCodexOutputReport ∨ content.type = bridgeFrameStatus ∨
    content.type = bridgeFrameLog) ∧ content.payload.length ≤ bridgeMaxPayload

namespace Queues

theorem pushFrame_cases (queues : Queues) (type : UInt8) (payload : List UInt8) :
    (queues.pushFrame type payload = (false, queues) ∧
        (bridgeMaxPayload < payload.length ∨
          queues.frames.items.length = bridgeTxQueueCapacity)) ∨
      ((queues.pushFrame type payload).1 = true ∧ payload.length ≤ bridgeMaxPayload ∧
        (queues.pushFrame type payload).2.frames.items =
          queues.frames.items ++ [⟨type, queues.nextSequence, payload⟩] ∧
        (queues.pushFrame type payload).2.frames.gone = queues.frames.gone) := by
  rw [pushFrame]
  by_cases hlong : bridgeMaxPayload < payload.length
  · exact .inl ⟨if_pos hlong, .inl hlong⟩
  · rw [if_neg hlong]
    rcases Nat.lt_or_eq_of_le queues.frames.bounded with hroom | hfull
    · obtain ⟨htaken, hitems, hgone⟩ := Fifo.push_of_lt hroom
        (⟨type, queues.nextSequence, payload⟩ : FrameContent)
      exact .inr ⟨htaken, Nat.not_lt.mp hlong, hitems, hgone⟩
    · refine .inl ⟨?_, .inr hfull⟩
      rw [Fifo.push_of_full hfull]
      rfl

/-- What one operation brings, and that the log leaves room. -/
structure Records (frames : List (UInt8 × List UInt8)) (before after : Queues) : Prop where
  spoken : spoken after.frames.accepted = Firmware.spoken before.frames.accepted ++ frames
  known : (∀ content ∈ before.frames.accepted, content.Known) →
    ∀ content ∈ after.frames.accepted, content.Known
  spare : (logs before.frames.items).length ≤ maxLogs →
    (logs after.frames.items).length ≤ maxLogs

namespace Records

variable {frames later : List (UInt8 × List UInt8)} {before middle after : Queues}

theorem refl (queues : Queues) : Records [] queues queues :=
  ⟨(List.append_nil _).symm, id, id⟩

theorem trans (h : Records frames before middle) (h' : Records later middle after) :
    Records (frames ++ later) before after where
  spoken := by rw [h'.spoken, h.spoken, List.append_assoc]
  known := fun hall => h'.known (h.known hall)
  spare := fun hspare => h'.spare (h.spare hspare)

/-- The FIFO of the frames is left as it was. -/
theorem of_frames_eq (h : after.frames = before.frames) : Records [] before after := by
  refine ⟨?_, ?_, ?_⟩
  · rw [h, List.append_nil]
  · rw [h]
    exact id
  · rw [h]
    exact id

/-- A frame leaves. -/
theorem of_pop (h : after.frames = before.frames.pop) : Records [] before after := by
  refine ⟨?_, ?_, ?_⟩
  · rw [h, Fifo.accepted_pop, List.append_nil]
  · rw [h, Fifo.accepted_pop]
    exact id
  · rw [h]
    refine (Nat.le_trans · ·) (List.Sublist.length_le ?_)
    exact (List.tail_sublist _).filter _

/-- A frame comes. -/
theorem of_item {content : FrameContent} (hitems : after.frames.items =
      before.frames.items ++ [content]) (hgone : after.frames.gone = before.frames.gone)
    (hknown : content.Known) (hspare : content.type = bridgeFrameLog →
      before.frames.items.length < maxLogs) :
    Records (Firmware.spoken [content]) before after := by
  have haccepted : after.frames.accepted = before.frames.accepted ++ [content] := by
    rw [Fifo.accepted, hitems, hgone, Fifo.accepted, List.append_assoc]
  refine ⟨?_, ?_, ?_⟩
  · rw [haccepted, spoken_append]
  · intro hall other hother
    rw [haccepted] at hother
    rcases List.mem_append.mp hother with hother | hother
    · exact hall other hother
    · rwa [List.mem_singleton.mp hother]
  · intro hlogs
    rw [hitems, logs, List.filter_append, List.length_append]
    by_cases hlog : content.type = bridgeFrameLog
    · have hroom := hspare hlog
      have hfewer : (logs before.frames.items).length ≤ before.frames.items.length :=
        List.length_filter_le ..
      have hone : ([content].filter fun content => content.type == bridgeFrameLog).length ≤ 1 :=
        List.length_filter_le ..
      rw [logs] at hfewer
      omega
    · have hnone : [content].filter (fun content => content.type == bridgeFrameLog) = [] :=
        List.filter_cons_of_neg (by simpa using hlog)
      rw [hnone]
      exact hlogs

end Records

theorem records_log (queues : Queues) (text : String) :
    Records [] queues (queues.log text) := by
  rw [Queues.log]
  split
  · exact .refl queues
  next hroom =>
    obtain ⟨hfew, -⟩ := not_or.mp hroom
    rcases pushFrame_cases queues bridgeFrameLog
      ((textBytes text).take (bridgeMaxPayload - 1)) with ⟨hrefused, -⟩ |
      ⟨-, hshort, hitems, hgone⟩
    · rw [hrefused]
      exact .refl queues
    · refine .of_item hitems hgone ⟨.inr (.inr rfl), hshort⟩ fun _ => ?_
      exact Nat.lt_succ_of_le (Nat.not_lt.mp hfew)

/-- The step lemma. -/
theorem records_perform (queues : Queues) {op : Op} (hknown : op.Known) :
    Records (pushedFrames [(op, (queues.perform op).1)]) queues (queues.perform op).2 := by
  cases op with
  | reportQueuePush report => exact .of_frames_eq rfl
  | reportQueuePop => exact .of_frames_eq rfl
  | bridgeTxPush type payload =>
      rcases pushFrame_cases queues type payload with ⟨hrefused, -⟩ |
        ⟨htaken, hshort, hitems, hgone⟩
      · have hperform : queues.perform (.bridgeTxPush type payload) =
            ({ pushed := some false }, queues) := by
          simp only [Queues.perform, hrefused]
        rw [hperform]
        exact .refl queues
      · have hother : type ≠ bridgeFrameLog := by
          rcases hknown with rfl | rfl <;> decide
        have hframes : pushedFrames [(Op.bridgeTxPush type payload,
            (queues.perform (.bridgeTxPush type payload)).1)] =
            spoken [⟨type, queues.nextSequence, payload⟩] := by
          simp [pushedFrames, Queues.perform, htaken, spoken, hother]
        rw [hframes]
        exact .of_item hitems hgone ⟨hknown.imp_right .inl, hshort⟩ fun hlog => absurd hlog hother
  | bridgeLog text => exact records_log queues text
  | bridgeTxFlush connected available =>
      show Records [] queues _
      simp only [Queues.perform]
      split
      · exact .refl queues
      · split
        · exact .of_pop rfl
        · exact .refl queues
  | hidInputFlush ready accepted =>
      show Records [] queues _
      simp only [Queues.perform]
      split
      · exact .refl queues
      · split
        · exact (records_log queues _).trans (.of_frames_eq rfl)
        · exact .refl queues

/-- The run lemma. -/
theorem records_performAll (queues : Queues) {ops : List Op} (hknown : ∀ op ∈ ops, op.Known) :
    Records (pushedFrames (ops.zip (queues.performAll ops).1)) queues
      (queues.performAll ops).2 := by
  induction ops generalizing queues with
  | nil => exact .refl queues
  | cons op ops ih =>
      have hfirst := records_perform queues (hknown op (List.mem_cons_self ..))
      have hrest := ih (queues.perform op).2 fun other h =>
        hknown other (List.mem_cons_of_mem _ h)
      have hall := hfirst.trans hrest
      rw [pushedFrames, pushedFrames, ← List.filterMap_append] at hall
      exact hall

end Queues

/-- What a run of the queues with a traffic comes to. -/
structure Ledger (before : Queues) (traffic : Traffic) (after : Queues) : Prop where
  numbered : ∃ numbered, after.frames.accepted =
      before.frames.accepted ++ number before.nextSequence numbered ∧
    after.nextSequence = before.nextSequence + UInt16.ofNat numbered.length
  written : ∃ sent, after.frames.gone = before.frames.gone ++ sent ∧
    traffic.bytes = sent.map FrameContent.encoded
  records : Queues.Records traffic.frames before after

/-- Whatever acts on a state acts on its FIFOs. -/
theorem Acts.exists_ledger {before after : State} {traffic : Traffic}
    (h : Acts before traffic after) (hfits : before.Fits) {queues : Queues}
    (hdescribes : queues.Describes before) :
    ∃ last : Queues, last.Describes after ∧ after.Fits ∧ Ledger queues traffic last := by
  obtain ⟨steps, hrun, hknown, rfl⟩ := h
  obtain ⟨final, hfinal, hlast, hends⟩ :=
    hdescribes.exists_performAll hfits (steps.map Prod.fst)
  rw [hrun] at hfinal
  obtain ⟨houtcomes, rfl⟩ := Prod.mk.inj (Option.some.inj hfinal)
  have hadvances := Queues.Advances.performAll queues (steps.map Prod.fst)
  have hrecords := @Queues.records_performAll queues (steps.map Prod.fst) (by
    intro op hop
    obtain ⟨step, hstep, rfl⟩ := List.mem_map.mp hop
    exact hknown step hstep)
  have hsteps : (steps.map Prod.fst).zip (steps.map Prod.snd) = steps :=
    (List.zip_of_prod rfl rfl).symm
  rw [← houtcomes, hsteps] at hadvances hrecords
  obtain ⟨numbered, haccepted, hnext, -⟩ := hadvances.frames
  exact ⟨_, hends, hlast, ⟨numbered, haccepted, hnext⟩, hadvances.written, hrecords⟩

end Firmware
end MicroEmu
