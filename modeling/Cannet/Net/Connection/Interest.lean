import Cannet.Foundations.Registration
import Cannet.Net.Connection.Lifecycle

/-!
# The interests of a connection

A live connection is interested in reading unless it has been paused, and in writing while it has
output to wait for: the mask of its channel is one of four (`interests`). `Tuned` says that the
mask is the one the connection needs, that the kernel has it registered, with no registration for
the empty mask, that the status of the channel agrees, and that no call made so far was refused.
Every change of interest keeps it, provided something changes: with an empty mask before and after,
`updateChannel` would add the descriptor.
-/

namespace Cannet.Net

open Foundations

variable {β : Type}

/-- The mask for an interest in reading and in writing. -/
def interests (reading writing : Bool) : BitVec 32 :=
  (if reading then kReadEventLT else kNoneEvent) ||| (if writing then kWriteEvent else kNoneEvent)

section Masks

variable (reading writing : Bool)

theorem interests_enable_read :
    interests reading writing ||| kReadEventLT = interests true writing := by
  revert reading writing
  decide

theorem interests_disable_read :
    interests reading writing &&& ~~~kReadEventLT = interests false writing := by
  revert reading writing
  decide

theorem interests_enable_write :
    interests reading writing ||| kWriteEvent = interests reading true := by
  revert reading writing
  decide

theorem interests_disable_write :
    interests reading writing &&& ~~~kWriteEvent = interests reading false := by
  revert reading writing
  decide

theorem interests_eq_none_iff :
    interests reading writing = kNoneEvent ↔ reading = false ∧ writing = false := by
  revert reading writing
  decide

theorem interests_none :
    decide (interests reading writing = kNoneEvent) = (!reading && !writing) := by
  revert reading writing
  decide

theorem interests_read : decide (interests reading writing &&& kReadEventLT ≠ 0) = reading := by
  revert reading writing
  decide

theorem interests_and_read : interests reading writing &&& kReadEventLT =
    if reading then kReadEventLT else kNoneEvent := by
  revert reading writing
  decide

theorem interests_write : decide (interests reading writing &&& kWriteEvent ≠ 0) = writing := by
  revert reading writing
  decide

end Masks

/-! ## What reaches the kernel -/

/-- The call on a descriptor. -/
def EpollOp.ctl (events : BitVec 32) : EpollOp → Ctl (BitVec 32)
  | .add => .add events
  | .mod => .mod events
  | .del => .del

/-- A descriptor with a call on it. -/
abbrev FdCtl := ℤ × Ctl (BitVec 32)

/-- What an effect does to a descriptor. -/
def Effect.ctl : Effect β → List FdCtl
  | .epollCtl op fd events => [(fd, op.ctl events)]
  | .close fd => [(fd, .close)]
  | _ => []

def ctls (es : List (Effect β)) : List FdCtl := es.flatMap Effect.ctl

@[simp] theorem ctls_nil : ctls ([] : List (Effect β)) = [] := rfl

@[simp] theorem ctls_cons (e : Effect β) (es : List (Effect β)) :
    ctls (e :: es) = e.ctl ++ ctls es := List.flatMap_cons

@[simp] theorem ctls_append (es es' : List (Effect β)) :
    ctls (es ++ es') = ctls es ++ ctls es' := List.flatMap_append

namespace Channel

/-- The mask a channel should be registered with. -/
def interest (ch : Channel) : Option (BitVec 32) :=
  if ch.isNoneEvent then none else some ch.events

/-- The kernel has the channel's descriptor registered as the channel says. -/
structure Registered (d : Descriptor (BitVec 32)) (ch : Channel) : Prop where
  opened : d.opened = true
  mask : d.mask = ch.interest
  status : ch.status = if ch.isNoneEvent then .kDeleted else .kAdded

theorem Registered.isSome_iff {d : Descriptor (BitVec 32)} {ch : Channel} (h : Registered d ch) :
    d.mask.isSome = true ↔ ch.status = .kAdded := by
  rw [h.mask, h.status, interest]
  cases ch.isNoneEvent <;> simp

/-- **An update of a channel** is accepted and leaves the channel registered, when its status says
whether it is registered and there is something to update. -/
theorem registered_update {d : Descriptor (BitVec 32)} (ch : Channel) (hopen : d.opened = true)
    (hstatus : d.mask.isSome = true ↔ ch.status = .kAdded)
    (hsome : ch.status = .kAdded ∨ ch.isNoneEvent = false) :
    d.Accepts (ch.nextOp.ctl ch.events) ∧
      Registered (d.apply (ch.nextOp.ctl ch.events)) ch.updated := by
  have hnext : ch.nextStatus = if ch.isNoneEvent then .kDeleted else .kAdded := by
    rw [nextStatus]
    rcases hsome with hs | hne
    · simp [hs]
    · simp [hne]
  have hsync : Descriptor.sync d.mask ch.interest = some (ch.nextOp.ctl ch.events) := by
    rw [nextOp, interest]
    by_cases hs : ch.status = .kAdded
    · obtain ⟨old, hold⟩ := Option.isSome_iff_exists.1 (hstatus.2 hs)
      rw [hold, if_pos hs]
      cases ch.isNoneEvent <;> rfl
    · have hnone : d.mask = none := by
        rw [← Option.not_isSome_iff_eq_none]
        exact fun h => hs (hstatus.1 h)
      have hne : ch.isNoneEvent = false := hsome.resolve_left hs
      rw [hnone, if_neg hs, hne]
      rfl
  obtain ⟨haccepts, happly⟩ := Descriptor.accepts_sync hopen hsync
  rw [happly]
  exact ⟨haccepts, hopen, rfl, hnext⟩

end Channel

/-! ## The reads -/

namespace Channel

/-- The channel with read interest on. -/
def readingOn (ch : Channel) : Channel := updated { ch with events := ch.events ||| kReadEventLT }

/-- The channel with read interest off. -/
def readingOff (ch : Channel) : Channel :=
  updated { ch with events := ch.events &&& ~~~kReadEventLT }

@[simp] theorem isWriting_readingOn (ch : Channel) : ch.readingOn.isWriting = ch.isWriting :=
  isWriting_enable_read ch

@[simp] theorem isWriting_readingOff (ch : Channel) : ch.readingOff.isWriting = ch.isWriting :=
  isWriting_disable_read ch

def readingOnCalls (ch : Channel) : List (Effect β) :=
  [updateCall { ch with events := ch.events ||| kReadEventLT }]

def readingOffCalls (ch : Channel) : List (Effect β) :=
  [updateCall { ch with events := ch.events &&& ~~~kReadEventLT }]

end Channel

namespace TcpConnection

theorem startReadInLoop_apply (c : TcpConnection β) :
    startReadInLoop c =
      if c.reading = false ∨ c.channel.isReading = false then
        ⟨.ok (), { c with channel := c.channel.readingOn, reading := true },
          c.channel.readingOnCalls⟩
      else ⟨.ok (), c, []⟩ := by
  rw [startReadInLoop, Act.get_bind, Act.ite_apply]
  simp only [Bool.not_eq_true]
  split
  · rw [Act.bind_ok (onChannel_apply (by rw [Channel.enableEvents_apply, Channel.update_apply]))]
    rfl
  · rfl

theorem stopReadInLoop_apply (c : TcpConnection β) :
    stopReadInLoop c =
      if c.reading = true ∨ c.channel.isReading = true then
        ⟨.ok (), { c with channel := c.channel.readingOff, reading := false },
          c.channel.readingOffCalls⟩
      else ⟨.ok (), c, []⟩ := by
  rw [stopReadInLoop, Act.get_bind, Act.ite_apply]
  split
  · rw [Act.bind_ok (onChannel_apply (by rw [Channel.disableEvents_apply, Channel.update_apply]))]
    rfl
  · rfl

end TcpConnection

/-! ## A channel that is tuned to its connection -/

open Channel

/-- The channel has the interests that it needs, after the calls `cs`, all of them on its
descriptor. -/
structure Tuned (cs : List FdCtl) (reading : Bool) (ch : Channel) : Prop where
  own : ∀ x ∈ cs, x.1 = ch.fd
  events : ch.events = interests reading ch.isWriting
  accepted : Descriptor.fresh.Accepted (cs.map Prod.snd)
  registered : ch.Registered (Descriptor.fresh.run (cs.map Prod.snd))

namespace Tuned

variable {cs : List FdCtl} {reading : Bool} {ch : Channel}

theorem isReading_eq (h : Tuned cs reading ch) : ch.isReading = reading := by
  rw [isReading, h.events, interests_read]

theorem isNoneEvent_eq (h : Tuned cs reading ch) :
    ch.isNoneEvent = (!reading && !ch.isWriting) := by
  rw [isNoneEvent, h.events, interests_none]

/-- A channel that is registered for the first time. -/
theorem first (fd : ℤ) :
    Tuned (ctls ((init fd).readingOnCalls : List (Effect β))) true (init fd).readingOn := by
  have hne : (0 : BitVec 32) ||| kReadEventLT ≠ kNoneEvent := by decide
  have hmask : (0 : BitVec 32) ||| kReadEventLT =
      interests true (((0 : BitVec 32) ||| kReadEventLT) &&& kWriteEvent ≠ 0) := by decide
  obtain ⟨haccepts, hregistered⟩ :=
    registered_update (d := Descriptor.fresh)
      { init fd with events := (init fd).events ||| kReadEventLT } rfl
      (iff_of_false Bool.false_ne_true (by simp [init])) (.inr (decide_eq_false hne))
  refine ⟨?_, hmask, .singleton haccepts, ?_⟩
  · rintro x hx
    rw [List.mem_singleton.1 hx]
    rfl
  · have hrun := Descriptor.run_singleton haccepts
    rw [← hrun] at hregistered
    exact hregistered

/-- **A change of interest** keeps the channel tuned, unless the mask is and stays empty. -/
theorem update (h : Tuned cs reading ch) {reading' writing' : Bool} {events : BitVec 32}
    (hevents : events = interests reading' writing')
    (hsome : ch.isNoneEvent = false ∨ events ≠ kNoneEvent) :
    Tuned (cs ++ ctls [(updateCall { ch with events := events } : Effect β)]) reading'
      (updated { ch with events := events }) := by
  have hstatus : ch.status = .kAdded ∨ isNoneEvent { ch with events := events } = false := by
    rcases hsome with hne | hne
    · refine .inl ?_
      rw [h.registered.status, hne]
      rfl
    · exact .inr (decide_eq_false hne)
  obtain ⟨haccepts, hregistered⟩ := registered_update { ch with events := events }
    h.registered.opened h.registered.isSome_iff hstatus
  have hwriting : isWriting { ch with events := events } = writing' := by
    rw [isWriting]
    simp only
    rw [hevents, interests_write]
  have hcalls : (cs ++ ctls [(updateCall { ch with events := events } : Effect β)]).map Prod.snd =
      cs.map Prod.snd ++ [(nextOp { ch with events := events }).ctl events] := by
    rw [List.map_append]
    rfl
  refine ⟨?_, ?_, ?_, ?_⟩
  · intro x hx
    rcases List.mem_append.1 hx with hx | hx
    · exact h.own x hx
    · rw [List.mem_singleton.1 hx]
      rfl
  · rw [isWriting_updated, hwriting]
    exact hevents
  · rw [hcalls]
    exact h.accepted.snoc haccepts
  · rw [hcalls, Descriptor.run_append, Descriptor.run_singleton haccepts]
    exact hregistered

theorem writingOn (h : Tuned cs reading ch) :
    Tuned (cs ++ ctls (ch.writingOnCalls : List (Effect β))) reading ch.writingOn := by
  unfold Channel.writingOn writingOnCalls
  split
  · rw [ctls_nil, List.append_nil]
    exact h
  · have hevents : ch.events ||| kWriteEvent = interests reading true := by
      rw [h.events, interests_enable_write]
    refine h.update hevents (.inr fun hnone => ?_)
    rw [hevents, interests_eq_none_iff] at hnone
    cases hnone.2

theorem writingOff (h : Tuned cs reading ch) (hon : ch.isWriting = true) :
    Tuned (cs ++ ctls (ch.writingOffCalls : List (Effect β))) reading ch.writingOff := by
  have hevents : ch.events &&& ~~~kWriteEvent = interests reading false := by
    rw [h.events, interests_disable_write]
  refine h.update hevents (.inl ?_)
  rw [h.isNoneEvent_eq, hon]
  simp

theorem readingOn (h : Tuned cs reading ch) :
    Tuned (cs ++ ctls (ch.readingOnCalls : List (Effect β))) true ch.readingOn := by
  have hevents : ch.events ||| kReadEventLT = interests true ch.isWriting := by
    rw [h.events, interests_enable_read]
  refine h.update hevents (.inr fun hnone => ?_)
  rw [hevents, interests_eq_none_iff] at hnone
  cases hnone.1

theorem readingOff (h : Tuned cs true ch) :
    Tuned (cs ++ ctls (ch.readingOffCalls : List (Effect β))) false ch.readingOff := by
  have hevents : ch.events &&& ~~~kReadEventLT = interests false ch.isWriting := by
    rw [h.events, interests_disable_read]
  refine h.update hevents (.inl ?_)
  rw [h.isNoneEvent_eq]
  simp

end Tuned

end Cannet.Net
